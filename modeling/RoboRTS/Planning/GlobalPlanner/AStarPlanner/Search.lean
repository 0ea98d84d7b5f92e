import RoboRTS.Lib.BestFirst
import RoboRTS.Planning.GlobalPlanner.AStarPlanner.Grid
import Mathlib.Data.Finset.Max
import Mathlib.Data.List.Perm.Subperm

/-!
# The main loop of the A* planner

`pops` lists what has come off the open list. An iteration of the main loop is a step of the
best-first search over `Move` (`Tables.expands`): the closed cells are `pops`, and the loop over
the neighbours gives a cell that is not closed the current cell as its parent where that lowers its
score (`visits_changes`). A cell is pushed once, so there are at most as many iterations as cells.
-/

namespace RoboRTS.GlobalPlanner.AStarPlanner

open Common Path BestFirst

variable (p : AStarPlanner)

/-- What a step from `i` to `j` adds to the score. -/
def weight (i j : Nat) : Int :=
  (p.getMoveCost i j 0).2 + (p.cost j).toNat

/-- The search as a best-first search that has closed `pops`. -/
def frontier (pops : List Nat) (s : Search) : Frontier Nat where
  closed := pops
  opened := (· ∈ s.openlist)
  parent := s.parent
  g := s.gScore

/-- The cell `j` is in `s'` as it is in `s`. -/
structure Same (s s' : Search) (j : Nat) : Prop where
  g : s'.gScore j = s.gScore j
  f : s'.fScore j = s.fScore j
  parent : s'.parent j = s.parent j
  state : s'.state j = s.state j

/-- The neighbour `j` of `c` was reached through `c` with a lower score. Only a cell that was not
handled gets an `f_score_`. -/
structure Improved (goalIndex c : Nat) (s s' : Search) (j : Nat) : Prop where
  move : p.Move c j
  notClosed : s.state j ≠ .CLOSED
  state : s'.state j = .OPEN
  parent : s'.parent j = c
  g : s'.gScore j = s.gScore c + p.weight c j
  lower : s'.gScore j < s.gScore j
  fFirst : s.state j = .NOT_HANDLED →
    s'.fScore j = s'.gScore j + p.getManhattanDistance j goalIndex
  fLater : s.state j = .OPEN → s'.fScore j = s.fScore j

/-- What the loop over the neighbours of the closed cell `c` can have changed. -/
structure Changes (goalIndex c : Nat) (s s' : Search) : Prop where
  current : s'.currentIndex = s.currentIndex
  found : s'.found = s.found
  cell : ∀ j, Same s s' j ∨ p.Improved goalIndex c s s' j

/-- The tables agree with each other and with the cells that were popped. Before the first pop the
start is on the open list without being `OPEN`. -/
structure Tables (startIndex : Nat) (pops : List Nat) (s : Search) : Prop where
  first : pops = [] → ∀ j, s.state j = .NOT_HANDLED
  closed : ∀ j, s.state j = .CLOSED ↔ j ∈ pops
  opened : ∀ j, j ∈ s.openlist ↔ s.state j = .OPEN ∨ pops = [] ∧ j = startIndex
  nodup : s.openlist.Nodup
  unhandled : ∀ j, s.state j = .NOT_HANDLED →
    s.gScore j = intMax ∨ pops = [] ∧ j = startIndex
  inMap : ∀ j, s.state j ≠ .NOT_HANDLED → j < p.cells

variable {p} {startIndex goalIndex c : Nat} {pops : List Nat} {s s' : Search}

theorem Same.refl (s : Search) (j : Nat) : Same s s j := ⟨rfl, rfl, rfl, rfl⟩

theorem Changes.refl (s : Search) : p.Changes goalIndex c s s :=
  ⟨rfl, rfl, fun j => Or.inl (Same.refl s j)⟩

/-- A closed cell is left alone. -/
theorem Changes.same_of_closed (h : p.Changes goalIndex c s s') {j : Nat}
    (hj : s.state j = .CLOSED) : Same s s' j := by
  cases h.cell j with
  | inl hsame => exact hsame
  | inr himproved => exact absurd hj himproved.notClosed

/-- A neighbour is improved at most once in the loop over the neighbours of a cell. -/
theorem Changes.trans {s₁ : Search} (hc : s.state c = .CLOSED) (h : p.Changes goalIndex c s s₁)
    (h₁ : p.Changes goalIndex c s₁ s') : p.Changes goalIndex c s s' := by
  have hgc := (h.same_of_closed hc).g
  refine ⟨h₁.current.trans h.current, h₁.found.trans h.found, fun j => ?_⟩
  cases h.cell j with
  | inl hsame =>
      cases h₁.cell j with
      | inl hsame₁ =>
          exact Or.inl ⟨hsame₁.g.trans hsame.g, hsame₁.f.trans hsame.f,
            hsame₁.parent.trans hsame.parent, hsame₁.state.trans hsame.state⟩
      | inr himp =>
          refine Or.inr ⟨himp.move, hsame.state ▸ himp.notClosed, himp.state, himp.parent,
            hgc ▸ himp.g, hsame.g ▸ himp.lower, ?_, ?_⟩
          · intro hj
            exact himp.fFirst (hsame.state.trans hj)
          · intro hj
            exact (himp.fLater (hsame.state.trans hj)).trans hsame.f
  | inr himp =>
      cases h₁.cell j with
      | inl hsame₁ =>
          refine Or.inr ⟨himp.move, himp.notClosed, hsame₁.state.trans himp.state,
            hsame₁.parent.trans himp.parent, hsame₁.g.trans himp.g, ?_, ?_, ?_⟩
          · rw [hsame₁.g]
            exact himp.lower
          · intro hj
            rw [hsame₁.f, hsame₁.g]
            exact himp.fFirst hj
          · intro hj
            exact hsame₁.f.trans (himp.fLater hj)
      | inr himp₁ =>
          -- the second score through `c` would have to be below the first
          have hlower := himp₁.lower
          rw [himp₁.g, himp.g, hgc] at hlower
          exact absurd hlower (lt_irrefl _)

/-- The score and the parent of `n` are set. -/
def lowered (s : Search) (n : Nat) (g : Int) : Search :=
  { s with
    gScore := Function.update s.gScore n g
    parent := Function.update s.parent n s.currentIndex }

/-- A cell that was not handled is pushed with its `f_score_`. -/
def pushed (s : Search) (n : Nat) (f : Int) : Search :=
  { s with
    fScore := Function.update s.fScore n f
    openlist := n :: s.openlist
    state := Function.update s.state n .OPEN }

/-- What the comparison of the scores does with a neighbour. -/
theorem relax_cases {n : Nat} {g : Int}
    (hg : s.gScore s.currentIndex + s.moveCost + (p.cost n).toNat = g)
    (h : p.relax goalIndex s n = some s') :
    s.gScore n ≤ g ∧ g < intMax ∧ s' = s ∨
    g < s.gScore n ∧ s.state n ≠ .NOT_HANDLED ∧ s' = lowered s n g ∨
    g < s.gScore n ∧ s.state n = .NOT_HANDLED ∧
      s' = pushed (lowered s n g) n (g + p.getManhattanDistance n goalIndex) := by
  simp only [relax, hg] at h
  by_cases hmax : g < intMax
  case neg => simp [hmax] at h
  rw [if_pos hmax] at h
  by_cases hlower : s.gScore n > g
  case neg =>
    rw [if_neg hlower] at h
    cases h
    exact Or.inl ⟨by omega, hmax, rfl⟩
  rw [if_pos hlower] at h
  by_cases hstate : s.state n = .NOT_HANDLED
  case neg =>
    rw [if_neg hstate] at h
    cases h
    exact Or.inr (Or.inl ⟨hlower, hstate, rfl⟩)
  rw [if_pos hstate] at h
  simp only [discover, Function.update_self] at h
  by_cases hf : g + p.getManhattanDistance n goalIndex < intMax
  case neg => simp [hf] at h
  rw [if_pos hf] at h
  cases h
  exact Or.inr (Or.inr ⟨hlower, hstate, rfl⟩)

/-- The arrays have an element for each cell. -/
theorem Fits.size (hfits : p.Fits) : p.size = p.cells := by
  unfold Fits at hfits
  exact Nat.mod_eq_of_lt (by omega)

/-- The width is small as well, with one more column. -/
theorem Fits.width (hfits : p.Fits) (hc : c < p.cells) : p.gridmapWidth + 1 < 2 ^ 31 := by
  unfold Fits at hfits
  omega

/-- The loop over the neighbours skips a neighbour or compares its score. -/
theorem visit_neighbor {j : Nat} (hfits : p.Fits) (hc : c < p.cells) (hj : j < p.cells) (hadj : p.Adjacent c j)
    (hcurrent : s.currentIndex = c) :
    p.visit goalIndex s j =
      if ¬ p.Accessible j ∨ s.state j = .CLOSED then some s
      else p.relax goalIndex { s with moveCost := (p.getMoveCost c j 0).2 } j := by
  obtain ⟨m, -, hm⟩ := getMoveCost_of_adjacent (hfits.width hc) hc hj hadj
  have hin : ¬ ((j : Int) < 0 ∨ (j : Int) ≥ p.cells) := by omega
  rw [visit, hfits.size, if_neg hin]
  simp only [Int.toNat_natCast, hm, Accessible, ge_iff_le, not_lt, hcurrent]

/-- What the tables of a state say of one in which a cell on the open list got a lower score. -/
theorem Tables.lowered {n : Nat} {g : Int} (ht : p.Tables startIndex pops s) (hpops : pops ≠ [])
    (hn : s.state n = .OPEN) : p.Tables startIndex pops (lowered s n g) where
  first hnil := absurd hnil hpops
  closed := ht.closed
  opened := ht.opened
  nodup := ht.nodup
  unhandled := by
    intro j hj
    have hne : j ≠ n := by
      rintro rfl
      exact absurd (hj.symm.trans hn) (by simp)
    have h := ht.unhandled j hj
    simpa [AStarPlanner.lowered, Function.update_of_ne hne, hpops] using h
  inMap := ht.inMap

theorem Tables.pushed {n : Nat} {g f : Int} (ht : p.Tables startIndex pops s) (hpops : pops ≠ [])
    (hn : s.state n = .NOT_HANDLED) (hmap : n < p.cells) :
    p.Tables startIndex pops (pushed (AStarPlanner.lowered s n g) n f) := by
  have hfresh : n ∉ s.openlist := by
    intro hmem
    have h := (ht.opened n).mp hmem
    simp [hn, hpops] at h
  constructor
  case first => exact fun hnil => absurd hnil hpops
  case closed =>
    intro j
    by_cases hj : j = n
    · subst hj
      have h := (ht.closed j).not.mp (by simp [hn])
      simp [AStarPlanner.pushed, AStarPlanner.lowered, h]
    · simpa [AStarPlanner.pushed, AStarPlanner.lowered, Function.update_of_ne hj] using ht.closed j
  case opened =>
    intro j
    by_cases hj : j = n
    · subst hj
      simp [AStarPlanner.pushed, AStarPlanner.lowered]
    · simpa [AStarPlanner.pushed, AStarPlanner.lowered, Function.update_of_ne hj, hj]
        using ht.opened j
  case nodup =>
    exact List.nodup_cons.mpr ⟨hfresh, ht.nodup⟩
  case unhandled =>
    intro j hj
    by_cases hjn : j = n
    · subst hjn
      simp [AStarPlanner.pushed] at hj
    · simp only [AStarPlanner.pushed, AStarPlanner.lowered, Function.update_of_ne hjn] at hj ⊢
      exact ht.unhandled j hj
  case inMap =>
    intro j hj
    by_cases hjn : j = n
    · exact hjn ▸ hmap
    · simp only [AStarPlanner.pushed, AStarPlanner.lowered, Function.update_of_ne hjn] at hj
      exact ht.inMap j hj

/-- The score through `c` has been offered to the cell `j`. -/
def Offered (p : AStarPlanner) (c : Nat) (s : Search) (j : Nat) : Prop :=
  s.state j = .CLOSED ∨ s.state j = .OPEN ∧ s.gScore j ≤ s.gScore c + p.weight c j

/-- An offer stands while the loop goes on. -/
theorem Offered.changes {j : Nat} (h : p.Offered c s j) (hc : s.state c = .CLOSED)
    (hchanges : p.Changes goalIndex c s s') : p.Offered c s' j := by
  have hgc := (hchanges.same_of_closed hc).g
  cases hchanges.cell j with
  | inl hsame =>
      unfold Offered
      rw [hsame.state, hsame.g, hgc]
      exact h
  | inr himp =>
      refine Or.inr ⟨himp.state, ?_⟩
      rw [himp.g, hgc]

/-- One iteration of the loop over the neighbours of the current cell `c`. -/
theorem visit_changes {n : Int} (hfits : p.Fits) (ht : p.Tables startIndex pops s) (hc : c ∈ pops)
    (hcurrent : s.currentIndex = c) (hn : p.Touches c n)
    (h : p.visit goalIndex s n = some s') :
    p.Tables startIndex pops s' ∧ p.Changes goalIndex c s s' ∧
      ∀ j : Nat, n = j → p.Accessible j → p.Offered c s' j := by
  have hpops : pops ≠ [] := List.ne_nil_of_mem hc
  have hclosed := (ht.closed c).mpr hc
  have hmap : c < p.cells := ht.inMap c (by simp [hclosed])
  obtain ⟨j, rfl, hj, hadj⟩ := hn
  obtain ⟨m, -, hm⟩ := getMoveCost_of_adjacent (hfits.width hmap) hmap hj hadj
  rw [visit_neighbor hfits hmap hj hadj hcurrent] at h
  by_cases hskip : ¬ p.Accessible j ∨ s.state j = .CLOSED
  case pos =>
    rw [if_pos hskip] at h
    cases h
    refine ⟨ht, Changes.refl s, ?_⟩
    intro i hi haccessible
    obtain rfl : j = i := by exact_mod_cast hi
    exact Or.inl (hskip.resolve_left (fun hnot => hnot haccessible))
  rw [if_neg hskip] at h
  obtain ⟨haccessible, hopen⟩ := not_or.mp hskip
  rw [not_not] at haccessible
  have hmove : p.Move c j := ⟨hmap, hj, hadj, haccessible⟩
  have hne : c ≠ j := by
    rintro rfl
    exact hopen hclosed
  have hg : s.gScore s.currentIndex + (p.getMoveCost c j 0).2 + (p.cost j).toNat =
      s.gScore c + p.weight c j := by
    rw [hcurrent, weight]
    omega
  -- the tables do not mention `move_cost`
  have ht' : p.Tables startIndex pops { s with moveCost := (p.getMoveCost c j 0).2 } :=
    ⟨ht.first, ht.closed, ht.opened, ht.nodup, ht.unhandled, ht.inMap⟩
  obtain ⟨hle, hmax, rfl⟩ | ⟨hlower, hstate, rfl⟩ | ⟨hlower, hstate, rfl⟩ := relax_cases hg h
  · refine ⟨ht', ⟨rfl, rfl, fun i => Or.inl ⟨rfl, rfl, rfl, rfl⟩⟩, ?_⟩
    intro i hi _
    obtain rfl : j = i := by exact_mod_cast hi
    cases hs : s.state j with
    | CLOSED => exact absurd hs hopen
    | OPEN => exact Or.inr ⟨hs, hle⟩
    | NOT_HANDLED =>
        -- a score below the bound would have been taken
        have hunhandled := ht.unhandled j hs
        simp only [hpops, false_and, or_false] at hunhandled
        have hle : s.gScore j ≤ _ := hle
        omega
  · have hopen' : s.state j = .OPEN := by
      cases hs : s.state j with
      | NOT_HANDLED => exact absurd hs hstate
      | OPEN => rfl
      | CLOSED => exact absurd hs hopen
    refine ⟨ht'.lowered hpops hopen', ⟨rfl, rfl, fun i => ?_⟩, ?_⟩
    · by_cases hi : i = j
      · subst hi
        right
        constructor
        case move => exact hmove
        case notClosed => exact hopen
        case state => exact hopen'
        case parent => simp [lowered, hcurrent]
        case g => simp [lowered]
        case lower => simpa [lowered] using hlower
        case fFirst => exact fun hs => absurd hs hstate
        case fLater => exact fun _ => rfl
      · left
        constructor <;> simp [lowered, Function.update_of_ne hi]
    · intro i hi _
      obtain rfl : j = i := by exact_mod_cast hi
      exact Or.inr ⟨hopen', by simp [lowered, Function.update_of_ne hne]⟩
  · refine ⟨ht'.pushed hpops hstate hj, ⟨rfl, rfl, fun i => ?_⟩, ?_⟩
    · by_cases hi : i = j
      · subst hi
        right
        constructor
        case move => exact hmove
        case notClosed => exact hopen
        case state => simp [pushed]
        case parent => simp [pushed, lowered, hcurrent]
        case g => simp [pushed, lowered]
        case lower => simpa [pushed, lowered] using hlower
        case fFirst => simp [pushed, lowered]
        case fLater =>
          intro hs
          exact absurd (hstate.symm.trans hs) (by simp)
      · left
        constructor <;> simp [pushed, lowered, Function.update_of_ne hi]
    · intro i hi _
      obtain rfl : j = i := by exact_mod_cast hi
      exact Or.inr ⟨by simp [pushed], by simp [pushed, lowered, Function.update_of_ne hne]⟩

/-- The loop over the neighbours: it offers the score through `c` to every cell around. -/
theorem visits_changes {ns : List Int} (hfits : p.Fits) (ht : p.Tables startIndex pops s)
    (hc : c ∈ pops) (hcurrent : s.currentIndex = c) (hns : ∀ n ∈ ns, p.Touches c n)
    (h : ns.foldlM (p.visit goalIndex) s = some s') :
    p.Tables startIndex pops s' ∧ p.Changes goalIndex c s s' ∧
      ∀ j : Nat, (j : Int) ∈ ns → p.Accessible j → p.Offered c s' j := by
  induction ns generalizing s with
  | nil =>
      cases h
      exact ⟨ht, Changes.refl _, by simp⟩
  | cons n ns ih =>
      rw [List.foldlM_cons, Option.bind_eq_bind, Option.bind_eq_some_iff] at h
      obtain ⟨s₁, hfirst, hrest⟩ := h
      have hclosed := (ht.closed c).mpr hc
      obtain ⟨ht₁, hchanges₁, hoffered₁⟩ :=
        visit_changes hfits ht hc hcurrent (hns n List.mem_cons_self) hfirst
      have hclosed₁ := (hchanges₁.same_of_closed hclosed).state.trans hclosed
      obtain ⟨ht', hchanges, hoffered⟩ := ih ht₁ (hchanges₁.current.trans hcurrent)
        (fun x hx => hns x (List.mem_cons_of_mem n hx)) hrest
      refine ⟨ht', hchanges₁.trans hclosed hchanges, ?_⟩
      intro j hj haccessible
      cases List.mem_cons.mp hj with
      | inl hn => exact (hoffered₁ j hn.symm haccessible).changes hclosed₁ hchanges
      | inr hmem => exact hoffered j hmem haccessible

/-- What an iteration of the main loop does. -/
theorem step_cases (h : p.step goalIndex s c = some s') :
    s.found = false ∧ s.IsTop c ∧
      (c = goalIndex ∧ s' = { s.pop c with found := true } ∨
      c ≠ goalIndex ∧ ∃ neighborsIndex s₁, p.getNineNeighbors c = some neighborsIndex ∧
        neighborsIndex.foldlM (p.visit goalIndex) (s.pop c) = some s₁ ∧
        s' = { s₁ with count := s₁.count + 1 }) := by
  unfold step at h
  by_cases htop : s.found = false ∧ s.IsTop c
  case neg => simp [htop] at h
  rw [if_pos htop] at h
  refine ⟨htop.1, htop.2, ?_⟩
  by_cases hgoal : c = goalIndex
  · rw [if_pos hgoal] at h
    cases h
    exact Or.inl ⟨hgoal, rfl⟩
  · rw [if_neg hgoal, Option.bind_eq_some_iff] at h
    obtain ⟨neighborsIndex, hneighbors, h⟩ := h
    obtain ⟨s₁, hloop, hs'⟩ := Option.map_eq_some_iff.mp h
    exact Or.inr ⟨hgoal, neighborsIndex, s₁, hneighbors, hloop, hs'.symm⟩

/-- The loop over the neighbours of the cell `c` that was popped. -/
theorem loop_changes {neighborsIndex : List Int} (hfits : p.Fits)
    (ht : p.Tables startIndex (pops ++ [c]) (s.pop c))
    (hneighbors : p.getNineNeighbors c = some neighborsIndex)
    (h : neighborsIndex.foldlM (p.visit goalIndex) (s.pop c) = some s') :
    p.Tables startIndex (pops ++ [c]) s' ∧ p.Changes goalIndex c (s.pop c) s' ∧
      ∀ j : Nat, p.Move c j → p.Offered c s' j := by
  have hmap : c < p.cells := ht.inMap c (by simp [Search.pop])
  obtain ⟨touching, htouching, hmem⟩ := getNineNeighbors_of_fits hfits hmap
  rw [hneighbors] at htouching
  cases htouching
  obtain ⟨ht', hchanges, hoffered⟩ :=
    visits_changes (c := c) hfits ht (by simp) rfl (fun n hn => (hmem n).mp hn) h
  refine ⟨ht', hchanges, fun j hmove => hoffered j ?_ hmove.accessible⟩
  exact (hmem j).mpr ⟨j, rfl, hmove.target, hmove.adjacent⟩

/-- Before the first pop the start is alone on the open list. -/
theorem Tables.eq_start (ht : p.Tables startIndex pops s) (hc : c ∈ s.openlist)
    (hnil : pops = []) : c = startIndex := by
  cases (ht.opened c).mp hc with
  | inl hopen =>
      rw [ht.first hnil c] at hopen
      cases hopen
  | inr hfirst => exact hfirst.2

/-- The cell that is popped leaves the open list and is closed. -/
theorem Tables.pop (ht : p.Tables startIndex pops s) (hstart : startIndex < p.cells)
    (hc : c ∈ s.openlist) : p.Tables startIndex (pops ++ [c]) (s.pop c) := by
  have hpops : pops ++ [c] ≠ [] := by simp
  constructor
  case first => exact fun hnil => absurd hnil hpops
  case closed =>
    intro j
    by_cases hj : j = c
    · subst hj
      simp [Search.pop]
    · simpa [Search.pop, Function.update_of_ne hj, hj] using ht.closed j
  case opened =>
    intro j
    by_cases hj : j = c
    · subst hj
      simp [Search.pop, ht.nodup.not_mem_erase]
    · have hfirst : ¬ (pops = [] ∧ j = startIndex) := by
        rintro ⟨hnil, rfl⟩
        exact hj (ht.eq_start hc hnil).symm
      simp only [Search.pop, List.mem_erase_of_ne hj, Function.update_of_ne hj, hpops, false_and,
        or_false]
      rw [ht.opened j]
      simp [hfirst]
  case nodup => exact ht.nodup.erase c
  case unhandled =>
    intro j hj
    by_cases hjc : j = c
    · subst hjc
      simp [Search.pop] at hj
    · simp only [Search.pop, Function.update_of_ne hjc] at hj ⊢
      cases ht.unhandled j hj with
      | inl hmax => exact Or.inl hmax
      | inr hfirst => exact absurd (hfirst.2.trans (ht.eq_start hc hfirst.1).symm) hjc
  case inMap =>
    intro j hj
    by_cases hjc : j = c
    · subst hjc
      cases (ht.opened j).mp hc with
      | inl hopen => exact ht.inMap j (by simp [hopen])
      | inr hfirst => exact hfirst.2 ▸ hstart
    · simp only [Search.pop, Function.update_of_ne hjc] at hj
      exact ht.inMap j hj

/-- An iteration of the main loop is a step of the best-first search. -/
theorem Tables.expands (hfits : p.Fits) (ht : p.Tables startIndex pops s) (hstart : startIndex < p.cells)
    (h : p.step goalIndex s c = some s') :
    p.Tables startIndex (pops ++ [c]) s' ∧
      Expands p.Move p.weight goalIndex (frontier pops s) c (frontier (pops ++ [c]) s') ∧
      s'.currentIndex = c ∧ (s'.found = true ↔ c = goalIndex) := by
  obtain ⟨hfound, ⟨hc, -⟩, hcase⟩ := step_cases h
  have htop := ht.pop hstart hc
  have hkept : ∀ j, j ∈ (s.pop c).openlist ↔ j ∈ s.openlist ∧ j ≠ c := by
    intro j
    rw [and_comm]
    exact ht.nodup.mem_erase_iff
  cases hcase with
  | inl hgoal =>
      obtain ⟨hgoal, rfl⟩ := hgoal
      refine ⟨⟨htop.first, htop.closed, htop.opened, htop.nodup, htop.unhandled, htop.inMap⟩, ?_,
        rfl, by simp [hgoal]⟩
      exact ⟨hc, rfl, fun j => Or.inl ⟨rfl, rfl, hkept j⟩, fun hne => absurd hgoal hne⟩
  | inr hloop =>
      obtain ⟨hne, neighborsIndex, s₁, hneighbors, hloop, rfl⟩ := hloop
      obtain ⟨ht₁, hchanges, hoffered⟩ := loop_changes hfits htop hneighbors hloop
      refine ⟨⟨ht₁.first, ht₁.closed, ht₁.opened, ht₁.nodup, ht₁.unhandled, ht₁.inMap⟩, ?_,
        hchanges.current, ?_⟩
      rotate_left
      · rw [show ({ s₁ with count := s₁.count + 1 } : Search).found = s.found from hchanges.found]
        simp [hfound, hne]
      have hopened : ∀ j, j ∈ s₁.openlist ↔ s₁.state j = .OPEN := fun j => by
        simpa using ht₁.opened j
      have hopened' : ∀ j, j ∈ (s.pop c).openlist ↔ (s.pop c).state j = .OPEN := fun j => by
        simpa using htop.opened j
      constructor
      case mem => exact hc
      case closed => rfl
      case node =>
        intro j
        cases hchanges.cell j with
        | inl hsame =>
            left
            constructor
            case g => exact hsame.g
            case parent => exact hsame.parent
            case opened =>
              show j ∈ s₁.openlist ↔ j ∈ s.openlist ∧ j ≠ c
              rw [hopened, hsame.state, ← hopened', hkept]
        | inr himp =>
            right
            constructor
            case edge => exact himp.move
            case notClosed =>
              show j ∉ pops ++ [c]
              rw [← ht₁.closed j, himp.state]
              simp
            case opened => exact (hopened j).mpr himp.state
            case parent => exact himp.parent
            case g => exact himp.g
            case lower => exact fun _ => himp.lower.le
      case relaxed =>
        intro _ j hmove
        have hgc := (hchanges.same_of_closed (j := c) (by simp [Search.pop])).g
        cases hoffered j hmove with
        | inl hclosed => exact Or.inl ((ht₁.closed j).mp hclosed)
        | inr hopen =>
            right
            refine ⟨(hopened j).mpr hopen.1, ?_⟩
            have hle := hopen.2
            rw [hgc] at hle
            exact hle

end RoboRTS.GlobalPlanner.AStarPlanner
