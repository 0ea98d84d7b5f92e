import RoboRTS.Planning.GlobalPlanner.AStarPlanner.Correctness
import Mathlib.Algebra.Order.Floor.Ring
import Mathlib.Data.Rat.Floor
import Mathlib.Tactic.Linarith

/-!
# The cost of the path that the A* planner returns

With a factor of at most 7/10 the truncated heuristic is consistent (`consistent_heuristic`), so a
search that always takes a cell with the least score plus heuristic returns a path of least cost.
The open list compares the cells by `f_score_`, which is set when a cell is pushed and not when its
score is lowered afterwards, so the cell on top need not be one of them
(`searchPath_misses_least`). `run_least` is the result for the runs in which it is.
-/

namespace RoboRTS.GlobalPlanner.AStarPlanner

open Common Path BestFirst

/-- `heuristic_factor_ * 10 * d` for a factor that is not negative, truncated. -/
def truncated (factor : ℚ) (d : Nat) : Int :=
  ⌊factor * 10 * d⌋

variable (p : AStarPlanner)

/-- A step costs 10 or, diagonally, 14, and the cost of the cell that is entered. -/
def stepCost (i j : Nat) : Int :=
  (if p.Straight i j then 10 else 14) + (p.cost j).toNat

/-- The cell `i` that comes off the open list has the least score plus heuristic there. -/
def LeastFirst (goalIndex : Nat) (s : Search) (i : Nat) : Prop :=
  ∀ j ∈ s.openlist, s.gScore i + p.getManhattanDistance i goalIndex ≤
    s.gScore j + p.getManhattanDistance j goalIndex

instance (goalIndex : Nat) (s : Search) (i : Nat) : Decidable (p.LeastFirst goalIndex s i) :=
  inferInstanceAs (Decidable (∀ j ∈ s.openlist, _))

variable {p} {startIndex goalIndex c : Nat} {pops : List Nat} {s s' : Search}

/-- On a map of three columns the moves along a row and across two rows have different index
distances, so `GetMoveCost` tells them apart. -/
theorem weight_eq_stepCost (hfits : p.Fits) (hwidth : 3 ≤ p.gridmapWidth) {i j : Nat} (h : p.Move i j) :
    p.weight i j = p.stepCost i j := by
  unfold weight stepCost
  rw [getMoveCost_eq (by omega) (hfits.width h.source)]
  obtain ⟨hstraight, hdist⟩ | ⟨hdiagonal, hdist⟩ := natAbs_of_adjacent h.source h.target h.adjacent
  · rw [if_pos hdist, if_pos hstraight]
  · rw [if_neg (by omega), if_pos hdist, if_neg hdiagonal]

/-- A move changes the Manhattan distance by the number of its rows and columns. -/
theorem manhattan_le {i j k : Nat} (h : p.Move i j) :
    p.manhattan i k ≤ p.manhattan j k + if p.Straight i j then 1 else 2 := by
  obtain ⟨-, ⟨hup, hdown⟩, hleft, hright⟩ := h.adjacent
  unfold manhattan
  by_cases hstraight : p.Straight i j
  · rw [if_pos hstraight]
    unfold Straight at hstraight
    omega
  · rw [if_neg hstraight]
    omega

theorem truncated_le {factor : ℚ} (hpos : 0 ≤ factor) (hle : factor ≤ 7 / 10) {d e n : Nat}
    (hd : d ≤ e + n) : truncated factor d ≤ 7 * n + truncated factor e := by
  unfold truncated
  have hd' : (d : ℚ) ≤ e + n := by exact_mod_cast hd
  have hbound : factor * 10 * d ≤ factor * 10 * e + ((7 * n : ℕ) : ℤ) := by
    have hn : (0 : ℚ) ≤ n := by positivity
    push_cast
    nlinarith
  calc ⌊factor * 10 * d⌋ ≤ ⌊factor * 10 * e + ((7 * n : ℕ) : ℤ)⌋ := Int.floor_le_floor hbound
    _ = 7 * n + ⌊factor * 10 * e⌋ := by
        rw [Int.floor_add_intCast]
        push_cast
        ring

/-- The truncated heuristic never drops by more than a step costs. -/
theorem consistent_heuristic {factor : ℚ} (hpos : 0 ≤ factor) (hle : factor ≤ 7 / 10)
    (hheuristic : p.heuristic = truncated factor) (hfits : p.Fits) (hwidth : 3 ≤ p.gridmapWidth) :
    Consistent p.Move p.weight (p.getManhattanDistance · goalIndex) := by
  intro i j hmove
  rw [weight_eq_stepCost hfits hwidth hmove]
  have hdrop := truncated_le hpos hle (manhattan_le (k := goalIndex) hmove)
  simp only [getManhattanDistance, hheuristic, stepCost]
  split_ifs at hdrop ⊢ <;> omega

/-- Taking a cell of least score plus heuristic keeps the scores of the closed cells final. -/
theorem SearchInv.step_optimal (hfits : p.Fits) (hinv : p.SearchInv startIndex goalIndex pops s)
    (hconsistent : Consistent p.Move p.weight (p.getManhattanDistance · goalIndex))
    (hstart : startIndex < p.cells) (hopt : Optimal p.Move p.weight startIndex (frontier pops s))
    (hleast : p.LeastFirst goalIndex s c) (h : p.step goalIndex s c = some s') :
    Optimal p.Move p.weight startIndex (frontier (pops ++ [c]) s') := by
  have hgoal : goalIndex ∉ pops := by
    rw [← hinv.found, (step_cases h).1]
    simp
  obtain ⟨-, hexpands, -, -⟩ := hinv.tables.expands hfits hstart h
  exact hinv.search.optimal hopt hconsistent (fun i j _ => (weight_le p i j).1) hgoal hexpands hleast

/-- The scores of the closed cells are final in a run that always takes such a cell. -/
theorem run_optimal (hfits : p.Fits)
    (hconsistent : Consistent p.Move p.weight (p.getManhattanDistance · goalIndex))
    (hstart : startIndex < p.cells) {before : List Nat} {s₀ : Search}
    (hinv : p.SearchInv startIndex goalIndex before s₀)
    (hopt : Optimal p.Move p.weight startIndex (frontier before s₀))
    (hleast : StateMachine.Along (p.step goalIndex) (p.LeastFirst goalIndex) s₀ pops)
    (hrun : StateMachine.run (p.step goalIndex) s₀ pops = some s) :
    Optimal p.Move p.weight startIndex (frontier (before ++ pops) s) := by
  induction pops generalizing before s₀ with
  | nil =>
      cases hrun
      rw [List.append_nil]
      exact hopt
  | cons c pops ih =>
      rw [StateMachine.run_cons, Option.bind_eq_some_iff] at hrun
      obtain ⟨s₁, hfirst, hrest⟩ := hrun
      obtain ⟨hhead, htail⟩ := hleast
      rw [hfirst] at htail
      rw [List.append_cons]
      exact ih (hinv.step hfits hstart hfirst)
        (hinv.step_optimal hfits hconsistent hstart hopt hhead hfirst) htail hrest

/-- The weights along a path are the step costs. -/
theorem pathCost_weight (hfits : p.Fits) (hwidth : 3 ≤ p.gridmapWidth) {l : List Nat}
    (h : l.IsChain p.Move) :
    pathCost p.weight l = pathCost p.stepCost l := by
  induction l with
  | nil => rfl
  | cons i l ih =>
      cases l with
      | nil => rfl
      | cons j l =>
          obtain ⟨hmove, hrest⟩ := List.isChain_cons_cons.mp h
          show p.weight i j + pathCost p.weight (j :: l) =
            p.stepCost i j + pathCost p.stepCost (j :: l)
          rw [weight_eq_stepCost hfits hwidth hmove, ih hrest]

/-- In every run that only takes cells of least score plus heuristic, the path that `SearchPath`
returns costs no more than any other path from the start to the goal. -/
theorem run_least (p : AStarPlanner) (factor : ℚ) (startIndex goalIndex : Nat) (pops path : List Nat)
    (hwidth : 3 ≤ p.gridmapWidth) (hpos : 0 ≤ factor) (hle : factor ≤ 7 / 10)
    (hheuristic : p.heuristic = truncated factor) (hfits : p.Fits) (hstart : startIndex < p.cells)
    (hleast : StateMachine.Along (p.step goalIndex) (p.LeastFirst goalIndex)
      (startSearch startIndex) pops) :
    ∀ e l, p.searchPath startIndex goalIndex path pops = some (e, l) → e.IsOK = true →
      IsPath p.Move startIndex goalIndex l ∧
      ∀ other, IsPath p.Move startIndex goalIndex other →
        pathCost p.stepCost l ≤ pathCost p.stepCost other := by
  intro e l hresult hok
  obtain ⟨s, hreaches, hended, hresult⟩ := searchPath_eq_some hresult
  have hinv : p.SearchInv startIndex goalIndex pops s := searchInv_of_reaches hfits hstart hreaches
  cases hfound : s.found with
  | false =>
      have hempty : s.openlist = [] := hended.resolve_left (by simp [hfound])
      rw [hinv.endSearch_empty hfound hempty] at hresult
      cases hresult
      simp [ErrorInfo.IsOK] at hok
  | true =>
      obtain ⟨l', hend, hpath, -, hcost⟩ := hinv.endSearch_found hfits hfound path
      rw [hend] at hresult
      cases hresult
      refine ⟨hpath, fun other hother => ?_⟩
      have hfinal := run_optimal hfits (consistent_heuristic hpos hle hheuristic hfits hwidth)
        hstart searchInv_startSearch (fun i hi => by simp [frontier] at hi) hleast hreaches
      calc pathCost p.stepCost l
          = s.gScore goalIndex := by rw [← pathCost_weight hfits hwidth hpath.chain, hcost]
        _ ≤ pathCost p.weight other := hfinal goalIndex (hinv.found.mp hfound) _ hother.walk
        _ = pathCost p.stepCost other := pathCost_weight hfits hwidth hother.chain

section Settled

variable (p) in
/-- The cell `i` offers no cell on the open list a lower score. -/
def Settled (goalIndex : Nat) (s : Search) (i : Nat) : Prop :=
  i ≠ goalIndex → ∀ j ∈ s.openlist, p.Move i j → s.gScore j ≤ s.gScore i + p.weight i j

variable (p) in
/-- The `f_score_` of a cell on the open list is its score plus heuristic. -/
def Keyed (startIndex goalIndex : Nat) (s : Search) : Prop :=
  ∀ j ∈ s.openlist, j ≠ startIndex →
    s.fScore j = s.gScore j + p.getManhattanDistance j goalIndex

/-- The key of a cell goes stale only where its score is lowered. -/
theorem SearchInv.step_keyed (hfits : p.Fits) (hinv : p.SearchInv startIndex goalIndex pops s)
    (hstart : startIndex < p.cells) (hkeyed : p.Keyed startIndex goalIndex s)
    (hsettled : p.Settled goalIndex s c) (h : p.step goalIndex s c = some s') :
    p.Keyed startIndex goalIndex s' := by
  intro j hj hne
  obtain ⟨-, ⟨hc, -⟩, hcase⟩ := step_cases h
  have htop := hinv.tables.pop hstart hc
  have hopen_of : ∀ {i}, i ∈ (s.pop c).openlist → i ∈ s.openlist := List.mem_of_mem_erase
  cases hcase with
  | inl hgoal =>
      obtain ⟨-, rfl⟩ := hgoal
      exact hkeyed j (hopen_of hj) hne
  | inr hloop =>
      obtain ⟨hgoal, neighborsIndex, s₁, hneighbors, hloop, rfl⟩ := hloop
      obtain ⟨ht₁, hchanges, -⟩ := loop_changes hfits htop hneighbors hloop
      have hstate : s₁.state j = .OPEN := by simpa using (ht₁.opened j).mp hj
      have hopen : (s.pop c).state j = .OPEN → j ∈ s.openlist := by
        intro hj
        exact hopen_of ((htop.opened j).mpr (Or.inl hj))
      cases hchanges.cell j with
      | inl hsame =>
          show s₁.fScore j = s₁.gScore j + _
          rw [hsame.f, hsame.g]
          exact hkeyed j (hopen (hsame.state.symm.trans hstate)) hne
      | inr himp =>
          cases hbefore : (s.pop c).state j with
          | NOT_HANDLED => exact himp.fFirst hbefore
          | CLOSED => exact absurd hbefore himp.notClosed
          | OPEN =>
              have hle := hsettled hgoal j (hopen hbefore) himp.move
              have hg : s₁.gScore j = s.gScore c + p.weight c j := himp.g
              have hlower : s₁.gScore j < s.gScore j := himp.lower
              omega

/-- With such keys the cell on top has the least score plus heuristic. -/
theorem SearchInv.leastFirst (hinv : p.SearchInv startIndex goalIndex pops s)
    (hkeyed : p.Keyed startIndex goalIndex s) (htop : s.IsTop c) : p.LeastFirst goalIndex s c := by
  intro j hj
  by_cases hnil : pops = []
  · rw [hinv.tables.eq_start htop.1 hnil, hinv.tables.eq_start hj hnil]
  · have hclosed := hinv.search.started.resolve_left hnil
    have hne : ∀ i ∈ s.openlist, i ≠ startIndex := by
      rintro i hi rfl
      exact hinv.search.apart i hi hclosed
    rw [← hkeyed c htop.1 (hne c htop.1), ← hkeyed j hj (hne j hj)]
    exact htop.2 j hj

/-- A run that lowers the score of no cell on the open list takes the cells in the right order. -/
theorem along_leastFirst (hfits : p.Fits) (hstart : startIndex < p.cells) {before : List Nat} {s₀ : Search}
    (hinv : p.SearchInv startIndex goalIndex before s₀) (hkeyed : p.Keyed startIndex goalIndex s₀)
    (hsettled : StateMachine.Along (p.step goalIndex) (p.Settled goalIndex) s₀ pops)
    (hrun : StateMachine.run (p.step goalIndex) s₀ pops = some s) :
    StateMachine.Along (p.step goalIndex) (p.LeastFirst goalIndex) s₀ pops := by
  induction pops generalizing before s₀ with
  | nil => trivial
  | cons c pops ih =>
      rw [StateMachine.run_cons, Option.bind_eq_some_iff] at hrun
      obtain ⟨s₁, hfirst, hrest⟩ := hrun
      obtain ⟨hhead, htail⟩ := hsettled
      rw [hfirst] at htail
      refine ⟨hinv.leastFirst hkeyed (step_cases hfirst).2.1, ?_⟩
      rw [hfirst]
      exact ih (hinv.step hfits hstart hfirst)
        (hinv.step_keyed hfits hstart hkeyed hhead hfirst) htail hrest

end Settled

/-- A grid on which the score of the cell 7 is lowered after it was pushed. -/
def detour : AStarPlanner where
  gridmapWidth := 3
  gridmapHeight := 4
  cost := fun i => [0, 0, 0, 0, 0, 4, 3, 0, 0, 0, 5, 255].getD i 0
  inaccessibleCost := 253
  heuristic := truncated (7 / 10)

/-- The cell 7 keeps the `f_score_` from before its score was lowered, so the goal comes off the
open list first and the path through the cell 6 is returned although the one through 7 costs
less. -/
theorem searchPath_misses_least :
    detour.Accessible 9 ∧
    detour.searchPath 1 9 [] [1, 3, 4, 0, 6, 9] = some (.OK, [1, 3, 6, 9]) ∧
    IsPath detour.Move 1 9 [1, 4, 7, 9] ∧
    pathCost detour.stepCost [1, 4, 7, 9] < pathCost detour.stepCost [1, 3, 6, 9] :=
  ⟨by decide +kernel, by decide +kernel, ⟨rfl, rfl, by decide +kernel⟩, by decide +kernel⟩

/-- A square of three rows and columns without costs. -/
def square : AStarPlanner where
  gridmapWidth := 3
  gridmapHeight := 3
  cost := fun _ => 0
  inaccessibleCost := 253
  heuristic := truncated (7 / 10)

/-- Across the square the search takes the diagonal. -/
theorem run_least_square :
    square.searchPath 0 8 [] [0, 4, 8] = some (.OK, [0, 4, 8]) ∧
    IsPath square.Move 0 8 [0, 4, 8] ∧ ∀ other, IsPath square.Move 0 8 other →
      pathCost square.stepCost [0, 4, 8] ≤ pathCost square.stepCost other := by
  have hresult : square.searchPath 0 8 [] [0, 4, 8] = some (.OK, [0, 4, 8]) := by decide +kernel
  exact ⟨hresult, run_least square (7 / 10) 0 8 [0, 4, 8] [] (by decide) (by norm_num)
    (by norm_num) rfl (by decide) (by decide) (by decide +kernel) .OK [0, 4, 8] hresult rfl⟩

end RoboRTS.GlobalPlanner.AStarPlanner
