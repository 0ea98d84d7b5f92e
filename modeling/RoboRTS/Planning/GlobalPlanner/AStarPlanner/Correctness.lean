import RoboRTS.Planning.GlobalPlanner.AStarPlanner.Search

/-!
# What the A* planner returns

The results hold for every list `pops` of cells that the open list may return, so for every order
in which the heap breaks ties, and for maps whose cells have `int` indices. `searchPath_correct`
says that the search ends, that it fails exactly when the goal cannot be reached, and that what it
returns otherwise is a path.
-/

namespace RoboRTS.GlobalPlanner.AStarPlanner

open Common Path BestFirst

variable (p : AStarPlanner) (startIndex goalIndex : Nat)

/-- The state after the cells `pops` were popped. -/
def Reaches (pops : List Nat) (s : Search) : Prop :=
  StateMachine.run (p.step goalIndex) (startSearch startIndex) pops = some s

/-- All scores that the search computes stay below `INT_MAX`. -/
def ScoresBelow : Prop :=
  ∀ pops s i j, p.Reaches startIndex goalIndex pops s → s.found = false → s.IsTop i →
    i ≠ goalIndex → p.Move i j → s.state j ≠ .CLOSED →
    s.gScore i + p.weight i j < intMax ∧
    s.gScore i + p.weight i j + p.getManhattanDistance j goalIndex < intMax

/-- The invariant of the main loop. -/
structure SearchInv (pops : List Nat) (s : Search) : Prop where
  tables : p.Tables startIndex pops s
  search : BestFirst.Inv p.Move p.weight startIndex goalIndex (frontier pops s)
  found : s.found = true ↔ goalIndex ∈ pops
  current : pops ≠ [] → s.currentIndex ∈ pops ∧ (s.found = true → s.currentIndex = goalIndex)

variable {p startIndex goalIndex} {c : Nat} {pops : List Nat} {s s' : Search}

theorem searchInv_startSearch : p.SearchInv startIndex goalIndex [] (startSearch startIndex) where
  tables := by
    constructor
    case first => exact fun _ _ => rfl
    case unhandled =>
      intro j _
      by_cases hj : j = startIndex
      · exact Or.inr ⟨rfl, hj⟩
      · exact Or.inl (by simp [startSearch, Function.update_of_ne hj])
    all_goals simp [startSearch]
  search := Inv.init rfl (by simp [frontier, startSearch]) (by simp [frontier, startSearch])
  found := by simp [startSearch]
  current := by simp

/-- An iteration of the main loop keeps the invariant. -/
theorem SearchInv.step (hfits : p.Fits) (hinv : p.SearchInv startIndex goalIndex pops s)
    (hstart : startIndex < p.cells) (h : p.step goalIndex s c = some s') :
    p.SearchInv startIndex goalIndex (pops ++ [c]) s' := by
  obtain ⟨htables, hexpands, hcurrent, hfound⟩ := hinv.tables.expands hfits hstart h
  have hbefore : goalIndex ∉ pops := by
    rw [← hinv.found, (step_cases h).1]
    simp
  constructor
  case tables => exact htables
  case search => exact hinv.search.expands hexpands
  case found =>
    rw [hfound]
    simp [hbefore, eq_comm]
  case current =>
    intro _
    refine ⟨by simp [hcurrent], fun h => ?_⟩
    rw [hcurrent]
    exact hfound.mp h

/-- Every state that the main loop reaches satisfies the invariant. -/
theorem searchInv_of_reaches (hfits : p.Fits) (hstart : startIndex < p.cells)
    (h : p.Reaches startIndex goalIndex pops s) : p.SearchInv startIndex goalIndex pops s := by
  induction pops using List.reverseRecOn generalizing s with
  | nil =>
      cases h
      exact searchInv_startSearch
  | append_singleton pops c ih =>
      obtain ⟨s₁, hrun, hstep⟩ := StateMachine.run_concat_eq_some.mp h
      exact (ih hrun).step hfits hstart hstep

/-- A cell is popped at most once. -/
theorem SearchInv.length_le (hinv : p.SearchInv startIndex goalIndex pops s) :
    pops.length ≤ p.cells := by
  have hsub : pops ⊆ List.range p.cells := by
    intro j hj
    exact List.mem_range.mpr (hinv.tables.inMap j (by simp [(hinv.tables.closed j).mpr hj]))
  have hle := (List.subperm_of_subset hinv.search.nodup hsub).length_le
  rwa [List.length_range] at hle

/-- An open list that is not empty has a cell on top. -/
theorem exists_isTop (h : s.openlist ≠ []) : ∃ i, s.IsTop i := by
  obtain ⟨i, hi, hleast⟩ := Finset.exists_min_image s.openlist.toFinset s.fScore
    (by simpa [Finset.nonempty_iff_ne_empty] using h)
  exact ⟨i, List.mem_toFinset.mp hi, fun j hj => hleast j (List.mem_toFinset.mpr hj)⟩

/-- Below `INT_MAX` the score of a neighbour is compared without an overflow. -/
theorem visit_isSome {j : Nat} (hfits : p.Fits) (hc : c < p.cells) (hcurrent : s.currentIndex = c)
    (hj : j < p.cells) (hadj : p.Adjacent c j)
    (hscores : p.Accessible j → s.state j ≠ .CLOSED → s.gScore c + p.weight c j < intMax ∧
      s.gScore c + p.weight c j + p.getManhattanDistance j goalIndex < intMax) :
    (p.visit goalIndex s j).isSome := by
  rw [visit_neighbor hfits hc hj hadj hcurrent]
  by_cases hskip : ¬ p.Accessible j ∨ s.state j = .CLOSED
  · rw [if_pos hskip]
    rfl
  · rw [if_neg hskip]
    obtain ⟨haccessible, hopen⟩ := not_or.mp hskip
    obtain ⟨hg, hf⟩ := hscores (not_not.mp haccessible) hopen
    rw [weight, ← Int.add_assoc] at hg hf
    simp only [relax, hcurrent, hg, if_true, discover, Function.update_self, hf]
    split_ifs <;> rfl

/-- Nor does the loop over the neighbours of `c` overflow. -/
theorem visits_isSome {ns : List Int} (hfits : p.Fits) (ht : p.Tables startIndex pops s)
    (hc : c ∈ pops) (hcurrent : s.currentIndex = c) (hns : ∀ n ∈ ns, p.Touches c n)
    (hscores : ∀ j, p.Move c j → s.state j ≠ .CLOSED → s.gScore c + p.weight c j < intMax ∧
      s.gScore c + p.weight c j + p.getManhattanDistance j goalIndex < intMax) :
    (ns.foldlM (p.visit goalIndex) s).isSome := by
  induction ns generalizing s with
  | nil => rfl
  | cons n ns ih =>
      have hclosed := (ht.closed c).mpr hc
      have hmap : c < p.cells := ht.inMap c (by simp [hclosed])
      have hn := hns n List.mem_cons_self
      obtain ⟨j, rfl, hj, hadj⟩ := id hn
      have hvisit : (p.visit goalIndex s j).isSome :=
        visit_isSome hfits hmap hcurrent hj hadj fun haccessible =>
          hscores j ⟨hmap, hj, hadj, haccessible⟩
      obtain ⟨s₁, hfirst⟩ := Option.isSome_iff_exists.mp hvisit
      obtain ⟨ht₁, hchanges, -⟩ := visit_changes hfits ht hc hcurrent hn hfirst
      rw [List.foldlM_cons, hfirst]
      refine ih ht₁ (hchanges.current.trans hcurrent)
        (fun x hx => hns x (List.mem_cons_of_mem _ hx)) ?_
      intro i hmove hopen
      rw [(hchanges.same_of_closed hclosed).g]
      refine hscores i hmove fun hclosed' => hopen ?_
      exact (hchanges.same_of_closed hclosed').state.trans hclosed'

/-- While scores stay below `INT_MAX` the search can take whichever cell is on top. -/
theorem step_isSome (hfits : p.Fits) (hstart : startIndex < p.cells)
    (hscores : p.ScoresBelow startIndex goalIndex)
    (h : p.Reaches startIndex goalIndex pops s) (hfound : s.found = false) (htop : s.IsTop c) :
    (p.step goalIndex s c).isSome := by
  rw [step, if_pos ⟨hfound, htop⟩]
  by_cases hgoal : c = goalIndex
  · rw [if_pos hgoal]
    rfl
  · have ht := (searchInv_of_reaches hfits hstart h).tables.pop hstart htop.1
    obtain ⟨neighborsIndex, hneighbors, hmem⟩ :=
      getNineNeighbors_of_fits hfits (ht.inMap c (by simp [Search.pop]))
    rw [if_neg hgoal, hneighbors, Option.bind_some, Option.isSome_map]
    refine visits_isSome (c := c) hfits ht (by simp) rfl (fun n hn => (hmem n).mp hn) ?_
    intro j hmove hopen
    refine hscores pops s c j h hfound htop hgoal hmove fun hclosed => hopen ?_
    by_cases hj : j = c
    · subst hj
      simp [Search.pop]
    · simpa [Search.pop, Function.update_of_ne hj] using hclosed

theorem weight_le (p : AStarPlanner) (i j : Nat) : 0 ≤ p.weight i j ∧ p.weight i j ≤ 269 := by
  have hbyte : (p.cost j).toNat < 256 := (p.cost j).toNat_lt
  unfold weight getMoveCost
  dsimp only
  split_ifs <;> constructor <;> omega

/-- A cell on the open list has been reached in as many steps as there were pops at most. -/
theorem SearchInv.score_le (hinv : p.SearchInv startIndex goalIndex pops s)
    (hc : c ∈ s.openlist) : s.gScore c ≤ 269 * pops.length := by
  by_cases hstart : c = startIndex
  · have hzero : s.gScore startIndex = 0 := hinv.search.g_start
    rw [hstart, hzero]
    omega
  · have hhangs := hinv.search.opened c hc hstart
    obtain ⟨l, -, hpath, hcost, hnodup, hsub⟩ := hinv.search.trace hhangs.mem
    have hlength := (List.subperm_of_subset hnodup hsub).length_le
    have hpositive : 0 < l.length := by
      cases l with
      | nil => cases hpath.head
      | cons x l => exact Nat.succ_pos _
    have hparent := pathCost_le (b := 269) (fun u v _ => (weight_le p u v).2) hpath.chain
    rw [hcost] at hparent
    have hweight := (weight_le p ((frontier pops s).parent c) c).2
    calc s.gScore c
        = (frontier pops s).g ((frontier pops s).parent c) +
          p.weight ((frontier pops s).parent c) c := hhangs.g
      _ ≤ 269 * (l.length - 1 : ℕ) + 269 := Int.add_le_add hparent hweight
      _ ≤ 269 * pops.length := by
          have hlength : l.length ≤ pops.length := hlength
          omega

/-- On a map that is small against `INT_MAX` no score reaches it. -/
theorem scoresBelow_of_small {b : Int} (hfits : p.Fits) (hstart : startIndex < p.cells)
    (hb : ∀ j < p.cells, p.getManhattanDistance j goalIndex ≤ b) (hpos : 0 ≤ b)
    (hcells : 269 * (p.cells : Int) + b < intMax) : p.ScoresBelow startIndex goalIndex := by
  intro pops s i j hreaches _ htop _ hmove _
  have hinv := searchInv_of_reaches hfits hstart hreaches
  have hscore := hinv.score_le htop.1
  have hweight := (weight_le p i j).2
  have hheuristic := hb j hmove.target
  have hpopped : pops.length + 1 ≤ p.cells := by
    have ht := hinv.tables.pop hstart htop.1
    have hnodup : (i :: pops).Nodup :=
      List.nodup_cons.mpr ⟨hinv.search.apart i htop.1, hinv.search.nodup⟩
    have hsub : i :: pops ⊆ List.range p.cells := by
      intro j hj
      have hmem : j ∈ pops ++ [i] := by simpa [or_comm] using hj
      exact List.mem_range.mpr (ht.inMap j (by simp [(ht.closed j).mpr hmem]))
    simpa using (List.subperm_of_subset hnodup hsub).length_le
  omega

/-- The walk along the parents collects the trace and ends at the start. -/
theorem walkBack_trace {parent : Nat → Nat} {i k : Nat} {l : List Nat} (hfits : p.Fits)
    (acc : List Nat) (htrace : Trace parent startIndex i l) (hmap : ∀ j ∈ l, j < p.cells) (hk : l.length ≤ k + 1) :
    whileUpTo (fun t => t.iterIndex != startIndex) (p.walkBack parent) k ⟨i, acc ++ [i]⟩ =
      some ⟨startIndex, acc ++ l⟩ := by
  induction htrace generalizing k acc with
  | stop => exact While.whileUpTo_of_not (by simp)
  | @back i l hne htrace ih =>
      cases k with
      | zero =>
          cases htrace <;> simp at hk
      | succ k =>
          have hi : i < p.cells := hmap i List.mem_cons_self
          rw [While.whileUpTo_succ_of (by simpa using hne), walkBack, hfits.size, if_pos hi,
            Option.bind_some]
          rw [ih (acc ++ [i]) (fun j hj => hmap j (List.mem_cons_of_mem i hj)) (by simpa using hk)]
          simp

/-- At the goal the parents spell out a path whose cost is the goal's score. -/
theorem SearchInv.endSearch_found (hfits : p.Fits)
    (hinv : p.SearchInv startIndex goalIndex pops s)
    (hfound : s.found = true) (path : List Nat) :
    ∃ l, p.endSearch startIndex goalIndex s path = some (.OK, l) ∧
      IsPath p.Move startIndex goalIndex l ∧ l.Nodup ∧ pathCost p.weight l = s.gScore goalIndex := by
  have hgoal := hinv.found.mp hfound
  obtain ⟨l, htrace, hpath, hcost, hnodup, hsub⟩ := hinv.search.trace hgoal
  have hmap : ∀ j ∈ l.reverse, j < p.cells := by
    intro j hj
    have hj := hsub (List.mem_reverse.mp hj)
    exact hinv.tables.inMap j (by simp [(hinv.tables.closed j).mpr hj])
  have hlength : l.reverse.length ≤ p.cells + 1 := by
    have hle := (List.subperm_of_subset hnodup hsub).length_le
    have hpops := hinv.length_le
    rw [List.length_reverse]
    exact hle.trans (hpops.trans (Nat.le_succ _))
  have hcurrent := (hinv.current (List.ne_nil_of_mem hgoal)).2 hfound
  refine ⟨l, ?_, hpath, hnodup, hcost⟩
  have hwalk : whileUpTo (fun t => t.iterIndex != startIndex)
      (p.walkBack (frontier pops s).parent) p.cells ⟨goalIndex, [goalIndex]⟩ =
      some ⟨startIndex, l.reverse⟩ :=
    walkBack_trace hfits [] htrace hmap hlength
  rw [endSearch, hcurrent, if_neg (not_not.mpr rfl)]
  show (whileUpTo _ (p.walkBack (frontier pops s).parent) _ _).bind _ = _
  rw [hwalk]
  simp

theorem SearchInv.start_popped (hinv : p.SearchInv startIndex goalIndex pops s)
    (hempty : s.openlist = []) : startIndex ∈ pops := by
  cases hinv.search.started with
  | inr hmem => exact hmem
  | inl hnil =>
      have hopen := (hinv.tables.opened startIndex).mpr (Or.inr ⟨hnil, rfl⟩)
      simp [hempty] at hopen

/-- With the open list empty and the goal not found, the goal cannot be reached. -/
theorem SearchInv.unreachable (hinv : p.SearchInv startIndex goalIndex pops s)
    (hfound : s.found = false) (hempty : s.openlist = []) :
    ¬ Relation.ReflTransGen p.Move startIndex goalIndex := by
  intro hreach
  have hgoal : goalIndex ∉ pops := by
    rw [← hinv.found, hfound]
    simp
  have hstart := hinv.start_popped hempty
  refine hgoal (hinv.search.closed_of_reachable hstart hgoal ?_ hreach)
  intro i hi
  have hi : i ∈ s.openlist := hi
  simp [hempty] at hi

/-- With the open list empty and the goal not found, `SearchPath` reports that it has no path. -/
theorem SearchInv.endSearch_empty (hinv : p.SearchInv startIndex goalIndex pops s)
    (hfound : s.found = false) (hempty : s.openlist = []) (path : List Nat) :
    p.endSearch startIndex goalIndex s path =
      some (⟨.GP_PATH_SEARCH_ERROR, "Valid global path not found."⟩, path) := by
  have hcurrent : s.currentIndex ≠ goalIndex := by
    intro heq
    have hmem := (hinv.current (List.ne_nil_of_mem (hinv.start_popped hempty))).1
    rw [heq, ← hinv.found, hfound] at hmem
    cases hmem
  rw [endSearch, if_pos hcurrent]

/-- `SearchPath` after a run of the main loop that has ended. -/
theorem searchPath_of_reaches (hfits : p.Fits) (hstart : startIndex < p.cells)
    (hreaches : p.Reaches startIndex goalIndex pops s) (hended : s.Ended)
    (path : List Nat) : p.searchPath startIndex goalIndex path pops =
      p.endSearch startIndex goalIndex s path := by
  have hint : IsInt startIndex := by
    unfold Fits at hfits
    exact ⟨by omega, by omega⟩
  unfold Reaches at hreaches
  rw [searchPath, if_pos ⟨hint, hfits.size ▸ hstart⟩, hreaches, Option.bind_some, if_pos hended]

/-- `SearchPath` ends after at most as many pops as there are cells, whichever cell of least score
comes off the open list. It returns `OK` exactly if the goal can be reached from the start, and
then a path from the start to the goal that visits no cell twice. -/
theorem searchPath_correct (p : AStarPlanner) (startIndex goalIndex : Nat) (hfits : p.Fits)
    (hstart : startIndex < p.cells) (hscores : p.ScoresBelow startIndex goalIndex) :
    (∀ pops s, p.Reaches startIndex goalIndex pops s →
      pops.length ≤ p.gridmapWidth * p.gridmapHeight ∧
      (¬ s.Ended → (∃ i, s.IsTop i) ∧ ∀ i, s.IsTop i → (p.step goalIndex s i).isSome)) ∧
    ∀ pops s path, p.Reaches startIndex goalIndex pops s → s.Ended →
      ∃ e l, p.searchPath startIndex goalIndex path pops = some (e, l) ∧
        (e.IsOK = true ↔ Relation.ReflTransGen p.Move startIndex goalIndex) ∧
        (e.IsOK = true → IsPath p.Move startIndex goalIndex l ∧ l.Nodup) := by
  constructor
  · intro pops s hreaches
    have hinv := searchInv_of_reaches hfits hstart hreaches
    refine ⟨by rw [Nat.mul_comm]; exact hinv.length_le, fun hended => ?_⟩
    obtain ⟨hfound, hopen⟩ := not_or.mp hended
    exact ⟨exists_isTop hopen, fun i htop =>
      step_isSome hfits hstart hscores hreaches (by simpa using hfound) htop⟩
  · intro pops s path hreaches hended
    have hinv := searchInv_of_reaches hfits hstart hreaches
    rw [searchPath_of_reaches hfits hstart hreaches hended]
    cases hfound : s.found with
    | true =>
        obtain ⟨l, hend, hpath, hnodup, -⟩ := hinv.endSearch_found hfits hfound path
        exact ⟨.OK, l, hend, by simp [hpath.reachable], fun _ => ⟨hpath, hnodup⟩⟩
    | false =>
        have hempty : s.openlist = [] := hended.resolve_left (by simp [hfound])
        have hunreachable := hinv.unreachable hfound hempty
        rw [hinv.endSearch_empty hfound hempty]
        exact ⟨_, path, rfl, by simp [hunreachable, ErrorInfo.IsOK], by simp [ErrorInfo.IsOK]⟩

/-- A row of three cells whose middle cell costs five. -/
def corridor : AStarPlanner where
  gridmapWidth := 3
  gridmapHeight := 1
  cost := fun i => if i = 1 then 5 else 0
  inaccessibleCost := 253
  heuristic := fun d => 10 * d

/-- In the corridor the search from one end to the other pops the three cells in turn. -/
theorem searchPath_correct_corridor :
    (∀ pops s, corridor.Reaches 0 2 pops s → pops.length ≤ 3) ∧
    ∃ e l, corridor.searchPath 0 2 [] [0, 1, 2] = some (e, l) ∧
      (e.IsOK = true → IsPath corridor.Move 0 2 l ∧ l.Nodup) := by
  obtain ⟨hends, hreturns⟩ := searchPath_correct corridor 0 2 (by decide) (by decide)
    (scoresBelow_of_small (b := 20) (by decide) (by decide) (by decide) (by decide) (by decide))
  refine ⟨fun pops s hreaches => (hends pops s hreaches).1, ?_⟩
  obtain ⟨s, hreaches, hfound⟩ := Option.map_eq_some_iff.mp
    (show (StateMachine.run (corridor.step 2) (startSearch 0) [0, 1, 2]).map (·.found) = some true
      by decide +kernel)
  obtain ⟨e, l, hresult, -, hpath⟩ := hreturns [0, 1, 2] s [] hreaches (Or.inl hfound)
  exact ⟨e, l, hresult, hpath⟩

end RoboRTS.GlobalPlanner.AStarPlanner
