import RoboRTS.Decision.ChaseBehavior

/-!
# The line of a chase

The line from a blocked goal leads to the cell of the diagonal in the column of the robot, and on a
map that is wider than high it may leave the map. `run_line` says what `Run` does for every robot in
the map: it stops at the first cell of this line that is free or outside of the map. That is what
`Run` is for as long as a free cell comes before this line and the one to the robot part
(`run_meets_iff`); whatever the costs, it is so for a robot on the diagonal only
(`run_meets_all_iff`).
-/

namespace RoboRTS.Decision.ChaseBehavior

open Costmap Planning FastLineIterator

instance (map : CostMap2D) (cell : Int × Int) : Decidable (InMap map cell) :=
  inferInstanceAs (Decidable (_ ∧ _))

variable {map : CostMap2D} {lib : Cmath} {input : ChaseInput} {b : ChaseBehavior}
  {cell : Int × Int}

/-! ## Searches of a line that may leave the map -/

/-- The cell at which the search of a line stops. -/
def stop (map : CostMap2D) (cells : List (Int × Int)) : Option (Int × Int) :=
  cells.find? fun cell => ¬InMap map cell ∨ cellCost map cell < 253

theorem of_stop {cells : List (Int × Int)} (h : stop map cells = some cell) :
    ¬InMap map cell ∨ cellCost map cell < 253 := by
  unfold stop at h
  have hfound := List.find?_some h
  exact of_decide_eq_true hfound

/-- The cells that the search of a line reads: the blocked cells of the map that come first, and the
cell at which it stops. -/
def searched (map : CostMap2D) (cells : List (Int × Int)) : List (Int × Int) :=
  cells.takeWhile (fun cell => InMap map cell ∧ 253 ≤ cellCost map cell) ++ (stop map cells).toList

theorem stop_mem_searched {cells : List (Int × Int)} (h : stop map cells = some cell) :
    cell ∈ searched map cells := by
  unfold searched
  rw [h]
  exact List.mem_append_right _ (List.mem_singleton_self cell)

theorem mem_of_mem_searched {cells : List (Int × Int)} (h : cell ∈ searched map cells) :
    cell ∈ cells := by
  rcases List.mem_append.mp h with h | h
  · exact (List.takeWhile_prefix _).subset h
  · exact List.mem_of_find?_eq_some (Option.mem_toList.mp h)

/-- Unless the search leaves the map, it reads cells of the map. -/
theorem inMap_of_mem_searched {cells : List (Int × Int)}
    (hin : ∀ c ∈ stop map cells, InMap map c) (h : cell ∈ searched map cells) :
    InMap map cell := by
  rcases List.mem_append.mp h with h | h
  · have hblocked := List.all_eq_true.mp List.all_takeWhile cell h
    exact (of_decide_eq_true hblocked).1
  · exact hin cell (Option.mem_toList.mp h)

/-- The search goes on at a blocked cell of the map. -/
theorem search_blocked (hmap : InMap map cell) (hblocked : 253 ≤ cellCost map cell)
    (rest : List (Int × Int)) : stop map (cell :: rest) = stop map rest ∧
      searched map (cell :: rest) = cell :: searched map rest := by
  have hstop : stop map (cell :: rest) = stop map rest :=
    List.find?_cons_of_neg (by simpa using ⟨hmap, hblocked⟩)
  refine ⟨hstop, ?_⟩
  unfold searched
  rw [hstop, List.takeWhile_cons_of_pos (by simpa using ⟨hmap, hblocked⟩), List.cons_append]

/-- The search stops at a cell that is free or outside of the map. -/
theorem search_stop (h : ¬InMap map cell ∨ cellCost map cell < 253) (rest : List (Int × Int)) :
    stop map (cell :: rest) = some cell ∧ searched map (cell :: rest) = [cell] := by
  have hstop : stop map (cell :: rest) = some cell :=
    List.find?_cons_of_pos (decide_eq_true h)
  refine ⟨hstop, ?_⟩
  have hgo : ¬(InMap map cell ∧ 253 ≤ cellCost map cell) := by
    rintro ⟨hmap, hblocked⟩
    exact h.elim (fun hout => hout hmap) (UInt8.not_lt.mpr hblocked)
  unfold searched
  rw [hstop, List.takeWhile_cons_of_neg (by simpa using hgo)]
  rfl

/-- The search goes on at a cell or stops there. -/
theorem goes_or_stops (map : CostMap2D) (cell : Int × Int) :
    (InMap map cell ∧ 253 ≤ cellCost map cell) ∨ (¬InMap map cell ∨ cellCost map cell < 253) := by
  by_cases hmap : InMap map cell
  · rcases UInt8.lt_or_le (cellCost map cell) 253 with hfree | hblocked
    · exact Or.inr (Or.inr hfree)
    · exact Or.inl ⟨hmap, hblocked⟩
  · exact Or.inr (Or.inl hmap)

/-- The search reads the beginning of the line. -/
theorem searched_prefix (map : CostMap2D) (cells : List (Int × Int)) :
    searched map cells <+: cells := by
  induction cells with
  | nil => exact List.nil_prefix
  | cons cell rest ih =>
      rcases goes_or_stops map cell with ⟨hmap, hblocked⟩ | hstops
      · rw [(search_blocked hmap hblocked rest).2]
        exact (List.prefix_cons_inj cell).mpr ih
      · rw [(search_stop hstops rest).2]
        exact ⟨rest, rfl⟩

/-- A search that does not stop reads the whole line. -/
theorem searched_of_stop_eq_none {cells : List (Int × Int)} (h : stop map cells = none) :
    searched map cells = cells := by
  induction cells with
  | nil => rfl
  | cons cell rest ih =>
      rcases goes_or_stops map cell with ⟨hmap, hblocked⟩ | hstops
      · obtain ⟨hstop, hsearched⟩ := search_blocked hmap hblocked rest
        rw [hsearched, ih (hstop ▸ h)]
      · rw [(search_stop hstops rest).1] at h
        cases h

/-- What comes behind the cell at which the search stops does not matter. -/
theorem search_append {cells : List (Int × Int)} (h : stop map cells = some cell)
    (rest : List (Int × Int)) : stop map (cells ++ rest) = some cell ∧
      searched map (cells ++ rest) = searched map cells := by
  induction cells with
  | nil => cases h
  | cons first cells ih =>
      rw [List.cons_append]
      rcases goes_or_stops map first with ⟨hmap, hblocked⟩ | hstops
      · obtain ⟨hstop, hsearched⟩ := search_blocked hmap hblocked cells
        obtain ⟨hstop', hsearched'⟩ := search_blocked hmap hblocked (cells ++ rest)
        obtain ⟨hrest, hsame⟩ := ih (hstop ▸ h)
        rw [hstop', hsearched', hsearched, hrest, hsame]
        exact ⟨rfl, rfl⟩
      · obtain ⟨hstop, hsearched⟩ := search_stop hstops cells
        obtain ⟨hstop', hsearched'⟩ := search_stop hstops (cells ++ rest)
        rw [hstop', hsearched', hsearched]
        exact ⟨hstop.symm.trans h, rfl⟩

/-- The search of a line in the map stops at the first free cell. -/
theorem stop_of_inMap {cells : List (Int × Int)} (hin : ∀ c ∈ cells, InMap map c) :
    stop map cells = cells.find? fun c => cellCost map c < 253 := by
  induction cells with
  | nil => rfl
  | cons cell rest ih =>
      have hmap := hin cell List.mem_cons_self
      rcases UInt8.lt_or_le (cellCost map cell) 253 with hfree | hblocked
      · rw [(search_stop (Or.inr hfree) rest).1, List.find?_cons_of_pos (by simpa using hfree)]
      · rw [(search_blocked hmap hblocked rest).1,
          List.find?_cons_of_neg (by simpa using hblocked),
          ih fun c hc => hin c (List.mem_cons_of_mem _ hc)]

/-- The cell is in a column of the map. -/
def InColumns (map : CostMap2D) (cell : Int × Int) : Prop :=
  (0 ≤ cell.1 ∧ cell.1 < map.sizeX) ∧ 0 ≤ cell.2

/-- Above the map the array has no cells. -/
theorem getCost_eq_none (hcolumn : InColumns map cell) (h : ¬InMap map cell) :
    map.getCost cell.1.toNat cell.2.toNat = none := by
  refine if_neg ?_
  have hrow : map.sizeY ≤ cell.2.toNat := by
    unfold InMap at h
    unfold InColumns at hcolumn
    omega
  have hle := Nat.mul_le_mul_right map.sizeX hrow
  rw [Nat.mul_comm map.sizeY] at hle
  unfold Geometry.getIndex
  omega

/-- The search of a line in the columns of the map: it stops at the first cell that is free or above
the map, and is undefined in the latter case. -/
theorem searchLine_eq {fuel : Nat} {line : FastLineIterator} {cells : List (Int × Int)}
    (hcells : line.visited fuel = some cells) (hin : ∀ c ∈ cells, InColumns map c) :
    searchLine map fuel line = if ∃ c ∈ stop map cells, ¬InMap map c then none
      else some ⟨searched map cells, stop map cells⟩ := by
  induction fuel generalizing line cells with
  | zero => cases hcells
  | succ fuel ih =>
      unfold visited at hcells
      unfold searchLine
      by_cases hvalid : line.isValid = true
      case neg =>
        rw [if_neg hvalid] at hcells ⊢
        cases hcells
        rfl
      rw [if_pos hvalid] at hcells ⊢
      obtain ⟨rest, hrest, rfl⟩ := Option.map_eq_some_iff.mp hcells
      obtain ⟨next, hnext, hrest⟩ := Option.bind_eq_some_iff.mp hrest
      have hcolumn : InColumns map (line.x, line.y) := hin _ List.mem_cons_self
      by_cases hmap : InMap map (line.x, line.y)
      case neg =>
        obtain ⟨hstop, -⟩ := search_stop (Or.inl hmap) rest
        have hcost : map.getCost line.x.toNat line.y.toNat = none := getCost_eq_none hcolumn hmap
        rw [hcost, if_pos ⟨_, hstop, hmap⟩]
        rfl
      have hcost : map.getCost line.x.toNat line.y.toNat = some (cellCost map (line.x, line.y)) :=
        hmap.getCost_eq
      rw [hcost, Option.bind_eq_bind, Option.bind_some]
      by_cases hblocked : cellCost map (line.x, line.y) ≥ 253
      · obtain ⟨hstop, hsearched⟩ := search_blocked hmap hblocked rest
        rw [if_pos hblocked, hnext, Option.bind_some, ih hrest fun c hc => hin c (List.mem_cons_of_mem _ hc), hstop,
          hsearched]
        split <;> rfl
      · obtain ⟨hstop, hsearched⟩ := search_stop (Or.inr (UInt8.not_le.mp hblocked)) rest
        have hin : ¬∃ c ∈ some (line.x, line.y), ¬InMap map c := by
          rintro ⟨c, hc, hout⟩
          cases hc
          exact hout hmap
        rw [if_neg hblocked, hstop, hsearched, if_neg hin]

/-! ## Runs -/

/-- The box of a cell of the map and the cell that the line of the source leads to. -/
theorem inColumns_of_inBox {c robot : Nat × Nat} (hc : c.1 < map.sizeX)
    (hrobot : robot.1 < map.sizeX)
    (h : InBox c.1 c.2 robot.1 robot.1 cell) : InColumns map cell := by
  obtain ⟨hx, hy⟩ := h
  exact ⟨by omega, by omega⟩

/-- The call of `Run` whose search of the line stays in the map. -/
def lineRun (lib : Cmath) (input : ChaseInput) (b : ChaseBehavior) (goal : Nat × Nat)
    (line : List (Int × Int)) : ChaseRun :=
  let inspected := ((goal.1 : Int), (goal.2 : Int)) :: searched input.map line
  match stop input.map line with
  | some cell =>
      ⟨{ stored input b with cancelGoal := true },
        [.execute (moveGoal input.map (goalOf lib input) cell)], inspected, true⟩
  | none => ⟨(stored input b).cancelOnce.1, (stored input b).cancelOnce.2, inspected, true⟩

theorem lineRun_inspected (goal : Nat × Nat) (line : List (Int × Int)) :
    (lineRun lib input b goal line).inspected =
      ((goal.1 : Int), (goal.2 : Int)) :: searched input.map line := by
  unfold lineRun
  cases stop input.map line with
  | none => rfl
  | some cell => rfl

/-- The call executes the goal in the cell at which the search stops. -/
theorem execute_mem_lineRun (goal : Nat × Nat) (line : List (Int × Int)) (pose : PoseStamped) :
    .execute pose ∈ (lineRun lib input b goal line).commands ↔
      ∃ cell, stop input.map line = some cell ∧
        pose = moveGoal input.map (goalOf lib input) cell := by
  unfold lineRun
  cases stop input.map line with
  | none =>
      refine iff_of_false ?_ ?_
      · show ¬ .execute pose ∈ (stored input b).cancelOnce.2
        unfold cancelOnce
        split <;> simp
      · rintro ⟨cell, hcell, -⟩
        cases hcell
  | some cell =>
      show ChassisCommand.execute pose ∈
        [.execute (moveGoal input.map (goalOf lib input) cell)] ↔ _
      rw [List.mem_singleton, ChassisCommand.execute.injEq]
      constructor
      · intro hpose
        exact ⟨cell, rfl, hpose⟩
      · rintro ⟨cell', hcell', hpose⟩
        exact Option.some.inj hcell' ▸ hpose

/-- What `Run` does from a blocked goal to a robot in the map. -/
theorem run_blocked {goal robot : Nat × Nat} (h : Chases lib input)
    (hgoal : goalCell lib input = some goal) (hrobot : robotCell input = some robot)
    (hcost : 253 ≤ input.map.costmap (input.map.getIndex goal.1 goal.2)) :
    ∃ line, lineCells goal.1 goal.2 robot.1 robot.1 = some line ∧
      ((goal.1 : Int), (goal.2 : Int)) ∈ line ∧
      (input.map.sizeX ≤ input.map.sizeY → ∀ cell ∈ line, InMap input.map cell) ∧
      run lib input b =
        if ∃ cell ∈ stop input.map line, ¬InMap input.map cell then none
        else some (lineRun lib input b goal line) := by
  obtain ⟨⟨-, -, hgx⟩, -, -, hgy⟩ := world2Map_eq_some hgoal
  obtain ⟨⟨-, -, hrx⟩, -, -, -⟩ := world2Map_eq_some hrobot
  have hfits := input.map.fits hgx hgy hrx (Or.inl hrx)
  obtain ⟨line, hline, -, hhead, -, -, hbox⟩ := lineCells_line hfits
  have hsearch := searchLine_eq (visited_start hfits hline)
    fun c hc => inColumns_of_inBox hgx hrx (hbox c hc)
  refine ⟨line, hline, List.mem_of_head? hhead, fun hmap cell hcell => ?_, ?_⟩
  · exact inMap_of_inBox (d := (robot.1, robot.1)) ⟨hgx, hgy⟩ ⟨hrx, hrx.trans_le hmap⟩
      (hbox cell hcell)
  rw [run_of_chases h, pursue_blocked hgoal hcost, world2MapCell_of_some hrobot,
    Option.bind_eq_bind, Option.bind_some, create_eq hfits, Option.bind_eq_bind, Option.bind_some]
  dsimp only
  rw [hsearch]
  by_cases hout : ∃ cell ∈ stop input.map line, ¬InMap input.map cell
  · rw [if_pos hout, if_pos hout]
    rfl
  · rw [if_neg hout, if_neg hout, Option.bind_eq_bind, Option.bind_some]
    unfold lineRun
    cases stop input.map line with
    | none => rfl
    | some cell => rfl

/-- From a blocked goal to a robot in the map, `Run` searches the line from the goal to the cell
with the first coordinate of the robot for both of its own. It is undefined exactly if this line
leaves the map before a free cell comes. Otherwise it reads cells of the map on this line, and
executes the goal in the first free one, if there is one. On a map that is not wider than high the
line stays in the map. -/
theorem run_line {goal robot : Nat × Nat} (h : Chases lib input)
    (hgoal : goalCell lib input = some goal) (hrobot : robotCell input = some robot)
    (hcost : 253 ≤ input.map.costmap (input.map.getIndex goal.1 goal.2)) :
    ∃ line, lineCells goal.1 goal.2 robot.1 robot.1 = some line ∧
      (input.map.sizeX ≤ input.map.sizeY → ∀ cell ∈ line, InMap input.map cell) ∧
      (run lib input b = none ↔
        ∃ cell, stop input.map line = some cell ∧ ¬InMap input.map cell) ∧
      ∀ r, run lib input b = some r →
        (∀ cell ∈ r.inspected, cell ∈ line ∧ InMap input.map cell) ∧
        ∀ pose, .execute pose ∈ r.commands ↔ ∃ cell, stop input.map line = some cell ∧
          cellCost input.map cell < 253 ∧ pose = moveGoal input.map (goalOf lib input) cell := by
  obtain ⟨⟨-, -, hgx⟩, -, -, hgy⟩ := world2Map_eq_some hgoal
  obtain ⟨line, hline, hstart, hmap, hrun⟩ := run_blocked (b := b) h hgoal hrobot hcost
  refine ⟨line, hline, hmap, ?_⟩
  rw [hrun]
  by_cases hout : ∃ cell ∈ stop input.map line, ¬InMap input.map cell
  · rw [if_pos hout]
    refine ⟨iff_of_true rfl hout, fun r hr => ?_⟩
    cases hr
  rw [if_neg hout]
  refine ⟨iff_of_false (Option.some_ne_none _) hout, fun r hr => ?_⟩
  obtain rfl := Option.some.inj hr
  have hin : ∀ cell ∈ stop input.map line, InMap input.map cell := by
    intro cell hcell
    by_contra hleaves
    exact hout ⟨cell, hcell, hleaves⟩
  refine ⟨fun cell hcell => ?_, fun pose => ?_⟩
  · rw [lineRun_inspected] at hcell
    rcases List.mem_cons.mp hcell with rfl | hcell
    · exact ⟨hstart, ⟨Int.natCast_nonneg _, Int.ofNat_lt.mpr hgx⟩,
        Int.natCast_nonneg _, Int.ofNat_lt.mpr hgy⟩
    · exact ⟨mem_of_mem_searched hcell, inMap_of_mem_searched hin hcell⟩
  · rw [execute_mem_lineRun]
    constructor
    · rintro ⟨cell, hcell, hpose⟩
      have hfree := (of_stop hcell).resolve_left (not_not.mpr (hin cell hcell))
      exact ⟨cell, hcell, hfree, hpose⟩
    · rintro ⟨cell, hcell, -, hpose⟩
      exact ⟨cell, hcell, hpose⟩

/-- A map of four cells in a row, of which the last one is occupied. -/
def fourCells : CostMap2D where
  sizeX := 4
  sizeY := 1
  resolution := 1
  originX := 0
  originY := 0
  resolution_pos := unitResolution_pos
  costmap := fun index => if index = 3 then 254 else 0
  sizes_small := by decide

/-- The functions for an enemy three metres away, straight ahead. -/
def ahead : Cmath where
  sqrt := fun q => q / 3
  cos := fun _ => 1
  sin := fun _ => 0
  atan2 := fun _ _ => 0

/-- The members after the construction. -/
def fresh : ChaseBehavior where
  chaseBuffer := fun _ => poseAt 0 0
  chaseCount := 0
  cancelGoal := true

/-- A robot in the second cell of the row. The point in front of the enemy is in the last one. -/
def offDiagonal : ChaseInput where
  executorState := .IDLE
  robotMapPose := poseAt (3 / 2) (1 / 2)
  enemy := poseAt (9 / 2) (1 / 2)
  now := 0
  map := fourCells

/-- The line to the cell above the robot leaves the row. -/
theorem run_line_offDiagonal : run ahead offDiagonal fresh = none := by
  have hchases : Chases ahead offDiagonal := by
    unfold Chases
    decide +kernel
  have hgoal : goalCell ahead offDiagonal = some (3, 0) := by
    decide +kernel
  have hrobot : robotCell offDiagonal = some (1, 0) := by
    decide +kernel
  obtain ⟨line, hline, -, hnone, -⟩ :=
    run_line (b := fresh) hchases hgoal hrobot (by decide +kernel)
  have hcells : lineCells ((3, 0) : Nat × Nat).1 ((3, 0) : Nat × Nat).2 ((1, 0) : Nat × Nat).1
      ((1, 0) : Nat × Nat).1 = some [(3, 0), (2, 1), (1, 1)] := by
    decide +kernel
  obtain rfl := Option.some.inj (hline.symm.trans hcells)
  exact hnone.mpr ⟨(2, 1), by decide +kernel, by decide +kernel⟩

/-! ## When the line serves -/

/-- The line from the goal to the robot and the one to the cell of the diagonal share a free cell
before they part; or the one to the robot has none, and the other one goes no further than it. -/
def Serves (map : CostMap2D) (goal robot : Nat × Nat) : Prop :=
  ∃ line line', lineCells goal.1 goal.2 robot.1 robot.2 = some line ∧
    lineCells goal.1 goal.2 robot.1 robot.1 = some line' ∧
    ((∃ common, common <+: line ∧ common <+: line' ∧ ∃ cell ∈ common, cellCost map cell < 253) ∨
      line' <+: line ∧ ∀ cell ∈ line, 253 ≤ cellCost map cell)

/-- The search of a line serves another one from the same cell, which stays in the map: what it
reads lies on that one, and it stops at the first free cell of that one. -/
theorem search_serves_iff {x0 y0 x1 y1 x2 y2 : Int} {line line' : List (Int × Int)}
    (hfits : Fits x0 y0 x1 y1) (hfits' : Fits x0 y0 x2 y2)
    (hline : lineCells x0 y0 x1 y1 = some line) (hline' : lineCells x0 y0 x2 y2 = some line')
    (hin : ∀ c ∈ line, InMap map c) :
    (∀ cell ∈ searched map line', cell ∈ line) ∧
        stop map line' = (line.find? fun c => cellCost map c < 253) ↔
      (∃ common, common <+: line ∧ common <+: line' ∧ ∃ cell ∈ common, cellCost map cell < 253) ∨
        line' <+: line ∧ ∀ cell ∈ line, 253 ≤ cellCost map cell := by
  constructor
  · rintro ⟨hsearched, hstop⟩
    have hread := searched_prefix map line'
    have hcommon := prefix_of_subset hfits hfits' hline hline' hread hsearched
    cases hfound : stop map line' with
    | some cell =>
        have hfree := List.find?_some (hstop.symm.trans hfound)
        exact Or.inl ⟨_, hcommon, hread, cell, stop_mem_searched hfound, of_decide_eq_true hfree⟩
    | none =>
        rw [searched_of_stop_eq_none hfound] at hcommon
        have hblocked := List.find?_eq_none.mp (hstop.symm.trans hfound)
        refine Or.inr ⟨hcommon, fun cell hcell => UInt8.not_lt.mp fun hfree => ?_⟩
        exact hblocked cell hcell (decide_eq_true hfree)
  · rintro (⟨common, hcommon, hcommon', cell, hcell, hfree⟩ | ⟨hbefore, hblocked⟩)
    · have hmap : ∀ c ∈ common, InMap map c := fun c hc => hin c (hcommon.subset hc)
      obtain ⟨found, hfound⟩ : ∃ found, stop map common = some found := by
        rw [stop_of_inMap hmap]
        exact Option.isSome_iff_exists.mp (List.find?_isSome.mpr ⟨cell, hcell, decide_eq_true hfree⟩)
      obtain ⟨rest, rfl⟩ := hcommon'
      obtain ⟨hstop, hsearched⟩ := search_append hfound rest
      rw [hstop, hsearched]
      refine ⟨fun c hc => hcommon.subset (mem_of_mem_searched hc), ?_⟩
      rw [stop_of_inMap hmap] at hfound
      exact (hcommon.find?_eq_some hfound).symm
    · have hmap : ∀ c ∈ line', InMap map c := fun c hc => hin c (hbefore.subset hc)
      have hnone : ∀ cells : List (Int × Int), (∀ c ∈ cells, c ∈ line) →
          cells.find? (fun c => cellCost map c < 253) = none := by
        intro cells hcells
        refine List.find?_eq_none.mpr fun c hc => ?_
        simpa using hblocked c (hcells c hc)
      refine ⟨fun c hc => hbefore.subset (mem_of_mem_searched hc), ?_⟩
      rw [stop_of_inMap hmap, hnone line' fun c hc => hbefore.subset hc, hnone line fun c hc => hc]

theorem moveGoal_inj {goal : PoseStamped} {c d : Int × Int} (hc : InMap map c) (hd : InMap map d)
    (h : moveGoal map goal c = moveGoal map goal d) : c = d := by
  obtain ⟨⟨hcx, hcx'⟩, hcy, hcy'⟩ := hc
  obtain ⟨⟨hdx, hdx'⟩, hdy, hdy'⟩ := hd
  have hx : (map.map2World c.1.toNat c.2.toNat).1 = (map.map2World d.1.toNat d.2.toNat).1 :=
    congrArg (fun pose => pose.position.1) h
  have hy : (map.map2World c.1.toNat c.2.toNat).2 = (map.map2World d.1.toNat d.2.toNat).2 :=
    congrArg (fun pose => pose.position.2.1) h
  have hcell := map.world2Map_map2World (c := (c.1.toNat, c.2.toNat)) (by dsimp only; omega)
    (by dsimp only; omega)
  have hcell' := map.world2Map_map2World (c := (d.1.toNat, d.2.toNat)) (by dsimp only; omega)
    (by dsimp only; omega)
  dsimp only at hcell hcell'
  rw [hx, hy, hcell'] at hcell
  obtain ⟨hfst, hsnd⟩ := Prod.mk.inj (Option.some.inj hcell)
  exact Prod.ext (by omega) (by omega)

/-- Cells of the map are told apart by the goals in them. -/
theorem eq_of_moveGoal {goal : PoseStamped} {o o' : Option (Int × Int)}
    (ho : ∀ c ∈ o, InMap map c) (ho' : ∀ c ∈ o', InMap map c)
    (h : ∀ pose, (∃ c, o = some c ∧ pose = moveGoal map goal c) ↔
      ∃ c, o' = some c ∧ pose = moveGoal map goal c) : o = o' := by
  refine Option.ext fun c => ?_
  constructor
  · intro hc
    obtain ⟨d, hd, heq⟩ := (h _).mp ⟨c, hc, rfl⟩
    rw [moveGoal_inj (ho c hc) (ho' d hd) heq]
    exact hd
  · intro hc
    obtain ⟨d, hd, heq⟩ := (h _).mpr ⟨c, hc, rfl⟩
    rw [moveGoal_inj (ho' c hc) (ho d hd) heq]
    exact hd

/-- A goal is replaced as it should be for a robot in the map exactly when the line serves. -/
theorem run_replaces_iff {goal robot : Nat × Nat} (h : Chases lib input)
    (hgoal : goalCell lib input = some goal) (hrobot : robotCell input = some robot)
    (hcost : 253 ≤ input.map.costmap (input.map.getIndex goal.1 goal.2)) :
    (∃ r, run lib input b = some r ∧ Replaces input (goalOf lib input) goal robot r) ↔
      Serves input.map goal robot := by
  obtain ⟨⟨-, -, hgx⟩, -, -, hgy⟩ := world2Map_eq_some hgoal
  obtain ⟨⟨-, -, hrx⟩, -, -, hry⟩ := world2Map_eq_some hrobot
  have hfits := input.map.fits hgx hgy hrx (Or.inr hry)
  obtain ⟨line, hline, -, hhead, -, -, hbox⟩ := lineCells_line hfits
  have hin : ∀ c ∈ line, InMap input.map c :=
    fun c hc => inMap_of_inBox ⟨hgx, hgy⟩ ⟨hrx, hry⟩ (hbox c hc)
  obtain ⟨line', hline', -, -, hrun⟩ := run_blocked (b := b) h hgoal hrobot hcost
  have hserves : Serves input.map goal robot ↔
      (∀ cell ∈ searched input.map line', cell ∈ line) ∧
        stop input.map line' = line.find? fun c => cellCost input.map c < 253 := by
    rw [search_serves_iff hfits (input.map.fits hgx hgy hrx (Or.inl hrx)) hline hline' hin]
    unfold Serves
    rw [hline, hline']
    constructor
    · rintro ⟨line₁, line₂, hline₁, hline₂, h⟩
      cases hline₁
      cases hline₂
      exact h
    · exact fun h => ⟨line, line', rfl, rfl, h⟩
  rw [hrun, hserves]
  constructor
  · rintro ⟨r, hr, line₁, hline₁, hinspected, hcommands⟩
    obtain rfl := Option.some.inj (hline₁.symm.trans hline)
    by_cases hout : ∃ cell ∈ stop input.map line', ¬InMap input.map cell
    · rw [if_pos hout] at hr
      cases hr
    rw [if_neg hout] at hr
    obtain rfl := Option.some.inj hr
    have hsearched : ∀ cell ∈ searched input.map line', cell ∈ line₁ := by
      intro cell hcell
      have hread : cell ∈ (lineRun lib input b goal line').inspected := by
        rw [lineRun_inspected]
        exact List.mem_cons_of_mem _ hcell
      exact (hinspected cell hread).1
    refine ⟨hsearched, ?_⟩
    refine eq_of_moveGoal (fun c hc => ?_) (fun c hc => ?_)
      fun pose => (execute_mem_lineRun goal line' pose).symm.trans (hcommands pose)
    · exact hin c (hsearched c (stop_mem_searched hc))
    · exact hin c (List.mem_of_find?_eq_some hc)
  · rintro ⟨hsearched, hstop⟩
    have hout : ¬∃ cell ∈ stop input.map line', ¬InMap input.map cell := by
      rintro ⟨cell, hcell, hleaves⟩
      exact hleaves (hin cell (hsearched cell (stop_mem_searched hcell)))
    rw [if_neg hout]
    refine ⟨_, rfl, line, hline, fun cell hcell => ?_, fun pose => ?_⟩
    · have hcell : cell ∈ line := by
        rw [lineRun_inspected] at hcell
        rcases List.mem_cons.mp hcell with rfl | hcell
        · exact List.mem_of_head? hhead
        · exact hsearched cell hcell
      exact ⟨hcell, hin cell hcell⟩
    · rw [execute_mem_lineRun, hstop]

/-- A run meets its purpose when no line is searched, or the goal and the robot are in the map and
the line serves. -/
theorem meets_of_serves (h : ¬Searches lib input ∨
      ∃ goal robot, goalCell lib input = some goal ∧ robotCell input = some robot ∧
        Serves input.map goal robot) : Meets lib input b := by
  obtain hsearches | ⟨goal, robot, hgoal, hrobot, hserves⟩ := h
  · refine ⟨fun goal robot hchases hgoal hrobot hcost => ?_, fun _ => ?_⟩
    · exact absurd ⟨hchases, goal, hgoal, hcost⟩ hsearches
    · exact run_of_not_searches hsearches
  · refine ⟨fun goal' robot' hchases hgoal' hrobot' hcost => ?_, fun hnone => ?_⟩
    · obtain rfl := Option.some.inj (hgoal'.symm.trans hgoal)
      obtain rfl := Option.some.inj (hrobot'.symm.trans hrobot)
      exact (run_replaces_iff hchases hgoal hrobot hcost).mpr hserves
    · cases hnone.symm.trans hrobot

/-- A run meets its purpose exactly when no line is searched, or the goal and the robot are in the
map and the line serves. -/
theorem run_meets_iff (lib : Cmath) (input : ChaseInput) (b : ChaseBehavior) :
    Meets lib input b ↔ ¬Searches lib input ∨
      ∃ goal robot, goalCell lib input = some goal ∧ robotCell input = some robot ∧
        Serves input.map goal robot := by
  refine ⟨?_, meets_of_serves⟩
  rintro ⟨hinside, houtside⟩
  by_cases hsearches : Searches lib input
  case neg => exact Or.inl hsearches
  obtain ⟨hchases, goal, hgoal, hcost⟩ := hsearches
  cases hrobot : robotCell input with
  | none =>
      obtain ⟨r, hrun, huses⟩ := houtside hrobot
      rw [run_usesRobotCell ⟨hchases, goal, hgoal, hcost⟩ hrun] at huses
      cases huses
  | some robot =>
      have hreplaces := hinside goal robot hchases hgoal hrobot hcost
      exact Or.inr ⟨goal, robot, hgoal, rfl, (run_replaces_iff hchases hgoal hrobot hcost).mp hreplaces⟩

/-- A robot left of a map, and a point in front of the enemy that is blocked. -/
def outsideMap : ChaseInput where
  executorState := .IDLE
  robotMapPose := poseAt (-1) (1 / 2)
  enemy := poseAt 2 (1 / 2)
  now := 0
  map := twoCells

/-- For a robot off the diagonal the line leaves the map although the cell between goal and robot is
free, and for one outside of the map it leads to a cell that was never set. -/
theorem run_misses : ¬Meets ahead offDiagonal fresh ∧ ¬Meets ahead outsideMap fresh := by
  constructor
  · intro hmeets
    have hundefined : run ahead offDiagonal fresh = none := by
      decide +kernel
    have hchases : Chases ahead offDiagonal := by
      unfold Chases
      decide +kernel
    obtain ⟨r, hrun, -⟩ := hmeets.1 (3, 0) (1, 0) hchases (by decide +kernel) (by decide +kernel)
      (by decide +kernel)
    rw [hundefined] at hrun
    cases hrun
  · intro hmeets
    have hundefined : run ahead outsideMap fresh = none := by
      decide +kernel
    obtain ⟨r, hrun, -⟩ := hmeets.2 (by decide +kernel)
    rw [hundefined] at hrun
    cases hrun

/-! ## All costs -/

/-- The same call with other costs in the cells of the map. -/
def withCosts (input : ChaseInput) (costmap : Nat → UInt8) : ChaseInput :=
  { input with map := { input.map with costmap := costmap } }

/-- A part of a line from its beginning that has its last cell is the whole of it. -/
theorem eq_of_prefix_of_last {line line' : List (Int × Int)} (hnodup : line.Nodup)
    (hbefore : line' <+: line) (hlast : line.getLast? = some cell) (hcell : cell ∈ line') :
    line' = line := by
  obtain ⟨rest, rfl⟩ := hbefore
  cases rest using List.reverseRecOn with
  | nil => rw [List.append_nil]
  | append_singleton rest last =>
      rw [← List.append_assoc, List.getLast?_concat] at hlast
      obtain rfl := Option.some.inj hlast
      exact absurd rfl ((List.nodup_append.mp hnodup).2.2 _ hcell _ (by simp))

/-- The cells of the map have their own places in the array. -/
theorem eq_of_getIndex {c d : Int × Int} (hc : InMap map c) (hd : InMap map d)
    (h : map.getIndex c.1.toNat c.2.toNat = map.getIndex d.1.toNat d.2.toNat) : c = d := by
  obtain ⟨⟨hcx, hcx'⟩, hcy, -⟩ := hc
  obtain ⟨⟨hdx, hdx'⟩, hdy, -⟩ := hd
  have hcell := map.getIndex_inj (a := (c.1.toNat, c.2.toNat)) (b := (d.1.toNat, d.2.toNat))
    (by dsimp only; omega) (by dsimp only; omega) h
  obtain ⟨hx, hy⟩ := Prod.mk.inj hcell
  exact Prod.ext (by omega) (by omega)

/-- Whatever the costs of the map are, a run meets its purpose exactly for a robot on the
diagonal. -/
theorem run_meets_all_iff {goal robot : Nat × Nat} (h : Chases lib input)
    (hgoal : goalCell lib input = some goal) (hrobot : robotCell input = some robot) :
    (∀ costmap, Meets lib (withCosts input costmap) b) ↔ robot.1 = robot.2 := by
  obtain ⟨⟨-, -, hgx⟩, -, -, hgy⟩ := world2Map_eq_some hgoal
  obtain ⟨⟨-, -, hrx⟩, -, -, hry⟩ := world2Map_eq_some hrobot
  have hfits := input.map.fits hgx hgy hrx (Or.inr hry)
  obtain ⟨line, hline, -, hhead, hlast, -, hbox⟩ := lineCells_line hfits
  have hin : ∀ c ∈ line, InMap input.map c :=
    fun c hc => inMap_of_inBox ⟨hgx, hgy⟩ ⟨hrx, hry⟩ (hbox c hc)
  constructor
  · intro hmeets
    by_contra hoff
    have hserves : ∀ costmap : Nat → UInt8, 253 ≤ costmap (input.map.getIndex goal.1 goal.2) →
        Serves (withCosts input costmap).map goal robot := by
      intro costmap hcost
      have hreplaces := (hmeets costmap).1 goal robot h hgoal hrobot hcost
      have hchases : Chases lib (withCosts input costmap) := h
      exact (run_replaces_iff hchases hgoal hrobot hcost).mp hreplaces
    obtain ⟨line', hline', -, hhead', hlast', -, -⟩ :=
      lineCells_line (input.map.fits hgx hgy hrx (Or.inl hrx))
    -- with all cells occupied the search reads its whole line
    have hbefore : line' <+: line := by
      obtain ⟨line₁, line₂, hline₁, hline₂, hcase⟩ := hserves (fun _ => 254) (by decide)
      obtain rfl := Option.some.inj (hline₁.symm.trans hline)
      obtain rfl := Option.some.inj (hline₂.symm.trans hline')
      rcases hcase with ⟨common, -, -, cell, -, hfree⟩ | ⟨hbefore, -⟩
      · exact absurd hfree (show ¬(254 : UInt8) < 253 by decide)
      · exact hbefore
    have hmiss : ((robot.1 : Int), (robot.2 : Int)) ∉ line' := by
      intro hmem
      obtain rfl := eq_of_prefix_of_last (lineCells_nodup hfits hline) hbefore hlast hmem
      have hends := Option.some.inj (hlast.symm.trans hlast')
      exact hoff (by simpa using (congrArg Prod.snd hends).symm)
    -- and it does not find the cell of the robot when that is the free one
    let costmap : Nat → UInt8 :=
      fun index => if index = input.map.getIndex robot.1 robot.2 then 0 else 254
    have hfree_iff : ∀ cell, InMap input.map cell →
        (cellCost (withCosts input costmap).map cell < 253 ↔
          cell = ((robot.1 : Int), (robot.2 : Int))) := by
      intro cell hcell
      show (if input.map.getIndex cell.1.toNat cell.2.toNat = input.map.getIndex robot.1 robot.2
        then (0 : UInt8) else 254) < 253 ↔ _
      split_ifs with hindex
      · exact iff_of_true (by decide) (eq_of_getIndex hcell (hin _ (List.mem_of_getLast? hlast)) hindex)
      · refine iff_of_false (by decide) ?_
        rintro rfl
        exact hindex rfl
    have hstart : InMap input.map ((goal.1 : Int), (goal.2 : Int)) :=
      hin _ (List.mem_of_head? hhead)
    have hcost : 253 ≤ costmap (input.map.getIndex goal.1 goal.2) := by
      refine UInt8.not_lt.mp fun hfree => hmiss ?_
      rw [← (hfree_iff _ hstart).mp hfree]
      exact List.mem_of_head? hhead'
    obtain ⟨line₁, line₂, hline₁, hline₂, hcase⟩ := hserves costmap hcost
    obtain rfl := Option.some.inj (hline₁.symm.trans hline)
    obtain rfl := Option.some.inj (hline₂.symm.trans hline')
    rcases hcase with ⟨common, hcommon, hcommon', cell, hcell, hfree⟩ | ⟨-, hblocked⟩
    · have hrobotCell := (hfree_iff cell (hin cell (hcommon.subset hcell))).mp hfree
      exact hmiss (hrobotCell ▸ hcommon'.subset hcell)
    · have hend := List.mem_of_getLast? hlast
      exact absurd (hblocked _ hend) (UInt8.not_le.mpr ((hfree_iff _ (hin _ hend)).mpr rfl))
  · intro hdiagonal costmap
    refine meets_of_serves (Or.inr ⟨goal, robot, hgoal, hrobot, line, line, hline, ?_, ?_⟩)
    · rw [← hline, hdiagonal]
    · by_cases hfree : ∃ cell ∈ line, cellCost (withCosts input costmap).map cell < 253
      · exact Or.inl ⟨line, List.prefix_refl line, List.prefix_refl line, hfree⟩
      · refine Or.inr ⟨List.prefix_refl line, fun cell hcell => UInt8.not_lt.mp fun hlt => ?_⟩
        exact hfree ⟨cell, hcell, hlt⟩

/-- In the row of four cells the robot is off the diagonal. -/
theorem run_meets_all_iff_fourCells :
    ¬∀ costmap, Meets ahead (withCosts offDiagonal costmap) fresh := by
  intro hmeets
  have hchases : Chases ahead offDiagonal := by
    unfold Chases
    decide +kernel
  have hgoal : goalCell ahead offDiagonal = some (3, 0) := by
    decide +kernel
  have hrobot : robotCell offDiagonal = some (1, 0) := by
    decide +kernel
  have hdiagonal := (run_meets_all_iff hchases hgoal hrobot).mp hmeets
  cases hdiagonal

end RoboRTS.Decision.ChaseBehavior
