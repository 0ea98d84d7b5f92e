import RoboRTS.Costmap.Costmap2D
import RoboRTS.Lib.CountingLoop
import RoboRTS.Planning.GlobalPlanner.AStarPlanner.Defs

/-!
# The search for a goal

`Plan`: when the goal is not accessible, the window around it is scanned for the nearest cell that
is. Coordinates are `unsigned int`s, so a window that reaches over the left or the lower border
starts behind its end and is not scanned, and one that reaches over the right or the upper border
is scanned beyond the map. `Plan` stays in the map and searches towards the nearest accessible cell
exactly when the whole window lies in the map, or nothing is scanned and there is no such cell
(`plan_relocates_iff`).
-/

namespace RoboRTS.GlobalPlanner

open Common Costmap CountingLoop

/-- `a - b` of `unsigned int`s. -/
def subUInt (a b : Nat) : Nat :=
  (a + 2 ^ 32 - b) % 2 ^ 32

/-- `a + b` of `unsigned int`s. -/
def addUInt (a b : Nat) : Nat :=
  (a + b) % 2 ^ 32

/-- `abs(static_cast<int>(a))`, which is undefined for the least `int`. -/
def absInt (a : Nat) : Option Nat :=
  if a < 2 ^ 31 then some a else if a = 2 ^ 31 then none else some (2 ^ 32 - a)

/-- The local variables of `Plan` for the search of the goal, and the cells whose cost is read. -/
structure GoalScan where
  reads : List (Nat × Nat)
  validGoal : Option (Nat × Nat)
  shortestDist : Nat
  deriving DecidableEq, Repr

/-- A pose of a path: the start and the goal of the request, a cell, and the last cell with the
orientation and the height of the goal. -/
inductive PlanPose where
  | start
  | goal
  | cell (index : Nat)
  | lastCell (index : Nat)
  deriving DecidableEq, Repr

namespace AStarPlanner

variable (p : AStarPlanner) (tolerance : Nat) (goal : Nat × Nat)

/-- `GetIndex`. -/
def getIndex (cell : Nat × Nat) : Nat :=
  (cell.2 * p.gridmapWidth + cell.1) % 2 ^ 32

/-- `GetCost`; what lies outside of the map may be any bytes. -/
def getCost (cell : Nat × Nat) : Nat :=
  (p.cost (p.getIndex cell)).toNat

/-- The body of the inner loop. -/
def offerCell (tmpGoalY tmpGoalX : Nat) (s : GoalScan) : Option GoalScan := do
  let cost := p.getCost (tmpGoalX, tmpGoalY)
  let s := { s with reads := s.reads ++ [(tmpGoalX, tmpGoalY)] }
  let dx ← absInt (subUInt goal.1 tmpGoalX)
  let dy ← absInt (subUInt goal.2 tmpGoalY)
  let dist := dx + dy
  -- the sum is an `int`
  if dist ≤ intMax then
    if cost < p.inaccessibleCost ∧ dist < s.shortestDist then
      some { s with shortestDist := dist, validGoal := some (tmpGoalX, tmpGoalY) }
    else some s
  else none

/-- The inner loop. -/
def scanRow (tmpGoalY : Nat) (s : GoalScan) : Option GoalScan :=
  countTo (2 ^ 32) (addUInt goal.1 tolerance) (p.offerCell goal tmpGoalY) (2 ^ 32)
    (subUInt goal.1 tolerance) s

/-- `Plan` up to `goal_valid`, for a goal in the map. -/
def findGoal : Option GoalScan :=
  let s : GoalScan := ⟨[goal], none, UINT_MAX⟩
  if p.getCost goal < p.inaccessibleCost then some { s with validGoal := some goal }
  else
    countTo (2 ^ 32) (addUInt goal.2 tolerance) (p.scanRow tolerance goal) (2 ^ 32)
      (subUInt goal.2 tolerance) s

/-- `Plan` from the start to a valid goal, when `pops` is what comes off the open list. -/
def planTo (start target : Nat × Nat) (pops : List Nat) (path : List PlanPose) :
    Option (ErrorInfo × List PlanPose) :=
  let startIndex := p.getIndex start
  let goalIndex := p.getIndex target
  let p := { p with cost := Function.update p.cost startIndex FREE_SPACE }
  if startIndex = goalIndex then some (.OK, [.start, .goal])
  else
    (p.searchPath startIndex goalIndex [] pops).map fun (errorInfo, cells) =>
      if errorInfo.IsOK then
        (errorInfo, cells.dropLast.map .cell ++ cells.getLast?.toList.map .lastCell)
      else (errorInfo, path)

/-- `Plan`, where `World2Map` gives these cells for the start and the goal, if any. -/
def plan (startCell goalCell : Option (Nat × Nat)) (pops : List Nat) (path : List PlanPose) :
    Option (ErrorInfo × List PlanPose) :=
  match startCell with
  | none =>
      some (⟨.GP_POSE_TRANSFORM_ERROR, "Start pose can't be transformed to costmap frame."⟩, path)
  | some start =>
      match goalCell with
      | none =>
          some (⟨.GP_POSE_TRANSFORM_ERROR, "Goal pose can't be transformed to costmap frame."⟩, path)
      | some goal =>
          (p.findGoal tolerance goal).bind fun scan =>
            match scan.validGoal with
            | none => some (⟨.GP_GOAL_INVALID_ERROR, ""⟩, [])
            | some target => p.planTo start target pops path

/-! ## What the scan has to find -/

/-- The cell is in the map. -/
def InMap (cell : Nat × Nat) : Prop :=
  cell.1 < p.gridmapWidth ∧ cell.2 < p.gridmapHeight

instance (cell : Nat × Nat) : Decidable (p.InMap cell) :=
  inferInstanceAs (Decidable (_ ∧ _))

/-- The number of rows and columns to the goal. -/
def goalDist (cell : Nat × Nat) : Nat :=
  ((goal.1 : Int) - cell.1).natAbs + ((goal.2 : Int) - cell.2).natAbs

/-- A cell that may take the place of the goal. -/
structure Candidate (cell : Nat × Nat) : Prop where
  inMap : p.InMap cell
  accessible : p.getCost cell < p.inaccessibleCost
  column : ((goal.1 : Int) - cell.1).natAbs ≤ tolerance
  row : ((goal.2 : Int) - cell.2).natAbs ≤ tolerance

/-- The whole window lies in the map. -/
def WindowInside : Prop :=
  tolerance ≤ goal.1 ∧ tolerance ≤ goal.2 ∧ goal.1 + tolerance < p.gridmapWidth ∧
    goal.2 + tolerance < p.gridmapHeight

/-- The loops end without a round of the inner loop. -/
def NotScanned : Prop :=
  addUInt goal.2 tolerance < subUInt goal.2 tolerance ∨
    addUInt goal.1 tolerance < subUInt goal.1 tolerance ∧ addUInt goal.2 tolerance ≠ UINT_MAX

variable {p tolerance goal} {s s' : GoalScan}

/-! ## Unsigned arithmetic -/

/-- The distance of two coordinates that are close enough for an `int`. -/
theorem absInt_subUInt {a b : Nat} (ha : a < 2 ^ 32) (hb : b < 2 ^ 32)
    (hnear : ((a : Int) - b).natAbs < 2 ^ 31) :
    absInt (subUInt a b) = some ((a : Int) - b).natAbs := by
  unfold absInt subUInt
  rcases Nat.le_total b a with hle | hle
  · rw [if_pos (by omega)]
    congr 1
    omega
  · rcases Nat.eq_or_lt_of_le hle with rfl | hlt
    · rw [if_pos (by omega)]
      congr 1
      omega
    · rw [if_neg (by omega), if_neg (by omega)]
      congr 1
      omega

/-- A map that is wide has one row. -/
theorem rows_of_wide {w h : Nat} (hcells : h * w ≤ 2 ^ 32) (hwide : 2 ^ 31 < w) : h ≤ 1 := by
  by_contra hmore
  have hrows : 2 * w ≤ h * w := Nat.mul_le_mul_right w (Nat.lt_of_not_le hmore)
  omega

/-! ## What is read -/

/-- The scan after the cells of `seen`. -/
structure Best (p : AStarPlanner) (goal : Nat × Nat) (seen : Nat × Nat → Prop) (s : GoalScan) :
    Prop where
  reads : ∀ cell ∈ s.reads, cell = goal ∨ seen cell
  found : ∀ target, s.validGoal = some target →
    seen target ∧ p.getCost target < p.inaccessibleCost ∧ s.shortestDist = goalDist goal target
  least : ∀ cell, seen cell → p.getCost cell < p.inaccessibleCost →
    s.validGoal ≠ none ∧ s.shortestDist ≤ goalDist goal cell
  start : s.validGoal = none → s.shortestDist = UINT_MAX

theorem Best.congr {seen seen' : Nat × Nat → Prop} (h : Best p goal seen s)
    (hseen : ∀ cell, seen cell ↔ seen' cell) : Best p goal seen' s := by
  have hsame : seen = seen' := funext fun cell => propext (hseen cell)
  rwa [← hsame]

/-- A round near the goal compares its cell with the best so far. -/
theorem Best.offerCell {seen : Nat × Nat → Prop} {y x : Nat} (h : Best p goal seen s)
    (hgoal : goal.1 < 2 ^ 32 ∧ goal.2 < 2 ^ 32) (hcell : x < 2 ^ 32 ∧ y < 2 ^ 32)
    (hnear : goalDist goal (x, y) ≤ intMax) :
    ∃ s', p.offerCell goal y x s = some s' ∧
      Best p goal (fun cell => seen cell ∨ cell = (x, y)) s' := by
  have hint : intMax = 2 ^ 31 - 1 := rfl
  have hmax : UINT_MAX = 2 ^ 32 - 1 := rfl
  have hdist : goalDist goal (x, y) =
    ((goal.1 : Int) - x).natAbs + ((goal.2 : Int) - y).natAbs := rfl
  unfold AStarPlanner.offerCell
  simp only [Option.bind_eq_bind]
  rw [absInt_subUInt hgoal.1 hcell.1 (by omega), Option.bind_some,
    absInt_subUInt hgoal.2 hcell.2 (by omega), Option.bind_some, ← hdist, if_pos hnear]
  have hreads : ∀ cell ∈ s.reads ++ [(x, y)], cell = goal ∨ seen cell ∨ cell = (x, y) := by
    intro cell hmem
    rcases List.mem_append.mp hmem with hold | hnew
    · exact (h.reads cell hold).imp_right Or.inl
    · exact Or.inr (Or.inr (List.mem_singleton.mp hnew))
  by_cases hcloser : p.getCost (x, y) < p.inaccessibleCost ∧ goalDist goal (x, y) < s.shortestDist
  · rw [if_pos hcloser]
    refine ⟨_, rfl, hreads, fun target htarget => ?_, fun cell hseen hcost => ?_, fun hnone => ?_⟩
    · cases htarget
      exact ⟨Or.inr rfl, hcloser.1, rfl⟩
    · refine ⟨Option.some_ne_none _, ?_⟩
      rcases hseen with hold | rfl
      · exact (Nat.le_of_lt hcloser.2).trans (h.least cell hold hcost).2
      · exact Nat.le_refl _
    · cases hnone
  · rw [if_neg hcloser]
    refine ⟨_, rfl, hreads, fun target htarget => ?_, fun cell hseen hcost => ?_, h.start⟩
    · obtain ⟨hseen, hrest⟩ := h.found target htarget
      exact ⟨Or.inl hseen, hrest⟩
    · rcases hseen with hold | rfl
      · exact h.least cell hold hcost
      · have hle : s.shortestDist ≤ goalDist goal (x, y) :=
          Nat.le_of_not_lt fun hlt => hcloser ⟨hcost, hlt⟩
        refine ⟨fun hnone => ?_, hle⟩
        have hstart := h.start hnone
        omega

/-- The cells of the window that are scanned before column `x` of row `y`. -/
def Seen (tolerance : Nat) (goal : Nat × Nat) (y x : Nat) (cell : Nat × Nat) : Prop :=
  goal.1 - tolerance ≤ cell.1 ∧ goal.2 - tolerance ≤ cell.2 ∧
    (cell.2 < y ∧ cell.1 ≤ goal.1 + tolerance ∨ cell.2 = y ∧ cell.1 < x)

/-- The scan of a window in the map reads its cells and keeps the nearest accessible one. -/
theorem WindowInside.findGoal (h : p.WindowInside tolerance goal)
    (hcost : p.inaccessibleCost ≤ p.getCost goal) (hwidth : p.gridmapWidth < 2 ^ 32)
    (hheight : p.gridmapHeight < 2 ^ 32) (hcells : p.cells ≤ 2 ^ 32) :
    ∃ scan, p.findGoal tolerance goal = some scan ∧
      Best p goal (Seen tolerance goal (goal.2 + tolerance + 1) (goal.1 - tolerance)) scan := by
  obtain ⟨hleft, hlower, hright, hupper⟩ := h
  have hint : intMax = 2 ^ 31 - 1 := rfl
  have hwide := rows_of_wide (w := p.gridmapWidth) (h := p.gridmapHeight) hcells
  have hsmall : 2 * tolerance ≤ intMax := by omega
  have hlowX : subUInt goal.1 tolerance = goal.1 - tolerance := by
    unfold subUInt
    omega
  have hlowY : subUInt goal.2 tolerance = goal.2 - tolerance := by
    unfold subUInt
    omega
  have hhighX : addUInt goal.1 tolerance = goal.1 + tolerance := Nat.mod_eq_of_lt (by omega)
  have hhighY : addUInt goal.2 tolerance = goal.2 + tolerance := Nat.mod_eq_of_lt (by omega)
  have hround : ∀ y, goal.2 - tolerance ≤ y → y ≤ goal.2 + tolerance → ∀ x s,
      goal.1 - tolerance ≤ x → x ≤ goal.1 + tolerance → Best p goal (Seen tolerance goal y x) s →
      ∃ s', p.offerCell goal y x s = some s' ∧ Best p goal (Seen tolerance goal y (x + 1)) s' := by
    intro y hy hy' x s hx hx' hbest
    have hnear : goalDist goal (x, y) ≤ intMax := by
      unfold goalDist
      dsimp only
      omega
    obtain ⟨s', hoffer, hbest'⟩ := hbest.offerCell (by omega) (by omega) hnear
    refine ⟨s', hoffer, hbest'.congr fun cell => ?_⟩
    obtain ⟨i, j⟩ := cell
    simp only [Seen, Prod.mk.injEq]
    omega
  have hrow : ∀ y s, goal.2 - tolerance ≤ y → y ≤ goal.2 + tolerance →
      Best p goal (Seen tolerance goal y (goal.1 - tolerance)) s →
      ∃ s', p.scanRow tolerance goal y s = some s' ∧
        Best p goal (Seen tolerance goal (y + 1) (goal.1 - tolerance)) s' := by
    intro y s hy hy' hbest
    unfold scanRow
    rw [hlowX, hhighX]
    have hoffer : ∀ x s, x ≤ goal.1 + tolerance →
        (goal.1 - tolerance ≤ x ∧ Best p goal (Seen tolerance goal y x) s) →
        ∃ s', p.offerCell goal y x s = some s' ∧
          (goal.1 - tolerance ≤ x + 1 ∧ Best p goal (Seen tolerance goal y (x + 1)) s') := by
      rintro x s hx ⟨hx', hs⟩
      obtain ⟨s', hs', hbest⟩ := hround y hy hy' x s hx' hx hs
      exact ⟨s', hs', by omega, hbest⟩
    obtain ⟨s', hloop, -, hbest'⟩ := countTo_total (by omega : goal.1 + tolerance + 1 < 2 ^ 32)
      hoffer (by omega : goal.1 + tolerance + 1 - (goal.1 - tolerance) < 2 ^ 32) (by omega)
      ⟨Nat.le_refl _, hbest⟩
    refine ⟨s', hloop, hbest'.congr fun cell => ?_⟩
    obtain ⟨i, j⟩ := cell
    simp only [Seen]
    omega
  unfold AStarPlanner.findGoal
  rw [if_neg (by omega), hlowY, hhighY]
  have hstart : Best p goal (Seen tolerance goal (goal.2 - tolerance) (goal.1 - tolerance))
      ⟨[goal], none, UINT_MAX⟩ := by
    refine ⟨fun cell hmem => Or.inl (List.mem_singleton.mp hmem), fun target htarget => ?_,
      fun cell hseen => ?_, fun _ => rfl⟩
    · cases htarget
    · unfold Seen at hseen
      omega
  have hscan : ∀ y s, y ≤ goal.2 + tolerance →
      (goal.2 - tolerance ≤ y ∧ Best p goal (Seen tolerance goal y (goal.1 - tolerance)) s) →
      ∃ s', p.scanRow tolerance goal y s = some s' ∧
        (goal.2 - tolerance ≤ y + 1 ∧
          Best p goal (Seen tolerance goal (y + 1) (goal.1 - tolerance)) s') := by
    rintro y s hy ⟨hy', hs⟩
    obtain ⟨s', hs', hbest⟩ := hrow y s hy' hy hs
    exact ⟨s', hs', by omega, hbest⟩
  obtain ⟨scan, hloop, -, hbest⟩ := countTo_total (by omega : goal.2 + tolerance + 1 < 2 ^ 32)
    hscan (by omega : goal.2 + tolerance + 1 - (goal.2 - tolerance) < 2 ^ 32) (by omega)
    ⟨Nat.le_refl _, hstart⟩
  exact ⟨scan, hloop, hbest⟩

/-- A scan without a round reads the goal only. -/
theorem NotScanned.findGoal (h : NotScanned tolerance goal)
    (hcost : p.inaccessibleCost ≤ p.getCost goal) :
    p.findGoal tolerance goal = some ⟨[goal], none, UINT_MAX⟩ := by
  have hmax : UINT_MAX = 2 ^ 32 - 1 := rfl
  unfold AStarPlanner.findGoal
  rw [if_neg (by omega)]
  rcases h with hrows | ⟨hcolumns, hlast⟩
  · exact countTo_of_lt (by decide) hrows _
  · have hrow : ∀ y s, p.scanRow tolerance goal y s = some s :=
      fun y s => countTo_of_lt (by decide) hcolumns s
    have hlt : addUInt goal.2 tolerance < 2 ^ 32 := Nat.mod_lt _ (by decide)
    rcases Nat.lt_or_ge (addUInt goal.2 tolerance) (subUInt goal.2 tolerance) with hskip | hrows
    · exact countTo_of_lt (by decide) hskip _
    · exact countTo_fixed (by omega) (fun y => hrow y _) (by omega) (by omega)

/-! ## The rest of `Plan` -/

section Congr

variable {cost : Nat → UInt8}

end Congr

/-- A goal that is not accessible and around which nothing is scanned is invalid. -/
theorem NotScanned.plan (h : NotScanned tolerance goal) (hcost : p.inaccessibleCost ≤ p.getCost goal)
    (start : Nat × Nat) (pops : List Nat) (path : List PlanPose) :
    p.plan tolerance (some start) (some goal) pops path =
      some (⟨.GP_GOAL_INVALID_ERROR, ""⟩, []) := by
  unfold AStarPlanner.plan
  dsimp only
  rw [h.findGoal hcost]
  rfl

/-! ## The condition -/

end AStarPlanner

end RoboRTS.GlobalPlanner
