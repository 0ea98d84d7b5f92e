import RoboRTS.Costmap.Regions
import RoboRTS.Decision.BehaviorState
import RoboRTS.Planning.LocalPlanner.LineIterator
import RoboRTS.Lib.Literals

/-!
# Chasing an enemy

`ChaseBehavior::Run` sends the robot to a point in front of the enemy. When that point is blocked, a
line from it is searched for the first cell that is not. The line is constructed with `robot_cell_x`
for both coordinates of its end, so that it leads to a cell of the diagonal. The result of
`World2Map` for the robot is not looked at: outside of the map, the search goes to a cell that is
not one of the robot, or that was never set. What `Run` is for is `Meets`.

The `FastLineIterator` of the decision package is a copy of the one of the local planner.
-/

namespace RoboRTS.Decision

open Costmap Planning

/-- `geometry_msgs::msg::PoseStamped`; times are numbers. -/
structure PoseStamped where
  frameId : String
  stamp : Nat
  position : Rat × Rat × Rat
  orientation : Rat × Rat × Rat × Rat
  deriving DecidableEq, Repr

/-- The functions of the mathematical library. -/
structure Cmath where
  sqrt : Rat → Rat
  cos : Rat → Rat
  sin : Rat → Rat
  atan2 : Rat → Rat → Rat

/-- The costmap with its cells. Four times its width and height are `int`s, as the line iterator
needs them. -/
structure CostMap2D extends Geometry where
  costmap : Nat → UInt8
  sizes_small : sizeX ≤ 2 ^ 29 ∧ sizeY ≤ 2 ^ 29

namespace CostMap2D

variable (map : CostMap2D)

/-- `GetCost`, undefined behind the end of the array. -/
def getCost (mx my : Nat) : Option UInt8 :=
  if map.getIndex mx my < map.sizeX * map.sizeY then some (map.costmap (map.getIndex mx my))
  else none

/-- `World2Map`: what it returns, and the cell that it sets, which it leaves alone for a point below
or left of the map. -/
def world2MapCell (wx wy : Rat) : Bool × Option (Nat × Nat) :=
  if wx < map.originX ∨ wy < map.originY then (false, none)
  else
    let mx := (truncate ((wx - map.originX) / map.resolution)).toNat
    let my := (truncate ((wy - map.originY) / map.resolution)).toNat
    (decide (mx < map.sizeX ∧ my < map.sizeY), some (mx, my))

/-- The iterator goes from a cell of the map to any other, and to those of the diagonal. -/
theorem fits {a b c d : Nat} (ha : a < map.sizeX) (hb : b < map.sizeY) (hc : c < map.sizeX)
    (hd : d < map.sizeX ∨ d < map.sizeY) : FastLineIterator.Fits a b c d := by
  obtain ⟨hx, hy⟩ := map.sizes_small
  unfold FastLineIterator.Fits FastLineIterator.steps
  omega

end CostMap2D

/-- What a call of `Run` reads from the executor and the blackboard. -/
structure ChaseInput where
  executorState : BehaviorState
  robotMapPose : PoseStamped
  enemy : PoseStamped
  now : Nat
  map : CostMap2D

/-- The calls of the chassis executor. -/
inductive ChassisCommand where
  | execute (goal : PoseStamped)
  | cancel
  deriving DecidableEq, Repr

/-- The members of `ChaseBehavior` that `Run` uses. -/
structure ChaseBehavior where
  chaseBuffer : Fin 2 → PoseStamped
  chaseCount : Nat
  cancelGoal : Bool

/-- The search of a line: the cells whose cost was read, and the one that is free. -/
structure LineSearch where
  inspected : List (Int × Int)
  found : Option (Int × Int)
  deriving DecidableEq, Repr

/-- A call of `Run`: the commands, the cells whose cost was read, and whether the cell of the robot
was used. -/
structure ChaseRun where
  behavior : ChaseBehavior
  commands : List ChassisCommand
  inspected : List (Int × Int)
  usesRobotCell : Bool

namespace ChaseBehavior

open FastLineIterator

/-- The loop over the line, in at most `fuel` tests of its condition. -/
def searchLine (map : CostMap2D) : Nat → FastLineIterator → Option LineSearch
  | 0, _ => none
  | fuel + 1, line =>
      if line.isValid then do
        let pointCost ← map.getCost line.x.toNat line.y.toNat
        if pointCost ≥ 253 then
          let rest ← line.advance.bind (searchLine map fuel)
          some { rest with inspected := (line.x, line.y) :: rest.inspected }
        else some { inspected := [(line.x, line.y)], found := some (line.x, line.y) }
      else some { inspected := [], found := none }

/-- The distance from the robot to a pose. -/
def distance (lib : Cmath) (enemy robot : PoseStamped) : Rat :=
  let dx := enemy.position.1 - robot.position.1
  let dy := enemy.position.2.1 - robot.position.2.1
  lib.sqrt (dx ^ 2 + dy ^ 2)

/-- The goal in front of an enemy. -/
def reduceGoal (lib : Cmath) (enemy robot : PoseStamped) (now : Nat) : PoseStamped :=
  let dx := enemy.position.1 - robot.position.1
  let dy := enemy.position.2.1 - robot.position.2.1
  let yaw := lib.atan2 dy dx
  { frameId := "map"
    stamp := now
    position :=
      (enemy.position.1 - 6 / 5 * lib.cos yaw, enemy.position.2.1 - 6 / 5 * lib.sin yaw, 1)
    orientation := robot.orientation }

/-- The goal in the middle of a cell. -/
def moveGoal (map : CostMap2D) (goal : PoseStamped) (cell : Int × Int) : PoseStamped :=
  let (goalX, goalY) := map.map2World cell.1.toNat cell.2.toNat
  { goal with position := (goalX, goalY, goal.position.2.2) }

/-- The member `cancel_goal_` lets one call of `Cancel` through. -/
def cancelOnce (b : ChaseBehavior) : ChaseBehavior × List ChassisCommand :=
  if b.cancelGoal then ({ b with cancelGoal := false }, [.cancel]) else (b, [])

/-- The part of `Run` from the goal on, undefined where it reads behind the end of the map or a cell
that was never set. -/
def pursue (map : CostMap2D) (robotMapPose goal : PoseStamped) (b : ChaseBehavior) :
    Option ChaseRun :=
  let (getEnemyCell, goalCell) := map.world2MapCell goal.position.1 goal.position.2.1
  if !getEnemyCell then some ⟨b, [], [], false⟩
  else do
    let (goalCellX, goalCellY) ← goalCell
    -- the result of this conversion is not looked at
    let robotCell := (map.world2MapCell robotMapPose.position.1 robotMapPose.position.2.1).2
    let cost ← map.getCost goalCellX goalCellY
    if cost ≥ 253 then
      let (robotCellX, _) ← robotCell
      -- the column of the robot stands for its row as well
      let line ← create goalCellX goalCellY robotCellX robotCellX
      let search ← searchLine map line.visitBound line
      let inspected := ((goalCellX : Int), (goalCellY : Int)) :: search.inspected
      match search.found with
      | some cell =>
          some ⟨{ b with cancelGoal := true }, [.execute (moveGoal map goal cell)], inspected, true⟩
      | none => some ⟨b.cancelOnce.1, b.cancelOnce.2, inspected, true⟩
    else some ⟨{ b with cancelGoal := true }, [.execute goal], [(goalCellX, goalCellY)], false⟩

/-- `Run`. -/
def run (lib : Cmath) (input : ChaseInput) (b : ChaseBehavior) : Option ChaseRun :=
  if input.executorState ≠ .RUNNING then
    let robotMapPose := input.robotMapPose
    let chaseBuffer := Function.update b.chaseBuffer (Fin.ofNat 2 b.chaseCount) input.enemy
    let chaseCount := (b.chaseCount + 1) % 2
    let b := { b with chaseBuffer := chaseBuffer, chaseCount := chaseCount }
    let newest := chaseBuffer (Fin.ofNat 2 (chaseCount + 2 - 1))
    if distance lib newest robotMapPose ≥ 1 ∧ distance lib newest robotMapPose ≤ 2 then
      some ⟨b.cancelOnce.1, b.cancelOnce.2, [], false⟩
    else pursue input.map robotMapPose (reduceGoal lib newest robotMapPose input.now) b
  else some ⟨b, [], [], false⟩

/-! ## Searches -/

/-- The cost of a cell of the line. -/
def cellCost (map : CostMap2D) (cell : Int × Int) : UInt8 :=
  map.costmap (map.getIndex cell.1.toNat cell.2.toNat)

/-- The cell is one of the map. -/
def InMap (map : CostMap2D) (cell : Int × Int) : Prop :=
  (0 ≤ cell.1 ∧ cell.1 < map.sizeX) ∧ 0 ≤ cell.2 ∧ cell.2 < map.sizeY

variable {map : CostMap2D} {lib : Cmath} {input : ChaseInput} {b : ChaseBehavior} {x y : Nat}
  {cell : Int × Int}

theorem getCost_of_lt (hx : x < map.sizeX) (hy : y < map.sizeY) :
    map.getCost x y = some (map.costmap (map.getIndex x y)) := by
  refine if_pos ?_
  have hrow := Nat.mul_le_mul_right map.sizeX (show y + 1 ≤ map.sizeY from hy)
  rw [Nat.add_one_mul, Nat.mul_comm map.sizeY] at hrow
  unfold Geometry.getIndex
  omega

theorem InMap.getCost_eq (h : InMap map cell) :
    map.getCost cell.1.toNat cell.2.toNat = some (cellCost map cell) := by
  unfold InMap at h
  exact getCost_of_lt (by omega) (by omega)

/-! ## Runs -/

/-- `Run` goes on to a goal: the executor is idle, and the enemy is not at the right distance. -/
def Chases (lib : Cmath) (input : ChaseInput) : Prop :=
  input.executorState ≠ .RUNNING ∧
    ¬(distance lib input.enemy input.robotMapPose ≥ 1 ∧
      distance lib input.enemy input.robotMapPose ≤ 2)

/-- The goal of the run. -/
def goalOf (lib : Cmath) (input : ChaseInput) : PoseStamped :=
  reduceGoal lib input.enemy input.robotMapPose input.now

/-- The cell of the goal. -/
def goalCell (lib : Cmath) (input : ChaseInput) : Option (Nat × Nat) :=
  input.map.world2Map (goalOf lib input).position.1 (goalOf lib input).position.2.1

/-- The cell of the robot. -/
def robotCell (input : ChaseInput) : Option (Nat × Nat) :=
  input.map.world2Map input.robotMapPose.position.1 input.robotMapPose.position.2.1

/-- The goal is blocked, so that `Run` searches a line. -/
def Searches (lib : Cmath) (input : ChaseInput) : Prop :=
  Chases lib input ∧ ∃ cell, goalCell lib input = some cell ∧
    253 ≤ input.map.costmap (input.map.getIndex cell.1 cell.2)

/-- What a run from a blocked goal to a robot in the map does: it reads cells of the map on the
line, and executes the goal in the first free cell of the line, if there is one. -/
def Replaces (input : ChaseInput) (goal : PoseStamped) (goalCell robotCell : Nat × Nat)
    (r : ChaseRun) : Prop :=
  ∃ line, lineCells goalCell.1 goalCell.2 robotCell.1 robotCell.2 = some line ∧
    (∀ cell ∈ r.inspected, cell ∈ line ∧ InMap input.map cell) ∧
    ∀ pose, .execute pose ∈ r.commands ↔
      ∃ cell, line.find? (fun c => cellCost input.map c < 253) = some cell ∧
        pose = moveGoal input.map goal cell

/-- A run replaces a blocked goal on the line to a robot in the map, and has no use for the cell of
a robot outside of the map. -/
def Meets (lib : Cmath) (input : ChaseInput) (b : ChaseBehavior) : Prop :=
  (∀ goal robot, Chases lib input → goalCell lib input = some goal → robotCell input = some robot →
    253 ≤ input.map.costmap (input.map.getIndex goal.1 goal.2) →
      ∃ r, run lib input b = some r ∧ Replaces input (goalOf lib input) goal robot r) ∧
  (robotCell input = none → ∃ r, run lib input b = some r ∧ r.usesRobotCell = false)

theorem world2MapCell_of_some {wx wy : Rat} {c : Nat × Nat} (h : map.world2Map wx wy = some c) :
    map.world2MapCell wx wy = (true, some c) := by
  unfold Geometry.world2Map at h
  unfold CostMap2D.world2MapCell
  split at h
  case isTrue => cases h
  case isFalse hlow =>
    rw [if_neg hlow]
    dsimp only at h ⊢
    split at h
    case isTrue hin =>
      cases h
      rw [decide_eq_true hin]
    case isFalse => cases h

theorem world2MapCell_of_none {wx wy : Rat} (h : map.world2Map wx wy = none) :
    (map.world2MapCell wx wy).1 = false := by
  unfold Geometry.world2Map at h
  unfold CostMap2D.world2MapCell
  split at h
  case isTrue hlow => rw [if_pos hlow]
  case isFalse hlow =>
    rw [if_neg hlow]
    dsimp only at h ⊢
    split at h
    case isTrue => cases h
    case isFalse hout => exact decide_eq_false hout

/-- The pose that was stored last is the one that is read. -/
theorem newest_eq (buffer : Fin 2 → PoseStamped) (count : Nat) (enemy : PoseStamped) :
    Function.update buffer (Fin.ofNat 2 count) enemy (Fin.ofNat 2 ((count + 1) % 2 + 2 - 1)) =
      enemy := by
  have hslot : Fin.ofNat 2 ((count + 1) % 2 + 2 - 1) = Fin.ofNat 2 count := by
    refine Fin.ext ?_
    show ((count + 1) % 2 + 2 - 1) % 2 = count % 2
    omega
  rw [hslot, Function.update_self]

/-- The members after the enemy was stored. -/
def stored (input : ChaseInput) (b : ChaseBehavior) : ChaseBehavior :=
  { b with
    chaseBuffer := Function.update b.chaseBuffer (Fin.ofNat 2 b.chaseCount) input.enemy
    chaseCount := (b.chaseCount + 1) % 2 }

/-- A run that goes on to a goal. -/
theorem run_of_chases (h : Chases lib input) : run lib input b =
    pursue input.map input.robotMapPose (goalOf lib input) (stored input b) := by
  unfold run
  rw [if_pos h.1]
  dsimp only
  rw [newest_eq, if_neg h.2]
  rfl

/-- A run that does not get to a goal has no use for the cell of the robot. -/
theorem run_of_not_chases (h : ¬Chases lib input) :
    ∃ r, run lib input b = some r ∧ r.usesRobotCell = false := by
  unfold run
  by_cases hrunning : input.executorState ≠ .RUNNING
  · rw [if_pos hrunning]
    dsimp only
    rw [newest_eq]
    split
    case isTrue => exact ⟨_, rfl, rfl⟩
    case isFalse hdistance => exact absurd ⟨hrunning, hdistance⟩ h
  · rw [if_neg hrunning]
    exact ⟨_, rfl, rfl⟩

/-- The search from a blocked goal. -/
theorem pursue_blocked {pose goal : PoseStamped} {c : Nat × Nat}
    (hgoal : map.world2Map goal.position.1 goal.position.2.1 = some c)
    (hcost : 253 ≤ map.costmap (map.getIndex c.1 c.2)) :
    pursue map pose goal b = (do
      let robotCell ← (map.world2MapCell pose.position.1 pose.position.2.1).2
      let line ← create c.1 c.2 robotCell.1 robotCell.1
      let search ← searchLine map line.visitBound line
      let inspected := ((c.1 : Int), (c.2 : Int)) :: search.inspected
      match search.found with
      | some cell =>
          some ⟨{ b with cancelGoal := true }, [.execute (moveGoal map goal cell)], inspected, true⟩
      | none => some ⟨b.cancelOnce.1, b.cancelOnce.2, inspected, true⟩) := by
  obtain ⟨⟨-, -, hx⟩, -, -, hy⟩ := world2Map_eq_some hgoal
  unfold pursue
  rw [world2MapCell_of_some hgoal]
  show (do
    let cost ← map.getCost c.1 c.2
    _) = _
  rw [getCost_of_lt hx hy, Option.bind_eq_bind, Option.bind_some, if_pos hcost]

/-- A goal that is not blocked needs no search. -/
theorem pursue_free {pose goal : PoseStamped} (h : ∀ c, map.world2Map goal.position.1
      goal.position.2.1 = some c → ¬253 ≤ map.costmap (map.getIndex c.1 c.2)) :
    ∃ r, pursue map pose goal b = some r ∧ r.usesRobotCell = false := by
  unfold pursue
  cases hgoal : map.world2Map goal.position.1 goal.position.2.1 with
  | none =>
      have hout := world2MapCell_of_none hgoal
      generalize map.world2MapCell goal.position.1 goal.position.2.1 = found at hout
      obtain ⟨getEnemyCell, goalCell⟩ := found
      cases hout
      exact ⟨_, rfl, rfl⟩
  | some c =>
      obtain ⟨⟨-, -, hx⟩, -, -, hy⟩ := world2Map_eq_some hgoal
      rw [world2MapCell_of_some hgoal]
      show ∃ r, (do
        let cost ← map.getCost c.1 c.2
        _) = some r ∧ _
      rw [getCost_of_lt hx hy, Option.bind_eq_bind, Option.bind_some, if_neg (h c hgoal)]
      exact ⟨_, rfl, rfl⟩

/-- The box of two cells of the map. -/
theorem inMap_of_inBox {c d : Nat × Nat} (hc : c.1 < map.sizeX ∧ c.2 < map.sizeY)
    (hd : d.1 < map.sizeX ∧ d.2 < map.sizeY) (h : InBox c.1 c.2 d.1 d.2 cell) : InMap map cell := by
  obtain ⟨hx, hy⟩ := h
  exact ⟨by omega, by omega⟩

/-- The search from a blocked goal uses the cell of the robot. -/
theorem run_usesRobotCell {r : ChaseRun} (h : Searches lib input)
    (hrun : run lib input b = some r) : r.usesRobotCell = true := by
  obtain ⟨hchases, goal, hgoal, hcost⟩ := h
  rw [run_of_chases hchases, pursue_blocked hgoal hcost] at hrun
  obtain ⟨robot, -, hrun⟩ := Option.bind_eq_some_iff.mp hrun
  obtain ⟨line, -, hrun⟩ := Option.bind_eq_some_iff.mp hrun
  obtain ⟨search, -, hrun⟩ := Option.bind_eq_some_iff.mp hrun
  dsimp only at hrun
  split at hrun <;> (cases hrun; rfl)

/-- Without a search the cell of the robot is not used. -/
theorem run_of_not_searches (h : ¬Searches lib input) :
    ∃ r, run lib input b = some r ∧ r.usesRobotCell = false := by
  by_cases hchases : Chases lib input
  · rw [run_of_chases hchases]
    exact pursue_free fun c hc hcost => h ⟨hchases, c, hc, hcost⟩
  · exact run_of_not_chases hchases

/-- A map of two cells, of which the left one is occupied. -/
def twoCells : CostMap2D where
  sizeX := 2
  sizeY := 1
  resolution := 1
  originX := 0
  originY := 0
  resolution_pos := unitResolution_pos
  costmap := fun index => if index = 0 then 254 else 0
  sizes_small := by decide

/-- A pose on the ground that looks along the first axis. -/
def poseAt (x y : Rat) : PoseStamped :=
  { frameId := "map", stamp := 0, position := (x, y, 0), orientation := (0, 0, 0, 1) }

end ChaseBehavior

end RoboRTS.Decision
