import RoboRTS.Common.State
import RoboRTS.Costmap.Costmap2D
import RoboRTS.Lib.RegionCopy
import RoboRTS.Planning.LocalPlanner.TimedElasticBand.TebOptimal

/-!
# The planner above the band

`TebLocalPlanner`: the plan it was given, the part of it that the band follows, and one call of
`ComputeVelocityCommands`. What the call finds in its surroundings (whether `plan_mutex_` is taken,
where the robot is, what the transform buffer answers, the costmap and the solver) is a `Cycle`.
The initial checks and the clearing of the costmap when the robot does not move are not modelled. A
`.back()` of an empty vector, an `.at` that is out of range, and a cost that is read outside the
array of the costmap, give `none`.
-/

namespace RoboRTS.Planning

open Common
open Costmap (Geometry LETHAL_OBSTACLE)

/-- A pose of a plan, in the frame of the plan. -/
structure PlanPose where
  x : Rat
  y : Rat
  z : Rat
  yaw : Rat
  deriving Repr, DecidableEq

structure TebLocalPlanner where
  tempPlan : List PlanPose
  globalPlan : List PlanPose
  planToGlobal : PlanPose → DataBase
  transformedPlan : List DataBase
  obstVector : List (Rat × Rat)
  viaPoints : List (Rat × Rat)
  preferRotdir : RotType
  band : TebVertexConsole

/-- What one call of `ComputeVelocityCommands` finds. `lookup` and `lookupAgain` are the transforms
that the two calls of `UpdateGlobalToPlanTranform` look up, `robotPlan` and `robotPlanAgain` the
positions of the robot in the frame of the plan, each `none` when the buffer throws. The costmap has
cells, with an array for them. -/
structure Cycle where
  locked : Bool
  robotPose : DataBase
  lookup : Option (PlanPose → DataBase)
  lookupAgain : Option (PlanPose → DataBase)
  robotPlan : Option (Rat × Rat)
  robotPlanAgain : Option (Rat × Rat)
  geometry : Geometry
  costmap : Buffer UInt8
  sizeX_pos : 0 < geometry.sizeX
  sizeY_pos : 0 < geometry.sizeY
  allocated : costmap.size = geometry.sizeX * geometry.sizeY
  size_lt : geometry.sizeX * geometry.sizeY < 2 ^ 32
  near : List (Rat × Rat) → DataBase → Nat
  solver : Solver
  footprintCost : DataBase → Rat
  inscribedRadius : Rat

/-- `AverageAngles`. -/
def averageAngles (m : MathLibrary) (angles : List Rat) : Rat :=
  let x := (angles.map m.cos).sum
  let y := (angles.map m.sin).sum
  if x = 0 ∧ y = 0 then 0 else m.atan2 y x

namespace TebLocalPlanner

variable (m : TebLibrary) (config : TebConfig) (p : TebLocalPlanner)

/-- A planner whose `Initialize` has succeeded. -/
def start (planToGlobal : PlanPose → DataBase) (preferRotdir : RotType) : TebLocalPlanner where
  tempPlan := []
  globalPlan := []
  planToGlobal := planToGlobal
  transformedPlan := []
  obstVector := []
  viaPoints := []
  preferRotdir := preferRotdir
  band := .empty

/-- `SetPlan`; the flag says whether `plan_mutex_` was free. -/
def setPlan (locked : Bool) (plan : List PlanPose) (goal : PlanPose) : TebLocalPlanner :=
  if locked then
    { p with tempPlan := if plan = [] then p.tempPlan ++ [goal] else plan }
  else p

/-- `GetPlan`. -/
def getPlan (locked : Bool) : TebLocalPlanner :=
  if locked then { p with globalPlan := p.tempPlan } else p

/-- `UpdateGlobalToPlanTranform`. -/
def updateGlobalToPlanTranform (lookup : Option (PlanPose → DataBase)) : TebLocalPlanner :=
  if p.globalPlan = [] then p else { p with planToGlobal := lookup.getD p.planToGlobal }

/-- `IsGoalReached`. -/
def isGoalReached (robotPose : DataBase) : Option Bool :=
  p.globalPlan.getLast?.map fun goalPlan =>
    let goal := p.planToGlobal goalPlan
    let distance := m.norm (goal.x - robotPose.x) (goal.y - robotPose.y)
    let deltaOrient := m.normalizeTheta (goal.theta - robotPose.theta)
    decide (distance < config.xyGoalTolerance ∧ |deltaOrient| < config.yawGoalTolerance)

/-- The loop of `PruneGlobalPlan`: the plan from the first pose on that is near the robot. -/
def pruneFrom (ox oy : Rat) : List PlanPose → Option (List PlanPose)
  | [] => none
  | pose :: poses =>
      if m.norm (ox - pose.x) (oy - pose.y) < 8 / 10 then some (pose :: poses)
      else pruneFrom ox oy poses

/-- `PruneGlobalPlan`. -/
def pruneGlobalPlan (robotPlan : Option (Rat × Rat)) : TebLocalPlanner :=
  match robotPlan with
  | none => p
  | some (ox, oy) => { p with globalPlan := (pruneFrom m ox oy p.globalPlan).getD p.globalPlan }

/-- The square of the distance of a pose of the plan from the robot. -/
def sqDist (robot : Rat × Rat) (pose : PlanPose) : Rat :=
  (robot.1 - pose.x) * (robot.1 - pose.x) + (robot.2 - pose.y) * (robot.2 - pose.y)

/-- The first loop of `TransformGlobalPlan` from number `i` on, with the distance before: where it
ends, and the distance it keeps. -/
def skipFrom (robot : Rat × Rat) (sqDistThreshold : Rat) : List PlanPose → Nat → Rat → Nat × Rat
  | [], i, sqDist => (i, sqDist)
  | pose :: poses, i, sqDist =>
      let newSqDist := TebLocalPlanner.sqDist robot pose
      if newSqDist > sqDist ∧ sqDist < sqDistThreshold then (i, newSqDist)
      else skipFrom robot sqDistThreshold poses (i + 1) newSqDist

/-- The length that a pose adds to the plan behind the pose before it. -/
def stepLength (cutLookaheadDist : Rat) (before : Option PlanPose) (pose : PlanPose) : Rat :=
  match before with
  | some before =>
      if cutLookaheadDist > 0 then m.norm (pose.x - before.x) (pose.y - before.y) else 0
  | none => 0

/-- The second loop of `TransformGlobalPlan`: the poses it takes. -/
def takeFrom (robot : Rat × Rat) (sqDistThreshold cutLookaheadDist : Rat) :
    Option PlanPose → List PlanPose → Rat → Rat → List PlanPose
  | _, [], _, _ => []
  | before, pose :: poses, sqDist, planLength =>
      if sqDist ≤ sqDistThreshold ∧ (cutLookaheadDist ≤ 0 ∨ planLength ≤ cutLookaheadDist) then
        pose :: takeFrom robot sqDistThreshold cutLookaheadDist (some pose) poses
          (TebLocalPlanner.sqDist robot pose)
          (planLength + stepLength m cutLookaheadDist before pose)
      else []

/-- The distance up to which `TransformGlobalPlan` follows the plan. -/
def distThreshold (geometry : Geometry) : Rat :=
  max (geometry.sizeX * geometry.resolution / 2) (geometry.sizeY * geometry.resolution / 2) *
    (85 / 100)

/-- The part of the plan that `TransformGlobalPlan` follows, and the number of its last pose. -/
def selectSegment (robot : Rat × Rat) (distThreshold : Rat) (plan : List PlanPose) :
    List PlanPose × Nat :=
  let sqDistThreshold := distThreshold * distThreshold
  let (i, sqDist) := skipFrom robot sqDistThreshold plan 0 10000000000
  let before := if i = 0 then none else plan[i - 1]?
  let taken := takeFrom m robot sqDistThreshold config.maxGlobalPlanLookaheadDist before
    (plan.drop i) sqDist 0
  if taken = [] then (plan.getLast?.toList, plan.length - 1) else (taken, i + taken.length - 1)

/-- `TransformGlobalPlan`: the planner and the number of the local goal, or `none` for false. -/
def transformGlobalPlan (c : Cycle) : TebLocalPlanner × Option Nat :=
  let p := { p with transformedPlan := [] }
  if p.globalPlan = [] then (p, none)
  else
    let p := p.updateGlobalToPlanTranform c.lookupAgain
    match c.robotPlanAgain with
    | none => (p, none)
    | some robot =>
        let (segment, goalIdx) :=
          selectSegment m config robot (distThreshold c.geometry) p.globalPlan
        ({ p with transformedPlan := segment.map p.planToGlobal }, some goalIdx)

/-- The loop of `EstimateLocalGoalOrientation`: the directions of the next `count` steps. -/
def stepAngles (current : DataBase) : Nat → Nat → Option (List Rat)
  | 0, _ => some []
  | count + 1, i => do
      let next ← (p.globalPlan[i + 1]?).map p.planToGlobal
      let angles ← stepAngles next count (i + 1)
      some (m.atan2 (next.y - current.y) (next.x - current.x) :: angles)

/-- `EstimateLocalGoalOrientation`. -/
def estimateLocalGoalOrientation (localGoal : DataBase) (goalIdx : Nat) : Option Rat :=
  let movingAverageLength : Int := 3
  let n : Int := p.globalPlan.length
  if goalIdx > n - movingAverageLength - 2 then
    if goalIdx ≥ n - 1 then some localGoal.theta
    else p.globalPlan.getLast?.map fun back => (p.planToGlobal back).theta
  else do
    let current ← (p.globalPlan[goalIdx]?).map p.planToGlobal
    let candidates ←
      p.stepAngles m current (min movingAverageLength (n - goalIdx - 1)).toNat goalIdx
    some (averageAngles m.toMathLibrary candidates)

/-- The orientation of the local goal. -/
def localGoalTheta (back : DataBase) (goalIdx : Nat) : Option Rat :=
  if config.globalPlanOverwriteOrientation then p.estimateLocalGoalOrientation m back goalIdx
  else some back.theta

/-- `GetCost`. -/
def getCost (c : Cycle) (mx my : Nat) : Option UInt8 :=
  c.costmap.get? (c.geometry.getIndex mx my % 2 ^ 32)

/-- What `UpdateObstacleWithCostmap` adds for one cell. -/
def obstaclesAt (c : Cycle) (localGoal : DataBase) (i j : Nat) : Option (List (Rat × Rat)) := do
  let cost ← getCost c i j
  if cost = LETHAL_OBSTACLE then
    let obs := c.geometry.map2World i j
    let dirX := obs.1 - c.robotPose.x
    let dirY := obs.2 - c.robotPose.y
    if dirX * (localGoal.x - c.robotPose.x) + dirY * (localGoal.y - c.robotPose.y) < 0 ∧
        m.norm dirX dirY > config.costmapObstaclesBehindRobotDist then some []
    else some [obs]
  else some []

/-- `UpdateObstacleWithCostmap`. The last row and the last column are left out; their numbers are
computed with `unsigned int`s. -/
def updateObstacleWithCostmap (c : Cycle) (localGoal : DataBase) : Option (List (Rat × Rat)) := do
  let lastX := (c.geometry.sizeX + 2 ^ 32 - 1) % 2 ^ 32
  let lastY := (c.geometry.sizeY + 2 ^ 32 - 1) % 2 ^ 32
  let columns ← (List.range lastX).mapM fun i =>
    ((List.range lastY).mapM (obstaclesAt m config c localGoal i)).map List.flatten
  some columns.flatten

/-- The loop of `UpdateViaPointsContainer`: the positions far enough from the one before. -/
def viaPointsFrom (minSeparation : Rat) : DataBase → List DataBase → List (Rat × Rat)
  | _, [] => []
  | before, pose :: poses =>
      if m.norm (pose.x - before.x) (pose.y - before.y) < minSeparation then
        viaPointsFrom minSeparation before poses
      else (pose.x, pose.y) :: viaPointsFrom minSeparation pose poses

/-- `UpdateViaPointsContainer`. -/
def updateViaPointsContainer (transformedPlan : List DataBase) : List (Rat × Rat) :=
  let minSeparation := config.globalPlanViapointSep
  if minSeparation < 0 then []
  else
    match transformedPlan with
    | [] => []
    | front :: poses => viaPointsFrom m minSeparation front poses

/-- `SaturateVelocity`. -/
def saturateVelocity (v : Velocity) : Velocity where
  x :=
    let vx := if v.x > config.maxVelX then config.maxVelX else v.x
    if config.maxVelXBackwards ≤ 0 then vx
    else if vx < -config.maxVelXBackwards then -config.maxVelXBackwards else vx
  y :=
    if v.y > config.maxVelY then config.maxVelY
    else if v.y < -config.maxVelY then -config.maxVelY else v.y
  theta :=
    if v.theta > config.maxVelTheta then config.maxVelTheta
    else if v.theta < -config.maxVelTheta then -config.maxVelTheta else v.theta

/-- What a call of `ComputeVelocityCommands` leaves and returns. -/
structure Computed where
  planner : TebLocalPlanner
  cmdVel : TwistAccel
  result : ErrorInfo

/-- The plan that the band is to follow: from the robot to the local goal. -/
def withRobotPose (robotPose : DataBase) : List DataBase → List DataBase
  | [pose] => [robotPose, pose]
  | poses => poses.set 0 robotPose

/-- The optimisation and the command, behind the choice of the local goal. -/
def followPlan (c : Cycle) (microControl : Bool) : Option Computed := do
  let source : GraphSource := ⟨p.obstVector, c.near p.obstVector, p.preferRotdir⟩
  let (band, success) ← p.band.optimal m config source c.solver p.transformedPlan microControl
  let p := { p with band := band }
  if !success then some ⟨p, .zero, ⟨.LP_OPTIMAL_ERROR, "optimal error"⟩⟩
  else
    let feasible ← band.isTrajectoryFeasible m c.footprintCost c.inscribedRadius
      config.feasibilityCheckNoPoses
    if !feasible then
      some ⟨p, .zero, ⟨.LP_ALGORITHM_TRAJECTORY_ERROR, "trajectory is not feasible"⟩⟩
    else
      let (cmdVel, success) ← band.getVelocity m config .zero
      if !success then some ⟨p, cmdVel, ⟨.LP_VELOCITY_ERROR, "velocity is not feasible"⟩⟩
      else some ⟨p, { cmdVel with twist := saturateVelocity config cmdVel.twist }, .OK⟩

/-- `ComputeVelocityCommands` on the plan that it has read. -/
def computeOnPlan (c : Cycle) : Option Computed := do
  if ← p.isGoalReached m config c.robotPose then
    some ⟨p, .zero, ⟨.OK, "reached the goal"⟩⟩
  else
    match (p.pruneGlobalPlan m c.robotPlan).transformGlobalPlan m config c with
    | (p, none) => some ⟨p, .zero, ⟨.LP_PLANTRANSFORM_ERROR, "plan transform error"⟩⟩
    | (p, some goalIdx) =>
        match p.transformedPlan.getLast? with
        | none => some ⟨p, .zero, ⟨.LP_PLANTRANSFORM_ERROR, "transformed plan is empty"⟩⟩
        | some back =>
            let theta ← p.localGoalTheta m config back goalIdx
            let robotGoal := { back with theta := theta }
            let transformedPlan :=
              withRobotPose c.robotPose (p.transformedPlan.dropLast ++ [robotGoal])
            let obstVector ← updateObstacleWithCostmap m config c robotGoal
            let p := { p with
              transformedPlan := transformedPlan
              obstVector := obstVector
              viaPoints := updateViaPointsContainer m config transformedPlan }
            let goalPlan ← p.globalPlan.getLast?
            p.followPlan m config c (goalPlan.z = 1)

/-- `ComputeVelocityCommands`. -/
def computeVelocityCommands (c : Cycle) : Option Computed :=
  ((p.getPlan c.locked).updateGlobalToPlanTranform c.lookup).computeOnPlan m config c

/-! ## Runs -/

/-- The calls of a planner. -/
inductive PlannerCall where
  | setPlan (locked : Bool) (plan : List PlanPose) (goal : PlanPose)
  | computeVelocityCommands (c : Cycle)

/-- One call. -/
def call (p : TebLocalPlanner) : PlannerCall → Option TebLocalPlanner
  | .setPlan locked plan goal => some (p.setPlan locked plan goal)
  | .computeVelocityCommands c => (p.computeVelocityCommands m config c).map Computed.planner

end TebLocalPlanner

end RoboRTS.Planning
