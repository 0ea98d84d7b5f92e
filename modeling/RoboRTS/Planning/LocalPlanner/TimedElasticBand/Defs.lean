import Mathlib.Data.Rat.Floor

/-!
# The elastic band

`TebVertexConsole`: the poses of a band and the times between them, in two vectors that are edited
separately. An operation at an index that is not there, and a loop that does not end, give `none`.
Coordinates, angles and times are rational numbers, and what the code takes from the mathematical
libraries is a parameter. The distance from the start to the goal is short enough for its number of
steps to be an `unsigned int`. The orientations that `InitTEBtoGoal` estimates are also written into
the plan, which is not modelled, and `guess_backwards_motion` has no effect.
-/

namespace RoboRTS.Planning

/-- `DataBase`. -/
structure DataBase where
  x : Rat
  y : Rat
  theta : Rat
  deriving Repr, DecidableEq

/-- The functions of the libraries: those of `cmath`, the length of a vector and `average_angle`. -/
structure MathLibrary where
  cos : Rat → Rat
  sin : Rat → Rat
  atan2 : Rat → Rat → Rat
  norm : Rat → Rat → Rat
  averageAngle : Rat → Rat → Rat

/-- `TebVertexPose`. -/
structure TebVertexPose where
  pose : DataBase
  fixed : Bool
  deriving Repr, DecidableEq

structure TebVertexConsole where
  poseVec : List TebVertexPose
  timediffVec : List Rat
  deriving Repr, DecidableEq

/-- The conversion of an `unsigned int` to `float`: 24 bits, to the nearest, ties to even. -/
def floatOfUInt (n : Nat) : Rat :=
  if n < 2 ^ 24 then n
  else
    let unit := 2 ^ (Nat.log2 n - 23)
    let q := n / unit
    let r := n % unit
    ((if 2 * r > unit ∨ 2 * r = unit ∧ q % 2 = 1 then q + 1 else q) * unit : Nat)

namespace TebVertexConsole

variable (m : MathLibrary) (b : TebVertexConsole)

/-! ## The vectors -/

def empty : TebVertexConsole :=
  ⟨[], []⟩

def sizePoses : Nat :=
  b.poseVec.length

def sizeTimeDiffs : Nat :=
  b.timediffVec.length

/-- `IsInit`. -/
def isInit : Bool :=
  !b.timediffVec.isEmpty && !b.poseVec.isEmpty

/-- `Pose(index)`. -/
def pose (index : Nat) : Option DataBase :=
  b.poseVec[index]?.map TebVertexPose.pose

/-- `BackPose`. -/
def backPose : Option DataBase :=
  b.poseVec.getLast?.map TebVertexPose.pose

/-- `TimeDiff(index)`. -/
def timeDiff (index : Nat) : Option Rat :=
  b.timediffVec[index]?

/-- `Pose(index) = pose`. -/
def setPose (index : Nat) (pose : DataBase) : Option TebVertexConsole :=
  b.poseVec[index]?.map fun v => { b with poseVec := b.poseVec.set index { v with pose := pose } }

/-- `TimeDiff(index) = dt`. -/
def setTimeDiff (index : Nat) (dt : Rat) : Option TebVertexConsole :=
  if index < b.sizeTimeDiffs then some { b with timediffVec := b.timediffVec.set index dt } else none

/-- `SetPoseVertexFixed`. -/
def setPoseVertexFixed (index : Nat) (status : Bool) : Option TebVertexConsole :=
  b.poseVec[index]?.map fun v =>
    { b with poseVec := b.poseVec.set index { v with fixed := status } }

/-- `AddPose`. -/
def addPose (pose : DataBase) (fixed : Bool) : TebVertexConsole :=
  { b with poseVec := b.poseVec ++ [⟨pose, fixed⟩] }

/-- `AddTimeDiff`. -/
def addTimeDiff (dt : Rat) : TebVertexConsole :=
  { b with timediffVec := b.timediffVec ++ [dt] }

/-- `AddPoseAndTimeDiff`. -/
def addPoseAndTimeDiff (pose : DataBase) (dt : Rat) : TebVertexConsole :=
  if b.sizePoses ≠ b.sizeTimeDiffs then (b.addPose pose false).addTimeDiff dt else b

/-- `DeletePose` of one pose. -/
def deletePose (index : Nat) : Option TebVertexConsole :=
  if index < b.sizePoses then some { b with poseVec := b.poseVec.eraseIdx index } else none

/-- `DeletePose` of a number of poses. -/
def deletePoses (index number : Nat) : Option TebVertexConsole :=
  if index + number ≤ b.sizePoses then
    some { b with poseVec := b.poseVec.take index ++ b.poseVec.drop (index + number) }
  else none

/-- `DeleteTimeDiff` of one time. -/
def deleteTimeDiff (index : Nat) : Option TebVertexConsole :=
  if index < b.sizeTimeDiffs then some { b with timediffVec := b.timediffVec.eraseIdx index }
  else none

/-- `DeleteTimeDiff` of a number of times. -/
def deleteTimeDiffs (index number : Nat) : Option TebVertexConsole :=
  if index + number ≤ b.sizeTimeDiffs then
    some { b with timediffVec := b.timediffVec.take index ++ b.timediffVec.drop (index + number) }
  else none

/-- `InsertPose`. -/
def insertPose (index : Nat) (pose : DataBase) : Option TebVertexConsole :=
  if index ≤ b.sizePoses then
    some { b with poseVec := b.poseVec.insertIdx index ⟨pose, false⟩ }
  else none

/-- `InsertTimeDiff`. -/
def insertTimeDiff (index : Nat) (dt : Rat) : Option TebVertexConsole :=
  if index ≤ b.sizeTimeDiffs then some { b with timediffVec := b.timediffVec.insertIdx index dt }
  else none

/-- `ClearAllVertex`. -/
def clearAllVertex : TebVertexConsole :=
  empty

/-- `AverageInPlace`. -/
def averageInPlace (pose1 pose2 : DataBase) : DataBase :=
  ⟨(pose1.x + pose2.x) / 2, (pose1.y + pose2.y) / 2, m.averageAngle pose1.theta pose2.theta⟩

/-- The loop of `FindClosestTrajectoryPose` from number `i` on. -/
def closestFrom (refPoint : Rat × Rat) : List TebVertexPose → Nat → Rat → Nat → Nat
  | [], _, _, indexMin => indexMin
  | v :: vs, i, lastValue, indexMin =>
      let dist := m.norm (refPoint.1 - v.pose.x) (refPoint.2 - v.pose.y)
      if dist < lastValue then closestFrom refPoint vs (i + 1) dist i
      else closestFrom refPoint vs (i + 1) lastValue indexMin

/-- `FindClosestTrajectoryPose` of a point. -/
def findClosestTrajectoryPose (refPoint : Rat × Rat) : Int :=
  match b.poseVec with
  | [] => -1
  | v :: vs => closestFrom m refPoint vs 1 (m.norm (refPoint.1 - v.pose.x) (refPoint.2 - v.pose.y)) 0

/-! ## `AutoResize` -/

section AutoResize

variable (dtRef dtHysteresis : Rat) (minSamples maxSamples : Int)

/-- Time number `i` is halved, with a pose in the middle. -/
def halveAt (i : Nat) (dt : Rat) : Option TebVertexConsole := do
  let newtime := 1 / 2 * dt
  let b ← b.setTimeDiff i newtime
  let pose1 ← b.pose i
  let pose2 ← b.pose (i + 1)
  let b ← b.insertPose (i + 1) (averageInPlace m pose1 pose2)
  b.insertTimeDiff (i + 1) newtime

/-- Time number `i` is merged into the next, and the pose between them deleted. -/
def mergeAt (i : Nat) (dt : Rat) : Option TebVertexConsole := do
  let next ← b.timeDiff (i + 1)
  let b ← b.setTimeDiff (i + 1) (next + dt)
  let b ← b.deleteTimeDiff i
  b.deletePose (i + 1)

/-- The body of the inner loop of `AutoResize`: the band, and whether `modified` is set. -/
def resizeAt (i : Nat) : Option (TebVertexConsole × Bool) := do
  let dt ← b.timeDiff i
  if dt > dtRef + dtHysteresis ∧ b.sizeTimeDiffs < maxSamples then
    (b.halveAt m i dt).map fun b => (b, true)
  else if dt < dtRef - dtHysteresis ∧ b.sizePoses > minSamples then
    if (i : Int) < b.sizeTimeDiffs - 1 then (b.mergeAt i dt).map fun b => (b, true)
    else some (b, true)
  else some (b, false)

/-- The inner loop of `AutoResize` from number `i` on. -/
def resizePass : Nat → Nat → TebVertexConsole × Bool → Option (TebVertexConsole × Bool)
  | 0, _, _ => none
  | fuel + 1, i, (b, modified) =>
      if i < b.sizeTimeDiffs then do
        let (b, now) ← b.resizeAt m dtRef dtHysteresis minSamples maxSamples i
        resizePass fuel (i + 1) (b, modified || now)
      else some (b, modified)

/-- More rounds than the inner loop can take: one for each time, and for each that may be added. -/
def resizeBound : Nat :=
  b.sizeTimeDiffs + (maxSamples - b.sizeTimeDiffs).toNat + 1

/-- The next `rep` passes of `AutoResize`. -/
def resizePasses : Nat → TebVertexConsole → Option TebVertexConsole
  | 0, b => some b
  | rep + 1, b => do
      let (b, modified) ← resizePass m dtRef dtHysteresis minSamples maxSamples
        (b.resizeBound maxSamples) 0 (b, false)
      if modified then resizePasses rep b else some b

/-- `AutoResize`. -/
def autoResize : Option TebVertexConsole :=
  resizePasses m dtRef dtHysteresis minSamples maxSamples 100 b

end AutoResize

/-! ## `InitTEBtoGoal` -/

/-- `while (SizePoses() < min_samples - 1)`, which adds poses halfway to the goal. The time of a new
pose may depend on it and on the time before. -/
def fillPoses (goal : DataBase) (minSamples : Int) (nextTime : DataBase → Rat → Rat) :
    Nat → Rat × TebVertexConsole → Option (Rat × TebVertexConsole)
  | 0, _ => none
  | fuel + 1, (timestep, b) =>
      if b.sizePoses < minSamples - 1 then do
        let back ← b.backPose
        let tempPose := averageInPlace m back goal
        let timestep := nextTime tempPose timestep
        fillPoses goal minSamples nextTime fuel (timestep, b.addPoseAndTimeDiff tempPose timestep)
      else some (timestep, b)

/-- `SetPoseVertexFixed(SizePoses() - 1, true)`. -/
def fixBack : Option TebVertexConsole :=
  b.setPoseVertexFixed (b.sizePoses - 1) true

/-- The straight line of `InitTEBtoGoal`: the poses on it and the time between them. -/
def addLine (start goal : DataBase) (diststep maxVelX timestep : Rat) : Rat × TebVertexConsole :=
  if diststep ≠ 0 then
    let dirToGoal := m.atan2 (goal.y - start.y) (goal.x - start.x)
    let dx := diststep * m.cos dirToGoal
    let dy := diststep * m.sin dirToGoal
    let noStepsD := m.norm (goal.x - start.x) (goal.y - start.y) / |diststep|
    let noSteps := ⌊noStepsD⌋.toNat
    let timestep := if maxVelX > 0 then diststep / maxVelX else timestep
    -- the `break` is in the last round
    (timestep, (List.range' 1 noSteps).foldl (fun b i =>
      if i = noSteps ∧ noStepsD = floatOfUInt noSteps then b
      else b.addPoseAndTimeDiff ⟨start.x + i * dx, start.y + i * dy, dirToGoal⟩ timestep) b)
  else (timestep, b)

/-- `InitTEBtoGoal` from a start to a goal. -/
def initTEBtoGoal (start goal : DataBase) (diststep maxVelX : Rat) (minSamples : Int) :
    Option (TebVertexConsole × Bool) :=
  if b.isInit then some (b, false)
  else do
    let b ← (b.addPose start false).setPoseVertexFixed 0 true
    let nextTime (tempPose : DataBase) (timestep : Rat) : Rat :=
      if maxVelX > 0 then m.norm (tempPose.x - goal.x) (tempPose.y - goal.y) / maxVelX else timestep
    let (timestep, b) ← fillPoses m goal minSamples nextTime (minSamples.toNat + 1)
      (b.addLine m start goal diststep maxVelX (1 / 10))
    let back ← b.backPose
    let timestep :=
      if maxVelX > 0 then m.norm (goal.x - back.x) (goal.y - back.y) / maxVelX else timestep
    let b ← (b.addPoseAndTimeDiff goal timestep).fixBack
    some (b, true)

/-- `InitTEBtoGoal` along a plan. -/
def initTEBtoGoalPlan (plan : List DataBase) (dt : Rat) (estimateOrient : Bool) (minSamples : Int)
    (microControl : Bool) : Option (TebVertexConsole × Bool) :=
  if b.isInit then some (b, false)
  else do
    let start ← plan.head?
    let goal ← plan.getLast?
    let b ← (b.addPose start false).setPoseVertexFixed 0 true
    let b := ((plan.drop 1).zip (plan.drop 2)).foldl (fun b (cur, next) =>
      let theta :=
        if estimateOrient && !microControl then m.atan2 (next.y - cur.y) (next.x - cur.x)
        else cur.theta
      b.addPoseAndTimeDiff { cur with theta := theta } dt) b
    let (_, b) ← fillPoses m goal minSamples (fun _ timestep => timestep) (minSamples.toNat + 1)
      (dt, b)
    let b ← (b.addPoseAndTimeDiff goal dt).fixBack
    some (b, true)

/-! ## `UpdateAndPruneTEB` -/

/-- The search for the nearest pose from number `i` on, over at most as many poses as given. -/
def nearestIdx (newStart : DataBase) : Nat → Nat → Rat → Nat → Option Nat
  | 0, _, _, nearest => some nearest
  | n + 1, i, distCache, nearest => do
      let pose ← b.pose i
      let dist := m.norm (newStart.x - pose.x) (newStart.y - pose.y)
      if dist < distCache then nearestIdx newStart n (i + 1) dist i else some nearest

/-- `UpdateAndPruneTEB` with a new start. -/
def pruneStart (newStart : DataBase) (minSamples : Int) : Option TebVertexConsole := do
  let first ← b.pose 0
  let distCache := m.norm (newStart.x - first.x) (newStart.y - first.y)
  let lookahead := min ((b.sizePoses : Int) - minSamples) 10
  let nearest ← b.nearestIdx m newStart lookahead.toNat 1 distCache 0
  let b ← if nearest > 0 then do
      let b ← b.deletePoses 1 nearest
      b.deleteTimeDiffs 1 nearest
    else some b
  b.setPose 0 newStart

/-- `UpdateAndPruneTEB`. -/
def updateAndPruneTEB (newStart newGoal : Option DataBase) (minSamples : Int) :
    Option TebVertexConsole := do
  let b ← match newStart with
    | some newStart => if b.sizePoses > 0 then b.pruneStart m newStart minSamples else some b
    | none => some b
  match newGoal with
  | some newGoal => if b.sizePoses > 0 then b.setPose (b.sizePoses - 1) newGoal else some b
  | none => some b

/-! ## Calls -/

/-- A call of one of the operations. -/
inductive Call where
  | initTEBtoGoal (start goal : DataBase) (diststep maxVelX : Rat) (minSamples : Int)
  | initTEBtoGoalPlan (plan : List DataBase) (dt : Rat) (estimateOrient : Bool) (minSamples : Int)
      (microControl : Bool)
  | autoResize (dtRef dtHysteresis : Rat) (minSamples maxSamples : Int)
  | updateAndPruneTEB (newStart newGoal : Option DataBase) (minSamples : Int)
  | clearAllVertex

/-- The band after a call. -/
def step (b : TebVertexConsole) : Call → Option TebVertexConsole
  | .initTEBtoGoal start goal diststep maxVelX minSamples =>
      (b.initTEBtoGoal m start goal diststep maxVelX minSamples).map Prod.fst
  | .initTEBtoGoalPlan plan dt estimateOrient minSamples microControl =>
      (b.initTEBtoGoalPlan m plan dt estimateOrient minSamples microControl).map Prod.fst
  | .autoResize dtRef dtHysteresis minSamples maxSamples =>
      b.autoResize m dtRef dtHysteresis minSamples maxSamples
  | .updateAndPruneTEB newStart newGoal minSamples =>
      b.updateAndPruneTEB m newStart newGoal minSamples
  | .clearAllVertex => some clearAllVertex

end TebVertexConsole

end RoboRTS.Planning
