import RoboRTS.Planning.LocalPlanner.TimedElasticBand.Shape

/-!
# Optimising a band

`TebOptimal`: the band is started or pruned, resized, and handed to the solver as a graph, several
times; what comes out is checked against the costmap and gives the command. The solver is a
parameter. The graph holds the vertices that an edge is attached to; an edge at a vertex that is not
there, like a pose or a time that is not there, gives `none`. Obstacles are points that stay where
they are; how many of them a pose is associated with without the legacy switch is a parameter.
-/

namespace RoboRTS.Planning

/-- The parameters that `TebOptimal` and `TebLocalPlanner` read. -/
structure TebConfig where
  tebAutosize : Bool
  dtRef : Rat
  dtHysteresis : Rat
  globalPlanOverwriteOrientation : Bool
  globalPlanViapointSep : Rat
  maxGlobalPlanLookaheadDist : Rat
  forceReinitNewGoalDist : Rat
  feasibilityCheckNoPoses : Int
  minSamples : Int
  maxSamples : Int
  maxVelX : Rat
  maxVelXBackwards : Rat
  maxVelY : Rat
  maxVelTheta : Rat
  accLimY : Rat
  minTurningRadius : Rat
  xyGoalTolerance : Rat
  yawGoalTolerance : Rat
  freeGoalVel : Bool
  costmapObstaclesBehindRobotDist : Rat
  noInnerIterations : Int
  noOuterIterations : Int
  optimizationActivate : Bool
  weightMaxVelX : Rat
  weightMaxVelY : Rat
  weightMaxVelTheta : Rat
  weightAccLimX : Rat
  weightAccLimTheta : Rat
  weightKinematicsNh : Rat
  weightKinematicsForwardDrive : Rat
  weightKinematicsTurningRadius : Rat
  weightOptimaltime : Rat
  weightObstacle : Rat
  weightAdaptFactor : Rat
  weightPreferRotdir : Rat
  legacyObstacleAssociation : Bool
  obstaclePosesAffected : Rat

/-- The functions of `MathLibrary` and the normalisation of angles. -/
structure TebLibrary extends MathLibrary where
  normalizeTheta : Rat → Rat

/-! ## The graph -/

inductive EdgeKind where
  | obstacle
  | velocity
  | velocityHolonomic
  | accelerationStart
  | acceleration
  | accelerationGoal
  | accelerationHolonomicStart
  | accelerationHolonomic
  | accelerationHolonomicGoal
  | timeOptimal
  | kinematicsDiffDrive
  | kinematicsCarlike
  | preferLeft
  | preferRight
  deriving DecidableEq, Repr

/-- An edge with the numbers of its pose and time vertices. -/
structure Edge where
  kind : EdgeKind
  poses : List Int
  times : List Int
  deriving DecidableEq, Repr

/-- `RotType`. -/
inductive RotType where
  | LEFT
  | NONE
  | RIGHT
  deriving DecidableEq, Repr

/-- What the graph is built from besides the band: the obstacles, the number of them that a pose is
associated with, and `prefer_rotdir_`. The constructor that is used leaves `prefer_rotdir_` without
a value, and nothing sets it. -/
structure GraphSource where
  obstacles : List (Rat × Rat)
  near : DataBase → Nat
  preferRotdir : RotType

namespace TebVertexConsole

variable (m : MathLibrary) (config : TebConfig) (source : GraphSource) (b : TebVertexConsole)

/-- The vertices of the edge are there. -/
def Attaches (e : Edge) : Prop :=
  (∀ i ∈ e.poses, 0 ≤ i ∧ i < b.sizePoses) ∧ ∀ i ∈ e.times, 0 ≤ i ∧ i < b.sizeTimeDiffs

instance (e : Edge) : Decidable (b.Attaches e) :=
  inferInstanceAs (Decidable (_ ∧ _))

/-- The rounds of a loop from `start` on, below `stop`. -/
def rounds (start stop : Int) : List Int :=
  (List.range (stop - start).toNat).map fun (i : Nat) => start + i

/-- `AddObstacleEdges`. -/
def addObstacleEdges (weightMultiplier : Rat) : Option (List Edge) :=
  if config.weightObstacle = 0 ∨ weightMultiplier = 0 then some []
  else
    ((rounds 1 (b.sizePoses - 1)).mapM fun i =>
      (b.pose i.toNat).map fun pose => List.replicate (source.near pose) ⟨.obstacle, [i], []⟩).map
        List.flatten

/-- The pose that `AddObstacleLegacyEdges` takes for an obstacle. -/
def legacyIndex (obst : Rat × Rat) : Int :=
  if config.obstaclePosesAffected ≥ floatOfUInt b.sizePoses then b.sizePoses / 2
  else b.findClosestTrajectoryPose m obst

/-- The poses that `AddObstacleLegacyEdges` attaches an obstacle to: number `index` and its
neighbours on both sides. -/
def affectedPoses (index : Int) : List Int :=
  index :: (rounds 0 ⌊config.obstaclePosesAffected / 2⌋).flatMap fun neighbourIdx =>
    (if index + neighbourIdx < b.sizePoses then [index + neighbourIdx] else []) ++
      if index - neighbourIdx ≥ 0 then [index - neighbourIdx] else []

/-- `AddObstacleLegacyEdges`. -/
def addObstacleLegacyEdges (weightMultiplier : Rat) : List Edge :=
  if config.weightObstacle = 0 ∨ weightMultiplier = 0 then []
  else
    source.obstacles.flatMap fun obst =>
      let index := b.legacyIndex m config obst
      if index ≤ 1 ∨ index > b.sizePoses - 2 then []
      else (b.affectedPoses config index).map fun i => ⟨.obstacle, [i], []⟩

/-- `AddVelocityEdges`. -/
def addVelocityEdges : List Edge :=
  let kind := if config.maxVelY = 0 then EdgeKind.velocity else .velocityHolonomic
  if config.weightMaxVelX = 0 ∧ config.weightMaxVelTheta = 0 ∧
      (config.maxVelY = 0 ∨ config.weightMaxVelY = 0) then []
  else (rounds 0 (b.sizePoses - 1)).map fun i => ⟨kind, [i, i + 1], [i]⟩

/-- `AddAccelerationEdges`. The start velocity is always set; the end velocity is free or set. -/
def addAccelerationEdges : List Edge :=
  if config.weightAccLimX = 0 ∧ config.weightAccLimTheta = 0 then []
  else
    let n : Int := b.sizePoses
    let planar := config.maxVelY = 0 ∨ config.accLimY = 0
    let start := if planar then EdgeKind.accelerationStart else .accelerationHolonomicStart
    let middle := if planar then EdgeKind.acceleration else .accelerationHolonomic
    let goal := if planar then EdgeKind.accelerationGoal else .accelerationHolonomicGoal
    [⟨start, [0, 1], [0]⟩] ++
      (rounds 0 (n - 2)).map (fun i => ⟨middle, [i, i + 1, i + 2], [i, i + 1]⟩) ++
      if config.freeGoalVel then [] else [⟨goal, [n - 2, n - 1], [b.sizeTimeDiffs - 1]⟩]

/-- `AddTimeOptimalEdges`. -/
def addTimeOptimalEdges : List Edge :=
  if config.weightOptimaltime = 0 then []
  else (rounds 0 b.sizeTimeDiffs).map fun i => ⟨.timeOptimal, [], [i]⟩

/-- `AddKinematicsDiffDriveEdges`. -/
def addKinematicsDiffDriveEdges : List Edge :=
  if config.weightKinematicsNh = 0 ∧ config.weightKinematicsForwardDrive = 0 then []
  else (rounds 0 (b.sizePoses - 1)).map fun i => ⟨.kinematicsDiffDrive, [i, i + 1], []⟩

/-- `AddKinematicsCarlikeEdges`. -/
def addKinematicsCarlikeEdges : List Edge :=
  if config.weightKinematicsNh = 0 ∧ config.weightKinematicsTurningRadius ≠ 0 then []
  else (rounds 0 (b.sizePoses - 1)).map fun i => ⟨.kinematicsCarlike, [i, i + 1], []⟩

/-- `AddPreferRotDirEdges`. -/
def addPreferRotDirEdges : List Edge :=
  let kind := if source.preferRotdir = .LEFT then EdgeKind.preferLeft else .preferRight
  if source.preferRotdir = .NONE ∨ config.weightPreferRotdir = 0 then []
  else (rounds 0 (min (b.sizePoses - 1) 3)).map fun i => ⟨kind, [i, i + 1], []⟩

/-- The edges to obstacles of `BuildGraph`. -/
def obstacleEdges (weightMultiplier : Rat) : Option (List Edge) :=
  if config.legacyObstacleAssociation then
    some (b.addObstacleLegacyEdges m config source weightMultiplier)
  else b.addObstacleEdges config source weightMultiplier

/-- `BuildGraph` on an empty graph. -/
def buildGraph (weightMultiplier : Rat) : Option (List Edge) := do
  let obstacleEdges ← b.obstacleEdges m config source weightMultiplier
  let kinematicsEdges :=
    if config.minTurningRadius = 0 ∨ config.weightKinematicsTurningRadius = 0 then
      b.addKinematicsDiffDriveEdges config
    else b.addKinematicsCarlikeEdges config
  let edges := obstacleEdges ++ b.addVelocityEdges config ++ b.addAccelerationEdges config ++
    b.addTimeOptimalEdges config ++ kinematicsEdges ++ b.addPreferRotDirEdges config source
  if ∀ e ∈ edges, b.Attaches e then some edges else none

end TebVertexConsole

/-! ## The optimisation -/

/-- The optimizer: given the edges and a number of iterations it changes the band and says how many
iterations it made. -/
abbrev Solver :=
  List Edge → Int → TebVertexConsole → TebVertexConsole × Nat

namespace TebVertexConsole

variable (m : TebLibrary) (config : TebConfig) (source : GraphSource) (solver : Solver)
variable (b : TebVertexConsole)

/-- `OptimizeGraph`. -/
def optimizeGraph (edges : List Edge) : TebVertexConsole × Bool :=
  if config.maxVelX < 1 / 100 then (b, false)
  else if !b.isInit ∨ b.sizePoses < config.minSamples then (b, false)
  else
    let (b, iter) := solver edges config.noInnerIterations b
    (b, iter ≠ 0)

/-- The resizing at the start of a round of `OptimizeTeb`. -/
def autosize : Option TebVertexConsole :=
  if config.tebAutosize then
    b.autoResize m.toMathLibrary config.dtRef config.dtHysteresis config.minSamples
      config.maxSamples
  else some b

/-- The next `k` rounds of `OptimizeTeb`. -/
def optimizeRounds : Nat → Rat → TebVertexConsole → Option (TebVertexConsole × Bool)
  | 0, _, b => some (b, true)
  | k + 1, weightMultiplier, b => do
      let b ← b.autosize m config
      let edges ← b.buildGraph m.toMathLibrary config source weightMultiplier
      let (b, success) := b.optimizeGraph config solver edges
      if success then optimizeRounds k (weightMultiplier * config.weightAdaptFactor) b
      else some (b, false)

/-- `OptimizeTeb`. -/
def optimizeTeb : Option (TebVertexConsole × Bool) :=
  if config.optimizationActivate then
    optimizeRounds m config source solver config.noOuterIterations.toNat 1 b
  else some (b, false)

/-- The band that `Optimal` hands to the optimisation: started along the plan, or pruned. -/
def prepareBand (initialPlan : List DataBase) (microControl : Bool) : Option TebVertexConsole := do
  let init (b : TebVertexConsole) :=
    (b.initTEBtoGoalPlan m.toMathLibrary initialPlan config.dtRef
      config.globalPlanOverwriteOrientation config.minSamples microControl).map Prod.fst
  if !b.isInit then init b
  else
    let start ← initialPlan.head?
    let goal ← initialPlan.getLast?
    let back ← b.backPose
    if b.sizePoses > 0 ∧
        m.norm (goal.x - back.x) (goal.y - back.y) < config.forceReinitNewGoalDist then
      b.updateAndPruneTEB m.toMathLibrary (some start) (some goal) config.minSamples
    else init clearAllVertex

/-- `Optimal` along a plan. -/
def optimal (initialPlan : List DataBase) (microControl : Bool) :
    Option (TebVertexConsole × Bool) := do
  let b ← b.prepareBand m config initialPlan microControl
  b.optimizeTeb m config source solver

/-! ## What the band is used for -/

/-- Round `i` of `IsTrajectoryFeasible`; `cost` is `FootprintCost` with the robot's footprint. -/
def feasibleAt (cost : DataBase → Rat) (inscribedRadius : Rat) (last i : Nat) : Option Bool := do
  let pose ← b.pose i
  if cost pose < 0 then some false
  else if i < last then
    let next ← b.pose (i + 1)
    if m.norm (next.x - pose.x) (next.y - pose.y) > inscribedRadius then
      some (decide (0 ≤ cost (averageInPlace m.toMathLibrary pose next)))
    else some true
  else some true

/-- The rounds of `IsTrajectoryFeasible` from number `i` on. -/
def feasibleFrom (cost : DataBase → Rat) (inscribedRadius : Rat) (last : Nat) :
    Nat → Nat → Option Bool
  | 0, _ => some true
  | count + 1, i => do
      if ← b.feasibleAt m cost inscribedRadius last i then
        feasibleFrom cost inscribedRadius last count (i + 1)
      else some false

/-- The last pose that `IsTrajectoryFeasible` looks at. -/
def lookAheadIdx (lookAhead : Int) : Int :=
  if lookAhead < 0 ∨ lookAhead ≥ b.sizePoses then b.sizePoses - 1 else lookAhead

/-- `IsTrajectoryFeasible`. -/
def isTrajectoryFeasible (cost : DataBase → Rat) (inscribedRadius : Rat) (lookAhead : Int) :
    Option Bool :=
  let last := b.lookAheadIdx lookAhead
  b.feasibleFrom m cost inscribedRadius last.toNat (last + 1).toNat 0

end TebVertexConsole

/-- A velocity of the robot. -/
structure Velocity where
  x : Rat
  y : Rat
  theta : Rat
  deriving Repr, DecidableEq

/-- `TwistAccel`. -/
structure TwistAccel where
  twist : Velocity
  accel : Velocity
  deriving Repr, DecidableEq

def Velocity.zero : Velocity :=
  ⟨0, 0, 0⟩

def TwistAccel.zero : TwistAccel :=
  ⟨.zero, .zero⟩

/-- `g2o::sign`. -/
def signOf (x : Rat) : Rat :=
  if x > 0 then 1 else if x < 0 then -1 else 0

namespace TebVertexConsole

variable (m : TebLibrary) (config : TebConfig) (b : TebVertexConsole)

/-- `ExtractVelocity`. -/
def extractVelocity (pose1 pose2 : DataBase) (dt : Rat) : Velocity :=
  if dt = 0 then .zero
  else
    let dx := pose2.x - pose1.x
    let dy := pose2.y - pose1.y
    let omega := m.normalizeTheta (pose2.theta - pose1.theta) / dt
    if config.maxVelY = 0 then
      let dir := dx * m.cos pose1.theta + dy * m.sin pose1.theta
      ⟨signOf dir * m.norm dx dy / dt, 0, omega⟩
    else
      ⟨(m.cos pose1.theta * dx + m.sin pose1.theta * dy) / dt,
        (-m.sin pose1.theta * dx + m.cos pose1.theta * dy) / dt, omega⟩

/-- `GetVelocity`. -/
def getVelocity (cmd : TwistAccel) : Option (TwistAccel × Bool) :=
  if b.sizePoses < 2 then some ({ cmd with twist := .zero }, false)
  else do
    let dt ← b.timeDiff 0
    if dt ≤ 0 then some ({ cmd with twist := .zero }, false)
    else
      let pose0 ← b.pose 0
      let pose1 ← b.pose 1
      let v := extractVelocity m config pose0 pose1 dt
      let dt2 ← b.timeDiff 1
      let pose2 ← b.pose 2
      let v2 := extractVelocity m config pose1 pose2 dt2
      some (⟨v, ⟨(v2.x - v.x) / dt, (v2.y - v.y) / dt, (v2.theta - v.theta) / dt⟩⟩, true)

end TebVertexConsole

end RoboRTS.Planning
