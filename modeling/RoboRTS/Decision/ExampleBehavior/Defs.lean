import RoboRTS.Decision.ChaseBehavior

/-!
# Example behaviours

What the behaviours share: the points that they read from the configuration, and the calls of the
chassis executor that a `Run` makes.
-/

namespace RoboRTS.Decision

/-- `Point` of the configuration. -/
structure Point where
  x : Rat
  y : Rat
  z : Rat
  roll : Rat
  pitch : Rat
  yaw : Rat
  deriving DecidableEq, Repr

/-- The functions of the transform library. -/
structure Tf2 where
  quaternionFromRollPitchYaw : Rat → Rat → Rat → Rat × Rat × Rat × Rat
  angleShortestPath : Rat × Rat × Rat × Rat → Rat × Rat × Rat × Rat → Rat

/-- `QuaternionFromYaw`. -/
def Tf2.quaternionFromYaw (tf : Tf2) (yaw : Rat) : Rat × Rat × Rat × Rat :=
  tf.quaternionFromRollPitchYaw 0 0 yaw

/-- The pose that `LoadParam` makes of a point. -/
def Point.toPose (tf : Tf2) (p : Point) : PoseStamped :=
  { frameId := "map"
    stamp := 0
    position := (p.x, p.y, p.z)
    orientation := tf.quaternionFromRollPitchYaw p.roll p.pitch p.yaw }

/-- The pose that the constructors start with. -/
def originPose : PoseStamped :=
  { frameId := "map", stamp := 0, position := (0, 0, 0), orientation := (0, 0, 0, 1) }

/-- `geometry_msgs::msg::Twist` and `geometry_msgs::msg::Accel`. -/
structure LinearAngular where
  linear : Rat × Rat × Rat
  angular : Rat × Rat × Rat
  deriving DecidableEq, Repr

/-- `roborts_msgs::msg::TwistAccel`. -/
structure TwistAccel where
  twist : LinearAngular
  accel : LinearAngular
  deriving DecidableEq, Repr

/-- `EscapeConstraint`. -/
structure EscapeConstraint where
  leftXLimit : Rat
  rightXLimit : Rat
  robotXLimit : Rat
  leftRandomMinX : Rat
  leftRandomMaxX : Rat
  rightRandomMinX : Rat
  rightRandomMaxX : Rat

/-- The fields of `DecisionConfig` that the behaviours read. -/
structure DecisionConfig where
  point : List Point
  escape : EscapeConstraint
  whirlVel : Rat × Rat × Rat
  masterBotStartPosition : Point
  searchRegion1 : List Point
  searchRegion2 : List Point
  searchRegion3 : List Point
  searchRegion4 : List Point

/-- A call of the chassis executor. -/
inductive ChassisCall where
  | executeGoal (goal : PoseStamped)
  | executeTwistAccel (twistAccel : TwistAccel)
  | cancel
  deriving DecidableEq, Repr

/-- The goals among the calls. -/
def goalsOf (calls : List ChassisCall) : List PoseStamped :=
  calls.filterMap fun
    | .executeGoal goal => some goal
    | .executeTwistAccel _ => none
    | .cancel => none

end RoboRTS.Decision
