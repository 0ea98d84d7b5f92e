import Mathlib.Tactic.Common

/-!
# Node states and error codes

What the planner nodes report to the decision node.
-/

namespace RoboRTS.Common

inductive NodeState where
  | IDLE
  | RUNNING
  | PAUSE
  | SUCCESS
  | FAILURE
  deriving DecidableEq, Repr

inductive ErrorCode where
  | OK
  | Error
  | CAMERA_ERROR
  | IMAGE_READ_ERROR
  | STOP_DETECTION
  | LIDAR_ERROR
  | MAPPING_ERROR
  | MAP_ERROR
  | LOCALIZATION_INIT_ERROR
  | DETECTION_INIT_ERROR
  | DECISION_ERROR
  | GP_INITILIZATION_ERROR
  | GP_GET_POSE_ERROR
  | GP_POSE_TRANSFORM_ERROR
  | GP_GOAL_INVALID_ERROR
  | GP_PATH_SEARCH_ERROR
  | GP_MOVE_COST_ERROR
  | GP_MAX_RETRIES_FAILURE
  | GP_TIME_OUT_ERROR
  | LP_PLANNING_ERROR
  | LP_INITILIZATION_ERROR
  | LP_ALGORITHM_INITILIZATION_ERROR
  | LP_ALGORITHM_TRAJECTORY_ERROR
  | LP_ALGORITHM_GOAL_REACHED
  | LP_MAX_ERROR_FAILURE
  | LP_PLANTRANSFORM_ERROR
  | LP_OPTIMAL_ERROR
  | LP_VELOCITY_ERROR
  | LP_OSCILLATION_ERROR
  deriving DecidableEq, Repr

/-- How an action goal ends. -/
inductive Terminal where
  | succeeded
  | aborted
  | canceled
  deriving DecidableEq, Repr

/-- An error code with a message. -/
structure ErrorInfo where
  errorCode : ErrorCode
  errorMsg : String
  deriving DecidableEq, Repr

namespace ErrorInfo

def OK : ErrorInfo := ⟨.OK, ""⟩

def IsOK (e : ErrorInfo) : Bool := e.errorCode = .OK

@[simp] theorem isOK_OK : OK.IsOK = true := rfl

end ErrorInfo

end RoboRTS.Common
