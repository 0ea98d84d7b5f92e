import RoboRTS.Common.State
import RoboRTS.Lib.StateMachine
import Mathlib.Logic.Function.Basic

/-!
# The global planner node

`GlobalPlannerNode` runs one `Execute` thread for each accepted goal and one `PlanThread`. The
threads share the goal, the node state and the error, each behind a lock of its own, so a step of
the node is one access to one of them. `plan_mutex_` is held by `PlanThread` from the wait to the
end of an iteration, and taken by `Execute` to notify.

The ghost fields say whose goal a pose is: `goalOf` that of the stored goal, `planFor` that of the
goal which `PlanThread` works on, `successOf` that of the plan behind the last success.
-/

namespace RoboRTS.GlobalPlanner

open Common

/-- What `PlanThread` gets from its parameters and helpers. -/
structure GlobalPlannerConfig (Pose : Type) where
  maxRetries : Int
  /-- The frame of the pose is the global frame of the costmap. -/
  isGlobal : Pose → Bool
  /-- The distance and the angle between the poses are below the goal tolerances. -/
  atGoal : Pose → Pose → Bool

/-- Where an `Execute` thread of the global planner stands. -/
inductive ExecutePc where
  | storeGoal
  | checkState
  | setRunning
  | notify
  | poll
  | canceled
  | readState
  | readError
  | report
  | feedback
  | finish
  | setIdle
  | done
  deriving DecidableEq, Repr

/-- An `Execute` thread: its handle's goal and cancel request, and its local variables. `planFor` is
the ghost of the success that it has read. -/
structure Execute (Pose : Type) where
  goal : Pose
  canceling : Bool
  pc : ExecutePc
  nodeState : NodeState
  errorInfo : ErrorInfo
  planFor : Option Nat

/-- Where `PlanThread` stands. It holds `plan_mutex_` everywhere but at `wait`. -/
inductive PlanPc where
  | wait
  | spin
  | getPose (errorSet : Bool)
  | readGoal
  | transform
  | plan
  | judge
  | storePathEnd
  | setSuccess
  | setFailure
  | setError
  | checkTime
  deriving DecidableEq, Repr

/-- `PlanThread` with its local variables. -/
structure PlanThread (Pose : Type) where
  pc : PlanPc
  currentStart : Pose
  currentGoal : Pose
  currentPath : List Pose
  errorInfo : ErrorInfo
  retries : Int
  planFor : Option Nat

/-- What the calls of `PlanThread` out of the node return at a step. -/
structure PlanInput (Pose : Type) where
  robotPose : Option Pose
  pose2GlobalFrame : Pose
  plan : ErrorInfo × List Pose
  late : Bool

/-- The result of a goal handle; `planFor` is the ghost of the plan behind a success. -/
structure GoalResult where
  handle : Nat
  terminal : Terminal
  errorCode : ErrorCode
  planFor : Option Nat
  deriving DecidableEq, Repr

/-- The feedback to a goal handle. -/
structure GoalFeedback (Pose : Type) where
  handle : Nat
  errorInfo : ErrorInfo
  path : List Pose

/-- Who stores a goal. -/
inductive Writer where
  | execute (handle : Nat)
  | planThread
  deriving DecidableEq, Repr

/-- A pose stored over another one, as the handles whose goals they are. -/
structure GoalStore where
  writer : Writer
  previous : Option Nat
  goal : Option Nat
  deriving DecidableEq, Repr

/-- The node, its threads, and what it has sent. -/
structure GlobalPlannerNode (Pose : Type) where
  goal : Pose
  nodeState : NodeState
  errorInfo : ErrorInfo
  path : List Pose
  newPath : Bool
  planThread : PlanThread Pose
  accepted : Nat
  executes : Nat → Option (Execute Pose)
  pathPub : List (List Pose)
  feedbacks : List (GoalFeedback Pose)
  results : List GoalResult
  goalOf : Option Nat
  successOf : Option Nat
  stores : List GoalStore

inductive GlobalPlannerEvent (Pose : Type) where
  | accept (goal : Pose)
  | cancel (handle : Nat)
  | execute (handle : Nat)
  | planThread (input : PlanInput Pose)

namespace GlobalPlannerNode

variable {Pose : Type} (w : GlobalPlannerNode Pose)

/-- After `StartPlanning`. -/
def start (pose : Pose) : GlobalPlannerNode Pose where
  goal := pose
  nodeState := .IDLE
  errorInfo := .OK
  path := []
  newPath := false
  planThread := ⟨.wait, pose, pose, [], .OK, 0, none⟩
  accepted := 0
  executes := fun _ => none
  pathPub := []
  feedbacks := []
  results := []
  goalOf := none
  successOf := none
  stores := []

/-- `SetGoal`. -/
def setGoal (writer : Writer) (goal : Pose) (goalOf : Option Nat) : GlobalPlannerNode Pose :=
  { w with
    goal := goal, goalOf := goalOf, stores := w.stores ++ [⟨writer, w.goalOf, goalOf⟩] }

/-- `SetNodeState`. -/
def setNodeState (s : NodeState) : GlobalPlannerNode Pose :=
  { w with nodeState := s }

/-- `SetErrorInfo`. -/
def setErrorInfo (e : ErrorInfo) : GlobalPlannerNode Pose :=
  { w with errorInfo := e }

/-- The thread of a handle goes on as `x`. -/
def setExecute (k : Nat) (x : Execute Pose) : GlobalPlannerNode Pose :=
  { w with executes := Function.update w.executes k (some x) }

/-- `PlanThread` goes on as `t`. -/
def setPlanThread (t : PlanThread Pose) : GlobalPlannerNode Pose :=
  { w with planThread := t }

/-- The handle of thread `k` gets its result. -/
def terminate (k : Nat) (terminal : Terminal) (e : ErrorInfo) (planFor : Option Nat) :
    GlobalPlannerNode Pose :=
  { w with results := w.results ++ [⟨k, terminal, e.errorCode, planFor⟩] }

/-- `HandleAccepted`: a thread for the new handle. -/
def handleAccepted (goal : Pose) : GlobalPlannerNode Pose :=
  { w.setExecute w.accepted ⟨goal, false, .storeGoal, .IDLE, .OK, none⟩ with
    accepted := w.accepted + 1 }

/-- The part of the polling loop that sends a feedback. -/
def publishFeedback (k : Nat) (x : Execute Pose) : GlobalPlannerNode Pose :=
  { w with
    newPath := false
    feedbacks := w.feedbacks ++
      [⟨k, if x.errorInfo.IsOK then .OK else x.errorInfo, if w.newPath then w.path else []⟩] }

/-- The next access of `Execute` of handle `k` to what the threads share. -/
def executeStep (k : Nat) (x : Execute Pose) : Option (GlobalPlannerNode Pose) :=
  match x.pc with
  | .storeGoal =>
      some ((w.setGoal (.execute k) x.goal (some k)).setExecute k { x with pc := .checkState })
  | .checkState =>
      some (w.setExecute k
        { x with pc := if w.nodeState = .RUNNING then .notify else .setRunning })
  | .setRunning => some ((w.setNodeState .RUNNING).setExecute k { x with pc := .notify })
  | .notify =>
      if w.planThread.pc = .wait then some (w.setExecute k { x with pc := .poll }) else none
  | .poll => some (w.setExecute k { x with pc := if x.canceling then .canceled else .readState })
  | .canceled =>
      some ((w.terminate k .canceled w.errorInfo none).setExecute k { x with pc := .setIdle })
  | .readState =>
      some (w.setExecute k
        { x with pc := .readError, nodeState := w.nodeState, planFor := w.successOf })
  | .readError => some (w.setExecute k { x with pc := .report, errorInfo := w.errorInfo })
  | .report =>
      if x.nodeState = .RUNNING ∨ x.nodeState = .SUCCESS ∨ x.nodeState = .FAILURE then
        if x.errorInfo.IsOK = false then
          some ((w.setErrorInfo .OK).setExecute k { x with pc := .feedback })
        else if w.newPath then some (w.setExecute k { x with pc := .feedback })
        else some (w.setExecute k { x with pc := .finish })
      else some (w.setExecute k { x with pc := .poll })
  | .feedback => some ((w.publishFeedback k x).setExecute k { x with pc := .finish })
  | .finish =>
      match x.nodeState with
      | .SUCCESS =>
          some ((w.terminate k .succeeded x.errorInfo x.planFor).setExecute k
            { x with pc := .setIdle })
      | .FAILURE =>
          some ((w.terminate k .aborted x.errorInfo none).setExecute k { x with pc := .setIdle })
      | _ => some (w.setExecute k { x with pc := .poll })
  | .setIdle => some ((w.setNodeState .IDLE).setExecute k { x with pc := .done })
  | .done => none

/-- The next access of `PlanThread`; the end of an empty path is undefined. -/
def planStep (config : GlobalPlannerConfig Pose) (input : PlanInput Pose) :
    Option (GlobalPlannerNode Pose) :=
  let t := w.planThread
  match t.pc with
  | .wait => some (w.setPlanThread { t with pc := .spin })
  | .spin =>
      some (w.setPlanThread
        { t with pc := if w.nodeState = .RUNNING then .getPose false else .spin })
  | .getPose errorSet =>
      match input.robotPose with
      | some pose => some (w.setPlanThread { t with pc := .readGoal, currentStart := pose })
      | none =>
          if errorSet then some w
          else some ((w.setErrorInfo ⟨.GP_GET_POSE_ERROR, "Get Robot Pose Error."⟩).setPlanThread
            { t with pc := .getPose true })
  | .readGoal =>
      some (w.setPlanThread
        { t with
          pc := if config.isGlobal w.goal then .plan else .transform
          currentGoal := w.goal, planFor := w.goalOf })
  | .transform =>
      some ((w.setGoal .planThread input.pose2GlobalFrame t.planFor).setPlanThread
        { t with pc := .plan, currentGoal := input.pose2GlobalFrame })
  | .plan =>
      some (w.setPlanThread
        { t with pc := .judge, errorInfo := input.plan.1, currentPath := input.plan.2 })
  | .judge =>
      if t.errorInfo.IsOK then
        -- `PathVisualization`
        some ({ w with
          path := t.currentPath, newPath := true,
          pathPub := w.pathPub ++ [t.currentPath] }.setPlanThread
            { t with pc := .storePathEnd, retries := 0 })
      else if 0 < config.maxRetries ∧ config.maxRetries < t.retries then
        some (w.setPlanThread
          { t with pc := .setFailure, errorInfo := ⟨.GP_MAX_RETRIES_FAILURE, "Over max retries."⟩ })
      else if t.errorInfo.errorCode = .GP_GOAL_INVALID_ERROR then
        some (w.setPlanThread { t with pc := .setFailure })
      else some (w.setPlanThread { t with pc := .setError, retries := t.retries + 1 })
  | .storePathEnd =>
      t.currentPath.getLast?.map fun pose =>
        (w.setGoal .planThread pose t.planFor).setPlanThread
          { t with
            pc := if config.atGoal t.currentStart pose then .setSuccess else .setError
            currentGoal := pose }
  | .setSuccess =>
      some ({ w.setNodeState .SUCCESS with successOf := t.planFor }.setPlanThread
        { t with pc := .setError })
  | .setFailure =>
      some ((w.setNodeState .FAILURE).setPlanThread { t with pc := .setError, retries := 0 })
  | .setError => some ((w.setErrorInfo t.errorInfo).setPlanThread { t with pc := .checkTime })
  | .checkTime =>
      if input.late then
        some ((w.setErrorInfo ⟨.GP_TIME_OUT_ERROR, "Planning once time out."⟩).setPlanThread
          { t with pc := .wait })
      else some (w.setPlanThread { t with pc := .wait })

/-- One step of the node: a goal is accepted, a cancel request arrives, or a thread goes on. -/
def step (config : GlobalPlannerConfig Pose) (w : GlobalPlannerNode Pose) :
    GlobalPlannerEvent Pose → Option (GlobalPlannerNode Pose)
  | .accept goal => some (w.handleAccepted goal)
  | .cancel k => (w.executes k).map fun x => w.setExecute k { x with canceling := true }
  | .execute k => (w.executes k).bind (w.executeStep k)
  | .planThread input => w.planStep config input

end GlobalPlannerNode

end RoboRTS.GlobalPlanner
