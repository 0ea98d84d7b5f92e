import RoboRTS.Common.State
import RoboRTS.Lib.StateMachine
import Mathlib.Logic.Function.Basic

/-!
# The local planner node

`LocalPlannerNode` runs one `Execute` thread for each accepted goal, and starts and joins the
control loop `Loop` from them. A step of the node is one access to what the threads share: the node
state, the error, the plan of `TebLocalPlanner`, a lock, or the thread object of the loop.

The ghost fields say which handles have passed their `SetPlan` block (`passed`), for which handles a
loop was started or given a new plan (`servedFor`, and `successFor` once it has reported success),
and what every `ComputeVelocityCommands` has followed (`follows`).
-/

namespace RoboRTS.LocalPlanner

open Common

/-- Where an `Execute` thread of the local planner stands. -/
inductive ExecutePc where
  | begin
  | checkState
  | abortInit
  | lockPlan
  | setPlan
  | writePlan
  | releasePlan
  | unlockPlan
  | startJoin
  | startRunning
  | startLoop
  | poll
  | canceled
  | readState
  | readError
  | report
  | finish
  | stopIdle
  | stopJoin
  | done
  deriving DecidableEq, Repr

/-- An `Execute` thread: its handle's route and cancel request, and its local variables.
`successFor` is the ghost of the success that it has read. -/
structure Execute (Pose : Type) where
  route : List Pose
  canceling : Bool
  pc : ExecutePc
  nodeState : NodeState
  errorInfo : ErrorInfo
  successFor : List Nat

/-- Where a control loop stands. It holds the node's `plan_mutex_` from `compute` to `setError`. -/
inductive LoopPc where
  | init
  | initFailure
  | initError
  | test
  | lock
  | compute
  | getPlan
  | copyPlan
  | releasePlan
  | follow
  | judge
  | setSuccess
  | setFailure
  | setError
  | stop
  | finished
  deriving DecidableEq, Repr

/-- A control loop with its local variables. `due` is the ghost of the handles that had passed
their `SetPlan` block when the current `ComputeVelocityCommands` started. -/
structure Loop where
  pc : LoopPc
  errorCount : Nat
  errorInfo : ErrorInfo
  servedFor : List Nat
  due : List Nat

/-- What the calls of `Loop` return: `Initialize`, the rest of `ComputeVelocityCommands` after
`GetPlan` (it may prune the front of the plan), and `IsGoalReached`. -/
structure LoopInput (Vel : Type) where
  initResult : ErrorInfo
  compute : ErrorInfo
  cmdVel : Vel
  pruned : Nat
  goalReached : Bool

/-- The part of the planning algorithm that keeps the plan. `planMutex` says that it is locked. -/
structure TebLocalPlanner (Pose : Type) where
  isInitialized : Bool
  tempPlan : List Pose
  globalPlan : List Pose
  planMutex : Bool

/-- The result of a goal handle; `successFor` is the ghost of the success that it reports. -/
structure GoalResult where
  handle : Nat
  terminal : Terminal
  errorCode : ErrorCode
  successFor : List Nat
  deriving DecidableEq, Repr

/-- One `ComputeVelocityCommands`: the handles that had passed before, and the plan followed. -/
structure Follow (Pose : Type) where
  due : List Nat
  plan : List Pose

/-- The node, its threads, and what it has sent. `terminated` is set when a thread object that still
holds a thread is assigned. -/
structure LocalPlannerNode (Pose Vel : Type) where
  nodeState : NodeState
  nodeErrorInfo : ErrorInfo
  planMtx : Bool
  planMutex : Bool
  localPlanner : TebLocalPlanner Pose
  cmdVel : Vel
  localPlannerThread : Option Nat
  terminated : Bool
  accepted : Nat
  executes : Nat → Option (Execute Pose)
  spawned : Nat
  loops : Nat → Option Loop
  velPub : List Vel
  feedbacks : List (Nat × ErrorInfo)
  results : List GoalResult
  passed : List Nat
  successFor : List Nat
  follows : List (Follow Pose)

inductive LocalPlannerEvent (Pose Vel : Type) where
  | accept (route : List Pose)
  | cancel (handle : Nat)
  | execute (handle : Nat)
  | loop (number : Nat) (input : LoopInput Vel)

/-- `max_error_`. -/
def maxError : Nat := 5

namespace TebLocalPlanner

variable {Pose : Type} (p : TebLocalPlanner Pose)

/-- `SetPlan` once it has `plan_mutex_`. -/
def setPlan (plan : List Pose) (goal : Pose) : TebLocalPlanner Pose :=
  { p with tempPlan := if plan = [] then p.tempPlan ++ [goal] else plan }

/-- `GetPlan` once it has `plan_mutex_`. -/
def getPlan : TebLocalPlanner Pose :=
  { p with globalPlan := p.tempPlan }

end TebLocalPlanner

namespace LocalPlannerNode

variable {Pose Vel : Type} (w : LocalPlannerNode Pose Vel)

/-- After `Init`. -/
def start (zero : Vel) : LocalPlannerNode Pose Vel where
  nodeState := .IDLE
  nodeErrorInfo := .OK
  planMtx := false
  planMutex := false
  localPlanner := ⟨false, [], [], false⟩
  cmdVel := zero
  localPlannerThread := none
  terminated := false
  accepted := 0
  executes := fun _ => none
  spawned := 0
  loops := fun _ => none
  velPub := []
  feedbacks := []
  results := []
  passed := []
  successFor := []
  follows := []

/-- `SetNodeState`. -/
def setNodeState (s : NodeState) : LocalPlannerNode Pose Vel :=
  { w with nodeState := s }

/-- `SetErrorInfo`. -/
def setErrorInfo (e : ErrorInfo) : LocalPlannerNode Pose Vel :=
  { w with nodeErrorInfo := e }

/-- The thread of a handle goes on as `x`. -/
def setExecute (k : Nat) (x : Execute Pose) : LocalPlannerNode Pose Vel :=
  { w with executes := Function.update w.executes k (some x) }

/-- A control loop goes on as `l`. -/
def setLoop (i : Nat) (l : Loop) : LocalPlannerNode Pose Vel :=
  { w with loops := Function.update w.loops i (some l) }

/-- The handle of thread `k` gets its result. -/
def terminate (k : Nat) (terminal : Terminal) (e : ErrorCode) (successFor : List Nat) :
    LocalPlannerNode Pose Vel :=
  { w with results := w.results ++ [⟨k, terminal, e, successFor⟩] }

/-- `HandleAccepted`: a thread for the new handle. -/
def handleAccepted (route : List Pose) : LocalPlannerNode Pose Vel :=
  { w.setExecute w.accepted ⟨route, false, .begin, .IDLE, .OK, []⟩ with
    accepted := w.accepted + 1 }

/-- The fallback goal of a route; `pose` is the default pose. -/
def fallbackGoal (pose : Pose) (route : List Pose) : Pose :=
  route.getLast?.getD pose

/-- The running loops get a new plan, for handle `k`. -/
def replan (k : Nat) : Nat → Option Loop :=
  fun i => (w.loops i).map fun l =>
    if l.pc = .finished then l else { l with servedFor := l.servedFor ++ [k] }

/-- The thread is past its `SetPlan` block and starts the loop if it has read the idle state. -/
def pass (k : Nat) (x : Execute Pose) : LocalPlannerNode Pose Vel :=
  { w.setExecute k { x with pc := if x.nodeState = .IDLE then .startJoin else .poll } with
    passed := w.passed ++ [k] }

/-- `local_planner_thread_` is joined, if it holds a thread; it waits for the loop to finish. -/
def join : Option (LocalPlannerNode Pose Vel) :=
  match w.localPlannerThread with
  | none => some w
  | some i =>
      if (w.loops i).map Loop.pc = some .finished then some { w with localPlannerThread := none }
      else none

/-- A new control loop for handle `k` in `local_planner_thread_`. -/
def startLoop (k : Nat) : LocalPlannerNode Pose Vel :=
  { w.setLoop w.spawned ⟨.init, 0, .OK, [k], []⟩ with
    spawned := w.spawned + 1
    localPlannerThread := some w.spawned
    terminated := w.localPlannerThread.isSome }

/-- The next access of `Execute` of handle `k` to what the threads share; `pose` is the default
pose. -/
def executeStep (pose : Pose) (k : Nat) (x : Execute Pose) : Option (LocalPlannerNode Pose Vel) :=
  match x.pc with
  | .begin => some (w.setExecute k { x with pc := .checkState, errorInfo := w.nodeErrorInfo })
  | .checkState =>
      some (w.setExecute k
        { x with
          pc := if w.nodeState = .FAILURE then .abortInit else .lockPlan
          nodeState := w.nodeState })
  | .abortInit =>
      some ({ w.terminate k .aborted x.errorInfo.errorCode [] with
        feedbacks := w.feedbacks ++ [(k, x.errorInfo)] }.setExecute k { x with pc := .done })
  | .lockPlan =>
      if w.planMtx then some (w.pass k x)
      else some ({ w with planMtx := true }.setExecute k { x with pc := .setPlan })
  | .setPlan =>
      if w.localPlanner.planMutex then some (w.setExecute k { x with pc := .unlockPlan })
      else some ({ w with localPlanner := { w.localPlanner with planMutex := true } }.setExecute k
        { x with pc := .writePlan })
  | .writePlan =>
      some ({ w with
        localPlanner := w.localPlanner.setPlan x.route (fallbackGoal pose x.route)
        loops := w.replan k }.setExecute k { x with pc := .releasePlan })
  | .releasePlan =>
      some ({ w with localPlanner := { w.localPlanner with planMutex := false } }.setExecute k
        { x with pc := .unlockPlan })
  | .unlockPlan => some ({ w with planMtx := false }.pass k x)
  | .startJoin => w.join.map fun w => w.setExecute k { x with pc := .startRunning }
  | .startRunning => some ((w.setNodeState .RUNNING).setExecute k { x with pc := .startLoop })
  | .startLoop => some ((w.startLoop k).setExecute k { x with pc := .poll })
  | .poll => some (w.setExecute k { x with pc := if x.canceling then .canceled else .readState })
  | .canceled =>
      some ((w.terminate k .canceled .OK []).setExecute k { x with pc := .stopIdle })
  | .readState =>
      some (w.setExecute k
        { x with pc := .readError, nodeState := w.nodeState, successFor := w.successFor })
  | .readError => some (w.setExecute k { x with pc := .report, errorInfo := w.nodeErrorInfo })
  | .report =>
      if x.nodeState = .RUNNING ∨ x.nodeState = .SUCCESS ∨ x.nodeState = .FAILURE then
        if x.errorInfo.IsOK then some (w.setExecute k { x with pc := .finish })
        else some ({ w.setErrorInfo .OK with
          feedbacks := w.feedbacks ++ [(k, x.errorInfo)] }.setExecute k { x with pc := .finish })
      else some (w.setExecute k { x with pc := .poll })
  | .finish =>
      match x.nodeState with
      | .SUCCESS =>
          some ((w.terminate k .succeeded x.errorInfo.errorCode x.successFor).setExecute k
            { x with pc := .stopIdle })
      | .FAILURE =>
          some ((w.terminate k .aborted x.errorInfo.errorCode []).setExecute k
            { x with pc := .stopIdle })
      | _ => some (w.setExecute k { x with pc := .poll })
  | .stopIdle => some ((w.setNodeState .IDLE).setExecute k { x with pc := .stopJoin })
  | .stopJoin => w.join.map fun w => w.setExecute k { x with pc := .done }
  | .done => none

/-- The next access of control loop `i`; `zero` is the velocity it stops with. -/
def loopStep (zero : Vel) (input : LoopInput Vel) (i : Nat) (l : Loop) :
    Option (LocalPlannerNode Pose Vel) :=
  match l.pc with
  | .init =>
      if w.localPlanner.isInitialized then some (w.setLoop i { l with pc := .test })
      else if input.initResult.IsOK then
        some ({ w with localPlanner := { w.localPlanner with isInitialized := true } }.setLoop i
          { l with pc := .test })
      else some (w.setLoop i { l with pc := .initFailure, errorInfo := input.initResult })
  | .initFailure => some ((w.setNodeState .FAILURE).setLoop i { l with pc := .initError })
  | .initError => some ((w.setErrorInfo l.errorInfo).setLoop i { l with pc := .test })
  | .test => some (w.setLoop i { l with pc := if w.nodeState = .RUNNING then .lock else .stop })
  | .lock =>
      if w.planMutex then none
      else some ({ w with planMutex := true }.setLoop i { l with pc := .compute })
  | .compute =>
      if w.localPlanner.isInitialized then
        some (w.setLoop i { l with pc := .getPlan, due := w.passed })
      else some (w.setLoop i
        { l with
          pc := .judge
          errorInfo := ⟨.LP_ALGORITHM_INITILIZATION_ERROR, "teb initialize failed"⟩ })
  | .getPlan =>
      if w.localPlanner.planMutex then some (w.setLoop i { l with pc := .follow })
      else some ({ w with localPlanner := { w.localPlanner with planMutex := true } }.setLoop i
        { l with pc := .copyPlan })
  | .copyPlan =>
      some ({ w with localPlanner := w.localPlanner.getPlan }.setLoop i { l with pc := .releasePlan })
  | .releasePlan =>
      some ({ w with localPlanner := { w.localPlanner with planMutex := false } }.setLoop i
        { l with pc := .follow })
  | .follow =>
      some ({ w with
        cmdVel := input.cmdVel
        follows := w.follows ++ [Follow.mk l.due w.localPlanner.globalPlan]
        localPlanner := { w.localPlanner with
          globalPlan := w.localPlanner.globalPlan.drop input.pruned } }.setLoop i
            { l with pc := .judge, errorInfo := input.compute })
  | .judge =>
      if l.errorInfo.IsOK then
        some ({ w with velPub := w.velPub ++ [w.cmdVel] }.setLoop i
          { l with pc := if input.goalReached then .setSuccess else .setError, errorCount := 0 })
      else if maxError < l.errorCount ∧ 0 < maxError then
        some (w.setLoop i
          { l with pc := .setFailure, errorInfo := ⟨.LP_MAX_ERROR_FAILURE, "over max error."⟩ })
      else some (w.setLoop i { l with pc := .setError, errorCount := l.errorCount + 1 })
  | .setSuccess =>
      some ({ w.setNodeState .SUCCESS with successFor := l.servedFor }.setLoop i
        { l with pc := .setError })
  | .setFailure => some ((w.setNodeState .FAILURE).setLoop i { l with pc := .setError })
  | .setError =>
      some ({ w.setErrorInfo l.errorInfo with planMutex := false }.setLoop i { l with pc := .test })
  | .stop =>
      some ({ w with cmdVel := zero, velPub := w.velPub ++ [zero] }.setLoop i
        { l with pc := .finished })
  | .finished => none

/-- One step of the node: a goal is accepted, a cancel request arrives, or a thread goes on. -/
def step (pose : Pose) (zero : Vel) (w : LocalPlannerNode Pose Vel)
    (e : LocalPlannerEvent Pose Vel) : Option (LocalPlannerNode Pose Vel) :=
  if w.terminated then none
  else
    match e with
    | .accept route => some (w.handleAccepted route)
    | .cancel k => (w.executes k).map fun x => w.setExecute k { x with canceling := true }
    | .execute k => (w.executes k).bind (w.executeStep pose k)
    | .loop i input => (w.loops i).bind (w.loopStep zero input i)

/-- `n` steps of thread `k`. -/
def executeSteps (n k : Nat) : List (LocalPlannerEvent Pose Vel) :=
  List.replicate n (.execute k)

/-- `n` steps of loop `i`, whose calls succeed. -/
def loopSteps (n i : Nat) (cmdVel : Vel) (goalReached : Bool) : List (LocalPlannerEvent Pose Vel) :=
  List.replicate n (.loop i ⟨.OK, .OK, cmdVel, 0, goalReached⟩)

/-! ## Numbers of threads -/

variable {pose : Pose} {zero : Vel} {w w' : LocalPlannerNode Pose Vel}

/-- Threads are numbered below the number of accepted goals. -/
def Numbered (w : LocalPlannerNode Pose Vel) : Prop :=
  ∀ k, w.accepted ≤ k → w.executes k = none

theorem join_executes (h : w.join = some w') :
    w'.executes = w.executes ∧ w'.accepted = w.accepted := by
  unfold join at h
  split at h
  · cases h
    exact ⟨rfl, rfl⟩
  · split at h
    · cases h
      exact ⟨rfl, rfl⟩
    · cases h

/-- A step of thread `k` changes the entry of that thread only, and keeps its route. -/
theorem executeStep_executes {k : Nat} {x : Execute Pose} (h : w.executeStep pose k x = some w') :
    ∃ x', w'.executes = Function.update w.executes k (some x') ∧ x'.route = x.route ∧
      w'.accepted = w.accepted := by
  have hjoined : ∀ {x'}, (w.join.map fun w => w.setExecute k x') = some w' →
      w'.executes = Function.update w.executes k (some x') ∧ w'.accepted = w.accepted := by
    intro x' hx'
    obtain ⟨v, hv, rfl⟩ := Option.map_eq_some_iff.mp hx'
    obtain ⟨hexecutes, haccepted⟩ := join_executes hv
    exact ⟨by rw [← hexecutes]; rfl, haccepted⟩
  unfold executeStep at h
  cases hpc : x.pc <;> rw [hpc] at h <;> dsimp only at h
  case startJoin => exact ⟨_, (hjoined h).1, rfl, (hjoined h).2⟩
  case stopJoin => exact ⟨_, (hjoined h).1, rfl, (hjoined h).2⟩
  case finish => split at h <;> cases h <;> exact ⟨_, rfl, rfl, rfl⟩
  all_goals
    first
    | cases h; exact ⟨_, rfl, rfl, rfl⟩
    | split_ifs at h <;> cases h <;> exact ⟨_, rfl, rfl, rfl⟩
    | cases h

theorem loopStep_executes {input : LoopInput Vel} {i : Nat} {l : Loop}
    (h : w.loopStep zero input i l = some w') :
    w'.executes = w.executes ∧ w'.accepted = w.accepted := by
  unfold loopStep at h
  split at h <;>
    first
    | cases h; exact ⟨rfl, rfl⟩
    | split_ifs at h <;> cases h <;> exact ⟨rfl, rfl⟩
    | cases h

theorem step_numbered {e : LocalPlannerEvent Pose Vel} (hw : w.Numbered)
    (h : step pose zero w e = some w') : w'.Numbered := by
  have hupdate : ∀ {k x x'}, w.executes k = some x → w'.accepted = w.accepted →
      w'.executes = Function.update w.executes k (some x') → w'.Numbered := by
    intro k x x' hx haccepted hexecutes j hj
    rw [haccepted] at hj
    have hjk : j ≠ k := by
      rintro rfl
      rw [hw j hj] at hx
      cases hx
    rw [hexecutes, Function.update_of_ne hjk]
    exact hw j hj
  unfold step at h
  split at h
  · cases h
  cases e with
  | accept route =>
      cases h
      intro j hj
      have hj : w.accepted + 1 ≤ j := hj
      exact (Function.update_of_ne (by omega) ..).trans (hw j (by omega))
  | cancel k =>
      obtain ⟨x, hx, rfl⟩ := Option.map_eq_some_iff.mp h
      exact hupdate hx rfl rfl
  | execute k =>
      obtain ⟨x, hx, hstep⟩ := Option.bind_eq_some_iff.mp h
      obtain ⟨x', hexecutes, -, haccepted⟩ := executeStep_executes hstep
      exact hupdate hx haccepted hexecutes
  | loop i input =>
      obtain ⟨l, -, hstep⟩ := Option.bind_eq_some_iff.mp h
      obtain ⟨hexecutes, haccepted⟩ := loopStep_executes hstep
      intro j hj
      rw [hexecutes]
      exact hw j (haccepted ▸ hj)

theorem run_numbered {events : List (LocalPlannerEvent Pose Vel)}
    (h : StateMachine.run (step pose zero) (start zero) events = some w) : w.Numbered :=
  StateMachine.run_invariant (fun _ _ _ hw hstep => step_numbered hw hstep) (fun _ _ => rfl) h

end LocalPlannerNode

end RoboRTS.LocalPlanner
