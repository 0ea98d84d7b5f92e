import RoboRTS.Decision.BehaviorState
import RoboRTS.Lib.StateMachine

/-!
# The chassis executor

`ChassisExecutor` sends goals to the action server of the global planner and tells the behaviours
how they ended. The handle of a goal comes back in a callback, some time after the goal was sent.
What `Update` answers for a goal is fresh (`World.Fresh`) in every run in which a goal is sent with
no handle stored and no late handle replaces the one of the goal in progress.
-/

namespace RoboRTS.Decision

inductive ExcutionMode where
  | IDLE_MODE
  | GOAL_MODE
  | SPEED_MODE
  | SPEED_WITH_ACCEL_MODE
  deriving DecidableEq, Repr

/-- The statuses that a goal handle reports. -/
inductive GoalStatus where
  | STATUS_UNKNOWN
  | STATUS_ACCEPTED
  | STATUS_EXECUTING
  | STATUS_CANCELING
  | STATUS_SUCCEEDED
  | STATUS_CANCELED
  | STATUS_ABORTED
  deriving DecidableEq, Repr

/-- What the executor sends: goals and cancel requests to the two planners, and velocities. -/
inductive Output (Pose Twist TwistAccel : Type) where
  | globalGoal (command : Nat) (goal : Pose)
  | localGoal (route : List Pose)
  | cancelGlobalGoals
  | cancelLocalGoals
  | cmdVel (twist : Twist)
  | cmdVelAcc (twistAccel : TwistAccel)
  deriving DecidableEq, Repr

/-- The executor. Goal handles are the numbers of the goals, in the order in which they were sent;
`output` is everything sent so far. -/
structure ChassisExecutor (Pose Twist TwistAccel : Type) where
  executionMode : ExcutionMode
  executionState : BehaviorState
  globalGoalHandle : Option Nat
  zeroTwist : Twist
  zeroTwistAccel : TwistAccel
  output : List (Output Pose Twist TwistAccel)

variable {Pose Twist TwistAccel : Type}

namespace ChassisExecutor

variable (e : ChassisExecutor Pose Twist TwistAccel)

/-- The constructor. -/
def init (zeroTwist : Twist) (zeroTwistAccel : TwistAccel) :
    ChassisExecutor Pose Twist TwistAccel where
  executionMode := .IDLE_MODE
  executionState := .IDLE
  globalGoalHandle := none
  zeroTwist := zeroTwist
  zeroTwistAccel := zeroTwistAccel
  output := []

def send (out : List (Output Pose Twist TwistAccel)) : ChassisExecutor Pose Twist TwistAccel :=
  { e with output := e.output ++ out }

/-- `Cancel`. -/
def cancel : ChassisExecutor Pose Twist TwistAccel :=
  match e.executionMode with
  | .IDLE_MODE => e
  | .GOAL_MODE =>
      { e.send [.cancelGlobalGoals, .cancelLocalGoals] with
        globalGoalHandle := none, executionMode := .IDLE_MODE }
  | .SPEED_MODE => { e.send [.cmdVel e.zeroTwist] with executionMode := .IDLE_MODE }
  | .SPEED_WITH_ACCEL_MODE =>
      { e.send [.cmdVelAcc e.zeroTwistAccel] with executionMode := .IDLE_MODE }

/-- `Execute` of a goal. -/
def executeGoal (goal : Pose) : ChassisExecutor Pose Twist TwistAccel :=
  { e.send [.globalGoal 0 goal] with executionMode := .GOAL_MODE }

/-- The callback with the response to a goal: a handle, or null when the goal was rejected. -/
def goalResponse (gh : Option Nat) : ChassisExecutor Pose Twist TwistAccel :=
  { e with globalGoalHandle := gh }

/-- `Execute` of a velocity. -/
def executeTwist (twist : Twist) : ChassisExecutor Pose Twist TwistAccel :=
  let e := if e.executionMode = .GOAL_MODE then e.cancel else e
  { e.send [.cmdVel twist] with executionMode := .SPEED_MODE }

/-- `Execute` of a velocity with acceleration. -/
def executeTwistAccel (twistAccel : TwistAccel) : ChassisExecutor Pose Twist TwistAccel :=
  let e := if e.executionMode = .GOAL_MODE then e.cancel else e
  { e.send [.cmdVelAcc twistAccel] with executionMode := .SPEED_WITH_ACCEL_MODE }

/-- What `Update` reports for a goal handle with this status. -/
def stateOf : GoalStatus → BehaviorState
  | .STATUS_ACCEPTED => .RUNNING
  | .STATUS_EXECUTING => .RUNNING
  | .STATUS_CANCELING => .RUNNING
  | .STATUS_SUCCEEDED => .SUCCESS
  | .STATUS_ABORTED => .FAILURE
  | .STATUS_CANCELED => .FAILURE
  | .STATUS_UNKNOWN => .RUNNING

/-- `Update`, given what `get_status` of each handle returns. -/
def update (getStatus : Nat → GoalStatus) :
    ChassisExecutor Pose Twist TwistAccel × BehaviorState :=
  let state := match e.executionMode with
    | .IDLE_MODE => .IDLE
    | .GOAL_MODE =>
        match e.globalGoalHandle with
        | none => .RUNNING
        | some gh => stateOf (getStatus gh)
    | .SPEED_MODE => .RUNNING
    | .SPEED_WITH_ACCEL_MODE => .RUNNING
  ({ e with executionState := state }, state)

/-- `GlobalPlannerFeedbackCallback`. -/
def globalPlannerFeedbackCallback (feedback : Option (List Pose)) :
    ChassisExecutor Pose Twist TwistAccel :=
  match feedback with
  | none => e
  | some path => if path = [] then e else e.send [.localGoal path]

end ChassisExecutor

/-! ## The executor and its goals -/

/-- The executor, the goals sent so far, their statuses, which of them have been responded to, and
how many of them `Cancel` has covered. -/
structure World (Pose Twist TwistAccel : Type) where
  executor : ChassisExecutor Pose Twist TwistAccel
  goals : List Pose
  status : Nat → GoalStatus
  responded : List Nat
  cancelled : Nat

inductive ExecutorEvent (Pose Twist TwistAccel : Type) where
  | executeGoal (goal : Pose)
  | executeTwist (twist : Twist)
  | executeTwistAccel (twistAccel : TwistAccel)
  | cancel
  | update
  | response (goal : Nat) (accepted : Bool)
  | status (goal : Nat) (status : GoalStatus)
  | feedback (feedback : Option (List Pose))

def GoalStatus.Terminal (s : GoalStatus) : Prop :=
  s = .STATUS_SUCCEEDED ∨ s = .STATUS_CANCELED ∨ s = .STATUS_ABORTED

instance (s : GoalStatus) : Decidable s.Terminal :=
  inferInstanceAs (Decidable (_ ∨ _ ∨ _))

namespace World

variable {w w' : World Pose Twist TwistAccel}

/-- Before the first call. -/
def start (zeroTwist : Twist) (zeroTwistAccel : TwistAccel) : World Pose Twist TwistAccel where
  executor := .init zeroTwist zeroTwistAccel
  goals := []
  status := fun _ => .STATUS_UNKNOWN
  responded := []
  cancelled := 0

/-- The goals that `Cancel` has covered, once a call has left goal mode. -/
def cover (w : World Pose Twist TwistAccel) : Nat :=
  if w.executor.executionMode = .GOAL_MODE then w.goals.length else w.cancelled

/-- One call, callback or change of a status. Each goal is responded to once, and a goal that has
ended keeps its status. -/
def step (w : World Pose Twist TwistAccel) :
    ExecutorEvent Pose Twist TwistAccel → Option (World Pose Twist TwistAccel)
  | .executeGoal goal =>
      some { w with executor := w.executor.executeGoal goal, goals := w.goals ++ [goal] }
  | .executeTwist twist =>
      some { w with executor := w.executor.executeTwist twist, cancelled := w.cover }
  | .executeTwistAccel twistAccel =>
      some { w with executor := w.executor.executeTwistAccel twistAccel, cancelled := w.cover }
  | .cancel => some { w with executor := w.executor.cancel, cancelled := w.cover }
  | .update => some { w with executor := (w.executor.update w.status).1 }
  | .response goal accepted =>
      if goal < w.goals.length ∧ goal ∉ w.responded then
        some { w with
          executor := w.executor.goalResponse (if accepted then some goal else none),
          responded := goal :: w.responded }
      else none
  | .status goal status =>
      if goal < w.goals.length ∧ ¬ (w.status goal).Terminal then
        some { w with status := Function.update w.status goal status }
      else none
  | .feedback path =>
      some { w with executor := w.executor.globalPlannerFeedbackCallback path }

/-- The status of a goal that ended so is reported as this state. -/
def EndedWith (status : GoalStatus) : BehaviorState → Prop
  | .SUCCESS => status = .STATUS_SUCCEEDED
  | .FAILURE => status = .STATUS_ABORTED ∨ status = .STATUS_CANCELED
  | .RUNNING => False
  | .IDLE => False

/-- In goal mode `Update` answers success or failure on account of the goal of the last `Execute`
only, which has ended so and has not been cancelled. -/
def Fresh (w : World Pose Twist TwistAccel) : Prop :=
  w.executor.executionMode = .GOAL_MODE →
    ∀ result, (w.executor.update w.status).2 = result → result = .SUCCESS ∨ result = .FAILURE →
      ∃ n, w.executor.globalGoalHandle = some n ∧ n + 1 = w.goals.length ∧ w.cancelled ≤ n ∧
        EndedWith (w.status n) result

/-- The step condition: a goal is sent with no handle stored, and a handle that arrives in goal
mode is the one of the last goal. -/
def Timely (w : World Pose Twist TwistAccel) : ExecutorEvent Pose Twist TwistAccel → Prop
  | .executeGoal _ => w.executor.globalGoalHandle = none
  | .response goal accepted =>
      w.executor.executionMode = .GOAL_MODE → accepted = true → goal + 1 = w.goals.length
  | _ => True

instance : ∀ (w : World Pose Twist TwistAccel) (ev : ExecutorEvent Pose Twist TwistAccel),
    Decidable (w.Timely ev)
  | w, .executeGoal _ => inferInstanceAs (Decidable (w.executor.globalGoalHandle = none))
  | w, .response goal accepted => inferInstanceAs (Decidable
      (w.executor.executionMode = .GOAL_MODE → accepted = true → goal + 1 = w.goals.length))
  | _, .executeTwist _ => inferInstanceAs (Decidable True)
  | _, .executeTwistAccel _ => inferInstanceAs (Decidable True)
  | _, .cancel => inferInstanceAs (Decidable True)
  | _, .update => inferInstanceAs (Decidable True)
  | _, .status _ _ => inferInstanceAs (Decidable True)
  | _, .feedback _ => inferInstanceAs (Decidable True)

/-! ## Runs -/

/-- The invariant of timely runs: in goal mode the last goal is not cancelled, and a stored handle
is its own. -/
structure Tracks (w : World Pose Twist TwistAccel) : Prop where
  cancelled_le : w.cancelled ≤ w.goals.length
  current : w.executor.executionMode = .GOAL_MODE → w.cancelled < w.goals.length
  handle : w.executor.executionMode = .GOAL_MODE →
    ∀ n, w.executor.globalGoalHandle = some n → n + 1 = w.goals.length

theorem start_tracks (zeroTwist : Twist) (zeroTwistAccel : TwistAccel) :
    (start zeroTwist zeroTwistAccel : World Pose Twist TwistAccel).Tracks :=
  ⟨Nat.le_refl 0, fun hmode => (by cases hmode), fun hmode => (by cases hmode)⟩

theorem cover_le (hw : w.Tracks) : w.cover ≤ w.goals.length := by
  unfold cover
  split
  · exact Nat.le_refl _
  · exact hw.cancelled_le

/-- `Cancel` leaves goal mode. -/
theorem cancel_executionMode (e : ChassisExecutor Pose Twist TwistAccel) :
    e.cancel.executionMode = .IDLE_MODE := by
  unfold ChassisExecutor.cancel
  cases hmode : e.executionMode with
  | IDLE_MODE => exact hmode
  | GOAL_MODE => rfl
  | SPEED_MODE => rfl
  | SPEED_WITH_ACCEL_MODE => rfl

/-- A step that leaves goal mode keeps the invariant. -/
theorem Tracks.leave (hw : w.Tracks) {e : ChassisExecutor Pose Twist TwistAccel}
    (hmode : e.executionMode ≠ .GOAL_MODE) :
    Tracks { w with executor := e, cancelled := w.cover } :=
  ⟨cover_le hw, fun h => absurd h hmode, fun h => absurd h hmode⟩

/-- A step that keeps the mode and the handle keeps the invariant. -/
theorem Tracks.keep (hw : w.Tracks) {e : ChassisExecutor Pose Twist TwistAccel}
    (hmode : e.executionMode = w.executor.executionMode)
    (hhandle : e.globalGoalHandle = w.executor.globalGoalHandle) :
    Tracks { w with executor := e } :=
  ⟨hw.cancelled_le, fun h => hw.current (hmode.symm.trans h),
    fun h n hn => hw.handle (hmode.symm.trans h) n (hhandle.symm.trans hn)⟩

theorem step_tracks {ev : ExecutorEvent Pose Twist TwistAccel} (hw : w.Tracks) (hok : w.Timely ev)
    (hstep : w.step ev = some w') : w'.Tracks := by
  cases ev with
  | executeGoal goal =>
      cases hstep
      have hle := hw.cancelled_le
      have hnone : w.executor.globalGoalHandle = none := hok
      refine ⟨?_, fun _ => ?_, fun _ n hn => ?_⟩
      · rw [List.length_append]
        exact Nat.le_add_right_of_le hle
      · rw [List.length_append]
        exact Nat.lt_add_one_of_le hle
      · cases hnone.symm.trans hn
  | executeTwist twist =>
      cases hstep
      exact hw.leave (by simp [ChassisExecutor.executeTwist])
  | executeTwistAccel twistAccel =>
      cases hstep
      exact hw.leave (by simp [ChassisExecutor.executeTwistAccel])
  | cancel =>
      cases hstep
      exact hw.leave (by rw [cancel_executionMode]; decide)
  | update =>
      cases hstep
      exact hw.keep rfl rfl
  | response goal accepted =>
      simp only [step] at hstep
      split at hstep
      · cases hstep
        refine ⟨hw.cancelled_le, hw.current, fun hmode n hn => ?_⟩
        -- a rejected goal has no handle
        cases accepted with
        | false => cases hn
        | true =>
            obtain rfl : goal = n := Option.some.inj hn
            exact hok hmode rfl
      · cases hstep
  | status goal status =>
      simp only [step] at hstep
      split at hstep
      · cases hstep
        exact ⟨hw.cancelled_le, hw.current, hw.handle⟩
      · cases hstep
  | feedback path =>
      cases hstep
      refine hw.keep ?_ ?_ <;>
      · unfold ChassisExecutor.globalPlannerFeedbackCallback
        split
        · rfl
        · split <;> rfl

/-- A success or failure in goal mode is the reported status of the stored handle. -/
theorem ended_of_update {result : BehaviorState}
    (hmode : w.executor.executionMode = .GOAL_MODE)
    (hupdate : (w.executor.update w.status).2 = result)
    (hresult : result = .SUCCESS ∨ result = .FAILURE) :
    ∃ n, w.executor.globalGoalHandle = some n ∧ EndedWith (w.status n) result := by
  unfold ChassisExecutor.update at hupdate
  rw [hmode] at hupdate
  dsimp only at hupdate
  cases hhandle : w.executor.globalGoalHandle with
  | none =>
      rw [hhandle] at hupdate
      rcases hresult with rfl | rfl <;> cases hupdate
  | some n =>
      rw [hhandle] at hupdate
      refine ⟨n, rfl, ?_⟩
      dsimp only at hupdate
      cases hstatus : w.status n <;> rw [hstatus] at hupdate <;>
        rcases hresult with rfl | rfl <;>
        first | cases hupdate; done | simp [EndedWith]

theorem Tracks.fresh (hw : w.Tracks) : w.Fresh := by
  intro hmode result hupdate hresult
  obtain ⟨n, hn, hended⟩ := ended_of_update hmode hupdate hresult
  have hlast := hw.handle hmode n hn
  have hcurrent := hw.current hmode
  exact ⟨n, hn, hlast, by omega, hended⟩

/-- In every timely run what `Update` answers in goal mode is fresh. -/
theorem run_fresh (zeroTwist : Twist) (zeroTwistAccel : TwistAccel)
    (events : List (ExecutorEvent Pose Twist TwistAccel)) (w : World Pose Twist TwistAccel)
    (htimely : StateMachine.Along step Timely (start zeroTwist zeroTwistAccel) events)
    (hrun : StateMachine.run step (start zeroTwist zeroTwistAccel) events = some w) : w.Fresh :=
  Tracks.fresh (StateMachine.run_invariant_of (fun _ _ _ hw hok hstep => step_tracks hw hok hstep)
    (start_tracks zeroTwist zeroTwistAccel) htimely hrun)

/-- A goal is sent, answered and reached, then cancelled, and a second goal is in progress. -/
theorem run_fresh_second_goal :
    ∃ w, StateMachine.run step (start 0 0 : World Nat Nat Nat)
        [.executeGoal 7, .response 0 true, .status 0 .STATUS_SUCCEEDED, .cancel, .executeGoal 8,
          .response 1 true, .status 1 .STATUS_ABORTED] = some w ∧
      (w.executor.update w.status).2 = .FAILURE ∧ w.Fresh := by
  obtain ⟨w, hw⟩ := Option.isSome_iff_exists.mp
    (show (StateMachine.run step (start 0 0 : World Nat Nat Nat)
      [.executeGoal 7, .response 0 true, .status 0 .STATUS_SUCCEEDED, .cancel, .executeGoal 8,
        .response 1 true, .status 1 .STATUS_ABORTED]).isSome = true by decide)
  refine ⟨w, hw, ?_, run_fresh 0 0 _ w (by decide) hw⟩
  cases hw
  rfl

/-- A second goal is sent once the first one has been reached: its handle is still stored. -/
theorem update_reports_previous_goal :
    ¬ ∀ (events : List (ExecutorEvent Nat Nat Nat)) (w : World Nat Nat Nat),
      StateMachine.run step (start 0 0) events = some w → w.Fresh := by
  intro hall
  obtain ⟨w, hw⟩ := Option.isSome_iff_exists.mp
    (show (StateMachine.run step (start 0 0 : World Nat Nat Nat)
      [.executeGoal 7, .response 0 true, .status 0 .STATUS_SUCCEEDED, .executeGoal 8]).isSome = true
      by decide)
  have hfresh := hall _ w hw
  cases hw
  obtain ⟨n, hn, hlast, -⟩ := hfresh rfl .SUCCESS rfl (Or.inl rfl)
  obtain rfl : 0 = n := Option.some.inj hn
  exact absurd hlast (by decide)

end World

end RoboRTS.Decision
