import RoboRTS.Decision.ChassisExecutor

/-!
# Goals in turn

A caller that sends a goal only when all goals before have been answered, and when `Update` does not
answer that the executor is running, never has two goals in progress: the invariant `World.InTurn`
is kept by every step of this kind. Such a caller waits for ever for an executor that whirls, or
that a rejected goal leaves in goal mode without a handle (`World.Halted`): no callback changes what
`Update` answers.
-/

namespace RoboRTS.Decision.World

variable {Pose Twist TwistAccel : Type} {w w' : World Pose Twist TwistAccel}
  {ev : ExecutorEvent Pose Twist TwistAccel}

/-- The goal was sent and has neither ended nor been cancelled. -/
def InProgress (w : World Pose Twist TwistAccel) (n : Nat) : Prop :=
  n < w.goals.length ∧ w.cancelled ≤ n ∧ ¬(w.status n).Terminal

/-- All goals have been responded to. -/
def Answered (w : World Pose Twist TwistAccel) : Prop :=
  ∀ n < w.goals.length, n ∈ w.responded

instance (w : World Pose Twist TwistAccel) : Decidable w.Answered :=
  inferInstanceAs (Decidable (∀ n < w.goals.length, n ∈ w.responded))

/-- The step condition: a goal is sent when all goals are answered and the executor is not
running. -/
def Patient (w : World Pose Twist TwistAccel) : ExecutorEvent Pose Twist TwistAccel → Prop
  | .executeGoal _ => w.Answered ∧ (w.executor.update w.status).2 ≠ .RUNNING
  | _ => True

/-- The invariant of patient runs: at most the last goal is to be answered, a stored handle is its
own once it is, and all goals before it have ended or been cancelled. -/
structure InTurn (w : World Pose Twist TwistAccel) : Prop where
  responded_lt : ∀ n ∈ w.responded, n < w.goals.length
  answered : ∀ n, n + 1 < w.goals.length → n ∈ w.responded
  left : w.executor.executionMode ≠ .GOAL_MODE → w.cancelled = w.goals.length
  handle : w.executor.executionMode = .GOAL_MODE → w.Answered →
    ∀ n, w.executor.globalGoalHandle = some n → n + 1 = w.goals.length
  ended : ∀ n, n + 1 < w.goals.length → w.cancelled ≤ n → (w.status n).Terminal

theorem start_inTurn (zeroTwist : Twist) (zeroTwistAccel : TwistAccel) :
    (start zeroTwist zeroTwistAccel : World Pose Twist TwistAccel).InTurn where
  responded_lt n hn := absurd hn List.not_mem_nil
  answered n hn := absurd hn (Nat.not_lt_zero _)
  left _ := rfl
  handle hmode := by cases hmode
  ended n hn := absurd hn (Nat.not_lt_zero _)

/-- Only the last goal is in progress. -/
theorem InTurn.of_inProgress (hw : w.InTurn) {n : Nat} (hn : w.InProgress n) :
    n + 1 = w.goals.length := by
  obtain ⟨hlt, hcancelled, hrunning⟩ := hn
  by_contra hne
  exact hrunning (hw.ended n (by omega) hcancelled)

/-! ## Steps -/

theorem InTurn.cover_eq (hw : w.InTurn) : w.cover = w.goals.length := by
  unfold cover
  split
  · rfl
  · exact hw.left ‹_›

/-- A step that leaves goal mode covers all goals. -/
theorem InTurn.leave (hw : w.InTurn) {e : ChassisExecutor Pose Twist TwistAccel}
    (hmode : e.executionMode ≠ .GOAL_MODE) :
    InTurn { w with executor := e, cancelled := w.cover } where
  responded_lt := hw.responded_lt
  answered := hw.answered
  left _ := hw.cover_eq
  handle h := absurd h hmode
  ended n hn hcover := by
    have hall : w.cover ≤ n := hcover
    have hlt : n + 1 < w.goals.length := hn
    rw [hw.cover_eq] at hall
    omega

theorem InTurn.keep (hw : w.InTurn) {e : ChassisExecutor Pose Twist TwistAccel}
    (hmode : e.executionMode = w.executor.executionMode)
    (hhandle : e.globalGoalHandle = w.executor.globalGoalHandle) :
    InTurn { w with executor := e } where
  responded_lt := hw.responded_lt
  answered := hw.answered
  left h := hw.left fun hgoal => h (hmode.trans hgoal)
  handle h hanswered n hn := hw.handle (hmode.symm.trans h) hanswered n (hhandle.symm.trans hn)
  ended := hw.ended

/-- When `Update` does not answer running in goal mode, the goal of the stored handle has ended. -/
theorem terminal_of_update (hmode : w.executor.executionMode = .GOAL_MODE)
    (h : (w.executor.update w.status).2 ≠ .RUNNING) :
    ∃ n, w.executor.globalGoalHandle = some n ∧ (w.status n).Terminal := by
  unfold ChassisExecutor.update at h
  rw [hmode] at h
  dsimp only at h
  cases hhandle : w.executor.globalGoalHandle with
  | none =>
      rw [hhandle] at h
      exact absurd rfl h
  | some n =>
      rw [hhandle] at h
      refine ⟨n, rfl, ?_⟩
      dsimp only at h
      cases hstatus : w.status n <;> rw [hstatus] at h <;>
        first | exact absurd rfl h | decide

/-- When `Update` does not answer running, no goal is in progress. -/
theorem InTurn.not_inProgress (hw : w.InTurn) (hanswered : w.Answered)
    (hstate : (w.executor.update w.status).2 ≠ .RUNNING) (n : Nat) : ¬w.InProgress n := by
  intro hn
  have hlast := hw.of_inProgress hn
  obtain ⟨-, hcancelled, hrunning⟩ := hn
  by_cases hmode : w.executor.executionMode = .GOAL_MODE
  · obtain ⟨m, hm, hended⟩ := terminal_of_update hmode hstate
    have hhandle := hw.handle hmode hanswered m hm
    have hsame : m = n := by omega
    exact hrunning (hsame ▸ hended)
  · have hleft := hw.left hmode
    omega

theorem InTurn.executeGoal (hw : w.InTurn) (hanswered : w.Answered)
    (hstate : (w.executor.update w.status).2 ≠ .RUNNING) (goal : Pose) :
    InTurn { w with executor := w.executor.executeGoal goal, goals := w.goals ++ [goal] } where
  responded_lt n hn := by
    have hlt := hw.responded_lt n hn
    rw [List.length_append]
    exact Nat.lt_add_right _ hlt
  answered n hn := by
    rw [List.length_append] at hn
    exact hanswered n (Nat.succ_lt_succ_iff.mp hn)
  left h := absurd rfl h
  handle _ hall n _ := by
    -- the new goal is not answered yet
    have hlast : w.goals.length ∈ w.responded :=
      hall w.goals.length (by rw [List.length_append]; exact Nat.lt_add_one _)
    exact absurd (hw.responded_lt _ hlast) (Nat.lt_irrefl _)
  ended n hn hcancelled := by
    rw [List.length_append] at hn
    have hlt : n < w.goals.length := Nat.succ_lt_succ_iff.mp hn
    have hcancelled : w.cancelled ≤ n := hcancelled
    by_contra hrunning
    exact hw.not_inProgress hanswered hstate n ⟨hlt, hcancelled, hrunning⟩

theorem step_inTurn (hw : w.InTurn) (hok : w.Patient ev) (hstep : w.step ev = some w') :
    w'.InTurn := by
  cases ev with
  | executeGoal goal =>
      cases hstep
      exact hw.executeGoal hok.1 hok.2 goal
  | executeTwist twist =>
      cases hstep
      exact hw.leave (by simp [ChassisExecutor.executeTwist])
  | executeTwistAccel twistAccel =>
      cases hstep
      exact hw.leave (by simp [ChassisExecutor.executeTwistAccel])
  | cancel =>
      cases hstep
      exact hw.leave (by rw [cancel_executionMode]; decide)
  | update =>
      cases hstep
      exact hw.keep rfl rfl
  | response goal accepted =>
      simp only [step] at hstep
      split at hstep
      · obtain ⟨hlt, hnew⟩ := ‹goal < w.goals.length ∧ goal ∉ w.responded›
        cases hstep
        -- only the last goal may still be answered
        have hlast : goal + 1 = w.goals.length := by
          by_contra hne
          exact hnew (hw.answered goal (by omega))
        refine ⟨fun n hn => ?_, fun n hn => ?_, hw.left, fun _ _ n hn => ?_, hw.ended⟩
        · rcases List.mem_cons.mp hn with rfl | hn
          · exact hlt
          · exact hw.responded_lt n hn
        · exact List.mem_cons_of_mem goal (hw.answered n hn)
        · cases accepted with
          | false => cases hn
          | true =>
              obtain rfl : goal = n := Option.some.inj hn
              exact hlast
      · cases hstep
  | status goal status =>
      simp only [step] at hstep
      split at hstep
      · obtain ⟨-, hrunning⟩ := ‹goal < w.goals.length ∧ ¬(w.status goal).Terminal›
        cases hstep
        refine ⟨hw.responded_lt, hw.answered, hw.left, hw.handle, fun n hn hcancelled => ?_⟩
        -- a goal that has ended keeps its status
        have hended := hw.ended n hn hcancelled
        have hne : n ≠ goal := by
          rintro rfl
          exact hrunning hended
        show (Function.update w.status goal status n).Terminal
        rwa [Function.update_of_ne hne]
      · cases hstep
  | feedback path =>
      cases hstep
      refine hw.keep ?_ ?_ <;>
      · unfold ChassisExecutor.globalPlannerFeedbackCallback
        split
        · rfl
        · split <;> rfl

/-! ## Executors that wait for ever -/

/-- The executor waits for ever: it whirls, or it is in goal mode without a handle although all goals
have been answered, as the rejection of its goal leaves it. -/
inductive Halted (w : World Pose Twist TwistAccel) : Prop where
  | whirling (hmode : w.executor.executionMode = .SPEED_WITH_ACCEL_MODE)
  | rejected (hmode : w.executor.executionMode = .GOAL_MODE)
      (hhandle : w.executor.globalGoalHandle = none) (hanswered : w.Answered)

/-- No goal and no velocity has been sent, and nothing cancelled: at most routes to the local
planner. -/
structure Silent (w w' : World Pose Twist TwistAccel) : Prop where
  goals : w'.goals = w.goals
  cancelled : w'.cancelled = w.cancelled
  output : ∃ routes : List (List Pose),
    w'.executor.output = w.executor.output ++ routes.map .localGoal

theorem silent_of_eq (hgoals : w'.goals = w.goals) (hcancelled : w'.cancelled = w.cancelled)
    (houtput : w'.executor.output = w.executor.output) : Silent w w' :=
  ⟨hgoals, hcancelled, [], houtput.trans (List.append_nil _).symm⟩

theorem Silent.trans {w₁ w₂ w₃ : World Pose Twist TwistAccel} (h : Silent w₁ w₂)
    (h' : Silent w₂ w₃) : Silent w₁ w₃ := by
  obtain ⟨routes, hroutes⟩ := h.output
  obtain ⟨routes', hroutes'⟩ := h'.output
  refine ⟨h'.goals.trans h.goals, h'.cancelled.trans h.cancelled, routes ++ routes', ?_⟩
  rw [hroutes', hroutes, List.append_assoc, List.map_append]

/-- An event that is no call of `Execute` or `Cancel`. -/
def IsCallback : ExecutorEvent Pose Twist TwistAccel → Prop
  | .executeGoal _ => False
  | .executeTwist _ => False
  | .executeTwistAccel _ => False
  | .cancel => False
  | .update => True
  | .response _ _ => True
  | .status _ _ => True
  | .feedback _ => True

theorem patient_of_isCallback (h : IsCallback ev) : w.Patient ev := by
  cases ev with
  | executeGoal goal => cases h
  | _ => trivial

/-- A halted executor answers that it is running. -/
theorem Halted.update (h : w.Halted) : (w.executor.update w.status).2 = .RUNNING := by
  unfold ChassisExecutor.update
  cases h with
  | whirling hmode => rw [hmode]
  | rejected hmode hhandle => rw [hmode, hhandle]

theorem Halted.keep (h : w.Halted)
    (hmode : w'.executor.executionMode = w.executor.executionMode)
    (hhandle : w'.executor.globalGoalHandle = w.executor.globalGoalHandle)
    (hanswered : w.Answered → w'.Answered) : w'.Halted := by
  cases h with
  | whirling h => exact .whirling (hmode.trans h)
  | rejected h hnone hall => exact .rejected (hmode.trans h) (hhandle.trans hnone) (hanswered hall)

/-- No callback wakes a halted executor. -/
theorem Halted.callback (h : w.Halted) (hev : IsCallback ev) (hstep : w.step ev = some w') :
    w'.Halted ∧ Silent w w' := by
  cases ev with
  | executeGoal goal => cases hev
  | executeTwist twist => cases hev
  | executeTwistAccel twistAccel => cases hev
  | cancel => cases hev
  | update =>
      cases hstep
      exact ⟨h.keep rfl rfl fun hall => hall, silent_of_eq rfl rfl rfl⟩
  | response goal accepted =>
      simp only [step] at hstep
      split at hstep
      · obtain ⟨hlt, hnew⟩ := ‹goal < w.goals.length ∧ goal ∉ w.responded›
        cases hstep
        refine ⟨?_, silent_of_eq rfl rfl rfl⟩
        cases h with
        | whirling hmode => exact .whirling hmode
        | rejected hmode hhandle hanswered => exact absurd (hanswered goal hlt) hnew
      · cases hstep
  | status goal status =>
      simp only [step] at hstep
      split at hstep
      · cases hstep
        exact ⟨h.keep rfl rfl fun hall => hall, silent_of_eq rfl rfl rfl⟩
      · cases hstep
  | feedback path =>
      cases hstep
      have hsent : ∃ routes : List (List Pose), w.executor.globalPlannerFeedbackCallback path =
          w.executor.send (routes.map .localGoal) := by
        unfold ChassisExecutor.globalPlannerFeedbackCallback
        split
        · exact ⟨[], by rw [List.map_nil, ChassisExecutor.send, List.append_nil]⟩
        · split
          · exact ⟨[], by rw [List.map_nil, ChassisExecutor.send, List.append_nil]⟩
          · exact ⟨[_], rfl⟩
      obtain ⟨routes, hroutes⟩ := hsent
      rw [hroutes]
      exact ⟨h.keep rfl rfl fun hall => hall, rfl, rfl, routes, rfl⟩

end RoboRTS.Decision.World
