import RoboRTS.Planning.GlobalPlanner.Node
import RoboRTS.Lib.ThreadTable

/-!
# Hand-over of goals to the plan thread

When goals are served one after the other, each `Execute` thread stores its goal once every earlier
handle has its result and `PlanThread` works on no goal (`OneAtATime`). Then no goal is overwritten
by a pose that belongs to another handle but a later one, and a handle succeeds by a plan for its
own goal (`run_handOver`). Without the condition both fail.
-/

namespace RoboRTS.GlobalPlanner

open Common

/-- `PlanThread` works on a goal that it has read and may still store a pose or report success. -/
def PlanPc.InWindow : PlanPc → Prop
  | .transform | .plan | .judge | .storePathEnd | .setSuccess => True
  | .wait | .spin | .getPose _ | .readGoal | .setFailure | .setError | .checkTime => False

instance : ∀ pc : PlanPc, Decidable pc.InWindow
  | .transform | .plan | .judge | .storePathEnd | .setSuccess => inferInstanceAs (Decidable True)
  | .wait | .spin | .getPose _ | .readGoal | .setFailure | .setError | .checkTime =>
      inferInstanceAs (Decidable False)

namespace ExecutePc

/-- The thread has set the node state to running, or found it running, and has not returned. -/
def Serving : ExecutePc → Prop
  | .storeGoal | .checkState | .setRunning | .done => False
  | .notify | .poll | .canceled | .readState | .readError | .report | .feedback | .finish
  | .setIdle => True

/-- The thread holds a node state that it has read and not yet acted on. -/
def Reading : ExecutePc → Prop
  | .readError | .report | .feedback | .finish => True
  | .storeGoal | .checkState | .setRunning | .notify | .poll | .canceled | .readState | .setIdle
  | .done => False

theorem Serving.ne {pc : ExecutePc} (h : pc.Serving) : pc ≠ .storeGoal ∧ pc ≠ .done := by
  constructor <;> rintro rfl <;> exact h

end ExecutePc

/-- A goal of an `Execute` thread is overwritten by a later one's or by a version of itself. -/
def GoalStore.Proper (s : GoalStore) : Prop :=
  match s.writer with
  | .execute k => ∀ j, s.previous = some j → j < k
  | .planThread => s.goal = s.previous

namespace GlobalPlannerNode

variable {Pose : Type} {config : GlobalPlannerConfig Pose} {w w' : GlobalPlannerNode Pose}
  {k : Nat} {x x' : Execute Pose}

/-- The thread of handle `j` has returned. -/
def Finished (w : GlobalPlannerNode Pose) (j : Nat) : Prop :=
  (w.executes j).map Execute.pc = some .done

instance (w : GlobalPlannerNode Pose) (j : Nat) : Decidable (w.Finished j) :=
  inferInstanceAs (Decidable (_ = _))

/-- No goal is lost or mixed up: every goal is overwritten properly, and a handle succeeds by a plan
for its own goal. -/
def HandedOver (w : GlobalPlannerNode Pose) : Prop :=
  (∀ s ∈ w.stores, s.Proper) ∧
    ∀ r ∈ w.results, r.terminal = .succeeded → r.planFor = some r.handle

/-- The step condition: a thread stores its goal when the threads of all earlier handles have
returned and `PlanThread` works on no goal. -/
def OneAtATime (w : GlobalPlannerNode Pose) : GlobalPlannerEvent Pose → Prop
  | .execute k => (w.executes k).map Execute.pc = some .storeGoal →
      (∀ j < k, w.Finished j) ∧ ¬ w.planThread.pc.InWindow
  | .accept _ | .cancel _ | .planThread _ => True

instance : ∀ (w : GlobalPlannerNode Pose) (e : GlobalPlannerEvent Pose), Decidable (w.OneAtATime e)
  | w, .execute k => inferInstanceAs (Decidable ((w.executes k).map Execute.pc = some .storeGoal →
      (∀ j < k, w.Finished j) ∧ ¬ w.planThread.pc.InWindow))
  | _, .accept _ | _, .cancel _ | _, .planThread _ => inferInstanceAs (Decidable True)

/-! ## The invariant -/

/-- What holds while goals are served one at a time. -/
structure Serves (w : GlobalPlannerNode Pose) : Prop where
  fresh : ∀ k, w.accepted ≤ k → w.executes k = none
  order : ∀ k x, w.executes k = some x → x.pc ≠ .storeGoal → ∀ j < k, w.Finished j
  owner : ∀ k x, w.executes k = some x → x.pc ≠ .storeGoal → x.pc ≠ .done → w.goalOf = some k
  stored : ∀ k, w.goalOf = some k → ∃ x, w.executes k = some x ∧ x.pc ≠ .storeGoal
  window : w.planThread.pc.InWindow → w.planThread.planFor = w.goalOf
  running : w.nodeState = .RUNNING → ∃ k x, w.executes k = some x ∧ x.pc.Serving
  success : ∀ k x, w.executes k = some x → x.pc.Serving → w.nodeState = .SUCCESS →
    w.successOf = some k
  reading : ∀ k x, w.executes k = some x → x.pc.Reading → x.nodeState = .SUCCESS →
    x.planFor = some k
  handedOver : w.HandedOver

theorem start_serves (pose : Pose) : (start pose).Serves where
  fresh _ _ := rfl
  order _ _ h := nomatch h
  owner _ _ h := nomatch h
  stored _ h := nomatch h
  window h := h.elim
  running h := nomatch h
  success _ _ h := nomatch h
  reading _ _ h := nomatch h
  handedOver := ⟨fun _ h => (nomatch h), fun _ h => (nomatch h)⟩

@[simp] theorem setExecute_self (w : GlobalPlannerNode Pose) (k : Nat) (x : Execute Pose) :
    (w.setExecute k x).executes k = some x :=
  Function.update_self ..

theorem setExecute_of_ne {j : Nat} (hj : j ≠ k) (w : GlobalPlannerNode Pose) (x : Execute Pose) :
    (w.setExecute k x).executes j = w.executes j :=
  Function.update_of_ne hj ..

/-- A thread after thread `k` has gone on is the new thread `k` or an old one. -/
theorem setExecute_cases {j : Nat} {y : Execute Pose} (hy : (w.setExecute k x).executes j = some y) :
    (j = k ∧ y = x) ∨ (j ≠ k ∧ w.executes j = some y) :=
  ThreadTable.update_cases hy

theorem finished_iff {j : Nat} : w.Finished j ↔ ∃ y, w.executes j = some y ∧ y.pc = .done :=
  Option.map_eq_some_iff

namespace Serves

/-! ### Steps that leave the threads where they are -/

theorem errors (h : w.Serves) (e : ErrorInfo) : (w.setErrorInfo e).Serves :=
  ⟨h.fresh, h.order, h.owner, h.stored, h.window, h.running, h.success, h.reading, h.handedOver⟩

theorem paths (h : w.Serves) (path : List Pose) (newPath : Bool) (pathPub : List (List Pose))
    (feedbacks : List (GoalFeedback Pose)) :
    Serves { w with path := path, newPath := newPath, pathPub := pathPub, feedbacks := feedbacks } :=
  ⟨h.fresh, h.order, h.owner, h.stored, h.window, h.running, h.success, h.reading, h.handedOver⟩

/-- A result; a success is by a plan for the handle. -/
theorem terminate (h : w.Serves) (terminal : Terminal) (e : ErrorInfo) (planFor : Option Nat)
    (hplan : terminal = .succeeded → planFor = some k) :
    (w.terminate k terminal e planFor).Serves := by
  refine ⟨h.fresh, h.order, h.owner, h.stored, h.window, h.running, h.success, h.reading,
    h.handedOver.1, fun r hr hterminal => ?_⟩
  rcases List.mem_append.mp hr with hold | hnew
  · exact h.handedOver.2 r hold hterminal
  · rw [List.mem_singleton.mp hnew] at hterminal ⊢
    exact hplan hterminal

/-- A node state that is neither running nor success. -/
theorem setNodeState (h : w.Serves) {s : NodeState} (hrunning : s ≠ .RUNNING)
    (hsuccess : s ≠ .SUCCESS) : (w.setNodeState s).Serves :=
  ⟨h.fresh, h.order, h.owner, h.stored, h.window, fun hs => absurd hs hrunning,
    fun _ _ _ _ hs => absurd hs hsuccess, h.reading, h.handedOver⟩

theorem setRunning (h : w.Serves) (hx : w.executes k = some x) (hserving : x.pc.Serving) :
    (w.setNodeState .RUNNING).Serves :=
  ⟨h.fresh, h.order, h.owner, h.stored, h.window, fun _ => ⟨k, x, hx, hserving⟩,
    fun _ _ _ _ hs => (nomatch hs), h.reading, h.handedOver⟩

/-! ### Steps of the plan thread -/

/-- `PlanThread` goes on without touching the goal. -/
theorem planThread (h : w.Serves) {t : PlanThread Pose}
    (ht : t.pc.InWindow → t.planFor = w.goalOf) : (w.setPlanThread t).Serves :=
  ⟨h.fresh, h.order, h.owner, h.stored, ht, h.running, h.success, h.reading, h.handedOver⟩

/-- `PlanThread` stores a version of the goal that it works on. -/
theorem planStore (h : w.Serves) (hw : w.planThread.pc.InWindow) (pose : Pose) :
    (w.setGoal .planThread pose w.planThread.planFor).Serves := by
  have hgoal := h.window hw
  refine ⟨h.fresh, h.order, ?_, ?_, fun _ => rfl, h.running, h.success, h.reading, fun s hs => ?_,
    h.handedOver.2⟩
  · intro k x hx hs hd
    exact hgoal.trans (h.owner k x hx hs hd)
  · intro k hk
    exact h.stored k (hgoal.symm.trans hk)
  · rcases List.mem_append.mp hs with hold | hnew
    · exact h.handedOver.1 s hold
    · rw [List.mem_singleton.mp hnew]
      exact hgoal

/-- `PlanThread` reports the success of a plan for the stored goal. -/
theorem setSuccess (h : w.Serves) (hw : w.planThread.pc.InWindow) :
    Serves { w.setNodeState .SUCCESS with successOf := w.planThread.planFor } :=
  ⟨h.fresh, h.order, h.owner, h.stored, h.window, fun hs => (nomatch hs),
    fun k x hx hserving _ => (h.window hw).trans (h.owner k x hx hserving.ne.1 hserving.ne.2),
    h.reading, h.handedOver⟩

/-! ### Steps of an `Execute` thread -/

/-- Thread `k`, which has stored its goal before, goes on. -/
theorem setExecute (h : w.Serves) (hx : w.executes k = some x)
    (hstore : x'.pc = .storeGoal ↔ x.pc = .storeGoal) (hdone : x.pc = .done → x'.pc = .done)
    (hrunning : x.pc.Serving → x'.pc.Serving ∨ w.nodeState ≠ .RUNNING)
    (hsuccess : x'.pc.Serving → x.pc.Serving ∨ w.nodeState ≠ .SUCCESS)
    (hreading : x'.pc.Reading → x'.nodeState = .SUCCESS → x'.planFor = some k) :
    (w.setExecute k x').Serves := by
  have hfinished : ∀ {j}, w.Finished j → (w.setExecute k x').Finished j := by
    intro j hj
    obtain ⟨y, hy, hpc⟩ := finished_iff.mp hj
    exact finished_iff.mpr (ThreadTable.update_exists hx hdone hy hpc)
  refine ⟨?_, ?_, ?_, ?_, h.window, ?_, ?_, ?_, h.handedOver⟩
  · intro j hj
    have hne : j ≠ k := by
      rintro rfl
      rw [h.fresh j hj] at hx
      cases hx
    exact (setExecute_of_ne hne ..).trans (h.fresh j hj)
  · intro j y hy hs i hi
    rcases setExecute_cases hy with ⟨rfl, rfl⟩ | ⟨-, hold⟩
    · exact hfinished (h.order j x hx (fun hpc => hs (hstore.mpr hpc)) i hi)
    · exact hfinished (h.order j y hold hs i hi)
  · intro j y hy hs hd
    rcases setExecute_cases hy with ⟨rfl, rfl⟩ | ⟨-, hold⟩
    · exact h.owner j x hx (fun hpc => hs (hstore.mpr hpc)) fun hpc => hd (hdone hpc)
    · exact h.owner j y hold hs hd
  · intro j hj
    obtain ⟨y, hy, hs⟩ := h.stored j hj
    exact ThreadTable.update_exists hx (fun hne hpc => hne (hstore.mp hpc)) hy hs
  · intro hstate
    obtain ⟨j, y, hy, hserving⟩ := h.running hstate
    have hkeep := fun hs => (hrunning hs).resolve_right fun hne => hne hstate
    exact ⟨j, ThreadTable.update_exists hx hkeep hy hserving⟩
  · intro j y hy hs hstate
    rcases setExecute_cases hy with ⟨rfl, rfl⟩ | ⟨-, hold⟩
    · exact h.success j x hx ((hsuccess hs).resolve_right fun hne => hne hstate) hstate
    · exact h.success j y hold hs hstate
  · intro j y hy hs hstate
    rcases setExecute_cases hy with ⟨rfl, rfl⟩ | ⟨-, hold⟩
    · exact hreading hs hstate
    · exact h.reading j y hold hs hstate

/-- Thread `k` serves its handle and goes on serving it. -/
theorem serve (h : w.Serves) (hx : w.executes k = some x) (hserving : x.pc.Serving)
    (hserving' : x'.pc.Serving)
    (hreading : x'.pc.Reading → x'.nodeState = .SUCCESS → x'.planFor = some k) :
    (w.setExecute k x').Serves :=
  h.setExecute hx ⟨fun hpc => absurd hpc hserving'.ne.1, fun hpc => absurd hpc hserving.ne.1⟩
    (fun hpc => absurd hpc hserving.ne.2) (fun _ => Or.inl hserving') (fun _ => Or.inl hserving)
    hreading

/-- A thread that has stored its goal and not returned is the only such thread. -/
theorem unique (h : w.Serves) {j : Nat} {y : Execute Pose} (hx : w.executes k = some x)
    (hxs : x.pc ≠ .storeGoal) (hxd : x.pc ≠ .done) (hy : w.executes j = some y)
    (hys : y.pc ≠ .storeGoal) (hyd : y.pc ≠ .done) : j = k :=
  Option.some.inj ((h.owner j y hy hys hyd).symm.trans (h.owner k x hx hxs hxd))

/-- Thread `k` stores its goal when the earlier threads have returned. -/
theorem storeGoal (h : w.Serves) (hx : w.executes k = some x) (hpc : x.pc = .storeGoal)
    (hearlier : ∀ j < k, w.Finished j) (hw : ¬ w.planThread.pc.InWindow) :
    ((w.setGoal (.execute k) x.goal (some k)).setExecute k { x with pc := .checkState }).Serves := by
  -- no other thread is between its goal and its return
  have hothers : ∀ j y, j ≠ k → w.executes j = some y → y.pc ≠ .storeGoal →
      j < k ∧ y.pc = .done := by
    intro j y hjk hy hs
    rcases Nat.lt_or_gt_of_ne hjk with hlt | hgt
    · obtain ⟨y', hy', hdone⟩ := finished_iff.mp (hearlier j hlt)
      obtain rfl : y = y' := Option.some.inj (hy.symm.trans hy')
      exact ⟨hlt, hdone⟩
    · obtain ⟨x', hx', hdone⟩ := finished_iff.mp (h.order j y hy hs k hgt)
      obtain rfl : x = x' := Option.some.inj (hx.symm.trans hx')
      rw [hpc] at hdone
      cases hdone
  have hfinished : ∀ {j}, w.Finished j →
      ((w.setGoal (.execute k) x.goal (some k)).setExecute k
        { x with pc := .checkState }).Finished j := by
    intro j hj
    obtain ⟨y, hy, hdone⟩ := finished_iff.mp hj
    have hjk : j ≠ k := by
      rintro rfl
      obtain rfl : x = y := Option.some.inj (hx.symm.trans hy)
      rw [hpc] at hdone
      cases hdone
    exact finished_iff.mpr ⟨y, (setExecute_of_ne hjk ..).trans hy, hdone⟩
  refine ⟨?_, ?_, ?_, ?_, fun hin => absurd hin hw, ?_, ?_, ?_, fun s hs => ?_, h.handedOver.2⟩
  · intro j hj
    have hne : j ≠ k := by
      rintro rfl
      rw [h.fresh j hj] at hx
      cases hx
    exact (setExecute_of_ne hne ..).trans (h.fresh j hj)
  · intro j y hy hs i hi
    rcases setExecute_cases hy with ⟨rfl, -⟩ | ⟨-, hold⟩
    · exact hfinished (hearlier i hi)
    · exact hfinished (h.order j y hold hs i hi)
  · intro j y hy hs hd
    rcases setExecute_cases hy with ⟨rfl, -⟩ | ⟨hjk, hold⟩
    · rfl
    · exact absurd (hothers j y hjk hold hs).2 hd
  · intro j hj
    obtain rfl : k = j := Option.some.inj hj
    exact ⟨_, setExecute_self .., ExecutePc.noConfusion⟩
  · intro hstate
    obtain ⟨j, y, hy, hserving⟩ := h.running hstate
    have hjk : j ≠ k := by
      rintro rfl
      obtain rfl : x = y := Option.some.inj (hx.symm.trans hy)
      exact hserving.ne.1 hpc
    exact ⟨j, y, (setExecute_of_ne hjk ..).trans hy, hserving⟩
  · intro j y hy hs hstate
    rcases setExecute_cases hy with ⟨rfl, rfl⟩ | ⟨hjk, hold⟩
    · exact hs.elim
    · exact absurd (hothers j y hjk hold hs.ne.1).2 hs.ne.2
  · intro j y hy hs hstate
    rcases setExecute_cases hy with ⟨rfl, rfl⟩ | ⟨hjk, hold⟩
    · exact hs.elim
    · exact h.reading j y hold hs hstate
  · rcases List.mem_append.mp hs with hold | hnew
    · exact h.handedOver.1 s hold
    · rw [List.mem_singleton.mp hnew]
      intro j hj
      obtain ⟨y, hy, hys⟩ := h.stored j hj
      refine (hothers j y ?_ hy hys).1
      rintro rfl
      obtain rfl : x = y := Option.some.inj (hx.symm.trans hy)
      exact hys hpc

/-- A new thread. -/
theorem handleAccepted (h : w.Serves) (goal : Pose) : (w.handleAccepted goal).Serves := by
  have hnone := h.fresh w.accepted (Nat.le_refl _)
  have hne : ∀ {j y}, w.executes j = some y → j ≠ w.accepted := by
    rintro j y hy rfl
    rw [hnone] at hy
    cases hy
  have hkeep : ∀ {j y}, w.executes j = some y → (w.handleAccepted goal).executes j = some y :=
    fun hy => (setExecute_of_ne (hne hy) ..).trans hy
  have hfinished : ∀ {j}, w.Finished j → (w.handleAccepted goal).Finished j := by
    intro j hj
    obtain ⟨y, hy, hdone⟩ := finished_iff.mp hj
    exact finished_iff.mpr ⟨y, hkeep hy, hdone⟩
  refine ⟨?_, ?_, ?_, ?_, h.window, ?_, ?_, ?_, h.handedOver⟩
  · intro j hj
    have hj : w.accepted + 1 ≤ j := hj
    exact (setExecute_of_ne (by omega) ..).trans (h.fresh j (by omega))
  · intro j y hy hs i hi
    rcases setExecute_cases hy with ⟨rfl, rfl⟩ | ⟨-, hold⟩
    · exact absurd rfl hs
    · exact hfinished (h.order j y hold hs i hi)
  · intro j y hy hs hd
    rcases setExecute_cases hy with ⟨rfl, rfl⟩ | ⟨-, hold⟩
    · exact absurd rfl hs
    · exact h.owner j y hold hs hd
  · intro j hj
    obtain ⟨y, hy, hs⟩ := h.stored j hj
    exact ⟨y, hkeep hy, hs⟩
  · intro hstate
    obtain ⟨j, y, hy, hserving⟩ := h.running hstate
    exact ⟨j, y, hkeep hy, hserving⟩
  · intro j y hy hs hstate
    rcases setExecute_cases hy with ⟨rfl, rfl⟩ | ⟨-, hold⟩
    · exact hs.elim
    · exact h.success j y hold hs hstate
  · intro j y hy hs hstate
    rcases setExecute_cases hy with ⟨rfl, rfl⟩ | ⟨-, hold⟩
    · exact hs.elim
    · exact h.reading j y hold hs hstate

end Serves

/-! ## Steps and runs -/

theorem executeStep_serves (h : w.Serves) (hx : w.executes k = some x)
    (hok : x.pc = .storeGoal → (∀ j < k, w.Finished j) ∧ ¬ w.planThread.pc.InWindow)
    (hstep : w.executeStep k x = some w') : w'.Serves := by
  unfold executeStep at hstep
  cases hpc : x.pc <;> rw [hpc] at hstep <;> dsimp only at hstep
  case storeGoal =>
    cases hstep
    exact h.storeGoal hx hpc (hok hpc).1 (hok hpc).2
  case checkState =>
    -- a running state would be that of another thread that has not returned
    have hidle : w.nodeState ≠ .RUNNING := by
      intro hrunning
      obtain ⟨j, y, hy, hserving⟩ := h.running hrunning
      obtain rfl := h.unique hx (by rw [hpc]; decide) (by rw [hpc]; decide) hy hserving.ne.1
        hserving.ne.2
      obtain rfl : x = y := Option.some.inj (hx.symm.trans hy)
      rw [hpc] at hserving
      exact hserving
    rw [if_neg hidle] at hstep
    cases hstep
    exact h.setExecute hx (by simp [hpc]) (by simp [hpc]) (by simp [hpc, ExecutePc.Serving])
      (fun hs => hs.elim) (fun hs => hs.elim)
  case setRunning =>
    cases hstep
    have hmoved : Serves ((w.setNodeState .IDLE).setExecute k { x with pc := .notify }) :=
      (h.setNodeState (s := .IDLE) (by decide) (by decide)).setExecute hx
        (by simp [hpc]) (by simp [hpc]) (by simp [hpc, ExecutePc.Serving])
        (fun _ => Or.inr (by simp [GlobalPlannerNode.setNodeState])) (fun hs => hs.elim)
    exact hmoved.setRunning (setExecute_self ..) trivial
  case notify =>
    split at hstep
    · cases hstep
      exact h.serve hx (by rw [hpc]; trivial) trivial fun hs => hs.elim
    · cases hstep
  case poll =>
    cases hstep
    refine h.serve hx (by rw [hpc]; trivial) ?_ ?_
    · dsimp only
      split <;> trivial
    · dsimp only
      split <;> exact fun hs => hs.elim
  case canceled =>
    cases hstep
    exact (h.terminate .canceled _ none (fun ht => nomatch ht)).serve hx (by rw [hpc]; trivial) trivial
      fun hs => hs.elim
  case readState =>
    cases hstep
    have hserving : x.pc.Serving := by rw [hpc]; trivial
    exact h.serve hx hserving trivial fun _ hsuccess => h.success k x hx hserving hsuccess
  case readError =>
    cases hstep
    exact h.serve hx (by rw [hpc]; trivial) trivial fun _ => h.reading k x hx (by rw [hpc]; trivial)
  case report =>
    have hreading := h.reading k x hx (by rw [hpc]; trivial)
    have hserving : x.pc.Serving := by rw [hpc]; trivial
    split_ifs at hstep <;> cases hstep
    · exact (h.errors _).serve hx hserving trivial fun _ => hreading
    · exact h.serve hx hserving trivial fun _ => hreading
    · exact h.serve hx hserving trivial fun _ => hreading
    · exact h.serve hx hserving trivial fun hs => hs.elim
  case feedback =>
    cases hstep
    exact (h.paths _ _ _ _).serve hx (by rw [hpc]; trivial) trivial
      fun _ => h.reading k x hx (by rw [hpc]; trivial)
  case finish =>
    have hreading := h.reading k x hx (by rw [hpc]; trivial)
    have hserving : x.pc.Serving := by rw [hpc]; trivial
    cases hstate : x.nodeState <;> rw [hstate] at hstep <;> cases hstep
    case SUCCESS =>
      exact (h.terminate .succeeded _ x.planFor (fun _ => hreading hstate)).serve hx hserving trivial
        fun hs => hs.elim
    case FAILURE =>
      exact (h.terminate .aborted _ none (fun ht => nomatch ht)).serve hx hserving trivial
        fun hs => hs.elim
    all_goals exact h.serve hx hserving trivial fun hs => hs.elim
  case setIdle =>
    cases hstep
    exact (h.setNodeState (s := .IDLE) (by decide) (by decide)).setExecute hx (by simp [hpc])
      (by simp [hpc]) (fun _ => Or.inr (by simp [GlobalPlannerNode.setNodeState]))
      (fun hs => hs.elim) (fun hs => hs.elim)
  case done => cases hstep

theorem planStep_serves (h : w.Serves) {input : PlanInput Pose}
    (hstep : w.planStep config input = some w') : w'.Serves := by
  unfold planStep at hstep
  dsimp only at hstep
  cases hpc : w.planThread.pc <;> rw [hpc] at hstep <;> dsimp only at hstep
  case wait =>
    cases hstep
    exact h.planThread fun hw => hw.elim
  case spin =>
    cases hstep
    refine h.planThread ?_
    dsimp only
    split <;> exact fun hw => hw.elim
  case getPose errorSet =>
    split at hstep
    · cases hstep
      exact h.planThread fun hw => hw.elim
    · split at hstep
      · cases hstep
        exact h
      · cases hstep
        exact (h.errors _).planThread fun hw => hw.elim
  case readGoal =>
    cases hstep
    exact h.planThread fun _ => rfl
  case transform =>
    cases hstep
    exact (h.planStore (by rw [hpc]; trivial) _).planThread fun _ => rfl
  case plan =>
    cases hstep
    exact h.planThread fun _ => h.window (by rw [hpc]; trivial)
  case judge =>
    have hwindow := h.window (by rw [hpc]; trivial)
    split_ifs at hstep <;> cases hstep
    · exact (h.paths _ _ _ _).planThread fun _ => hwindow
    · exact h.planThread fun hw => hw.elim
    · exact h.planThread fun hw => hw.elim
    · exact h.planThread fun hw => hw.elim
  case storePathEnd =>
    obtain ⟨pose, -, rfl⟩ := Option.map_eq_some_iff.mp hstep
    exact (h.planStore (by rw [hpc]; trivial) pose).planThread fun _ => rfl
  case setSuccess =>
    cases hstep
    exact (h.setSuccess (by rw [hpc]; trivial)).planThread fun hw => hw.elim
  case setFailure =>
    cases hstep
    exact (h.setNodeState (by decide) (by decide)).planThread fun hw => hw.elim
  case setError =>
    cases hstep
    exact (h.errors _).planThread fun hw => hw.elim
  case checkTime =>
    split_ifs at hstep <;> cases hstep
    · exact (h.errors _).planThread fun hw => hw.elim
    · exact h.planThread fun hw => hw.elim

theorem step_serves {e : GlobalPlannerEvent Pose} (h : w.Serves) (hok : w.OneAtATime e)
    (hstep : w.step config e = some w') : w'.Serves := by
  cases e with
  | accept goal =>
      cases hstep
      exact h.handleAccepted goal
  | cancel k =>
      obtain ⟨x, hx, rfl⟩ := Option.map_eq_some_iff.mp hstep
      exact h.setExecute hx Iff.rfl id Or.inl Or.inl (h.reading k x hx)
  | execute k =>
      obtain ⟨x, hx, hstep⟩ := Option.bind_eq_some_iff.mp hstep
      refine executeStep_serves h hx (fun hpc => hok ?_) hstep
      rw [hx, Option.map_some, hpc]
  | planThread input => exact planStep_serves h hstep

/-- In every run whose goals are served one at a time, no stored goal is overwritten but by a later
thread's or a version of itself, and a handle succeeds by a plan for its own goal. -/
theorem run_handOver (config : GlobalPlannerConfig Pose) (pose : Pose)
    (events : List (GlobalPlannerEvent Pose)) (w : GlobalPlannerNode Pose)
    (hserved : StateMachine.Along (step config) OneAtATime (start pose) events)
    (hrun : StateMachine.run (step config) (start pose) events = some w) : w.HandedOver :=
  (StateMachine.run_invariant_of (P := Serves) (fun _ _ _ h hok hstep => step_serves h hok hstep)
    (start_serves pose) hserved hrun).handedOver

/-! ## Two runs -/

/-- Every pose is a global one and at the goal. -/
def nearConfig : GlobalPlannerConfig Nat := ⟨3, fun _ => true, fun _ _ => true⟩

/-- `n` steps of `PlanThread`, which finds the path to `pose`. -/
def planSteps (n pose : Nat) : List (GlobalPlannerEvent Nat) :=
  List.replicate n (.planThread ⟨some 0, pose, (.OK, [pose]), false⟩)

/-- One goal is planned for and reached. -/
def oneGoal : List (GlobalPlannerEvent Nat) :=
  .accept 1 :: List.replicate 4 (.execute 0) ++ planSteps 8 1 ++ List.replicate 6 (.execute 0)

/-- A second goal arrives while `PlanThread` plans for the first one. -/
def twoGoals : List (GlobalPlannerEvent Nat) :=
  .accept 1 :: List.replicate 4 (.execute 0) ++ planSteps 5 1 ++
    .accept 2 :: List.replicate 2 (.execute 1) ++ planSteps 5 1 ++ List.replicate 7 (.execute 1)

theorem run_handOver_oneGoal :
    ∃ w, StateMachine.run (step nearConfig) (start 0) oneGoal = some w ∧
      w.results = [⟨0, .succeeded, .OK, some 0⟩] ∧ w.HandedOver := by
  obtain ⟨w, hw⟩ := Option.isSome_iff_exists.mp
    (show (StateMachine.run (step nearConfig) (start 0) oneGoal).isSome = true by decide +kernel)
  have hresults : (StateMachine.run (step nearConfig) (start 0) oneGoal).map results =
      some [⟨0, .succeeded, .OK, some 0⟩] := by decide +kernel
  rw [hw, Option.map_some, Option.some.injEq] at hresults
  exact ⟨w, hw, hresults, run_handOver nearConfig 0 oneGoal w (by decide +kernel) hw⟩

/-- The plan for the first goal overwrites the second one, and the second handle succeeds by it. -/
theorem planThread_overwrites_new_goal :
    (¬ ∀ (config : GlobalPlannerConfig Nat) (pose : Nat) (events : List (GlobalPlannerEvent Nat))
        (w : GlobalPlannerNode Nat),
        StateMachine.run (step config) (start pose) events = some w → ∀ s ∈ w.stores, s.Proper) ∧
      ¬ ∀ (config : GlobalPlannerConfig Nat) (pose : Nat) (events : List (GlobalPlannerEvent Nat))
        (w : GlobalPlannerNode Nat),
        StateMachine.run (step config) (start pose) events = some w →
          ∀ r ∈ w.results, r.terminal = .succeeded → r.planFor = some r.handle := by
  obtain ⟨w, hw⟩ := Option.isSome_iff_exists.mp
    (show (StateMachine.run (step nearConfig) (start 0) twoGoals).isSome = true by decide +kernel)
  have hlogs : (StateMachine.run (step nearConfig) (start 0) twoGoals).map
      (fun w => (w.stores.getLast?, w.results)) =
        some (some ⟨.planThread, some 1, some 0⟩, [⟨1, .succeeded, .OK, some 0⟩]) := by
    decide +kernel
  rw [hw, Option.map_some, Option.some.injEq, Prod.mk.injEq] at hlogs
  obtain ⟨hstore, hresults⟩ := hlogs
  constructor <;> intro hall
  · have hproper := hall _ _ _ w hw _ (List.mem_of_getLast? hstore)
    exact absurd hproper (by simp [GoalStore.Proper])
  · have hplan := hall _ _ _ w hw ⟨1, .succeeded, .OK, some 0⟩ (by rw [hresults]; simp) rfl
    exact absurd hplan (by decide)

end GlobalPlannerNode

end RoboRTS.GlobalPlanner
