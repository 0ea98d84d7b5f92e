import RoboRTS.Detection.ArmorDetection.Node
import RoboRTS.Lib.ThreadTable

/-!
# Control of the detection thread

The wait of `ExecuteLoop` has no predicate, and `StopThread` joins without a notification. Where no
`StartThread` finds the node idle before the old thread is joined, no notification comes between the
test of the state and the wait, and no `StopThread` meets a paused loop (`Heeded`), one thread runs
at a time and the loop never sleeps through a start or a stop (`run_controlled`). Every other step
leads to a failure by steps of the threads that are there already (`exists_uncontrolled`).
-/

namespace RoboRTS.Detection

open Common

/-- The call is a `StopThread` that has set the state and not joined. -/
def CallPc.IsStopping (pc : CallPc) : Prop :=
  pc = .stopRunning ∨ pc = .stopJoinable ∨ pc = .stopJoin

instance (pc : CallPc) : Decidable pc.IsStopping :=
  inferInstanceAs (Decidable (_ ∨ _))

namespace ArmorDetectionNode

variable {w w' : ArmorDetectionNode} {j k : Nat} {pc old : CallPc}

/-- A `StartThread` has set the state and has yet to notify. -/
def NotifyPending (w : ArmorDetectionNode) : Prop :=
  ∃ k < w.accepted, w.calls k = some .startNotify

/-- Thread control does what it is for: the thread object is assigned only when it is free, and the
loop is not blocked when a completed `StartThread` wants it to run or a `StopThread` waits for its
end, unless it is about to be notified. -/
structure Controlled (w : ArmorDetectionNode) : Prop where
  assigned : w.terminated ≠ some .threadAssigned
  started : w.loop = some .waiting → w.nodeState = .RUNNING →
    (∃ k < w.accepted, w.calls k = some .startDone) → w.NotifyPending
  stopped : w.loop = some .waiting → (∃ k < w.accepted, w.calls k = some .stopJoin) →
    w.NotifyPending

/-- A `StartThread` has found the node idle and has yet to start the thread. -/
def Starting (w : ArmorDetectionNode) : Prop :=
  ∃ k < w.accepted, w.calls k = some .startThread

/-- A `StopThread` has set the state and not joined. -/
def Stopping (w : ArmorDetectionNode) : Prop :=
  ∃ k < w.accepted, (w.calls k).any (fun pc => decide pc.IsStopping) = true

/-- The loop waits, or has found the node paused and is about to. -/
def Parked (w : ArmorDetectionNode) : Prop :=
  w.loop = some .wait ∨ w.loop = some .waiting

instance (w : ArmorDetectionNode) : Decidable w.NotifyPending :=
  inferInstanceAs (Decidable (∃ k < w.accepted, _))

instance (w : ArmorDetectionNode) : Decidable w.Starting :=
  inferInstanceAs (Decidable (∃ k < w.accepted, _))

instance (w : ArmorDetectionNode) : Decidable w.Stopping :=
  inferInstanceAs (Decidable (∃ k < w.accepted, _))

instance (w : ArmorDetectionNode) : Decidable w.Parked :=
  inferInstanceAs (Decidable (_ ∨ _))

/-- The step condition. A `StartThread` finds the node idle when the thread object is free and no
other one is about to assign it; a notification does not come between the test of the state and the
wait, where it would be the last one that a start or a stop needs; a `StopThread` does not begin
while the loop is parked, and the loop does not find the node paused during one, unless it is about
to be notified. -/
def Heeded (w : ArmorDetectionNode) : ArmorDetectionEvent → Prop
  | .call k =>
      (w.calls k = some .startTest → w.nodeState = .IDLE → w.joinable = false ∧ ¬ w.Starting) ∧
      (w.calls k = some .startNotify → w.loop = some .wait →
        w.nodeState = .RUNNING ∨ w.Stopping →
        ∃ j < w.accepted, j ≠ k ∧ w.calls j = some .startNotify) ∧
      (w.calls k = some .stopState → w.Parked → w.NotifyPending)
  | .executeLoop => w.loop = some .testPause → w.nodeState = .PAUSE → w.Stopping → w.NotifyPending
  | .accept _ | .wakeUp => True

instance : ∀ (w : ArmorDetectionNode) (e : ArmorDetectionEvent), Decidable (w.Heeded e)
  | w, .call k => inferInstanceAs (Decidable
      ((w.calls k = some .startTest → w.nodeState = .IDLE → w.joinable = false ∧ ¬ w.Starting) ∧
      (w.calls k = some .startNotify → w.loop = some .wait →
        w.nodeState = .RUNNING ∨ w.Stopping →
        ∃ j < w.accepted, j ≠ k ∧ w.calls j = some .startNotify) ∧
      (w.calls k = some .stopState → w.Parked → w.NotifyPending)))
  | w, .executeLoop => inferInstanceAs (Decidable
      (w.loop = some .testPause → w.nodeState = .PAUSE → w.Stopping → w.NotifyPending))
  | _, .accept _ | _, .wakeUp => inferInstanceAs (Decidable True)

/-! ## The table of calls -/

theorem stopping_iff :
    w.Stopping ↔ ∃ k < w.accepted, ∃ pc, w.calls k = some pc ∧ pc.IsStopping := by
  simp only [Stopping, Option.any_eq_true, decide_eq_true_eq]

@[simp] theorem goTo_calls_self : (w.goTo k pc).calls k = some pc :=
  Function.update_self ..

theorem goTo_calls_of_ne (h : j ≠ k) : (w.goTo k pc).calls j = w.calls j :=
  Function.update_of_ne h ..

/-- A pending notification stays pending while another call goes on. -/
theorem NotifyPending.goTo (h : w.NotifyPending) (hk : w.calls k ≠ some .startNotify) :
    (w.goTo k pc).NotifyPending := by
  obtain ⟨j, hj, hpc⟩ := h
  refine ⟨j, hj, ?_⟩
  rw [goTo_calls_of_ne, hpc]
  rintro rfl
  exact hk hpc

/-- A `StopThread` that is on its way was so before, unless it is the call that went on. -/
theorem Stopping.of_goTo (h : (w.goTo k pc).Stopping) (hpc : ¬ pc.IsStopping) : w.Stopping := by
  rw [stopping_iff] at h ⊢
  obtain ⟨j, hj, pc', hpc', hstop⟩ := h
  rcases ThreadTable.update_cases hpc' with ⟨-, rfl⟩ | ⟨-, hold⟩
  · exact absurd hstop hpc
  · exact ⟨j, hj, pc', hold, hstop⟩

theorem stopping_of_call (hk : k < w.accepted) (hold : w.calls k = some old)
    (hstop : old.IsStopping) : w.Stopping :=
  stopping_iff.mpr ⟨k, hk, old, hold, hstop⟩

/-- Only a call that goes on to start the thread adds a `StartThread` that is about to. -/
theorem calls_of_goTo_startThread (hpc : pc ≠ .startThread)
    (h : (w.goTo k pc).calls j = some .startThread) :
    j ≠ k ∧ w.calls j = some .startThread := by
  rcases ThreadTable.update_cases h with ⟨-, heq⟩ | ⟨hne, hold⟩
  · exact absurd heq.symm hpc
  · exact ⟨hne, hold⟩

/-! ## The invariant -/

/-- What holds in every state of a run whose steps are heeded. -/
structure ControlInv (w : ArmorDetectionNode) : Prop where
  known : ∀ k pc, w.calls k = some pc → k < w.accepted
  alive : w.loop ≠ none → w.joinable = true
  one : ∀ j k, w.calls j = some .startThread → w.calls k = some .startThread → j = k
  free : ∀ k, w.calls k = some .startThread → w.joinable = false
  woken : w.Parked → w.nodeState = .RUNNING ∨ w.Stopping → w.NotifyPending
  assigned : w.terminated ≠ some .threadAssigned

theorem ControlInv.controlled (h : w.ControlInv) : w.Controlled where
  assigned := h.assigned
  started hloop hstate _ := h.woken (Or.inr hloop) (Or.inl hstate)
  stopped hloop hstop := by
    obtain ⟨k, hk, hpc⟩ := hstop
    exact h.woken (Or.inr hloop)
      (Or.inr (stopping_of_call hk hpc (Or.inr (Or.inr rfl))))

theorem initial_inv (running : Bool) : (initial running).ControlInv where
  known _ _ h := absurd h (by simp [initial])
  alive h := absurd rfl h
  one _ _ h := absurd h (by simp [initial])
  free _ h := absurd h (by simp [initial])
  woken h := absurd h (by simp [Parked, initial])
  assigned h := absurd h (by simp [initial])

/-- A call goes on without a thread to start or a notification to give up, and the state does not
become running. -/
theorem ControlInv.goTo {v : ArmorDetectionNode} (h : w.ControlInv) (hk : w.calls k = some old)
    (hold : old ≠ .startNotify) (hpc : pc ≠ .startThread)
    (hstop : pc.IsStopping → old.IsStopping)
    (haccepted : v.accepted = w.accepted) (hcalls : v.calls = w.calls) (hloop : v.loop = w.loop)
    (hjoinable : v.joinable = w.joinable) (hterminated : v.terminated = w.terminated)
    (hstate : v.nodeState = .RUNNING → w.nodeState = .RUNNING) : (v.goTo k pc).ControlInv := by
  have hlt := h.known k old hk
  constructor
  case known =>
    intro j pc' hj
    show j < v.accepted
    rw [haccepted]
    rcases ThreadTable.update_cases hj with ⟨rfl, -⟩ | ⟨-, hj⟩
    · exact hlt
    · exact h.known j pc' (by rw [← hcalls]; exact hj)
  case alive =>
    show v.loop ≠ none → v.joinable = true
    rw [hloop, hjoinable]
    exact h.alive
  case one =>
    intro i j hi hj
    have hi := (calls_of_goTo_startThread hpc hi).2
    have hj := (calls_of_goTo_startThread hpc hj).2
    rw [hcalls] at hi hj
    exact h.one i j hi hj
  case free =>
    intro j hj
    have hj := (calls_of_goTo_startThread hpc hj).2
    rw [hcalls] at hj
    show v.joinable = false
    rw [hjoinable]
    exact h.free j hj
  case woken =>
    intro hparked hor
    have hpending : w.NotifyPending := by
      refine h.woken (by rw [Parked, ← hloop]; exact hparked) ?_
      rcases hor with hrunning | hstopping
      · exact Or.inl (hstate hrunning)
      · by_cases hp : pc.IsStopping
        · exact Or.inr (stopping_of_call hlt hk (hstop hp))
        · have hback := hstopping.of_goTo hp
          rw [Stopping, haccepted, hcalls] at hback
          exact Or.inr hback
    have hv : v.NotifyPending := by
      rw [NotifyPending, haccepted, hcalls]
      exact hpending
    refine hv.goTo ?_
    rw [hcalls, hk]
    exact fun heq => hold (Option.some.inj heq)
  case assigned =>
    show v.terminated ≠ _
    rw [hterminated]
    exact h.assigned

theorem ControlInv.known_goTo (h : w.ControlInv) (hk : w.calls k = some old) :
    ∀ j pc', (w.goTo k pc).calls j = some pc' → j < w.accepted := by
  intro j pc' hj
  rcases ThreadTable.update_cases hj with ⟨rfl, -⟩ | ⟨-, hj⟩
  · exact h.known _ _ hk
  · exact h.known j pc' hj

/-- A `StartThread` finds the node idle. -/
theorem ControlInv.startTest_idle (h : w.ControlInv) (hk : w.calls k = some .startTest)
    (hjoinable : w.joinable = false) (hstarting : ¬ w.Starting) :
    (w.goTo k .startThread).ControlInv := by
  have hnone : ∀ j, (w.goTo k .startThread).calls j = some .startThread → j = k := by
    intro j hj
    rcases ThreadTable.update_cases hj with ⟨rfl, -⟩ | ⟨-, hold⟩
    · rfl
    · exact absurd ⟨j, h.known j _ hold, hold⟩ hstarting
  constructor
  case known => exact h.known_goTo hk
  case alive => exact h.alive
  case one =>
    intro i j hi hj
    rw [hnone i hi, hnone j hj]
  case free => exact fun _ _ => hjoinable
  case woken =>
    intro hparked hor
    refine NotifyPending.goTo (h.woken hparked (hor.imp_right fun hs => ?_)) ?_
    · exact hs.of_goTo (by decide)
    · rw [hk]
      decide
  case assigned => exact h.assigned

/-- A `StartThread` starts the thread. -/
theorem ControlInv.startThread (h : w.ControlInv) (hk : w.calls k = some .startThread) :
    ({ w with joinable := true, loop := some .test }.goTo k .startState).ControlInv := by
  have hnone : ∀ j, (w.goTo k .startState).calls j ≠ some .startThread := by
    intro j hj
    obtain ⟨hne, hold⟩ := calls_of_goTo_startThread (by decide) hj
    exact hne (h.one j k hold hk)
  constructor
  case known => exact h.known_goTo hk
  case alive => exact fun _ => rfl
  case one => exact fun i _ hi => absurd hi (hnone i)
  case free => exact fun i hi => absurd hi (hnone i)
  case woken =>
    rintro (hparked | hparked) <;> cases hparked
  case assigned => exact h.assigned

/-- A `StartThread` sets the state, and is to notify. -/
theorem ControlInv.startState (h : w.ControlInv) (hk : w.calls k = some .startState) :
    ({ w with nodeState := .RUNNING }.goTo k .startNotify).ControlInv where
  known := h.known_goTo hk
  alive := h.alive
  one i j hi hj := h.one i j (calls_of_goTo_startThread (by decide) hi).2
    (calls_of_goTo_startThread (by decide) hj).2
  free j hj := h.free j (calls_of_goTo_startThread (by decide) hj).2
  woken _ _ := ⟨k, h.known k _ hk, goTo_calls_self⟩
  assigned := h.assigned

/-- A `StartThread` notifies. -/
theorem ControlInv.startNotify (h : w.ControlInv) (hk : w.calls k = some .startNotify)
    (hheeded : w.loop = some .wait → w.nodeState = .RUNNING ∨ w.Stopping →
      ∃ j < w.accepted, j ≠ k ∧ w.calls j = some .startNotify) :
    ({ w with loop := if w.loop = some LoopPc.waiting then some LoopPc.test else w.loop }.goTo k
      .startDone).ControlInv := by
  constructor
  case known => exact h.known_goTo hk
  case alive =>
    show (if w.loop = some LoopPc.waiting then some LoopPc.test else w.loop) ≠ none → _
    intro hloop
    refine h.alive fun hnone => ?_
    rw [hnone] at hloop
    exact hloop rfl
  case one =>
    exact fun i j hi hj => h.one i j (calls_of_goTo_startThread (by decide) hi).2
      (calls_of_goTo_startThread (by decide) hj).2
  case free => exact fun j hj => h.free j (calls_of_goTo_startThread (by decide) hj).2
  case woken =>
    -- a loop that was waiting is not parked any more
    intro hparked hor
    have hwait : w.loop = some .wait := by
      unfold Parked at hparked
      dsimp only [ArmorDetectionNode.goTo] at hparked
      by_cases hwaiting : w.loop = some .waiting
      · rw [if_pos hwaiting] at hparked
        rcases hparked with hparked | hparked <;> cases hparked
      · rw [if_neg hwaiting] at hparked
        exact hparked.resolve_right hwaiting
    obtain ⟨j, hj, hne, hpc⟩ := hheeded hwait
      (hor.imp_right fun hs => hs.of_goTo (by decide))
    exact ⟨j, hj, (goTo_calls_of_ne hne).trans hpc⟩
  case assigned => exact h.assigned

/-- A `StopThread` sets the state. -/
theorem ControlInv.stopState (h : w.ControlInv) (hk : w.calls k = some .stopState)
    (hheeded : w.Parked → w.NotifyPending) :
    ({ w with nodeState := .IDLE }.goTo k .stopRunning).ControlInv where
  known := h.known_goTo hk
  alive := h.alive
  one i j hi hj := h.one i j (calls_of_goTo_startThread (by decide) hi).2
    (calls_of_goTo_startThread (by decide) hj).2
  free j hj := h.free j (calls_of_goTo_startThread (by decide) hj).2
  woken hparked _ := NotifyPending.goTo (hheeded hparked) (by rw [hk]; decide)
  assigned := h.assigned

/-- A `StopThread` joins a loop that has ended. -/
theorem ControlInv.stopJoin (h : w.ControlInv) (hk : w.calls k = some .stopJoin)
    (hloop : w.loop = none) : ({ w with joinable := false }.goTo k .stopDone).ControlInv where
  known := h.known_goTo hk
  alive hne := absurd hloop hne
  one i j hi hj := h.one i j (calls_of_goTo_startThread (by decide) hi).2
    (calls_of_goTo_startThread (by decide) hj).2
  free _ _ := rfl
  woken hparked _ := by
    rcases hparked with hparked | hparked <;> cases hloop.symm.trans hparked
  assigned := h.assigned

/-- A step of a call keeps the invariant. -/
theorem ControlInv.call (h : w.ControlInv) (hheeded : w.Heeded (.call k))
    (hcall : w.call k = some w') : w'.ControlInv := by
  obtain ⟨htest, hnotify, hstop⟩ := hheeded
  unfold ArmorDetectionNode.call at hcall
  cases hk : w.calls k with
  | none =>
      rw [hk] at hcall
      cases hcall
  | some pc =>
    rw [hk] at hcall htest hnotify hstop
    cases pc <;> dsimp only at hcall
    case startRunning =>
      cases hcall
      exact h.goTo hk (by decide) (by decide) (by decide) rfl rfl rfl rfl rfl fun hs => hs
    case startTest =>
      cases hcall
      by_cases hidle : w.nodeState = .IDLE
      · rw [if_pos hidle]
        obtain ⟨hjoinable, hstarting⟩ := htest rfl hidle
        exact h.startTest_idle hk hjoinable hstarting
      · rw [if_neg hidle]
        exact h.goTo hk (by decide) (by decide) (by decide) rfl rfl rfl rfl rfl fun hs => hs
    case startThread =>
      rw [if_neg (by rw [h.free k hk]; decide)] at hcall
      cases hcall
      exact h.startThread hk
    case startState =>
      cases hcall
      exact h.startState hk
    case startNotify =>
      cases hcall
      exact h.startNotify hk (hnotify rfl)
    case pauseState =>
      cases hcall
      exact h.goTo hk (by decide) (by decide) (by decide) rfl rfl rfl rfl rfl
        fun hs => NodeState.noConfusion hs
    case stopState =>
      cases hcall
      exact h.stopState hk (hstop rfl)
    case stopRunning =>
      cases hcall
      exact h.goTo hk (by decide) (by decide) (by decide) rfl rfl rfl rfl rfl fun hs => hs
    case stopJoinable =>
      cases hcall
      by_cases hjoinable : w.joinable = true
      · rw [if_pos hjoinable]
        exact h.goTo hk (by decide) (by decide) (by decide) rfl rfl rfl rfl rfl fun hs => hs
      · rw [if_neg hjoinable]
        exact h.goTo hk (by decide) (by decide) (by decide) rfl rfl rfl rfl rfl fun hs => hs
    case stopJoin =>
      by_cases hjoinable : w.joinable = false
      · rw [if_pos hjoinable] at hcall
        cases hcall
        exact ⟨h.known, h.alive, h.one, h.free, h.woken,
          fun heq => Terminate.noConfusion (Option.some.inj heq)⟩
      · rw [if_neg hjoinable] at hcall
        by_cases hloop : w.loop = none
        · rw [if_pos hloop] at hcall
          cases hcall
          exact h.stopJoin hk hloop
        · rw [if_neg hloop] at hcall
          cases hcall
    all_goals cases hcall

/-- The loop goes on without getting parked. -/
theorem ControlInv.setLoop {pc : Option LoopPc} (h : w.ControlInv)
    (halive : pc ≠ none → w.joinable = true) (hwait : pc ≠ some .wait)
    (hwaiting : pc ≠ some .waiting) : { w with loop := pc }.ControlInv where
  known := h.known
  alive := halive
  one := h.one
  free := h.free
  woken hparked _ := by
    rcases hparked with hparked | hparked
    · exact absurd hparked hwait
    · exact absurd hparked hwaiting
  assigned := h.assigned

/-- A step of the loop keeps the invariant. -/
theorem ControlInv.executeLoop (h : w.ControlInv) (hheeded : w.Heeded .executeLoop)
    (hloop : w.executeLoop = some w') : w'.ControlInv := by
  unfold ArmorDetectionNode.executeLoop at hloop
  cases hpc : w.loop with
  | none =>
      rw [hpc] at hloop
      cases hloop
  | some pc =>
    have halive : w.joinable = true := h.alive (by rw [hpc]; exact Option.some_ne_none pc)
    rw [hpc] at hloop
    cases pc <;> dsimp only at hloop
    case test =>
      cases hloop
      refine h.setLoop (fun _ => halive) ?_ ?_ <;> split <;> decide
    case testRunning =>
      cases hloop
      refine h.setLoop (fun _ => halive) ?_ ?_ <;> split <;> decide
    case detectArmor =>
      cases hloop
      exact h.setLoop (fun _ => halive) (by decide) (by decide)
    case testPause =>
      cases hloop
      by_cases hpause : w.nodeState = .PAUSE
      · rw [if_pos hpause]
        refine ⟨h.known, fun _ => halive, h.one, h.free, fun _ hor => ?_, h.assigned⟩
        rcases hor with hrunning | hstopping
        · exact NodeState.noConfusion (hpause.symm.trans hrunning)
        · exact hheeded hpc hpause hstopping
      · rw [if_neg hpause]
        exact h.setLoop (fun _ => halive) (by decide) (by decide)
    case wait =>
      cases hloop
      exact ⟨h.known, fun _ => halive, h.one, h.free, fun _ => h.woken (Or.inl hpc), h.assigned⟩
    case waiting => cases hloop

/-- A goal is accepted. -/
theorem ControlInv.accept (h : w.ControlInv) (command : Command) :
    { w with
      accepted := w.accepted + 1
      calls := Function.update w.calls w.accepted (some (entryPc command)) }.ControlInv := by
  have hentry : entryPc command ≠ .startThread := by cases command <;> decide
  have hstopping : ¬ (entryPc command).IsStopping := by cases command <;> decide
  have hnew : ∀ j, Function.update w.calls w.accepted (some (entryPc command)) j =
      some .startThread → w.calls j = some .startThread :=
    fun j hj => (calls_of_goTo_startThread hentry hj).2
  constructor
  case known =>
    intro j pc hj
    show j < w.accepted + 1
    rcases ThreadTable.update_cases hj with ⟨rfl, -⟩ | ⟨-, hold⟩
    · omega
    · have := h.known j pc hold
      omega
  case alive => exact h.alive
  case one => exact fun i j hi hj => h.one i j (hnew i hi) (hnew j hj)
  case free => exact fun j hj => h.free j (hnew j hj)
  case woken =>
    intro hparked hor
    have hpending : w.NotifyPending := by
      refine h.woken hparked (hor.imp_right fun hs => ?_)
      obtain ⟨j, -, pc, hpc, hstop⟩ := stopping_iff.mp hs
      rcases ThreadTable.update_cases hpc with ⟨-, rfl⟩ | ⟨-, hold⟩
      · exact absurd hstop hstopping
      · exact stopping_of_call (h.known j pc hold) hold hstop
    obtain ⟨j, hj, hpc⟩ := hpending
    refine ⟨j, Nat.lt_succ_of_lt hj, ?_⟩
    show Function.update _ _ _ j = _
    rw [Function.update_of_ne (Nat.ne_of_lt hj), hpc]
  case assigned => exact h.assigned

/-- A heeded step keeps the invariant. -/
theorem ControlInv.step {e : ArmorDetectionEvent} (h : w.ControlInv) (hheeded : w.Heeded e)
    (hstep : w.step e = some w') : w'.ControlInv := by
  unfold ArmorDetectionNode.step at hstep
  by_cases hterminated : w.terminated.isSome = true
  case pos =>
    rw [if_pos hterminated] at hstep
    cases hstep
  rw [if_neg hterminated] at hstep
  cases e with
  | accept command =>
      cases hstep
      exact h.accept command
  | call k => exact h.call hheeded hstep
  | executeLoop => exact h.executeLoop hheeded hstep
  | wakeUp =>
      dsimp only at hstep
      by_cases hwaiting : w.loop = some .waiting
      case neg =>
        rw [if_neg hwaiting] at hstep
        cases hstep
      rw [if_pos hwaiting] at hstep
      cases hstep
      refine h.setLoop (fun _ => h.alive ?_) (by decide) (by decide)
      rw [hwaiting]
      exact Option.some_ne_none _

/-- In every run whose steps are all heeded, thread control does what it is for. -/
theorem run_controlled {running : Bool} {events : List ArmorDetectionEvent}
    (hheeded : StateMachine.Along step Heeded (initial running) events)
    (hrun : StateMachine.run step (initial running) events = some w) : w.Controlled :=
  (StateMachine.run_invariant_of (fun _ _ _ h hok hstep => h.step hok hstep)
    (initial_inv running) hheeded hrun).controlled

/-- A thread is started, paused, started again and stopped. -/
theorem run_controlled_restart : ∃ w, StateMachine.run step (initial false)
      ([.accept .start] ++ List.replicate 5 (.call 0) ++ [.accept .pause, .call 1] ++
        List.replicate 4 .executeLoop ++ [.accept .start] ++ List.replicate 4 (.call 2) ++
        [.accept .stop] ++ List.replicate 3 (.call 3) ++ [.executeLoop, .call 3]) = some w ∧
    w.Controlled := by
  obtain ⟨w, hrun, -⟩ := Option.map_eq_some_iff.mp
    (show (StateMachine.run step (initial false)
      ([.accept .start] ++ List.replicate 5 (.call 0) ++ [.accept .pause, .call 1] ++
        List.replicate 4 .executeLoop ++ [.accept .start] ++ List.replicate 4 (.call 2) ++
        [.accept .stop] ++ List.replicate 3 (.call 3) ++ [.executeLoop, .call 3])).map
      (·.joinable) = some false by decide +kernel)
  exact ⟨w, hrun, run_controlled (by decide +kernel) hrun⟩

/-- Start, pause, and stop once the loop is waiting: the join does not return. -/
theorem run_stopped_asleep :
    ¬ ∀ (running : Bool) (events : List ArmorDetectionEvent) (w : ArmorDetectionNode),
      StateMachine.run step (initial running) events = some w → w.Controlled := by
  intro hall
  obtain ⟨w, hrun, hend⟩ := Option.map_eq_some_iff.mp
    (show (StateMachine.run step (initial false)
      ([.accept .start] ++ List.replicate 5 (.call 0) ++ [.accept .pause, .call 1] ++
        List.replicate 4 .executeLoop ++ [.accept .stop] ++ List.replicate 3 (.call 2))).map
      (fun w => (w.loop, w.accepted, w.calls 0, w.calls 1, w.calls 2)) =
      some (some .waiting, 3, some .startDone, some .pauseDone, some .stopJoin) by decide +kernel)
  simp only [Prod.mk.injEq] at hend
  obtain ⟨hloop, haccepted, h0, h1, h2⟩ := hend
  obtain ⟨k, hk, hpending⟩ := (hall false _ w hrun).stopped hloop ⟨2, by omega, h2⟩
  obtain rfl | rfl | rfl : k = 0 ∨ k = 1 ∨ k = 2 := by omega
  · rw [h0] at hpending
    cases hpending
  · rw [h1] at hpending
    cases hpending
  · rw [h2] at hpending
    cases hpending

/-! ## Steps that are not heeded -/

/-- Steps of calls and of the loop lead from `w` to a failure of thread control. -/
def Fails (w : ArmorDetectionNode) : Prop :=
  ∃ events w', (∀ e ∈ events, e = .executeLoop ∨ ∃ k, e = .call k) ∧
    StateMachine.run step w events = some w' ∧ ¬ w'.Controlled

theorem Fails.of_call {u : ArmorDetectionNode} (hstep : w.step (.call k) = some u)
    (h : u.Fails) : w.Fails := by
  obtain ⟨events, u', hevents, hrun, hbad⟩ := h
  refine ⟨.call k :: events, u', fun e he => ?_, ?_, hbad⟩
  · rcases List.mem_cons.mp he with rfl | htail
    · exact Or.inr ⟨k, rfl⟩
    · exact hevents e htail
  · rw [StateMachine.run_cons, hstep]
    exact hrun

theorem Fails.of_executeLoop {u : ArmorDetectionNode} (hstep : w.step .executeLoop = some u)
    (h : u.Fails) : w.Fails := by
  obtain ⟨events, u', hevents, hrun, hbad⟩ := h
  refine ⟨.executeLoop :: events, u', fun e he => ?_, ?_, hbad⟩
  · rcases List.mem_cons.mp he with rfl | htail
    · exact Or.inl rfl
    · exact hevents e htail
  · rw [StateMachine.run_cons, hstep]
    exact hrun

theorem fails_of_not_controlled (h : ¬ w.Controlled) : w.Fails :=
  ⟨[], w, fun _ he => absurd he List.not_mem_nil, rfl, h⟩

theorem step_call (hterminated : w.terminated = none) : w.step (.call k) = w.call k := by
  rw [step, if_neg (by rw [hterminated]; decide)]

theorem step_executeLoop (hterminated : w.terminated = none) :
    w.step .executeLoop = w.executeLoop := by
  rw [step, if_neg (by rw [hterminated]; decide)]

/-- A program that has ended takes no step. -/
theorem terminated_of_step {e : ArmorDetectionEvent} (hstep : w.step e = some w') :
    w.terminated = none := by
  cases hterminated : w.terminated with
  | none => rfl
  | some t =>
      unfold step at hstep
      rw [if_pos (by rw [hterminated]; rfl)] at hstep
      cases hstep

theorem not_notifyPending_goTo (h : ¬ w.NotifyPending) (hpc : pc ≠ .startNotify) :
    ¬ (w.goTo k pc).NotifyPending := by
  rintro ⟨j, hj, hnotify⟩
  rcases ThreadTable.update_cases hnotify with ⟨-, heq⟩ | ⟨-, hold⟩
  · exact hpc heq.symm
  · exact h ⟨j, hj, hold⟩

/-- The loop is blocked, and a `StopThread` is on its way to join it. -/
theorem fails_of_waiting (hterminated : w.terminated = none) (hloop : w.loop = some .waiting)
    (hjoinable : w.joinable = true) (hpending : ¬ w.NotifyPending) (hstop : w.Stopping) :
    w.Fails := by
  obtain ⟨k, hk, pc, hpc, hstop⟩ := stopping_iff.mp hstop
  -- from `stopRunning` on, the call gets to the join
  have hjoin : ∀ v : ArmorDetectionNode, v.loop = some .waiting → ¬ v.NotifyPending →
      k < v.accepted → v.calls k = some .stopJoin → v.Fails := fun v hv hp hlt hcall =>
    fails_of_not_controlled fun hcontrolled => hp (hcontrolled.stopped hv ⟨k, hlt, hcall⟩)
  have htest : ∀ v : ArmorDetectionNode, v.terminated = none → v.loop = some .waiting →
      v.joinable = true → ¬ v.NotifyPending → k < v.accepted → v.calls k = some .stopJoinable →
      v.Fails := by
    intro v hv hloop hjoinable hp hlt hcall
    refine Fails.of_call (k := k) (u := v.goTo k .stopJoin) ?_
      (hjoin _ hloop (not_notifyPending_goTo hp (by decide)) hlt goTo_calls_self)
    rw [step_call hv, call, hcall]
    dsimp only
    rw [if_pos hjoinable]
  rcases hstop with rfl | rfl | rfl
  · refine Fails.of_call (k := k) (u := { w with running := false }.goTo k .stopJoinable) ?_
      (htest _ hterminated hloop hjoinable (not_notifyPending_goTo (w := { w with running := false })
        hpending (by decide)) hk goTo_calls_self)
    rw [step_call hterminated, call, hpc]
  · exact htest w hterminated hloop hjoinable hpending hk hpc
  · exact hjoin w hloop hpending hk hpc

/-- The loop is parked, and a `StopThread` is on its way to join it. -/
theorem fails_of_parked (hterminated : w.terminated = none) (hparked : w.Parked)
    (hjoinable : w.joinable = true) (hpending : ¬ w.NotifyPending) (hstop : w.Stopping) :
    w.Fails := by
  rcases hparked with hwait | hwaiting
  · refine Fails.of_executeLoop (u := { w with loop := some .waiting }) ?_
      (fails_of_waiting hterminated rfl hjoinable hpending hstop)
    rw [step_executeLoop hterminated, executeLoop, hwait]
  · exact fails_of_waiting hterminated hwaiting hjoinable hpending hstop

/-- After a step that is not heeded, the threads that are there already get to a failure. -/
theorem ControlInv.fails_of_not_heeded {e : ArmorDetectionEvent} (h : w.ControlInv)
    (hheeded : ¬ w.Heeded e) (hstep : w.step e = some w') : w'.Fails := by
  have hterminated := terminated_of_step hstep
  cases e with
  | accept command => exact absurd trivial hheeded
  | wakeUp => exact absurd trivial hheeded
  | executeLoop =>
      simp only [Heeded, Classical.not_imp] at hheeded
      obtain ⟨hloop, hpause, hstop, hpending⟩ := hheeded
      rw [step_executeLoop hterminated, ArmorDetectionNode.executeLoop, hloop] at hstep
      dsimp only at hstep
      rw [if_pos hpause] at hstep
      cases hstep
      have hjoinable := h.alive (by rw [hloop]; exact Option.some_ne_none _)
      exact fails_of_parked hterminated (Or.inl rfl) hjoinable hpending hstop
  | call k =>
      rw [step_call hterminated] at hstep
      simp only [Heeded, not_and_or, Classical.not_imp] at hheeded
      rcases hheeded with ⟨hk, hidle, hnot⟩ | ⟨hk, hloop, hor, hpending⟩ | ⟨hk, hparked, hpending⟩
      · rw [ArmorDetectionNode.call, hk] at hstep
        dsimp only at hstep
        rw [if_pos hidle] at hstep
        cases hstep
        -- the second assignment finds the thread object joinable
        have hassign : ∀ v : ArmorDetectionNode, v.terminated = none → v.joinable = true →
            v.calls k = some .startThread → v.Fails := by
          intro v hv hjoinable hcall
          refine Fails.of_call (k := k) (u := { v with terminated := some .threadAssigned }) ?_
            (fails_of_not_controlled fun hcontrolled => hcontrolled.assigned rfl)
          rw [step_call hv, ArmorDetectionNode.call, hcall]
          dsimp only
          rw [if_pos hjoinable]
        cases hjoinable : w.joinable with
        | true => exact hassign _ hterminated hjoinable goTo_calls_self
        | false =>
            obtain ⟨j, hj, hstart⟩ : w.Starting := by
              rcases hnot with hnot | hnot
              · exact absurd hjoinable hnot
              · exact not_not.mp hnot
            have hne : j ≠ k := by
              rintro rfl
              cases hk.symm.trans hstart
            refine Fails.of_call (k := j) (u := { (w.goTo k .startThread) with
              joinable := true, loop := some .test }.goTo j .startState) ?_
              (hassign _ hterminated rfl ((goTo_calls_of_ne hne.symm).trans goTo_calls_self))
            rw [step_call (w := w.goTo k .startThread) hterminated, ArmorDetectionNode.call,
              goTo_calls_of_ne hne, hstart]
            dsimp only
            rw [if_neg (by show ¬ w.joinable = true; rw [hjoinable]; decide)]
      · rw [ArmorDetectionNode.call, hk] at hstep
        dsimp only at hstep
        rw [if_neg (by rw [hloop]; decide)] at hstep
        cases hstep
        have hnone : ¬ (w.goTo k .startDone).NotifyPending := by
          rintro ⟨j, hj, hnotify⟩
          rcases ThreadTable.update_cases hnotify with ⟨-, heq⟩ | ⟨hne, hold⟩
          · cases heq
          · exact hpending ⟨j, hj, hne, hold⟩
        have hjoinable := h.alive (by rw [hloop]; exact Option.some_ne_none _)
        rcases hor with hrunning | hstop
        · refine Fails.of_executeLoop
            (u := { (w.goTo k .startDone) with loop := some .waiting }) ?_
            (fails_of_not_controlled fun hcontrolled => hnone (hcontrolled.started rfl hrunning
              ⟨k, h.known k _ hk, goTo_calls_self⟩))
          rw [step_executeLoop (w := w.goTo k .startDone) hterminated,
            ArmorDetectionNode.executeLoop,
            show (w.goTo k .startDone).loop = some .wait from hloop]
        · refine fails_of_parked (w := w.goTo k .startDone) hterminated (Or.inl hloop) hjoinable
            hnone ?_
          obtain ⟨j, hj, pc, hpc, hstop⟩ := stopping_iff.mp hstop
          refine stopping_of_call hj ((goTo_calls_of_ne ?_).trans hpc) hstop
          rintro rfl
          obtain rfl := Option.some.inj (hk.symm.trans hpc)
          exact absurd hstop (by decide)
      · rw [ArmorDetectionNode.call, hk] at hstep
        cases hstep
        have hjoinable : w.joinable = true := by
          refine h.alive fun hnone => ?_
          rcases hparked with hparked | hparked <;> cases hnone.symm.trans hparked
        exact fails_of_parked (w := { w with nodeState := .IDLE }.goTo k .stopRunning) hterminated
          hparked hjoinable
          (not_notifyPending_goTo (w := { w with nodeState := .IDLE }) hpending (by decide))
          (stopping_of_call (h.known k _ hk) goTo_calls_self (Or.inl rfl))

/-- The condition leaves out nothing else: a run that is heeded up to a step that is not goes on to
a failure without any further goal. -/
theorem exists_uncontrolled {running : Bool} {events : List ArmorDetectionEvent}
    {e : ArmorDetectionEvent}
    (hheeded : StateMachine.Along step Heeded (initial running) events)
    (hrun : StateMachine.run step (initial running) events = some w) (hnot : ¬ w.Heeded e)
    (hstep : w.step e = some w') : w'.Fails :=
  (StateMachine.run_invariant_of (fun _ _ _ h hok hstep => h.step hok hstep)
    (initial_inv running) hheeded hrun).fails_of_not_heeded hnot hstep

end ArmorDetectionNode

end RoboRTS.Detection
