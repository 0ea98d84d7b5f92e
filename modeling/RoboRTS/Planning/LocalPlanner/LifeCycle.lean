import RoboRTS.Lib.ThreadTable
import RoboRTS.Planning.LocalPlanner.Node

/-!
# The life cycle of local goals

All `Execute` threads share one node state, which the first one to finish sets back to idle. When a
thread only begins once all others have returned, and the control loop only reports success while
the node is running (`ServesOne`), there is one loop at a time, every goal gets at most one result,
a success is the goal's own, and no goal waits for ever in an idle node (`run_lifeCycle`). With two
threads alive a goal can be left without a result.
-/

namespace RoboRTS.LocalPlanner

open Common

namespace ExecutePc

/-- The thread has begun and not returned. -/
def Live (pc : ExecutePc) : Prop :=
  pc ≠ .begin ∧ pc ≠ .done

/-- The thread is on its way to start a loop, or to give up. -/
def Starting (pc : ExecutePc) : Prop :=
  pc = .checkState ∨ pc = .abortInit ∨ pc = .lockPlan ∨ pc = .setPlan ∨ pc = .writePlan ∨
    pc = .releasePlan ∨ pc = .unlockPlan ∨ pc = .startJoin ∨ pc = .startRunning

/-- The thread is between the end of its `SetPlan` block and its result. -/
def Polling (pc : ExecutePc) : Prop :=
  pc = .poll ∨ pc = .canceled ∨ pc = .readState ∨ pc = .readError ∨ pc = .report ∨ pc = .finish ∨
    pc = .stopIdle

/-- The thread has started a loop and not joined it. -/
def Engaged (pc : ExecutePc) : Prop :=
  pc.Polling ∨ pc = .stopJoin

/-- The thread holds a node state that it has read while polling. -/
def Reading (pc : ExecutePc) : Prop :=
  pc = .readError ∨ pc = .report ∨ pc = .finish

/-- The thread has found the node idle and goes on to start a loop. -/
def Committed (pc : ExecutePc) : Prop :=
  pc = .lockPlan ∨ pc = .setPlan ∨ pc = .writePlan ∨ pc = .releasePlan ∨ pc = .unlockPlan

/-- The thread has given its handle a result. -/
def Answered (pc : ExecutePc) : Prop :=
  pc = .stopIdle ∨ pc = .stopJoin ∨ pc = .done

/-- The thread starts or joins the thread object of the loop. -/
def Handles (pc : ExecutePc) : Prop :=
  pc = .startJoin ∨ pc = .startRunning ∨ pc = .startLoop ∨ pc = .stopJoin

theorem Engaged.live {pc : ExecutePc} (h : pc.Engaged) : pc.Live := by
  rcases h with (rfl | rfl | rfl | rfl | rfl | rfl | rfl) | rfl <;> exact ⟨by decide, by decide⟩

theorem Starting.live {pc : ExecutePc} (h : pc.Starting) : pc.Live := by
  rcases h with rfl | rfl | rfl | rfl | rfl | rfl | rfl | rfl | rfl <;>
    exact ⟨by decide, by decide⟩

theorem Starting.not_engaged {pc : ExecutePc} (h : pc.Starting) : ¬ pc.Engaged := by
  rcases h with rfl | rfl | rfl | rfl | rfl | rfl | rfl | rfl | rfl <;>
    simp [Engaged, Polling]

theorem Starting.ne_startLoop {pc : ExecutePc} (h : pc.Starting) : pc ≠ .startLoop := by
  rcases h with rfl | rfl | rfl | rfl | rfl | rfl | rfl | rfl | rfl <;> decide

theorem Starting.not_answered {pc : ExecutePc} (h : pc.Starting) : ¬ pc.Answered := by
  rcases h with rfl | rfl | rfl | rfl | rfl | rfl | rfl | rfl | rfl <;> simp [Answered]

theorem Reading.engaged {pc : ExecutePc} (h : pc.Reading) : pc.Engaged := by
  rcases h with rfl | rfl | rfl <;> simp [Engaged, Polling]

theorem Polling.not_committed {pc : ExecutePc} (h : pc.Polling) : ¬ pc.Committed := by
  rcases h with rfl | rfl | rfl | rfl | rfl | rfl | rfl <;> simp [Committed]

theorem Polling.answered_iff {pc : ExecutePc} (h : pc.Polling) : pc.Answered ↔ pc = .stopIdle := by
  rcases h with rfl | rfl | rfl | rfl | rfl | rfl | rfl <;> simp [Answered]

theorem Handles.live {pc : ExecutePc} (h : pc.Handles) : pc.Live := by
  rcases h with rfl | rfl | rfl | rfl <;> exact ⟨by decide, by decide⟩

end ExecutePc

/-- The thread is in its polling loop with nothing left to observe in an idle node. -/
def Execute.Idles {Pose : Type} (x : Execute Pose) : Prop :=
  x.canceling = false ∧ (x.pc = .poll ∨ x.pc = .readState ∨
    (x.pc.Reading ∧ x.nodeState ≠ .SUCCESS ∧ x.nodeState ≠ .FAILURE))

theorem Execute.Idles.polling {Pose : Type} {x : Execute Pose} (h : x.Idles) : x.pc.Polling := by
  rcases h.2 with hpc | hpc | ⟨hpc | hpc | hpc, -⟩ <;> simp [ExecutePc.Polling, hpc]

namespace LocalPlannerNode

variable {Pose Vel : Type} {pose : Pose} {zero : Vel} {w w' : LocalPlannerNode Pose Vel}
  {k : Nat} {x x' : Execute Pose} {i : Nat} {l l' : Loop}

/-- Where the thread of handle `k` stands. -/
def pcOf (w : LocalPlannerNode Pose Vel) (k : Nat) : Option ExecutePc :=
  (w.executes k).map Execute.pc

theorem pcOf_eq (hx : w.executes k = some x) : w.pcOf k = some x.pc := by
  rw [pcOf, hx, Option.map_some]

theorem pcOf_eq_some {pc : ExecutePc} :
    w.pcOf k = some pc ↔ ∃ x, w.executes k = some x ∧ x.pc = pc :=
  Option.map_eq_some_iff

/-- No control loop is running. -/
def NoLoop (w : LocalPlannerNode Pose Vel) : Prop :=
  ∀ i l, w.loops i = some l → l.pc = .finished

/-- The life cycle of goals: one loop, one thread at the thread object, one result, and only for the
handle's own success, and none missing once everything is idle. -/
structure LifeCycle (w : LocalPlannerNode Pose Vel) : Prop where
  oneLoop : ∀ i l j m, w.loops i = some l → w.loops j = some m → l.pc ≠ .finished →
    m.pc ≠ .finished → i = j
  oneHandler : ∀ j k pc pc', w.pcOf j = some pc → w.pcOf k = some pc' → pc.Handles → pc'.Handles →
    j = k
  oneResult : (w.results.map GoalResult.handle).Nodup
  ownSuccess : ∀ r ∈ w.results, r.terminal = .succeeded → r.handle ∈ r.successFor
  noneLeft : w.nodeState = .IDLE → w.NoLoop →
    (∀ k x, w.executes k = some x → x.pc = .done ∨ x.Idles) →
    ∀ k < w.accepted, ∃ r ∈ w.results, r.handle = k

/-- The step condition: a thread begins when all others have returned or not begun, and a loop
reports success while the node is running. -/
def ServesOne (w : LocalPlannerNode Pose Vel) : LocalPlannerEvent Pose Vel → Prop
  | .execute k => w.pcOf k = some .begin →
      ∀ j < w.accepted, j ≠ k → w.pcOf j = some .begin ∨ w.pcOf j = some .done
  | .loop i _ => (w.loops i).map Loop.pc = some .setSuccess → w.nodeState = .RUNNING
  | .accept _ | .cancel _ => True

instance : ∀ (w : LocalPlannerNode Pose Vel) (e : LocalPlannerEvent Pose Vel),
    Decidable (w.ServesOne e)
  | w, .execute k => inferInstanceAs (Decidable (w.pcOf k = some .begin →
      ∀ j < w.accepted, j ≠ k → w.pcOf j = some .begin ∨ w.pcOf j = some .done))
  | w, .loop i _ => inferInstanceAs (Decidable
      ((w.loops i).map Loop.pc = some .setSuccess → w.nodeState = .RUNNING))
  | _, .accept _ | _, .cancel _ => inferInstanceAs (Decidable True)

/-! ## The invariant -/

/-- No thread is engaged with a loop and none is running. -/
structure Quiet (w : LocalPlannerNode Pose Vel) : Prop where
  none : ∀ k pc, w.pcOf k = some pc → ¬ pc.Engaged
  loops : w.NoLoop
  thread : w.localPlannerThread = .none
  start : ∀ k, w.pcOf k = some .startLoop → w.nodeState = .RUNNING
  state : w.nodeState = .IDLE ∨ w.nodeState = .FAILURE ∨
    w.nodeState = .RUNNING ∧ ∃ k, w.pcOf k = some .startLoop

/-- Thread `k` is engaged with loop `i`, the only one that may be running. -/
structure Served (w : LocalPlannerNode Pose Vel) (k i : Nat) : Prop where
  engaged : ∃ pc, w.pcOf k = some pc ∧ pc.Engaged
  thread : w.localPlannerThread = some i
  loop : ∃ l, w.loops i = some l ∧ k ∈ l.servedFor
  others : ∀ j m, w.loops j = some m → j ≠ i → m.pc = .finished
  polling : ∀ pc, w.pcOf k = some pc → pc.Polling → w.nodeState = .RUNNING ∨
    w.nodeState = .FAILURE ∨ w.nodeState = .SUCCESS ∧ k ∈ w.successFor
  stopping : w.pcOf k = some .stopJoin → w.nodeState = .IDLE ∨ w.nodeState = .FAILURE

/-- What holds while goals are served one at a time. -/
structure Single (w : LocalPlannerNode Pose Vel) : Prop where
  numbered : w.Numbered
  exist : ∀ k < w.accepted, ∃ pc, w.pcOf k = some pc
  live : ∀ j k pc pc', w.pcOf j = some pc → w.pcOf k = some pc' → pc.Live → pc'.Live → j = k
  reading : ∀ k x, w.executes k = some x → x.pc.Reading → x.nodeState = .SUCCESS →
    k ∈ x.successFor
  committed : ∀ k x, w.executes k = some x → x.pc.Committed → x.nodeState = .IDLE
  answered : ∀ r ∈ w.results, ∃ pc, w.pcOf r.handle = some pc ∧ pc.Answered
  result : ∀ k pc, w.pcOf k = some pc → pc.Answered → ∃ r ∈ w.results, r.handle = k
  nodup : (w.results.map GoalResult.handle).Nodup
  success : ∀ r ∈ w.results, r.terminal = .succeeded → r.handle ∈ r.successFor
  phase : w.Quiet ∨ ∃ k i, w.Served k i

theorem start_single : (start zero : LocalPlannerNode Pose Vel).Single where
  numbered _ _ := rfl
  exist _ h := absurd h (Nat.not_lt_zero _)
  live _ _ _ _ h := nomatch h
  reading _ _ h := nomatch h
  committed _ _ h := nomatch h
  answered _ h := nomatch h
  result _ _ h := nomatch h
  nodup := List.nodup_nil
  success _ h := nomatch h
  phase := Or.inl ⟨fun _ _ h => (nomatch h), fun _ _ h => (nomatch h), rfl,
    fun _ h => (nomatch h), Or.inl rfl⟩

namespace Single

/-- A live thread that is not engaged finds no loop running. -/
theorem quiet (h : w.Single) (hx : w.executes k = some x) (hlive : x.pc.Live)
    (hne : ¬ x.pc.Engaged) : w.Quiet := by
  rcases h.phase with hquiet | ⟨k₀, i, hserved⟩
  · exact hquiet
  · obtain ⟨pc, hpc, hengaged⟩ := hserved.engaged
    obtain rfl := h.live k₀ k pc x.pc hpc (pcOf_eq hx) hengaged.live hlive
    obtain rfl : pc = x.pc := Option.some.inj (hpc.symm.trans (pcOf_eq hx))
    exact absurd hengaged hne

/-- An engaged thread is served. -/
theorem served (h : w.Single) (hx : w.executes k = some x) (hengaged : x.pc.Engaged) :
    ∃ i, w.Served k i := by
  rcases h.phase with hquiet | ⟨k₀, i, hserved⟩
  · exact absurd hengaged (hquiet.none k x.pc (pcOf_eq hx))
  · obtain ⟨pc, hpc, hengaged₀⟩ := hserved.engaged
    obtain rfl := h.live k₀ k pc x.pc hpc (pcOf_eq hx) hengaged₀.live hengaged.live
    exact ⟨i, hserved⟩

theorem lifeCycle (h : w.Single) : w.LifeCycle where
  oneLoop i l j m hl hm hlrun hmrun := by
    rcases h.phase with hquiet | ⟨_, i₀, hserved⟩
    · exact absurd (hquiet.loops i l hl) hlrun
    · have hi : i = i₀ := by
        by_contra hne
        exact hlrun (hserved.others i l hl hne)
      have hj : j = i₀ := by
        by_contra hne
        exact hmrun (hserved.others j m hm hne)
      exact hi.trans hj.symm
  oneHandler j k pc pc' hj hk hpc hpc' := h.live j k pc pc' hj hk hpc.live hpc'.live
  oneResult := h.nodup
  ownSuccess := h.success
  noneLeft hidle _ hall k hk := by
    obtain ⟨pc, hpc⟩ := h.exist k hk
    obtain ⟨x, hx, rfl⟩ := pcOf_eq_some.mp hpc
    rcases hall k x hx with hdone | hidles
    · exact h.result k x.pc hpc (Or.inr (Or.inr hdone))
    · -- a polling thread is served, and then the node is not idle
      obtain ⟨i, hserved⟩ := h.served hx (Or.inl hidles.polling)
      rcases hserved.polling x.pc hpc hidles.polling with hs | hs | ⟨hs, -⟩ <;>
        rw [hidle] at hs <;> cases hs

end Single

/-! ### One thread goes on -/

section Move

variable (hexecutes : w'.executes = Function.update w.executes k (some x'))

include hexecutes

theorem pcOf_self : w'.pcOf k = some x'.pc := by
  rw [pcOf, hexecutes, Function.update_self, Option.map_some]

theorem pcOf_of_ne {j : Nat} (hj : j ≠ k) : w'.pcOf j = w.pcOf j := by
  rw [pcOf, hexecutes, Function.update_of_ne hj, pcOf]

theorem pcOf_cases {j : Nat} {pc : ExecutePc} (hpc : w'.pcOf j = some pc) :
    (j = k ∧ pc = x'.pc) ∨ (j ≠ k ∧ w.pcOf j = some pc) := by
  by_cases hj : j = k
  · subst hj
    rw [pcOf_self hexecutes] at hpc
    exact Or.inl ⟨rfl, (Option.some.inj hpc).symm⟩
  · rw [pcOf_of_ne hexecutes hj] at hpc
    exact Or.inr ⟨hj, hpc⟩

/-- A thread that is not engaged goes on so; the node state stays. -/
theorem Quiet.move (h : w.Quiet) (hx : w.executes k = some x) (hloops : w'.NoLoop)
    (hthread : w'.localPlannerThread = .none) (hstate : w'.nodeState = w.nodeState)
    (hne : ¬ x'.pc.Engaged) (hstart : x.pc ≠ .startLoop) (hstart' : x'.pc ≠ .startLoop) :
    w'.Quiet := by
  refine ⟨?_, hloops, hthread, ?_, ?_⟩
  · intro j pc hpc
    rcases pcOf_cases hexecutes hpc with ⟨-, rfl⟩ | ⟨-, hold⟩
    · exact hne
    · exact h.none j pc hold
  · intro j hpc
    rcases pcOf_cases hexecutes hpc with ⟨-, heq⟩ | ⟨-, hold⟩
    · exact absurd heq.symm hstart'
    · rw [hstate]
      exact h.start j hold
  · rw [hstate]
    refine h.state.imp_right (Or.imp_right fun ⟨hrunning, j, hj⟩ => ⟨hrunning, j, ?_⟩)
    have hjk : j ≠ k := by
      rintro rfl
      exact hstart (Option.some.inj ((pcOf_eq hx).symm.trans hj))
    rw [pcOf_of_ne hexecutes hjk]
    exact hj

/-- The served thread goes on polling; the node state stays. -/
theorem Served.move (h : w.Served k i) (hx : w.executes k = some x) (hloops : w'.loops = w.loops)
    (hthread : w'.localPlannerThread = w.localPlannerThread)
    (hstate : w'.nodeState = w.nodeState) (hsuccess : w'.successFor = w.successFor)
    (hpolling : x.pc.Polling) (hpolling' : x'.pc.Polling) : w'.Served k i := by
  refine ⟨⟨x'.pc, pcOf_self hexecutes, Or.inl hpolling'⟩, hthread.trans h.thread, ?_, ?_, ?_, ?_⟩
  · rw [hloops]
    exact h.loop
  · rw [hloops]
    exact h.others
  · intro pc _ _
    rw [hstate, hsuccess]
    exact h.polling x.pc (pcOf_eq hx) hpolling
  · intro hpc
    have hpc : x'.pc = .stopJoin := Option.some.inj ((pcOf_self hexecutes).symm.trans hpc)
    rcases hpolling' with hp | hp | hp | hp | hp | hp | hp <;> rw [hp] at hpc <;> cases hpc

/-- Thread `k` goes on, and perhaps gives its handle the result `added`. -/
theorem Single.move (h : w.Single) (hnumbered : w'.Numbered) (haccepted : w'.accepted = w.accepted)
    (hx : w.executes k = some x)
    (hlive : x'.pc.Live → ∀ j pc, j ≠ k → w.pcOf j = some pc → ¬ pc.Live)
    (hreading : x'.pc.Reading → x'.nodeState = .SUCCESS → k ∈ x'.successFor)
    (hcommitted : x'.pc.Committed → x'.nodeState = .IDLE) (added : Option GoalResult)
    (hresults : w'.results = w.results ++ added.toList)
    (hadded : ∀ r ∈ added, r.handle = k ∧ ¬ x.pc.Answered ∧ x'.pc.Answered ∧
      (r.terminal = .succeeded → k ∈ r.successFor))
    (hanswered : x.pc.Answered → x'.pc.Answered)
    (hanswered' : x'.pc.Answered → x.pc.Answered ∨ added.isSome = true)
    (hphase : w'.Quiet ∨ ∃ k i, w'.Served k i) : w'.Single where
  numbered := hnumbered
  exist j hj := by
    by_cases hjk : j = k
    · subst hjk
      exact ⟨_, pcOf_self hexecutes⟩
    · rw [pcOf_of_ne hexecutes hjk]
      exact h.exist j (haccepted ▸ hj)
  live := by
    intro i j pc pc' hi hj hpc hpc'
    rcases pcOf_cases hexecutes hi with ⟨rfl, rfl⟩ | ⟨hik, hi⟩ <;>
      rcases pcOf_cases hexecutes hj with ⟨rfl, rfl⟩ | ⟨hjk, hj⟩
    · rfl
    · exact absurd hpc' (hlive hpc j pc' hjk hj)
    · exact absurd hpc (hlive hpc' i pc hik hi)
    · exact h.live i j pc pc' hi hj hpc hpc'
  reading := by
    rw [hexecutes]
    exact ThreadTable.update_forall h.reading hreading
  committed := by
    rw [hexecutes]
    exact ThreadTable.update_forall h.committed hcommitted
  answered r hr := by
    rw [hresults] at hr
    by_cases hrk : r.handle = k
    · refine ⟨x'.pc, hrk ▸ pcOf_self hexecutes, ?_⟩
      rcases List.mem_append.mp hr with hold | hnew
      · obtain ⟨pc, hpc, hans⟩ := h.answered r hold
        rw [hrk, pcOf_eq hx] at hpc
        exact hanswered (Option.some.inj hpc ▸ hans)
      · exact (hadded r (Option.mem_toList.mp hnew)).2.2.1
    · rcases List.mem_append.mp hr with hold | hnew
      · rw [pcOf_of_ne hexecutes hrk]
        exact h.answered r hold
      · exact absurd (hadded r (Option.mem_toList.mp hnew)).1 hrk
  result j pc hpc hans := by
    rw [hresults]
    rcases pcOf_cases hexecutes hpc with ⟨rfl, rfl⟩ | ⟨-, hold⟩
    · rcases hanswered' hans with hbefore | hsome
      · obtain ⟨r, hr, heq⟩ := h.result j x.pc (pcOf_eq hx) hbefore
        exact ⟨r, List.mem_append_left _ hr, heq⟩
      · obtain ⟨r, rfl⟩ := Option.isSome_iff_exists.mp hsome
        exact ⟨r, by simp, (hadded r rfl).1⟩
    · obtain ⟨r, hr, heq⟩ := h.result j pc hold hans
      exact ⟨r, List.mem_append_left _ hr, heq⟩
  nodup := by
    rw [hresults]
    cases added with
    | none => simpa using h.nodup
    | some r =>
        obtain ⟨hrk, hbefore, -, -⟩ := hadded r rfl
        simp only [Option.toList_some, List.map_append, List.map_cons, List.map_nil]
        refine List.nodup_append.mpr ⟨h.nodup, by simp, ?_⟩
        intro a ha b hb heq
        obtain ⟨r', hr', rfl⟩ := List.mem_map.mp ha
        obtain ⟨pc, hpc, hans⟩ := h.answered r' hr'
        rw [heq, List.mem_singleton.mp hb, hrk, pcOf_eq hx] at hpc
        exact hbefore (Option.some.inj hpc ▸ hans)
  success r hr hsucceeded := by
    rw [hresults] at hr
    rcases List.mem_append.mp hr with hold | hnew
    · exact h.success r hold hsucceeded
    · obtain ⟨hrk, -, -, hsuccess⟩ := hadded r (Option.mem_toList.mp hnew)
      rw [hrk]
      exact hsuccess hsucceeded
  phase := hphase

end Move

/-! ## Steps and runs -/

namespace Single

/-- No other thread is live beside a live one. -/
theorem alone (h : w.Single) (hx : w.executes k = some x) (hlive : x.pc.Live) :
    ∀ j pc, j ≠ k → w.pcOf j = some pc → ¬ pc.Live :=
  fun j pc hjk hj hpc => hjk (h.live j k pc x.pc hj (pcOf_eq hx) hpc hlive)

/-- A thread on its way to a loop goes on. -/
theorem quietMove (h : w.Single) (hnumbered : w'.Numbered) (haccepted : w'.accepted = w.accepted)
    (hresults : w'.results = w.results) (hx : w.executes k = some x) (hstarting : x.pc.Starting)
    (hexecutes : w'.executes = Function.update w.executes k (some x')) (hloops : w'.NoLoop)
    (hthread : w'.localPlannerThread = none) (hstate : w'.nodeState = w.nodeState)
    (hstarting' : x'.pc.Starting) (hcommitted : x'.pc.Committed → x'.nodeState = .IDLE) :
    w'.Single :=
  h.move hexecutes hnumbered haccepted hx (fun _ => h.alone hx hstarting.live)
    (fun hreading => absurd hreading.engaged hstarting'.not_engaged) hcommitted none
    (by simpa using hresults) (by simp) (fun hans => absurd hans hstarting.not_answered)
    (fun hans => absurd hans hstarting'.not_answered)
    (Or.inl ((h.quiet hx hstarting.live hstarting.not_engaged).move hexecutes hx hloops hthread hstate
      hstarting'.not_engaged hstarting.ne_startLoop hstarting'.ne_startLoop))

/-- The served thread goes on polling; it may give its handle the result `added`. -/
theorem pollMove (h : w.Single) (hnumbered : w'.Numbered) (haccepted : w'.accepted = w.accepted)
    (hx : w.executes k = some x) (hpolling : x.pc.Polling) (hidle : x.pc ≠ .stopIdle)
    (hexecutes : w'.executes = Function.update w.executes k (some x'))
    (hloops : w'.loops = w.loops) (hthread : w'.localPlannerThread = w.localPlannerThread)
    (hstate : w'.nodeState = w.nodeState) (hsuccess : w'.successFor = w.successFor)
    (hpolling' : x'.pc.Polling)
    (hreading : x'.pc.Reading → x'.nodeState = .SUCCESS → k ∈ x'.successFor)
    (added : Option GoalResult) (hresults : w'.results = w.results ++ added.toList)
    (hadded : ∀ r ∈ added, r.handle = k ∧ (r.terminal = .succeeded → k ∈ r.successFor))
    (hadds : x'.pc = .stopIdle ↔ added.isSome = true) : w'.Single := by
  obtain ⟨i, hserved⟩ := h.served hx (Or.inl hpolling)
  have hbefore : ¬ x.pc.Answered := fun hans => hidle (hpolling.answered_iff.mp hans)
  refine h.move hexecutes hnumbered haccepted hx
    (fun _ => h.alone hx (ExecutePc.Engaged.live (Or.inl hpolling))) hreading
    (fun hc => absurd hc hpolling'.not_committed) added hresults (fun r hr => ?_)
    (fun hans => absurd hans hbefore) (fun hans => Or.inr (hadds.mp (hpolling'.answered_iff.mp hans)))
    (Or.inr ⟨k, i, hserved.move hexecutes hx hloops hthread hstate hsuccess hpolling hpolling'⟩)
  obtain ⟨hrk, hown⟩ := hadded r hr
  exact ⟨hrk, hbefore, hpolling'.answered_iff.mpr (hadds.mpr (by rw [Option.mem_def.mp hr]; rfl)),
    hown⟩

end Single

/-- The loops that a new plan reaches are none when none is running. -/
theorem NoLoop.replan (h : w.NoLoop) {i : Nat} {l : Loop} (hl : w.replan k i = some l) :
    l.pc = .finished := by
  obtain ⟨l₀, hl₀, rfl⟩ := Option.map_eq_some_iff.mp hl
  rw [if_pos (h i l₀ hl₀)]
  exact h i l₀ hl₀

theorem join_of_none (h : w.localPlannerThread = none) : w.join = some w := by
  rw [join, h]

/-- A join that does not wait for ever ends the loop. -/
theorem join_of_some (h : w.localPlannerThread = some i) (hjoin : w.join = some w') :
    (w.loops i).map Loop.pc = some .finished ∧ w' = { w with localPlannerThread := none } := by
  rw [join, h] at hjoin
  dsimp only at hjoin
  split at hjoin
  · next hfinished =>
      cases hjoin
      exact ⟨hfinished, rfl⟩
  · cases hjoin

/-- A thread begins when no other one is live. -/
theorem beginStep_single (h : w.Single) (hnumbered : w'.Numbered) (hx : w.executes k = some x)
    (hpc : x.pc = .begin)
    (hok : ∀ j < w.accepted, j ≠ k → w.pcOf j = some .begin ∨ w.pcOf j = some .done)
    (hstep : w.executeStep pose k x = some w') : w'.Single := by
  rw [executeStep, hpc] at hstep
  cases hstep
  -- all other threads have returned or not begun, so none is engaged
  have halone : ∀ j pc, j ≠ k → w.pcOf j = some pc → ¬ pc.Live := by
    intro j pc hjk hj hlive
    have hlt : j < w.accepted := by
      by_contra hge
      rw [pcOf, h.numbered j (Nat.le_of_not_lt hge)] at hj
      cases hj
    rcases hok j hlt hjk with hb | hd
    · exact hlive.1 (Option.some.inj (hj.symm.trans hb))
    · exact hlive.2 (Option.some.inj (hj.symm.trans hd))
  have hquiet : w.Quiet := by
    rcases h.phase with hquiet | ⟨k₀, i, hserved⟩
    · exact hquiet
    · obtain ⟨pc, hpc₀, hengaged⟩ := hserved.engaged
      have hk : k₀ ≠ k := by
        rintro rfl
        rw [pcOf_eq hx, hpc] at hpc₀
        cases hpc₀
        exact hengaged.live.1 rfl
      exact absurd hengaged.live (halone k₀ pc hk hpc₀)
  refine h.move (w := w) rfl hnumbered rfl hx (fun _ => halone) ?_ ?_ none (by simp [setExecute])
    (by simp) ?_ ?_ (Or.inl (hquiet.move (w := w) rfl hx hquiet.loops hquiet.thread rfl ?_ ?_ ?_)) <;>
    simp [ExecutePc.Reading, ExecutePc.Committed, ExecutePc.Answered, ExecutePc.Engaged,
      ExecutePc.Polling, hpc]

/-- A step of a thread on its way to a loop. -/
theorem startingStep_single (h : w.Single) (hnumbered : w'.Numbered) (hx : w.executes k = some x)
    (hstarting : x.pc.Starting) (hstep : w.executeStep pose k x = some w') : w'.Single := by
  have hquiet := h.quiet hx hstarting.live hstarting.not_engaged
  unfold executeStep at hstep
  cases hpc : x.pc <;> rw [hpc] at hstep <;> dsimp only at hstep
  case checkState =>
    cases hstep
    refine h.quietMove hnumbered rfl rfl hx hstarting rfl hquiet.loops hquiet.thread rfl ?_ ?_
    · dsimp only
      split <;> simp [ExecutePc.Starting]
    · intro hcommitted
      dsimp only at hcommitted ⊢
      rcases hquiet.state with hs | hs | ⟨-, j, hj⟩
      · exact hs
      · rw [if_pos hs] at hcommitted
        simp [ExecutePc.Committed] at hcommitted
      · -- a running node would mean another thread about to start its loop
        have hjk : j ≠ k := by
          rintro rfl
          rw [pcOf_eq hx, hpc] at hj
          cases hj
        exact absurd ⟨by decide, by decide⟩ (h.alone hx hstarting.live j _ hjk hj)
  case abortInit =>
    cases hstep
    refine h.move (w := w) rfl hnumbered rfl hx (fun hlive => absurd rfl hlive.2) ?_ ?_
      (some ⟨k, .aborted, x.errorInfo.errorCode, []⟩) rfl ?_
      (fun hans => absurd hans hstarting.not_answered) ?_
      (Or.inl (hquiet.move (w := w) rfl hx hquiet.loops hquiet.thread rfl ?_
        hstarting.ne_startLoop ?_)) <;>
      simp [ExecutePc.Reading, ExecutePc.Committed, ExecutePc.Answered, ExecutePc.Engaged,
        ExecutePc.Polling, hpc]
  case lockPlan =>
    have hidle := h.committed k x hx (by simp [ExecutePc.Committed, hpc])
    split at hstep <;> cases hstep
    · exact h.quietMove hnumbered rfl rfl hx hstarting rfl hquiet.loops hquiet.thread rfl
        (by simp [ExecutePc.Starting, hidle]) (fun _ => hidle)
    · exact h.quietMove hnumbered rfl rfl hx hstarting rfl hquiet.loops hquiet.thread rfl
        (by simp [ExecutePc.Starting]) (fun _ => hidle)
  case setPlan =>
    have hidle := h.committed k x hx (by simp [ExecutePc.Committed, hpc])
    split at hstep <;> cases hstep <;>
      exact h.quietMove hnumbered rfl rfl hx hstarting rfl hquiet.loops hquiet.thread rfl
        (by simp [ExecutePc.Starting]) (fun _ => hidle)
  case writePlan =>
    cases hstep
    exact h.quietMove hnumbered rfl rfl hx hstarting rfl (fun i l hl => hquiet.loops.replan hl)
      hquiet.thread rfl (by simp [ExecutePc.Starting])
      (fun _ => h.committed k x hx (by simp [ExecutePc.Committed, hpc]))
  case releasePlan =>
    cases hstep
    exact h.quietMove hnumbered rfl rfl hx hstarting rfl hquiet.loops hquiet.thread rfl
      (by simp [ExecutePc.Starting])
      (fun _ => h.committed k x hx (by simp [ExecutePc.Committed, hpc]))
  case unlockPlan =>
    cases hstep
    have hidle := h.committed k x hx (by simp [ExecutePc.Committed, hpc])
    exact h.quietMove hnumbered rfl rfl hx hstarting rfl hquiet.loops hquiet.thread rfl
      (by simp [ExecutePc.Starting, hidle]) (fun _ => hidle)
  case startJoin =>
    rw [join_of_none hquiet.thread] at hstep
    cases hstep
    exact h.quietMove hnumbered rfl rfl hx hstarting rfl hquiet.loops hquiet.thread rfl
      (by simp [ExecutePc.Starting]) (by simp [ExecutePc.Committed])
  case startRunning =>
    cases hstep
    refine h.move (w := w) rfl hnumbered rfl hx (fun _ => h.alone hx hstarting.live)
      (by simp [ExecutePc.Reading]) (by simp [ExecutePc.Committed]) none
      (by simp [setExecute, setNodeState]) (by simp)
      (fun hans => absurd hans hstarting.not_answered) (by simp [ExecutePc.Answered])
      (Or.inl ⟨?_, hquiet.loops, hquiet.thread, fun _ _ => rfl, Or.inr (Or.inr ⟨rfl, k, ?_⟩)⟩)
    · intro j pc hj
      rcases pcOf_cases (w := w) (k := k) rfl hj with ⟨-, rfl⟩ | ⟨-, hold⟩
      · simp [ExecutePc.Engaged, ExecutePc.Polling]
      · exact hquiet.none j pc hold
    · simp [pcOf, setExecute]
  all_goals exact absurd hstarting (by simp [ExecutePc.Starting, hpc])

/-- The thread that has set the node running starts its loop. -/
theorem startLoopStep_single (h : w.Single) (hnumbered : w'.Numbered)
    (hx : w.executes k = some x) (hpc : x.pc = .startLoop)
    (hstep : w.executeStep pose k x = some w') : w'.Single := by
  rw [executeStep, hpc] at hstep
  cases hstep
  have hlive : x.pc.Live := by simp [ExecutePc.Live, hpc]
  have hquiet := h.quiet hx hlive (by simp [ExecutePc.Engaged, ExecutePc.Polling, hpc])
  have hrunning := hquiet.start k (by rw [pcOf_eq hx, hpc])
  refine h.move (w := w) rfl hnumbered rfl hx (fun _ => h.alone hx hlive)
    (by simp [ExecutePc.Reading]) (by simp [ExecutePc.Committed]) none
    (by simp [setExecute, LocalPlannerNode.startLoop, setLoop]) (by simp)
    (by simp [ExecutePc.Answered, hpc]) (by simp [ExecutePc.Answered])
    (Or.inr ⟨k, w.spawned, ⟨_, pcOf_self (w := w) rfl, Or.inl (Or.inl rfl)⟩, rfl,
      ⟨_, Function.update_self .., List.mem_singleton_self k⟩, ?_, fun _ _ _ => Or.inl hrunning, ?_⟩)
  · intro j m hm hj
    rcases ThreadTable.update_cases hm with ⟨rfl, -⟩ | ⟨-, hold⟩
    · exact absurd rfl hj
    · exact hquiet.loops j m hold
  · intro hstop
    cases (pcOf_self (w := w) (k := k) rfl).symm.trans hstop

/-- A step of the polling thread up to the result for its handle. -/
theorem pollingStep_single (h : w.Single) (hnumbered : w'.Numbered) (hx : w.executes k = some x)
    (hpolling : x.pc.Polling) (hidle : x.pc ≠ .stopIdle)
    (hstep : w.executeStep pose k x = some w') : w'.Single := by
  unfold executeStep at hstep
  cases hpc : x.pc <;> rw [hpc] at hstep <;> dsimp only at hstep
  case poll =>
    cases hstep
    refine h.pollMove hnumbered rfl hx hpolling hidle rfl rfl rfl rfl rfl ?_ ?_ none
      (by simp [setExecute]) (by simp) ?_ <;> dsimp only <;> split <;>
      simp [ExecutePc.Polling, ExecutePc.Reading]
  case canceled =>
    cases hstep
    exact h.pollMove hnumbered rfl hx hpolling hidle rfl rfl rfl rfl rfl
      (by simp [ExecutePc.Polling]) (by simp [ExecutePc.Reading])
      (some ⟨k, .canceled, .OK, []⟩) rfl (by simp) (by simp)
  case readState =>
    cases hstep
    refine h.pollMove hnumbered rfl hx hpolling hidle rfl rfl rfl rfl rfl
      (by simp [ExecutePc.Polling]) (fun _ hsuccess => ?_) none (by simp [setExecute]) (by simp)
      (by simp)
    obtain ⟨i, hserved⟩ := h.served hx (Or.inl hpolling)
    have hsuccess : w.nodeState = .SUCCESS := hsuccess
    rcases hserved.polling x.pc (pcOf_eq hx) hpolling with hs | hs | ⟨-, hown⟩
    · rw [hsuccess] at hs
      cases hs
    · rw [hsuccess] at hs
      cases hs
    · exact hown
  case readError =>
    cases hstep
    exact h.pollMove hnumbered rfl hx hpolling hidle rfl rfl rfl rfl rfl
      (by simp [ExecutePc.Polling])
      (fun _ => h.reading k x hx (by simp [ExecutePc.Reading, hpc])) none (by simp [setExecute])
      (by simp) (by simp)
  case report =>
    have hreading := h.reading k x hx (by simp [ExecutePc.Reading, hpc])
    split_ifs at hstep <;> cases hstep <;>
      exact h.pollMove hnumbered rfl hx hpolling hidle rfl rfl rfl rfl rfl
        (by simp [ExecutePc.Polling]) (fun _ => hreading) none
        (by simp [setExecute, setErrorInfo]) (by simp) (by simp)
  case finish =>
    have hreading := h.reading k x hx (by simp [ExecutePc.Reading, hpc])
    cases hstate : x.nodeState <;> rw [hstate] at hstep <;> cases hstep
    case SUCCESS =>
      exact h.pollMove hnumbered rfl hx hpolling hidle rfl rfl rfl rfl rfl
        (by simp [ExecutePc.Polling]) (by simp [ExecutePc.Reading])
        (some ⟨k, .succeeded, x.errorInfo.errorCode, x.successFor⟩) rfl
        (by simpa using hreading hstate) (by simp)
    case FAILURE =>
      exact h.pollMove hnumbered rfl hx hpolling hidle rfl rfl rfl rfl rfl
        (by simp [ExecutePc.Polling]) (by simp [ExecutePc.Reading])
        (some ⟨k, .aborted, x.errorInfo.errorCode, []⟩) rfl (by simp) (by simp)
    all_goals
      exact h.pollMove hnumbered rfl hx hpolling hidle rfl rfl rfl rfl rfl
        (by simp [ExecutePc.Polling]) (by simp [ExecutePc.Reading]) none (by simp [setExecute])
        (by simp) (by simp)
  case stopIdle => exact absurd hpc hidle
  all_goals exact absurd hpolling (by simp [ExecutePc.Polling, hpc])

/-- A step of `Stop` at the end of a thread. -/
theorem stoppingStep_single (h : w.Single) (hnumbered : w'.Numbered) (hx : w.executes k = some x)
    (hpc : x.pc = .stopIdle ∨ x.pc = .stopJoin) (hstep : w.executeStep pose k x = some w') :
    w'.Single := by
  rcases hpc with hpc | hpc
  case inl =>
    rw [executeStep, hpc] at hstep
    cases hstep
    have hengaged : x.pc.Engaged := by simp [ExecutePc.Engaged, ExecutePc.Polling, hpc]
    obtain ⟨i, hserved⟩ := h.served hx hengaged
    refine h.move (w := w) rfl hnumbered rfl hx (fun _ => h.alone hx hengaged.live)
      (by simp [ExecutePc.Reading]) (by simp [ExecutePc.Committed]) none
      (by simp [setExecute, setNodeState]) (by simp) (by simp [ExecutePc.Answered])
      (by simp [ExecutePc.Answered, hpc])
      (Or.inr ⟨k, i, ⟨.stopJoin, by simp [pcOf, setExecute], Or.inr rfl⟩, hserved.thread,
        hserved.loop, hserved.others, fun pc hpc' hpolling => ?_, fun _ => Or.inl rfl⟩)
    rw [pcOf_self (w := w) rfl] at hpc'
    cases hpc'
    simp [ExecutePc.Polling] at hpolling
  case inr =>
    rw [executeStep, hpc] at hstep
    obtain ⟨v, hv, rfl⟩ := Option.map_eq_some_iff.mp hstep
    have hengaged : x.pc.Engaged := Or.inr hpc
    obtain ⟨i, hserved⟩ := h.served hx hengaged
    obtain ⟨hfinished, rfl⟩ := join_of_some hserved.thread hv
    refine h.move (w := w) rfl hnumbered rfl hx (fun hlive => absurd rfl hlive.2)
      (by simp [ExecutePc.Reading]) (by simp [ExecutePc.Committed]) none
      (by simp [setExecute]) (by simp) (by simp [ExecutePc.Answered])
      (by simp [ExecutePc.Answered, hpc]) (Or.inl ⟨?_, ?_, rfl, ?_, ?_⟩)
    · intro j pc hj
      rcases pcOf_cases (w := w) (k := k) rfl hj with ⟨-, rfl⟩ | ⟨hjk, hold⟩
      · simp [ExecutePc.Engaged, ExecutePc.Polling]
      · exact fun hpc' => h.alone hx hengaged.live j pc hjk hold hpc'.live
    · intro j m hm
      by_cases hji : j = i
      · subst hji
        obtain ⟨m', hm', hpc'⟩ := Option.map_eq_some_iff.mp hfinished
        obtain rfl : m' = m := Option.some.inj (hm'.symm.trans hm)
        exact hpc'
      · exact hserved.others j m hm hji
    · intro j hj
      rcases pcOf_cases (w := w) (k := k) rfl hj with ⟨-, heq⟩ | ⟨hjk, hold⟩
      · cases heq
      · exact absurd ⟨by decide, by decide⟩ (h.alone hx hengaged.live j _ hjk hold)
    · exact (hserved.stopping (by rw [pcOf_eq hx, hpc])).imp_right Or.inl

theorem executeStep_single (h : w.Single) (hnumbered : w'.Numbered) (hx : w.executes k = some x)
    (hok : x.pc = .begin →
      ∀ j < w.accepted, j ≠ k → w.pcOf j = some .begin ∨ w.pcOf j = some .done)
    (hstep : w.executeStep pose k x = some w') : w'.Single := by
  cases hpc : x.pc
  case begin => exact beginStep_single h hnumbered hx hpc (hok hpc) hstep
  case startLoop => exact startLoopStep_single h hnumbered hx hpc hstep
  case poll | canceled | readState | readError | report | finish =>
    exact pollingStep_single h hnumbered hx (by simp [ExecutePc.Polling, hpc]) (by simp [hpc]) hstep
  case stopIdle => exact stoppingStep_single h hnumbered hx (Or.inl hpc) hstep
  case stopJoin => exact stoppingStep_single h hnumbered hx (Or.inr hpc) hstep
  case done =>
    rw [executeStep, hpc] at hstep
    cases hstep
  all_goals
    exact startingStep_single h hnumbered hx (by simp [ExecutePc.Starting, hpc]) hstep

/-- No thread takes a step, but new ones may not have begun. -/
theorem Single.extend (h : w.Single) (hnumbered : w'.Numbered)
    (hexist : ∀ k < w'.accepted, ∃ pc, w'.pcOf k = some pc)
    (hold : ∀ j pc, w.pcOf j = some pc → w'.pcOf j = some pc)
    (hnew : ∀ j pc, w'.pcOf j = some pc → w.pcOf j = some pc ∨ pc = .begin)
    (hreading : ∀ k x, w'.executes k = some x → x.pc.Reading → x.nodeState = .SUCCESS →
      k ∈ x.successFor)
    (hcommitted : ∀ k x, w'.executes k = some x → x.pc.Committed → x.nodeState = .IDLE)
    (hresults : w'.results = w.results) (hloops : w'.loops = w.loops)
    (hthread : w'.localPlannerThread = w.localPlannerThread)
    (hstate : w'.nodeState = w.nodeState) (hsuccess : w'.successFor = w.successFor) :
    w'.Single where
  numbered := hnumbered
  exist := hexist
  live := by
    intro i j pc pc' hi hj hpc hpc'
    rcases hnew i pc hi with hi | rfl
    · rcases hnew j pc' hj with hj | rfl
      · exact h.live i j pc pc' hi hj hpc hpc'
      · exact absurd rfl hpc'.1
    · exact absurd rfl hpc.1
  reading := hreading
  committed := hcommitted
  answered r hr := by
    obtain ⟨pc, hpc, hans⟩ := h.answered r (hresults ▸ hr)
    exact ⟨pc, hold _ _ hpc, hans⟩
  result j pc hpc hans := by
    rw [hresults]
    rcases hnew j pc hpc with hpc | rfl
    · exact h.result j pc hpc hans
    · simp [ExecutePc.Answered] at hans
  nodup := hresults ▸ h.nodup
  success := hresults ▸ h.success
  phase := by
    refine h.phase.imp (fun hquiet => ⟨?_, ?_, hthread.trans hquiet.thread, ?_, ?_⟩)
      fun ⟨k, i, hserved⟩ => ⟨k, i, ?_, hthread.trans hserved.thread, ?_, ?_, ?_, ?_⟩
    · intro j pc hpc
      rcases hnew j pc hpc with hpc | rfl
      · exact hquiet.none j pc hpc
      · simp [ExecutePc.Engaged, ExecutePc.Polling]
    · intro i l hl
      exact hquiet.loops i l (hloops ▸ hl)
    · intro j hj
      rw [hstate]
      exact hquiet.start j ((hnew j _ hj).resolve_right (by decide))
    · rw [hstate]
      exact hquiet.state.imp_right (Or.imp_right fun ⟨hrunning, j, hj⟩ => ⟨hrunning, j, hold _ _ hj⟩)
    · obtain ⟨pc, hpc, hengaged⟩ := hserved.engaged
      exact ⟨pc, hold _ _ hpc, hengaged⟩
    · rw [hloops]
      exact hserved.loop
    · rw [hloops]
      exact hserved.others
    · intro pc hpc hpolling
      rw [hstate, hsuccess]
      rcases hnew k pc hpc with hpc | rfl
      · exact hserved.polling pc hpc hpolling
      · simp [ExecutePc.Polling] at hpolling
    · intro hpc
      rw [hstate]
      exact hserved.stopping ((hnew k _ hpc).resolve_right (by decide))

/-- A running loop goes on. It may set the node state to failure, or from running to success. -/
theorem Single.loopMove (h : w.Single) (hl : w.loops i = some l) (hrun : l.pc ≠ .finished)
    (hexecutes : w'.executes = w.executes) (haccepted : w'.accepted = w.accepted)
    (hresults : w'.results = w.results)
    (hthread : w'.localPlannerThread = w.localPlannerThread)
    (hloops : w'.loops = Function.update w.loops i (some l'))
    (hserved : l'.servedFor = l.servedFor)
    (hstate : w'.nodeState = w.nodeState ∧ w'.successFor = w.successFor ∨
      w'.nodeState = .FAILURE ∨
      w.nodeState = .RUNNING ∧ w'.nodeState = .SUCCESS ∧ w'.successFor = l.servedFor) :
    w'.Single := by
  have hpcOf : w'.pcOf = w.pcOf := by
    funext j
    rw [pcOf, hexecutes, pcOf]
  refine ⟨fun j hj => hexecutes ▸ h.numbered j (haccepted ▸ hj), fun j hj =>
      hpcOf ▸ h.exist j (haccepted ▸ hj), hpcOf ▸ h.live, hexecutes ▸ h.reading,
    hexecutes ▸ h.committed, hresults ▸ hpcOf ▸ h.answered, hresults ▸ hpcOf ▸ h.result,
    hresults ▸ h.nodup, hresults ▸ h.success, Or.inr ?_⟩
  rcases h.phase with hquiet | ⟨k, i₀, hsv⟩
  · exact absurd (hquiet.loops i l hl) hrun
  obtain rfl : i = i₀ := by
    by_contra hne
    exact hrun (hsv.others i l hl hne)
  have hown : k ∈ l.servedFor := by
    obtain ⟨l₀, hl₀, hk⟩ := hsv.loop
    obtain rfl : l = l₀ := Option.some.inj (hl.symm.trans hl₀)
    exact hk
  refine ⟨k, i, hpcOf ▸ hsv.engaged, hthread.trans hsv.thread,
    ⟨l', by rw [hloops, Function.update_self], hserved ▸ hown⟩, ?_, ?_, ?_⟩
  · intro j m hm hji
    rw [hloops, Function.update_of_ne hji] at hm
    exact hsv.others j m hm hji
  · intro pc hpc hpolling
    rcases hstate with ⟨hs, hsf⟩ | hs | ⟨-, hs, hsf⟩
    · rw [hs, hsf]
      exact hsv.polling pc (hpcOf ▸ hpc) hpolling
    · exact Or.inr (Or.inl hs)
    · exact Or.inr (Or.inr ⟨hs, hsf ▸ hown⟩)
  · intro hpc
    have hstop := hsv.stopping (hpcOf ▸ hpc)
    rcases hstate with ⟨hs, -⟩ | hs | ⟨hs, -⟩
    · rwa [hs]
    · exact Or.inr hs
    · rcases hstop with hstop | hstop <;> rw [hs] at hstop <;> cases hstop

theorem loopStep_single (h : w.Single) (hl : w.loops i = some l) {input : LoopInput Vel}
    (hok : l.pc = .setSuccess → w.nodeState = .RUNNING)
    (hstep : w.loopStep zero input i l = some w') : w'.Single := by
  have hrun : l.pc ≠ .finished := by
    intro hpc
    rw [loopStep, hpc] at hstep
    cases hstep
  unfold loopStep at hstep
  cases hpc : l.pc <;> rw [hpc] at hstep <;> dsimp only at hstep
  case setSuccess =>
    cases hstep
    exact h.loopMove hl hrun rfl rfl rfl rfl rfl rfl (Or.inr (Or.inr ⟨hok hpc, rfl, rfl⟩))
  case initFailure | setFailure =>
    cases hstep
    exact h.loopMove hl hrun rfl rfl rfl rfl rfl rfl (Or.inr (Or.inl rfl))
  case finished => cases hstep
  all_goals
    first
    | cases hstep; exact h.loopMove hl hrun rfl rfl rfl rfl rfl rfl (Or.inl ⟨rfl, rfl⟩)
    | split_ifs at hstep <;> cases hstep <;>
        exact h.loopMove hl hrun rfl rfl rfl rfl rfl rfl (Or.inl ⟨rfl, rfl⟩)

theorem step_single {e : LocalPlannerEvent Pose Vel} (h : w.Single) (hok : w.ServesOne e)
    (hstep : step pose zero w e = some w') : w'.Single := by
  have hnumbered := step_numbered h.numbered hstep
  unfold step at hstep
  split at hstep
  · cases hstep
  cases e with
  | accept route =>
      cases hstep
      have hnone := h.numbered w.accepted (Nat.le_refl _)
      have hne : ∀ {j pc}, w.pcOf j = some pc → j ≠ w.accepted := by
        rintro j pc hj rfl
        rw [pcOf, hnone] at hj
        cases hj
      have hold : ∀ j pc, w.pcOf j = some pc → (w.handleAccepted route).pcOf j = some pc :=
        fun j pc hj => (pcOf_of_ne (w := w) rfl (hne hj)).trans hj
      refine h.extend hnumbered ?_ hold ?_ ?_ ?_ rfl rfl rfl rfl rfl
      · intro j hj
        by_cases hjk : j = w.accepted
        · subst hjk
          exact ⟨_, pcOf_self (w := w) rfl⟩
        · have hj : j < w.accepted + 1 := hj
          obtain ⟨pc, hpc⟩ := h.exist j (by omega)
          exact ⟨pc, hold j pc hpc⟩
      · intro j pc hj
        rcases pcOf_cases (w := w) (k := w.accepted) rfl hj with ⟨-, rfl⟩ | ⟨-, hj⟩
        · exact Or.inr rfl
        · exact Or.inl hj
      · exact ThreadTable.update_forall h.reading (by simp [ExecutePc.Reading])
      · exact ThreadTable.update_forall h.committed (by simp [ExecutePc.Committed])
  | cancel k =>
      obtain ⟨x, hx, rfl⟩ := Option.map_eq_some_iff.mp hstep
      have hpcOf : ∀ j, (w.setExecute k { x with canceling := true }).pcOf j = w.pcOf j := by
        intro j
        by_cases hjk : j = k
        · subst hjk
          rw [pcOf_self (w := w) rfl, pcOf_eq hx]
        · exact pcOf_of_ne (w := w) rfl hjk
      exact h.extend hnumbered (fun j hj => hpcOf j ▸ h.exist j hj)
        (fun j pc hj => (hpcOf j).trans hj) (fun j pc hj => Or.inl ((hpcOf j).symm.trans hj))
        (ThreadTable.update_forall h.reading (h.reading k x hx))
        (ThreadTable.update_forall h.committed (h.committed k x hx)) rfl rfl rfl rfl rfl
  | execute k =>
      obtain ⟨x, hx, hstep⟩ := Option.bind_eq_some_iff.mp hstep
      exact executeStep_single h hnumbered hx (fun hpc => hok (by rw [pcOf_eq hx, hpc])) hstep
  | loop i input =>
      obtain ⟨l, hl, hstep⟩ := Option.bind_eq_some_iff.mp hstep
      exact loopStep_single h hl (fun hpc => hok (by rw [hl, Option.map_some, hpc])) hstep

/-- In every run that serves one goal at a time the goals live as they should. -/
theorem run_lifeCycle (pose : Pose) (zero : Vel) (events : List (LocalPlannerEvent Pose Vel))
    (w : LocalPlannerNode Pose Vel)
    (hserves : StateMachine.Along (step pose zero) ServesOne (start zero) events)
    (hrun : StateMachine.run (step pose zero) (start zero) events = some w) : w.LifeCycle :=
  (StateMachine.run_invariant_of (P := Single) (fun _ _ _ h hok hstep => step_single h hok hstep)
    start_single hserves hrun).lifeCycle

/-! ## Four runs -/

/-- A goal is reached, and its loop joined. -/
def reachedGoal : List (LocalPlannerEvent Nat Nat) :=
  .accept [1, 2] :: executeSteps 10 0 ++ loopSteps 10 0 1 true ++ executeSteps 6 0 ++
    loopSteps 3 0 1 true ++ [.execute 0]

/-- A goal is cancelled while its loop reaches it; then another goal arrives. -/
def staleSuccess : List (LocalPlannerEvent Nat Nat) :=
  .accept [1, 2] :: executeSteps 10 0 ++ loopSteps 9 0 1 true ++ .cancel 0 :: executeSteps 3 0 ++
    loopSteps 4 0 1 true ++ .execute 0 :: .accept [3] :: executeSteps 12 1

/-- Two goals find the node idle, and both start a loop. -/
def twoLoops : List (LocalPlannerEvent Nat Nat) :=
  .accept [1, 2] :: executeSteps 2 0 ++ .accept [3] :: executeSteps 2 1 ++ executeSteps 6 0 ++
    executeSteps 7 1 ++ executeSteps 2 0 ++ [.execute 1]

/-- Two goals share a loop; the first one to see its success sets the node back to idle. -/
def lostGoal : List (LocalPlannerEvent Nat Nat) :=
  .accept [1, 2] :: executeSteps 10 0 ++ .accept [3] :: executeSteps 7 1 ++ loopSteps 10 0 1 true ++
    executeSteps 6 0 ++ loopSteps 3 0 1 true ++ [.execute 0]

theorem run_lifeCycle_reachedGoal :
    ∃ w, StateMachine.run (step 0 0) (start 0) reachedGoal = some w ∧
      w.results = [⟨0, .succeeded, .OK, [0]⟩] ∧ w.LifeCycle := by
  obtain ⟨w, hw⟩ := Option.isSome_iff_exists.mp
    (show (StateMachine.run (step 0 0) (start 0) reachedGoal).isSome = true by decide +kernel)
  have hresults : (StateMachine.run (step 0 0) (start 0) reachedGoal).map LocalPlannerNode.results =
      some [⟨0, .succeeded, .OK, [0]⟩] := by decide +kernel
  rw [hw, Option.map_some, Option.some.injEq] at hresults
  exact ⟨w, hw, hresults, run_lifeCycle 0 0 reachedGoal w (by decide +kernel) hw⟩

/-- A goal succeeds by the success of another one's loop, two loops run at once, and a goal is left
without a result in an idle node. -/
theorem execute_shares_node_state :
    (¬ ∀ (pose vel : Nat) (events : List (LocalPlannerEvent Nat Nat)) (w : LocalPlannerNode Nat Nat),
        StateMachine.run (step pose vel) (start vel) events = some w → w.LifeCycle) ∧
      (∃ w : LocalPlannerNode Nat Nat, StateMachine.run (step 0 0) (start 0) twoLoops = some w ∧
        (w.loops 0).map Loop.pc = some .init ∧ (w.loops 1).map Loop.pc = some .init) ∧
      ∃ w : LocalPlannerNode Nat Nat, StateMachine.run (step 0 0) (start 0) lostGoal = some w ∧
        w.nodeState = .IDLE ∧ w.spawned = 1 ∧ (w.loops 0).map Loop.pc = some .finished ∧
        w.accepted = 2 ∧ w.pcOf 0 = some .done ∧ w.pcOf 1 = some .poll ∧
        w.results.map GoalResult.handle = [0] := by
  refine ⟨fun hall => ?_, ?_, ?_⟩
  · obtain ⟨w, hw⟩ := Option.isSome_iff_exists.mp
      (show (StateMachine.run (step 0 0) (start 0) staleSuccess).isSome = true by decide +kernel)
    have hresults : (StateMachine.run (step 0 0) (start 0) staleSuccess).map
        (fun w => w.results.getLast?) = some (some ⟨1, .succeeded, .OK, [0]⟩) := by decide +kernel
    rw [hw, Option.map_some, Option.some.injEq] at hresults
    have hown := (hall 0 0 _ w hw).ownSuccess _ (List.mem_of_getLast? hresults) rfl
    exact absurd hown (by decide)
  · obtain ⟨w, hw⟩ := Option.isSome_iff_exists.mp
      (show (StateMachine.run (step 0 0) (start 0) twoLoops).isSome = true by decide +kernel)
    have hloops : (StateMachine.run (step 0 0) (start 0) twoLoops).map
        (fun w => ((w.loops 0).map Loop.pc, (w.loops 1).map Loop.pc)) =
          some (some .init, some .init) := by decide +kernel
    rw [hw, Option.map_some, Option.some.injEq] at hloops
    exact ⟨w, hw, Prod.mk.inj hloops⟩
  · obtain ⟨w, hw⟩ := Option.isSome_iff_exists.mp
      (show (StateMachine.run (step 0 0) (start 0) lostGoal).isSome = true by decide +kernel)
    have hnode : (StateMachine.run (step 0 0) (start 0) lostGoal).map
        (fun w => (w.nodeState, w.spawned, (w.loops 0).map Loop.pc)) =
          some (.IDLE, 1, some .finished) := by decide +kernel
    have hgoals : (StateMachine.run (step 0 0) (start 0) lostGoal).map
        (fun w => (w.accepted, w.pcOf 0, w.pcOf 1, w.results.map GoalResult.handle)) =
          some (2, some .done, some .poll, [0]) := by decide +kernel
    rw [hw, Option.map_some, Option.some.injEq, Prod.mk.injEq, Prod.mk.injEq] at hnode hgoals
    exact ⟨w, hw, hnode.1, hnode.2.1, hnode.2.2, hgoals.1, hgoals.2.1, Prod.mk.inj hgoals.2.2⟩

end LocalPlannerNode

end RoboRTS.LocalPlanner
