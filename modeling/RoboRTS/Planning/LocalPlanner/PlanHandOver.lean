import RoboRTS.Lib.ThreadTable
import RoboRTS.Planning.LocalPlanner.Node

/-!
# Hand-over of routes to the control loop

The three locks on the way of a route to the control loop are only tried, and an empty route is
appended to the plan kept from before. When no lock is found taken, the routes are set in the order
of their goals, and no plan is kept when an empty route is set (`HandsOver`), every
`ComputeVelocityCommands` follows the route of the last goal that had passed its `SetPlan` block, or
of a later one (`run_followsLatest`). Without the condition a route is lost.
-/

namespace RoboRTS.LocalPlanner

open Common

/-- The plan of a handle: its route, or for an empty one the fallback goal alone. -/
def Execute.plan {Pose : Type} (pose : Pose) (x : Execute Pose) : List Pose :=
  if x.route = [] then [LocalPlannerNode.fallbackGoal pose x.route] else x.route

/-- The thread is inside its `SetPlan` block. -/
def ExecutePc.InBlock (pc : ExecutePc) : Prop :=
  pc = .setPlan ∨ pc = .writePlan ∨ pc = .releasePlan ∨ pc = .unlockPlan

/-- The thread has stored its plan and is still inside its `SetPlan` block. -/
def ExecutePc.Written (pc : ExecutePc) : Prop :=
  pc = .releasePlan ∨ pc = .unlockPlan

theorem ExecutePc.Written.inBlock {pc : ExecutePc} (h : pc.Written) : pc.InBlock :=
  Or.inr (Or.inr h)

namespace LoopPc

/-- The loop holds the node's `plan_mutex_`. -/
def Iterating (pc : LoopPc) : Prop :=
  pc = .compute ∨ pc = .getPlan ∨ pc = .copyPlan ∨ pc = .releasePlan ∨ pc = .follow ∨ pc = .judge ∨
    pc = .setSuccess ∨ pc = .setFailure ∨ pc = .setError

/-- The loop has started `ComputeVelocityCommands` and not yet followed a plan. -/
def Computing (pc : LoopPc) : Prop :=
  pc = .getPlan ∨ pc = .copyPlan ∨ pc = .releasePlan ∨ pc = .follow

/-- The loop has read the plan that it is going to follow. -/
def Covered (pc : LoopPc) : Prop :=
  pc = .releasePlan ∨ pc = .follow

theorem Covered.computing {pc : LoopPc} (h : pc.Covered) : pc.Computing :=
  Or.inr (Or.inr h)

theorem Computing.iterating {pc : LoopPc} (h : pc.Computing) : pc.Iterating := by
  rcases h with rfl | rfl | rfl | rfl <;> simp [Iterating]

end LoopPc

namespace LocalPlannerNode

variable {Pose Vel : Type} {pose : Pose} {zero : Vel} {w w' : LocalPlannerNode Pose Vel}
  {k : Nat} {x x' : Execute Pose} {i : Nat} {l l' : Loop}

/-- For each of these handles the plan is its own or that of a later one. -/
def Covers (pose : Pose) (w : LocalPlannerNode Pose Vel) (due : List Nat) (plan : List Pose) :
    Prop :=
  ∀ k ∈ due, ∃ j x, k ≤ j ∧ w.executes j = some x ∧ plan = x.plan pose

/-- No plan is lost: what every `ComputeVelocityCommands` has followed is the plan of the last goal
that had passed its `SetPlan` block, or of a later one. -/
def FollowsLatest (pose : Pose) (w : LocalPlannerNode Pose Vel) : Prop :=
  ∀ f ∈ w.follows, w.Covers pose f.due f.plan

/-- The step condition: no lock that is tried is taken, the `SetPlan` blocks are entered in the
order of the goals, and no plan is kept when an empty route is set. -/
def HandsOver (w : LocalPlannerNode Pose Vel) : LocalPlannerEvent Pose Vel → Prop
  | .execute k => ∀ x ∈ w.executes k,
      (x.pc = .lockPlan → w.planMtx = false ∧ ∀ j ∈ w.passed, j < k) ∧
      (x.pc = .setPlan → w.localPlanner.planMutex = false) ∧
      (x.pc = .writePlan → x.route = [] → w.localPlanner.tempPlan = [])
  | .loop i _ => ∀ l ∈ w.loops i, l.pc = .getPlan → w.localPlanner.planMutex = false
  | .accept _ | .cancel _ => True

instance : ∀ (w : LocalPlannerNode Pose Vel) (e : LocalPlannerEvent Pose Vel),
    Decidable (w.HandsOver e)
  | w, .execute k => inferInstanceAs (Decidable (∀ x ∈ w.executes k,
      (x.pc = .lockPlan → w.planMtx = false ∧ ∀ j ∈ w.passed, j < k) ∧
      (x.pc = .setPlan → w.localPlanner.planMutex = false) ∧
      (x.pc = .writePlan → x.route = [] → w.localPlanner.tempPlan = [])))
  | w, .loop i _ => inferInstanceAs (Decidable (∀ l ∈ w.loops i,
      l.pc = .getPlan → w.localPlanner.planMutex = false))
  | _, .accept _ | _, .cancel _ => inferInstanceAs (Decidable True)

/-! ## The invariant -/

/-- What holds while the routes are handed over. -/
structure Keeps (pose : Pose) (w : LocalPlannerNode Pose Vel) : Prop where
  locked : ∀ k x, w.executes k = some x → x.pc.InBlock → w.planMtx = true
  unique : ∀ k x, w.executes k = some x → x.pc.InBlock →
    ∀ j y, w.executes j = some y → y.pc.InBlock → j = k
  order : ∀ k x, w.executes k = some x → x.pc.InBlock → ∀ j ∈ w.passed, j < k
  written : ∀ k x, w.executes k = some x → x.pc.Written → w.localPlanner.tempPlan = x.plan pose
  temp : w.Covers pose w.passed w.localPlanner.tempPlan
  iterating : ∀ i l, w.loops i = some l → l.pc.Iterating → w.planMutex = true
  single : ∀ i l, w.loops i = some l → l.pc.Iterating →
    ∀ j m, w.loops j = some m → m.pc.Iterating → j = i
  due : ∀ i l, w.loops i = some l → l.pc.Computing → ∀ k ∈ l.due, k ∈ w.passed
  covered : ∀ i l, w.loops i = some l → l.pc.Covered →
    w.Covers pose l.due w.localPlanner.globalPlan
  follows : w.FollowsLatest pose

theorem start_keeps : (start zero : LocalPlannerNode Pose Vel).Keeps pose where
  locked _ _ h := nomatch h
  unique _ _ h := nomatch h
  order _ _ h := nomatch h
  written _ _ h := nomatch h
  temp _ h := nomatch h
  iterating _ _ h := nomatch h
  single _ _ h := nomatch h
  due _ _ h := nomatch h
  covered _ _ h := nomatch h
  follows _ h := nomatch h

/-- Plans cover the same handles as long as the routes stay. -/
theorem Covers.mono {due : List Nat} {plan : List Pose} (h : w.Covers pose due plan)
    (hroute : ∀ j y, w.executes j = some y →
      ∃ y', w'.executes j = some y' ∧ y'.route = y.route) : w'.Covers pose due plan := by
  intro k hk
  obtain ⟨j, y, hkj, hy, hplan⟩ := h k hk
  obtain ⟨y', hy', heq⟩ := hroute j y hy
  exact ⟨j, y', hkj, hy', by rw [hplan, Execute.plan, Execute.plan, heq]⟩

theorem setExecute_route {z : Execute Pose} (hx : w.executes k = some x)
    (hroute : z.route = x.route) :
    ∀ j y, w.executes j = some y →
      ∃ y', (w.setExecute k z).executes j = some y' ∧ y'.route = y.route := by
  intro j y hy
  exact ThreadTable.update_exists (P := fun z => z.route = y.route) hx hroute.trans hy rfl

namespace Keeps

/-! ### Steps that leave the threads where they are -/

/-- The invariant says nothing about states, errors, results and the thread object. -/
theorem others (h : w.Keeps pose) (nodeState : NodeState) (nodeErrorInfo : ErrorInfo) (cmdVel : Vel)
    (localPlannerThread : Option Nat) (terminated : Bool) (accepted spawned : Nat)
    (velPub : List Vel) (feedbacks : List (Nat × ErrorInfo)) (results : List GoalResult)
    (successFor : List Nat) (isInitialized planMutex : Bool) :
    Keeps pose { w with
      nodeState := nodeState, nodeErrorInfo := nodeErrorInfo, cmdVel := cmdVel
      localPlannerThread := localPlannerThread, terminated := terminated, accepted := accepted
      spawned := spawned, velPub := velPub, feedbacks := feedbacks, results := results
      successFor := successFor
      localPlanner := { w.localPlanner with
        isInitialized := isInitialized, planMutex := planMutex } } :=
  ⟨h.locked, h.unique, h.order, h.written, h.temp, h.iterating, h.single, h.due, h.covered,
    h.follows⟩

theorem join (h : w.Keeps pose) (hjoin : w.join = some w') : w'.Keeps pose := by
  unfold LocalPlannerNode.join at hjoin
  split at hjoin
  · cases hjoin
    exact h
  · split at hjoin
    · cases hjoin
      exact ⟨h.locked, h.unique, h.order, h.written, h.temp, h.iterating, h.single, h.due, h.covered,
        h.follows⟩
    · cases hjoin

/-! ### Steps of an `Execute` thread -/

/-- Thread `k` goes on without entering its block. -/
theorem setExecute (h : w.Keeps pose) (hx : w.executes k = some x) (hroute : x'.route = x.route)
    (hblock : x'.pc.InBlock → x.pc.InBlock) (hwritten : x'.pc.Written → x.pc.Written) :
    (w.setExecute k x').Keeps pose := by
  have hmono := setExecute_route hx hroute
  refine ⟨?_, ?_, ?_, ?_, h.temp.mono hmono, h.iterating, h.single, h.due,
    fun i l hl hc => (h.covered i l hl hc).mono hmono, fun f hf => (h.follows f hf).mono hmono⟩
  · exact ThreadTable.update_forall h.locked fun hb => h.locked k x hx (hblock hb)
  · refine ThreadTable.update_forall ?_ fun hb => ?_
    · intro j y hy hb
      exact ThreadTable.update_forall (h.unique j y hy hb)
        fun hb' => h.unique j y hy hb k x hx (hblock hb')
    · exact ThreadTable.update_forall (h.unique k x hx (hblock hb)) fun _ => rfl
  · exact ThreadTable.update_forall h.order fun hb => h.order k x hx (hblock hb)
  · refine ThreadTable.update_forall h.written fun hw => ?_
    rw [Execute.plan, hroute]
    exact h.written k x hx (hwritten hw)

/-- Thread `k` goes on outside its block. -/
theorem move (h : w.Keeps pose) (hx : w.executes k = some x) (hroute : x'.route = x.route)
    (hout : ¬ x'.pc.InBlock) : (w.setExecute k x').Keeps pose :=
  h.setExecute hx hroute (fun hb => absurd hb hout) fun hw => absurd hw.inBlock hout

/-- Thread `k` enters its block. -/
theorem lockPlan (h : w.Keeps pose) (hx : w.executes k = some x) (hfree : w.planMtx = false)
    (horder : ∀ j ∈ w.passed, j < k) :
    Keeps pose ({ w with planMtx := true }.setExecute k { x with pc := .setPlan }) := by
  have hnone : ∀ j y, w.executes j = some y → ¬ y.pc.InBlock := by
    intro j y hy hb
    have := h.locked j y hy hb
    rw [hfree] at this
    cases this
  have hmono := setExecute_route (z := { x with pc := .setPlan }) hx rfl
  refine ⟨fun _ _ _ _ => rfl, ?_, ?_, ?_, h.temp.mono hmono, h.iterating, h.single, h.due,
    fun i l hl hc => (h.covered i l hl hc).mono hmono, fun f hf => (h.follows f hf).mono hmono⟩
  · intro j y hy hb
    rcases ThreadTable.update_cases hy with ⟨rfl, rfl⟩ | ⟨-, hold⟩
    · exact ThreadTable.update_forall (fun i z hz hb' => absurd hb' (hnone i z hz)) fun _ => rfl
    · exact absurd hb (hnone j y hold)
  · exact ThreadTable.update_forall (fun j y hy hb => absurd hb (hnone j y hy)) fun _ => horder
  · exact ThreadTable.update_forall (fun j y hy hw => absurd hw.inBlock (hnone j y hy))
      fun hw => by rcases hw with hw | hw <;> cases hw

/-- Thread `k` stores its plan. -/
theorem writePlan (h : w.Keeps pose) (hx : w.executes k = some x) (hpc : x.pc = .writePlan)
    (hempty : x.route = [] → w.localPlanner.tempPlan = []) :
    Keeps pose ({ w with
      localPlanner := w.localPlanner.setPlan x.route (fallbackGoal pose x.route)
      loops := w.replan k }.setExecute k { x with pc := .releasePlan }) := by
  have hblock : x.pc.InBlock := Or.inr (Or.inl hpc)
  have hmono := setExecute_route (z := { x with pc := .releasePlan }) hx rfl
  have hplan : (w.localPlanner.setPlan x.route (fallbackGoal pose x.route)).tempPlan =
      x.plan pose := by
    unfold TebLocalPlanner.setPlan Execute.plan
    split
    · next hroute => rw [hempty hroute]; rfl
    · rfl
  -- a new plan changes neither where a loop stands nor what is due for it
  have hloop : ∀ {i l}, w.replan k i = some l → ∃ l₀, w.loops i = some l₀ ∧ l.pc = l₀.pc ∧
      l.due = l₀.due := by
    intro i l hl
    obtain ⟨l₀, hl₀, rfl⟩ := Option.map_eq_some_iff.mp hl
    refine ⟨l₀, hl₀, ?_⟩
    split <;> exact ⟨rfl, rfl⟩
  refine ⟨?_, ?_, ?_, ?_, ?_, ?_, ?_, ?_, ?_, fun f hf => (h.follows f hf).mono hmono⟩
  · exact ThreadTable.update_forall h.locked fun _ => h.locked k x hx hblock
  · refine ThreadTable.update_forall ?_ fun _ => ?_
    · intro j y hy hb
      exact ThreadTable.update_forall (h.unique j y hy hb) fun _ => h.unique j y hy hb k x hx hblock
    · exact ThreadTable.update_forall (h.unique k x hx hblock) fun _ => rfl
  · exact ThreadTable.update_forall h.order fun _ => h.order k x hx hblock
  · intro j y hy hw
    rcases ThreadTable.update_cases hy with ⟨rfl, rfl⟩ | ⟨hjk, hold⟩
    · exact hplan
    · exact absurd (h.unique k x hx hblock j y hold hw.inBlock) hjk
  · intro j hj
    exact ⟨k, _, Nat.le_of_lt (h.order k x hx hblock j hj), Function.update_self .., hplan⟩
  · intro i l hl hi
    obtain ⟨l₀, hl₀, hpc, -⟩ := hloop hl
    exact h.iterating i l₀ hl₀ (hpc ▸ hi)
  · intro i l hl hi j m hm hj
    obtain ⟨l₀, hl₀, hpc, -⟩ := hloop hl
    obtain ⟨m₀, hm₀, hpc', -⟩ := hloop hm
    exact h.single i l₀ hl₀ (hpc ▸ hi) j m₀ hm₀ (hpc' ▸ hj)
  · intro i l hl hc
    obtain ⟨l₀, hl₀, hpc, hdue⟩ := hloop hl
    rw [hdue]
    exact h.due i l₀ hl₀ (hpc ▸ hc)
  · intro i l hl hc
    obtain ⟨l₀, hl₀, hpc, hdue⟩ := hloop hl
    rw [hdue]
    exact (h.covered i l₀ hl₀ (hpc ▸ hc)).mono hmono

/-- Thread `k`, which has stored its plan, leaves its block. -/
theorem unlockPlan (h : w.Keeps pose) (hx : w.executes k = some x) (hpc : x.pc = .unlockPlan) :
    Keeps pose ({ w with planMtx := false }.pass k x) := by
  have hwritten : x.pc.Written := Or.inr hpc
  have hnone : ∀ j y, j ≠ k → w.executes j = some y → ¬ y.pc.InBlock := fun j y hjk hy hb =>
    hjk (h.unique k x hx hwritten.inBlock j y hy hb)
  have hmono := setExecute_route
    (z := { x with pc := if x.nodeState = .IDLE then .startJoin else .poll }) hx rfl
  have hout : ¬ ExecutePc.InBlock (if x.nodeState = .IDLE then .startJoin else .poll) := by
    split <;> simp [ExecutePc.InBlock]
  have hleft : ∀ j y, ({ w with planMtx := false }.pass k x).executes j = some y →
      ¬ y.pc.InBlock := by
    intro j y hy
    rcases ThreadTable.update_cases hy with ⟨rfl, rfl⟩ | ⟨hjk, hold⟩
    · exact hout
    · exact hnone j y hjk hold
  refine ⟨fun j y hy hb => absurd hb (hleft j y hy), fun j y hy hb => absurd hb (hleft j y hy),
    fun j y hy hb => absurd hb (hleft j y hy), fun j y hy hw => absurd hw.inBlock (hleft j y hy),
    ?_, h.iterating, h.single, fun i l hl hc j hj => List.mem_append_left _ (h.due i l hl hc j hj),
    fun i l hl hc => (h.covered i l hl hc).mono hmono, fun f hf => (h.follows f hf).mono hmono⟩
  intro j hj
  refine ⟨k, _, ?_, Function.update_self .., h.written k x hx hwritten⟩
  rcases List.mem_append.mp hj with hold | hnew
  · exact Nat.le_of_lt (h.order k x hx hwritten.inBlock j hold)
  · exact Nat.le_of_eq (List.mem_singleton.mp hnew)

/-- A new thread, which no table entry stands for. -/
theorem handleAccepted (h : w.Keeps pose) (hfresh : w.executes w.accepted = none)
    (route : List Pose) : (w.handleAccepted route).Keeps pose := by
  have hmono : ∀ j y, w.executes j = some y →
      ∃ y', (w.handleAccepted route).executes j = some y' ∧ y'.route = y.route := by
    intro j y hy
    have hj : j ≠ w.accepted := by
      rintro rfl
      rw [hfresh] at hy
      cases hy
    exact ⟨y, (Function.update_of_ne hj ..).trans hy, rfl⟩
  have hout : ¬ ExecutePc.InBlock .begin := by simp [ExecutePc.InBlock]
  refine ⟨?_, ?_, ?_, ?_, h.temp.mono hmono, h.iterating, h.single, h.due,
    fun i l hl hc => (h.covered i l hl hc).mono hmono, fun f hf => (h.follows f hf).mono hmono⟩
  · exact ThreadTable.update_forall h.locked fun hb => absurd hb hout
  · refine ThreadTable.update_forall ?_ fun hb => absurd hb hout
    intro j y hy hb
    exact ThreadTable.update_forall (h.unique j y hy hb) fun hb' => absurd hb' hout
  · exact ThreadTable.update_forall h.order fun hb => absurd hb hout
  · exact ThreadTable.update_forall h.written fun hw => absurd hw.inBlock hout

/-! ### Steps of a control loop -/

/-- Loop `i` goes on inside or outside an iteration. -/
theorem setLoop (h : w.Keeps pose) (hiter : l'.pc.Iterating →
      ∃ l, w.loops i = some l ∧ l.pc.Iterating)
    (hdue : l'.pc.Computing → ∀ k ∈ l'.due, k ∈ w.passed)
    (hcovered : l'.pc.Covered → w.Covers pose l'.due w.localPlanner.globalPlan) :
    (w.setLoop i l').Keeps pose := by
  refine ⟨h.locked, h.unique, h.order, h.written, h.temp, ?_, ?_, ?_, ?_, h.follows⟩
  · refine ThreadTable.update_forall h.iterating fun hi => ?_
    obtain ⟨l, hl, hl'⟩ := hiter hi
    exact h.iterating i l hl hl'
  · refine ThreadTable.update_forall ?_ fun hi => ?_
    · intro j m hm hj
      refine ThreadTable.update_forall (h.single j m hm hj) fun hi => ?_
      obtain ⟨l, hl, hl'⟩ := hiter hi
      exact h.single j m hm hj i l hl hl'
    · obtain ⟨l, hl, hl'⟩ := hiter hi
      exact ThreadTable.update_forall (h.single i l hl hl') fun _ => rfl
  · exact ThreadTable.update_forall h.due hdue
  · exact ThreadTable.update_forall h.covered hcovered

/-- Loop `i` starts an iteration. -/
theorem lock (h : w.Keeps pose) (hfree : w.planMutex = false) (hpc : l'.pc = .compute) :
    Keeps pose ({ w with planMutex := true }.setLoop i l') := by
  have hnone : ∀ j m, w.loops j = some m → ¬ m.pc.Iterating := by
    intro j m hm hj
    have := h.iterating j m hm hj
    rw [hfree] at this
    cases this
  have hcompute : ¬ l'.pc.Computing := by simp [LoopPc.Computing, hpc]
  refine ⟨h.locked, h.unique, h.order, h.written, h.temp, fun _ _ _ _ => rfl, ?_, ?_, ?_,
    h.follows⟩
  · intro j m hm hj
    rcases ThreadTable.update_cases hm with ⟨rfl, rfl⟩ | ⟨-, hold⟩
    · exact ThreadTable.update_forall (fun j m hm hj => absurd hj (hnone j m hm)) fun _ => rfl
    · exact absurd hj (hnone j m hold)
  · exact ThreadTable.update_forall h.due fun hc => absurd hc hcompute
  · exact ThreadTable.update_forall h.covered fun hc => absurd hc.computing hcompute

/-- Loop `i` ends an iteration. -/
theorem unlock (h : w.Keeps pose) (hl : w.loops i = some l) (hiter : l.pc.Iterating)
    (hpc : l'.pc = .test) : Keeps pose ({ w with planMutex := false }.setLoop i l') := by
  have hout : ¬ l'.pc.Iterating := by simp [LoopPc.Iterating, hpc]
  have hnone : ∀ j m, ({ w with planMutex := false }.setLoop i l').loops j = some m →
      ¬ m.pc.Iterating := by
    intro j m hm hj
    rcases ThreadTable.update_cases hm with ⟨rfl, rfl⟩ | ⟨hji, hold⟩
    · exact hout hj
    · exact hji (h.single i l hl hiter j m hold hj)
  exact ⟨h.locked, h.unique, h.order, h.written, h.temp, fun j m hm hj => absurd hj (hnone j m hm),
    fun j m hm hj => absurd hj (hnone j m hm),
    fun j m hm hc => absurd hc.iterating (hnone j m hm),
    fun j m hm hc => absurd hc.computing.iterating (hnone j m hm), h.follows⟩

/-- Loop `i` goes on inside an iteration, without a plan to follow. -/
theorem iterate (h : w.Keeps pose) (hl : w.loops i = some l) (hiter : l.pc.Iterating)
    (hout : ¬ l'.pc.Computing) : (w.setLoop i l').Keeps pose :=
  h.setLoop (fun _ => ⟨l, hl, hiter⟩) (fun hc => absurd hc hout) fun hc => absurd hc.computing hout

/-- Loop `i` goes on outside an iteration. -/
theorem idle (h : w.Keeps pose) (hout : ¬ l'.pc.Iterating) : (w.setLoop i l').Keeps pose :=
  h.setLoop (fun hi => absurd hi hout) (fun hc => absurd hc.iterating hout)
    fun hc => absurd hc.computing.iterating hout

/-- No other loop has read a plan that it is going to follow. -/
theorem alone (h : w.Keeps pose) (hl : w.loops i = some l) (hiter : l.pc.Iterating) {j : Nat}
    {m : Loop} (hm : w.loops j = some m) (hc : m.pc.Covered) : j = i :=
  h.single i l hl hiter j m hm hc.computing.iterating

/-- Loop `i` reads the plan. -/
theorem copyPlan (h : w.Keeps pose) (hl : w.loops i = some l) (hpc : l.pc = .copyPlan) :
    Keeps pose ({ w with localPlanner := w.localPlanner.getPlan }.setLoop i
      { l with pc := .releasePlan }) := by
  have hcomputing : l.pc.Computing := Or.inr (Or.inl hpc)
  have hdue := h.due i l hl hcomputing
  refine ⟨h.locked, h.unique, h.order, h.written, h.temp, ?_, ?_, ?_, ?_, h.follows⟩
  · exact ThreadTable.update_forall h.iterating fun _ => h.iterating i l hl hcomputing.iterating
  · refine ThreadTable.update_forall ?_ fun _ => ?_
    · intro j m hm hj
      exact ThreadTable.update_forall (h.single j m hm hj)
        fun _ => h.single j m hm hj i l hl hcomputing.iterating
    · exact ThreadTable.update_forall (h.single i l hl hcomputing.iterating) fun _ => rfl
  · exact ThreadTable.update_forall h.due fun _ => hdue
  · intro j m hm hc
    rcases ThreadTable.update_cases hm with ⟨rfl, rfl⟩ | ⟨hji, hold⟩
    · exact fun k hk => h.temp k (hdue k hk)
    · exact absurd (h.alone hl hcomputing.iterating hold hc) hji

/-- Loop `i` follows the plan that it has read. -/
theorem follow (h : w.Keeps pose) (hl : w.loops i = some l) (hpc : l.pc = .follow) (cmdVel : Vel)
    (n : Nat) (e : ErrorInfo) :
    Keeps pose ({ w with
      cmdVel := cmdVel
      follows := w.follows ++ [Follow.mk l.due w.localPlanner.globalPlan]
      localPlanner := { w.localPlanner with
        globalPlan := w.localPlanner.globalPlan.drop n } }.setLoop i
          { l with pc := .judge, errorInfo := e }) := by
  have hcov : l.pc.Covered := Or.inr hpc
  have hiter := hcov.computing.iterating
  refine ⟨h.locked, h.unique, h.order, h.written, h.temp, ?_, ?_, ?_, ?_, fun f hf => ?_⟩
  · exact ThreadTable.update_forall h.iterating fun _ => h.iterating i l hl hiter
  · refine ThreadTable.update_forall ?_ fun _ => ?_
    · intro j m hm hj
      exact ThreadTable.update_forall (h.single j m hm hj)
        fun _ => h.single j m hm hj i l hl hiter
    · exact ThreadTable.update_forall (h.single i l hl hiter) fun _ => rfl
  · exact ThreadTable.update_forall h.due fun hc => by simp [LoopPc.Computing] at hc
  · intro j m hm hc
    rcases ThreadTable.update_cases hm with ⟨rfl, rfl⟩ | ⟨hji, hold⟩
    · simp [LoopPc.Covered] at hc
    · exact absurd (h.alone hl hiter hold hc) hji
  · rcases List.mem_append.mp hf with hold | hnew
    · exact h.follows f hold
    · rw [List.mem_singleton.mp hnew]
      exact h.covered i l hl hcov

end Keeps

/-! ## Steps and runs -/

theorem executeStep_keeps (h : w.Keeps pose) (hx : w.executes k = some x)
    (hok : (x.pc = .lockPlan → w.planMtx = false ∧ ∀ j ∈ w.passed, j < k) ∧
      (x.pc = .setPlan → w.localPlanner.planMutex = false) ∧
      (x.pc = .writePlan → x.route = [] → w.localPlanner.tempPlan = []))
    (hstep : w.executeStep pose k x = some w') : w'.Keeps pose := by
  obtain ⟨hlock, hset, hwrite⟩ := hok
  unfold executeStep at hstep
  cases hpc : x.pc <;> rw [hpc] at hstep <;> dsimp only at hstep
  case begin | canceled | readState | readError | stopIdle | startRunning | abortInit =>
    cases hstep
    exact (h.others _ _ _ _ _ _ _ _ _ _ _ _ _).move hx rfl (by simp [ExecutePc.InBlock])
  case checkState =>
    cases hstep
    refine h.move hx rfl ?_
    dsimp only
    split <;> simp [ExecutePc.InBlock]
  case lockPlan =>
    obtain ⟨hfree, horder⟩ := hlock hpc
    rw [hfree] at hstep
    cases hstep
    exact h.lockPlan hx hfree horder
  case setPlan =>
    rw [hset hpc] at hstep
    cases hstep
    exact (h.others _ _ _ _ _ _ _ _ _ _ _ _ _).setExecute hx rfl
      (fun _ => Or.inl hpc) (by simp [ExecutePc.Written])
  case writePlan =>
    cases hstep
    exact h.writePlan hx hpc (hwrite hpc)
  case releasePlan =>
    cases hstep
    exact (h.others _ _ _ _ _ _ _ _ _ _ _ _ _).setExecute hx rfl
      (fun _ => Or.inr (Or.inr (Or.inl hpc))) fun _ => Or.inl hpc
  case unlockPlan =>
    cases hstep
    exact h.unlockPlan hx hpc
  case startJoin | stopJoin =>
    obtain ⟨v, hv, rfl⟩ := Option.map_eq_some_iff.mp hstep
    have hx' : v.executes k = some x := by rw [(join_executes hv).1]; exact hx
    exact (h.join hv).move hx' rfl (by simp [ExecutePc.InBlock])
  case startLoop =>
    cases hstep
    exact (((h.idle (i := w.spawned) (by simp [LoopPc.Iterating])).others
      _ _ _ _ _ _ _ _ _ _ _ _ _).move hx rfl (by simp [ExecutePc.InBlock]))
  case poll =>
    cases hstep
    refine h.move hx rfl ?_
    dsimp only
    split <;> simp [ExecutePc.InBlock]
  case report =>
    split_ifs at hstep <;> cases hstep <;>
      exact (h.others _ _ _ _ _ _ _ _ _ _ _ _ _).move hx rfl (by simp [ExecutePc.InBlock])
  case finish =>
    split at hstep <;> cases hstep <;>
      exact (h.others _ _ _ _ _ _ _ _ _ _ _ _ _).move hx rfl (by simp [ExecutePc.InBlock])
  case done => cases hstep

theorem loopStep_keeps (h : w.Keeps pose) (hl : w.loops i = some l) {input : LoopInput Vel}
    (hok : l.pc = .getPlan → w.localPlanner.planMutex = false)
    (hstep : w.loopStep zero input i l = some w') : w'.Keeps pose := by
  unfold loopStep at hstep
  cases hpc : l.pc <;> rw [hpc] at hstep <;> dsimp only at hstep
  case init =>
    split_ifs at hstep <;> cases hstep <;>
      exact (h.others _ _ _ _ _ _ _ _ _ _ _ _ _).idle (by simp [LoopPc.Iterating])
  case initFailure | initError | stop =>
    cases hstep
    exact (h.others _ _ _ _ _ _ _ _ _ _ _ _ _).idle (by simp [LoopPc.Iterating])
  case test =>
    cases hstep
    refine h.idle ?_
    dsimp only
    split <;> simp [LoopPc.Iterating]
  case lock =>
    split at hstep
    · cases hstep
    · next hfree =>
        cases hstep
        exact h.lock (by simpa using hfree) rfl
  case compute =>
    have hiter : l.pc.Iterating := Or.inl hpc
    split_ifs at hstep <;> cases hstep
    · exact h.setLoop (fun _ => ⟨l, hl, hiter⟩) (fun _ k hk => hk)
        fun hc => by simp [LoopPc.Covered] at hc
    · exact h.iterate hl hiter (by simp [LoopPc.Computing])
  case getPlan =>
    have hcomputing : l.pc.Computing := Or.inl hpc
    rw [hok hpc] at hstep
    cases hstep
    exact (h.others _ _ _ _ _ _ _ _ _ _ _ _ _).setLoop
      (fun _ => ⟨l, hl, hcomputing.iterating⟩) (fun _ => h.due i l hl hcomputing)
      fun hc => by simp [LoopPc.Covered] at hc
  case copyPlan =>
    cases hstep
    exact h.copyPlan hl hpc
  case releasePlan =>
    cases hstep
    have hcov : l.pc.Covered := Or.inl hpc
    exact (h.others _ _ _ _ _ _ _ _ _ _ _ _ _).setLoop
      (fun _ => ⟨l, hl, hcov.computing.iterating⟩) (fun _ => h.due i l hl hcov.computing)
      fun _ => h.covered i l hl hcov
  case follow =>
    cases hstep
    exact h.follow hl hpc _ _ _
  case judge =>
    have hiter : l.pc.Iterating := by simp [LoopPc.Iterating, hpc]
    split_ifs at hstep <;> cases hstep <;>
      exact (h.others _ _ _ _ _ _ _ _ _ _ _ _ _).iterate hl hiter (by simp [LoopPc.Computing])
  case setSuccess | setFailure =>
    cases hstep
    exact (h.others _ _ _ _ _ _ _ _ _ _ _ _ _).iterate hl (by simp [LoopPc.Iterating, hpc])
      (by simp [LoopPc.Computing])
  case setError =>
    cases hstep
    exact (h.others _ _ _ _ _ _ _ _ _ _ _ _ _).unlock hl (by simp [LoopPc.Iterating, hpc]) rfl
  case finished => cases hstep

theorem step_keeps {e : LocalPlannerEvent Pose Vel} (h : w.Keeps pose) (hw : w.Numbered)
    (hok : w.HandsOver e) (hstep : step pose zero w e = some w') : w'.Keeps pose := by
  unfold step at hstep
  split at hstep
  · cases hstep
  cases e with
  | accept route =>
      cases hstep
      exact h.handleAccepted (hw _ (Nat.le_refl _)) route
  | cancel k =>
      obtain ⟨x, hx, rfl⟩ := Option.map_eq_some_iff.mp hstep
      exact h.setExecute hx rfl id id
  | execute k =>
      obtain ⟨x, hx, hstep⟩ := Option.bind_eq_some_iff.mp hstep
      exact executeStep_keeps h hx (hok x hx) hstep
  | loop i input =>
      obtain ⟨l, hl, hstep⟩ := Option.bind_eq_some_iff.mp hstep
      exact loopStep_keeps h hl (hok l hl) hstep

/-- In every run that hands the routes over, what is followed is the plan of the last goal that had
passed its `SetPlan` block, or of a later one. -/
theorem run_followsLatest (pose : Pose) (zero : Vel) (events : List (LocalPlannerEvent Pose Vel))
    (w : LocalPlannerNode Pose Vel)
    (hhands : StateMachine.Along (step pose zero) HandsOver (start zero) events)
    (hrun : StateMachine.run (step pose zero) (start zero) events = some w) :
    w.FollowsLatest pose :=
  (StateMachine.run_invariant_of (P := fun v : LocalPlannerNode Pose Vel => v.Keeps pose ∧ v.Numbered)
    (fun _ _ _ h hok hstep => ⟨step_keeps h.1 h.2 hok hstep, step_numbered h.2 hstep⟩)
    ⟨start_keeps, fun _ _ => rfl⟩ hhands hrun).1.follows

/-! ## Three runs -/

/-- A route is set and the loop started; it follows the route. -/
def oneRoute : List (LocalPlannerEvent Nat Nat) :=
  .accept [1, 2] :: executeSteps 10 0 ++ loopSteps 8 0 1 false

/-- A second route arrives while the loop reads the plan. -/
def lostRoute : List (LocalPlannerEvent Nat Nat) :=
  .accept [1, 2] :: executeSteps 10 0 ++ loopSteps 5 0 1 false ++
    .accept [3] :: executeSteps 5 1 ++ loopSteps 13 0 1 false

/-- The first goal is cancelled and its loop joined, then an empty route is set. -/
def emptyRoute : List (LocalPlannerEvent Nat Nat) :=
  .accept [1, 2] :: executeSteps 10 0 ++ .cancel 0 :: executeSteps 3 0 ++ loopSteps 3 0 1 false ++
    .execute 0 :: .accept [] :: executeSteps 10 1 ++ loopSteps 8 1 1 false

theorem run_followsLatest_oneRoute :
    ∃ w, StateMachine.run (step 0 0) (start 0) oneRoute = some w ∧
      w.follows.map Follow.plan = [[1, 2]] ∧ w.FollowsLatest 0 := by
  obtain ⟨w, hw⟩ := Option.isSome_iff_exists.mp
    (show (StateMachine.run (step 0 0) (start 0) oneRoute).isSome = true by decide +kernel)
  have hfollows : (StateMachine.run (step 0 0) (start 0) oneRoute).map
      (fun w => w.follows.map Follow.plan) = some [[1, 2]] := by decide +kernel
  rw [hw, Option.map_some, Option.some.injEq] at hfollows
  exact ⟨w, hw, hfollows, run_followsLatest 0 0 oneRoute w (by decide +kernel) hw⟩

/-- The loop goes on with a route after a later one has passed its `SetPlan` block, and after an
empty route it follows the poses of an earlier one. -/
theorem setPlan_loses_route :
    (¬ ∀ (pose vel : Nat) (events : List (LocalPlannerEvent Nat Nat)) (w : LocalPlannerNode Nat Nat),
        StateMachine.run (step pose vel) (start vel) events = some w → w.FollowsLatest pose) ∧
      ∃ w : LocalPlannerNode Nat Nat, StateMachine.run (step 0 0) (start 0) emptyRoute = some w ∧
        (w.executes 1).map Execute.route = some [] ∧ w.follows.map Follow.plan = [[1, 2, 0]] := by
  constructor
  · intro hall
    obtain ⟨w, hw⟩ := Option.isSome_iff_exists.mp
      (show (StateMachine.run (step 0 0) (start 0) lostRoute).isSome = true by decide +kernel)
    have hlogs : (StateMachine.run (step 0 0) (start 0) lostRoute).map
        (fun w => (w.follows.getLast?.map (fun f => (f.due, f.plan)), w.accepted,
          (w.executes 1).map (Execute.plan 0))) =
          some (some ([0, 1], [1, 2]), 2, some [3]) := by decide +kernel
    rw [hw, Option.map_some, Option.some.injEq, Prod.mk.injEq, Prod.mk.injEq] at hlogs
    obtain ⟨hfollows, haccepted, hplan⟩ := hlogs
    obtain ⟨f, hf, heq⟩ := Option.map_eq_some_iff.mp hfollows
    obtain ⟨hdue, hfplan⟩ := Prod.mk.inj heq
    obtain ⟨j, x, hj, hx, hxplan⟩ := hall 0 0 _ w hw f (List.mem_of_getLast? hf) 1
      (by rw [hdue]; decide)
    -- the only goal from the second one on is the second one
    have hlt : j < 2 := by
      by_contra hge
      rw [run_numbered hw j (by omega)] at hx
      cases hx
    obtain rfl : j = 1 := by omega
    rw [hx, Option.map_some, ← hxplan, hfplan] at hplan
    exact absurd hplan (by decide)
  · obtain ⟨w, hw⟩ := Option.isSome_iff_exists.mp
      (show (StateMachine.run (step 0 0) (start 0) emptyRoute).isSome = true by decide +kernel)
    have hlogs : (StateMachine.run (step 0 0) (start 0) emptyRoute).map
        (fun w => ((w.executes 1).map Execute.route, w.follows.map Follow.plan)) =
          some (some [], [[1, 2, 0]]) := by decide +kernel
    rw [hw, Option.map_some, Option.some.injEq] at hlogs
    exact ⟨w, hw, Prod.mk.inj hlogs⟩

end LocalPlannerNode

end RoboRTS.LocalPlanner
