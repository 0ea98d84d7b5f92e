import RoboRTS.Decision.BehaviorTree.Invariant

/-!
# What a node owes to its parent

`Sound` says what `Run` and `Reset` of a node do, given the invariant of its subtree. It is proved
here for the nodes without a list of children: an action, and a precondition node whose child is
sound.
-/

namespace RoboRTS.Decision.BehaviorTree

/-- `Run` has returned `state` with the invariant in place. -/
structure RunPost (t : BehaviorNode) (path : Path) (w : World) (state : BehaviorState) (w' : World) :
    Prop where
  inv : Inv t path w'
  state : (w'.node path).behaviorState = state
  frame : Frame path w w'

/-- `Reset` has returned with no node of the tree running. -/
structure ResetPost (t : BehaviorNode) (path : Path) (w w' : World) : Prop where
  inv : Inv t path w'
  stopped : ¬ w'.Running path
  frame : Frame path w w'

/-- The back reevaluation of a node with precondition: it fails, or it aborts its sibling and goes
on with the child. -/
structure Reevaluates (t : BehaviorNode) (path : Path) (m : Methods) (parent : ParentSelector)
    (w w₀ : World) : Prop where
  inv : Inv t path w₀
  stopped : ¬ w₀.Running path
  frame : Frame path w w₀
  run : (∃ w', m.run (some parent) w = some (.FAILURE, w') ∧ RunPost t path w₀ .FAILURE w') ∨
    ∀ w₁, parent.abort w₀ = some w₁ → Inv t path w₁ → ¬ w₁.Running path →
      ∃ state w', m.run (some parent) w = some (state, w') ∧ RunPost t path w₁ state w'

/-- What the methods of a node do. -/
structure Sound (t : BehaviorNode) (path : Path) (m : Methods) : Prop where
  reset : ∀ w, Inv t path w → ∃ w', m.reset w = some w' ∧ ResetPost t path w w'
  run : ∀ w, Inv t path w → ∃ state w', m.run none w = some (state, w') ∧ RunPost t path w state w'
  /-- The parent pointer is used by the back reevaluation only. -/
  parent : ∀ parent w, ¬ (m.reevaluation = true ∧ parent.index < (w.node parent.path).childrenIndex) →
    m.run (some parent) w = m.run none w
  reevaluates : m.reevaluation = true → ∀ parent w, Inv t path w → ¬ w.Running path →
    parent.index < (w.node parent.path).childrenIndex → ∃ w₀, Reevaluates t path m parent w w₀

/-- The methods of a list of children whose parent is at `path`. -/
structure SoundChildren (ts : List BehaviorNode) (path : Path) (ms : List Methods) : Prop where
  length : ms.length = ts.length
  sound : ∀ j c m, ts[j]? = some c → ms[j]? = some m → Sound c (j :: path) m

/-- The invariant of every child. -/
def Children (ts : List BehaviorNode) (path : Path) (w : World) : Prop :=
  ∀ j c, ts[j]? = some c → Inv c (j :: path) w

variable {t c : BehaviorNode} {ts : List BehaviorNode} {ms : List Methods} {path : Path}
  {w w' w₁ : World} {j k : Nat} {state : BehaviorState}

/-- `Run` of a node whose `Update` returns. -/
theorem run_eq {onInitialize : World → World} {update : World → Option (BehaviorState × World)}
    {onTerminate : BehaviorState → World → Option World}
    (h : update (if w.Running path then w else onInitialize w) = some (state, w₁)) :
    BehaviorNode.Run path onInitialize update onTerminate w =
      if state = .RUNNING then some (state, w₁.setState path state)
      else (onTerminate state (w₁.setState path state)).map fun w => (state, w) := by
  rw [BehaviorNode.Run, h, Option.bind_some]

@[simp] theorem running_setState_self : (w.setState path state).Running path ↔ state = .RUNNING := by
  simp [World.Running, World.setState]

@[simp] theorem running_setState_child :
    (w.setState path state).Running (j :: path) ↔ w.Running (j :: path) := by
  simp [World.Running, World.setState]

@[simp] theorem index_setState :
    ((w.setState path state).node path).childrenIndex = (w.node path).childrenIndex := by
  simp [World.setState]

@[simp] theorem index_setChildrenIndex :
    ((w.setChildrenIndex path k).node path).childrenIndex = k := by
  simp [World.setChildrenIndex]

@[simp] theorem running_setChildrenIndex_child :
    (w.setChildrenIndex path k).Running (j :: path) ↔ w.Running (j :: path) := by
  simp [World.Running, World.setChildrenIndex]

theorem Children.set (h : Children ts path w) (data : NodeData) :
    Children ts path (w.set path data) :=
  fun j c hc => (h j c hc).set_parent data

/-- One child at work keeps the invariant of all. -/
theorem Children.step (h : Children ts path w) (hc : ts[j]? = some c)
    (hinv : Inv c (j :: path) w') (hframe : Frame (j :: path) w w') : Children ts path w' := by
  intro i d hd
  by_cases hij : i = j
  · subst hij
    rw [hc] at hd
    cases hd
    exact hinv
  · exact hframe.inv_sibling hij (h i d hd)

theorem Frame.running_sibling (h : Frame (j :: path) w w') (hne : k ≠ j) :
    w'.Running (k :: path) ↔ w.Running (k :: path) := by
  rw [World.Running, h.sibling hne]
  rfl

/-- The child at a position and its methods. -/
theorem SoundChildren.exists (h : SoundChildren ts path ms) (hj : j < ts.length) :
    ∃ c m, ts[j]? = some c ∧ ms[j]? = some m ∧ Sound c (j :: path) m := by
  have hm : j < ms.length := h.length ▸ hj
  exact ⟨ts[j], ms[j], List.getElem?_eq_getElem hj, List.getElem?_eq_getElem hm,
    h.sound j _ _ (List.getElem?_eq_getElem hj) (List.getElem?_eq_getElem hm)⟩

/-! ## Actions -/

theorem inv_action : Inv .action path w ↔ Local w path .action := by
  rw [inv_iff]
  simp [BehaviorNode.children]

@[simp] theorem calls_called (call : Call) :
    ((w.called path call).node path).calls = (w.node path).calls ++ [call] := by
  simp [World.called]

@[simp] theorem running_called (call : Call) :
    (w.called path call).Running path ↔ w.Running path := by
  simp [World.Running, World.called]

@[simp] theorem calls_setState :
    ((w.setState path state).node path).calls = (w.node path).calls := by
  simp [World.setState]

@[simp] theorem state_called (call : Call) :
    ((w.called path call).node path).behaviorState = (w.node path).behaviorState := by
  simp [World.called]

@[simp] theorem state_setState :
    ((w.setState path state).node path).behaviorState = state := by
  simp [World.setState]

theorem frame_called (call : Call) : Frame path w (w.called path call) :=
  frame_set path w _

theorem frame_setState : Frame path w (w.setState path state) :=
  frame_set path w _

theorem frame_setChildrenIndex : Frame path w (w.setChildrenIndex path k) :=
  frame_set path w _

/-- An action that is stopped after an `Update`. -/
theorem inv_action_terminated (hcalls : Alternate (w.node path).calls .updated)
    (hstate : state ≠ .RUNNING) :
    Inv .action path ((w.setState path state).called path .OnTerminate) := by
  rw [inv_action]
  have hrunning : ¬ ((w.setState path state).called path .OnTerminate).Running path := by
    rw [running_called, running_setState_self]
    exact hstate
  show Alternate _ _
  rw [if_neg hrunning, calls_called, calls_setState]
  exact hcalls.concat rfl

theorem sound_action (env : Environment) (path : Path) :
    Sound .action path (BehaviorNode.actionMethods env path) := by
  constructor
  case reset =>
    intro w hinv
    rw [inv_action] at hinv
    show ∃ w', BehaviorNode.Reset path _ w = some w' ∧ _
    unfold BehaviorNode.Reset
    by_cases hrunning : w.Running path
    · rw [if_pos hrunning]
      have hcalls : Alternate (w.node path).calls .updated := by
        simpa only [Local, if_pos hrunning] using hinv
      refine ⟨_, rfl, inv_action_terminated hcalls (by simp), by simp, ?_⟩
      exact frame_setState.trans (frame_called _)
    · rw [if_neg hrunning]
      exact ⟨w, rfl, inv_action.mpr hinv, hrunning, Frame.refl path w⟩
  case run =>
    intro w hinv
    rw [inv_action] at hinv
    simp only [BehaviorNode.actionMethods]
    -- the world in which `Update` is called
    obtain ⟨w₀, hw₀, hcalls, hframe⟩ : ∃ w₀,
        (if w.Running path then w else w.called path .OnInitialize) = w₀ ∧
        Alternate ((w₀.node path).calls ++ [.Update]) .updated ∧ Frame path w w₀ := by
      by_cases hrunning : w.Running path
      · have hcalls : Alternate (w.node path).calls .updated := by
          simpa only [Local, if_pos hrunning] using hinv
        exact ⟨w, if_pos hrunning, hcalls.concat rfl, Frame.refl path w⟩
      · have hcalls : Alternate (w.node path).calls .outside := by
          simpa only [Local, if_neg hrunning] using hinv
        refine ⟨_, if_neg hrunning, ?_, frame_called _⟩
        rw [calls_called]
        exact (hcalls.concat (show callStep .outside .OnInitialize = some .initialized from rfl)).concat rfl
    generalize hstate : env.update path (w₀.node path).calls = state
    have hupdate : (fun w : World =>
        some (env.update path (w.node path).calls, w.called path .Update))
        (if w.Running path then w else w.called path .OnInitialize) =
        some (state, w₀.called path .Update) := by
      rw [hw₀, ← hstate]
    rw [run_eq hupdate]
    have hframe₁ : Frame path w ((w₀.called path .Update).setState path state) :=
      (hframe.trans (frame_called _)).trans frame_setState
    by_cases hrunning : state = .RUNNING
    · rw [if_pos hrunning]
      refine ⟨_, _, rfl, inv_action.mpr ?_, by simp, hframe₁⟩
      show Alternate _ _
      rw [if_pos (running_setState_self.mpr hrunning), calls_setState, calls_called]
      exact hcalls
    · rw [if_neg hrunning]
      refine ⟨_, _, rfl, inv_action_terminated ?_ hrunning, by simp, hframe₁.trans (frame_called _)⟩
      rw [calls_called]
      exact hcalls
  case parent => exact fun _ _ _ => rfl
  case reevaluates =>
    intro h
    cases h

/-! ## Precondition nodes -/

section Precondition

open BehaviorNode

variable {env : Environment} {abortType : AbortType} {child : BehaviorNode} {m : Methods}

theorem inv_precondition : Inv (.precondition abortType child) path w ↔
    (w.Running (0 :: path) ↔ w.Running path) ∧ Inv child (0 :: path) w := by
  rw [inv_iff]
  constructor
  · rintro ⟨hlocal, hchild⟩
    exact ⟨hlocal, hchild 0 child rfl⟩
  · rintro ⟨hlocal, hchild⟩
    refine ⟨hlocal, fun j c hc => ?_⟩
    obtain ⟨rfl, rfl⟩ : j = 0 ∧ child = c := by
      simpa [BehaviorNode.children, List.getElem?_singleton] using hc
    exact hchild

theorem Inv.setState_parent (h : Inv c (j :: path) w) : Inv c (j :: path) (w.setState path state) :=
  h.set_parent _

theorem Inv.called_parent (h : Inv c (j :: path) w) (call : Call) :
    Inv c (j :: path) (w.called path call) :=
  h.set_parent _

@[simp] theorem running_called_child (call : Call) :
    (w.called path call).Running (j :: path) ↔ w.Running (j :: path) := by
  simp [World.Running, World.called]

/-- `Run` of a precondition node after its `Update`: a node that fails while its child still runs
resets the child. -/
theorem precondition_finish (abortType : AbortType) (hm : Sound child (0 :: path) m) (hinv : Inv child (0 :: path) w₁)
    (hstate : state = .FAILURE ∨ (w₁.node (0 :: path)).behaviorState = state)
    (hframe : Frame path w w₁) :
    ∃ w', (if state = .RUNNING then some (state, w₁.setState path state)
      else (preconditionOnTerminate m state (w₁.setState path state)).map fun w => (state, w)) =
        some (state, w') ∧ RunPost (.precondition abortType child) path w state w' := by
  have hset : Inv child (0 :: path) (w₁.setState path state) := hinv.setState_parent
  have hframe₁ : Frame path w (w₁.setState path state) := hframe.trans frame_setState
  -- `OnTerminate` where it resets the child
  have hreset : state ≠ .RUNNING → ∃ w', m.reset (w₁.setState path state) = some w' ∧
      RunPost (.precondition abortType child) path w state w' := by
    intro hne
    obtain ⟨w', hreset, hpost⟩ := hm.reset _ hset
    have hself := hpost.frame.self
    refine ⟨w', hreset, inv_precondition.mpr ⟨?_, hpost.inv⟩, ?_, hframe₁.trans hpost.frame.parent⟩
    · rw [World.Running, World.Running, hself, state_setState]
      exact iff_of_false hpost.stopped hne
    · rw [hself, state_setState]
  cases state with
  | RUNNING =>
      have hchild := hstate.resolve_left (by simp)
      refine ⟨_, if_pos rfl, inv_precondition.mpr ⟨?_, hset⟩, by simp, hframe₁⟩
      rw [running_setState_child, running_setState_self]
      exact iff_of_true hchild rfl
  | SUCCESS =>
      have hchild := hstate.resolve_left (by simp)
      refine ⟨w₁.setState path .SUCCESS, rfl, inv_precondition.mpr ⟨?_, hset⟩, by simp, hframe₁⟩
      rw [running_setState_child, running_setState_self, World.Running, hchild]
  | FAILURE | IDLE =>
      obtain ⟨w', hreset, hpost⟩ := hreset (by simp)
      exact ⟨w', by simp [preconditionOnTerminate, hreset], hpost⟩

/-- The self reevaluation only calls the precondition. -/
theorem selfReevaluation_cases (env : Environment) (abortType : AbortType) (path : Path)
    (w : World) : ∃ passed w', selfReevaluation env abortType path w = (passed, w') ∧
      (w' = w ∨ w' = w.called path .Precondition) := by
  unfold selfReevaluation
  split_ifs
  · exact ⟨_, _, rfl, Or.inr rfl⟩
  · exact ⟨_, _, rfl, Or.inl rfl⟩

theorem sound_precondition (hm : Sound child (0 :: path) m) :
    Sound (.precondition abortType child) path (preconditionMethods env abortType path m) := by
  constructor
  case reset =>
    intro w hinv
    obtain ⟨hlocal, hchild⟩ := inv_precondition.mp hinv
    show ∃ w', Reset path (preconditionOnTerminate m) w = some w' ∧ _
    unfold Reset
    by_cases hrunning : w.Running path
    · rw [if_pos hrunning]
      have hset : Inv child (0 :: path) (w.setState path .IDLE) := hchild.setState_parent
      obtain ⟨w', hreset, hpost⟩ := hm.reset _ hset
      have hself := hpost.frame.self
      have hstopped : ¬ w'.Running path := by
        rw [World.Running, hself, state_setState]
        simp
      exact ⟨w', hreset, inv_precondition.mpr ⟨iff_of_false hpost.stopped hstopped, hpost.inv⟩,
        hstopped, frame_setState.trans hpost.frame.parent⟩
    · rw [if_neg hrunning]
      exact ⟨w, rfl, hinv, hrunning, Frame.refl path w⟩
  case run =>
    intro w hinv
    obtain ⟨-, hchild⟩ := inv_precondition.mp hinv
    simp only [preconditionMethods]
    obtain ⟨passed, w₀, hself, hw₀⟩ := selfReevaluation_cases env abortType path w
    have hchild₀ : Inv child (0 :: path) w₀ := by
      obtain rfl | rfl := hw₀
      · exact hchild
      · exact hchild.called_parent _
    have hframe₀ : Frame path w w₀ := by
      obtain rfl | rfl := hw₀
      · exact Frame.refl path _
      · exact frame_called _
    have hupdate : preconditionUpdate env abortType path m none (if w.Running path then w else id w) =
        if passed then m.run none w₀ else some (.FAILURE, w₀) := by
      rw [id_eq, ite_self, preconditionUpdate, preconditionReevaluation, hself, Option.bind_some]
    cases passed with
    | true =>
        obtain ⟨state, w₁, hrun, hpost⟩ := hm.run w₀ hchild₀
        obtain ⟨w', hfinish, hpost'⟩ := precondition_finish abortType hm hpost.inv
          (Or.inr hpost.state) (hframe₀.trans hpost.frame.parent)
        exact ⟨state, w', by rw [run_eq (hupdate.trans hrun), hfinish], hpost'⟩
    | false =>
        obtain ⟨w', hfinish, hpost'⟩ := precondition_finish abortType hm hchild₀
          (Or.inl rfl) hframe₀
        exact ⟨.FAILURE, w', by rw [run_eq hupdate, hfinish], hpost'⟩
  case parent =>
    intro parent w hnot
    have hreevaluation : ¬ (lowPriority abortType = true ∧
        parent.index < (w.node parent.path).childrenIndex) := hnot
    simp only [preconditionMethods, Run, id_eq, ite_self, preconditionUpdate,
      preconditionReevaluation, if_neg hreevaluation]
  case reevaluates =>
    intro hlow parent w hinv hstopped hbefore
    have hlow : lowPriority abortType = true := hlow
    obtain ⟨hlocal, hchild⟩ := inv_precondition.mp hinv
    have hinv₀ : Inv (.precondition abortType child) path (w.called path .Precondition) := by
      refine inv_precondition.mpr ⟨?_, hchild.called_parent _⟩
      rw [running_called, running_called_child]
      exact hlocal
    refine ⟨w.called path .Precondition, hinv₀, by simpa using hstopped, frame_called _, ?_⟩
    have hreevaluation : preconditionReevaluation env abortType path (some parent) w =
        backReevaluation env path parent w := by
      simp only [preconditionReevaluation, hlow, hbefore, and_self, if_true]
    simp only [preconditionMethods]
    cases hholds : env.precondition path (w.node path).calls with
    | false =>
        left
        have hupdate : preconditionUpdate env abortType path m (some parent)
            (if w.Running path then w else id w) = some (.FAILURE, w.called path .Precondition) := by
          rw [id_eq, ite_self, preconditionUpdate, hreevaluation]
          simp [backReevaluation, evaluate, hholds]
        obtain ⟨w', hfinish, hpost⟩ := precondition_finish abortType hm
          (inv_precondition.mp hinv₀).2 (Or.inl rfl) (Frame.refl path _)
        exact ⟨w', by rw [run_eq hupdate, hfinish], hpost⟩
    | true =>
        right
        intro w₁ habort hinv₁ _
        obtain ⟨state, w₂, hrun, hpost⟩ := hm.run w₁ (inv_precondition.mp hinv₁).2
        have hupdate : preconditionUpdate env abortType path m (some parent)
            (if w.Running path then w else id w) = some (state, w₂) := by
          rw [id_eq, ite_self, preconditionUpdate, hreevaluation]
          simp [backReevaluation, evaluate, hholds, habort, hrun]
        obtain ⟨w', hfinish, hpost'⟩ := precondition_finish abortType hm hpost.inv
          (Or.inr hpost.state) hpost.frame.parent
        exact ⟨state, w', by rw [run_eq hupdate, hfinish], hpost'⟩

end Precondition

end RoboRTS.Decision.BehaviorTree
