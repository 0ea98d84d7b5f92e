import RoboRTS.Lib.Logged
import RoboRTS.Decision.BehaviorTree.Running
import Mathlib.Data.Nat.Find

/-!
# Preemption in a selector

`Update` of a selector with its events: which children it runs, which one it resets, and when the
subtree that a child guards is entered. The first child before the running one that looks at its
siblings and whose precondition holds preempts it: the running child is reset, once, and only then
its subtree is entered. The scan goes on from there. Without such a child the preconditions of the
earlier children are evaluated and nothing else, and the scan starts with the running child
(`selector_preempts`).
-/

namespace RoboRTS.Decision.BehaviorTree

open BehaviorNode

/-- An event of a tick of a selector: `Run` of a child is called, a child is reset, a node is ticked
in the subtree that a precondition node guards or, for another child, in the child's own subtree,
and `Run` of a child has returned. -/
inductive TickEvent where
  | run (index : Nat)
  | reset (index : Nat)
  | enter (index : Nat)
  | returned (index : Nat) (state : BehaviorState)
  deriving DecidableEq, Repr

/-! ## The functions with their events -/

section Traced

variable (env : Environment)

/-- `BehaviorNode::Run`. -/
def tracedRun (path : Path) (onInitialize : World → World)
    (update : World → Logged TickEvent (BehaviorState × World))
    (onTerminate : BehaviorState → World → Option World) (w : World) :
    Logged TickEvent (BehaviorState × World) :=
  let w := if w.Running path then w else onInitialize w
  (update w).bind fun (state, w) =>
    let w := w.setState path state
    if state = .RUNNING then .pure (state, w)
    else .lift ((onTerminate state w).map fun w => (state, w))

/-- The back reevaluation. -/
def tracedBack (path : Path) (parent : ParentSelector) (w : World) :
    Logged TickEvent (Bool × World) :=
  let (holds, w) := evaluate env path w
  if holds then
    (Logged.tell (.reset (w.node parent.path).childrenIndex)).bind fun _ =>
      .lift ((parent.abort w).map fun w => (true, w))
  else .pure (false, w)

/-- `PreconditionNode::Reevaluation`. -/
def tracedReevaluation (abortType : AbortType) (path : Path) (parent : Option ParentSelector)
    (w : World) : Logged TickEvent (Bool × World) :=
  match parent with
  | some parent =>
      if lowPriority abortType ∧ parent.index < (w.node parent.path).childrenIndex then
        tracedBack env path parent w
      else .pure (selfReevaluation env abortType path w)
  | none => .pure (selfReevaluation env abortType path w)

/-- `PreconditionNode::Update` of the child at `index`. -/
def tracedPrecondition (abortType : AbortType) (index : Nat) (path : Path) (child : Methods)
    (parent : Option ParentSelector) (w : World) : Logged TickEvent (BehaviorState × World) :=
  (tracedReevaluation env abortType path parent w).bind fun (passed, w) =>
    if passed then (Logged.tell (.enter index)).bind fun _ => .lift (child.run none w)
    else .pure (.FAILURE, w)

/-- `Run` of a node, the child at `index` of a selector. -/
def tracedNode (index : Nat) (t : BehaviorNode) (path : Path) (parent : Option ParentSelector)
    (w : World) : Logged TickEvent (BehaviorState × World) :=
  match t with
  | .precondition abortType child =>
      tracedRun path id
        (tracedPrecondition env abortType index path (methods env child (0 :: path)) parent)
        (preconditionOnTerminate (methods env child (0 :: path))) w
  | t => (Logged.tell (.enter index)).bind fun _ => .lift ((methods env t path).run parent w)

/-- `Run` of a child, with its beginning and its end. -/
def tracedChild (index : Nat) (t : BehaviorNode) (path : Path) (parent : Option ParentSelector)
    (w : World) : Logged TickEvent (BehaviorState × World) :=
  (Logged.tell (.run index)).bind fun _ =>
    (tracedNode env index t path parent w).bind fun (state, w) =>
      (Logged.tell (.returned index state)).bind fun _ => .pure (state, w)

variable (ts : List BehaviorNode) (path : Path)

/-- What a child finds behind its parent pointer. -/
def selectorParent (index : Nat) : Option ParentSelector :=
  parentSelector path (childMethods env ts path 0) index

/-- The loop over the children of a selector. -/
def tracedChildren : Nat → World → Logged TickEvent (BehaviorState × World)
  | 0, _ => none
  | k + 1, w =>
      let index := (w.node path).childrenIndex
      (Logged.lift ts[index]?).bind fun t =>
        (tracedChild env index t (index :: path) (selectorParent env ts path index) w).bind
          fun (state, w) =>
            if state ≠ .FAILURE then .pure (state, w)
            else
              let index := (w.node path).childrenIndex + 1
              let w := w.setChildrenIndex path index
              if index = ts.length then .pure (.FAILURE, w.setChildrenIndex path 0)
              else tracedChildren k w

/-- The reevaluation loop of a selector. -/
def tracedReevaluate : Nat → Nat → World → Logged TickEvent (Option BehaviorState × World)
  | 0, _, w => .pure (none, w)
  | k + 1, index, w =>
      if index < (w.node path).childrenIndex then
        (Logged.lift ts[index]?).bind fun t =>
          if (methods env t (index :: path)).reevaluation then
            (tracedChild env index t (index :: path) (selectorParent env ts path index) w).bind
              fun (state, w) =>
                if index = (w.node path).childrenIndex then
                  if state ≠ .FAILURE then .pure (some state, w)
                  else .pure (none, w.setChildrenIndex path ((w.node path).childrenIndex + 1))
                else tracedReevaluate k (index + 1) w
          else tracedReevaluate k (index + 1) w
      else .pure (none, w)

/-- `SelectorNode::Update`. -/
def tracedUpdate (w : World) : Logged TickEvent (BehaviorState × World) :=
  if ts.length = 0 then .pure (.SUCCESS, w)
  else
    (tracedReevaluate env ts path ts.length 0 w).bind fun (returned, w) =>
      match returned with
      | some state => .pure (state, w)
      | none => tracedChildren env ts path ts.length w

/-! ## The events change nothing -/

variable {env ts path}

theorem erase_tracedReevaluation (abortType : AbortType) (path : Path)
    (parent : Option ParentSelector) (w : World) :
    (tracedReevaluation env abortType path parent w).erase =
      preconditionReevaluation env abortType path parent w := by
  unfold tracedReevaluation preconditionReevaluation
  cases parent with
  | none => rfl
  | some parent =>
      dsimp only
      split
      · unfold tracedBack backReevaluation
        dsimp only
        split
        · rw [Logged.erase_tell_bind, Logged.erase_lift]
        · rfl
      · rfl

theorem erase_tracedNode (index : Nat) (t : BehaviorNode) (path : Path)
    (parent : Option ParentSelector) (w : World) :
    (tracedNode env index t path parent w).erase = (methods env t path).run parent w := by
  cases t with
  | precondition abortType child =>
      show _ = Run path id (preconditionUpdate env abortType path (methods env child (0 :: path))
        parent) (preconditionOnTerminate (methods env child (0 :: path))) w
      unfold tracedNode tracedRun Run tracedPrecondition preconditionUpdate
      simp only [Logged.erase_bind, erase_tracedReevaluation]
      congr 1
      · congr 1
        funext out
        obtain ⟨passed, w₁⟩ := out
        cases passed with
        | false => rfl
        | true => simp only [if_true, Logged.erase_tell_bind, Logged.erase_lift]
      · funext out
        obtain ⟨state, w₁⟩ := out
        dsimp only
        split
        · rfl
        · exact Logged.erase_lift _
  | action | selector | sequence | parallel =>
      unfold tracedNode
      rw [Logged.erase_tell_bind, Logged.erase_lift]

theorem erase_tracedChild (index : Nat) (t : BehaviorNode) (path : Path)
    (parent : Option ParentSelector) (w : World) :
    (tracedChild env index t path parent w).erase = (methods env t path).run parent w := by
  unfold tracedChild
  rw [Logged.erase_tell_bind, Logged.erase_bind, erase_tracedNode]
  cases (methods env t path).run parent w <;> rfl

/-- The methods of the child at a position. -/
theorem getElem?_childMethods (ts : List BehaviorNode) (path : Path) (k j : Nat) :
    (childMethods env ts path k)[j]? = ts[j]?.map fun t => methods env t ((k + j) :: path) := by
  induction ts generalizing k j with
  | nil => rfl
  | cons t ts ih =>
      cases j with
      | zero => rfl
      | succ j =>
          show (childMethods env ts path (k + 1))[j]? = _
          rw [ih, Nat.add_right_comm]
          rfl

theorem erase_tracedChildren (k : Nat) (w : World) :
    (tracedChildren env ts path k w).erase =
      runChildren path (childMethods env ts path 0) .FAILURE (selectorParent env ts path) k w := by
  induction k generalizing w with
  | zero => rfl
  | succ k ih =>
      unfold tracedChildren runChildren
      dsimp only
      rw [Logged.erase_bind, Logged.erase_lift, getElem?_childMethods, Option.bind_map, Nat.zero_add]
      congr 1
      funext t
      rw [Logged.erase_bind, erase_tracedChild]
      show _ = Option.bind _ _
      congr 1
      funext out
      obtain ⟨state, w₁⟩ := out
      dsimp only
      rw [length_childMethods]
      split
      · rfl
      · split
        · rfl
        · exact ih _

theorem erase_tracedReevaluate (k index : Nat) (w : World) :
    (tracedReevaluate env ts path k index w).erase =
      reevaluateChildren path (childMethods env ts path 0) k index w := by
  induction k generalizing index w with
  | zero => rfl
  | succ k ih =>
      unfold tracedReevaluate reevaluateChildren
      split
      · rw [Logged.erase_bind, Logged.erase_lift, getElem?_childMethods, Option.bind_map,
          Nat.zero_add]
        congr 1
        funext t
        dsimp only [Function.comp]
        split
        · rw [Logged.erase_bind, erase_tracedChild]
          show _ = Option.bind _ _
          congr 1
          funext out
          obtain ⟨state, w₁⟩ := out
          dsimp only
          split
          · split
            · rfl
            · rfl
          · exact ih _ _
        · exact ih _ _
      · rfl

theorem erase_tracedUpdate (w : World) :
    (tracedUpdate env ts path w).erase = selectorUpdate path (childMethods env ts path 0) w := by
  unfold tracedUpdate selectorUpdate
  rw [length_childMethods]
  split
  · rfl
  · rw [Logged.erase_bind, erase_tracedReevaluate]
    congr 1
    funext out
    obtain ⟨returned, w₁⟩ := out
    cases returned with
    | none => exact erase_tracedChildren _ _
    | some state => rfl

end Traced

/-! ## What a tick looks like -/

/-- `Run` of a child that has nothing to preempt: its subtree is entered, or it fails before. -/
def Visit (index : Nat) (state : BehaviorState) (events : List TickEvent) : Prop :=
  events = [.run index, .enter index, .returned index state] ∨
    state = .FAILURE ∧ events = [.run index, .returned index .FAILURE]

/-- A scan of `size` children from the one at `index` on: it ends with the first child that does not
fail, or after the last one. -/
inductive Scans (size : Nat) : Nat → BehaviorState → List TickEvent → Prop
  | stop {index : Nat} {state : BehaviorState} {events : List TickEvent} : index < size →
      Visit index state events → state ≠ .FAILURE → Scans size index state events
  | exhausted {index : Nat} {events : List TickEvent} : index + 1 = size →
      Visit index .FAILURE events → Scans size index .FAILURE events
  | next {index : Nat} {state : BehaviorState} {events rest : List TickEvent} : index + 1 < size →
      Visit index .FAILURE events → Scans size (index + 1) state rest →
      Scans size index state (events ++ rest)

/-- The reevaluation of a child that does not preempt. -/
def skipped (ts : List BehaviorNode) (index : Nat) : List TickEvent :=
  match ts[index]? with
  | some (.precondition abortType _) =>
      if lowPriority abortType then [.run index, .returned index .FAILURE] else []
  | _ => []

/-- The child looks at its siblings, and its precondition holds when it is next evaluated. -/
def Preempts (env : Environment) (ts : List BehaviorNode) (path : Path) (w : World) (index : Nat) :
    Prop :=
  ∃ abortType child, ts[index]? = some (.precondition abortType child) ∧
    lowPriority abortType = true ∧
    env.precondition (index :: path) (w.node (index :: path)).calls = true

variable {env : Environment} {abortType : AbortType} {child t : BehaviorNode}
  {ts : List BehaviorNode} {path : Path} {w w' w₁ : World} {index i j k : Nat}
  {state : BehaviorState} {events : List TickEvent} {parent : ParentSelector}

/-! ## `Run` of a child -/

/-- `Run` of a node whose `Update` returns with events. -/
theorem tracedRun_eq {onInitialize : World → World}
    {update : World → Logged TickEvent (BehaviorState × World)}
    {onTerminate : BehaviorState → World → Option World}
    (hupdate : update (if w.Running path then w else onInitialize w) = some ((state, w₁), events))
    (hfinish : (if state = .RUNNING then some (state, w₁.setState path state)
      else (onTerminate state (w₁.setState path state)).map fun w => (state, w)) =
        some (state, w')) :
    tracedRun path onInitialize update onTerminate w = some ((state, w'), events) := by
  unfold tracedRun
  dsimp only
  rw [hupdate, Logged.bind_some]
  dsimp only
  split at hfinish
  · next hrunning =>
      rw [if_pos hrunning]
      cases hfinish
      show some ((state, _), events ++ []) = _
      rw [List.append_nil]
  · next hrunning =>
      rw [if_neg hrunning, hfinish]
      show some ((state, w'), events ++ []) = _
      rw [List.append_nil]

/-- `Run` of a child whose events are known. -/
theorem tracedChild_eq {parent : Option ParentSelector}
    (h : tracedNode env index t path parent w = some ((state, w'), events)) :
    tracedChild env index t path parent w =
      some ((state, w'), .run index :: (events ++ [.returned index state])) := by
  unfold tracedChild
  rw [Logged.tell_bind, h, Logged.bind_some]
  rfl

/-- `Run` of a precondition node whose `Update` has events. -/
theorem tracedChild_precondition {w₂ : World}
    (hupdate : tracedPrecondition env abortType index path (methods env child (0 :: path))
      (some parent) w = some ((state, w₂), events))
    (hfinish : (if state = .RUNNING then some (state, w₂.setState path state)
      else (preconditionOnTerminate (methods env child (0 :: path)) state
        (w₂.setState path state)).map fun w => (state, w)) = some (state, w')) :
    tracedChild env index (.precondition abortType child) path (some parent) w =
      some ((state, w'), .run index :: (events ++ [.returned index state])) := by
  have hbegin : (if w.Running path then w else id w) = w := by rw [id_eq, ite_self]
  have hnode : tracedNode env index (.precondition abortType child) path (some parent) w =
      some ((state, w'), events) := by
    refine tracedRun_eq ?_ hfinish
    rw [hbegin]
    exact hupdate
  exact tracedChild_eq hnode

/-- The back reevaluation is what a child before the running one does. -/
theorem tracedReevaluation_back (hlow : lowPriority abortType = true)
    (hbefore : parent.index < (w.node parent.path).childrenIndex) :
    tracedReevaluation env abortType path (some parent) w = tracedBack env path parent w :=
  if_pos ⟨hlow, hbefore⟩

/-- A child whose precondition does not hold fails in the reevaluation. -/
theorem tracedChild_fails (index : Nat) (parent : ParentSelector)
    (hinv : Inv (.precondition abortType child) path w)
    (hlow : lowPriority abortType = true)
    (hbefore : parent.index < (w.node parent.path).childrenIndex)
    (hfalse : env.precondition path (w.node path).calls = false) :
    ∃ w', tracedChild env index (.precondition abortType child) path (some parent) w =
        some ((.FAILURE, w'), [.run index, .returned index .FAILURE]) ∧
      RunPost (.precondition abortType child) path w .FAILURE w' := by
  obtain ⟨-, hchild⟩ := inv_precondition.mp hinv
  have hback : tracedBack env path parent w =
      Logged.pure (false, w.called path .Precondition) := by
    unfold tracedBack evaluate
    rw [hfalse]
    rfl
  have hupdate : tracedPrecondition env abortType index path (methods env child (0 :: path))
      (some parent) w = some ((.FAILURE, w.called path .Precondition), []) := by
    unfold tracedPrecondition
    rw [tracedReevaluation_back hlow hbefore, hback, Logged.pure_bind]
    rfl
  obtain ⟨w', hfinish, hpost⟩ := precondition_finish abortType (sound_methods env child (0 :: path))
    (hchild.called_parent .Precondition) (Or.inl rfl) (frame_called _)
  exact ⟨w', tracedChild_precondition hupdate hfinish, hpost⟩

/-- A child whose precondition holds aborts the running child and then enters its subtree. -/
theorem tracedChild_aborts (index : Nat) (parent : ParentSelector)
    (hlow : lowPriority abortType = true)
    (hbefore : parent.index < (w.node parent.path).childrenIndex)
    (htrue : env.precondition path (w.node path).calls = true)
    (habort : parent.abort (w.called path .Precondition) = some w₁)
    (hinv : Inv (.precondition abortType child) path w₁) :
    ∃ state w', tracedChild env index (.precondition abortType child) path (some parent) w =
        some ((state, w'), [.run index,
          .reset ((w.called path .Precondition).node parent.path).childrenIndex, .enter index,
          .returned index state]) ∧
      RunPost (.precondition abortType child) path w₁ state w' := by
  have hchild := sound_methods env child (0 :: path)
  obtain ⟨state, w₂, hrun, hpost⟩ := hchild.run w₁ (inv_precondition.mp hinv).2
  have hback : tracedBack env path parent w = some ((true, w₁),
      [.reset ((w.called path .Precondition).node parent.path).childrenIndex]) := by
    unfold tracedBack evaluate
    rw [htrue]
    dsimp only
    rw [if_pos rfl, Logged.tell_bind, habort]
    rfl
  have hupdate : tracedPrecondition env abortType index path (methods env child (0 :: path))
      (some parent) w = some ((state, w₂),
        [.reset ((w.called path .Precondition).node parent.path).childrenIndex, .enter index]) := by
    unfold tracedPrecondition
    rw [tracedReevaluation_back hlow hbefore, hback, Logged.bind_some]
    dsimp only
    rw [if_pos rfl, Logged.tell_bind, hrun]
    rfl
  obtain ⟨w', hfinish, hpost'⟩ := precondition_finish abortType hchild hpost.inv
    (Or.inr hpost.state) hpost.frame.parent
  exact ⟨state, w', tracedChild_precondition hupdate hfinish, hpost'⟩

/-- A precondition node without anything to preempt looks at itself only. -/
theorem tracedChild_self (index : Nat) (parent : ParentSelector)
    (hinv : Inv (.precondition abortType child) path w)
    (hnot : ¬(lowPriority abortType = true ∧
      parent.index < (w.node parent.path).childrenIndex)) :
    ∃ state w' events, tracedChild env index (.precondition abortType child) path (some parent) w =
        some ((state, w'), events) ∧
      Visit index state events ∧ RunPost (.precondition abortType child) path w state w' := by
  obtain ⟨-, hchild⟩ := inv_precondition.mp hinv
  obtain ⟨passed, w₀, hself, hw₀⟩ := selfReevaluation_cases env abortType path w
  have hchild₀ : Inv child (0 :: path) w₀ := by
    obtain rfl | rfl := hw₀
    · exact hchild
    · exact hchild.called_parent _
  have hframe₀ : Frame path w w₀ := by
    obtain rfl | rfl := hw₀
    · exact Frame.refl path _
    · exact frame_called _
  have hreevaluation : tracedReevaluation env abortType path (some parent) w =
      Logged.pure (passed, w₀) := by
    unfold tracedReevaluation
    rw [← hself]
    exact if_neg hnot
  have hm := sound_methods env child (0 :: path)
  cases passed with
  | true =>
      obtain ⟨state, w₁, hrun, hpost⟩ := hm.run w₀ hchild₀
      obtain ⟨w', hfinish, hpost'⟩ := precondition_finish abortType hm hpost.inv
        (Or.inr hpost.state) (hframe₀.trans hpost.frame.parent)
      have hupdate : tracedPrecondition env abortType index path (methods env child (0 :: path))
          (some parent) w = some ((state, w₁), [.enter index]) := by
        unfold tracedPrecondition
        rw [hreevaluation, Logged.pure_bind]
        dsimp only
        rw [if_pos rfl, Logged.tell_bind, hrun]
        rfl
      exact ⟨state, w', _, tracedChild_precondition hupdate hfinish, Or.inl rfl, hpost'⟩
  | false =>
      obtain ⟨w', hfinish, hpost'⟩ := precondition_finish abortType hm hchild₀ (Or.inl rfl) hframe₀
      have hupdate : tracedPrecondition env abortType index path (methods env child (0 :: path))
          (some parent) w = some ((.FAILURE, w₀), []) := by
        unfold tracedPrecondition
        rw [hreevaluation, Logged.pure_bind]
        rfl
      exact ⟨.FAILURE, w', _, tracedChild_precondition hupdate hfinish, Or.inr ⟨rfl, rfl⟩, hpost'⟩

/-- So a child with nothing to preempt is visited. -/
theorem tracedChild_visit (index : Nat) (parent : ParentSelector) (hinv : Inv t path w)
    (hnot : ¬((methods env t path).reevaluation = true ∧
      parent.index < (w.node parent.path).childrenIndex)) :
    ∃ state w' events, tracedChild env index t path (some parent) w = some ((state, w'), events) ∧
      Visit index state events ∧ RunPost t path w state w' := by
  have hsound := sound_methods env t path
  obtain ⟨state, w', hrun, hpost⟩ := hsound.run w hinv
  rw [← hsound.parent parent w hnot] at hrun
  by_cases hguard : ∃ abortType child, t = .precondition abortType child
  · obtain ⟨abortType, child, rfl⟩ := hguard
    exact tracedChild_self index parent hinv hnot
  · have hnode : tracedNode env index t path (some parent) w =
        some ((state, w'), [.enter index]) := by
      cases t with
      | precondition abortType child => exact absurd ⟨abortType, child, rfl⟩ hguard
      | action | selector | sequence | parallel =>
          unfold tracedNode
          dsimp only
          rw [Logged.tell_bind, hrun]
          rfl
    exact ⟨state, w', _, tracedChild_eq hnode, Or.inl rfl, hpost⟩

/-! ## The scan -/

/-- A selector that stands at a child runs from there on. -/
theorem tracedChildren_scans (hat : AtChild ts path w) (hindex : (w.node path).childrenIndex = index)
    (hk : ts.length ≤ index + k) :
    ∃ state w' events, tracedChildren env ts path k w = some ((state, w'), events) ∧
      Scans ts.length index state events := by
  induction k generalizing index w with
  | zero =>
      have := hat.index
      omega
  | succ k ih =>
      have hlt := hat.index
      rw [hindex] at hlt
      have hc : ts[index]? = some ts[index] := List.getElem?_eq_getElem hlt
      have hnot : ¬((methods env ts[index] (index :: path)).reevaluation = true ∧
          index < (w.node path).childrenIndex) := by
        rintro ⟨-, hbefore⟩
        omega
      obtain ⟨state, w₁, events, hchild, hvisit, hpost⟩ :=
        tracedChild_visit index ⟨path, (childMethods env ts path 0).map (·.reset), index⟩
          (hat.children index _ hc) hnot
      have hself := hpost.frame.self
      have hparent : selectorParent env ts path index =
          some ⟨path, (childMethods env ts path 0).map (·.reset), index⟩ := rfl
      unfold tracedChildren
      dsimp only
      rw [hindex, hc, Logged.lift_some_bind, hparent, hchild, Logged.bind_some]
      dsimp only
      by_cases hstate : state = .FAILURE
      case neg =>
        rw [if_pos hstate]
        exact ⟨state, w₁, events ++ [], rfl, by
          rw [List.append_nil]
          exact .stop hlt hvisit hstate⟩
      subst hstate
      rw [if_neg (not_not.mpr rfl), hself, hindex]
      by_cases hlast : index + 1 = ts.length
      · rw [if_pos hlast]
        exact ⟨.FAILURE, _, events ++ [], rfl, by
          rw [List.append_nil]
          exact .exhausted hlast hvisit⟩
      · rw [if_neg hlast]
        have hat₁ := hat.next hc hindex hpost (by simp) (by omega)
        obtain ⟨state, w', rest, hloop, hscans⟩ := ih hat₁ index_setChildrenIndex (by omega)
        rw [hloop]
        exact ⟨state, w', events ++ rest, rfl, .next (by omega) hvisit hscans⟩

/-! ## The reevaluation -/

/-- The children from `index` on that come before `i` are reevaluated and do not preempt. -/
def passedOver (ts : List BehaviorNode) (index i : Nat) : List TickEvent :=
  (List.range' index (i - index)).flatMap (skipped ts)

theorem passedOver_self (ts : List BehaviorNode) (i : Nat) : passedOver ts i i = [] := by
  simp [passedOver]

theorem passedOver_of_lt (ts : List BehaviorNode) (hlt : index < i) :
    passedOver ts index i = skipped ts index ++ passedOver ts (index + 1) i := by
  obtain ⟨d, rfl⟩ : ∃ d, i = index + 1 + d := ⟨i - (index + 1), by omega⟩
  have hlong : index + 1 + d - index = d + 1 := by omega
  have hshort : index + 1 + d - (index + 1) = d := by omega
  rw [passedOver, passedOver, hlong, hshort, List.range'_succ, List.flatMap_cons]

/-- What a child does leaves the preconditions of the others. -/
theorem Frame.preempts_sibling (hframe : Frame (j :: path) w w') (hne : i ≠ j) :
    Preempts env ts path w' i ↔ Preempts env ts path w i := by
  unfold Preempts
  rw [hframe.sibling hne]

/-- A child before the running one that does not preempt it. -/
theorem tracedReevaluate_skip (hat : AtChild ts path w) (hj : (w.node path).childrenIndex = j)
    (hlt : index < j) (hnot : ¬Preempts env ts path w index) :
    ∃ w₁, AtChild ts path w₁ ∧ (w₁.node path).childrenIndex = j ∧
      (∀ i, i ≠ index → (Preempts env ts path w₁ i ↔ Preempts env ts path w i)) ∧
      tracedReevaluate env ts path (k + 1) index w =
        Option.map (fun (out, events) => (out, skipped ts index ++ events))
          (tracedReevaluate env ts path k (index + 1) w₁) := by
  have hsize := hat.index
  rw [hj] at hsize
  have hc : ts[index]? = some ts[index] := List.getElem?_eq_getElem (hlt.trans hsize)
  have hinv := hat.children index _ hc
  generalize ts[index] = c at hc hinv
  have hstep : tracedReevaluate env ts path (k + 1) index w =
      if (methods env c (index :: path)).reevaluation then
        (tracedChild env index c (index :: path) (selectorParent env ts path index) w).bind
          fun (state, w) =>
            if index = (w.node path).childrenIndex then
              if state ≠ .FAILURE then .pure (some state, w)
              else .pure (none, w.setChildrenIndex path ((w.node path).childrenIndex + 1))
            else tracedReevaluate env ts path k (index + 1) w
      else tracedReevaluate env ts path k (index + 1) w := by
    rw [tracedReevaluate, if_pos (hj ▸ hlt), hc, Logged.lift_some_bind]
  cases hreevaluation : (methods env c (index :: path)).reevaluation with
  | false =>
      have hskipped : skipped ts index = [] := by
        rw [skipped, hc]
        cases c with
        | precondition abortType child =>
            have hlow : lowPriority abortType = false := hreevaluation
            simp [hlow]
        | action | selector | sequence | parallel => rfl
      refine ⟨w, hat, hj, fun _ _ => Iff.rfl, ?_⟩
      rw [hstep, hreevaluation, hskipped, if_neg (by simp)]
      exact (Option.map_id_apply).symm
  | true =>
      cases c with
      | action | selector | sequence | parallel => cases hreevaluation
      | precondition abortType child =>
          have hlow : lowPriority abortType = true := hreevaluation
          have hfalse : env.precondition (index :: path) (w.node (index :: path)).calls = false := by
            rw [← Bool.not_eq_true]
            exact fun h => hnot ⟨abortType, child, hc, hlow, h⟩
          have hskipped : skipped ts index = [.run index, .returned index .FAILURE] := by
            rw [skipped, hc]
            exact if_pos hlow
          obtain ⟨w₁, hchild, hpost⟩ := tracedChild_fails index
            ⟨path, (childMethods env ts path 0).map (·.reset), index⟩ hinv hlow (hj ▸ hlt) hfalse
          have hself := hpost.frame.self
          have hstopped : ¬w₁.Running (index :: path) := by
            rw [World.Running, hpost.state]
            simp
          refine ⟨w₁, hat.other hc hpost.inv hpost.frame hstopped, hself ▸ hj,
            fun i hne => hpost.frame.preempts_sibling hne, ?_⟩
          have hparent : selectorParent env ts path index =
              some ⟨path, (childMethods env ts path 0).map (·.reset), index⟩ := rfl
          rw [hstep, hreevaluation, if_pos rfl, hparent, hchild, Logged.bind_some, hskipped]
          dsimp only
          rw [hself, hj, if_neg (Nat.ne_of_lt hlt)]

/-- No child before the running one preempts it. -/
theorem tracedReevaluate_quiet (hat : AtChild ts path w) (hj : (w.node path).childrenIndex = j)
    (hquiet : ∀ i, index ≤ i → i < j → ¬Preempts env ts path w i) (hle : index ≤ j)
    (hk : j ≤ index + k) :
    ∃ w', tracedReevaluate env ts path k index w = some ((none, w'), passedOver ts index j) ∧
      AtChild ts path w' ∧ (w'.node path).childrenIndex = j := by
  induction k generalizing index w with
  | zero =>
      obtain rfl : index = j := by omega
      rw [passedOver_self]
      exact ⟨w, rfl, hat, hj⟩
  | succ k ih =>
      by_cases hlt : index < j
      case neg =>
        obtain rfl : index = j := by omega
        rw [tracedReevaluate, if_neg (hj ▸ hlt), passedOver_self]
        exact ⟨w, rfl, hat, hj⟩
      obtain ⟨w₁, hat₁, hj₁, hothers, hskip⟩ :=
        tracedReevaluate_skip (k := k) hat hj hlt (hquiet index le_rfl hlt)
      have hquiet₁ : ∀ i, index + 1 ≤ i → i < j → ¬Preempts env ts path w₁ i := by
        intro i hi hij
        rw [hothers i (by omega)]
        exact hquiet i (by omega) hij
      obtain ⟨w', hloop, hat', hj'⟩ := ih hat₁ hj₁ hquiet₁ hlt (by omega)
      rw [hskip, hloop, passedOver_of_lt ts hlt]
      exact ⟨w', rfl, hat', hj'⟩

/-- The child at `i` preempts the child at which the selector stands. -/
theorem tracedReevaluate_aborts (hat : AtChild ts path w) (hj : (w.node path).childrenIndex = j)
    (hlt : i < j) (hpreempts : Preempts env ts path w i) :
    ∃ first w', tracedReevaluate env ts path (k + 1) i w =
        some ((if first = .FAILURE then none else some first, w'),
          [.run i, .reset j, .enter i, .returned i first]) ∧
      (first = .FAILURE → AtChild ts path w' ∧ (w'.node path).childrenIndex = i + 1) := by
  obtain ⟨abortType, child, hc, hlow, htrue⟩ := hpreempts
  have hsize := hat.index
  rw [hj] at hsize
  have hframe₀ : Frame (i :: path) w (w.called (i :: path) .Precondition) := frame_called _
  have hself₀ := hframe₀.self
  -- the precondition is evaluated
  have hat₀ : AtChild ts path (w.called (i :: path) .Precondition) := by
    obtain ⟨hlocal, hchild⟩ := inv_precondition.mp (hat.children i _ hc)
    have hinv₀ : Inv (.precondition abortType child) (i :: path)
        (w.called (i :: path) .Precondition) := by
      refine inv_precondition.mpr ⟨?_, hchild.called_parent _⟩
      rw [running_called, running_called_child]
      exact hlocal
    refine hat.other hc hinv₀ hframe₀ ?_
    rw [running_called]
    exact hat.others i (hlt.trans hsize) (hj ▸ Nat.ne_of_lt hlt)
  -- the running child is reset
  obtain ⟨w₁, habort, hchildren₁, hstopped₁, hindex₁, -⟩ :=
    abort_spec (sound_childMethods env ts path) hat₀ i
  -- and the subtree of the preempting child is ticked
  obtain ⟨first, w₂, hchild, hpost⟩ := tracedChild_aborts i
    ⟨path, (childMethods env ts path 0).map (·.reset), i⟩ hlow (hj ▸ hlt) htrue habort
    (hchildren₁ i _ hc)
  have hindex₂ : (w₂.node path).childrenIndex = i := by rw [hpost.frame.self, hindex₁]
  have hparent : selectorParent env ts path i =
      some ⟨path, (childMethods env ts path 0).map (·.reset), i⟩ := rfl
  have hreevaluation : (methods env (.precondition abortType child) (i :: path)).reevaluation =
      true := hlow
  dsimp only at hchild
  rw [hself₀, hj] at hchild
  rw [tracedReevaluate, if_pos (hj ▸ hlt), hc, Logged.lift_some_bind, hreevaluation, if_pos rfl,
    hparent, hchild, Logged.bind_some]
  dsimp only
  rw [hindex₂, if_pos rfl]
  by_cases hfirst : first = .FAILURE
  case neg =>
    rw [if_pos hfirst]
    exact ⟨first, w₂, by rw [if_neg hfirst]; rfl, fun h => absurd h hfirst⟩
  subst hfirst
  rw [if_neg (not_not.mpr rfl)]
  have hat₁ : AtChild ts path w₁ :=
    ⟨hchildren₁, hindex₁ ▸ hlt.trans hsize, fun l hl _ => hstopped₁ l hl⟩
  have hat₂ := hat₁.next hc hindex₁ hpost (by simp) (by omega)
  exact ⟨.FAILURE, _, rfl, fun _ => ⟨hat₂, index_setChildrenIndex⟩⟩

/-- The first child that preempts the running one. -/
theorem tracedReevaluate_preempts (hat : AtChild ts path w) (hj : (w.node path).childrenIndex = j)
    (hfirst : ∀ l, index ≤ l → l < i → ¬Preempts env ts path w l)
    (hpreempts : Preempts env ts path w i) (hle : index ≤ i) (hlt : i < j) (hk : i < index + k) :
    ∃ first w', tracedReevaluate env ts path k index w =
        some ((if first = .FAILURE then none else some first, w'), passedOver ts index i ++
          [.run i, .reset j, .enter i, .returned i first]) ∧
      (first = .FAILURE → AtChild ts path w' ∧ (w'.node path).childrenIndex = i + 1) := by
  induction k generalizing index w with
  | zero => omega
  | succ k ih =>
      by_cases hindex : index < i
      case neg =>
        obtain rfl : index = i := by omega
        rw [passedOver_self]
        exact tracedReevaluate_aborts hat hj hlt hpreempts
      obtain ⟨w₁, hat₁, hj₁, hothers, hskip⟩ :=
        tracedReevaluate_skip (k := k) hat hj (hindex.trans hlt) (hfirst index le_rfl hindex)
      have hfirst₁ : ∀ l, index + 1 ≤ l → l < i → ¬Preempts env ts path w₁ l := by
        intro l hl hli
        rw [hothers l (by omega)]
        exact hfirst l (by omega) hli
      have hpreempts₁ : Preempts env ts path w₁ i := by
        rw [hothers i (by omega)]
        exact hpreempts
      obtain ⟨first, w', hloop, hfailed⟩ := ih hat₁ hj₁ hfirst₁ hpreempts₁ hindex (by omega)
      refine ⟨first, w', ?_, hfailed⟩
      rw [hskip, hloop, passedOver_of_lt ts hindex, List.append_assoc]
      rfl

/-! ## A tick of a running selector -/

/-- A tick in which the child at `i` preempts the child at `j`: the reset of `j` is the only one and
comes before the subtree of `i` is entered, and only if `i` fails does the tick go on, with a scan
of the children after it. -/
structure Preempted (ts : List BehaviorNode) (i j : Nat) (state : BehaviorState)
    (events : List TickEvent) : Prop where
  once : events.count (.reset j) = 1
  only : ∀ k, .reset k ∈ events → k = j
  parts : ∃ first rest, events = passedOver ts 0 i ++
      ([.run i, .reset j, .enter i, .returned i first] ++ rest) ∧
    (first ≠ .FAILURE → state = first ∧ rest = []) ∧
    (first = .FAILURE → Scans ts.length (i + 1) state rest)

/-- A tick in which no child preempts the child at `j`: no child is reset, no subtree before `j` is
entered, and the scan starts with `j`. -/
structure Undisturbed (ts : List BehaviorNode) (j : Nat) (state : BehaviorState)
    (events : List TickEvent) : Prop where
  kept : ∀ k, .reset k ∉ events
  entered : ∀ k, .enter k ∈ events → j ≤ k
  parts : ∃ rest, events = passedOver ts 0 j ++ rest ∧ Scans ts.length j state rest

theorem mem_passedOver {e : TickEvent} (h : e ∈ passedOver ts index i) :
    ∃ k, e = .run k ∨ e = .returned k .FAILURE := by
  obtain ⟨k, -, hk⟩ := List.mem_flatMap.mp h
  refine ⟨k, ?_⟩
  unfold skipped at hk
  split at hk
  · split at hk
    · simpa using hk
    · cases hk
  · cases hk

theorem Visit.mem {e : TickEvent} (h : Visit index state events) (he : e ∈ events) :
    e = .run index ∨ e = .enter index ∨ e = .returned index state := by
  obtain rfl | ⟨rfl, rfl⟩ := h
  · simpa using he
  · obtain rfl | rfl : e = .run index ∨ e = .returned index .FAILURE := by simpa using he
    · exact Or.inl rfl
    · exact Or.inr (Or.inr rfl)

theorem Scans.mem {size : Nat} {e : TickEvent} (h : Scans size index state events)
    (he : e ∈ events) : ∃ k s, index ≤ k ∧ (e = .run k ∨ e = .enter k ∨ e = .returned k s) := by
  induction h with
  | stop _ hvisit _ => exact ⟨_, _, le_rfl, hvisit.mem he⟩
  | exhausted _ hvisit => exact ⟨_, _, le_rfl, hvisit.mem he⟩
  | next _ hvisit _ ih =>
      cases List.mem_append.mp he with
      | inl hfirst => exact ⟨_, _, le_rfl, hvisit.mem hfirst⟩
      | inr hrest =>
          obtain ⟨k, s, hk, he⟩ := ih hrest
          exact ⟨k, s, by omega, he⟩

theorem reset_notMem_passedOver : .reset k ∉ passedOver ts index i := by
  intro h
  obtain ⟨l, h | h⟩ := mem_passedOver h <;> cases h

theorem Scans.reset_notMem {size : Nat} (h : Scans size index state events) : .reset k ∉ events := by
  intro hmem
  obtain ⟨l, s, -, h | h | h⟩ := h.mem hmem <;> cases h

theorem Preempted.of_parts {first : BehaviorState} {rest : List TickEvent}
    (hstop : first ≠ .FAILURE → state = first ∧ rest = [])
    (hscan : first = .FAILURE → Scans ts.length (i + 1) state rest) :
    Preempted ts i j state (passedOver ts 0 i ++
      ([.run i, .reset j, .enter i, .returned i first] ++ rest)) := by
  have hrest : ∀ k, .reset k ∉ rest := by
    intro k
    by_cases hfirst : first = .FAILURE
    · exact (hscan hfirst).reset_notMem
    · rw [(hstop hfirst).2]
      simp
  constructor
  case once =>
    rw [List.count_append, List.count_append, List.count_eq_zero.mpr reset_notMem_passedOver,
      List.count_eq_zero.mpr (hrest j)]
    simp
  case only =>
    intro k hk
    simpa [reset_notMem_passedOver, hrest k] using hk
  case parts => exact ⟨first, rest, rfl, hstop, hscan⟩

theorem Undisturbed.of_parts {rest : List TickEvent} (hscan : Scans ts.length j state rest) :
    Undisturbed ts j state (passedOver ts 0 j ++ rest) := by
  constructor
  case kept =>
    intro k hk
    cases List.mem_append.mp hk with
    | inl hpassed => exact reset_notMem_passedOver hpassed
    | inr hrest => exact hscan.reset_notMem hrest
  case entered =>
    intro k hk
    cases List.mem_append.mp hk with
    | inl hpassed =>
        obtain ⟨l, h | h⟩ := mem_passedOver hpassed <;> cases h
    | inr hrest =>
        obtain ⟨l, s, hl, h⟩ := hscan.mem hrest
        obtain rfl : k = l := by simpa using h
        exact hl
  case parts => exact ⟨rest, rfl, hscan⟩

/-- The reevaluation hands over to the scan. -/
theorem tracedUpdate_preempted (hat : AtChild ts path w) (hj : (w.node path).childrenIndex = j)
    (hlt : i < j) (hpreempts : Preempts env ts path w i)
    (hfirst : ∀ l < i, ¬Preempts env ts path w l) :
    ∃ state w' events, tracedUpdate env ts path w = some ((state, w'), events) ∧
      Preempted ts i j state events := by
  have hsize := hat.index
  rw [hj] at hsize
  obtain ⟨first, w₁, hloop, hfailed⟩ := tracedReevaluate_preempts (k := ts.length) hat hj
    (fun l _ hl => hfirst l hl) hpreempts (Nat.zero_le i) hlt (by omega)
  unfold tracedUpdate
  rw [if_neg (by omega), hloop, Logged.bind_some]
  by_cases hstate : first = .FAILURE
  · subst hstate
    obtain ⟨hat₁, hindex⟩ := hfailed rfl
    obtain ⟨state, w', rest, hchildren, hscans⟩ :=
      tracedChildren_scans (k := ts.length) hat₁ hindex (by omega)
    have hpreempted : Preempted ts i j state (passedOver ts 0 i ++
        ([.run i, .reset j, .enter i, .returned i .FAILURE] ++ rest)) :=
      .of_parts (fun h => absurd rfl h) fun _ => hscans
    refine ⟨state, w', _, ?_, hpreempted⟩
    rw [if_pos rfl]
    dsimp only
    rw [hchildren, Option.map_some, List.append_assoc]
  · have hpreempted : Preempted ts i j first (passedOver ts 0 i ++
        ([.run i, .reset j, .enter i, .returned i first] ++ [])) :=
      .of_parts (fun _ => ⟨rfl, rfl⟩) fun h => absurd h hstate
    refine ⟨first, w₁, _, ?_, hpreempted⟩
    rw [if_neg hstate]
    show some ((first, w₁), _ ++ []) = _
    rw [List.append_nil, List.append_nil]

theorem tracedUpdate_undisturbed (hat : AtChild ts path w)
    (hj : (w.node path).childrenIndex = j) (hquiet : ∀ i < j, ¬Preempts env ts path w i) :
    ∃ state w' events, tracedUpdate env ts path w = some ((state, w'), events) ∧
      Undisturbed ts j state events := by
  have hsize := hat.index
  rw [hj] at hsize
  obtain ⟨w₁, hloop, hat₁, hindex⟩ := tracedReevaluate_quiet (k := ts.length) hat hj
    (fun i _ hi => hquiet i hi) (Nat.zero_le j) (by omega)
  obtain ⟨state, w', rest, hchildren, hscans⟩ :=
    tracedChildren_scans (k := ts.length) hat₁ hindex (by omega)
  refine ⟨state, w', _, ?_, .of_parts hscans⟩
  unfold tracedUpdate
  rw [if_neg (by omega), hloop, Logged.bind_some]
  dsimp only
  rw [hchildren, Option.map_some]

/-- `Reset` of a node that does not run. -/
theorem reset_of_not_running (hstopped : ¬w.Running path) :
    (methods env t path).reset w = some w := by
  cases t <;> exact if_neg hstopped

/-- `Run` of a selector is its `Update`: no other child is left for `OnTerminate`. -/
theorem selector_run (hat : AtChild ts path w) (hrunning : w.Running path)
    (hupdate : tracedUpdate env ts path w = some ((state, w'), events))
    (parent : Option ParentSelector) :
    (methods env (.selector ts) path).run parent w = some (state, w'.setState path state) := by
  have hms := sound_childMethods env ts path
  have herase : selectorUpdate path (childMethods env ts path 0) w = some (state, w') := by
    rw [← erase_tracedUpdate, hupdate]
    rfl
  obtain ⟨state', w₁, hupdate', hupdated, -⟩ :=
    selectorUpdate_spec hms w hat.children fun _ => hat
  rw [herase] at hupdate'
  cases hupdate'
  show Run path _ _ _ w = _
  rw [run_eq (by rw [if_pos hrunning]; exact herase)]
  cases state with
  | RUNNING | SUCCESS | FAILURE => rfl
  | IDLE =>
      have hlt := hupdated.index (by simp)
      have hc : ts[(w'.node path).childrenIndex]? = some ts[(w'.node path).childrenIndex] :=
        List.getElem?_eq_getElem hlt
      have hstopped : ¬(w'.setState path .IDLE).Running ((w'.node path).childrenIndex :: path) := by
        rw [running_setState_child, hupdated.running _ hlt]
        simp
      rw [if_neg (by simp), compositeOnTerminate, index_setState, getElem?_childMethods, hc,
        Nat.zero_add, Option.map_some, Option.bind_some, reset_of_not_running hstopped]
      rfl

section Main

variable (env) (ts) (path)

/-- The states in which the selector at `path` may be found, whatever goes on in the rest of the
tree. -/
inductive SelectorReached : World → Prop
  | new : SelectorReached World.new
  | elsewhere {w w' : World} : SelectorReached w → (∀ q, path <:+ q → w'.node q = w.node q) →
      SelectorReached w'
  | run {w w' : World} {parent : Option ParentSelector} {state : BehaviorState} :
      SelectorReached w → (methods env (.selector ts) path).run parent w = some (state, w') →
      SelectorReached w'
  | reset {w w' : World} : SelectorReached w →
      (methods env (.selector ts) path).reset w = some w' → SelectorReached w'

variable {env} {ts} {path}

theorem SelectorReached.inv (h : SelectorReached env ts path w) : Inv (.selector ts) path w := by
  have hsound := sound_methods env (.selector ts) path
  induction h with
  | new => exact inv_new _ path
  | elsewhere _ hsame ih => exact ih.agree hsame
  | @run w w' parent state _ hrun ih =>
      obtain ⟨state', w₁, hrun', hpost⟩ := hsound.run _ ih
      have hparent : (methods env (.selector ts) path).run parent w = some (state', w₁) := hrun'
      rw [hrun] at hparent
      cases hparent
      exact hpost.inv
  | reset _ hreset ih =>
      obtain ⟨w₁, hreset', hpost⟩ := hsound.reset _ ih
      rw [hreset'] at hreset
      cases hreset
      exact hpost.inv

/-- A running selector stands at the child that runs. -/
theorem SelectorReached.atChild (h : SelectorReached env ts path w) (hrunning : w.Running path) :
    AtChild ts path w := by
  obtain ⟨hone, hchildren⟩ := inv_selector.mp h.inv
  exact ⟨hchildren, hone.index hrunning, fun j hj hne hchild =>
    hne ((hone.child j hj).mp hchild).2⟩

/-- In every state that a selector reaches and in which it runs, with `j` the child that runs: the
tick is a preemption by the first child before `j` that looks at its siblings and whose precondition
holds, and without such a child `j` is left alone. -/
theorem selector_preempts (env : Environment) (ts : List BehaviorNode) (path : Path)
    (parent : Option ParentSelector) {w : World} {j : Nat} (hreached : SelectorReached env ts path w)
    (hrunning : w.Running path) (hindex : (w.node path).childrenIndex = j) :
    j < ts.length ∧ w.Running (j :: path) ∧
    ∃ state w' events, tracedUpdate env ts path w = some ((state, w'), events) ∧
      (methods env (.selector ts) path).run parent w = some (state, w'.setState path state) ∧
      (∀ i < j, Preempts env ts path w i → (∀ l < i, ¬Preempts env ts path w l) →
        Preempted ts i j state events) ∧
      ((∀ i < j, ¬Preempts env ts path w i) → Undisturbed ts j state events) := by
  have hat := hreached.atChild hrunning
  have hj : j < ts.length := hindex ▸ hat.index
  refine ⟨hj, ((inv_selector.mp hreached.inv).1.child j hj).mpr ⟨hrunning, hindex.symm⟩, ?_⟩
  by_cases hquiet : ∀ i < j, ¬Preempts env ts path w i
  · obtain ⟨state, w', events, hupdate, hundisturbed⟩ := tracedUpdate_undisturbed hat hindex hquiet
    exact ⟨state, w', events, hupdate, selector_run hat hrunning hupdate parent,
      fun i hi hpreempts _ => absurd hpreempts (hquiet i hi), fun _ => hundisturbed⟩
  · push Not at hquiet
    obtain ⟨i, hi, hpreempts⟩ := hquiet
    classical
    -- the first child that preempts
    obtain ⟨m, hm, hpre, hmin⟩ : ∃ m < j, Preempts env ts path w m ∧
        ∀ l < m, ¬Preempts env ts path w l :=
      ⟨Nat.find ⟨i, hpreempts⟩, (Nat.find_min' _ hpreempts).trans_lt hi, Nat.find_spec _,
        fun l hl => Nat.find_min _ hl⟩
    obtain ⟨state, w', events, hupdate, hpreempted⟩ :=
      tracedUpdate_preempted hat hindex hm hpre hmin
    refine ⟨state, w', events, hupdate, selector_run hat hrunning hupdate parent,
      fun k hk hkpre hkmin => ?_, fun hnone => absurd hpre (hnone m hm)⟩
    obtain rfl : k = m := by
      by_contra hne
      rcases Nat.lt_or_gt_of_ne hne with hlt | hgt
      · exact hmin k hlt hkpre
      · exact hkmin m hgt hpre
    exact hpreempted

/-- A guard that holds from the second time on, before an action. -/
theorem selector_preempts_guard :
    ∃ w : World, ∃ j, 0 < j ∧
      Preempts ⟨fun _ _ => .RUNNING, fun _ calls => calls ≠ []⟩
        [.precondition .LOW_PRIORITY .action, .action] [] w 0 ∧
      ∃ state w' events, tracedUpdate ⟨fun _ _ => .RUNNING, fun _ calls => calls ≠ []⟩
          [.precondition .LOW_PRIORITY .action, .action] [] w = some ((state, w'), events) ∧
        Preempted [.precondition .LOW_PRIORITY .action, .action] 0 j state events := by
  obtain ⟨w, hrun⟩ : ∃ w, (methods ⟨fun _ _ => .RUNNING, fun _ calls => calls ≠ []⟩
      (.selector [.precondition .LOW_PRIORITY .action, .action]) []).run none World.new =
        some (.RUNNING, w) ∧ w.Running [] ∧ (w.node []).childrenIndex = 1 ∧
        (w.node [0]).calls = [.Precondition] := ⟨_, rfl, rfl, rfl, rfl⟩
  obtain ⟨hrun, hrunning, hindex, hcalls⟩ := hrun
  have hpreempts : Preempts ⟨fun _ _ => .RUNNING, fun _ calls => calls ≠ []⟩
      [.precondition .LOW_PRIORITY .action, .action] [] w 0 :=
    ⟨.LOW_PRIORITY, .action, rfl, rfl, by simp [hcalls]⟩
  obtain ⟨-, -, state, w', events, hupdate, -, hpreempted, -⟩ :=
    selector_preempts _ _ [] none (.run .new hrun) hrunning hindex
  exact ⟨w, 1, by decide, hpreempts, state, w', events, hupdate,
    hpreempted 0 (by decide) hpreempts fun l hl => by omega⟩

end Main

end RoboRTS.Decision.BehaviorTree
