import RoboRTS.Decision.BehaviorTree.Sound

/-!
# Selectors and sequences

Both run one child after the other and differ in the state that moves them on, and a selector
reevaluates the children before the running one first. The loops are treated for any children that
are sound.
-/

namespace RoboRTS.Decision.BehaviorTree

variable {t c : BehaviorNode} {ts : List BehaviorNode} {ms : List Methods} {path : Path}
  {w w' w₁ : World} {j k : Nat} {state : BehaviorState}

section Composite

open BehaviorNode

/-- Before a child is run: the node stands at a child, and no other runs. -/
structure AtChild (ts : List BehaviorNode) (path : Path) (w : World) : Prop where
  children : Children ts path w
  index : (w.node path).childrenIndex < ts.length
  others : ∀ j < ts.length, j ≠ (w.node path).childrenIndex → ¬ w.Running (j :: path)

/-- After `Update` has returned `state`: the node stands at the child that runs, if one does. -/
structure Updated (ts : List BehaviorNode) (path : Path) (state : BehaviorState) (w : World) :
    Prop where
  children : Children ts path w
  index : state ≠ .SUCCESS → (w.node path).childrenIndex < ts.length
  running : ∀ j < ts.length, w.Running (j :: path) ↔
    state = .RUNNING ∧ j = (w.node path).childrenIndex

/-- The parent pointer that a loop gives to its children does not trigger a back reevaluation. -/
def Plain (path : Path) (parent : Nat → Option ParentSelector) : Prop :=
  ∀ j, parent j = none ∨ ∃ resets, parent j = some ⟨path, resets, j⟩

theorem Sound.run_plain {m : Methods} {parent : Nat → Option ParentSelector}
    (hm : Sound c (j :: path) m) (hparent : Plain path parent)
    (hindex : j = (w.node path).childrenIndex) : m.run (parent j) w = m.run none w := by
  obtain hnone | ⟨resets, hsome⟩ := hparent j
  · rw [hnone]
  · rw [hsome, hm.parent]
    rintro ⟨-, hlt⟩
    have hlt : j < (w.node path).childrenIndex := hlt
    omega

/-- A child has done something and does not run. -/
theorem AtChild.other (hat : AtChild ts path w) (hc : ts[j]? = some c)
    (hinv : Inv c (j :: path) w₁) (hframe : Frame (j :: path) w w₁)
    (hstopped : ¬ w₁.Running (j :: path)) : AtChild ts path w₁ := by
  have hself := hframe.self
  refine ⟨hat.children.step hc hinv hframe, hself ▸ hat.index, fun i hi hother => ?_⟩
  rw [hself] at hother
  by_cases hij : i = j
  · exact hij ▸ hstopped
  · rw [hframe.running_sibling hij]
    exact hat.others i hi hother

/-- The child at which the node stands has ended, and the node moves on to the next one. -/
theorem AtChild.next (hat : AtChild ts path w) (hc : ts[j]? = some c)
    (hj : (w.node path).childrenIndex = j) (hpost : RunPost c (j :: path) w state w₁)
    (hstate : state ≠ .RUNNING) (hlt : j + 1 < ts.length) :
    AtChild ts path (w₁.setChildrenIndex path (j + 1)) := by
  refine ⟨(hat.children.step hc hpost.inv hpost.frame).set _, ?_, fun i hi _ => ?_⟩
  · rw [index_setChildrenIndex]
    exact hlt
  · rw [running_setChildrenIndex_child]
    by_cases hij : i = j
    · subst hij
      rw [World.Running, hpost.state]
      exact hstate
    · rw [hpost.frame.running_sibling hij]
      exact hat.others i hi (hj ▸ hij)

/-- The loop over the children ends with the child that returns something else than `next`, or
after the last one. -/
theorem runChildren_spec {next : BehaviorState} {parent : Nat → Option ParentSelector}
    (hms : SoundChildren ts path ms) (hparent : Plain path parent) (hnext : next ≠ .RUNNING)
    (hat : AtChild ts path w) (hk : ts.length ≤ (w.node path).childrenIndex + k) :
    ∃ state w', runChildren path ms next parent k w = some (state, w') ∧
      Updated ts path state w' ∧ Frame path w w' := by
  induction k generalizing w with
  | zero =>
      have := hat.index
      omega
  | succ k ih =>
      generalize hj : (w.node path).childrenIndex = j at *
      have hlt := hat.index
      rw [hj] at hlt
      obtain ⟨c, m, hc, hmj, hsound⟩ := hms.exists hlt
      obtain ⟨state, w₁, hrun, hpost⟩ := hsound.run w (hat.children j c hc)
      have hself := hpost.frame.self
      have hchildren := hat.children.step hc hpost.inv hpost.frame
      have hothers : ∀ i < ts.length, i ≠ j → ¬ w₁.Running (i :: path) := by
        intro i hi hne
        rw [hpost.frame.running_sibling hne]
        exact hat.others i hi (hj ▸ hne)
      have hplain := hsound.run_plain hparent hj.symm
      simp only [runChildren, hj, hmj, Option.bind_some, hplain, hrun, hself]
      by_cases hstate : state = next
      case neg =>
        rw [if_pos hstate]
        refine ⟨state, w₁, rfl, ⟨hchildren, fun _ => ?_, fun i hi => ?_⟩, hpost.frame.parent⟩
        · rw [hself, hj]
          exact hlt
        · rw [hself, hj]
          by_cases hij : i = j
          · subst hij
            rw [World.Running, hpost.state]
            simp
          · simp [hothers i hi hij, hij]
      rw [if_neg (not_not.mpr hstate)]
      have hstopped : ∀ i < ts.length, ¬ w₁.Running (i :: path) := by
        intro i hi
        by_cases hij : i = j
        · subst hij
          rw [World.Running, hpost.state, hstate]
          exact hnext
        · exact hothers i hi hij
      have hframe₁ : Frame path w (w₁.setChildrenIndex path (j + 1)) :=
        hpost.frame.parent.trans frame_setChildrenIndex
      by_cases hlast : j + 1 = ms.length
      · rw [if_pos hlast]
        refine ⟨next, _, rfl, ⟨(hchildren.set _).set _, fun _ => ?_, fun i hi => ?_⟩,
          hframe₁.trans frame_setChildrenIndex⟩
        · rw [index_setChildrenIndex]
          omega
        · simp [hstopped i hi, hnext]
      · rw [if_neg hlast]
        have hlength := hms.length
        have hat₁ := hat.next hc hj hpost (hstate ▸ hnext) (by omega)
        obtain ⟨state', w', hloop, hupdated, hframe⟩ :=
          ih hat₁ (by rw [index_setChildrenIndex]; omega)
        exact ⟨state', w', hloop, hupdated, hframe₁.trans hframe⟩

theorem plain_parentSelector : Plain path (parentSelector path ms) :=
  fun _ => Or.inr ⟨_, rfl⟩

/-- What the reevaluation loop leaves to the rest of `Update`. -/
def Reevaluated (ts : List BehaviorNode) (path : Path) (w : World) : Option BehaviorState → Prop
  | some state => Updated ts path state w
  | none => AtChild ts path w

/-- The abort measures stop the child at which the selector stands. -/
theorem abort_spec (hms : SoundChildren ts path ms) (hat : AtChild ts path w) (j : Nat) :
    ∃ w₁, ParentSelector.abort ⟨path, ms.map (·.reset), j⟩ w = some w₁ ∧ Children ts path w₁ ∧
      (∀ i < ts.length, ¬ w₁.Running (i :: path)) ∧ (w₁.node path).childrenIndex = j ∧
      Frame path w w₁ := by
  generalize hi : (w.node path).childrenIndex = i at *
  have hlt := hat.index
  rw [hi] at hlt
  obtain ⟨d, m, hd, hmi, hsound⟩ := hms.exists hlt
  obtain ⟨w₁, hreset, hpost⟩ := hsound.reset w (hat.children i d hd)
  have hresets : (ms.map (·.reset))[i]? = some m.reset := by simp [hmi]
  refine ⟨w₁.setChildrenIndex path j, ?_, (hat.children.step hd hpost.inv hpost.frame).set _, ?_,
    index_setChildrenIndex, hpost.frame.parent.trans frame_setChildrenIndex⟩
  · simp only [ParentSelector.abort, hi, hresets, Option.bind_some, hreset, Option.map_some]
  · intro l hl
    rw [running_setChildrenIndex_child]
    by_cases hli : l = i
    · exact hli ▸ hpost.stopped
    · rw [hpost.frame.running_sibling hli]
      exact hat.others l hl (hi ▸ hli)

/-- The reevaluation loop: either it finds no child of higher priority that aborts, or the one that
does becomes the child at which the selector stands. -/
theorem reevaluateChildren_spec (hms : SoundChildren ts path ms) (hat : AtChild ts path w) :
    ∃ returned w', reevaluateChildren path ms k j w = some (returned, w') ∧
      Reevaluated ts path w' returned ∧ Frame path w w' := by
  induction k generalizing j w with
  | zero => exact ⟨none, w, rfl, hat, Frame.refl path w⟩
  | succ k ih =>
      by_cases hbefore : j < (w.node path).childrenIndex
      case neg =>
        exact ⟨none, w, by rw [reevaluateChildren, if_neg hbefore], hat, Frame.refl path w⟩
      have hlt : j < ts.length := hbefore.trans hat.index
      obtain ⟨c, m, hc, hmj, hsound⟩ := hms.exists hlt
      rw [reevaluateChildren, if_pos hbefore, hmj, Option.bind_some]
      cases hreevaluation : m.reevaluation with
      | false =>
          simp only [Bool.false_eq_true, if_false]
          exact ih hat
      | true =>
          have hstopped := hat.others j hlt (Nat.ne_of_lt hbefore)
          obtain ⟨w₀, hinv₀, hstopped₀, hframe₀, hcase⟩ := hsound.reevaluates hreevaluation
            ⟨path, ms.map (·.reset), j⟩ w (hat.children j c hc) hstopped hbefore
          simp only [if_true, parentSelector]
          cases hcase with
          | inl hfails =>
              obtain ⟨w₁, hrun, hpost⟩ := hfails
              have hframe₁ := hframe₀.trans hpost.frame
              have hself₁ := hframe₁.self
              have hat₁ : AtChild ts path w₁ := by
                refine hat.other hc hpost.inv hframe₁ ?_
                rw [World.Running, hpost.state]
                simp
              obtain ⟨returned, w', hloop, hresult, hframe⟩ := ih (j := j + 1) hat₁
              refine ⟨returned, w', ?_, hresult, hframe₁.parent.trans hframe⟩
              rw [hrun, Option.bind_some, if_neg (by rw [hself₁]; omega)]
              exact hloop
          | inr haborts =>
              have hat₀ := hat.other hc hinv₀ hframe₀ hstopped₀
              obtain ⟨w₁, habort, hchildren₁, hstopped₁, hindex₁, hframe₁⟩ :=
                abort_spec hms hat₀ j
              obtain ⟨state, w₂, hrun, hpost⟩ :=
                haborts w₁ habort (hchildren₁ j c hc) (hstopped₁ j hlt)
              have hindex₂ : (w₂.node path).childrenIndex = j := by rw [hpost.frame.self, hindex₁]
              have hchildren₂ := hchildren₁.step hc hpost.inv hpost.frame
              have hothers : ∀ i < ts.length, i ≠ j → ¬ w₂.Running (i :: path) := by
                intro i hi hne
                rw [hpost.frame.running_sibling hne]
                exact hstopped₁ i hi
              have hframe₂ := (hframe₀.parent.trans hframe₁).trans hpost.frame.parent
              simp only [hrun, Option.bind_some, hindex₂, if_true]
              by_cases hstate : state = .FAILURE
              case neg =>
                rw [if_pos hstate]
                refine ⟨some state, w₂, rfl, ⟨hchildren₂, fun _ => hindex₂ ▸ hlt, ?_⟩, hframe₂⟩
                intro i hi
                rw [hindex₂]
                by_cases hij : i = j
                · subst hij
                  rw [World.Running, hpost.state]
                  simp
                · simp [hothers i hi hij, hij]
              rw [if_neg (not_not.mpr hstate)]
              have hindex := hat.index
              have hat₁ : AtChild ts path w₁ :=
                ⟨hchildren₁, hindex₁ ▸ hlt, fun i hi _ => hstopped₁ i hi⟩
              exact ⟨none, _, rfl, hat₁.next hc hindex₁ hpost (by simp [hstate]) (by omega),
                hframe₂.trans frame_setChildrenIndex⟩

/-- An `Update` that starts at a child, as `OnInitialize` and a running child leave it, ends with
the variables as they should be for the state that it returns. -/
def UpdateSpec (ts : List BehaviorNode) (path : Path)
    (update : World → Option (BehaviorState × World)) : Prop :=
  ∀ w, Children ts path w → (0 < ts.length → AtChild ts path w) →
    ∃ state w', update w = some (state, w') ∧ Updated ts path state w' ∧ Frame path w w'

theorem updated_of_empty (hempty : ts.length = 0) (hchildren : Children ts path w) :
    Updated ts path .SUCCESS w :=
  ⟨hchildren, fun h => absurd rfl h, fun j hj => by omega⟩

theorem selectorUpdate_spec (hms : SoundChildren ts path ms) :
    UpdateSpec ts path (selectorUpdate path ms) := by
  intro w hchildren hat
  unfold selectorUpdate
  by_cases hempty : ms.length = 0
  · rw [if_pos hempty]
    exact ⟨_, w, rfl, updated_of_empty (hms.length ▸ hempty) hchildren, Frame.refl path w⟩
  · rw [if_neg hempty]
    have hlength := hms.length
    obtain ⟨returned, w₁, hreevaluate, hresult, hframe₁⟩ :=
      reevaluateChildren_spec (k := ms.length) (j := 0) hms (hat (by omega))
    rw [hreevaluate, Option.bind_some]
    cases returned with
    | some state => exact ⟨state, w₁, rfl, hresult, hframe₁⟩
    | none =>
        obtain ⟨state, w', hloop, hupdated, hframe⟩ :=
          runChildren_spec (k := ms.length) hms plain_parentSelector
            (show BehaviorState.FAILURE ≠ .RUNNING by simp) hresult (by omega)
        exact ⟨state, w', hloop, hupdated, hframe₁.trans hframe⟩

theorem sequenceUpdate_spec (hms : SoundChildren ts path ms) :
    UpdateSpec ts path (sequenceUpdate path ms) := by
  intro w hchildren hat
  unfold sequenceUpdate
  by_cases hempty : ms.length = 0
  · rw [if_pos hempty]
    exact ⟨_, w, rfl, updated_of_empty (hms.length ▸ hempty) hchildren, Frame.refl path w⟩
  · rw [if_neg hempty]
    have hlength := hms.length
    exact runChildren_spec hms (fun _ => Or.inl rfl) (by simp) (hat (by omega)) (by omega)

/-- The invariant at a selector and at a sequence. -/
def CompositeInv (ts : List BehaviorNode) (path : Path) (w : World) : Prop :=
  OneRuns ts.length path w ∧ Children ts path w

theorem inv_selector : Inv (.selector ts) path w ↔ CompositeInv ts path w :=
  inv_iff

theorem inv_sequence : Inv (.sequence ts) path w ↔ CompositeInv ts path w :=
  inv_iff

/-- `OnTerminate` once no other child than the one at which the node stands may run. -/
theorem compositeOnTerminate_spec (hms : SoundChildren ts path ms) (hat : AtChild ts path w) :
    ∃ w', compositeOnTerminate path ms .IDLE w = some w' ∧ Children ts path w' ∧
      (∀ j < ts.length, ¬ w'.Running (j :: path)) ∧ w'.node path = w.node path ∧
      Frame path w w' := by
  generalize hi : (w.node path).childrenIndex = i at *
  have hlt := hat.index
  rw [hi] at hlt
  obtain ⟨d, m, hd, hmi, hsound⟩ := hms.exists hlt
  obtain ⟨w', hreset, hpost⟩ := hsound.reset w (hat.children i d hd)
  refine ⟨w', ?_, hat.children.step hd hpost.inv hpost.frame, ?_, hpost.frame.self,
    hpost.frame.parent⟩
  · rw [compositeOnTerminate, hi, hmi, Option.bind_some, hreset]
  · intro j hj
    by_cases hji : j = i
    · exact hji ▸ hpost.stopped
    · rw [hpost.frame.running_sibling hji]
      exact hat.others j hj (hi ▸ hji)

/-- `Reset` of a selector or a sequence. -/
theorem composite_reset (hms : SoundChildren ts path ms) (hinv : CompositeInv ts path w) :
    ∃ w', Reset path (compositeOnTerminate path ms) w = some w' ∧ CompositeInv ts path w' ∧
      ¬ w'.Running path ∧ Frame path w w' := by
  obtain ⟨hone, hchildren⟩ := hinv
  unfold Reset
  by_cases hrunning : w.Running path
  case neg =>
    rw [if_neg hrunning]
    exact ⟨w, rfl, ⟨hone, hchildren⟩, hrunning, Frame.refl path w⟩
  rw [if_pos hrunning]
  have hat : AtChild ts path (w.setState path .IDLE) := by
    refine ⟨hchildren.set _, ?_, fun j hj hne => ?_⟩
    · rw [index_setState]
      exact hone.index hrunning
    · rw [index_setState] at hne
      rw [running_setState_child, hone.child j hj]
      exact fun h => hne h.2
  obtain ⟨w', hterminate, hchildren', hstopped, hself, hframe⟩ := compositeOnTerminate_spec hms hat
  have hidle : ¬ w'.Running path := by
    rw [World.Running, hself, state_setState]
    simp
  refine ⟨w', hterminate, ⟨⟨fun h => absurd h hidle, fun j hj => ?_⟩, hchildren'⟩, hidle,
    frame_setState.trans hframe⟩
  exact iff_of_false (hstopped j hj) fun h => hidle h.1

/-- `Run` of a selector or a sequence. -/
theorem composite_run {update : World → Option (BehaviorState × World)}
    (hms : SoundChildren ts path ms) (hupdate : UpdateSpec ts path update)
    (hinv : CompositeInv ts path w) :
    ∃ state w', Run path (compositeOnInitialize path) update (compositeOnTerminate path ms) w =
      some (state, w') ∧ CompositeInv ts path w' ∧ (w'.node path).behaviorState = state ∧
      Frame path w w' := by
  obtain ⟨hone, hchildren⟩ := hinv
  -- the world in which `Update` is called
  obtain ⟨w₀, hw₀, hchildren₀, hat₀, hframe₀⟩ : ∃ w₀,
      (if w.Running path then w else compositeOnInitialize path w) = w₀ ∧ Children ts path w₀ ∧
      (0 < ts.length → AtChild ts path w₀) ∧ Frame path w w₀ := by
    by_cases hrunning : w.Running path
    · refine ⟨w, if_pos hrunning, hchildren, fun _ => ⟨hchildren, hone.index hrunning, ?_⟩,
        Frame.refl path w⟩
      intro j hj hne hchild
      exact hne ((hone.child j hj).mp hchild).2
    · refine ⟨_, if_neg hrunning, hchildren.set _,
        fun hpos => ⟨hchildren.set _, ?_, fun j hj _ => ?_⟩, frame_setChildrenIndex⟩
      · simpa [compositeOnInitialize] using hpos
      · rw [compositeOnInitialize, running_setChildrenIndex_child, hone.child j hj]
        exact fun h => hrunning h.1
  obtain ⟨state, w₁, hrun, hupdated, hframe₁⟩ := hupdate w₀ hchildren₀ hat₀
  have hframe : Frame path w (w₁.setState path state) :=
    (hframe₀.trans hframe₁).trans frame_setState
  rw [run_eq (hw₀ ▸ hrun)]
  -- what holds if `OnTerminate` leaves the children alone
  have hone₁ : OneRuns ts.length path (w₁.setState path state) := by
    constructor
    · rw [running_setState_self, index_setState]
      rintro rfl
      exact hupdated.index (by simp)
    · intro j hj
      rw [running_setState_child, running_setState_self, index_setState]
      exact hupdated.running j hj
  have hinv₁ : CompositeInv ts path (w₁.setState path state) := ⟨hone₁, hupdated.children.set _⟩
  cases state with
  | RUNNING | SUCCESS | FAILURE => exact ⟨_, _, rfl, hinv₁, state_setState, hframe⟩
  | IDLE =>
      have hat : AtChild ts path (w₁.setState path .IDLE) := by
        refine ⟨hinv₁.2, ?_, fun j hj _ => ?_⟩
        · rw [index_setState]
          exact hupdated.index (by simp)
        · rw [hone₁.child j hj]
          simp
      obtain ⟨w', hterminate, hchildren', hstopped, hself, hframe'⟩ :=
        compositeOnTerminate_spec hms hat
      have hidle : (w'.node path).behaviorState = .IDLE := by rw [hself, state_setState]
      have hnot : ¬ w'.Running path := by
        rw [World.Running, hidle]
        simp
      refine ⟨.IDLE, w', by simp [hterminate], ⟨⟨fun h => absurd h hnot, fun j hj => ?_⟩, hchildren'⟩,
        hidle, hframe.trans hframe'⟩
      exact iff_of_false (hstopped j hj) fun h => hnot h.1

/-- A composite node with an `Update` that does what it should. -/
theorem sound_composite {update : World → Option (BehaviorState × World)}
    (hms : SoundChildren ts path ms) (hinv : ∀ w, Inv t path w ↔ CompositeInv ts path w)
    (hupdate : UpdateSpec ts path update) :
    Sound t path
      { run := fun _ => Run path (compositeOnInitialize path) update (compositeOnTerminate path ms)
        reset := Reset path (compositeOnTerminate path ms)
        reevaluation := false } := by
  constructor
  case reset =>
    intro w hw
    obtain ⟨w', hreset, hinv', hstopped, hframe⟩ := composite_reset hms ((hinv w).mp hw)
    exact ⟨w', hreset, (hinv w').mpr hinv', hstopped, hframe⟩
  case run =>
    intro w hw
    obtain ⟨state, w', hrun, hinv', hstate, hframe⟩ := composite_run hms hupdate ((hinv w).mp hw)
    exact ⟨state, w', hrun, (hinv w').mpr hinv', hstate, hframe⟩
  case parent => exact fun _ _ _ => rfl
  case reevaluates =>
    intro h
    cases h

theorem sound_selector (hms : SoundChildren ts path ms) :
    Sound (.selector ts) path (selectorMethods path ms) :=
  sound_composite hms (fun _ => inv_selector) (selectorUpdate_spec hms)

theorem sound_sequence (hms : SoundChildren ts path ms) :
    Sound (.sequence ts) path (sequenceMethods path ms) :=
  sound_composite hms (fun _ => inv_sequence) (sequenceUpdate_spec hms)

end Composite

end RoboRTS.Decision.BehaviorTree
