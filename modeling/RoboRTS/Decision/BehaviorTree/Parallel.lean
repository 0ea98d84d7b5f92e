import RoboRTS.Decision.BehaviorTree.Sound

/-!
# Parallel nodes

A parallel node runs every child that is not done, and resets them all when it ends.
-/

namespace RoboRTS.Decision.BehaviorTree

variable {c : BehaviorNode} {ts : List BehaviorNode} {ms : List Methods} {path : Path}
  {w w' w₁ : World} {j k : Nat} {state : BehaviorState}

section Parallel

open BehaviorNode

variable {threshold : Nat} {rest : List Methods} {index : Nat}

/-- The child at the front of the rest of a loop over the children. -/
theorem SoundChildren.front {m : Methods} (hms : SoundChildren ts path ms)
    (hrest : ms.drop index = m :: rest) :
    index < ts.length ∧ ms.drop (index + 1) = rest ∧
      ∃ c, ts[index]? = some c ∧ Sound c (index :: path) m := by
  have hm : ms[index]? = some m := by
    rw [← List.head?_drop, hrest]
    rfl
  have hlt : index < ts.length := hms.length ▸ (List.getElem?_eq_some_iff.mp hm).1
  refine ⟨hlt, ?_, ts[index], List.getElem?_eq_getElem hlt,
    hms.sound index _ m (List.getElem?_eq_getElem hlt) hm⟩
  rw [← List.tail_drop, hrest]
  rfl

/-- `OnTerminate` resets one child after the other. -/
theorem resetChildren_spec (hms : SoundChildren ts path ms) (hrest : ms.drop index = rest)
    (hchildren : Children ts path w)
    (hbefore : ∀ j < ts.length, j < index → ¬ w.Running (j :: path)) :
    ∃ w', rest.foldlM (fun w child => child.reset w) w = some w' ∧ Children ts path w' ∧
      (∀ j < ts.length, ¬ w'.Running (j :: path)) ∧ w'.node path = w.node path ∧
      Frame path w w' := by
  induction rest generalizing index w with
  | nil =>
      have hlength : ts.length ≤ index := hms.length ▸ List.drop_eq_nil_iff.mp hrest
      exact ⟨w, rfl, hchildren, fun j hj => hbefore j hj (by omega), rfl, Frame.refl path w⟩
  | cons m rest ih =>
      obtain ⟨hlt, hrest', c, hc, hsound⟩ := hms.front hrest
      obtain ⟨w₁, hreset, hpost⟩ := hsound.reset w (hchildren index c hc)
      have hbefore₁ : ∀ j < ts.length, j < index + 1 → ¬ w₁.Running (j :: path) := by
        intro j hj hle
        by_cases hji : j = index
        · exact hji ▸ hpost.stopped
        · rw [hpost.frame.running_sibling hji]
          exact hbefore j hj (by omega)
      obtain ⟨w', hfold, hchildren', hstopped, hself, hframe⟩ :=
        ih hrest' (hchildren.step hc hpost.inv hpost.frame) hbefore₁
      refine ⟨w', ?_, hchildren', hstopped, hself.trans hpost.frame.self,
        hpost.frame.parent.trans hframe⟩
      rw [List.foldlM_cons, hreset]
      exact hfold

/-- The loop of `Update` keeps a flag for every child. -/
theorem runParallel_spec (hms : SoundChildren ts path ms) (hrest : ms.drop index = rest)
    (hchildren : Children ts path w) (hdone : (w.node path).childrenDone.length = ts.length) :
    ∃ state w', runParallel path threshold ms rest index w = some (state, w') ∧
      Children ts path w' ∧ (w'.node path).childrenDone.length = ts.length ∧ Frame path w w' := by
  induction rest generalizing index w with
  | nil => exact ⟨.RUNNING, w, rfl, hchildren, hdone, Frame.refl path w⟩
  | cons m rest ih =>
      obtain ⟨hlt, hrest', c, hc, hsound⟩ := hms.front hrest
      obtain ⟨done, hflag⟩ : ∃ done, (w.node path).childrenDone[index]? = some done :=
        ⟨_, List.getElem?_eq_getElem (hdone ▸ hlt)⟩
      rw [runParallel, hflag, Option.bind_some]
      cases done with
      | true => exact ih hrest' hchildren hdone
      | false =>
          obtain ⟨state, w₁, hrun, hpost⟩ := hsound.run w (hchildren index c hc)
          have hchildren₁ := hchildren.step hc hpost.inv hpost.frame
          have hdone₁ : (w₁.node path).childrenDone.length = ts.length := by
            rw [hpost.frame.self, hdone]
          have hframe₁ : Frame path w w₁ := hpost.frame.parent
          -- the loop goes on after the child has been counted or not
          have hnext : ∀ w₂, Children ts path w₂ →
              (w₂.node path).childrenDone.length = ts.length → Frame path w w₂ →
              ∃ state w', runParallel path threshold ms rest (index + 1) w₂ = some (state, w') ∧
                Children ts path w' ∧ (w'.node path).childrenDone.length = ts.length ∧
                Frame path w w' := by
            intro w₂ hchildren₂ hdone₂ hframe₂
            obtain ⟨state, w', hloop, hchildren', hdone', hframe'⟩ := ih hrest' hchildren₂ hdone₂
            exact ⟨state, w', hloop, hchildren', hdone', hframe₂.trans hframe'⟩
          have hsuccess : ((countSuccess path index w₁).node path).childrenDone.length =
              ts.length := by
            simpa [countSuccess] using hdone₁
          have hfailure : ((countFailure path index w₁).node path).childrenDone.length =
              ts.length := by
            simpa [countFailure] using hdone₁
          have hframeS : Frame path w (countSuccess path index w₁) :=
            hframe₁.trans (frame_set _ _ _)
          have hframeF : Frame path w (countFailure path index w₁) :=
            hframe₁.trans (frame_set _ _ _)
          simp only [if_true, hrun, Option.bind_some]
          cases state with
          | SUCCESS =>
              rw [if_pos rfl]
              by_cases hthreshold :
                  ((countSuccess path index w₁).node path).successCount ≥ threshold
              · rw [if_pos hthreshold]
                exact ⟨_, _, rfl, hchildren₁.set _, hsuccess, hframeS⟩
              · rw [if_neg hthreshold]
                exact hnext _ (hchildren₁.set _) hsuccess hframeS
          | FAILURE =>
              rw [if_neg (by simp), if_pos rfl]
              by_cases hthreshold : ((countFailure path index w₁).node path).failureCount ≥
                  failureThreshold ms.length threshold
              · rw [if_pos hthreshold]
                exact ⟨_, _, rfl, hchildren₁.set _, hfailure, hframeF⟩
              · rw [if_neg hthreshold]
                exact hnext _ (hchildren₁.set _) hfailure hframeF
          | RUNNING | IDLE => exact hnext w₁ hchildren₁ hdone₁ hframe₁

theorem inv_parallel : Inv (.parallel threshold ts) path w ↔
    SomeRun ts.length path w ∧ Children ts path w :=
  inv_iff

/-- A parallel node none of whose children runs. -/
theorem inv_parallel_stopped (hchildren : Children ts path w)
    (hstopped : ∀ j < ts.length, ¬ w.Running (j :: path)) (hnot : ¬ w.Running path) :
    Inv (.parallel threshold ts) path w :=
  inv_parallel.mpr ⟨⟨fun h => absurd h hnot, fun j hj h => absurd h (hstopped j hj)⟩, hchildren⟩

theorem sound_parallel (hms : SoundChildren ts path ms) :
    Sound (.parallel threshold ts) path (parallelMethods path threshold ms) := by
  constructor
  case reset =>
    intro w hinv
    obtain ⟨-, hchildren⟩ := inv_parallel.mp hinv
    show ∃ w', Reset path (parallelOnTerminate ms) w = some w' ∧ _
    unfold Reset
    by_cases hrunning : w.Running path
    · rw [if_pos hrunning]
      have hset : Children ts path (w.setState path .IDLE) := hchildren.set _
      obtain ⟨w', hreset, hchildren', hstopped, hself, hframe⟩ :=
        resetChildren_spec hms (List.drop_zero ..) hset fun j _ h => absurd h (Nat.not_lt_zero j)
      have hnot : ¬ w'.Running path := by
        rw [World.Running, hself, state_setState]
        simp
      exact ⟨w', hreset, inv_parallel_stopped hchildren' hstopped hnot, hnot,
        frame_setState.trans hframe⟩
    · rw [if_neg hrunning]
      exact ⟨w, rfl, hinv, hrunning, Frame.refl path w⟩
  case run =>
    intro w hinv
    obtain ⟨hsome, hchildren⟩ := inv_parallel.mp hinv
    simp only [parallelMethods]
    -- the world in which `Update` is called has a flag for every child
    obtain ⟨w₀, hw₀, hchildren₀, hdone₀, hframe₀⟩ : ∃ w₀,
        (if w.Running path then w else parallelOnInitialize path ms w) = w₀ ∧
        Children ts path w₀ ∧ (w₀.node path).childrenDone.length = ts.length ∧
        Frame path w w₀ := by
      by_cases hrunning : w.Running path
      · exact ⟨w, if_pos hrunning, hchildren, hsome.done hrunning, Frame.refl path w⟩
      · refine ⟨_, if_neg hrunning, hchildren.set _, ?_, frame_set _ _ _⟩
        simp [parallelOnInitialize, hms.length]
    obtain ⟨state, w₁, hupdate, hchildren₁, hrunning₁, hframe₁⟩ : ∃ state w₁,
        parallelUpdate path threshold ms w₀ = some (state, w₁) ∧ Children ts path w₁ ∧
        (state = .RUNNING → (w₁.node path).childrenDone.length = ts.length) ∧
        Frame path w₀ w₁ := by
      unfold parallelUpdate
      by_cases hempty : ms.length = 0
      · rw [if_pos hempty]
        exact ⟨.SUCCESS, w₀, rfl, hchildren₀, by simp, Frame.refl path w₀⟩
      · rw [if_neg hempty]
        obtain ⟨state, w₁, hloop, hchildren₁, hdone₁, hframe₁⟩ :=
          runParallel_spec hms (List.drop_zero ..) hchildren₀ hdone₀
        exact ⟨state, w₁, hloop, hchildren₁, fun _ => hdone₁, hframe₁⟩
    have hset : Children ts path (w₁.setState path state) := hchildren₁.set _
    have hframe : Frame path w (w₁.setState path state) :=
      (hframe₀.trans hframe₁).trans frame_setState
    rw [run_eq (hw₀ ▸ hupdate)]
    by_cases hrunning : state = .RUNNING
    · rw [if_pos hrunning]
      refine ⟨_, _, rfl, inv_parallel.mpr ⟨⟨fun _ => ?_, fun j _ _ => ?_⟩, hset⟩, state_setState,
        hframe⟩
      · simpa [World.setState] using hrunning₁ hrunning
      · exact running_setState_self.mpr hrunning
    · rw [if_neg hrunning]
      obtain ⟨w', hreset, hchildren', hstopped, hself, hframe'⟩ :=
        resetChildren_spec hms (List.drop_zero ..) hset fun j _ h => absurd h (Nat.not_lt_zero j)
      have hstate : (w'.node path).behaviorState = state := by rw [hself, state_setState]
      have hnot : ¬ w'.Running path := by
        rw [World.Running, hstate]
        exact hrunning
      refine ⟨state, w', ?_, inv_parallel_stopped hchildren' hstopped hnot, hstate,
        hframe.trans hframe'⟩
      rw [parallelOnTerminate]
      rw [hreset, Option.map_some]
  case parent => exact fun _ _ _ => rfl
  case reevaluates =>
    intro h
    cases h

end Parallel

end RoboRTS.Decision.BehaviorTree
