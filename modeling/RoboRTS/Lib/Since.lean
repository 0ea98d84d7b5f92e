import RoboRTS.Lib.StateMachine

/-!
# Properties that steps set and clear

A property of the states of a machine that every step sets, clears or keeps. It holds after a run
exactly when some step of the run has set it and no later step has cleared it (`run_since_iff`).
`foldl_sets` is the rule for a loop whose rounds only set a property.
-/

namespace StateMachine

variable {σ ε : Type*} {step : σ → ε → Option σ}

/-- A step of the run sets the property, and no later one clears it. -/
def Since (step : σ → ε → Option σ) (Sets Clears : σ → ε → Prop) (s : σ) (es : List ε) : Prop :=
  ∃ before e after s₁ s₂, es = before ++ e :: after ∧ run step s before = some s₁ ∧ Sets s₁ e ∧
    step s₁ e = some s₂ ∧ Along step (fun s e => ¬ Clears s e) s₂ after

/-- Whatever held before the run holds after it when no step clears it. -/
theorem run_sets_or_keeps {P : σ → Prop} {Sets Clears : σ → ε → Prop}
    (hstep : ∀ s e s', step s e = some s' → (P s' ↔ Sets s e ∨ P s ∧ ¬ Clears s e)) (es : List ε) :
    ∀ {s s' : σ}, run step s es = some s' →
      (P s' ↔ Since step Sets Clears s es ∨ P s ∧ Along step (fun s e => ¬ Clears s e) s es) := by
  induction es with
  | nil =>
      intro s s' hrun
      obtain rfl := Option.some.inj hrun
      refine ⟨fun h => Or.inr ⟨h, trivial⟩, fun h => ?_⟩
      rcases h with ⟨before, e, after, -, -, hsplit, -⟩ | h
      · exact absurd hsplit.symm (by simp)
      · exact h.1
  | cons e es ih =>
      intro s s' hrun
      rw [run_cons, Option.bind_eq_some_iff] at hrun
      obtain ⟨s₁, hfirst, hrest⟩ := hrun
      rw [ih hrest, hstep s e s₁ hfirst]
      constructor
      · rintro (⟨before, e', after, t, t', rfl, hbefore, hsets, hlast, hafter⟩ | ⟨hset | hkept, hrest⟩)
        · refine Or.inl ⟨e :: before, e', after, t, t', rfl, ?_, hsets, hlast, hafter⟩
          rw [run_cons, hfirst]
          exact hbefore
        · exact Or.inl ⟨[], e, es, s, s₁, rfl, rfl, hset, hfirst, hrest⟩
        · refine Or.inr ⟨hkept.1, hkept.2, ?_⟩
          rw [hfirst]
          exact hrest
      · rintro (⟨before, e', after, t, t', hsplit, hbefore, hsets, hlast, hafter⟩ | ⟨hold, hkept⟩)
        · cases before with
          | nil =>
              obtain ⟨rfl, rfl⟩ := List.cons.inj hsplit
              obtain rfl := Option.some.inj hbefore
              rw [hfirst] at hlast
              obtain rfl := Option.some.inj hlast
              exact Or.inr ⟨Or.inl hsets, hafter⟩
          | cons e'' before =>
              obtain ⟨rfl, rfl⟩ := List.cons.inj hsplit
              rw [run_cons, hfirst] at hbefore
              exact Or.inl ⟨before, e', after, t, t', rfl, hbefore, hsets, hlast, hafter⟩
        · obtain ⟨hfirstKept, hkept⟩ := hkept
          rw [hfirst] at hkept
          exact Or.inr ⟨Or.inr ⟨hold, hfirstKept⟩, hkept⟩

/-- A property that does not hold at the start holds after a run exactly when a step has set it and
none has cleared it since. -/
theorem run_since_iff {P : σ → Prop} {Sets Clears : σ → ε → Prop}
    (hstep : ∀ s e s', step s e = some s' → (P s' ↔ Sets s e ∨ P s ∧ ¬ Clears s e)) {s s' : σ}
    (hstart : ¬ P s) {es : List ε} (hrun : run step s es = some s') :
    P s' ↔ Since step Sets Clears s es := by
  rw [run_sets_or_keeps hstep es hrun]
  exact or_iff_left fun h => hstart h.1

/-- A loop whose rounds only set a property leaves it where it held or where a round sets it. -/
theorem foldl_sets {α : Type*} {P : σ → Prop} {Sets : α → Prop} {f : σ → α → σ} (l : List α)
    (hf : ∀ s, ∀ a ∈ l, P (f s a) ↔ Sets a ∨ P s) (s : σ) :
    P (l.foldl f s) ↔ (∃ a ∈ l, Sets a) ∨ P s := by
  induction l generalizing s with
  | nil => simp
  | cons a l ih =>
      rw [List.foldl_cons, ih (fun s b hb => hf s b (List.mem_cons_of_mem a hb)),
        hf s a (List.mem_cons_self ..), or_left_comm, ← or_assoc]
      simp only [List.mem_cons, exists_eq_or_imp]

end StateMachine
