import Mathlib.Tactic.Common

/-!
# Runs of a state machine

A machine is a partial step function on a state and an event; a disabled or undefined step
gives `none`. `run` takes the events of a list one after the other. `run_invariant` is the
induction behind every statement about reachable states: what holds initially and is
preserved by each step holds after every run.
-/

namespace StateMachine

variable {σ ε : Type*} (step : σ → ε → Option σ)

/-- Take the events of a list one after the other; any disabled event stops the run. -/
def run : σ → List ε → Option σ
  | s, [] => some s
  | s, e :: es => (step s e).bind fun s' => run s' es

variable {step}

@[simp] theorem run_nil (s : σ) : run step s [] = some s := rfl

@[simp] theorem run_cons (s : σ) (e : ε) (es : List ε) :
    run step s (e :: es) = (step s e).bind fun s' => run step s' es := rfl

/-- A run over two lists is a run over the first and then over the second. -/
theorem run_append (s : σ) (es es' : List ε) :
    run step s (es ++ es') = (run step s es).bind fun s' => run step s' es' := by
  induction es generalizing s with
  | nil => rfl
  | cons e es ih =>
      rw [List.cons_append, run_cons, run_cons]
      cases step s e with
      | none => rfl
      | some s' => exact ih s'

/-- A nonempty run splits off its last step. -/
theorem run_concat_eq_some {s s'' : σ} {es : List ε} {e : ε} :
    run step s (es ++ [e]) = some s'' ↔ ∃ s', run step s es = some s' ∧ step s' e = some s'' := by
  rw [run_append, Option.bind_eq_some_iff]
  simp

/-- What every step preserves holds after every run. -/
theorem run_invariant {P : σ → Prop} (hstep : ∀ s e s', P s → step s e = some s' → P s')
    {s s' : σ} {es : List ε} (hs : P s) (hrun : run step s es = some s') : P s' := by
  induction es generalizing s with
  | nil =>
      cases hrun
      exact hs
  | cons e es ih =>
      rw [run_cons, Option.bind_eq_some_iff] at hrun
      obtain ⟨s₁, hfirst, hrest⟩ := hrun
      exact ih (hstep s e s₁ hs hfirst) hrest

/-- Every step that the run of `es` from `s` takes meets the condition `Ok`. -/
def Along (step : σ → ε → Option σ) (Ok : σ → ε → Prop) : σ → List ε → Prop
  | _, [] => True
  | s, e :: es => Ok s e ∧
      match step s e with
      | none => True
      | some s' => Along step Ok s' es

instance Along.decidable (step : σ → ε → Option σ) (Ok : σ → ε → Prop)
    [∀ s e, Decidable (Ok s e)] : ∀ s es, Decidable (Along step Ok s es)
  | _, [] => inferInstanceAs (Decidable True)
  | s, e :: es =>
      have : Decidable (match step s e with
          | none => True
          | some s' => Along step Ok s' es) :=
        match step s e with
        | none => inferInstanceAs (Decidable True)
        | some s' => Along.decidable step Ok s' es
      inferInstanceAs (Decidable (_ ∧ _))

theorem Along.and {Ok Ok' : σ → ε → Prop} {es : List ε} : ∀ {s : σ}, Along step Ok s es →
    Along step Ok' s es → Along step (fun s e => Ok s e ∧ Ok' s e) s es := by
  induction es with
  | nil => exact fun _ _ => trivial
  | cons e es ih =>
      intro s h h'
      refine ⟨⟨h.1, h'.1⟩, ?_⟩
      have h := h.2
      have h' := h'.2
      revert h h'
      cases step s e with
      | none => exact fun _ _ => trivial
      | some s' => exact ih

/-- The rule for steps that preserve the invariant only under a condition on the step. -/
theorem run_invariant_of {P : σ → Prop} {Q : σ → ε → Prop}
    (hstep : ∀ s e s', P s → Q s e → step s e = some s' → P s')
    {s s' : σ} {es : List ε} (hs : P s) (hok : Along step Q s es)
    (hrun : run step s es = some s') : P s' := by
  induction es generalizing s with
  | nil =>
      cases hrun
      exact hs
  | cons e es ih =>
      rw [run_cons, Option.bind_eq_some_iff] at hrun
      obtain ⟨s₁, hfirst, hrest⟩ := hrun
      obtain ⟨he, hok⟩ := hok
      rw [hfirst] at hok
      exact ih (hstep s e s₁ hs he hfirst) hok hrest

end StateMachine
