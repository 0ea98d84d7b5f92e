import Mathlib.Logic.Function.Basic

/-!
# Tables of independent machines

A table holds one machine under each index. An event goes to the machine at its index, which moves
on and answers; an event that the machine does not allow stops the run. What a kept part of the
events is answered does not depend on the others as long as the two parts use different indices
(`answers_filter`).
-/

namespace IndexedMachine

variable {ι σ ε ω : Type*} [DecidableEq ι] (index : ε → ι) (step : σ → ε → Option (σ × ω))

/-- The events with their answers. -/
def answers : (ι → σ) → List ε → Option (List (ε × ω))
  | _, [] => some []
  | s, e :: es =>
      (step (s (index e)) e).bind fun (entry, answer) =>
        (answers (Function.update s (index e) entry) es).map ((e, answer) :: ·)

variable {index step}

/-- Leaving out events at other indices leaves out their answers and nothing else. -/
theorem answers_filter {keep : ε → Bool} {es : List ε} {s t : ι → σ} {log : List (ε × ω)}
    (hapart : ∀ e ∈ es, ∀ e' ∈ es, keep e = true → keep e' = false → index e ≠ index e')
    (hagree : ∀ e ∈ es, keep e = true → s (index e) = t (index e))
    (h : answers index step s es = some log) :
    answers index step t (es.filter keep) = some (log.filter fun x => keep x.1) := by
  induction es generalizing s t log with
  | nil =>
      cases h
      rfl
  | cons e es ih =>
      obtain ⟨⟨entry, answer⟩, hstep, hrest⟩ := Option.bind_eq_some_iff.mp h
      obtain ⟨log, hlog, rfl⟩ := Option.map_eq_some_iff.mp hrest
      have hapart' : ∀ e₁ ∈ es, ∀ e₂ ∈ es, keep e₁ = true → keep e₂ = false →
          index e₁ ≠ index e₂ := fun e₁ h₁ e₂ h₂ =>
        hapart e₁ (List.mem_cons_of_mem e h₁) e₂ (List.mem_cons_of_mem e h₂)
      cases hkeep : keep e with
      | true =>
          have hhere := hagree e List.mem_cons_self hkeep
          have hrest := ih (t := Function.update t (index e) entry) hapart' (fun e' he' hkeep' => by
            by_cases hindex : index e' = index e
            · rw [hindex, Function.update_self, Function.update_self]
            · rw [Function.update_of_ne hindex, Function.update_of_ne hindex]
              exact hagree e' (List.mem_cons_of_mem e he') hkeep') hlog
          have hkept : ((e, answer) :: log).filter (fun x => keep x.1) =
              (e, answer) :: log.filter fun x => keep x.1 := List.filter_cons_of_pos hkeep
          rw [List.filter_cons_of_pos hkeep, hkept, answers, ← hhere, hstep]
          dsimp only [Option.bind_some]
          rw [hrest, Option.map_some]
      | false =>
          have hrest := ih (t := t) hapart' (fun e' he' hkeep' => by
            have hindex := hapart e' (List.mem_cons_of_mem e he') e List.mem_cons_self hkeep' hkeep
            rw [Function.update_of_ne hindex]
            exact hagree e' (List.mem_cons_of_mem e he') hkeep') hlog
          have hdropped : ((e, answer) :: log).filter (fun x => keep x.1) =
              log.filter fun x => keep x.1 :=
            List.filter_cons_of_neg (show ¬ keep e = true by rw [hkeep]; decide)
          rw [List.filter_cons_of_neg (by rw [hkeep]; decide), hdropped]
          exact hrest

end IndexedMachine
