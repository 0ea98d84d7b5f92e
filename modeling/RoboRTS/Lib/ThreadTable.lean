import Mathlib.Logic.Function.Basic

/-!
# Tables of threads

A table maps numbers to the threads that exist. One thread at a time goes on, which replaces its
entry (`Function.update`); the lemmas say what an entry of the new table is.
-/

namespace ThreadTable

variable {α : Type*} {f : Nat → Option α} {k j : Nat} {x x' y : α}

/-- An entry after entry `k` was replaced is the new entry or an old one. -/
theorem update_cases (h : Function.update f k (some x) j = some y) :
    (j = k ∧ y = x) ∨ (j ≠ k ∧ f j = some y) := by
  by_cases hj : j = k
  · subst hj
    rw [Function.update_self] at h
    exact Or.inl ⟨rfl, (Option.some.inj h).symm⟩
  · rw [Function.update_of_ne hj] at h
    exact Or.inr ⟨hj, h⟩

/-- What holds of an entry that is replaced and of the new one holds of some entry still. -/
theorem update_exists {P : α → Prop} (hx : f k = some x) (hP : P x → P x') (hy : f j = some y)
    (hPy : P y) : ∃ y', Function.update f k (some x') j = some y' ∧ P y' := by
  by_cases hj : j = k
  · subst hj
    obtain rfl : x = y := Option.some.inj (hx.symm.trans hy)
    exact ⟨x', Function.update_self .., hP hPy⟩
  · exact ⟨y, (Function.update_of_ne hj ..).trans hy, hPy⟩

/-- What holds of every entry and of the new one holds of every entry still. -/
theorem update_forall {P : Nat → α → Prop} (hf : ∀ j y, f j = some y → P j y) (hx : P k x) :
    ∀ j y, Function.update f k (some x) j = some y → P j y := by
  intro j y hy
  rcases update_cases hy with ⟨rfl, rfl⟩ | ⟨-, hold⟩
  · exact hx
  · exact hf j y hold

end ThreadTable
