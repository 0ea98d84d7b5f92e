import Mathlib.Data.Nat.Basic
import Mathlib.Order.Monotone.Basic
import Mathlib.Algebra.Order.Ring.Nat

/-!
# Digital lines

A line that takes `n` steps along one axis and rises by `d ≤ n` along the other is drawn by an
accumulator that starts at `n`, grows by `2 * d` with each step and is reduced by `2 * n`, with a
step of the other axis, when it has reached that. `rise` is how far the line has risen, `residue`
is what the accumulator holds.
-/

namespace DigitalLine

/-- The steps along the other axis after `k` steps. -/
def rise (n d k : Nat) : Nat :=
  (n + 2 * d * k) / (2 * n)

/-- The accumulator after `k` steps. -/
def residue (n d k : Nat) : Nat :=
  (n + 2 * d * k) % (2 * n)

variable {n d k : Nat}

@[simp] theorem rise_zero (n d : Nat) : rise n d 0 = 0 := by
  unfold rise
  rcases Nat.eq_zero_or_pos n with rfl | hn
  · simp
  · exact Nat.div_eq_of_lt (by omega)

@[simp] theorem residue_zero (n d : Nat) : residue n d 0 = n := by
  unfold residue
  rcases Nat.eq_zero_or_pos n with rfl | hn
  · simp
  · exact Nat.mod_eq_of_lt (by omega)

/-- At its end the line has risen by `d`. -/
theorem rise_self (hn : 0 < n) (d : Nat) : rise n d n = d := by
  have hcopies : n + 2 * d * n = n + d * (2 * n) := by
    rw [Nat.mul_comm 2 d, Nat.mul_assoc]
  unfold rise
  rw [hcopies, Nat.add_mul_div_right _ _ (by omega), Nat.div_eq_of_lt (by omega), Nat.zero_add]

theorem residue_lt (hn : 0 < n) (d k : Nat) : residue n d k < 2 * n :=
  Nat.mod_lt _ (by omega)

/-- The quotient and the remainder of the accumulated sum. -/
theorem rise_residue_unique (hn : 0 < n) {q r : Nat} (hsum : r + 2 * n * q = n + 2 * d * k)
    (hr : r < 2 * n) : rise n d k = q ∧ residue n d k = r :=
  (Nat.div_mod_unique (by omega)).mpr ⟨hsum, hr⟩

/-- What was accumulated up to a step. -/
theorem residue_add_rise (n d k : Nat) : residue n d k + 2 * n * rise n d k = n + 2 * d * k :=
  Nat.mod_add_div _ _

/-- A step in which the accumulator is reduced. -/
theorem step_of_le (hn : 0 < n) (hd : d ≤ n) (hfull : 2 * n ≤ residue n d k + 2 * d) :
    rise n d (k + 1) = rise n d k + 1 ∧ residue n d (k + 1) = residue n d k + 2 * d - 2 * n := by
  have hlt := residue_lt hn d k
  have hsum := residue_add_rise n d k
  refine rise_residue_unique hn ?_ (by omega)
  rw [Nat.mul_succ, Nat.mul_succ]
  omega

/-- A step in which the accumulator is not reduced. -/
theorem step_of_lt (hn : 0 < n) (hfew : residue n d k + 2 * d < 2 * n) :
    rise n d (k + 1) = rise n d k ∧ residue n d (k + 1) = residue n d k + 2 * d := by
  have hsum := residue_add_rise n d k
  refine rise_residue_unique hn ?_ hfew
  rw [Nat.mul_succ]
  omega

/-- The line rises by at most one in a step. -/
theorem rise_succ (hn : 0 < n) (hd : d ≤ n) (k : Nat) :
    rise n d (k + 1) = rise n d k ∨ rise n d (k + 1) = rise n d k + 1 := by
  rcases Nat.lt_or_ge (residue n d k + 2 * d) (2 * n) with hfew | hfull
  · exact Or.inl (step_of_lt hn hfew).1
  · exact Or.inr (step_of_le hn hd hfull).1

/-- The line does not rise by more than the steps that it takes. -/
theorem rise_le_self (hd : d ≤ n) (k : Nat) : rise n d k ≤ k := by
  rcases Nat.eq_zero_or_pos n with rfl | hn
  · simp [rise]
  induction k with
  | zero => rw [rise_zero]
  | succ k ih =>
      have hstep := rise_succ hn hd k
      omega

theorem rise_mono (n d : Nat) : Monotone (rise n d) := fun _ _ h =>
  Nat.div_le_div_right (Nat.add_le_add_left (Nat.mul_le_mul_left _ h) _)

/-- On its way the line does not rise by more than `d`. -/
theorem rise_le (hk : k ≤ n) : rise n d k ≤ d := by
  rcases Nat.eq_zero_or_pos n with rfl | hn
  · rw [Nat.le_zero.mp hk, rise_zero]
    exact Nat.zero_le d
  · exact (rise_mono n d hk).trans_eq (rise_self hn d)

end DigitalLine
