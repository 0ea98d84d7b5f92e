import Mathlib.Order.Lattice
import Mathlib.Order.MinMax
import Mathlib.Algebra.Order.Group.Int
import Mathlib.Algebra.Order.Group.Abs
import Mathlib.Tactic.Common

/-!
# Levels of a closed polygon

The corners of a closed polygon are a periodic sequence. Every level between a lower and a higher
corner is met by at least two of its edges (`two_meet`), and an edge that is walked in steps of at
most one meets each level between its ends in one of the steps (`exists_eq_of_between`).
-/

namespace ClosedPolygon

variable {β : Type*} [LinearOrder β] {v : Nat → β} {n : Nat} {x : β}

/-- The edge from corner `k` to the next one meets the level. -/
def Meets (v : Nat → β) (x : β) (k : Nat) : Prop :=
  min (v k) (v (k + 1)) ≤ x ∧ x ≤ max (v k) (v (k + 1))

/-- The ends of an edge that does not meet the level are on the same side of it. -/
theorem sides_of_not_meets {k : Nat} (h : ¬ Meets v x k) :
    v k ≠ x ∧ v (k + 1) ≠ x ∧ (v k < x ↔ v (k + 1) < x) := by
  simp only [Meets, min_le_iff, le_max_iff, not_and_or, not_or, not_le] at h
  rcases h with ⟨hk, hnext⟩ | ⟨hk, hnext⟩
  · exact ⟨hk.ne', hnext.ne', iff_of_false hk.not_gt hnext.not_gt⟩
  · exact ⟨hk.ne, hnext.ne, iff_of_true hk hnext⟩

omit [LinearOrder β] in
/-- The corners of a periodic sequence repeat. -/
theorem apply_mod (hperiod : ∀ k, v (k + n) = v k) (k : Nat) : v (k % n) = v k := by
  have hmul : ∀ q r, v (r + n * q) = v r := by
    intro q r
    induction q with
    | zero => rfl
    | succ q ih => rw [Nat.mul_succ, ← Nat.add_assoc, hperiod, ih]
  calc v (k % n) = v (k % n + n * (k / n)) := (hmul _ _).symm
    _ = v k := by rw [Nat.mod_add_div]

/-- A level between two corners is met by two edges. -/
theorem two_meet (hn : 2 ≤ n) (hperiod : ∀ k, v (k + n) = v k) (hlow : ∃ k, v k ≤ x)
    (hhigh : ∃ k, x ≤ v k) : ∃ i j, i < j ∧ j < n ∧ Meets v x i ∧ Meets v x j := by
  by_contra hnone
  -- at most the edge at `j` meets the level
  obtain ⟨j, hj, hothers⟩ : ∃ j < n, ∀ k < n, k ≠ j → ¬ Meets v x k := by
    by_cases hmeet : ∃ j < n, Meets v x j
    · obtain ⟨j, hj, hmeets⟩ := hmeet
      refine ⟨j, hj, fun k hk hne hk' => hnone ?_⟩
      rcases Nat.lt_or_gt_of_ne hne with hlt | hgt
      · exact ⟨k, j, hlt, hj, hk', hmeets⟩
      · exact ⟨j, k, hgt, hk, hmeets, hk'⟩
    · exact ⟨0, by omega, fun k hk _ hk' => hmeet ⟨k, hk, hk'⟩⟩
  have hedge : ∀ m, 0 < m → m < n → ¬ Meets v x (j + m) := by
    intro m hpos hlt hmeets
    have hmod : v ((j + m) % n + 1) = v (j + m + 1) := by
      rw [← apply_mod hperiod (j + m + 1), ← apply_mod hperiod ((j + m) % n + 1), Nat.mod_add_mod]
    refine hothers ((j + m) % n) (Nat.mod_lt _ (by omega)) ?_ ?_
    · rcases Nat.lt_or_ge (j + m) n with hin | hout
      · rw [Nat.mod_eq_of_lt hin]
        omega
      · rw [Nat.mod_eq_sub_mod hout, Nat.mod_eq_of_lt (by omega)]
        omega
    · unfold Meets
      rw [hmod, apply_mod hperiod]
      exact hmeets
  -- so all corners are on the side of the one behind that edge
  have hside : ∀ m < n, v (j + 1 + m) ≠ x ∧ (v (j + 1) < x ↔ v (j + 1 + m) < x) := by
    intro m
    induction m with
    | zero => exact fun _ => ⟨(sides_of_not_meets (hedge 1 (by omega) (by omega))).1, Iff.rfl⟩
    | succ m ih =>
        intro hm
        obtain ⟨-, hsame⟩ := ih (by omega)
        obtain ⟨-, hne, hstep⟩ := sides_of_not_meets (hedge (m + 1) (by omega) hm)
        rw [Nat.add_comm m 1, ← Nat.add_assoc] at hne hstep
        exact ⟨hne, hsame.trans hstep⟩
  have hall : ∀ k, ∃ m < n, v k = v (j + 1 + m) := by
    intro k
    refine ⟨(k + n * (j + 1) - (j + 1)) % n, Nat.mod_lt _ (by omega), ?_⟩
    have hle : j + 1 ≤ n * (j + 1) := Nat.le_mul_of_pos_left _ (by omega)
    have hindex : j + 1 + (k + n * (j + 1) - (j + 1)) = k + n * (j + 1) := by omega
    rw [← apply_mod hperiod (j + 1 + _), Nat.add_mod_mod, hindex, Nat.add_mul_mod_self_left,
      apply_mod hperiod]
  obtain ⟨low, hlow⟩ := hlow
  obtain ⟨high, hhigh⟩ := hhigh
  obtain ⟨m, hm, hlowEq⟩ := hall low
  obtain ⟨m', hm', hhighEq⟩ := hall high
  have hbelow : v (j + 1) < x :=
    (hside m hm).2.mpr (lt_of_le_of_ne (hlowEq ▸ hlow) (hside m hm).1)
  exact absurd ((hside m' hm').2.mp hbelow) (hhighEq ▸ hhigh).not_gt

/-- A walk on the integers in steps of at most one meets every level between its ends. -/
theorem exists_eq_of_between {f : Nat → Int} (hstep : ∀ k, |f (k + 1) - f k| ≤ 1) (last : Nat)
    (level : Int) (hlow : min (f 0) (f last) ≤ level) (hhigh : level ≤ max (f 0) (f last)) :
    ∃ k ≤ last, f k = level := by
  induction last with
  | zero =>
      rw [min_self] at hlow
      rw [max_self] at hhigh
      exact ⟨0, le_rfl, le_antisymm hlow hhigh⟩
  | succ last ih =>
      by_cases heq : f (last + 1) = level
      · exact ⟨last + 1, le_rfl, heq⟩
      · -- the last step is too short to jump over the level
        have hlast := abs_le.mp (hstep last)
        obtain ⟨k, hk, hlevel⟩ := ih (by omega) (by omega)
        exact ⟨k, by omega, hlevel⟩

end ClosedPolygon
