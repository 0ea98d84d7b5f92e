import Mathlib.Algebra.BigOperators.Group.List.Basic
import Mathlib.Algebra.Order.Group.Defs
import Mathlib.Tactic.Common

/-!
# Cumulative tables

The sums of the first weights of a list, in which a number is looked up to draw an element with a
probability that is its weight. A number below the last sum lies between two neighbouring sums
(`exists_bucket`); with weights that are not negative it does so once only
(`existsUnique_bucket`), and the weight between them is positive.
-/

namespace CumulativeTable

variable {α : Type*} [AddCommGroup α]

/-- The sums of the first weights: `c[0] = 0` and `c[i + 1] = c[i] + w[i]`. -/
def cumulative (ws : List α) : Nat → α
  | 0 => 0
  | i + 1 => cumulative ws i + ws.getD i 0

theorem cumulative_eq_sum_take (ws : List α) (i : Nat) : cumulative ws i = (ws.take i).sum := by
  induction i with
  | zero => rfl
  | succ i ih =>
      rw [cumulative, ih, List.take_add_one, List.sum_append, List.getD_eq_getElem?_getD]
      cases ws[i]? with
      | none => rfl
      | some w => exact congrArg _ (List.sum_singleton).symm

theorem cumulative_length (ws : List α) : cumulative ws ws.length = ws.sum := by
  rw [cumulative_eq_sum_take, List.take_length]

variable [LinearOrder α] {ws : List α} {r : α} {i j : Nat}

/-- The number falls between two neighbouring sums. -/
def InBucket (ws : List α) (r : α) (i : Nat) : Prop :=
  cumulative ws i ≤ r ∧ r < cumulative ws (i + 1)

instance (ws : List α) (r : α) (i : Nat) : Decidable (InBucket ws r i) :=
  inferInstanceAs (Decidable (_ ∧ _))

/-- The first bucket of a number, or the number of weights if there is none. -/
def bucket (ws : List α) (r : α) : Nat :=
  ((List.range ws.length).find? fun i => InBucket ws r i).getD ws.length

/-- A number below the sum of the first weights lies in the bucket of one of them. -/
theorem exists_bucket_lt (hr : 0 ≤ r) (n : Nat) (hlt : r < cumulative ws n) :
    ∃ i < n, InBucket ws r i := by
  induction n with
  | zero => exact absurd hlt (not_lt.mpr hr)
  | succ n ih =>
      by_cases hbelow : r < cumulative ws n
      · obtain ⟨i, hi, hbucket⟩ := ih hbelow
        exact ⟨i, Nat.lt_succ_of_lt hi, hbucket⟩
      · exact ⟨n, Nat.lt_succ_self n, not_lt.mp hbelow, hlt⟩

theorem exists_bucket (hr : 0 ≤ r) (hlt : r < ws.sum) : ∃ i < ws.length, InBucket ws r i :=
  exists_bucket_lt hr ws.length (cumulative_length ws ▸ hlt)

/-- The search finds the bucket. -/
theorem bucket_spec (hr : 0 ≤ r) (hlt : r < ws.sum) :
    bucket ws r < ws.length ∧ InBucket ws r (bucket ws r) := by
  obtain ⟨i, hi, hbucket⟩ := exists_bucket hr hlt
  unfold bucket
  cases hfind : (List.range ws.length).find? fun i => InBucket ws r i with
  | none =>
      have hnone := List.find?_eq_none.mp hfind i (List.mem_range.mpr hi)
      exact absurd (decide_eq_true hbucket) hnone
  | some j =>
      have hj : decide (InBucket ws r j) = true :=
        List.find?_some (p := fun i => decide (InBucket ws r i)) hfind
      exact ⟨List.mem_range.mp (List.mem_of_find?_eq_some hfind), of_decide_eq_true hj⟩

variable [IsOrderedAddMonoid α]

theorem cumulative_mono (hws : ∀ w ∈ ws, 0 ≤ w) (hij : i ≤ j) :
    cumulative ws i ≤ cumulative ws j := by
  induction hij with
  | refl => exact le_refl _
  | @step m _ ih =>
      refine ih.trans (le_add_of_nonneg_right ?_)
      rw [List.getD_eq_getElem?_getD]
      cases hw : ws[m]? with
      | none => exact le_refl _
      | some w => exact hws w (List.mem_of_getElem? hw)

/-- No number lies in two buckets. -/
theorem InBucket.unique (hws : ∀ w ∈ ws, 0 ≤ w) (hi : InBucket ws r i) (hj : InBucket ws r j) :
    i = j := by
  have hle : ∀ {i j : Nat}, InBucket ws r i → InBucket ws r j → i ≤ j := by
    intro i j hi hj
    by_contra hlt
    have hmono := cumulative_mono hws (Nat.lt_of_not_le hlt)
    exact absurd (hi.1.trans_lt hj.2) (not_lt.mpr hmono)
  exact Nat.le_antisymm (hle hi hj) (hle hj hi)

/-- The weight of a bucket that is hit is positive. -/
theorem InBucket.pos (h : InBucket ws r i) : 0 < ws.getD i 0 := by
  have hlt : cumulative ws i < cumulative ws i + ws.getD i 0 := h.1.trans_lt h.2
  exact pos_of_lt_add_right hlt

theorem existsUnique_bucket (hws : ∀ w ∈ ws, 0 ≤ w) (hr : 0 ≤ r) (hlt : r < ws.sum) :
    ∃! i, i < ws.length ∧ InBucket ws r i := by
  obtain ⟨i, hi, hbucket⟩ := exists_bucket hr hlt
  exact ⟨i, ⟨hi, hbucket⟩, fun j hj => hj.2.unique hws hbucket⟩

end CumulativeTable
