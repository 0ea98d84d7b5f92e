import Mathlib.Algebra.BigOperators.Group.Multiset.Basic
import Mathlib.Algebra.Order.BigOperators.Group.Multiset
import Mathlib.Algebra.Order.Field.Basic
import Mathlib.Logic.Function.Basic
import Mathlib.Tactic.Linarith
import Mathlib.Tactic.Ring

/-!
# Weighted averages

The weighted `mean` and `covariance` of a multiset. A loop over a list that adds the values of each
group to an accumulator of the group (`accumulate`) ends with the sums of the groups
(`accumulate_group`). Where it adds the accumulator of the group in place of the value to the total,
each value is counted once for every later element of its group (`accumulate_total`).
-/

namespace WeightedAverage

variable {α ι K : Type*}

/-! ## Moments -/

section Moments

variable [Field K] (weight x y : α → K) (s : Multiset α)

/-- The weighted average of a value. -/
def mean : K :=
  (s.map fun a => weight a * x a).sum / (s.map weight).sum

/-- The weighted covariance of two values. -/
def covariance : K :=
  (s.map fun a => weight a * ((x a - mean weight x s) * (y a - mean weight y s))).sum /
    (s.map weight).sum

variable {weight x y s}

theorem mean_eq_zero (h : ∀ a ∈ s, x a = 0) : mean weight x s = 0 := by
  have hsum : (s.map fun a => weight a * x a) = s.map fun _ => 0 :=
    Multiset.map_congr rfl fun a ha => by rw [h a ha, mul_zero]
  rw [mean, hsum, Multiset.sum_map_zero, zero_div]

theorem covariance_eq_zero (h : ∀ a ∈ s, x a = 0) : covariance weight x y s = 0 := by
  have hsum : (s.map fun a => weight a * ((x a - mean weight x s) * (y a - mean weight y s))) =
      s.map fun _ => 0 :=
    Multiset.map_congr rfl fun a ha => by rw [h a ha, mean_eq_zero h, sub_zero, zero_mul, mul_zero]
  rw [covariance, hsum, Multiset.sum_map_zero, zero_div]

variable [LinearOrder K] [IsStrictOrderedRing K]

theorem sum_weight_pos (hpos : ∀ a ∈ s, 0 < weight a) (hs : s ≠ 0) : 0 < (s.map weight).sum := by
  obtain ⟨a, ha⟩ := Multiset.exists_mem_of_ne_zero hs
  refine (hpos a ha).trans_le
    (Multiset.single_le_sum (fun w hw => ?_) _ (Multiset.mem_map_of_mem _ ha))
  obtain ⟨b, hb, rfl⟩ := Multiset.mem_map.mp hw
  exact (hpos b hb).le

/-- A variance is not negative, so that it is the square of the mean with a minus sign only where
all values are zero. -/
theorem eq_zero_of_covariance_eq (hpos : ∀ a ∈ s, 0 < weight a)
    (h : covariance weight x x s = -(mean weight x s * mean weight x s)) : ∀ a ∈ s, x a = 0 := by
  intro a ha
  have htotal : 0 < (s.map weight).sum := sum_weight_pos hpos fun h => by simp [h] at ha
  have hterm : ∀ b ∈ s, 0 ≤ weight b * ((x b - mean weight x s) * (x b - mean weight x s)) :=
    fun b hb => mul_nonneg (hpos b hb).le (mul_self_nonneg _)
  have hsum : 0 ≤ (s.map fun b =>
      weight b * ((x b - mean weight x s) * (x b - mean weight x s))).sum := by
    refine Multiset.sum_nonneg fun z hz => ?_
    obtain ⟨b, hb, rfl⟩ := Multiset.mem_map.mp hz
    exact hterm b hb
  have hcov : 0 ≤ covariance weight x x s := div_nonneg hsum htotal.le
  have hsquare : mean weight x s * mean weight x s = 0 :=
    le_antisymm (by linarith) (mul_self_nonneg _)
  have hmean : mean weight x s = 0 := mul_self_eq_zero.mp hsquare
  rw [hsquare, neg_zero, covariance, div_eq_zero_iff, or_iff_left htotal.ne'] at h
  have hzero := Multiset.all_zero_of_le_zero_le_of_sum_eq_zero (fun z hz => ?_) h _
    (Multiset.mem_map_of_mem _ ha)
  · have hdiff := mul_self_eq_zero.mp ((mul_eq_zero.mp hzero).resolve_left (hpos a ha).ne')
    rwa [hmean, sub_zero] at hdiff
  · obtain ⟨b, hb, rfl⟩ := Multiset.mem_map.mp hz
    exact hterm b hb

end Moments

/-! ## Sums of groups -/

section Groups

variable [CommRing K] [DecidableEq ι] (label : α → ι) (weight x : α → K)

/-- Each value is added to the sum of its group, and that sum is added to the total. -/
def accumulate : List α → (ι → K) × K → (ι → K) × K
  | [], sums => sums
  | a :: l, (group, total) =>
      let sum := group (label a) + weight a * x a
      accumulate l (Function.update group (label a) sum, total + weight a * sum)

/-- The sum in which each value is weighted once more with the elements of its group from it on. -/
def compounded (same : α → α → Prop) [DecidableRel same] : List α → K
  | [] => 0
  | a :: l =>
      weight a * x a * (((a :: l).filter fun b => same a b).map weight).sum + compounded same l

variable {label weight x} {l : List α} {group : ι → K} {total : K}

theorem accumulate_group (c : ι) :
    (accumulate label weight x l (group, total)).1 c =
      group c + ((l.filter fun a => label a = c).map fun a => weight a * x a).sum := by
  induction l generalizing group total with
  | nil => simp [accumulate]
  | cons a l ih =>
      unfold accumulate
      rw [ih]
      by_cases heq : label a = c
      · subst heq
        rw [Function.update_self, List.filter_cons_of_pos (by simp), List.map_cons, List.sum_cons,
          add_assoc]
      · rw [Function.update_of_ne (Ne.symm heq), List.filter_cons_of_neg (by simpa using heq)]

/-- A larger sum of one group counts with the weights of that group. -/
theorem sum_update (a : α) (value : K) :
    (l.map fun b =>
        weight b * Function.update group (label a) (group (label a) + value) (label b)).sum =
      (l.map fun b => weight b * group (label b)).sum +
        value * ((l.filter fun b => label b = label a).map weight).sum := by
  induction l with
  | nil => simp
  | cons b l ih =>
      rw [List.map_cons, List.sum_cons, ih, List.map_cons, List.sum_cons]
      by_cases heq : label b = label a
      · rw [heq, Function.update_self, List.filter_cons_of_pos (by simpa using heq), List.map_cons,
          List.sum_cons]
        ring
      · rw [Function.update_of_ne heq, List.filter_cons_of_neg (by simpa using heq)]
        ring

theorem accumulate_total :
    (accumulate label weight x l (group, total)).2 =
      total + (l.map fun a => weight a * group (label a)).sum +
        compounded weight x (fun a b => label b = label a) l := by
  induction l generalizing group total with
  | nil => simp [accumulate, compounded]
  | cons a l ih =>
      unfold accumulate compounded
      rw [ih, sum_update, List.filter_cons_of_pos (by simp), List.map_cons, List.map_cons,
        List.sum_cons, List.sum_cons]
      ring

omit [DecidableEq ι] in
theorem compounded_congr {same same' : α → α → Prop} [DecidableRel same] [DecidableRel same']
    (h : ∀ a ∈ l, ∀ b ∈ l, same a b ↔ same' a b) :
    compounded weight x same l = compounded weight x same' l := by
  induction l with
  | nil => rfl
  | cons a l ih =>
      have hfilter : ((a :: l).filter fun b => same a b) = (a :: l).filter fun b => same' a b :=
        List.filter_congr fun b hb => by simpa using h a List.mem_cons_self b hb
      unfold compounded
      rw [hfilter, ih fun b hb c hc =>
        h b (List.mem_cons_of_mem a hb) c (List.mem_cons_of_mem a hc)]

/-- Where every value is zero, it stays zero. -/
theorem compounded_eq_zero {same : α → α → Prop} [DecidableRel same] (h : ∀ a ∈ l, x a = 0) :
    compounded weight x same l = 0 := by
  induction l with
  | nil => rfl
  | cons a l ih =>
      unfold compounded
      rw [h a List.mem_cons_self, ih fun b hb => h b (List.mem_cons_of_mem a hb)]
      ring

end Groups

end WeightedAverage
