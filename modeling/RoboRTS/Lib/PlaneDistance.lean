import RoboRTS.Lib.ExactDouble
import RoboRTS.Lib.Literals
import Mathlib.Analysis.Convex.Segment
import Mathlib.Algebra.Order.Module.Defs
import Mathlib.Order.WithBot
import Mathlib.Tactic.Linarith
import Mathlib.Tactic.Ring
import Mathlib.Tactic.FieldSimp

/-!
# Distances in the plane

The distance of two sets of points of the plane over an ordered field, by its square (`IsDist`). The
nearest point of a segment is recognised by two inner products (`isDist_of_dot_nonpos`). The
distance of two segments that do not cross is that of one of the four ends to the other segment
(`isDist_segments`): while the points on both move together towards the crossing of the lines, or
along parallel lines, they do not get farther from each other until one of them is at an end.
-/

namespace PlaneDistance

variable {K : Type*} [Field K] [LinearOrder K]

/-- The inner product. -/
def dot (u v : K × K) : K :=
  u.1 * v.1 + u.2 * v.2

/-- The determinant of two vectors. -/
def cross (u v : K × K) : K :=
  u.1 * v.2 - u.2 * v.1

/-- The square of the length. -/
def lengthSq (v : K × K) : K :=
  dot v v

/-- `d` is the square of the least distance of a point of `S` and one of `T`, infinite if there are
no two such points. -/
structure IsDist (S T : Set (K × K)) (d : WithTop K) : Prop where
  le : ∀ p ∈ S, ∀ q ∈ T, d ≤ (lengthSq (p - q) : K)
  attained : d = ⊤ ∨ ∃ p ∈ S, ∃ q ∈ T, d = (lengthSq (p - q) : K)

variable {a b c d p q x : K × K} {S S' T T' : Set (K × K)}
  {m n : WithTop K}

omit [LinearOrder K] in
theorem lengthSq_sub_comm (p q : K × K) : lengthSq (p - q) = lengthSq (q - p) := by
  simp only [lengthSq, dot, Prod.fst_sub, Prod.snd_sub]
  ring

/-! ## The distance of two sets -/

/-- The distance is at most that of larger sets. -/
theorem IsDist.anti (h : IsDist S T m) (h' : IsDist S' T' n) (hS : S ⊆ S') (hT : T ⊆ T') :
    n ≤ m := by
  rcases h.attained with rfl | ⟨p, hp, q, hq, rfl⟩
  · exact le_top
  · exact h'.le p (hS hp) q (hT hq)

theorem IsDist.unique (h : IsDist S T m) (h' : IsDist S T n) : m = n :=
  le_antisymm (h'.anti h subset_rfl subset_rfl) (h.anti h' subset_rfl subset_rfl)

theorem IsDist.symm (h : IsDist S T m) : IsDist T S m where
  le := fun q hq p hp => lengthSq_sub_comm p q ▸ h.le p hp q hq
  attained := h.attained.imp_right fun ⟨p, hp, q, hq, heq⟩ =>
    ⟨q, hq, p, hp, lengthSq_sub_comm p q ▸ heq⟩

theorem isDist_empty (S : Set (K × K)) : IsDist S ∅ ⊤ where
  le := fun _ _ _ hq => absurd hq (Set.notMem_empty _)
  attained := Or.inl rfl

theorem isDist_singleton (p q : K × K) : IsDist {p} {q} (lengthSq (p - q) : K) where
  le := fun p' hp q' hq => by rw [Set.mem_singleton_iff.mp hp, Set.mem_singleton_iff.mp hq]
  attained := Or.inr ⟨p, rfl, q, rfl, rfl⟩

/-- The distance to a union is the least of two. -/
theorem IsDist.union (h : IsDist S T m) (h' : IsDist S T' n) : IsDist S (T ∪ T') (min m n) where
  le := fun p hp q hq => hq.elim (fun hq => (min_le_left m n).trans (h.le p hp q hq))
    fun hq => (min_le_right m n).trans (h'.le p hp q hq)
  attained := by
    rcases min_choice m n with heq | heq
    · rw [heq]
      exact h.attained.imp_right fun ⟨p, hp, q, hq, heq⟩ => ⟨p, hp, q, Or.inl hq, heq⟩
    · rw [heq]
      exact h'.attained.imp_right fun ⟨p, hp, q, hq, heq⟩ => ⟨p, hp, q, Or.inr hq, heq⟩

/-- Two points of `S` and `T` are as near to each other as any two of `S'` and `T'`. -/
def AsNear (S T S' T' : Set (K × K)) : Prop :=
  ∀ p ∈ S', ∀ q ∈ T', ∃ p' ∈ S, ∃ q' ∈ T, lengthSq (p' - q') ≤ lengthSq (p - q)

theorem asNear_union_iff {U : Set (K × K)} : AsNear S T S (T ∪ U) ↔ AsNear S T S U :=
  ⟨fun h p hp q hq => h p hp q (Or.inr hq),
    fun h p hp q hq => hq.elim (fun hq => ⟨p, hp, q, hq, le_rfl⟩) (h p hp q)⟩

/-- The distance is that of larger sets exactly if the rest of these is not nearer. -/
theorem IsDist.eq_iff (h : IsDist S T m) (h' : IsDist S' T' n) (hS : S ⊆ S') (hT : T ⊆ T') :
    m = n ↔ AsNear S T S' T' := by
  constructor
  · rintro rfl p hp q hq
    have hle := h'.le p hp q hq
    rcases h.attained with rfl | ⟨p', hp', q', hq', rfl⟩
    · exact absurd hle (not_le.mpr (WithTop.coe_lt_top _))
    · exact ⟨p', hp', q', hq', WithTop.coe_le_coe.mp hle⟩
  · intro hnear
    refine le_antisymm ?_ (h.anti h' hS hT)
    rcases h'.attained with rfl | ⟨p, hp, q, hq, rfl⟩
    · exact le_top
    · obtain ⟨p', hp', q', hq', hle⟩ := hnear p hp q hq
      exact (h.le p' hp' q' hq').trans (WithTop.coe_le_coe.mpr hle)

variable [IsStrictOrderedRing K]

theorem lengthSq_nonneg (v : K × K) : 0 ≤ lengthSq v :=
  add_nonneg (mul_self_nonneg v.1) (mul_self_nonneg v.2)

theorem lengthSq_eq_zero {v : K × K} : lengthSq v = 0 ↔ v = 0 := by
  rw [lengthSq, dot, add_eq_zero_iff_of_nonneg (mul_self_nonneg _) (mul_self_nonneg _),
    mul_self_eq_zero, mul_self_eq_zero, Prod.ext_iff]
  rfl

theorem IsDist.nonneg (h : IsDist S T m) : 0 ≤ m := by
  rcases h.attained with rfl | ⟨p, -, q, -, rfl⟩
  · exact le_top
  · exact WithTop.coe_nonneg.mpr (lengthSq_nonneg _)

/-- Sets with a common point. -/
theorem isDist_zero (hS : p ∈ S) (hT : p ∈ T) : IsDist S T (0 : K) where
  le := fun _ _ _ _ => WithTop.coe_le_coe.mpr (lengthSq_nonneg _)
  attained := Or.inr ⟨p, hS, p, hT, by rw [sub_self, lengthSq_eq_zero.mpr rfl]⟩

/-! ## A point and a segment -/

/-- A point of a segment, seen from any point `q`. -/
theorem exists_combination (hx : x ∈ segment K a b) (q : K × K) :
    ∃ t : K, 0 ≤ t ∧ t ≤ 1 ∧ x - q = (1 - t) • (a - q) + t • (b - q) := by
  obtain ⟨s, t, hs, ht, hst, rfl⟩ := hx
  obtain rfl : s = 1 - t := eq_sub_of_add_eq hst
  refine ⟨t, ht, by linarith, ?_⟩
  ext <;> simp <;> ring

/-- A point of a segment is nearest to `p` if it sees neither end in the direction of `p`. -/
theorem isDist_of_dot_nonpos (hq : q ∈ segment K a b) (ha : dot (p - q) (a - q) ≤ 0)
    (hb : dot (p - q) (b - q) ≤ 0) : IsDist {p} (segment K a b) (lengthSq (p - q) : K) where
  le := by
    intro p' hp' x hx
    rw [Set.mem_singleton_iff.mp hp']
    obtain ⟨t, ht, ht', hcombination⟩ := exists_combination hx q
    have hdot : dot (p - q) (x - q) ≤ 0 := by
      have hsum : dot (p - q) (x - q) =
          (1 - t) * dot (p - q) (a - q) + t * dot (p - q) (b - q) := by
        rw [hcombination]
        simp only [dot, Prod.fst_add, Prod.snd_add, Prod.smul_fst, Prod.smul_snd, smul_eq_mul]
        ring
      rw [hsum]
      have h := mul_nonpos_of_nonneg_of_nonpos (sub_nonneg.mpr ht') ha
      have h' := mul_nonpos_of_nonneg_of_nonpos ht hb
      linarith
    have hsq : lengthSq (p - x) =
        lengthSq (p - q) - 2 * dot (p - q) (x - q) + lengthSq (x - q) := by
      simp only [lengthSq, dot, Prod.fst_sub, Prod.snd_sub]
      ring
    have hnonneg := lengthSq_nonneg (x - q)
    exact WithTop.coe_le_coe.mpr (by linarith)
  attained := Or.inr ⟨p, rfl, q, hq, rfl⟩

/-- The point is not seen from the start in the direction of the segment. -/
theorem isDist_start (h : dot (p - a) (b - a) ≤ 0) :
    IsDist {p} (segment K a b) (lengthSq (p - a) : K) :=
  isDist_of_dot_nonpos (left_mem_segment K a b) (by rw [sub_self]; simp [dot]) h

/-- The point is behind the end. -/
theorem isDist_end (h : lengthSq (b - a) ≤ dot (p - a) (b - a)) :
    IsDist {p} (segment K a b) (lengthSq (p - b) : K) := by
  refine isDist_of_dot_nonpos (right_mem_segment K a b) ?_ (by rw [sub_self]; simp [dot])
  have hdot : dot (p - b) (a - b) = lengthSq (b - a) - dot (p - a) (b - a) := by
    simp only [lengthSq, dot, Prod.fst_sub, Prod.snd_sub]
    ring
  rw [hdot]
  linarith

/-- The point is beside the segment: the foot of the perpendicular is nearest. -/
theorem isDist_foot (hne : lengthSq (b - a) ≠ 0) (h : 0 ≤ dot (p - a) (b - a))
    (h' : dot (p - a) (b - a) ≤ lengthSq (b - a)) :
    IsDist {p} (segment K a b)
      (lengthSq (p - (a + (dot (p - a) (b - a) / lengthSq (b - a)) • (b - a))) : K) := by
  have hpos : 0 < lengthSq (b - a) := lt_of_le_of_ne (lengthSq_nonneg _) hne.symm
  generalize hu : dot (p - a) (b - a) / lengthSq (b - a) = u
  have hdot : dot (p - a) (b - a) = u * lengthSq (b - a) := by
    rw [← hu, div_mul_cancel₀ _ hne]
  -- the way from the foot to the point is perpendicular to the segment
  have hperp : dot (p - (a + u • (b - a))) (b - a) = 0 := by
    have hsplit : dot (p - (a + u • (b - a))) (b - a) =
        dot (p - a) (b - a) - u * lengthSq (b - a) := by
      simp only [lengthSq, dot, Prod.fst_sub, Prod.snd_sub, Prod.fst_add, Prod.snd_add,
        Prod.smul_fst, Prod.smul_snd, smul_eq_mul]
      ring
    rw [hsplit, hdot, sub_self]
  have hend : ∀ (e : K × K) (t : K), e = a + t • (b - a) →
      dot (p - (a + u • (b - a))) (e - (a + u • (b - a))) = 0 := by
    rintro _ t rfl
    have hscale : dot (p - (a + u • (b - a))) (a + t • (b - a) - (a + u • (b - a))) =
        (t - u) * dot (p - (a + u • (b - a))) (b - a) := by
      simp only [dot, Prod.fst_sub, Prod.snd_sub, Prod.fst_add, Prod.snd_add, Prod.smul_fst,
        Prod.smul_snd, smul_eq_mul]
      ring
    rw [hscale, hperp, mul_zero]
  refine isDist_of_dot_nonpos ?_ (hend a 0 (by simp)).le (hend b 1 (by simp)).le
  rw [segment_eq_image']
  exact ⟨u, ⟨hu ▸ div_nonneg h hpos.le, hu ▸ (div_le_one hpos).mpr h'⟩, rfl⟩

/-- The point of the segment that is nearest to `p`. -/
def nearestOnSegment (p a b : K × K) : K × K :=
  let u := dot (p - a) (b - a) / lengthSq (b - a)
  if lengthSq (b - a) = 0 then a
  else if u ≤ 0 then a
  else if u ≥ 1 then b
  else a + u • (b - a)

theorem isDist_nearestOnSegment (p a b : K × K) :
    IsDist {p} (segment K a b) (lengthSq (p - nearestOnSegment p a b) : K) := by
  rw [nearestOnSegment]
  split_ifs with hpoint hlow hhigh
  · obtain rfl := sub_eq_zero.mp (lengthSq_eq_zero.mp hpoint)
    rw [segment_same]
    exact isDist_singleton p b
  all_goals have hpos : 0 < lengthSq (b - a) := lt_of_le_of_ne (lengthSq_nonneg _) (Ne.symm hpoint)
  · exact isDist_start ((div_le_iff₀ hpos).mp hlow |>.trans_eq (zero_mul _))
  · exact isDist_end ((one_le_div hpos).mp hhigh)
  · have hbeside := (lt_div_iff₀ hpos).mp (not_le.mp hlow)
    rw [zero_mul] at hbeside
    exact isDist_foot hpoint hbeside.le ((div_lt_one hpos).mp (not_le.mp hhigh)).le

/-! ## Two segments -/

/-- A point of the line through `a` and `b`. -/
def along (a b : K × K) (t : K) : K × K :=
  a + t • (b - a)

/-- The lines through the segments meet between the ends of both. -/
def Crossing (a b c d : K × K) : Prop :=
  ∃ s t : K, (0 < s ∧ s < 1) ∧ (0 < t ∧ t < 1) ∧ along a b s = along c d t ∧
    cross (b - a) (d - c) ≠ 0

theorem mem_segment_iff : x ∈ segment K a b ↔ ∃ t : K, (0 ≤ t ∧ t ≤ 1) ∧ along a b t = x := by
  rw [segment_eq_image']
  rfl

omit [LinearOrder K] [IsStrictOrderedRing K] in
@[simp] theorem along_zero (a b : K × K) : along a b 0 = a := by
  simp [along]

omit [LinearOrder K] [IsStrictOrderedRing K] in
@[simp] theorem along_one (a b : K × K) : along a b 1 = b := by
  simp [along]

/-- A coordinate that moves from `s` in the unit interval to `s'` is at a bound at some time, or
ends between them. Until then it is in the interval. -/
theorem exists_exit {s : K} (s' : K) (hs : 0 ≤ s) (hs' : s ≤ 1) :
    ∃ u : K, (0 ≤ u ∧ u ≤ 1) ∧
      (∀ v, 0 ≤ v → v ≤ u → 0 ≤ s + v * (s' - s) ∧ s + v * (s' - s) ≤ 1) ∧
      ((s + u * (s' - s) = 0 ∨ s + u * (s' - s) = 1) ∨ u = 1 ∧ 0 < s' ∧ s' < 1) := by
  rcases le_or_gt s' 0 with hlow | hlow
  · rcases eq_or_lt_of_le hs with rfl | hpos
    · refine ⟨0, ⟨le_rfl, zero_le_one⟩, fun v hv hv' => ?_, Or.inl (Or.inl (by ring))⟩
      obtain rfl := le_antisymm hv' hv
      simp
    · have hd : 0 < s - s' := by linarith
      have hexit : s + s / (s - s') * (s' - s) = 0 := by
        rw [← neg_sub s s', mul_neg, div_mul_cancel₀ _ hd.ne', add_neg_cancel]
      refine ⟨s / (s - s'), ⟨div_nonneg hs hd.le, (div_le_one hd).mpr (by linarith)⟩,
        fun v hv hv' => ?_, Or.inl (Or.inl hexit)⟩
      have hmul := mul_le_mul_of_nonneg_right hv' hd.le
      have hnonneg := mul_nonneg hv hd.le
      exact ⟨by linarith, by linarith⟩
  · rcases le_or_gt 1 s' with hhigh | hhigh
    · rcases eq_or_lt_of_le hs' with rfl | hlt
      · refine ⟨0, ⟨le_rfl, zero_le_one⟩, fun v hv hv' => ?_, Or.inl (Or.inr (by ring))⟩
        obtain rfl := le_antisymm hv' hv
        simp
      · have hd : 0 < s' - s := by linarith
        have hexit : s + (1 - s) / (s' - s) * (s' - s) = 1 := by
          rw [div_mul_cancel₀ _ hd.ne', add_sub_cancel]
        refine ⟨(1 - s) / (s' - s),
          ⟨div_nonneg (by linarith) hd.le, (div_le_one hd).mpr (by linarith)⟩,
          fun v hv hv' => ?_, Or.inl (Or.inr hexit)⟩
        have hmul := mul_le_mul_of_nonneg_right hv' hd.le
        have hnonneg := mul_nonneg hv hd.le
        exact ⟨by linarith, by linarith⟩
    · refine ⟨1, ⟨zero_le_one, le_rfl⟩, fun v hv hv' => ?_, Or.inr ⟨rfl, hlow, hhigh⟩⟩
      have hstart := mul_nonneg (sub_nonneg.mpr hv') hs
      have hstop := mul_nonneg hv hlow.le
      have hstart' := mul_nonneg (sub_nonneg.mpr hv') (sub_nonneg.mpr hs')
      have hstop' := mul_nonneg hv (sub_nonneg.mpr hhigh.le)
      exact ⟨by linarith, by linarith⟩

/-- A point of the unit square that moves to one that is not inside is at an edge of the square at
some time. -/
theorem exists_edge {s t s' t' : K} (hs : 0 ≤ s ∧ s ≤ 1) (ht : 0 ≤ t ∧ t ≤ 1)
    (hout : ¬ ((0 < s' ∧ s' < 1) ∧ 0 < t' ∧ t' < 1)) :
    ∃ u : K, (0 ≤ u ∧ u ≤ 1) ∧
      (0 ≤ s + u * (s' - s) ∧ s + u * (s' - s) ≤ 1) ∧
      (0 ≤ t + u * (t' - t) ∧ t + u * (t' - t) ≤ 1) ∧
      ((s + u * (s' - s) = 0 ∨ s + u * (s' - s) = 1) ∨
        t + u * (t' - t) = 0 ∨ t + u * (t' - t) = 1) := by
  obtain ⟨us, hus, hins, hexits⟩ := exists_exit s' hs.1 hs.2
  obtain ⟨ut, hut, hint, hexitt⟩ := exists_exit t' ht.1 ht.2
  -- the coordinate that is at a bound first
  rcases le_total us ut with hle | hle
  · refine ⟨us, hus, hins us hus.1 le_rfl, hint us hus.1 hle, ?_⟩
    rcases hexits with hbound | ⟨rfl, hinside⟩
    · exact Or.inl hbound
    · obtain rfl := le_antisymm hut.2 hle
      exact Or.inr (hexitt.resolve_right fun h => hout ⟨hinside, h.2⟩)
  · refine ⟨ut, hut, hins ut hut.1 hle, hint ut hut.1 le_rfl, ?_⟩
    rcases hexitt with hbound | ⟨rfl, hinside⟩
    · exact Or.inr hbound
    · obtain rfl := le_antisymm hus.2 hle
      exact Or.inl (hexits.resolve_right fun h => hout ⟨h.2, hinside⟩)

omit [LinearOrder K] [IsStrictOrderedRing K] in
/-- Where two lines meet that are not parallel. -/
theorem along_eq_along (hne : cross (b - a) (d - c) ≠ 0) :
    along a b (cross (c - a) (d - c) / cross (b - a) (d - c)) =
      along c d (cross (c - a) (b - a) / cross (b - a) (d - c)) := by
  generalize hdet : cross (b - a) (d - c) = det at hne
  simp only [cross, Prod.fst_sub, Prod.snd_sub] at hdet
  ext
  · simp only [along, cross, Prod.fst_add, Prod.smul_fst, Prod.fst_sub, Prod.snd_sub, smul_eq_mul]
    field_simp
    rw [← hdet]
    ring
  · simp only [along, cross, Prod.snd_add, Prod.smul_snd, Prod.fst_sub, Prod.snd_sub, smul_eq_mul]
    field_simp
    rw [← hdet]
    ring

/-- Of two parallel vectors, one is a multiple of the other. -/
theorem eq_smul_of_cross {u v : K × K} (hne : u ≠ 0) (h : cross u v = 0) :
    v = (dot v u / lengthSq u) • u := by
  have hsq : lengthSq u ≠ 0 := fun hzero => hne (lengthSq_eq_zero.mp hzero)
  rw [cross, sub_eq_zero] at h
  ext
  · rw [Prod.smul_fst, smul_eq_mul, div_mul_eq_mul_div, eq_div_iff hsq]
    simp only [lengthSq, dot]
    linear_combination u.2 * (-h)
  · rw [Prod.smul_snd, smul_eq_mul, div_mul_eq_mul_div, eq_div_iff hsq]
    simp only [lengthSq, dot]
    linear_combination u.1 * h

/-- Where the lines meet, or how to move on both so that the difference stays. -/
theorem exists_target (hcross : ¬ Crossing a b c d) (s t : K) :
    ∃ s' t' : K, ¬ ((0 < s' ∧ s' < 1) ∧ 0 < t' ∧ t' < 1) ∧
      (along a b s' - along c d t' = 0 ∨
        along a b s' - along c d t' = along a b s - along c d t) := by
  by_cases hparallel : cross (b - a) (d - c) = 0
  · by_cases hpoint : b - a = 0
    · refine ⟨1, t, fun h => lt_irrefl _ h.1.2, Or.inr ?_⟩
      simp only [along, hpoint, smul_zero]
    · have hmultiple := eq_smul_of_cross hpoint hparallel
      generalize dot (d - c) (b - a) / lengthSq (b - a) = k at hmultiple
      refine ⟨s + k * (1 - t), 1, fun h => lt_irrefl _ h.2.2, Or.inr ?_⟩
      rw [along, along, along, along, hmultiple]
      module
  · have hmeet := along_eq_along hparallel
    exact ⟨_, _, fun h => hcross ⟨_, _, h.1, h.2, hmeet, hparallel⟩,
      Or.inl (sub_eq_zero.mpr hmeet)⟩

omit [LinearOrder K] [IsStrictOrderedRing K] in
/-- The difference while both points move at a constant pace. -/
theorem along_sub_along (a b c d : K × K) (s t s' t' u : K) :
    along a b (s + u * (s' - s)) - along c d (t + u * (t' - t)) =
      (1 - u) • (along a b s - along c d t) + u • (along a b s' - along c d t') := by
  rw [along, along, along, along, along, along]
  module

/-- Of segments that do not cross, no two points are nearer to each other than some end of one is to
a point of the other. -/
theorem exists_end_as_near (hcross : ¬ Crossing a b c d) {s t : K} (hs : 0 ≤ s ∧ s ≤ 1)
    (ht : 0 ≤ t ∧ t ≤ 1) :
    ∃ s' t' : K, (0 ≤ s' ∧ s' ≤ 1) ∧ (0 ≤ t' ∧ t' ≤ 1) ∧
      ((s' = 0 ∨ s' = 1) ∨ t' = 0 ∨ t' = 1) ∧
      lengthSq (along a b s' - along c d t') ≤ lengthSq (along a b s - along c d t) := by
  obtain ⟨s', t', hout, htarget⟩ := exists_target hcross s t
  obtain ⟨u, hu, hins, hint, hedge⟩ := exists_edge hs ht hout
  refine ⟨_, _, hins, hint, hedge, ?_⟩
  rw [along_sub_along]
  rcases htarget with hzero | hsame
  · have hsq : lengthSq ((1 - u) • (along a b s - along c d t) + u • (0 : K × K)) =
        (1 - u) * (1 - u) * lengthSq (along a b s - along c d t) := by
      simp only [lengthSq, dot, smul_zero, add_zero, Prod.smul_fst, Prod.smul_snd, smul_eq_mul]
      ring
    rw [hzero, hsq]
    have hle : (1 - u) * (1 - u) ≤ 1 :=
      mul_le_one₀ (by linarith [hu.1]) (by linarith [hu.2]) (by linarith [hu.1])
    exact mul_le_of_le_one_left (lengthSq_nonneg _) hle
  · rw [hsame, ← add_smul, sub_add_cancel, one_smul]

variable {m₁ m₂ m₃ m₄ : WithTop K}

/-- The distance of two segments that do not cross is the least one of an end to the other one. -/
theorem isDist_segments (hcross : ¬ Crossing a b c d) (h₁ : IsDist {a} (segment K c d) m₁)
    (h₂ : IsDist {b} (segment K c d) m₂) (h₃ : IsDist {c} (segment K a b) m₃)
    (h₄ : IsDist {d} (segment K a b) m₄) :
    IsDist (segment K a b) (segment K c d) (min (min m₁ m₂) (min m₃ m₄)) := by
  have hleft := h₁.symm.union h₂.symm
  have hright := h₃.symm.union h₄.symm
  constructor
  case le =>
    intro p hp q hq
    obtain ⟨s, hs, rfl⟩ := mem_segment_iff.mp hp
    obtain ⟨t, ht, rfl⟩ := mem_segment_iff.mp hq
    obtain ⟨s', t', hs', ht', hends, hle⟩ := exists_end_as_near hcross hs ht
    refine le_trans ?_ (WithTop.coe_le_coe.mpr hle)
    rcases hends with hends | hends
    · refine (min_le_left _ _).trans (hleft.symm.le _ ?_ _ (mem_segment_iff.mpr ⟨t', ht', rfl⟩))
      rcases hends with rfl | rfl
      · exact Or.inl (along_zero a b)
      · exact Or.inr (along_one a b)
    · refine (min_le_right _ _).trans (hright.le _ (mem_segment_iff.mpr ⟨s', hs', rfl⟩) _ ?_)
      rcases hends with rfl | rfl
      · exact Or.inl (along_zero c d)
      · exact Or.inr (along_one c d)
  case attained =>
    have hends : ∀ {e : K × K}, e ∈ ({a} ∪ {b} : Set (K × K)) → e ∈ segment K a b := by
      rintro e (rfl | rfl)
      · exact left_mem_segment K _ _
      · exact right_mem_segment K _ _
    have hends' : ∀ {e : K × K}, e ∈ ({c} ∪ {d} : Set (K × K)) → e ∈ segment K c d := by
      rintro e (rfl | rfl)
      · exact left_mem_segment K _ _
      · exact right_mem_segment K _ _
    rcases min_choice (min m₁ m₂) (min m₃ m₄) with heq | heq
    · rw [heq]
      exact hleft.symm.attained.imp_right fun ⟨p, hp, q, hq, h⟩ => ⟨p, hends hp, q, hq, h⟩
    · rw [heq]
      exact hright.attained.imp_right fun ⟨p, hp, q, hq, h⟩ => ⟨p, hp, q, hends' hq, h⟩

end PlaneDistance
