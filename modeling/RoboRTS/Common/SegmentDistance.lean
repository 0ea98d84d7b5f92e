import RoboRTS.Lib.OutlineDistance

/-!
# Points and segments

The functions of which the packages have copies: `CheckLineSegmentsIntersection2D` and
`PointToLineDistance`, and `DistanceSegmentToSegment2D` for the distance of a point to a segment
that it calls. Numbers are exact. The point where the segments meet is not stored.

The intersection test admits the ends for a positive determinant only. The distances of the ends
make up for what it rejects (`measures_segments`).
-/

namespace RoboRTS.Common

open PlaneDistance

variable {K : Type*} [Field K] [LinearOrder K]

/-- `CheckLineSegmentsIntersection2D`. -/
def checkLineSegmentsIntersection2D (line1Start line1End line2Start line2End : K × K) : Bool :=
  let line1 := line1End - line1Start
  let line2 := line2End - line2Start
  let denom := line1.1 * line2.2 - line2.1 * line1.2
  if denom = 0 then false
  else
    let denomPositive : Bool := denom > 0
    let aux := line1Start - line2Start
    let sNumer := line1.1 * aux.2 - line1.2 * aux.1
    if decide (sNumer < 0) = denomPositive then false
    else
      let tNumer := line2.1 * aux.2 - line2.2 * aux.1
      if decide (tNumer < 0) = denomPositive then false
      else if decide (sNumer > denom) = denomPositive ∨ decide (tNumer > denom) = denomPositive then
        false
      else true

/-- `PointToLineDistance` of six numbers. Without a length it divides zero by zero. -/
def pointToLineDistance (r : Ruler K) (p p0 p1 : K × K) : ExactDouble K :=
  let a := p.1 - p0.1
  let b := p.2 - p0.2
  let c := p1.1 - p0.1
  let d := p1.2 - p0.2
  let dot := a * c + b * d
  let lenSq := c * c + d * d
  if lenSq = 0 then .nan
  else
    let param := dot / lenSq
    let nearest :=
      if param < 0 then p0
      else if param > 1 then p1
      else (p0.1 + param * c, p0.2 + param * d)
    r.norm (nearest - p)

/-- `DistanceSegmentToSegment2D`, with the distance of a point to a segment. -/
def distanceSegmentToSegment (pointToSegment : K × K → K × K → K × K → ExactDouble K)
    (line1Start line1End line2Start line2End : K × K) : ExactDouble K :=
  if checkLineSegmentsIntersection2D line1Start line1End line2Start line2End then .number 0
  else
    ExactDouble.minElement (pointToSegment line1Start line2Start line2End)
      [pointToSegment line1End line2Start line2End, pointToSegment line2Start line1Start line1End,
        pointToSegment line2End line1Start line1End]

/-! ## The intersection test -/

variable [IsStrictOrderedRing K] {r : Ruler K} {a b c d p : K × K}

/-- A numerator that the test does not reject. -/
def Within (numer denom : K) : Prop :=
  ¬ decide (numer < 0) = decide (denom > 0) ∧ ¬ decide (numer > denom) = decide (denom > 0)

omit [IsStrictOrderedRing K] in
theorem within_iff {x denom : K} (hne : denom ≠ 0) :
    Within x denom ↔ 0 < denom ∧ 0 ≤ x ∧ x ≤ denom ∨ denom < 0 ∧ x < 0 ∧ denom < x := by
  rcases lt_or_gt_of_ne hne with hneg | hpos
  · simp [Within, hneg, hneg.not_gt]
  · simp [Within, hpos, hpos.not_gt]

theorem Within.quotient {x denom : K} (hne : denom ≠ 0) (h : Within x denom) :
    0 ≤ x / denom ∧ x / denom ≤ 1 := by
  rcases (within_iff hne).mp h with ⟨hpos, hx, hx'⟩ | ⟨hneg, hx, hx'⟩
  · exact ⟨div_nonneg hx hpos.le, (div_le_one hpos).mpr hx'⟩
  · exact ⟨div_nonneg_of_nonpos hx.le hneg.le, (div_le_one_of_neg hneg).mpr hx'.le⟩

theorem within_of_mul {s denom : K} (hne : denom ≠ 0) (hs : 0 < s ∧ s < 1) :
    Within (s * denom) denom := by
  rw [within_iff hne]
  rcases lt_or_gt_of_ne hne with hneg | hpos
  · exact Or.inr ⟨hneg, mul_neg_of_pos_of_neg hs.1 hneg,
      by linarith [mul_pos_of_neg_of_neg hneg (sub_neg.mpr hs.2)]⟩
  · exact Or.inl ⟨hpos, (mul_pos hs.1 hpos).le, mul_le_of_le_one_left hpos.le hs.2.le⟩

omit [IsStrictOrderedRing K] in
theorem checkLineSegmentsIntersection2D_iff :
    checkLineSegmentsIntersection2D a b c d = true ↔
      cross (b - a) (d - c) ≠ 0 ∧ Within (cross (b - a) (a - c)) (cross (b - a) (d - c)) ∧
        Within (cross (d - c) (a - c)) (cross (b - a) (d - c)) := by
  have hdet : (b - a).1 * (d - c).2 - (d - c).1 * (b - a).2 = cross (b - a) (d - c) := by
    rw [cross, mul_comm (d - c).1]
  unfold checkLineSegmentsIntersection2D
  dsimp only
  rw [hdet]
  change (if _ then _ else if decide (cross (b - a) (a - c) < 0) = _ then _ else
    if decide (cross (d - c) (a - c) < 0) = _ then _ else
    if decide (cross (b - a) (a - c) > _) = _ ∨ decide (cross (d - c) (a - c) > _) = _ then _
    else _) = true ↔ _
  rw [Within, Within]
  split_ifs <;> grind

omit [LinearOrder K] [IsStrictOrderedRing K] in
theorem cross_sub_comm (v a c : K × K) : cross v (a - c) = cross (c - a) v := by
  simp only [cross, Prod.fst_sub, Prod.snd_sub]
  ring

/-- Segments that pass the test meet. -/
theorem exists_common (h : checkLineSegmentsIntersection2D a b c d = true) :
    ∃ p, p ∈ segment K a b ∧ p ∈ segment K c d := by
  obtain ⟨hne, hs, ht⟩ := checkLineSegmentsIntersection2D_iff.mp h
  rw [cross_sub_comm] at hs ht
  exact ⟨_, mem_segment_iff.mpr ⟨_, ht.quotient hne, rfl⟩,
    mem_segment_iff.mpr ⟨_, hs.quotient hne, (along_eq_along hne).symm⟩⟩

/-- Segments that cross between their ends pass the test. -/
theorem check_of_crossing (h : Crossing a b c d) :
    checkLineSegmentsIntersection2D a b c d = true := by
  obtain ⟨s, t, hs, ht, hmeet, hne⟩ := h
  have haux : a - c = t • (d - c) - s • (b - a) := by
    rw [along, along] at hmeet
    rw [eq_sub_iff_add_eq, sub_add_eq_add_sub, hmeet, add_sub_cancel_left]
  rw [checkLineSegmentsIntersection2D_iff]
  refine ⟨hne, ?_, ?_⟩
  · have hnumer : cross (b - a) (a - c) = t * cross (b - a) (d - c) := by
      rw [haux]
      simp only [cross, Prod.fst_sub, Prod.snd_sub, Prod.smul_fst, Prod.smul_snd, smul_eq_mul]
      ring
    exact hnumer ▸ within_of_mul hne ht
  · have hnumer : cross (d - c) (a - c) = s * cross (b - a) (d - c) := by
      rw [haux]
      simp only [cross, Prod.fst_sub, Prod.snd_sub, Prod.smul_fst, Prod.smul_snd, smul_eq_mul]
      ring
    exact hnumer ▸ within_of_mul hne hs

/-! ## Distances -/

/-- `PointToLineDistance` is the distance to a segment that has a length. -/
theorem measures_pointToLineDistance (hne : a ≠ b) :
    Measures r {p} (segment K a b) (pointToLineDistance r p a b) := by
  have hsq : lengthSq (b - a) ≠ 0 := fun h => hne (sub_eq_zero.mp (lengthSq_eq_zero.mp h)).symm
  have hpos : 0 < lengthSq (b - a) := lt_of_le_of_ne (lengthSq_nonneg _) hsq.symm
  change Measures r {p} _ (if lengthSq (b - a) = 0 then _ else
    r.norm ((if dot (p - a) (b - a) / lengthSq (b - a) < 0 then a
      else if dot (p - a) (b - a) / lengthSq (b - a) > 1 then b
      else a + (dot (p - a) (b - a) / lengthSq (b - a)) • (b - a)) - p))
  rw [if_neg hsq, norm_sub_comm]
  split_ifs with hlow hhigh
  · exact ⟨_, isDist_start ((div_lt_iff₀ hpos).mp hlow |>.trans_eq (zero_mul _)).le, rfl⟩
  · exact ⟨_, isDist_end ((one_lt_div hpos).mp hhigh).le, rfl⟩
  · exact ⟨_, isDist_foot hsq ((zero_mul _).symm.trans_le ((le_div_iff₀ hpos).mp (not_lt.mp hlow)))
      ((div_le_one hpos).mp (not_lt.mp hhigh)), rfl⟩

/-- The distance of two segments, if those of their ends are right. -/
theorem measures_segments {f : K × K → K × K → K × K → ExactDouble K}
    (hfirst : ∀ p, Measures r {p} (segment K c d) (f p c d))
    (hsecond : ∀ p, Measures r {p} (segment K a b) (f p a b)) :
    Measures r (segment K a b) (segment K c d) (distanceSegmentToSegment f a b c d) := by
  rw [distanceSegmentToSegment]
  split_ifs with hcheck
  · obtain ⟨p, hp, hp'⟩ := exists_common hcheck
    exact ⟨(0 : K), isDist_zero hp hp', by rw [Ruler.length_coe, r.zero]⟩
  · obtain ⟨m₁, h₁, heq₁⟩ := hfirst a
    obtain ⟨m₂, h₂, heq₂⟩ := hfirst b
    obtain ⟨m₃, h₃, heq₃⟩ := hsecond c
    obtain ⟨m₄, h₄, heq₄⟩ := hsecond d
    refine ⟨_, isDist_segments (fun h => hcheck (check_of_crossing h)) h₁ h₂ h₃ h₄, ?_⟩
    have h₁₂ := le_min h₁.nonneg h₂.nonneg
    simp only [ExactDouble.minElement, List.foldl]
    rw [heq₁, heq₂, heq₃, heq₄, Ruler.closer_length h₁.nonneg h₂.nonneg,
      Ruler.closer_length h₁₂ h₃.nonneg, Ruler.closer_length (le_min h₁₂ h₃.nonneg) h₄.nonneg,
      min_assoc (min m₁ m₂)]

end RoboRTS.Common
