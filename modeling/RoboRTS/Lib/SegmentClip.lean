import RoboRTS.Lib.Literals
import Mathlib.Algebra.Order.Field.Basic
import Mathlib.Order.Lattice
import Mathlib.Tactic.FieldSimp
import Mathlib.Tactic.Linarith
import Mathlib.Tactic.Ring

/-!
# Clipping a segment

A point moves along a segment, with `u + t * v` as one of its coordinates at parameter `t`. When it
starts below a bound, `clip` is the last parameter up to `s` at which it is not above the bound
(`le_clip_iff`). A segment is clipped to a rectangle by four such clips, one after the other.
-/

namespace SegmentClip

variable {K : Type*} [Field K] [LinearOrder K]

/-- The last parameter up to `s` at which the coordinate is not above the bound. -/
def clip (bound u v s : K) : K :=
  if bound < u + s * v then (bound - u) / v else s

variable {bound u v s t : K}

theorem clip_of_lt (h : bound < u + s * v) : clip bound u v s = (bound - u) / v :=
  if_pos h

theorem clip_of_le (h : u + s * v ≤ bound) : clip bound u v s = s :=
  if_neg (not_lt.mpr h)

variable [IsStrictOrderedRing K]

/-- A coordinate that passes the bound grows. -/
theorem pos_of_lt (hu : u ≤ bound) (hs : 0 ≤ s) (h : bound < u + s * v) : 0 < v :=
  pos_of_mul_pos_right (by linarith) hs

/-- Where the segment is clipped, the coordinate is at the bound. -/
theorem at_clip (hu : u ≤ bound) (hs : 0 ≤ s) (h : bound < u + s * v) :
    u + clip bound u v s * v = bound := by
  have hv := pos_of_lt hu hs h
  rw [clip_of_lt h, div_mul_cancel₀ _ hv.ne']
  ring

theorem clip_lt (hu : u ≤ bound) (hs : 0 ≤ s) (h : bound < u + s * v) :
    clip bound u v s < s := by
  have hv := pos_of_lt hu hs h
  rw [clip_of_lt h, div_lt_iff₀ hv]
  linarith

theorem clip_le (hu : u ≤ bound) (hs : 0 ≤ s) : clip bound u v s ≤ s := by
  by_cases h : bound < u + s * v
  · exact (clip_lt hu hs h).le
  · exact (clip_of_le (not_lt.mp h)).le

theorem clip_nonneg (hu : u ≤ bound) (hs : 0 ≤ s) : 0 ≤ clip bound u v s := by
  by_cases h : bound < u + s * v
  · rw [clip_of_lt h]
    exact div_nonneg (sub_nonneg.mpr hu) (pos_of_lt hu hs h).le
  · rwa [clip_of_le (not_lt.mp h)]

/-- Up to the clipped parameter, and no further, the coordinate is not above the bound. -/
theorem le_clip_iff (hu : u ≤ bound) (ht : 0 ≤ t) (hts : t ≤ s) :
    t ≤ clip bound u v s ↔ u + t * v ≤ bound := by
  have hs := ht.trans hts
  by_cases h : bound < u + s * v
  · have hv := pos_of_lt hu hs h
    rw [clip_of_lt h, le_div_iff₀ hv]
    exact ⟨fun h => by linarith, fun h => by linarith⟩
  · have hle := not_lt.mp h
    rw [clip_of_le hle]
    refine iff_of_true hts ?_
    -- between two values that are not above the bound
    rcases le_total v 0 with hv | hv
    · have := mul_nonpos_of_nonneg_of_nonpos ht hv
      linarith
    · have := mul_le_mul_of_nonneg_right hts hv
      linarith

/-- A coordinate that starts strictly below the bound is strictly below it before the clip. -/
theorem lt_of_lt_clip (hu : u < bound) (ht : 0 ≤ t) (hts : t < s) (hs : u + s * v ≤ bound) :
    u + t * v < bound := by
  rcases le_or_gt v 0 with hv | hv
  · have := mul_nonpos_of_nonneg_of_nonpos ht hv
    linarith
  · have := mul_lt_mul_of_pos_right hts hv
    linarith

end SegmentClip
