import RoboRTS.Lib.ConvexTurns
import RoboRTS.Common.Polygon.Overloads

/-!
# The convexity check

`ConvexVerify` looks at one turn for each point. Points that it accepts turn left everywhere, but
may go round more than once; they are convex exactly if from each lower corner on they are the same
(`convexVerify_sound_iff`), as those of a convex polygon that is listed several times.
-/

namespace RoboRTS.Common

open PlaneDistance ConvexTurns

variable {K : Type*} [Field K] [LinearOrder K] {points : List (K × K)}

/-- Every point is on or to the left of the line through every edge. -/
def IsConvex (points : List (K × K)) : Prop :=
  ∀ i < points.length, ∀ j < points.length,
    0 ≤ cross2D (points.getD i 0) (points.getD (next points.length i) 0) (points.getD j 0)

/-- The points, again and again. -/
def corner (points : List (K × K)) (i : Nat) : K × K :=
  points.getD (i % points.length) 0

/-- From any two lower corners on the points are the same. -/
def RoundOnce (points : List (K × K)) : Prop :=
  ∀ i j, Lower (corner points) i → Lower (corner points) j →
    ∀ k, corner points (i + k) = corner points (j + k)

/-! ## Indices -/

theorem next_mod {n : Nat} (hn : 0 < n) (i : Nat) : next n (i % n) = (i + 1) % n := by
  have hlt := Nat.mod_lt i hn
  rw [← Nat.mod_add_mod, next]
  split
  · rw [show i % n + 1 = n by omega, Nat.mod_self]
  · exact (Nat.mod_eq_of_lt (by omega)).symm

theorem prev_mod {n : Nat} (hn : 0 < n) (i : Nat) : prev n ((i + 1) % n) = i % n := by
  have hlt := Nat.mod_lt i hn
  rw [← next_mod hn, next, prev]
  split <;> split <;> omega

omit [LinearOrder K] in
theorem corner_periodic (points : List (K × K)) :
    Function.Periodic (corner points) points.length := by
  intro i
  rw [corner, Nat.add_mod_right, corner]

omit [LinearOrder K] in
theorem turn_eq (hne : 0 < points.length) (i : Nat) :
    turn points ((i + 1) % points.length) =
      cross (edge (corner points) i) (edge (corner points) (i + 1)) := by
  have hsum : corner points (i + 1 + 1) - corner points i =
      edge (corner points) i + edge (corner points) (i + 1) := by
    exact (sub_add_sub_cancel' _ _ _).symm
  rw [turn, next_mod hne, prev_mod hne]
  change cross (edge (corner points) i) (corner points (i + 1 + 1) - corner points i) = _
  rw [hsum, cross_add, cross_same, zero_add]

theorem isConvex_iff (hne : 0 < points.length) : IsConvex points ↔ Convex (corner points) := by
  constructor
  · intro h i j
    have hcorner := h _ (Nat.mod_lt i hne) _ (Nat.mod_lt j hne)
    rw [next_mod hne] at hcorner
    exact hcorner
  · intro h i hi j hj
    have hcorner := h i j
    rw [edge, corner, corner, corner, ← next_mod hne, Nat.mod_eq_of_lt hi, Nat.mod_eq_of_lt hj]
      at hcorner
    exact hcorner

/-! ## What the check accepts -/

theorem convexVerify_iff (h : 4 ≤ points.length) :
    (convexVerify points).1 = true ↔
      ¬ ∃ i < points.length, turn (antiClock points) i ≤ kEpsilon := by
  rw [convexVerify, if_neg (by omega)]
  simp [length_antiClock]

variable [IsStrictOrderedRing K]

/-- The points of at least four that the check accepts are convex exactly if they go round once. -/
theorem convexVerify_sound_iff (h : 4 ≤ points.length) :
    ((convexVerify points).1 = true → IsConvex (convexVerify points).2) ↔
      (∃ i < points.length, turn (antiClock points) i ≤ kEpsilon) ∨
        RoundOnce (antiClock points) := by
  have hlength := length_antiClock points
  have hpos : 0 < (antiClock points).length := by omega
  have hpoints : (convexVerify points).2 = antiClock points := by
    rw [convexVerify, if_neg (by omega)]
  rw [convexVerify_iff h, hpoints]
  by_cases hturn : ∃ i < points.length, turn (antiClock points) i ≤ kEpsilon
  · exact iff_of_true (fun hnot => absurd hturn hnot) (Or.inl hturn)
  · rw [or_iff_right hturn, forall_prop_of_true hturn, isConvex_iff hpos]
    refine convex_iff hpos (corner_periodic _) fun i => ?_
    have heps : (0 : K) < kEpsilon := by
      rw [kEpsilon]
      positivity
    rw [← turn_eq hpos]
    refine heps.trans (not_le.mp fun hle => hturn ⟨_, ?_, hle⟩)
    rw [← hlength]
    exact Nat.mod_lt _ hpos

/-- A square. -/
theorem convexVerify_sound_iff_square :
    ((convexVerify ([(0, 0), (1, 0), (1, 1), (0, 1)] : List (ℚ × ℚ))).1 = true →
        IsConvex (convexVerify ([(0, 0), (1, 0), (1, 1), (0, 1)] : List (ℚ × ℚ))).2) ↔
      (∃ i < 4, turn (antiClock ([(0, 0), (1, 0), (1, 1), (0, 1)] : List (ℚ × ℚ))) i ≤ kEpsilon) ∨
        RoundOnce (antiClock ([(0, 0), (1, 0), (1, 1), (0, 1)] : List (ℚ × ℚ))) :=
  convexVerify_sound_iff (by simp)

/-- A pentagram turns left at each of its five points and goes round twice. -/
theorem pentagram_accepted :
    ¬ ((convexVerify ([(0, 3), (-2, -3), (3, 1), (-3, 1), (2, -3)] : List (ℚ × ℚ))).1 = true →
      IsConvex (convexVerify ([(0, 3), (-2, -3), (3, 1), (-3, 1), (2, -3)] : List (ℚ × ℚ))).2) := by
  have hresult : convexVerify ([(0, 3), (-2, -3), (3, 1), (-3, 1), (2, -3)] : List (ℚ × ℚ)) =
      (true, [(0, 3), (-2, -3), (3, 1), (-3, 1), (2, -3)]) := by
    norm_num [convexVerify, antiClock, doubledArea, turn, next, prev, cross2D, cross, kEpsilon,
      List.range_succ]
  intro h
  rw [hresult] at h
  have hright := h rfl 0 (by simp) 3 (by simp)
  norm_num [next, cross2D, cross] at hright

end RoboRTS.Common
