import RoboRTS.Planning.LocalPlanner.Obstacles.Defs

/-!
# Distances of obstacles

Over an ordered field, the distance of two segments is exact, also where they only touch, are
parallel, or are points (`distanceSegmentToSegment2D_exact`). The closest point of a polygon is the
nearest one of its outline, but the distance of the polygon leaves out the closing edge: the two
agree exactly where no point of this edge is nearer than the others (`distancesAgree_iff`).
-/

namespace RoboRTS.Planning

open PlaneDistance
open Common (pointToLineDistance measures_segments measures_pointToLineDistance)

variable {K : Type*} [Field K] [LinearOrder K] {r : Ruler K} {a b c d p : K × K}

/-! ## Segments -/

variable [IsStrictOrderedRing K]

theorem measures_distancePointToSegment2D (r : Ruler K) (p a b : K × K) :
    Measures r {p} (segment K a b) (distancePointToSegment2D r p a b) :=
  measures_nearestOnSegment p a b

theorem measures_distanceSegmentToSegment2D (r : Ruler K) (a b c d : K × K) :
    Measures r (segment K a b) (segment K c d) (distanceSegmentToSegment2D r a b c d) :=
  measures_segments (fun p => measures_distancePointToSegment2D r p c d)
    fun p => measures_distancePointToSegment2D r p a b

/-- The distance of two segments is the least one of a point of the first and one of the second. -/
theorem distanceSegmentToSegment2D_exact (r : Ruler K) (a b c d : K × K) :
    IsLeastDistance r (segment K a b) (segment K c d) (distanceSegmentToSegment2D r a b c d) :=
  (measures_iff ⟨a, left_mem_segment K a b⟩ ⟨c, left_mem_segment K c d⟩).mp
    (measures_distanceSegmentToSegment2D r a b c d)

/-- Segments at a right angle that do not meet. -/
theorem distanceSegmentToSegment2D_upright :
    IsLeastDistance (K := ℚ) Ruler.squared (segment ℚ (0, 0) (2, 0)) (segment ℚ (1, 1) (1, 3))
      (distanceSegmentToSegment2D Ruler.squared (0, 0) (2, 0) (1, 1) (1, 3)) :=
  distanceSegmentToSegment2D_exact Ruler.squared (0, 0) (2, 0) (1, 1) (1, 3)

/-! ## Polygons -/

/-- `DistancePointToPolygon2D` measures the edges without the closing one. -/
theorem measures_distancePointToPolygon2D {vertices : List (K × K)} (hne : vertices ≠ [])
    (hdistinct : vertices.IsChain (· ≠ ·)) :
    Measures r {p} (openOutline vertices) (distancePointToPolygon2D r p vertices) := by
  match vertices with
  | [vertex] =>
      rw [openOutline_singleton]
      exact measures_singleton p vertex
  | front :: next :: rest =>
      have hfold := Measures.foldl
        (fun e he => measures_pointToLineDistance (r := r) (p := p) (ne_of_mem_zip_tail hdistinct he))
        measures_empty
      rw [Set.empty_union] at hfold
      rw [openOutline_eq (by simp)]
      exact hfold

namespace PolygonObstacle

variable {best : ExactDouble K × (K × K)} {e : (K × K) × (K × K)}

omit [IsStrictOrderedRing K] in
/-- The first component of the loop of `GetClosestPoint` is a least distance. -/
theorem closerPoint_fst : (closerPoint r p best e).1 =
    best.1.closer (distancePointToSegment2D r p e.1 e.2) := by
  rw [closerPoint, ExactDouble.closer, distancePointToSegment2D, norm_sub_comm]
  split <;> rfl

omit [IsStrictOrderedRing K] in
/-- The first component is the distance of the second. -/
theorem closerPoint_norm (h : best.1 = r.norm (best.2 - p)) :
    (closerPoint r p best e).1 = r.norm ((closerPoint r p best e).2 - p) := by
  rw [closerPoint]
  split
  · rfl
  · exact h

omit [IsStrictOrderedRing K] in
theorem foldl_closerPoint_norm (edges : List ((K × K) × (K × K)))
    (h : best.1 = r.norm (best.2 - p)) :
    (edges.foldl (closerPoint r p) best).1 =
      r.norm ((edges.foldl (closerPoint r p) best).2 - p) := by
  induction edges generalizing best with
  | nil => exact h
  | cons e edges ih => exact ih (closerPoint_norm h)

/-- The closest point is at the distance of the outline. -/
theorem measures_getClosestPoint {o : PolygonObstacle K} (hne : o.vertices ≠ []) :
    Measures r {p} (outline o.vertices) (r.norm (p - o.getClosestPoint r p)) := by
  obtain ⟨vertices⟩ := o
  match vertices with
  | [vertex] =>
      rw [outline_eq_openOutline (by simp), openOutline_singleton]
      exact measures_singleton p vertex
  | [front, back] =>
      have hedges : outline [front, back] = segment K front back := by
        rw [outline_eq_openOutline (by simp), openOutline_eq (by simp)]
        simp
      rw [hedges]
      exact measures_distancePointToSegment2D r p front back
  | front :: next :: third :: rest =>
      let best : ExactDouble K × (K × K) :=
        (r.norm (closestPointOnLineSegment2D p front next - p),
          closestPointOnLineSegment2D p front next)
      let edges := (next :: third :: rest).zip (third :: rest)
      let closing := ((next :: third :: rest).getLast (List.cons_ne_nil _ _), front)
      have hbest : best.1 = distancePointToSegment2D r p front next := norm_sub_comm _ _
      have hnorm : (edges.foldl (closerPoint r p) best).1 = _ :=
        foldl_closerPoint_norm edges rfl
      have hfold : (edges.foldl (closerPoint r p) best).1 = edges.foldl
          (fun least e => least.closer (distancePointToSegment2D r p e.1 e.2)) best.1 :=
        (List.foldl_hom Prod.fst fun _ _ => closerPoint_fst.symm).symm
      -- the least distance over the first edge, the edges of the loop and the closing edge
      have hmeasures := ((measures_distancePointToSegment2D r p front next).foldl
        fun (e : (K × K) × (K × K)) (_ : e ∈ edges) =>
          measures_distancePointToSegment2D r p e.1 e.2).union
            (measures_distancePointToSegment2D r p closing.1 closing.2)
      rw [← hbest, ← hfold, ← closerPoint_fst, closerPoint_norm hnorm, norm_sub_comm] at hmeasures
      have hedges : outline (front :: next :: third :: rest) =
          segment K front next ∪ {q | ∃ e ∈ edges, q ∈ segment K e.1 e.2} ∪
            segment K closing.1 closing.2 := by
        rw [outline, openOutline_eq (by simp), closingEdge_eq (a := closing.1) (b := front)
          (by simp [closing, List.getLast?_eq_some_getLast]) rfl]
        congr 1
        ext q
        simp [edges]
      rw [hedges]
      exact hmeasures

/-! ## Both distances of a polygon -/

variable (r)

/-- The distance of a polygon is that of its closest point, and the least one to its outline. -/
def DistancesAgree (o : PolygonObstacle K) (p : K × K) : Prop :=
  o.getMinimumDistance r p = r.norm (p - o.getClosestPoint r p) ∧
    IsLeastDistance r {p} (outline o.vertices) (o.getMinimumDistance r p) ∧
    IsLeastDistance r {p} (outline o.vertices) (r.norm (p - o.getClosestPoint r p))

variable {r}

/-- The distances agree exactly if no point of the closing edge is nearer than the other edges. -/
theorem distancesAgree_iff {o : PolygonObstacle K} (hne : o.vertices ≠ [])
    (hdistinct : o.vertices.IsChain (· ≠ ·)) :
    o.DistancesAgree r p ↔
      AsNear {p} (openOutline o.vertices) {p} (closingEdge o.vertices) := by
  have hdistance : Measures r {p} (openOutline o.vertices) (o.getMinimumDistance r p) :=
    measures_distancePointToPolygon2D hne hdistinct
  have hclosest := measures_getClosestPoint (r := r) (p := p) hne
  have heq := hdistance.eq_iff hclosest subset_rfl Set.subset_union_left
  have hleast : IsLeastDistance r {p} (outline o.vertices) (r.norm (p - o.getClosestPoint r p)) :=
    (measures_iff (Set.singleton_nonempty p)
      (openOutline_nonempty hne).inl).mp hclosest
  rw [← asNear_union_iff, ← outline, ← heq]
  exact ⟨fun h => h.1, fun h => ⟨h, h ▸ hleast, hleast⟩⟩

/-- A triangle, seen from beside its first edge. -/
theorem distancesAgree_iff_triangle :
    (PolygonObstacle.mk (K := ℚ) [(0, 0), (4, 0), (0, 4)]).DistancesAgree Ruler.squared (2, -1) ↔
      AsNear {((2, -1) : ℚ × ℚ)} (openOutline [(0, 0), (4, 0), (0, 4)]) {(2, -1)}
        (closingEdge [(0, 0), (4, 0), (0, 4)]) :=
  distancesAgree_iff (by decide) (by simp)

/-- The same triangle, seen from beside its closing edge: from `(0, 1)` on this edge the squared
distance is 1, from the other edges it is 2. -/
theorem closing_edge_missed :
    ¬ (PolygonObstacle.mk (K := ℚ) [(0, 0), (4, 0), (0, 4)]).DistancesAgree
      Ruler.squared (-1, 1) := by
  intro h
  have hdistance : (PolygonObstacle.mk (K := ℚ) [(0, 0), (4, 0), (0, 4)]).getMinimumDistance
      Ruler.squared (-1, 1) = .number 2 := by
    norm_num [getMinimumDistance, distancePointToPolygon2D, pointToLineDistance,
      ExactDouble.closer, ExactDouble.lt, Ruler.norm, Ruler.squared, lengthSq, dot]
  have hclosest : (PolygonObstacle.mk (K := ℚ) [(0, 0), (4, 0), (0, 4)]).getClosestPoint
      Ruler.squared (-1, 1) = (0, 1) := by
    norm_num [getClosestPoint, closerPoint, closestPointOnLineSegment2D,
      ExactDouble.lt, Ruler.norm, Ruler.squared, lengthSq, dot]
  have heq := h.1
  rw [hdistance, hclosest] at heq
  norm_num [Ruler.norm, Ruler.squared, lengthSq, dot] at heq

end PolygonObstacle

end RoboRTS.Planning
