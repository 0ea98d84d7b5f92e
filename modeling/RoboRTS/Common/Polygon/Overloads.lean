import RoboRTS.Common.Polygon.Defs

/-!
# The overloads of the distances to polygons

The overloads for a vector of vertices measure the distance to the whole outline, those for a
`Polygon2D` leave out the closing edge: the loop ends before the last line, although the lines
contain the closing edge. The overloads agree exactly where this edge is not nearer than the others
(`overloads_agree_iff`).
-/

namespace RoboRTS.Common

open PlaneDistance

variable {K : Type*} [Field K] [LinearOrder K] {r : Ruler K} {a b p : K × K}
  {vertices vertices' : List (K × K)} {S : Set (K × K)}

/-- At least one vertex, and each differs from the next one, around the polygon. -/
structure ProperVertices (vertices : List (K × K)) : Prop where
  ne_nil : vertices ≠ []
  distinct : vertices.IsChain (· ≠ ·)
  closing : vertices.length ≠ 1 → vertices.getLast? ≠ vertices.head?

/-! ## Reversing the vertices -/

omit [Field K] [LinearOrder K] in
theorem ProperVertices.reverse (h : ProperVertices vertices) : ProperVertices vertices.reverse where
  ne_nil := List.reverse_ne_nil_iff.mpr h.ne_nil
  distinct := List.isChain_reverse.mpr (h.distinct.imp fun _ _ => Ne.symm)
  closing := by
    rw [List.length_reverse, List.getLast?_reverse, List.head?_reverse]
    exact fun hlength => (h.closing hlength).symm

theorem ProperVertices.antiClock (h : ProperVertices vertices) :
    ProperVertices (antiClock vertices) := by
  rw [Common.antiClock]
  split
  · exact h.reverse
  · exact h

theorem openOutline_antiClock (vertices : List (K × K)) :
    openOutline (antiClock vertices) = openOutline vertices := by
  rw [antiClock]
  split
  · exact openOutline_reverse vertices
  · rfl

theorem length_antiClock (vertices : List (K × K)) :
    (antiClock vertices).length = vertices.length := by
  rw [antiClock]
  split
  · exact List.length_reverse
  · rfl

/-! ## The lines of a polygon -/

/-- The lines but the last are the edges from each point to the next one. -/
theorem lineSegments_take (vertices : List (K × K)) :
    ((Polygon2D.buildFromPoints vertices).lineSegments.take
      ((Polygon2D.buildFromPoints vertices).lineSegments.length - 1)).map
        (fun line => (line.start, line.stop)) =
      (antiClock vertices).zip (antiClock vertices).tail := by
  refine List.ext_getElem ?_ fun i hi hi' => ?_
  · simp [Polygon2D.buildFromPoints]
  · have hlt : i + 1 < (antiClock vertices).length := by
      rw [List.length_zip, List.length_tail] at hi'
      omega
    have hlt' : i < (antiClock vertices).length := by omega
    have hnext : next (antiClock vertices).length i = i + 1 := if_neg (by omega)
    simp [Polygon2D.buildFromPoints, hnext, List.getD_eq_getElem?_getD, hlt, hlt']

theorem points_singleton (vertex : K × K) :
    (Polygon2D.buildFromPoints [vertex]).points = [vertex] := by
  simp [Polygon2D.buildFromPoints, antiClock]

/-- One vertex, or a polygon of more points. -/
theorem one_or_more (h : ProperVertices vertices) :
    (∃ vertex, vertices = [vertex]) ∨ 2 ≤ vertices.length ∧ ∃ v w rest,
      (Polygon2D.buildFromPoints vertices).points = v :: w :: rest := by
  match vertices with
  | [] => exact absurd rfl h.ne_nil
  | [vertex] => exact Or.inl ⟨vertex, rfl⟩
  | a :: b :: rest =>
      have hlength := length_antiClock (a :: b :: rest)
      refine Or.inr ⟨by simp, ?_⟩
      match hpoints : antiClock (a :: b :: rest), hlength with
      | v :: w :: rest', _ => exact ⟨v, w, rest', hpoints⟩

/-! ## What the loops measure -/

variable [IsStrictOrderedRing K]

theorem measures_pointToLineDistanceRef (r : Ruler K) (p a b : K × K) :
    Measures r {p} (segment K a b) (pointToLineDistanceRef r p a b) := by
  have heq : pointToLineDistanceRef r p a b = r.norm (p - nearestOnSegment p a b) := by
    change (if lengthSq (b - a) = 0 then r.norm (p - a)
      else if dot (p - a) (b - a) / lengthSq (b - a) ≤ 0 then r.norm (p - a)
      else if dot (p - a) (b - a) / lengthSq (b - a) ≥ 1 then r.norm (p - b)
      else r.norm (a + (dot (p - a) (b - a) / lengthSq (b - a)) • (b - a) - p)) = _
    rw [nearestOnSegment, norm_sub_comm _ p]
    split_ifs <;> rfl
  rw [heq]
  exact measures_nearestOnSegment p a b

/-- The loop over the vertices measures the whole outline. -/
theorem measures_overEdges {distance : K × K → K × K → ExactDouble K} (hlength : 2 ≤ vertices.length)
    (h : ProperVertices vertices)
    (hedge : ∀ a b, a ≠ b → Measures r S (segment K a b) (distance a b)) :
    Measures r S (outline vertices) (overEdges distance vertices) := by
  have hopen := Measures.foldl (fun e he => hedge e.1 e.2 (ne_of_mem_zip_tail h.distinct he))
    (measures_empty (r := r) (S := S))
  rw [Set.empty_union, ← openOutline_eq hlength] at hopen
  have hback := List.getLast?_eq_some_getLast h.ne_nil
  have hfront := List.head?_eq_some_head h.ne_nil
  rw [overEdges, hback, hfront]
  dsimp only
  by_cases hclosing : vertices.length > 2
  · rw [if_pos hclosing, outline, closingEdge_eq hback hfront]
    refine hopen.union (hedge _ _ fun heq => h.closing (by omega) ?_)
    rw [hback, hfront, heq]
  · rw [if_neg hclosing, outline_eq_openOutline (by omega)]
    exact hopen

/-- The loop over the lines leaves out the closing edge. -/
theorem measures_overLines {distance : LineSegment2D K → ExactDouble K}
    (hlength : 2 ≤ vertices.length) (h : ProperVertices vertices)
    (hedge : ∀ line : LineSegment2D K, line.start ≠ line.stop →
      Measures r S (segment K line.start line.stop) (distance line)) :
    Measures r S (openOutline vertices)
      (overLines distance (Polygon2D.buildFromPoints vertices)) := by
  have hopen := Measures.foldl
    (fun e he => hedge ⟨e.1, e.2⟩ (ne_of_mem_zip_tail h.antiClock.distinct he)) (measures_empty (r := r) (S := S))
  rw [Set.empty_union, ← openOutline_eq (by rwa [length_antiClock]), openOutline_antiClock,
    ← lineSegments_take, List.foldl_map] at hopen
  exact hopen

/-! ## What the overloads measure -/

theorem measures_distancePointToVertices (h : ProperVertices vertices) :
    Measures r {p} (outline vertices) (distancePointToVertices r p vertices) := by
  match vertices with
  | [] => exact absurd rfl h.ne_nil
  | [vertex] =>
      rw [outline_eq_openOutline (by simp), openOutline_singleton]
      exact measures_singleton p vertex
  | _ :: _ :: _ =>
      exact measures_overEdges (by simp) h fun a b hne => measures_pointToLineDistance hne

theorem measures_distanceSegmentToVertices (h : ProperVertices vertices) :
    Measures r (segment K a b) (outline vertices) (distanceSegmentToVertices r a b vertices) := by
  match vertices with
  | [] => exact absurd rfl h.ne_nil
  | [vertex] =>
      rw [outline_eq_openOutline (by simp), openOutline_singleton]
      exact (measures_pointToLineDistanceRef r vertex a b).symm
  | _ :: _ :: _ =>
      exact measures_overEdges (by simp) h fun c d _ => measures_segments
        (fun p => measures_pointToLineDistanceRef r p c d)
        fun p => measures_pointToLineDistanceRef r p a b

theorem measures_distanceVerticesToVertices (h : ProperVertices vertices)
    (h' : ProperVertices vertices') :
    Measures r (outline vertices) (outline vertices')
      (distanceVerticesToVertices r vertices vertices') := by
  match vertices with
  | [] => exact absurd rfl h.ne_nil
  | [vertex] =>
      rw [outline_eq_openOutline (by simp), openOutline_singleton]
      exact measures_distancePointToVertices h'
  | _ :: _ :: _ =>
      exact (measures_overEdges (by simp) h fun a b _ =>
        (measures_distanceSegmentToVertices h').symm).symm

theorem measures_distancePointToPolygon2D (h : ProperVertices vertices) :
    Measures r {p} (openOutline vertices)
      (distancePointToPolygon2D r p (.buildFromPoints vertices)) := by
  rcases one_or_more h with ⟨vertex, rfl⟩ | ⟨hlength, v, w, rest, hpoints⟩
  · rw [distancePointToPolygon2D, points_singleton, openOutline_singleton]
    dsimp only
    rw [norm_sub_comm]
    exact measures_singleton p vertex
  · rw [distancePointToPolygon2D, hpoints]
    exact measures_overLines hlength h fun line hne => measures_pointToLineDistance hne

theorem measures_distanceSegmentToPolygon2D (hne : a ≠ b) (h : ProperVertices vertices) :
    Measures r (segment K a b) (openOutline vertices)
      (distanceSegmentToPolygon2D r ⟨a, b⟩ (.buildFromPoints vertices)) := by
  rcases one_or_more h with ⟨vertex, rfl⟩ | ⟨hlength, v, w, rest, hpoints⟩
  · rw [distanceSegmentToPolygon2D, points_singleton, openOutline_singleton]
    exact (measures_pointToLineDistance hne).symm
  · rw [distanceSegmentToPolygon2D, hpoints]
    exact measures_overLines hlength h fun line hne' => measures_segments
      (fun p => measures_pointToLineDistance hne') fun p => measures_pointToLineDistance hne

theorem measures_distancePolygonToPolygon2D (h : ProperVertices vertices)
    (h' : ProperVertices vertices') :
    Measures r (openOutline vertices) (openOutline vertices')
      (distancePolygonToPolygon2D r (.buildFromPoints vertices) (.buildFromPoints vertices')) := by
  rcases one_or_more h with ⟨vertex, rfl⟩ | ⟨hlength, v, w, rest, hpoints⟩
  · rw [distancePolygonToPolygon2D, points_singleton, openOutline_singleton]
    exact measures_distancePointToPolygon2D h'
  · rw [distancePolygonToPolygon2D, hpoints]
    exact (measures_overLines hlength h fun line hne =>
      (measures_distanceSegmentToPolygon2D hne h').symm).symm

/-- The overloads agree exactly if no point of a closing edge is nearer than the other edges. -/
theorem overloads_agree_iff (h : ProperVertices vertices) (h' : ProperVertices vertices')
    (hne : a ≠ b) :
    (distancePointToPolygon2D r p (.buildFromPoints vertices) =
        distancePointToVertices r p vertices ↔
      AsNear {p} (openOutline vertices) {p} (closingEdge vertices)) ∧
    (distanceSegmentToPolygon2D r ⟨a, b⟩ (.buildFromPoints vertices) =
        distanceSegmentToVertices r a b vertices ↔
      AsNear (segment K a b) (openOutline vertices) (segment K a b) (closingEdge vertices)) ∧
    (distancePolygonToPolygon2D r (.buildFromPoints vertices) (.buildFromPoints vertices') =
        distanceVerticesToVertices r vertices vertices' ↔
      AsNear (openOutline vertices) (openOutline vertices') (outline vertices)
        (outline vertices')) := by
  refine ⟨?_, ?_, ?_⟩
  · rw [← asNear_union_iff]
    exact (measures_distancePointToPolygon2D h).eq_iff (measures_distancePointToVertices h)
      subset_rfl Set.subset_union_left
  · rw [← asNear_union_iff]
    exact (measures_distanceSegmentToPolygon2D hne h).eq_iff
      (measures_distanceSegmentToVertices h) subset_rfl Set.subset_union_left
  · exact (measures_distancePolygonToPolygon2D h h').eq_iff
      (measures_distanceVerticesToVertices h h') Set.subset_union_left Set.subset_union_left

/-- A clockwise triangle, seen from beside its first edge, with a way past it and a square on its
other side. -/
theorem overloads_agree_iff_triangle :
    let triangle : List (ℚ × ℚ) := [(0, 0), (0, 4), (4, 0)]
    let square : List (ℚ × ℚ) := [(5, 0), (5, 1), (6, 1), (6, 0)]
    (distancePointToPolygon2D Ruler.squared (-1, 2) (.buildFromPoints triangle) =
        distancePointToVertices Ruler.squared (-1, 2) triangle ↔
      AsNear {(-1, 2)} (openOutline triangle) {(-1, 2)} (closingEdge triangle)) ∧
    (distanceSegmentToPolygon2D Ruler.squared ⟨(-1, 2), (-1, 6)⟩ (.buildFromPoints triangle) =
        distanceSegmentToVertices Ruler.squared (-1, 2) (-1, 6) triangle ↔
      AsNear (segment ℚ (-1, 2) (-1, 6)) (openOutline triangle) (segment ℚ (-1, 2) (-1, 6))
        (closingEdge triangle)) ∧
    (distancePolygonToPolygon2D Ruler.squared (.buildFromPoints triangle)
          (.buildFromPoints square) = distanceVerticesToVertices Ruler.squared triangle square ↔
      AsNear (openOutline triangle) (openOutline square) (outline triangle) (outline square)) := by
  intro triangle square
  have htriangle : ProperVertices triangle := ⟨by simp [triangle], by simp [triangle], by simp [triangle]⟩
  have hsquare : ProperVertices square := ⟨by simp [square], by simp [square], by simp [square]⟩
  have hne : ((-1, 2) : ℚ × ℚ) ≠ (-1, 6) := by simp
  exact overloads_agree_iff htriangle hsquare hne

/-- A triangle, seen from beside its closing edge: the squared distance is 1, from the other edges
it is 2. -/
theorem overloads_differ :
    distancePointToPolygon2D Ruler.squared (-1, 1)
        (.buildFromPoints ([(0, 0), (4, 0), (0, 4)] : List (ℚ × ℚ))) ≠
      distancePointToVertices Ruler.squared (-1, 1) [(0, 0), (4, 0), (0, 4)] := by
  have hpolygon : distancePointToPolygon2D Ruler.squared (-1, 1)
      (.buildFromPoints ([(0, 0), (4, 0), (0, 4)] : List (ℚ × ℚ))) = .number 2 := by
    norm_num [distancePointToPolygon2D, overLines, Polygon2D.buildFromPoints, antiClock,
      doubledArea, cross2D, cross, next, List.range_succ, pointToLineDistance,
      ExactDouble.closer, ExactDouble.lt, Ruler.norm, Ruler.squared, lengthSq, dot]
  have hvertices : distancePointToVertices Ruler.squared (-1, 1)
      ([(0, 0), (4, 0), (0, 4)] : List (ℚ × ℚ)) = .number 1 := by
    norm_num [distancePointToVertices, overEdges, pointToLineDistance,
      ExactDouble.closer, ExactDouble.lt, Ruler.norm, Ruler.squared, lengthSq, dot]
  rw [hpolygon, hvertices]
  simp

end RoboRTS.Common
