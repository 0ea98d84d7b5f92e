import RoboRTS.Planning.LocalPlanner.Obstacles.Defs
import Mathlib.Algebra.Module.BigOperators

/-!
# Moving obstacles

A translation of a position and an obstacle keeps their distance and moves the centroid along. For
the centroid of a polygon with an area this holds because sums of differences around the polygon
vanish (`sum_edges_sub`).
-/

namespace RoboRTS.Planning

open PlaneDistance
open Common (pointToLineDistance)

variable {K : Type*} [Field K] [LinearOrder K] (r : Ruler K) (t : K × K)

def PolygonObstacle.translate (o : PolygonObstacle K) : PolygonObstacle K :=
  ⟨o.vertices.map (· + t)⟩

def Obstacle.translate : Obstacle K → Obstacle K
  | point pos => point (pos + t)
  | line start stop => line (start + t) (stop + t)
  | polygon obstacle => polygon (obstacle.translate t)

/-! ## Distances -/

variable {t} {p a b : K × K} {vertices : List (K × K)}

theorem closestPointOnLineSegment2D_translate :
    closestPointOnLineSegment2D (p + t) (a + t) (b + t) = closestPointOnLineSegment2D p a b + t := by
  simp only [closestPointOnLineSegment2D, add_sub_add_right_eq_sub, Prod.fst_add, Prod.snd_add]
  split_ifs <;> first | rfl | rw [add_right_comm]

theorem pointToLineDistance_translate :
    pointToLineDistance r (p + t) (a + t) (b + t) = pointToLineDistance r p a b := by
  simp only [pointToLineDistance, add_sub_add_right_eq_sub, Prod.fst_add, Prod.snd_add]
  split_ifs
  · rfl
  · rw [add_sub_add_right_eq_sub]
  · rw [add_sub_add_right_eq_sub]
  · congr 1
    ext <;> simp <;> ring

omit [Field K] [LinearOrder K] in
theorem zip_map_tail (f : K × K → K × K) :
    (vertices.map f).zip (vertices.map f).tail =
      (vertices.zip vertices.tail).map (Prod.map f f) := by
  rw [← List.map_tail, List.zip_map]

theorem distancePointToPolygon2D_translate :
    distancePointToPolygon2D r (p + t) (vertices.map (· + t)) =
      distancePointToPolygon2D r p vertices := by
  have hloop : ∀ init : ExactDouble K,
      ((vertices.map (· + t)).zip (vertices.map (· + t)).tail).foldl
        (fun dist e => dist.closer (pointToLineDistance r (p + t) e.1 e.2)) init =
      (vertices.zip vertices.tail).foldl
        (fun dist e => dist.closer (pointToLineDistance r p e.1 e.2)) init := by
    intro init
    rw [zip_map_tail, List.foldl_map]
    simp only [Prod.map_fst, Prod.map_snd, pointToLineDistance_translate]
  match vertices with
  | [] => rfl
  | [vertex] => exact congrArg r.norm (add_sub_add_right_eq_sub p vertex t)
  | _ :: _ :: _ => exact hloop .inf

theorem Obstacle.getMinimumDistance_translate (o : Obstacle K) :
    (o.translate t).getMinimumDistance r (p + t) = o.getMinimumDistance r p := by
  cases o with
  | point pos => exact congrArg r.norm (add_sub_add_right_eq_sub p pos t)
  | line start stop =>
      change r.norm _ = r.norm _
      rw [closestPointOnLineSegment2D_translate, add_sub_add_right_eq_sub]
  | polygon obstacle => exact distancePointToPolygon2D_translate r

/-! ## Centroids -/

section Edges

omit [LinearOrder K]

omit [Field K] in
theorem polygonEdges_map (f : K × K → K × K) :
    polygonEdges (vertices.map f) = (polygonEdges vertices).map (Prod.map f f) := by
  rw [polygonEdges, polygonEdges, ← List.map_tail, ← List.map_take, ← List.map_append,
    List.zip_map]

omit [Field K] in
/-- Around a polygon each vertex starts an edge and ends one. -/
theorem sum_edges_ends {M : Type*} [AddCommGroup M] (F : K × K → M) (vertices : List (K × K)) :
    ((polygonEdges vertices).map fun e => F e.2).sum =
      ((polygonEdges vertices).map fun e => F e.1).sum := by
  have hlength : vertices.length = (vertices.tail ++ vertices.take 1).length := by
    cases vertices <;> simp
  have hfst : ((polygonEdges vertices).map Prod.fst).map F = vertices.map F :=
    congrArg _ (List.map_fst_zip hlength.le)
  have hsnd : ((polygonEdges vertices).map Prod.snd).map F =
      (vertices.tail ++ vertices.take 1).map F :=
    congrArg _ (List.map_snd_zip hlength.ge)
  rw [List.map_map] at hfst hsnd
  calc ((polygonEdges vertices).map (F ∘ Prod.snd)).sum
      = ((vertices.tail ++ vertices.take 1).map F).sum := congrArg _ hsnd
    _ = (vertices.map F).sum := by
        cases vertices with
        | nil => rfl
        | cons first vertices => simp [add_comm]
    _ = ((polygonEdges vertices).map (F ∘ Prod.fst)).sum := (congrArg _ hfst).symm

omit [Field K] in
/-- Terms that differ by a difference of the ends have the same sum around a polygon. -/
theorem sum_edges_congr {M : Type*} [AddCommGroup M] {f g : (K × K) × (K × K) → M} (F : K × K → M)
    (h : ∀ e, f e = g e + (F e.2 - F e.1)) (vertices : List (K × K)) :
    ((polygonEdges vertices).map f).sum = ((polygonEdges vertices).map g).sum := by
  have hsum : ((polygonEdges vertices).map fun e => f e + F e.1).sum =
      ((polygonEdges vertices).map fun e => g e + F e.2).sum := by
    refine congrArg (fun f => ((polygonEdges vertices).map f).sum) (funext fun e => ?_)
    rw [h]
    abel
  rw [List.sum_map_add, List.sum_map_add, sum_edges_ends] at hsum
  exact add_right_cancel hsum

/-- The area does not change. -/
theorem sum_areaTerm_translate (t : K × K) (vertices : List (K × K)) :
    ((polygonEdges (vertices.map (· + t))).map areaTerm).sum =
      ((polygonEdges vertices).map areaTerm).sum := by
  rw [polygonEdges_map, List.map_map]
  refine sum_edges_congr (fun v => cross t v) (fun e => ?_) vertices
  simp only [Function.comp_apply, areaTerm, cross, Prod.map_fst, Prod.map_snd, Prod.fst_add,
    Prod.snd_add]
  ring

/-- The weighted sum moves by three times twice the area. -/
theorem sum_areaTerm_smul_translate (t : K × K) (vertices : List (K × K)) :
    ((polygonEdges (vertices.map (· + t))).map fun e => areaTerm e • (e.1 + e.2)).sum =
      ((polygonEdges vertices).map fun e => areaTerm e • (e.1 + e.2)).sum +
        (3 * ((polygonEdges vertices).map areaTerm).sum) • t := by
  have hsmul : (3 * ((polygonEdges vertices).map areaTerm).sum) • t =
      ((polygonEdges vertices).map fun e => (3 * areaTerm e) • t).sum := by
    rw [← List.sum_map_mul_left, List.sum_smul, List.map_map]
    rfl
  rw [hsmul, ← List.sum_map_add, polygonEdges_map, List.map_map]
  refine sum_edges_congr (fun v => (2 * cross t v) • t +
    (t.1 * v.1 * v.2 - t.2 * v.1 * v.1, t.1 * v.2 * v.2 - t.2 * v.1 * v.2)) (fun e => ?_) vertices
  ext <;>
    simp only [Function.comp_apply, areaTerm, cross, Prod.map_fst, Prod.map_snd, Prod.fst_add,
      Prod.snd_add, Prod.fst_sub, Prod.snd_sub, Prod.smul_fst, Prod.smul_snd, smul_eq_mul] <;>
    ring

end Edges

omit [Field K] [LinearOrder K] in
theorem vertexPairs_map (f : K × K → K × K) :
    vertexPairs (vertices.map f) = (vertexPairs vertices).map (Prod.map f f) := by
  induction vertices with
  | nil => rfl
  | cons vertex vertices ih =>
      rw [List.map_cons, vertexPairs, vertexPairs, List.map_append, ih, List.map_map, List.map_map]
      rfl

variable (t vertices) in
theorem closestPair_translate (dblMax : K) (first : K × K) :
    closestPair r dblMax (first + t) (vertices.map (· + t)) =
      Prod.map (· + t) (· + t) (closestPair r dblMax first vertices) := by
  let move (best : ExactDouble K × ((K × K) × (K × K))) :=
    (best.1, Prod.map (· + t) (· + t) best.2)
  have hloop : (vertexPairs vertices).foldl
      (fun best e => closerPair r best (Prod.map (· + t) (· + t) e))
      (move (.number dblMax, (first, first))) =
        move ((vertexPairs vertices).foldl (closerPair r) (.number dblMax, (first, first))) := by
    refine List.foldl_hom move fun best e => ?_
    simp only [closerPair, move, Prod.map_fst, Prod.map_snd, add_sub_add_right_eq_sub]
    split <;> rfl
  rw [closestPair, vertexPairs_map, List.foldl_map]
  exact congrArg Prod.snd hloop

variable [IsStrictOrderedRing K]

/-- The middle of two points. -/
theorem middle_translate (a b t : K × K) :
    (1 / 2 : K) • (a + t + (b + t)) = (1 / 2 : K) • (a + b) + t := by
  rw [add_add_add_comm, smul_add, ← two_smul K t, smul_smul, one_div_mul_cancel two_ne_zero,
    one_smul]

/-- The centroid moves along. -/
theorem calcCentroid_translate (dblMax : K) (vertices : List (K × K)) :
    calcCentroid r dblMax (vertices.map (· + t)) = (calcCentroid r dblMax vertices).map (· + t) := by
  match vertices with
  | [] => rfl
  | [vertex] => rfl
  | [front, back] => exact congrArg some (middle_translate front back t)
  | first :: second :: third :: rest =>
      have harea := sum_areaTerm_translate t (first :: second :: third :: rest)
      have hsum := sum_areaTerm_smul_translate t (first :: second :: third :: rest)
      have hpair := closestPair_translate r t (first :: second :: third :: rest) dblMax first
      simp only [List.map_cons] at harea hsum hpair ⊢
      simp only [calcCentroid, harea, hsum, hpair]
      split_ifs with hzero
      · refine congrArg some ?_
        generalize ((polygonEdges (first :: second :: third :: rest)).map areaTerm).sum = twice
          at hzero ⊢
        have hscale : 6 * (twice * (1 / 2)) = 3 * twice := by ring
        have hne : 3 * twice ≠ 0 := by
          rw [← hscale]
          exact mul_ne_zero (by norm_num) hzero
        rw [smul_add, smul_smul, hscale, inv_mul_cancel₀ hne, one_smul]
      · exact congrArg some (middle_translate _ _ t)

theorem Obstacle.getCentroid_translate (dblMax : K) (o : Obstacle K) :
    (o.translate t).getCentroid r dblMax = (o.getCentroid r dblMax).map (· + t) := by
  cases o with
  | point pos => rfl
  | line start stop => exact congrArg some (middle_translate start stop t)
  | polygon obstacle => exact calcCentroid_translate r dblMax obstacle.vertices

end RoboRTS.Planning
