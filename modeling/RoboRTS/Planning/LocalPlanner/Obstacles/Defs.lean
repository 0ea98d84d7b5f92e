import RoboRTS.Common.SegmentDistance

/-!
# Obstacles

The distances of `distance_calculation.h` and the obstacles of `obstacle.h`, in exact arithmetic. A
polygon obstacle is finalized: its centroid belongs to its vertices. Lengths are on the scale of a
ruler `r`, and `dblMax` is the largest `double`.
-/

namespace RoboRTS.Planning

open PlaneDistance
open Common (pointToLineDistance distanceSegmentToSegment)

variable {K : Type*} [Field K] [LinearOrder K]

/-! ## Distances -/

def closestPointOnLineSegment2D (point lineStart lineEnd : K × K) : K × K :=
  let diff := lineEnd - lineStart
  let sqNorm := lengthSq diff
  if sqNorm = 0 then lineStart
  else
    let u := ((point.1 - lineStart.1) * diff.1 + (point.2 - lineStart.2) * diff.2) / sqNorm
    if u ≤ 0 then lineStart
    else if u ≥ 1 then lineEnd
    else lineStart + u • diff

def distancePointToSegment2D (r : Ruler K) (point lineStart lineEnd : K × K) : ExactDouble K :=
  r.norm (point - closestPointOnLineSegment2D point lineStart lineEnd)

def distanceSegmentToSegment2D (r : Ruler K) : K × K → K × K → K × K → K × K → ExactDouble K :=
  distanceSegmentToSegment (distancePointToSegment2D r)

/-- `DistancePointToPolygon2D`. The closing edge is commented out. -/
def distancePointToPolygon2D (r : Ruler K) (point : K × K) : List (K × K) → ExactDouble K
  | [vertex] => r.norm (point - vertex)
  | vertices =>
      (vertices.zip vertices.tail).foldl
        (fun dist e => dist.closer (pointToLineDistance r point e.1 e.2)) .inf

/-! ## Centroids -/

/-- The edges of a polygon, the last one from the last vertex to the first. -/
def polygonEdges (vertices : List (K × K)) : List ((K × K) × (K × K)) :=
  vertices.zip (vertices.tail ++ vertices.take 1)

/-- The product that an edge adds to twice the area. -/
def areaTerm (e : (K × K) × (K × K)) : K :=
  e.1.1 * e.2.2 - e.2.1 * e.1.2

/-- The pairs of different vertices, in the order of the loops. -/
def vertexPairs : List (K × K) → List ((K × K) × (K × K))
  | [] => []
  | vertex :: vertices => vertices.map (vertex, ·) ++ vertexPairs vertices

/-- One round of the loops over the pairs: the least distance and the pair there. -/
def closerPair (r : Ruler K) (best : ExactDouble K × ((K × K) × (K × K)))
    (e : (K × K) × (K × K)) : ExactDouble K × ((K × K) × (K × K)) :=
  let dist := r.norm (e.2 - e.1)
  if dist.lt best.1 then (dist, e) else best

/-- The first pair of vertices at the least distance, if any is less than `dblMax` apart. -/
def closestPair (r : Ruler K) (dblMax : K) (first : K × K) (vertices : List (K × K)) :
    (K × K) × (K × K) :=
  ((vertexPairs vertices).foldl (closerPair r) (.number dblMax, (first, first))).2

/-- `CalcCentroid`. Without vertices the coordinates are not numbers. -/
def calcCentroid (r : Ruler K) (dblMax : K) : List (K × K) → Option (K × K)
  | [] => none
  | [vertex] => some vertex
  | [front, back] => some ((1 / 2 : K) • (front + back))
  | first :: vertices =>
      let edges := polygonEdges (first :: vertices)
      let area := (edges.map areaTerm).sum * (1 / 2)
      if area ≠ 0 then
        some ((6 * area)⁻¹ • (edges.map fun e => areaTerm e • (e.1 + e.2)).sum)
      else
        let (candI, candJ) := closestPair r dblMax first (first :: vertices)
        some ((1 / 2 : K) • (candI + candJ))

/-! ## Polygon obstacles -/

/-- One round of the loop of `GetClosestPoint`: the least distance and the point there. -/
def closerPoint (r : Ruler K) (position : K × K) (best : ExactDouble K × (K × K))
    (e : (K × K) × (K × K)) : ExactDouble K × (K × K) :=
  let newPt := closestPointOnLineSegment2D position e.1 e.2
  let newDist := r.norm (newPt - position)
  if newDist.lt best.1 then (newDist, newPt) else best

structure PolygonObstacle (K : Type*) where
  vertices : List (K × K)
  deriving DecidableEq

namespace PolygonObstacle

variable (r : Ruler K) (o : PolygonObstacle K) (position : K × K)

def getClosestPoint : K × K :=
  match o.vertices with
  | [] => 0
  | [vertex] => vertex
  | [front, back] => closestPointOnLineSegment2D position front back
  | front :: next :: vertices =>
      let newPt := closestPointOnLineSegment2D position front next
      let best := ((next :: vertices).zip vertices).foldl (closerPoint r position)
        (r.norm (newPt - position), newPt)
      (closerPoint r position best ((next :: vertices).getLast (List.cons_ne_nil _ _), front)).2

/-- `GetMinimumDistance` of a position. -/
def getMinimumDistance : ExactDouble K :=
  distancePointToPolygon2D r position o.vertices

end PolygonObstacle

/-! ## Obstacles -/

inductive Obstacle (K : Type*) where
  | point (pos : K × K)
  | line (start stop : K × K)
  | polygon (obstacle : PolygonObstacle K)
  deriving DecidableEq

namespace Obstacle

/-- `GetMinimumDistance` of a position. -/
def getMinimumDistance (r : Ruler K) (position : K × K) : Obstacle K → ExactDouble K
  | point pos => r.norm (position - pos)
  | line start stop => distancePointToSegment2D r position start stop
  | polygon obstacle => obstacle.getMinimumDistance r position

def getCentroid (r : Ruler K) (dblMax : K) : Obstacle K → Option (K × K)
  | point pos => some pos
  | line start stop => some ((1 / 2 : K) • (start + stop))
  | polygon obstacle => calcCentroid r dblMax obstacle.vertices

end Obstacle

end RoboRTS.Planning
