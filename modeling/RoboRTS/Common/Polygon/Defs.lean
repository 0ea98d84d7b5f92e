import RoboRTS.Common.SegmentDistance
import Mathlib.Algebra.BigOperators.Group.List.Basic

/-!
# Polygons

`Polygon2D` of `geometry.h`, and from `math.h` the convexity check and the distances to polygons,
each of which has an overload for a vector of vertices and one for a `Polygon2D`. Numbers are exact,
and the points of both libraries are pairs. What a polygon stores about its bounding box is never
set.
-/

namespace RoboRTS.Common

open PlaneDistance

variable {K : Type*} [Field K] [LinearOrder K]

/-- `Cross2D` of two points seen from a third. -/
def cross2D (startPoint point0 point1 : K × K) : K :=
  cross (point0 - startPoint) (point1 - startPoint)

/-- `kEpsilon`. -/
def kEpsilon : K :=
  1 / 10 ^ 10

/-! ## Lists of points -/

/-- The sum of the loop over the points after the first one: twice the area. -/
def doubledArea : List (K × K) → K
  | [] => 0
  | first :: points => (((first :: points).zip points).map fun e => cross2D first e.1 e.2).sum

/-- The points are reversed if the area is negative. -/
def antiClock (points : List (K × K)) : List (K × K) :=
  if doubledArea points < 0 then points.reverse else points

def next (numPoints index : Nat) : Nat :=
  if index ≥ numPoints - 1 then 0 else index + 1

def prev (numPoints index : Nat) : Nat :=
  if index = 0 then numPoints - 1 else index - 1

/-- The turn at a point, seen from the one before it. -/
def turn (points : List (K × K)) (i : Nat) : K :=
  let point (i : Nat) : K × K := points.getD i 0
  cross2D (point (prev points.length i)) (point i) (point (next points.length i))

/-- `ConvexVerify`, with the points in the order in which it leaves them. -/
def convexVerify (points : List (K × K)) : Bool × List (K × K) :=
  if points.length < 4 then (true, points)
  else
    let points := antiClock points
    ((List.range points.length).all fun i => ¬ turn points i ≤ kEpsilon, points)

/-! ## `Polygon2D` -/

structure LineSegment2D (K : Type*) where
  start : K × K
  stop : K × K

structure Polygon2D (K : Type*) where
  points : List (K × K)
  lineSegments : List (LineSegment2D K)
  isConvex : Bool
  area : K

/-- `BuildFromPoints`. -/
def Polygon2D.buildFromPoints (points : List (K × K)) : Polygon2D K :=
  let oriented := antiClock points
  let numPoints := oriented.length
  { points := oriented
    lineSegments := (List.range numPoints).map fun i =>
      ⟨oriented.getD i 0, oriented.getD (next numPoints i) 0⟩
    isConvex := (List.range numPoints).all fun i => ¬ turn oriented i ≤ -kEpsilon
    area := doubledArea points / 2 }

/-! ## Distances -/

/-- `PointToLineDistance` of vectors. -/
def pointToLineDistanceRef (r : Ruler K) (point lineStart lineEnd : K × K) : ExactDouble K :=
  let diff := lineEnd - lineStart
  let sqNorm := lengthSq diff
  if sqNorm = 0 then r.norm (point - lineStart)
  else
    let u := ((point.1 - lineStart.1) * diff.1 + (point.2 - lineStart.2) * diff.2) / sqNorm
    if u ≤ 0 then r.norm (point - lineStart)
    else if u ≥ 1 then r.norm (point - lineEnd)
    else r.norm (lineStart + u • diff - point)

section Vertices

/-- The loop of the overloads for a vector: a distance for each edge, the closing edge only of more
than two vertices. -/
def overEdges (distance : K × K → K × K → ExactDouble K) (vertices : List (K × K)) :
    ExactDouble K :=
  let dist := (vertices.zip vertices.tail).foldl (fun dist e => dist.closer (distance e.1 e.2)) .inf
  match vertices.getLast?, vertices.head? with
  | some back, some front =>
      if vertices.length > 2 then dist.closer (distance back front) else dist
  | _, _ => dist

variable (r : Ruler K)

/-- `DistancePointToPolygon2D` of vertices. -/
def distancePointToVertices (point : K × K) : List (K × K) → ExactDouble K
  | [vertex] => r.norm (point - vertex)
  | vertices => overEdges (pointToLineDistance r point) vertices

/-- `DistanceSegmentToPolygon2D` of vertices. -/
def distanceSegmentToVertices (lineStart lineEnd : K × K) : List (K × K) → ExactDouble K
  | [vertex] => pointToLineDistanceRef r vertex lineStart lineEnd
  | vertices =>
      overEdges (distanceSegmentToSegment (pointToLineDistanceRef r) lineStart lineEnd) vertices

/-- `DistancePolygonToPolygon2D` of vertices. -/
def distanceVerticesToVertices (vertices1 vertices2 : List (K × K)) : ExactDouble K :=
  match vertices1 with
  | [vertex] => distancePointToVertices r vertex vertices2
  | vertices => overEdges (fun a b => distanceSegmentToVertices r a b vertices2) vertices

end Vertices

section Lines

/-- The loop of the overloads for a `Polygon2D`, over all lines but the last. -/
def overLines (distance : LineSegment2D K → ExactDouble K) (polygon : Polygon2D K) :
    ExactDouble K :=
  (polygon.lineSegments.take (polygon.lineSegments.length - 1)).foldl
    (fun dist line => dist.closer (distance line)) .inf

variable (r : Ruler K)

def distancePointToPolygon2D (point : K × K) (polygon : Polygon2D K) : ExactDouble K :=
  match polygon.points with
  | [vertex] => r.norm (vertex - point)
  | _ => overLines (fun line => pointToLineDistance r point line.start line.stop) polygon

def distanceSegmentToPolygon2D (line : LineSegment2D K) (polygon : Polygon2D K) : ExactDouble K :=
  match polygon.points with
  | [vertex] => pointToLineDistance r vertex line.start line.stop
  | _ =>
      overLines (fun line' => distanceSegmentToSegment (pointToLineDistance r) line.start line.stop
        line'.start line'.stop) polygon

def distancePolygonToPolygon2D (polygon0 polygon1 : Polygon2D K) : ExactDouble K :=
  match polygon0.points with
  | [vertex] => distancePointToPolygon2D r vertex polygon1
  | _ => overLines (fun line => distanceSegmentToPolygon2D r line polygon1) polygon0

end Lines

end RoboRTS.Common
