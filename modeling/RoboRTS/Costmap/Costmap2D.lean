import RoboRTS.Lib.NearestSite
import Mathlib.Data.Rat.Floor
import Mathlib.Logic.Function.Basic

/-!
# Costmaps

The arithmetic of `Costmap2D`: cells and world coordinates, indices, lines and polygons. World
coordinates are rational numbers. `hypot` of the C library is a parameter; where it has to be exact,
this is said. A `char` map is a function of the index, and maps are small enough for indices and
differences of cells to be `int`s.
-/

namespace RoboRTS.Costmap

open NearestSite

def FREE_SPACE : UInt8 := 0
def NO_INFORMATION : UInt8 := 255
def LETHAL_OBSTACLE : UInt8 := 254
def INSCRIBED_INFLATED_OBSTACLE : UInt8 := 253

/-- The size and the place of a map. -/
structure Geometry where
  sizeX : Nat
  sizeY : Nat
  resolution : Rat
  originX : Rat
  originY : Rat
  resolution_pos : 0 < resolution

/-- The resolution of the maps that the examples are about. -/
theorem unitResolution_pos : (0 : Rat) < 1 := by
  decide

/-- The conversion of a floating-point number to an `int`, towards zero. -/
def truncate (q : Rat) : Int :=
  if 0 ≤ q then ⌊q⌋ else ⌈q⌉

/-- The cells of the window `[min_i, max_i) × [min_j, max_j)`, row by row. -/
def window (minI minJ maxI maxJ : Int) : List Cell :=
  (List.range' minJ.toNat (maxJ.toNat - minJ.toNat)).flatMap fun j =>
    (List.range' minI.toNat (maxI.toNat - minI.toNat)).map fun i => (i, j)

theorem mem_window {c : Cell} {minI minJ maxI maxJ : Int} :
    c ∈ window minI minJ maxI maxJ ↔
      (minI.toNat ≤ c.1 ∧ c.1 < maxI.toNat) ∧ minJ.toNat ≤ c.2 ∧ c.2 < maxJ.toNat := by
  obtain ⟨i, j⟩ := c
  simp only [window, List.mem_flatMap, List.mem_map, List.mem_range'_1, Prod.mk.injEq]
  constructor
  · rintro ⟨j', hj', i', hi', rfl, rfl⟩
    omega
  · intro h
    exact ⟨j, by omega, i, by omega, rfl, rfl⟩

/-- `MarkCell` at the offsets that a line visits. -/
def markCells (value : UInt8) (offsets : List Int) (costmap : Nat → UInt8) : Nat → UInt8 :=
  offsets.foldl (fun m offset => Function.update m offset.toNat value) costmap

/-- `Bresenham` from here on, with `n` steps to go: the offsets at which the action is applied. -/
def bresenham (absDa absDb : Nat) (offsetA offsetB : Int) : Nat → Nat → Int → List Int
  | 0, _, offset => [offset]
  | n + 1, errorB, offset =>
      let errorB := errorB + absDb
      if errorB ≥ absDa then
        offset :: bresenham absDa absDb offsetA offsetB n (errorB - absDa)
          (offset + offsetA + offsetB)
      else offset :: bresenham absDa absDb offsetA offsetB n errorB (offset + offsetA)

/-- `Sign`. -/
def sign (x : Int) : Int :=
  if x > 0 then 1 else -1

def UINT_MAX : Nat := 2 ^ 32 - 1

/-- The sorting loop of `FillConvexCells` from number `i` on. -/
def sortCells : Nat → Nat → List Cell → List Cell
  | 0, _, cells => cells
  | fuel + 1, i, cells =>
      match cells[i]?, cells[i + 1]? with
      | some a, some b =>
          if a.1 > b.1 then sortCells fuel (i - 1) ((cells.set i b).set (i + 1) a)
          else sortCells fuel (i + 1) cells
      | _, _ => cells

/-- The cells of column `x` from number `i` on move the ends of the column. -/
def columnEnds (x : Nat) : List Cell → Nat → Cell → Cell → Nat × Cell × Cell
  | [], i, minPt, maxPt => (i, minPt, maxPt)
  | c :: cells, i, minPt, maxPt =>
      if c.1 = x then
        if c.2 < minPt.2 then columnEnds x cells (i + 1) c maxPt
        else if c.2 > maxPt.2 then columnEnds x cells (i + 1) minPt c
        else columnEnds x cells (i + 1) minPt maxPt
      else (i, minPt, maxPt)

/-- The filling loop of `FillConvexCells` over the next `n` columns, from column `x` on. -/
def fillColumns : Nat → Nat → Nat → List Cell → List Cell
  | 0, _, _, cells => cells
  | n + 1, x, i, cells =>
      match cells[i]?, cells[i + 1]? with
      | some a, some b =>
          let ends := if a.2 < b.2 then (a, b) else (b, a)
          let column := columnEnds x (cells.drop (i + 2)) (i + 2) ends.1 ends.2
          let minPt := column.2.1
          let maxPt := column.2.2
          fillColumns n (x + 1) column.1
            (cells ++ (List.range' minPt.2 (maxPt.2 - minPt.2)).map fun y => (x, y))
      | _, _ => cells

namespace Geometry

variable (g : Geometry)

/-- `GetIndex`. -/
def getIndex (mx my : Nat) : Nat :=
  my * g.sizeX + mx

/-- `Index2Cells`. -/
def index2Cells (index : Nat) : Cell :=
  let my := index / g.sizeX
  (index - my * g.sizeX, my)

/-- `World2Cell`. -/
def world2Cell (worldDist : Rat) : Nat :=
  ⌈worldDist / g.resolution⌉.toNat

/-- `Map2World`. -/
def map2World (mx my : Nat) : Rat × Rat :=
  (g.originX + (mx + 1 / 2) * g.resolution, g.originY + (my + 1 / 2) * g.resolution)

/-- `World2Map`. -/
def world2Map (wx wy : Rat) : Option Cell :=
  if wx < g.originX ∨ wy < g.originY then none
  else
    let mx := (truncate ((wx - g.originX) / g.resolution)).toNat
    let my := (truncate ((wy - g.originY) / g.resolution)).toNat
    if mx < g.sizeX ∧ my < g.sizeY then some (mx, my) else none

/-- `World2MapNoBoundary`. -/
def world2MapNoBoundary (wx wy : Rat) : Int × Int :=
  (truncate ((wx - g.originX) / g.resolution), truncate ((wy - g.originY) / g.resolution))

/-- A coordinate of `World2MapWithBoundary`. -/
def cellWithBoundary (origin : Rat) (size : Nat) (w : Rat) : Int :=
  if w < origin then 0
  else if w > g.resolution * size + origin then size - 1
  else truncate ((w - origin) / g.resolution)

/-- `World2MapWithBoundary`. -/
def world2MapWithBoundary (wx wy : Rat) : Int × Int :=
  (g.cellWithBoundary g.originX g.sizeX wx, g.cellWithBoundary g.originY g.sizeY wy)

/-- `GetSizeXWorld`. -/
def sizeXWorld : Rat :=
  (g.sizeX - 1 + 1 / 2) * g.resolution

/-- `GetSizeYWorld`. -/
def sizeYWorld : Rat :=
  (g.sizeY - 1 + 1 / 2) * g.resolution

variable (hypot : Rat → Rat → Rat)

/-- `RaytraceLine`: the offsets at which the action is applied. -/
def raytraceLine (x0 y0 x1 y1 maxLength : Nat) : List Int :=
  let dx : Int := x1 - x0
  let dy : Int := y1 - y0
  let absDx := dx.natAbs
  let absDy := dy.natAbs
  let offsetDx := sign dx
  let offsetDy := sign dy * g.sizeX
  let offset : Int := y0 * g.sizeX + x0
  let dist := hypot dx dy
  let scale := if dist = 0 then 1 else min 1 (maxLength / dist)
  if absDx ≥ absDy then
    bresenham absDx absDy offsetDx offsetDy (min (truncate (scale * absDx)).toNat absDx) (absDx / 2)
      offset
  else
    bresenham absDy absDx offsetDy offsetDx (min (truncate (scale * absDy)).toNat absDy) (absDy / 2)
      offset

/-- `RaytraceLine` with `PolygonOutlineCells`. -/
def outlineCells (a b : Cell) : List Cell :=
  (g.raytraceLine hypot a.1 a.2 b.1 b.2 UINT_MAX).map fun offset => g.index2Cells offset.toNat

/-- `GetConvexEdge`. -/
def getConvexEdge (polygon : List Cell) : List Cell :=
  (polygon.zip (polygon.drop 1)).flatMap (fun (a, b) => g.outlineCells hypot a b) ++
    match polygon.getLast?, polygon.head? with
    | some last, some first => g.outlineCells hypot last first
    | _, _ => []

/-- `FillConvexCells`. -/
def fillConvexCells (polygon : List Cell) : List Cell :=
  if polygon.length < 3 then []
  else
    let cells := g.getConvexEdge hypot polygon
    let cells := sortCells (cells.length * cells.length + cells.length) 0 cells
    match cells.head?, cells.getLast? with
    | some first, some last => fillColumns (last.1 + 1 - first.1) first.1 0 cells
    | _, _ => cells

/-- `SetConvexRegionCost`, on a map that stays as it is when the region cannot be filled. -/
def setConvexRegionCost (polygon : List (Rat × Rat)) (cost : UInt8) (costmap : Nat → UInt8) :
    Nat → UInt8 :=
  match polygon.mapM fun (x, y) => g.world2Map x y with
  | none => costmap
  | some mapPolygon =>
      (g.fillConvexCells hypot mapPolygon).foldl
        (fun m (x, y) => Function.update m (g.getIndex x y) cost) costmap

end Geometry

end RoboRTS.Costmap
