import RoboRTS.Costmap.Costmap2D

/-!
# The inflation layer

`UpdateCosts` spreads the costs of `ComputeCost` around the lethal cells of the master grid.
A distance is kept as its square, which is exact: `inflation_cells_` is indexed by it, `cost` is
the table `cached_costs_` as a function of it, and the distance is compared with
`cell_inflation_radius_` through it. A distance without cells is an empty list in
`inflation_cells_`, and no distance above the radius ever gets one. `inflate_unknown_` is false in
every layer.
-/

namespace RoboRTS.Costmap

open NearestSite

/-- `CellData`. -/
structure CellData where
  index : Nat
  x : Nat
  y : Nat
  srcX : Nat
  srcY : Nat
  deriving Repr, DecidableEq

/-- The members of `InflationLayer` and of the master grid that `UpdateCosts` only reads. The index
of a cell is an `int`, and `seen_size_` an `unsigned int`. -/
structure InflationLayer where
  sizeX : Nat
  sizeY : Nat
  cellInflationRadius : Nat
  cost : Nat → UInt8
  size_lt : sizeX * sizeY < 2 ^ 31

/-- What `UpdateCosts` changes: `inflation_cells_`, `seen_` and the cells of the master grid. -/
structure Wave where
  inflationCells : Nat → List CellData
  seen : Nat → Bool
  masterArray : Nat → UInt8

namespace InflationLayer

variable (l : InflationLayer)

/-- `GetIndex`. -/
def getIndex (mx my : Nat) : Nat :=
  my * l.sizeX + mx

/-- What the cost of a cell becomes, `inflate_unknown_` being false. -/
def merge (oldCost cost : UInt8) : UInt8 :=
  if oldCost = NO_INFORMATION ∧ cost ≥ INSCRIBED_INFLATED_OBSTACLE then cost
  else max oldCost cost

/-- `Enqueue`. -/
def enqueue (index mx my srcX srcY : Nat) (w : Wave) : Wave :=
  if w.seen index then w
  else
    let distance := sqDist (mx, my) (srcX, srcY)
    if distance > l.cellInflationRadius * l.cellInflationRadius then w
    else
      { w with
        inflationCells := Function.update w.inflationCells distance
          (w.inflationCells distance ++ [⟨index, mx, my, srcX, srcY⟩]) }

/-- The body of the loop over the cells of a distance. -/
def visit (w : Wave) (cell : CellData) : Wave :=
  if w.seen cell.index then w
  else
    let cost := l.cost (sqDist (cell.x, cell.y) (cell.srcX, cell.srcY))
    let w := { w with
      seen := Function.update w.seen cell.index true
      masterArray := Function.update w.masterArray cell.index
        (merge (w.masterArray cell.index) cost) }
    let w := if cell.x > 0 then
        l.enqueue (cell.index - 1) (cell.x - 1) cell.y cell.srcX cell.srcY w else w
    let w := if cell.y > 0 then
        l.enqueue (cell.index - l.sizeX) cell.x (cell.y - 1) cell.srcX cell.srcY w else w
    let w := if cell.x < l.sizeX - 1 then
        l.enqueue (cell.index + 1) (cell.x + 1) cell.y cell.srcX cell.srcY w else w
    if cell.y < l.sizeY - 1 then
      l.enqueue (cell.index + l.sizeX) cell.x (cell.y + 1) cell.srcX cell.srcY w else w

/-- The loop over the cells of one distance from number `i` on, which may get more of them. -/
def processBin (distance : Nat) : Nat → Nat → Wave → Wave
  | 0, _, w => w
  | fuel + 1, i, w =>
      match (w.inflationCells distance)[i]? with
      | none => w
      | some cell => processBin distance fuel (i + 1) (l.visit w cell)

/-- More cells than a distance ever gets: every cell once as an obstacle and once from each
neighbour. -/
def binBound : Nat :=
  5 * (l.sizeX * l.sizeY) + 1

/-- The loop over the distances. -/
def processBins (w : Wave) : Wave :=
  (List.range (l.cellInflationRadius * l.cellInflationRadius + 1)).foldl
    (fun w distance => l.processBin distance l.binBound 0 w) w

/-- The lethal cells of the window. -/
def obstacles (masterArray : Nat → UInt8) (cells : List (Nat × Nat)) : List CellData :=
  (cells.filter fun (i, j) => masterArray (l.getIndex i j) = LETHAL_OBSTACLE).map fun (i, j) =>
    ⟨l.getIndex i j, i, j, i, j⟩

/-- `UpdateCosts`. -/
def updateCosts (masterArray : Nat → UInt8) (minI minJ maxI maxJ : Int) : Nat → UInt8 :=
  if l.cellInflationRadius = 0 then masterArray
  else
    let r : Int := l.cellInflationRadius
    let cells := window (max 0 (minI - r)) (max 0 (minJ - r)) (min l.sizeX (maxI + r))
      (min l.sizeY (maxJ + r))
    (l.processBins
      { inflationCells := Function.update (fun _ => []) 0 (l.obstacles masterArray cells)
        seen := fun _ => false
        masterArray := masterArray }).masterArray

end InflationLayer

end RoboRTS.Costmap
