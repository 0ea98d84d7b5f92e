import RoboRTS.Costmap.InflationLayer.Defs
import RoboRTS.Lib.StateMachine

/-!
# The layers of a costmap

`CostmapLayers` of a map that does not roll, with the static layer, the obstacle layer and, if there
is one, the inflation layer, all enabled. `UpdateMap` collects the bounds of what each layer changes
and rebuilds the master grid inside them; `ClearCostMap` clears the obstacle layer around the robot.
The layers have the size, the resolution and the origin of the master grid.

The static map is there and does not change, and nothing but `ClearCostMap` adds extra bounds, so
that the static layer has none. A pose is given by its position and the cosine and the sine of its
yaw, and an observation by the points of its cloud. Clocks count nanoseconds.
-/

namespace RoboRTS.Costmap

/-- A rectangle in the world. -/
structure Bounds where
  minX : Rat
  minY : Rat
  maxX : Rat
  maxY : Rat
  deriving Repr, DecidableEq

/-- `Touch`. -/
def Bounds.touch (x y : Rat) (b : Bounds) : Bounds :=
  ⟨min x b.minX, min y b.minY, max x b.maxX, max y b.maxY⟩

/-- `Observation`: the origin of the sensor, the cloud and the ranges. -/
structure Observation where
  originX : Rat
  originY : Rat
  originZ : Rat
  cloud : List (Rat × Rat × Rat)
  obstacleRange : Rat
  raytraceRange : Rat

/-- The parameters of the inflation layer. -/
structure InflationParameters where
  inflationRadius : Rat
  inscribedRadius : Rat
  weight : Rat
  inflationRadius_nonneg : 0 ≤ inflationRadius
  weight_nonneg : 0 ≤ weight

/-- The greatest `float`. -/
def FLT_MAX : Rat :=
  (2 ^ 24 - 1) * 2 ^ 104

/-- The map, which lies where a `float` can say and has indices that an `int` can say, the static
layer's grid, and the parameters of the layers. -/
structure LayersConfig where
  geometry : Geometry
  trackUnknown : Bool
  staticCostmap : Nat → UInt8
  useMaximum : Bool
  footprint : List (Rat × Rat)
  footprintClearingEnabled : Bool
  maxObstacleHeight : Rat
  inflation : Option InflationParameters
  le_origin : -FLT_MAX ≤ geometry.originX ∧ -FLT_MAX ≤ geometry.originY
  end_le : geometry.originX + geometry.sizeX * geometry.resolution ≤ FLT_MAX ∧
    geometry.originY + geometry.sizeY * geometry.resolution ≤ FLT_MAX
  size_lt : geometry.sizeX * geometry.sizeY < 2 ^ 31

/-- The members of `ObstacleLayer` that change. -/
structure ObstacleLayer where
  costmap : Nat → UInt8
  resetTime : Int
  extra : Bounds
  hasExtraBounds : Bool
  transformedFootprint : List (Rat × Rat)

/-- The master grid, and what changes of the layers. -/
structure CostmapLayers where
  masterGrid : Nat → UInt8
  hasUpdatedData : Bool
  obstacle : ObstacleLayer
  needReinflation : Bool
  lastBounds : Bounds

/-- What an `UpdateMap` is given: the pose of the robot, the observations of the buffers and the two
readings of the clock. -/
structure Update where
  robotX : Rat
  robotY : Rat
  cosYaw : Rat
  sinYaw : Rat
  marking : List Observation
  clearing : List Observation
  now : Int
  resetNow : Int

/-- A call of `UpdateMap`, or of `ClearCostMap` for a robot at a position. -/
inductive LayersEvent where
  | updateMap (u : Update)
  | clearCostMap (x y : Rat)

namespace LayersConfig

variable (cfg : LayersConfig) (hypot : Rat → Rat → Rat) (exp : Rat → Rat)

def defaultValue : UInt8 :=
  if cfg.trackUnknown then NO_INFORMATION else FREE_SPACE

/-! ## The layers -/

/-- `UpdateOverwriteByMax`. -/
def updateOverwriteByMax (costmap : Nat → UInt8) (cells : List (Nat × Nat))
    (masterArray : Nat → UInt8) : Nat → UInt8 :=
  cells.foldl (fun m (i, j) =>
    let it := cfg.geometry.getIndex i j
    if costmap it = NO_INFORMATION then m
    else if m it = NO_INFORMATION ∨ m it < costmap it then Function.update m it (costmap it)
    else m) masterArray

/-- `UpdateOverwriteByAll`. -/
def updateOverwriteByAll (costmap : Nat → UInt8) (cells : List (Nat × Nat))
    (masterArray : Nat → UInt8) : Nat → UInt8 :=
  cells.foldl (fun m (i, j) =>
    let it := cfg.geometry.getIndex i j
    Function.update m it (costmap it)) masterArray

/-- `StaticLayer::UpdateBounds`. -/
def staticUpdateBounds (hasUpdatedData : Bool) (b : Bounds) : Bounds :=
  if hasUpdatedData then
    let low := cfg.geometry.map2World 0 0
    let high := cfg.geometry.map2World cfg.geometry.sizeX cfg.geometry.sizeY
    ⟨min low.1 b.minX, min low.2 b.minY, max b.maxX high.1, max b.maxY high.2⟩
  else b

/-- `StaticLayer::UpdateCosts`. -/
def staticUpdateCosts (cells : List (Nat × Nat)) (masterArray : Nat → UInt8) : Nat → UInt8 :=
  if cfg.useMaximum then cfg.updateOverwriteByMax cfg.staticCostmap cells masterArray
  else cfg.updateOverwriteByAll cfg.staticCostmap cells masterArray

/-- `UseExtraBounds`. -/
def useExtraBounds (o : ObstacleLayer) (b : Bounds) : ObstacleLayer × Bounds :=
  if o.hasExtraBounds then
    ({ o with extra := ⟨10 ^ 6, 10 ^ 6, -10 ^ 6, -10 ^ 6⟩, hasExtraBounds := false },
      ⟨min o.extra.minX b.minX, min o.extra.minY b.minY, max o.extra.maxX b.maxX,
        max o.extra.maxY b.maxY⟩)
  else (o, b)

/-- The end of a ray in the map: the point of the cloud, scaled towards the sensor. -/
def scaleToMap (ox oy wx wy : Rat) : Rat × Rat :=
  let g := cfg.geometry
  let mapEndX := g.originX + g.sizeX * g.resolution
  let mapEndY := g.originY + g.sizeY * g.resolution
  let a := wx - ox
  let b := wy - oy
  let (wx, wy) := if wx < g.originX then (g.originX, oy + b * ((g.originX - ox) / a)) else (wx, wy)
  let (wx, wy) := if wy < g.originY then (ox + a * ((g.originY - oy) / b), g.originY) else (wx, wy)
  let (wx, wy) :=
    if wx > mapEndX then (mapEndX - 1 / 1000, oy + b * ((mapEndX - ox) / a)) else (wx, wy)
  if wy > mapEndY then (ox + a * ((mapEndY - oy) / b), mapEndY - 1 / 1000) else (wx, wy)

/-- The point that `UpdateRaytraceBounds` touches. -/
def raytraceBound (ox oy wx wy range : Rat) : Rat × Rat :=
  let dx := wx - ox
  let dy := wy - oy
  let fullDistance := hypot dx dy
  let scale := if fullDistance = 0 then 1 else min 1 (range / fullDistance)
  (ox + dx * scale, oy + dy * scale)

/-- The rays of `RaytraceFreespace` that stay in the map: the offsets that one visits, and the point
that it touches. -/
def rays (obs : Observation) : List (List Int × Rat × Rat) :=
  match cfg.geometry.world2Map obs.originX obs.originY with
  | none => []
  | some (x0, y0) => obs.cloud.filterMap fun (px, py, _) =>
      let (wx, wy) := cfg.scaleToMap obs.originX obs.originY px py
      (cfg.geometry.world2Map wx wy).map fun (x1, y1) =>
        (cfg.geometry.raytraceLine hypot x0 y0 x1 y1 (cfg.geometry.world2Cell obs.raytraceRange),
          raytraceBound hypot obs.originX obs.originY wx wy obs.raytraceRange)

/-- `RaytraceFreespace`. -/
def raytraceFreespace (obs : Observation) (s : (Nat → UInt8) × Bounds) : (Nat → UInt8) × Bounds :=
  if (cfg.geometry.world2Map obs.originX obs.originY).isSome then
    (cfg.rays hypot obs).foldl
      (fun s (offsets, e) => (markCells FREE_SPACE offsets s.1, s.2.touch e.1 e.2))
      (s.1, s.2.touch obs.originX obs.originY)
  else s

/-- The cell that a point of an observation marks. -/
def markedCell (obs : Observation) : Rat × Rat × Rat → Option (Nat × Nat)
  | (px, py, pz) =>
      if pz > cfg.maxObstacleHeight then none
      else
        let sqDist := (px - obs.originX) * (px - obs.originX) +
          (py - obs.originY) * (py - obs.originY) + (pz - obs.originZ) * (pz - obs.originZ)
        if sqDist ≥ obs.obstacleRange * obs.obstacleRange then none
        else cfg.geometry.world2Map px py

/-- The loop over the points of a marking observation. -/
def markObstacles (obs : Observation) (s : (Nat → UInt8) × Bounds) : (Nat → UInt8) × Bounds :=
  obs.cloud.foldl (fun s p =>
    match cfg.markedCell obs p with
    | none => s
    | some (mx, my) =>
        (Function.update s.1 (cfg.geometry.getIndex mx my) LETHAL_OBSTACLE, s.2.touch p.1 p.2.1)) s

/-- `TransformFootprint`. -/
def transformFootprint (u : Update) : List (Rat × Rat) :=
  cfg.footprint.map fun (x, y) =>
    (u.robotX + (x * u.cosYaw - y * u.sinYaw), u.robotY + (x * u.sinYaw + y * u.cosYaw))

/-- `UpdateFootprint`. -/
def updateFootprint (u : Update) (o : ObstacleLayer) (b : Bounds) : ObstacleLayer × Bounds :=
  if cfg.footprintClearingEnabled then
    ({ o with transformedFootprint := cfg.transformFootprint u },
      (cfg.transformFootprint u).foldl (fun b (x, y) => b.touch x y) b)
  else (o, b)

/-- The reset of the obstacle layer every few seconds. -/
def resetMaps (u : Update) (o : ObstacleLayer) : ObstacleLayer :=
  if Int.tdiv (u.now - o.resetTime) (10 ^ 9) > 2 then
    { o with resetTime := u.resetNow, costmap := fun _ => cfg.defaultValue }
  else o

/-- `ObstacleLayer::UpdateBounds`. -/
def obstacleUpdateBounds (u : Update) (o : ObstacleLayer) (b : Bounds) : ObstacleLayer × Bounds :=
  let o := cfg.resetMaps u o
  let (o, b) := useExtraBounds o b
  let (costmap, b) := u.clearing.foldl (fun s obs => cfg.raytraceFreespace hypot obs s) (o.costmap, b)
  let (costmap, b) := u.marking.foldl (fun s obs => cfg.markObstacles obs s) (costmap, b)
  cfg.updateFootprint u { o with costmap := costmap } b

/-- The clearing of the footprint in `ObstacleLayer::UpdateCosts`. -/
def clearFootprint (o : ObstacleLayer) : ObstacleLayer :=
  if cfg.footprintClearingEnabled then
    { o with
      costmap :=
        cfg.geometry.setConvexRegionCost hypot o.transformedFootprint FREE_SPACE o.costmap }
  else o

/-- `InflationLayer::UpdateBounds`. -/
def inflationUpdateBounds (inflationRadius : Rat) (needReinflation : Bool) (last b : Bounds) :
    Bounds :=
  if needReinflation then ⟨-FLT_MAX, -FLT_MAX, FLT_MAX, FLT_MAX⟩
  else
    ⟨min last.minX b.minX - inflationRadius, min last.minY b.minY - inflationRadius,
      max last.maxX b.maxX + inflationRadius, max last.maxY b.maxY + inflationRadius⟩

/-- `ComputeCost`. -/
def computeCost (p : InflationParameters) (distanceCell : Nat) : UInt8 :=
  if distanceCell = 0 then LETHAL_OBSTACLE
  else if distanceCell * cfg.geometry.resolution ≤ p.inscribedRadius then
    INSCRIBED_INFLATED_OBSTACLE
  else
    let factor := exp (-1 * p.weight * (distanceCell * cfg.geometry.resolution - p.inscribedRadius))
    UInt8.ofNat (truncate ((INSCRIBED_INFLATED_OBSTACLE - 1).toNat * factor)).toNat

/-- The members of the inflation layer that `InflationLayer::UpdateCosts` reads. -/
def inflationLayer (p : InflationParameters) : InflationLayer where
  sizeX := cfg.geometry.sizeX
  sizeY := cfg.geometry.sizeY
  cellInflationRadius := cfg.geometry.world2Cell p.inflationRadius
  cost sqDistance := cfg.computeCost exp p (Nat.sqrt sqDistance)
  size_lt := cfg.size_lt

/-! ## Updates of the master grid -/

/-- The bounds of all layers and the layers after they have reported them. -/
def updateBounds (u : Update) (s : CostmapLayers) : CostmapLayers × Bounds :=
  let b := cfg.staticUpdateBounds s.hasUpdatedData ⟨10 ^ 30, 10 ^ 30, -10 ^ 30, -10 ^ 30⟩
  let (o, b) := cfg.obstacleUpdateBounds hypot u s.obstacle b
  let s := { s with hasUpdatedData := false, obstacle := o }
  match cfg.inflation with
  | none => (s, b)
  | some p =>
      ({ s with needReinflation := false, lastBounds := b },
        inflationUpdateBounds p.inflationRadius s.needReinflation s.lastBounds b)

/-- The costs of all layers in the window, after the master grid is reset there. -/
def updateCosts (x0 y0 xn yn : Int) (s : CostmapLayers) : CostmapLayers :=
  let cells := window x0 y0 xn yn
  let grid := cells.foldl
    (fun m (i, j) => Function.update m (cfg.geometry.getIndex i j) cfg.defaultValue) s.masterGrid
  let grid := cfg.staticUpdateCosts cells grid
  let o := cfg.clearFootprint hypot s.obstacle
  let grid := cfg.updateOverwriteByMax o.costmap cells grid
  let grid := match cfg.inflation with
    | none => grid
    | some p => (cfg.inflationLayer exp p).updateCosts grid x0 y0 xn yn
  { s with masterGrid := grid, obstacle := o }

/-- `CostmapLayers::UpdateMap`. -/
def updateMap (u : Update) (s : CostmapLayers) : CostmapLayers :=
  let (s, b) := cfg.updateBounds hypot u s
  let (x0, y0) := cfg.geometry.world2MapWithBoundary b.minX b.minY
  let (xn, yn) := cfg.geometry.world2MapWithBoundary b.maxX b.maxY
  let x0 := max 0 x0
  let xn := min (cfg.geometry.sizeX : Int) (xn + 1)
  let y0 := max 0 y0
  let yn := min (cfg.geometry.sizeY : Int) (yn + 1)
  if xn < x0 ∨ yn < y0 then s
  else cfg.updateCosts hypot exp x0 y0 xn yn s

/-- `AddExtraBounds`. -/
def addExtraBounds (mx0 my0 mx1 my1 : Rat) (o : ObstacleLayer) : ObstacleLayer :=
  { o with
    extra := ⟨min mx0 o.extra.minX, min my0 o.extra.minY, max mx1 o.extra.maxX, max my1 o.extra.maxY⟩
    hasExtraBounds := true }

/-- `ClearCostMap`, which clears the obstacle layer but for the cells around the robot
(`ClearLayer`). -/
def clearCostMap (poseX poseY : Rat) (s : CostmapLayers) : CostmapLayers :=
  let g := cfg.geometry
  let resetDistance : Rat := 1 / 10
  let startPointX := poseX - resetDistance / 2
  let startPointY := poseY - resetDistance / 2
  let start := g.world2MapNoBoundary startPointX startPointY
  let stop := g.world2MapNoBoundary (startPointX + resetDistance) (startPointY + resetDistance)
  let grid := (window 0 0 g.sizeX g.sizeY).foldl (fun m (x, y) =>
    if (start.1 < x ∧ (x : Int) < stop.1) ∧ start.2 < y ∧ (y : Int) < stop.2 then m
    else Function.update m (g.getIndex x y) NO_INFORMATION) s.obstacle.costmap
  { s with
    obstacle := addExtraBounds g.originX g.originY (g.originX + g.sizeXWorld)
      (g.originY + g.sizeYWorld) { s.obstacle with costmap := grid } }

/-- The layers after they are initialised, at a reading of the clock. -/
def initial (resetTime : Int) : CostmapLayers where
  masterGrid _ := cfg.defaultValue
  hasUpdatedData := true
  obstacle :=
    { costmap := fun _ => cfg.defaultValue
      resetTime := resetTime
      extra := ⟨10 ^ 6, 10 ^ 6, -10 ^ 6, -10 ^ 6⟩
      hasExtraBounds := false
      transformedFootprint := [] }
  needReinflation := true
  lastBounds := ⟨-FLT_MAX, -FLT_MAX, FLT_MAX, FLT_MAX⟩

/-- A call, which is always possible. -/
def step (s : CostmapLayers) : LayersEvent → Option CostmapLayers
  | .updateMap u => some (cfg.updateMap hypot exp u s)
  | .clearCostMap x y => some (cfg.clearCostMap x y s)

end LayersConfig

end RoboRTS.Costmap
