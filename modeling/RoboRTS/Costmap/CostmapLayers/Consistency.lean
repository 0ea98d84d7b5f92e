import RoboRTS.Costmap.CostmapLayers.Window

/-!
# The master grid and the layers

`UpdateMap` only rebuilds the window of the bounds that the layers report. The master grid agrees
with the layers after every `UpdateMap` of a run in which the obstacle layer reports the lethal
cells that it clears (`run_consistent`); after a reset, which it does not report, they can differ
(`run_inconsistent`).
-/

namespace RoboRTS.Costmap

open NearestSite

/-- The bounds with all points of a list. -/
def Bounds.touchAll (points : List (Rat × Rat)) (b : Bounds) : Bounds :=
  points.foldl (fun b p => b.touch p.1 p.2) b

/-- Every point of the map in the one bounds is in the other. -/
def Bounds.Within (g : Geometry) (b b' : Bounds) : Prop :=
  ∀ (p : Rat × Rat) v, g.world2Map p.1 p.2 = some v → b.Spans p → b'.Spans p

variable {g : Geometry} {b b' : Bounds} {p : Rat × Rat} {c : Cell} {points : List (Rat × Rat)}

theorem Bounds.Spans.touchAll (h : b.Spans p) : (b.touchAll points).Spans p := by
  unfold Bounds.touchAll
  induction points generalizing b with
  | nil => exact h
  | cons q points ih => exact ih h.touch

theorem Bounds.spans_touchAll (h : p ∈ points) : (b.touchAll points).Spans p := by
  induction points generalizing b with
  | nil => exact absurd h List.not_mem_nil
  | cons q points ih =>
      rcases List.mem_cons.mp h with rfl | hmem
      · exact Bounds.spans_touch.touchAll
      · exact ih hmem

theorem Bounds.touchAll_append {points' : List (Rat × Rat)} :
    b.touchAll (points ++ points') = (b.touchAll points).touchAll points' :=
  List.foldl_append

namespace LayersConfig

variable (cfg : LayersConfig) (hypot : Rat → Rat → Rat) (exp : Rat → Rat)

/-! ## The property and the condition -/

/-- A cell of the map. -/
def InMap (c : Cell) : Prop :=
  c.1 < cfg.geometry.sizeX ∧ c.2 < cfg.geometry.sizeY

/-- The cell is lethal in the obstacle layer. -/
def MarkedIn (o : ObstacleLayer) (c : Cell) : Prop :=
  o.costmap (cfg.geometry.getIndex c.1 c.2) = LETHAL_OBSTACLE

/-- The lethal cells of the master grid are those of the static and of the obstacle layer. -/
def Consistent (s : CostmapLayers) : Prop :=
  ∀ c, cfg.InMap c → (s.masterGrid (cfg.geometry.getIndex c.1 c.2) = LETHAL_OBSTACLE ↔
    cfg.staticCostmap (cfg.geometry.getIndex c.1 c.2) = LETHAL_OBSTACLE ∨ cfg.MarkedIn s.obstacle c)

/-- The points that a clearing observation touches. -/
def clearedPoints (obs : Observation) : List (Rat × Rat) :=
  if (cfg.geometry.world2Map obs.originX obs.originY).isSome then
    (obs.originX, obs.originY) :: (cfg.rays hypot obs).map Prod.snd
  else []

/-- The points that a marking observation touches. -/
def markedPoints (obs : Observation) : List (Rat × Rat) :=
  obs.cloud.filterMap fun p => (cfg.markedCell obs p).map fun _ => (p.1, p.2.1)

/-- The points that the obstacle layer touches in an update. -/
def touchedPoints (u : Update) : List (Rat × Rat) :=
  u.clearing.flatMap (cfg.clearedPoints hypot) ++ (u.marking.flatMap cfg.markedPoints ++
    if cfg.footprintClearingEnabled then cfg.transformFootprint u else [])

/-- The cells of these points. -/
def touchedCells (u : Update) : List Cell :=
  (cfg.touchedPoints hypot u).filterMap fun p => cfg.geometry.world2Map p.1 p.2

/-- The update resets the obstacle layer. -/
def ResetDue (u : Update) (o : ObstacleLayer) : Prop :=
  Int.tdiv (u.now - o.resetTime) (10 ^ 9) > 2

/-- A ray of the update visits the cell. -/
def Cleared (u : Update) (c : Cell) : Prop :=
  ∃ obs ∈ u.clearing, ∃ ray ∈ cfg.rays hypot obs, (cfg.geometry.getIndex c.1 c.2 : Int) ∈ ray.1

/-- The whole map is rebuilt, or every lethal cell that the reset or a ray clears lies in the
bounding box of the cells of the touched points. -/
def Reported (s : CostmapLayers) : LayersEvent → Prop
  | .clearCostMap _ _ => True
  | .updateMap u => s.hasUpdatedData = true ∨ s.obstacle.hasExtraBounds = true ∨
      ∀ c, cfg.InMap c → cfg.MarkedIn s.obstacle c →
        ResetDue u s.obstacle ∨ cfg.Cleared hypot u c → Hull (cfg.touchedCells hypot u) c

variable {cfg hypot exp} {u : Update} {o : ObstacleLayer} {s : CostmapLayers}

/-! ## The bounds of an update -/

theorem raytraceFreespace_bounds (obs : Observation) (m : (Nat → UInt8) × Bounds) :
    (cfg.raytraceFreespace hypot obs m).2 = m.2.touchAll (cfg.clearedPoints hypot obs) := by
  unfold raytraceFreespace clearedPoints
  split
  · rw [Bounds.touchAll, List.foldl_cons]
    generalize m.2.touch _ _ = b
    generalize m.1 = costmap
    induction cfg.rays hypot obs generalizing costmap b with
    | nil => rfl
    | cons ray rays ih => exact ih _ _
  · rfl

theorem markObstacles_bounds (obs : Observation) (m : (Nat → UInt8) × Bounds) :
    (cfg.markObstacles obs m).2 = m.2.touchAll (cfg.markedPoints obs) := by
  unfold markObstacles markedPoints
  induction obs.cloud generalizing m with
  | nil => rfl
  | cons q cloud ih =>
      rw [List.foldl_cons, ih, List.filterMap_cons]
      cases cfg.markedCell obs q with
      | none => rfl
      | some d => rfl

/-- Observations one after the other touch the points of all of them. -/
theorem foldl_bounds {f : (Nat → UInt8) × Bounds → Observation → (Nat → UInt8) × Bounds}
    {touched : Observation → List (Rat × Rat)}
    (hf : ∀ obs m, (f m obs).2 = m.2.touchAll (touched obs)) (observations : List Observation)
    (m : (Nat → UInt8) × Bounds) :
    (observations.foldl f m).2 = m.2.touchAll (observations.flatMap touched) := by
  induction observations generalizing m with
  | nil => rfl
  | cons obs observations ih =>
      rw [List.foldl_cons, ih, hf, List.flatMap_cons, Bounds.touchAll_append]

/-- The obstacle layer reports the points that it touches, and the extra bounds. -/
theorem obstacleUpdateBounds_bounds :
    (cfg.obstacleUpdateBounds hypot u o b).2 =
      (useExtraBounds (cfg.resetMaps u o) b).2.touchAll (cfg.touchedPoints hypot u) := by
  unfold obstacleUpdateBounds touchedPoints
  dsimp only
  rw [Bounds.touchAll_append, Bounds.touchAll_append]
  rw [← foldl_bounds (f := fun m obs => cfg.raytraceFreespace hypot obs m)
    (fun obs m => raytraceFreespace_bounds obs m) u.clearing
    ((useExtraBounds (cfg.resetMaps u o) b).1.costmap, _)]
  rw [← foldl_bounds (f := fun m obs => cfg.markObstacles obs m)
    (fun obs m => markObstacles_bounds obs m) u.marking (_, _)]
  unfold updateFootprint
  split
  · rfl
  · rfl

/-- What the bounds span, and the touched points, are in the bounds that all layers report. -/
theorem updateBounds_spans {v : Cell} (hmap : cfg.geometry.world2Map p.1 p.2 = some v)
    (hspans : (useExtraBounds (cfg.resetMaps u s.obstacle) (cfg.staticUpdateBounds s.hasUpdatedData
        ⟨10 ^ 30, 10 ^ 30, -10 ^ 30, -10 ^ 30⟩)).2.Spans p ∨ p ∈ cfg.touchedPoints hypot u) :
    (cfg.updateBounds hypot u s).2.Spans p := by
  have hlayers : (cfg.obstacleUpdateBounds hypot u s.obstacle (cfg.staticUpdateBounds
      s.hasUpdatedData ⟨10 ^ 30, 10 ^ 30, -10 ^ 30, -10 ^ 30⟩)).2.Spans p := by
    rw [obstacleUpdateBounds_bounds]
    rcases hspans with hspans | hmem
    · exact hspans.touchAll
    · exact Bounds.spans_touchAll hmem
  unfold updateBounds
  dsimp only
  cases cfg.inflation with
  | none => exact hlayers
  | some q =>
      dsimp only
      unfold inflationUpdateBounds
      obtain ⟨⟨hx, hvx, hltx⟩, hy, hvy, hlty⟩ := world2Map_eq_some hmap
      -- a point in a cell of the map lies before the end of the map
      have hend : ∀ {origin w : Rat} {m size : Nat},
          (m : Int) = ⌊(w - origin) / cfg.geometry.resolution⌋ → m < size →
          w ≤ origin + size * cfg.geometry.resolution := by
        intro origin w m size hm hlt
        have hfloor := Int.lt_floor_add_one ((w - origin) / cfg.geometry.resolution)
        rw [← hm, div_lt_iff₀ cfg.geometry.resolution_pos] at hfloor
        have hsize : ((m : Rat) + 1) * cfg.geometry.resolution ≤
            size * cfg.geometry.resolution :=
          mul_le_mul_of_nonneg_right (by exact_mod_cast hlt) cfg.geometry.resolution_pos.le
        push_cast at hfloor
        linarith
      have hradius := q.inflationRadius_nonneg
      split
      · exact ⟨cfg.le_origin.1.trans hx, (hend hvx hltx).trans cfg.end_le.1,
          cfg.le_origin.2.trans hy, (hend hvy hlty).trans cfg.end_le.2⟩
      · constructor
        case left => exact (sub_le_self _ hradius).trans ((min_le_right ..).trans hlayers.left)
        case right => exact hlayers.right.trans ((le_max_right ..).trans (le_add_of_nonneg_right hradius))
        case bottom => exact (sub_le_self _ hradius).trans ((min_le_right ..).trans hlayers.bottom)
        case top => exact hlayers.top.trans ((le_max_right ..).trans (le_add_of_nonneg_right hradius))

/-- The bounding box of the touched cells is in the bounds. -/
theorem updateBounds_covers (h : Hull (cfg.touchedCells hypot u) c) :
    (cfg.updateBounds hypot u s).2.Covers cfg.geometry c := by
  refine ⟨_, fun v hv => ?_, h⟩
  obtain ⟨p, hp, hmap⟩ := List.mem_filterMap.mp hv
  exact ⟨p, hmap, updateBounds_spans hmap (Or.inr hp)⟩

/-! ## The cells that an update changes -/

theorem resetMaps_eq (h : ¬ ResetDue u o) : cfg.resetMaps u o = o := by
  rw [resetMaps]
  exact if_neg h

theorem MarkedIn.of_resetMaps (h : cfg.MarkedIn (cfg.resetMaps u o) c) : cfg.MarkedIn o c := by
  unfold resetMaps at h
  split at h
  · exact absurd h defaultValue_ne
  · exact h

/-- A loop leaves a value that each of its steps leaves. -/
theorem foldl_leaves {σ α β : Type} {f : σ → α → σ} (value : σ → β) {l : List α} {m : σ}
    (h : ∀ m, ∀ a ∈ l, value (f m a) = value m) : value (l.foldl f m) = value m :=
  List.foldlRecOn (motive := fun m' => value m' = value m) l f rfl
    fun m' hm a ha => (h m' a ha).trans hm

theorem markCells_ne_lethal {offsets : List Int} {costmap : Nat → UInt8} {i : Nat}
    (h : costmap i ≠ LETHAL_OBSTACLE) :
    markCells FREE_SPACE offsets costmap i ≠ LETHAL_OBSTACLE := by
  unfold markCells
  refine List.foldlRecOn (motive := fun m : Nat → UInt8 => m i ≠ LETHAL_OBSTACLE) offsets _ h ?_
  intro m hm offset _
  by_cases heq : i = offset.toNat
  · rw [heq, Function.update_self]
    decide
  · rwa [Function.update_of_ne heq]

theorem markCells_of_ne {offsets : List Int} {costmap : Nat → UInt8} {i : Nat}
    (h : ∀ offset ∈ offsets, i ≠ offset.toNat) :
    markCells FREE_SPACE offsets costmap i = costmap i :=
  foldl_leaves (fun m : Nat → UInt8 => m i) fun _ offset hoffset =>
    Function.update_of_ne (h offset hoffset) ..

/-- The offsets of a ray are indices. -/
theorem natCast_toNat_of_mem_rays {obs : Observation} {ray : List Int × Rat × Rat}
    (hray : ray ∈ cfg.rays hypot obs) {offset : Int} (hoffset : offset ∈ ray.1) :
    ((offset.toNat : Nat) : Int) = offset := by
  unfold rays at hray
  split at hray
  · exact absurd hray List.not_mem_nil
  · obtain ⟨q, -, hq⟩ := List.mem_filterMap.mp hray
    obtain ⟨d, -, rfl⟩ := Option.map_eq_some_iff.mp hq
    obtain ⟨x, y, rfl, -⟩ := mem_raytraceLine hoffset
    rw [Int.toNat_natCast]

/-- Ray clearing makes no cell lethal. -/
theorem raytraceFreespace_ne_lethal (obs : Observation) {m : (Nat → UInt8) × Bounds} {i : Nat}
    (h : m.1 i ≠ LETHAL_OBSTACLE) :
    (cfg.raytraceFreespace hypot obs m).1 i ≠ LETHAL_OBSTACLE := by
  unfold raytraceFreespace
  split
  · exact List.foldlRecOn (motive := fun m : (Nat → UInt8) × Bounds =>
      m.1 i ≠ LETHAL_OBSTACLE) _ _ h
      fun m hm ray _ => markCells_ne_lethal hm
  · exact h

/-- Ray clearing leaves the cells that no ray visits. -/
theorem raytraceFreespace_of_not_mem {obs : Observation} {m : (Nat → UInt8) × Bounds} {i : Nat}
    (h : ∀ ray ∈ cfg.rays hypot obs, (i : Int) ∉ ray.1) :
    (cfg.raytraceFreespace hypot obs m).1 i = m.1 i := by
  unfold raytraceFreespace
  split
  · refine foldl_leaves (fun m : (Nat → UInt8) × Bounds => m.1 i) fun m ray hray => markCells_of_ne ?_
    rintro offset hoffset rfl
    refine h ray hray ?_
    rw [natCast_toNat_of_mem_rays hray hoffset]
    exact hoffset
  · rfl

theorem world2Map_of_markedCell {obs : Observation} {q : Rat × Rat × Rat}
    (h : cfg.markedCell obs q = some c) : cfg.geometry.world2Map q.1 q.2.1 = some c := by
  unfold markedCell at h
  dsimp only at h
  split at h
  · cases h
  · split at h
    · cases h
    · exact h

/-- Marking leaves every cell that no point marks. -/
theorem markObstacles_of_ne {obs : Observation} (hc : cfg.InMap c) {m : (Nat → UInt8) × Bounds}
    (h : ∀ q ∈ obs.cloud, cfg.markedCell obs q ≠ some c) :
    (cfg.markObstacles obs m).1 (cfg.geometry.getIndex c.1 c.2) =
      m.1 (cfg.geometry.getIndex c.1 c.2) := by
  refine foldl_leaves (fun m : (Nat → UInt8) × Bounds => m.1 (cfg.geometry.getIndex c.1 c.2))
    fun m q hq => ?_
  cases hmark : cfg.markedCell obs q with
  | none => rfl
  | some d =>
      refine Function.update_of_ne (fun heq => h q hq ?_) ..
      rw [hmark, Geometry.getIndex_inj hc.1
        (world2Map_eq_some (world2Map_of_markedCell hmark)).1.2.2 heq]

/-- The grid of the obstacle layer is reset, then cleared and then marked. -/
theorem obstacleUpdateBounds_costmap : ∃ b', (cfg.obstacleUpdateBounds hypot u o b).1.costmap =
    (u.marking.foldl (fun m obs => cfg.markObstacles obs m)
      (u.clearing.foldl (fun m obs => cfg.raytraceFreespace hypot obs m)
        ((cfg.resetMaps u o).costmap, b'))).1 := by
  refine ⟨(useExtraBounds (cfg.resetMaps u o) b).2, ?_⟩
  have hextra : (useExtraBounds (cfg.resetMaps u o) b).1.costmap = (cfg.resetMaps u o).costmap := by
    unfold useExtraBounds
    split
    · rfl
    · rfl
  rw [← hextra]
  unfold obstacleUpdateBounds updateFootprint
  dsimp only
  split
  · rfl
  · rfl

/-- Outside the bounding box of the touched cells, reported clearing keeps what is lethal in the
obstacle layer. -/
theorem obstacleUpdateBounds_marked (hc : cfg.InMap c)
    (hreported : cfg.MarkedIn o c → ResetDue u o ∨ cfg.Cleared hypot u c →
      Hull (cfg.touchedCells hypot u) c)
    (hout : ¬ Hull (cfg.touchedCells hypot u) c) :
    cfg.MarkedIn (cfg.obstacleUpdateBounds hypot u o b).1 c ↔ cfg.MarkedIn o c := by
  obtain ⟨b', hcostmap⟩ := @obstacleUpdateBounds_costmap b cfg hypot u o
  -- what is marked is touched, so that marking leaves the cell
  have hmarking : ∀ m, (u.marking.foldl (fun m obs => cfg.markObstacles obs m) m).1
      (cfg.geometry.getIndex c.1 c.2) = m.1 (cfg.geometry.getIndex c.1 c.2) := by
    intro m
    refine foldl_leaves (fun m : (Nat → UInt8) × Bounds => m.1 (cfg.geometry.getIndex c.1 c.2))
      fun m obs hobs => markObstacles_of_ne hc fun q hq hmark => hout (Hull.of_mem ?_)
    refine List.mem_filterMap.mpr ⟨(q.1, q.2.1), ?_, world2Map_of_markedCell hmark⟩
    refine List.mem_append_right _ (List.mem_append_left _ (List.mem_flatMap.mpr ⟨obs, hobs, ?_⟩))
    exact List.mem_filterMap.mpr ⟨q, hq, by rw [hmark]; rfl⟩
  unfold MarkedIn
  rw [hcostmap, hmarking]
  by_cases hmarked : cfg.MarkedIn o c
  · -- no ray visits the cell, and there is no reset
    have hkept := fun h => hout (hreported hmarked h)
    have hclearing : (u.clearing.foldl (fun m obs => cfg.raytraceFreespace hypot obs m)
        ((cfg.resetMaps u o).costmap, b')).1 (cfg.geometry.getIndex c.1 c.2) =
        (cfg.resetMaps u o).costmap (cfg.geometry.getIndex c.1 c.2) :=
      foldl_leaves (fun m : (Nat → UInt8) × Bounds => m.1 (cfg.geometry.getIndex c.1 c.2))
        fun m obs hobs =>
        raytraceFreespace_of_not_mem fun ray hray hmem =>
          hkept (Or.inr ⟨obs, hobs, ray, hray, hmem⟩)
    rw [hclearing, resetMaps_eq fun h => hkept (Or.inl h)]
  -- a cell that is not lethal does not become lethal by clearing
  · refine iff_of_false ?_ hmarked
    refine List.foldlRecOn (motive := fun m : (Nat → UInt8) × Bounds =>
      m.1 (cfg.geometry.getIndex c.1 c.2) ≠ LETHAL_OBSTACLE) u.clearing _ ?_ ?_
    · exact fun h => hmarked (MarkedIn.of_resetMaps h)
    · exact fun m hm obs _ => raytraceFreespace_ne_lethal obs hm

/-- The clearing of the footprint stays in the bounding box of the touched cells. -/
theorem clearFootprint_marked (hc : cfg.InMap c) (hout : ¬ Hull (cfg.touchedCells hypot u) c) :
    cfg.MarkedIn (cfg.clearFootprint hypot (cfg.obstacleUpdateBounds hypot u o b).1) c ↔
      cfg.MarkedIn (cfg.obstacleUpdateBounds hypot u o b).1 c := by
  unfold clearFootprint
  by_cases henabled : cfg.footprintClearingEnabled = true
  · have hfootprint : (cfg.obstacleUpdateBounds hypot u o b).1.transformedFootprint =
        cfg.transformFootprint u := by
      unfold obstacleUpdateBounds updateFootprint
      dsimp only
      rw [if_pos henabled]
    rw [if_pos henabled, hfootprint]
    unfold MarkedIn
    dsimp only
    rcases setConvexRegionCost_eq hc.1 with hsame | ⟨vs, hvs, hhull⟩
    · rw [hsame]
    · refine absurd (hhull.trans fun v hv => Hull.of_mem ?_) hout
      obtain ⟨p, hp, hmap⟩ := hvs v hv
      refine List.mem_filterMap.mpr ⟨p, ?_, hmap⟩
      refine List.mem_append_right _ (List.mem_append_right _ ?_)
      rw [if_pos henabled]
      exact hp
  · rw [if_neg henabled]

/-! ## Updates of the whole map -/

/-- The bounds hold the centre of every cell. -/
def SpansMap (cfg : LayersConfig) (b : Bounds) : Prop :=
  ∀ c, cfg.InMap c → b.Spans (cfg.geometry.map2World c.1 c.2)

theorem world2Map_map2World (hc : cfg.InMap c) :
    cfg.geometry.world2Map (cfg.geometry.map2World c.1 c.2).1 (cfg.geometry.map2World c.1 c.2).2 =
      some c :=
  Geometry.world2Map_map2World hc.1 hc.2

/-- The centre of a cell lies between the centres of the first cell and of any later one. -/
theorem map2World_between {x y : Rat} (hc : cfg.InMap c)
    (hx : (cfg.geometry.sizeX : Rat) - 1 / 2 ≤ x) (hy : (cfg.geometry.sizeY : Rat) - 1 / 2 ≤ y) :
    (cfg.geometry.map2World 0 0).1 ≤ (cfg.geometry.map2World c.1 c.2).1 ∧
    (cfg.geometry.map2World c.1 c.2).1 ≤ cfg.geometry.originX + x * cfg.geometry.resolution ∧
    (cfg.geometry.map2World 0 0).2 ≤ (cfg.geometry.map2World c.1 c.2).2 ∧
    (cfg.geometry.map2World c.1 c.2).2 ≤ cfg.geometry.originY + y * cfg.geometry.resolution := by
  have hres := cfg.geometry.resolution_pos.le
  have hcx : (c.1 : Rat) + 1 ≤ cfg.geometry.sizeX := by exact_mod_cast hc.1
  have hcy : (c.2 : Rat) + 1 ≤ cfg.geometry.sizeY := by exact_mod_cast hc.2
  have hmono : ∀ {origin a b : Rat}, a ≤ b →
      origin + a * cfg.geometry.resolution ≤ origin + b * cfg.geometry.resolution :=
    fun h => add_le_add_right (mul_le_mul_of_nonneg_right h hres) _
  refine ⟨hmono ?_, hmono ?_, hmono ?_, hmono ?_⟩
  · push_cast
    linarith [(Nat.cast_nonneg c.1 : (0 : Rat) ≤ c.1)]
  · linarith
  · push_cast
    linarith [(Nat.cast_nonneg c.2 : (0 : Rat) ≤ c.2)]
  · linarith

theorem staticUpdateBounds_spansMap : cfg.SpansMap (cfg.staticUpdateBounds true b) := by
  intro c hc
  obtain ⟨h₁, h₂, h₃, h₄⟩ := map2World_between (x := cfg.geometry.sizeX + 1 / 2)
    (y := cfg.geometry.sizeY + 1 / 2) hc (by linarith) (by linarith)
  exact ⟨(min_le_left ..).trans h₁, h₂.trans (le_max_right ..), (min_le_left ..).trans h₃,
    h₄.trans (le_max_right ..)⟩

theorem useExtraBounds_spans (h : b.Spans p) : (useExtraBounds o b).2.Spans p := by
  unfold useExtraBounds
  split
  · exact ⟨(min_le_right ..).trans h.left, h.right.trans (le_max_right ..),
      (min_le_right ..).trans h.bottom, h.top.trans (le_max_right ..)⟩
  · exact h

theorem useExtraBounds_spans_extra (hextra : o.hasExtraBounds = true) (h : o.extra.Spans p) :
    (useExtraBounds o b).2.Spans p := by
  unfold useExtraBounds
  rw [if_pos hextra]
  exact ⟨(min_le_left ..).trans h.left, h.right.trans (le_max_left ..),
    (min_le_left ..).trans h.bottom, h.top.trans (le_max_left ..)⟩

variable (cfg u o) in
theorem resetMaps_extra : (cfg.resetMaps u o).extra = o.extra ∧
    (cfg.resetMaps u o).hasExtraBounds = o.hasExtraBounds := by
  unfold resetMaps
  split
  · exact ⟨rfl, rfl⟩
  · exact ⟨rfl, rfl⟩

variable (cfg s) in
/-- The extra bounds of `ClearCostMap` hold the whole map. -/
theorem clearCostMap_spansMap (x y : Rat) :
    (cfg.clearCostMap x y s).obstacle.hasExtraBounds = true ∧
      cfg.SpansMap (cfg.clearCostMap x y s).obstacle.extra := by
  refine ⟨rfl, fun c hc => ?_⟩
  obtain ⟨h₁, h₂, h₃, h₄⟩ := map2World_between (x := cfg.geometry.sizeX - 1 + 1 / 2)
    (y := cfg.geometry.sizeY - 1 + 1 / 2) hc (by linarith) (by linarith)
  have hlow : ∀ origin : Rat, origin ≤ origin + ((0 : Nat) + 1 / 2) * cfg.geometry.resolution :=
    fun origin => le_add_of_nonneg_right (by have := cfg.geometry.resolution_pos; positivity)
  exact ⟨(min_le_left ..).trans ((hlow _).trans h₁), h₂.trans (le_max_left ..),
    (min_le_left ..).trans ((hlow _).trans h₃), h₄.trans (le_max_left ..)⟩

/-! ## Runs -/

/-- Extra bounds hold the whole map, and nothing else is outstanding. -/
structure LayersInv (cfg : LayersConfig) (s : CostmapLayers) : Prop where
  extra : s.obstacle.hasExtraBounds = true → cfg.SpansMap s.obstacle.extra
  consistent : s.hasUpdatedData = false → s.obstacle.hasExtraBounds = false → cfg.Consistent s

/-- An update of the whole map reports every cell. -/
theorem LayersInv.updateBounds_covers (h : cfg.LayersInv s) (hc : cfg.InMap c)
    (hfull : s.hasUpdatedData = true ∨ s.obstacle.hasExtraBounds = true) :
    (cfg.updateBounds hypot u s).2.Covers cfg.geometry c := by
  have hmap := world2Map_map2World hc
  refine ⟨[c], fun v hv => ?_, Hull.of_mem List.mem_cons_self⟩
  rw [List.mem_singleton.mp hv]
  refine ⟨cfg.geometry.map2World c.1 c.2, hmap, updateBounds_spans hmap (Or.inl ?_)⟩
  obtain ⟨hextra, hhas⟩ := resetMaps_extra cfg u s.obstacle
  rcases hfull with hstatic | hfull
  · rw [hstatic]
    exact useExtraBounds_spans (staticUpdateBounds_spansMap c hc)
  · refine useExtraBounds_spans_extra (hhas.trans hfull) ?_
    rw [hextra]
    exact h.extra hfull c hc

/-- What an update leaves of the members of the layers. -/
theorem updateBounds_fields :
    (cfg.updateBounds hypot u s).1.masterGrid = s.masterGrid ∧
    (cfg.updateBounds hypot u s).1.hasUpdatedData = false ∧
    (cfg.updateBounds hypot u s).1.obstacle.hasExtraBounds = false ∧
    ∃ b, (cfg.updateBounds hypot u s).1.obstacle =
      (cfg.obstacleUpdateBounds hypot u s.obstacle b).1 := by
  have hextra : ∀ b,
      (cfg.obstacleUpdateBounds hypot u s.obstacle b).1.hasExtraBounds = false := by
    intro b
    have huse : ∀ o : ObstacleLayer, (useExtraBounds o b).1.hasExtraBounds = false := by
      intro o
      unfold useExtraBounds
      split
      case isTrue => rfl
      case isFalse h => exact Bool.not_eq_true _ ▸ h
    unfold obstacleUpdateBounds updateFootprint
    dsimp only
    split
    · exact huse _
    · exact huse _
  unfold updateBounds
  dsimp only
  cases cfg.inflation with
  | none => exact ⟨rfl, rfl, hextra _, _, rfl⟩
  | some q => exact ⟨rfl, rfl, hextra _, _, rfl⟩

variable (cfg hypot exp u s) in
/-- Without a window an update only changes the layers, and otherwise it rebuilds the window. -/
theorem updateMap_cases :
    ((∀ c, ¬ (cfg.updateBounds hypot u s).2.Covers cfg.geometry c) ∧
      cfg.updateMap hypot exp u s = (cfg.updateBounds hypot u s).1) ∨
    ∃ x0 y0 xn yn : Int, xn ≤ cfg.geometry.sizeX ∧
      (∀ c, (cfg.updateBounds hypot u s).2.Covers cfg.geometry c → c ∈ window x0 y0 xn yn) ∧
      cfg.updateMap hypot exp u s =
        cfg.updateCosts hypot exp x0 y0 xn yn (cfg.updateBounds hypot u s).1 := by
  unfold updateMap
  dsimp only
  split
  case isTrue hempty =>
    refine Or.inl ⟨fun c hcovers => ?_, rfl⟩
    have hmem := hcovers.mem_window
    rw [mem_window] at hmem
    omega
  case isFalse =>
    exact Or.inr ⟨_, _, _, _, min_le_left .., fun c hcovers => hcovers.mem_window, rfl⟩

/-- An update takes up what is outstanding. -/
theorem updateMap_fields : (cfg.updateMap hypot exp u s).hasUpdatedData = false ∧
    (cfg.updateMap hypot exp u s).obstacle.hasExtraBounds = false := by
  obtain ⟨-, hdata, hextra, -⟩ := @updateBounds_fields cfg hypot u s
  rcases updateMap_cases cfg hypot exp u s with
    ⟨-, heq⟩ | ⟨x0, y0, xn, yn, -, -, heq⟩
  · rw [heq]
    exact ⟨hdata, hextra⟩
  · rw [heq]
    refine ⟨hdata, ?_⟩
    show (cfg.clearFootprint hypot (cfg.updateBounds hypot u s).1.obstacle).hasExtraBounds = false
    unfold clearFootprint
    split
    · exact hextra
    · exact hextra

/-- After an update that reports what it clears, the master grid agrees with the layers. -/
theorem LayersInv.updateMap_consistent (hexp : ∀ x ≤ 0, exp x ≤ 1) (h : cfg.LayersInv s)
    (hreported : cfg.Reported hypot s (.updateMap u)) :
    cfg.Consistent (cfg.updateMap hypot exp u s) := by
  obtain ⟨hmaster, -, -, b, hobstacle⟩ := @updateBounds_fields cfg hypot u s
  -- a cell that is not reported is as it was before
  have hkept : ∀ c, cfg.InMap c → ¬ (cfg.updateBounds hypot u s).2.Covers cfg.geometry c →
      (s.masterGrid (cfg.geometry.getIndex c.1 c.2) = LETHAL_OBSTACLE ↔
        cfg.staticCostmap (cfg.geometry.getIndex c.1 c.2) = LETHAL_OBSTACLE ∨
          cfg.MarkedIn (cfg.updateBounds hypot u s).1.obstacle c) ∧
      (cfg.MarkedIn (cfg.clearFootprint hypot (cfg.updateBounds hypot u s).1.obstacle) c ↔
        cfg.MarkedIn (cfg.updateBounds hypot u s).1.obstacle c) := by
    intro c hc hcovers
    have hout : ¬ Hull (cfg.touchedCells hypot u) c := fun hhull =>
      hcovers (LayersConfig.updateBounds_covers hhull)
    have hfull := fun hfull => hcovers (h.updateBounds_covers hc hfull)
    simp only [not_or, Bool.not_eq_true, imp_false] at hfull
    have hclears := (hreported.resolve_left (by rw [hfull.1]; decide)).resolve_left
      (by rw [hfull.2]; decide)
    rw [hobstacle]
    refine ⟨?_, clearFootprint_marked hc hout⟩
    rw [obstacleUpdateBounds_marked hc (hclears c hc) hout]
    exact h.consistent hfull.1 hfull.2 c hc
  intro c hc
  rcases updateMap_cases cfg hypot exp u s with
    ⟨hnone, heq⟩ | ⟨x0, y0, xn, yn, hxn, hwindow, heq⟩
  · rw [heq, hmaster]
    exact (hkept c hc (hnone c)).1
  · rw [heq, updateCosts_eq_lethal hexp hxn hc]
    show _ ↔ _ ∨ cfg.MarkedIn (cfg.clearFootprint hypot (cfg.updateBounds hypot u s).1.obstacle) c
    by_cases hmem : c ∈ window x0 y0 xn yn
    · rw [if_pos hmem]
      rfl
    · obtain ⟨hold, hfootprint⟩ := hkept c hc fun hcovers => hmem (hwindow c hcovers)
      rw [if_neg hmem, hmaster, hfootprint]
      exact hold

/-- A call that reports what it clears keeps the invariant. -/
theorem LayersInv.step (hexp : ∀ x ≤ 0, exp x ≤ 1) (h : cfg.LayersInv s) {e : LayersEvent}
    (hreported : cfg.Reported hypot s e) {s' : CostmapLayers}
    (hstep : cfg.step hypot exp s e = some s') : cfg.LayersInv s' := by
  cases e with
  | updateMap u =>
      cases hstep
      exact ⟨fun hextra => absurd (updateMap_fields.2.symm.trans hextra) Bool.false_ne_true,
        fun _ _ => h.updateMap_consistent hexp hreported⟩
  | clearCostMap x y =>
      cases hstep
      obtain ⟨hhas, hspans⟩ := clearCostMap_spansMap cfg s x y
      exact ⟨fun _ => hspans, fun _ hfalse => absurd (hfalse.symm.trans hhas) Bool.false_ne_true⟩

theorem initial_inv (resetTime : Int) : cfg.LayersInv (cfg.initial resetTime) :=
  ⟨fun h => absurd h Bool.false_ne_true, fun h => absurd h.symm Bool.false_ne_true⟩

/-- In every run whose updates report what they clear, the master grid agrees with the layers after
each update. -/
theorem run_consistent (cfg : LayersConfig) (hypot : Rat → Rat → Rat) (exp : Rat → Rat)
    (hexp : ∀ x ≤ 0, exp x ≤ 1) (resetTime : Int) (events : List LayersEvent) (u : Update)
    (s : CostmapLayers)
    (hok : StateMachine.Along (cfg.step hypot exp) (cfg.Reported hypot) (cfg.initial resetTime)
      (events ++ [.updateMap u]))
    (hrun : StateMachine.run (cfg.step hypot exp) (cfg.initial resetTime)
      (events ++ [.updateMap u]) = some s) :
    cfg.Consistent s := by
  have hinv : cfg.LayersInv s :=
    StateMachine.run_invariant_of (fun _ _ _ h hreported hstep => h.step hexp hreported hstep)
      (initial_inv resetTime) hok hrun
  obtain ⟨s', -, hlast⟩ := StateMachine.run_concat_eq_some.mp hrun
  cases hlast
  exact hinv.consistent updateMap_fields.1 updateMap_fields.2

/-- A map of three by three cells of one metre, with an empty static layer. -/
def smallMap : LayersConfig where
  geometry := ⟨3, 3, 1, 0, 0, unitResolution_pos⟩
  trackUnknown := false
  staticCostmap _ := FREE_SPACE
  useMaximum := true
  footprint := []
  footprintClearingEnabled := false
  maxObstacleHeight := 2
  inflation := none
  le_origin := by decide +kernel
  end_le := by decide +kernel
  size_lt := by decide

/-- An update of a robot at the origin, at a reading of the clock. -/
def updateAt (now : Int) (marking clearing : List Observation) : Update :=
  ⟨0, 0, 1, 0, marking, clearing, now, now⟩

/-- A sensor in the first cell that sees an obstacle at a point. -/
def sighting (x y : Rat) : Observation :=
  ⟨1 / 2, 1 / 2, 0, [(x, y, 0)], 5, 5⟩

/-- One second after an obstacle was seen a ray ends there, and clears it. -/
theorem run_consistent_cleared :
    ∃ s, StateMachine.run (smallMap.step (fun x y => |x| + |y|) fun _ => 1) (smallMap.initial 0)
        ([.updateMap (updateAt 0 [sighting (5 / 2) (1 / 2)] [])] ++
          [.updateMap (updateAt (10 ^ 9) [] [sighting (5 / 2) (1 / 2)])]) = some s ∧
      smallMap.Consistent s := by
  refine ⟨_, rfl, run_consistent smallMap (fun x y => |x| + |y|) (fun _ => 1) (fun _ _ => le_refl 1)
    0 [.updateMap (updateAt 0 [sighting (5 / 2) (1 / 2)] [])]
    (updateAt (10 ^ 9) [] [sighting (5 / 2) (1 / 2)]) _ ⟨Or.inl rfl, ?_, trivial⟩ rfl⟩
  right
  right
  rintro ⟨x, y⟩ ⟨hx, hy⟩ hmarked -
  have hcells : ∀ x < 3, ∀ y < 3,
      (smallMap.updateMap (fun x y => |x| + |y|) (fun _ => 1)
        (updateAt 0 [sighting (5 / 2) (1 / 2)] []) (smallMap.initial 0)).obstacle.costmap
          (y * 3 + x) = LETHAL_OBSTACLE → x = 2 ∧ y = 0 := by
    decide +kernel
  obtain ⟨rfl, rfl⟩ := hcells x hx y hy hmarked
  exact Hull.of_mem (by decide +kernel)

/-- Three seconds after an obstacle was seen the obstacle layer is reset, and the master grid keeps
the obstacle. -/
theorem run_inconsistent :
    ¬ ∀ (cfg : LayersConfig) (hypot : Rat → Rat → Rat) (exp : Rat → Rat),
      (∀ x ≤ 0, exp x ≤ 1) → ∀ (resetTime : Int) (events : List LayersEvent) (u : Update)
      (s : CostmapLayers),
      StateMachine.run (cfg.step hypot exp) (cfg.initial resetTime) (events ++ [.updateMap u]) =
        some s → cfg.Consistent s := by
  intro hall
  have hcell := hall smallMap (fun x y => |x| + |y|) (fun _ => 1) (fun _ _ => le_refl 1) 0
    [.updateMap (updateAt 0 [sighting (5 / 2) (5 / 2)] [])] (updateAt (3 * 10 ^ 9) [] []) _ rfl
    (2, 2) ⟨by decide, by decide⟩
  unfold MarkedIn at hcell
  exact absurd hcell (by decide +kernel)

end LayersConfig

end RoboRTS.Costmap
