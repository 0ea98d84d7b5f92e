import RoboRTS.Costmap.CostmapLayers.Consistency
import RoboRTS.Lib.Since

/-!
# The obstacles of the obstacle layer

Which cells the obstacle layer holds as lethal. An update marks the cells of the points it is given
and clears the cells on its rays and in the footprint of the robot; a reset and `ClearCostMap` clear
more. `run_marked_iff` says what is left of that after a run: a cell is lethal exactly when an update
has marked it and nothing has cleared it since.
-/

namespace RoboRTS.Costmap

open NearestSite
open StateMachine (Since)

namespace LayersConfig

variable (cfg : LayersConfig) (hypot : Rat → Rat → Rat) (exp : Rat → Rat)

/-- A point of the update marks the cell. -/
def Marks (u : Update) (c : Cell) : Prop :=
  ∃ obs ∈ u.marking, ∃ p ∈ obs.cloud, cfg.markedCell obs p = some c

/-- The footprint is cleared, lies in the map, and covers the cell. -/
def FootprintCovers (u : Update) (c : Cell) : Prop :=
  cfg.footprintClearingEnabled = true ∧
    ∃ vs, (cfg.transformFootprint u).mapM (fun (x, y) => cfg.geometry.world2Map x y) = some vs ∧
      c ∈ cfg.geometry.fillConvexCells hypot vs

/-- The cell is in the window around the robot that `ClearCostMap` keeps. -/
def KeptAround (poseX poseY : Rat) (c : Cell) : Prop :=
  let start := cfg.geometry.world2MapNoBoundary (poseX - 1 / 10 / 2) (poseY - 1 / 10 / 2)
  let stop := cfg.geometry.world2MapNoBoundary (poseX - 1 / 10 / 2 + 1 / 10)
    (poseY - 1 / 10 / 2 + 1 / 10)
  (start.1 < c.1 ∧ (c.1 : Int) < stop.1) ∧ start.2 < c.2 ∧ (c.2 : Int) < stop.2

instance (poseX poseY : Rat) (c : Cell) : Decidable (cfg.KeptAround poseX poseY c) :=
  inferInstanceAs (Decidable (_ ∧ _))

/-- A call that leaves the cell lethal, whatever it was. -/
def SetsLethal (c : Cell) : LayersEvent → Prop
  | .updateMap u => cfg.Marks u c ∧ ¬ cfg.FootprintCovers hypot u c
  | .clearCostMap _ _ => False

/-- A call that clears the cell unless it marks it again. -/
def ClearsLethal (c : Cell) (s : CostmapLayers) : LayersEvent → Prop
  | .updateMap u =>
      ResetDue u s.obstacle ∨ cfg.Cleared hypot u c ∨ cfg.FootprintCovers hypot u c
  | .clearCostMap x y => ¬ cfg.KeptAround x y c

variable {cfg hypot exp} {u : Update} {o : ObstacleLayer} {s : CostmapLayers} {c : Cell}
  {b : Bounds}

/-! ## One update -/

theorem markCells_ne_lethal_iff {i : Nat} (offsets : List Int) (costmap : Nat → UInt8) :
    markCells FREE_SPACE offsets costmap i ≠ LETHAL_OBSTACLE ↔
      (∃ offset ∈ offsets, i = offset.toNat) ∨ costmap i ≠ LETHAL_OBSTACLE := by
  refine StateMachine.foldl_sets (P := fun m : Nat → UInt8 => m i ≠ LETHAL_OBSTACLE) offsets
    (fun m offset _ => ?_) costmap
  by_cases heq : i = offset.toNat
  · subst heq
    rw [Function.update_self]
    exact iff_of_true (by decide) (Or.inl rfl)
  · rw [Function.update_of_ne heq, or_iff_right heq]

variable (cfg hypot) in
/-- Ray clearing clears the cells that a ray visits. -/
theorem raytraceFreespace_ne_lethal_iff (obs : Observation) (m : (Nat → UInt8) × Bounds) {i : Nat} :
    (cfg.raytraceFreespace hypot obs m).1 i ≠ LETHAL_OBSTACLE ↔
      (∃ ray ∈ cfg.rays hypot obs, (i : Int) ∈ ray.1) ∨ m.1 i ≠ LETHAL_OBSTACLE := by
  unfold raytraceFreespace
  by_cases horigin : (cfg.geometry.world2Map obs.originX obs.originY).isSome
  · rw [if_pos horigin]
    refine StateMachine.foldl_sets (P := fun m : (Nat → UInt8) × Bounds => m.1 i ≠ LETHAL_OBSTACLE)
      (cfg.rays hypot obs) (fun m ray hray => ?_) _
    refine (markCells_ne_lethal_iff ray.1 m.1).trans (or_congr_left ⟨?_, fun hmem => ?_⟩)
    · rintro ⟨offset, hoffset, rfl⟩
      rw [natCast_toNat_of_mem_rays hray hoffset]
      exact hoffset
    · exact ⟨(i : Int), hmem, (Int.toNat_natCast i).symm⟩
  · -- a sensor outside of the map clears nothing
    have hrays : cfg.rays hypot obs = [] := by
      rw [Bool.not_eq_true, Option.isSome_eq_false_iff, Option.isNone_iff_eq_none] at horigin
      unfold rays
      rw [horigin]
    rw [if_neg horigin, hrays]
    simp

/-- Marking makes the cells of the points lethal. -/
theorem markObstacles_lethal_iff (hc : cfg.InMap c) (obs : Observation)
    (m : (Nat → UInt8) × Bounds) :
    (cfg.markObstacles obs m).1 (cfg.geometry.getIndex c.1 c.2) = LETHAL_OBSTACLE ↔
      (∃ p ∈ obs.cloud, cfg.markedCell obs p = some c) ∨
        m.1 (cfg.geometry.getIndex c.1 c.2) = LETHAL_OBSTACLE := by
  refine StateMachine.foldl_sets (P := fun m : (Nat → UInt8) × Bounds =>
    m.1 (cfg.geometry.getIndex c.1 c.2) = LETHAL_OBSTACLE) obs.cloud (fun m p _ => ?_) m
  cases hmark : cfg.markedCell obs p with
  | none => simp
  | some d =>
      have hd := (world2Map_eq_some (world2Map_of_markedCell hmark)).1.2.2
      by_cases heq : d = c
      · subst heq
        dsimp only
        rw [Function.update_self]
        exact iff_of_true rfl (Or.inl rfl)
      · dsimp only
        rw [Function.update_of_ne fun h => heq (Geometry.getIndex_inj hc.1 hd h).symm]
        simp [heq]

/-- What an update marks and clears before the footprint. -/
theorem obstacleUpdateBounds_marked_iff (hc : cfg.InMap c) :
    cfg.MarkedIn (cfg.obstacleUpdateBounds hypot u o b).1 c ↔
      cfg.Marks u c ∨ cfg.MarkedIn o c ∧ ¬ (ResetDue u o ∨ cfg.Cleared hypot u c) := by
  obtain ⟨b', hcostmap⟩ := @obstacleUpdateBounds_costmap b cfg hypot u o
  have hmarking := StateMachine.foldl_sets (P := fun m : (Nat → UInt8) × Bounds =>
    m.1 (cfg.geometry.getIndex c.1 c.2) = LETHAL_OBSTACLE) u.marking
    (fun m obs _ => markObstacles_lethal_iff hc obs m)
  have hclearing := StateMachine.foldl_sets (P := fun m : (Nat → UInt8) × Bounds =>
    m.1 (cfg.geometry.getIndex c.1 c.2) ≠ LETHAL_OBSTACLE) u.clearing
    (fun m obs _ => raytraceFreespace_ne_lethal_iff cfg hypot obs m) ((cfg.resetMaps u o).costmap, b')
  have hreset : (cfg.resetMaps u o).costmap (cfg.geometry.getIndex c.1 c.2) = LETHAL_OBSTACLE ↔
      cfg.MarkedIn o c ∧ ¬ ResetDue u o := by
    by_cases hdue : ResetDue u o
    · have hgrid : (cfg.resetMaps u o).costmap = fun _ => cfg.defaultValue :=
        congrArg ObstacleLayer.costmap (if_pos hdue)
      rw [hgrid]
      exact iff_of_false defaultValue_ne fun h => h.2 hdue
    · rw [resetMaps_eq hdue]
      exact (and_iff_left hdue).symm
  have hkept := not_congr hclearing
  rw [not_or, not_not, not_not, hreset] at hkept
  unfold MarkedIn
  rw [hcostmap, hmarking, hkept, not_or]
  exact or_congr_right ⟨fun h => ⟨h.2.1, h.2.2, h.1⟩, fun h => ⟨h.2.2, h.1, h.2.1⟩⟩

/-- Clearing the footprint clears the cells that it covers. -/
theorem clearFootprint_marked_iff (hc : cfg.InMap c) :
    cfg.MarkedIn (cfg.clearFootprint hypot (cfg.obstacleUpdateBounds hypot u o b).1) c ↔
      cfg.MarkedIn (cfg.obstacleUpdateBounds hypot u o b).1 c ∧ ¬ cfg.FootprintCovers hypot u c := by
  unfold clearFootprint
  by_cases henabled : cfg.footprintClearingEnabled = true
  · have hfootprint : (cfg.obstacleUpdateBounds hypot u o b).1.transformedFootprint =
        cfg.transformFootprint u := by
      unfold obstacleUpdateBounds updateFootprint
      dsimp only
      rw [if_pos henabled]
    rw [if_pos henabled, hfootprint]
    unfold MarkedIn FootprintCovers Geometry.setConvexRegionCost
    dsimp only
    cases hmap : (cfg.transformFootprint u).mapM fun (x, y) => cfg.geometry.world2Map x y with
    | none => simp
    | some vs =>
        have hcells : ∀ d ∈ cfg.geometry.fillConvexCells hypot vs, d.1 < cfg.geometry.sizeX := by
          intro d hd
          have hlt : ∀ v ∈ vs, v.1 < cfg.geometry.sizeX := by
            intro v hv
            obtain ⟨p, -, hp⟩ := mapM_eq_some hmap v hv
            exact (world2Map_eq_some hp).1.2.2
          obtain ⟨v, hv, hle⟩ := (hull_fillConvexCells hlt hd).right
          exact Nat.lt_of_le_of_lt hle (hlt v hv)
        dsimp only
        rw [foldl_update_eq (fun _ => FREE_SPACE) hcells hc.1]
        by_cases hmem : c ∈ cfg.geometry.fillConvexCells hypot vs
        · rw [if_pos hmem]
          exact iff_of_false (by decide) fun h => h.2 ⟨henabled, vs, rfl, hmem⟩
        · rw [if_neg hmem]
          refine (and_iff_left ?_).symm
          rintro ⟨-, vs', heq, hmem'⟩
          obtain rfl := Option.some.inj heq
          exact hmem hmem'
  · rw [if_neg henabled]
    exact (and_iff_left fun h => henabled h.1).symm

/-- A footprint that covers a cell is reported. -/
theorem FootprintCovers.hull (h : cfg.FootprintCovers hypot u c) :
    Hull (cfg.touchedCells hypot u) c := by
  obtain ⟨henabled, vs, hmap, hmem⟩ := h
  have hvs := mapM_eq_some hmap
  have hlt : ∀ v ∈ vs, v.1 < cfg.geometry.sizeX := by
    intro v hv
    obtain ⟨p, -, hp⟩ := hvs v hv
    exact (world2Map_eq_some hp).1.2.2
  refine (hull_fillConvexCells hlt hmem).trans fun v hv => Hull.of_mem ?_
  obtain ⟨p, hp, hcell⟩ := hvs v hv
  refine List.mem_filterMap.mpr ⟨p, ?_, hcell⟩
  refine List.mem_append_right _ (List.mem_append_right _ ?_)
  rw [if_pos henabled]
  exact hp

/-- What an update leaves lethal in the obstacle layer. -/
theorem updateMap_marked_iff (hc : cfg.InMap c) :
    cfg.MarkedIn (cfg.updateMap hypot exp u s).obstacle c ↔
      (cfg.Marks u c ∨ cfg.MarkedIn s.obstacle c ∧
        ¬ (ResetDue u s.obstacle ∨ cfg.Cleared hypot u c)) ∧
      ¬ cfg.FootprintCovers hypot u c := by
  obtain ⟨-, -, -, b, hobstacle⟩ := @updateBounds_fields cfg hypot u s
  rcases updateMap_cases cfg hypot exp u s with
    ⟨hnone, heq⟩ | ⟨x0, y0, xn, yn, -, -, heq⟩
  · -- nothing is reported, so the footprint covers no cell
    have hout : ¬ cfg.FootprintCovers hypot u c := fun h => hnone c (updateBounds_covers h.hull)
    rw [heq, hobstacle, obstacleUpdateBounds_marked_iff hc, and_iff_left hout]
  · rw [heq]
    show cfg.MarkedIn (cfg.clearFootprint hypot (cfg.updateBounds hypot u s).1.obstacle) c ↔ _
    rw [hobstacle, clearFootprint_marked_iff hc, obstacleUpdateBounds_marked_iff hc]

/-- What `ClearCostMap` leaves lethal in the obstacle layer. -/
theorem clearCostMap_marked_iff (hc : cfg.InMap c) (x y : Rat) :
    cfg.MarkedIn (cfg.clearCostMap x y s).obstacle c ↔
      cfg.MarkedIn s.obstacle c ∧ cfg.KeptAround x y c := by
  have hcells : c ∈ window 0 0 cfg.geometry.sizeX cfg.geometry.sizeY := by
    rw [mem_window]
    exact ⟨⟨Nat.zero_le _, hc.1⟩, Nat.zero_le _, hc.2⟩
  have hgrid : (cfg.clearCostMap x y s).obstacle.costmap =
      (window 0 0 cfg.geometry.sizeX cfg.geometry.sizeY).foldl (fun m d =>
        if cfg.KeptAround x y d then m
        else Function.update m (cfg.geometry.getIndex d.1 d.2) NO_INFORMATION)
        s.obstacle.costmap := rfl
  have hloop := StateMachine.foldl_sets (P := fun m : Nat → UInt8 =>
      m (cfg.geometry.getIndex c.1 c.2) ≠ LETHAL_OBSTACLE)
    (window 0 0 cfg.geometry.sizeX cfg.geometry.sizeY)
    (f := fun m d => if cfg.KeptAround x y d then m
      else Function.update m (cfg.geometry.getIndex d.1 d.2) NO_INFORMATION)
    (fun m d hd => show _ ↔ (d = c ∧ ¬ cfg.KeptAround x y d) ∨ _ from ?_) s.obstacle.costmap
  · rw [← hgrid] at hloop
    have hkept := not_congr hloop
    rw [not_or, not_not, not_not] at hkept
    refine hkept.trans ⟨fun h => ⟨h.2, ?_⟩, fun h => ⟨?_, h.1⟩⟩
    · by_contra hout
      exact h.1 ⟨c, hcells, rfl, hout⟩
    · rintro ⟨d, -, rfl, hout⟩
      exact hout h.2
  · have hdx : d.1 < cfg.geometry.sizeX := (mem_window.mp hd).1.2
    by_cases hkept : cfg.KeptAround x y d
    · rw [if_pos hkept]
      exact (or_iff_right fun h => h.2 hkept).symm
    · rw [if_neg hkept]
      by_cases heq : d = c
      · subst heq
        rw [Function.update_self]
        exact iff_of_true (by decide) (Or.inl ⟨rfl, hkept⟩)
      · rw [Function.update_of_ne fun h => heq (Geometry.getIndex_inj hc.1 hdx h).symm]
        exact (or_iff_right fun h => heq h.1).symm

/-- What a call leaves lethal in the obstacle layer. -/
theorem step_marked_iff (hc : cfg.InMap c) {e : LayersEvent} {s' : CostmapLayers}
    (hstep : cfg.step hypot exp s e = some s') :
    cfg.MarkedIn s'.obstacle c ↔ cfg.SetsLethal hypot c e ∨
      cfg.MarkedIn s.obstacle c ∧ ¬ cfg.ClearsLethal hypot c s e := by
  cases e with
  | updateMap u =>
      obtain rfl := Option.some.inj hstep
      rw [updateMap_marked_iff hc, SetsLethal, ClearsLethal]
      tauto
  | clearCostMap x y =>
      obtain rfl := Option.some.inj hstep
      rw [clearCostMap_marked_iff hc, SetsLethal, ClearsLethal, false_or, not_not]

/-- After any run a cell is lethal in the obstacle layer exactly when a point of some update has
marked it, outside of the footprint that this update clears, and no later call has cleared it: no
reset, no ray and no footprint of an update, and no `ClearCostMap` around another place. -/
theorem run_marked_iff (cfg : LayersConfig) (hypot : Rat → Rat → Rat) (exp : Rat → Rat)
    (resetTime : Int) (events : List LayersEvent) (s : CostmapLayers)
    (hrun : StateMachine.run (cfg.step hypot exp) (cfg.initial resetTime) events = some s)
    (c : Cell) (hc : cfg.InMap c) :
    cfg.MarkedIn s.obstacle c ↔
      Since (cfg.step hypot exp) (fun _ e => cfg.SetsLethal hypot c e) (cfg.ClearsLethal hypot c)
        (cfg.initial resetTime) events := by
  have hstart : ¬ cfg.MarkedIn (cfg.initial resetTime).obstacle c := defaultValue_ne
  exact StateMachine.run_since_iff (P := fun s => cfg.MarkedIn s.obstacle c)
    (fun _ _ _ hstep => step_marked_iff hc hstep) hstart hrun

/-- An obstacle that was seen a second before an update without observations is still marked. -/
theorem run_marked_iff_kept :
    ∃ s, StateMachine.run (smallMap.step (fun x y => |x| + |y|) fun _ => 1) (smallMap.initial 0)
        [.updateMap (updateAt 0 [sighting (5 / 2) (1 / 2)] []),
          .updateMap (updateAt (10 ^ 9) [] [])] = some s ∧
      Since (smallMap.step (fun x y => |x| + |y|) fun _ => 1)
        (fun _ e => smallMap.SetsLethal (fun x y => |x| + |y|) (2, 0) e)
        (smallMap.ClearsLethal (fun x y => |x| + |y|) (2, 0)) (smallMap.initial 0)
        [.updateMap (updateAt 0 [sighting (5 / 2) (1 / 2)] []),
          .updateMap (updateAt (10 ^ 9) [] [])] :=
  ⟨_, rfl, (run_marked_iff smallMap (fun x y => |x| + |y|) (fun _ => 1) 0 _ _ rfl (2, 0)
    ⟨by decide, by decide⟩).mp (by unfold MarkedIn; decide +kernel)⟩

end LayersConfig

end RoboRTS.Costmap
