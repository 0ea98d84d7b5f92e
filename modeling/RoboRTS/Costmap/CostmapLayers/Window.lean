import RoboRTS.Costmap.CostmapLayers.Defs
import RoboRTS.Costmap.InflationLayer.Lethal
import RoboRTS.Costmap.Regions
import Mathlib.Tactic.Linarith

/-!
# The window of an update

The window that `UpdateMap` rebuilds holds every cell in the bounding box of the cells of points in
the bounds (`Bounds.Covers.mem_window`). In the window the lethal cells of the master grid are those
of the static and of the obstacle layer, and outside they stay (`updateCosts_eq_lethal`).
-/

namespace RoboRTS.Costmap

open NearestSite

/-! ## Bounds and cells -/

/-- The point lies in the bounds. -/
structure Bounds.Spans (b : Bounds) (p : Rat × Rat) : Prop where
  left : b.minX ≤ p.1
  right : p.1 ≤ b.maxX
  bottom : b.minY ≤ p.2
  top : p.2 ≤ b.maxY

/-- The cell lies in the bounding box of the cells of points in the bounds. -/
def Bounds.Covers (g : Geometry) (b : Bounds) (c : Cell) : Prop :=
  ∃ vs, (∀ v ∈ vs, ∃ p : Rat × Rat, g.world2Map p.1 p.2 = some v ∧ b.Spans p) ∧ Hull vs c

variable {g : Geometry} {b : Bounds} {p : Rat × Rat} {c : Cell}

theorem Bounds.spans_touch : (b.touch p.1 p.2).Spans p :=
  ⟨min_le_left .., le_max_left .., min_le_left .., le_max_left ..⟩

theorem Bounds.Spans.touch {x y : Rat} (h : b.Spans p) : (b.touch x y).Spans p :=
  ⟨(min_le_right ..).trans h.left, h.right.trans (le_max_right ..),
    (min_le_right ..).trans h.bottom, h.top.trans (le_max_right ..)⟩

/-- A bound below a point of a cell is not beyond the cell. -/
theorem Geometry.cellWithBoundary_le {origin w q : Rat} {size m : Nat}
    (hm : (m : Int) = ⌊(q - origin) / g.resolution⌋) (hlt : m < size) (h : w ≤ q) :
    g.cellWithBoundary origin size w ≤ m := by
  have hfloor : ⌊(w - origin) / g.resolution⌋ ≤ (m : Int) := by
    rw [hm]
    exact Int.floor_le_floor (div_le_div_of_nonneg_right (by linarith) g.resolution_pos.le)
  unfold Geometry.cellWithBoundary
  by_cases hlow : w < origin
  · rw [if_pos hlow]
    exact Int.natCast_nonneg m
  rw [if_neg hlow]
  by_cases hhigh : w > g.resolution * size + origin
  · have hsize : (size : Int) ≤ ⌊(w - origin) / g.resolution⌋ := by
      rw [Int.le_floor, le_div_iff₀ g.resolution_pos]
      push_cast
      linarith
    omega
  · rw [if_neg hhigh, truncate, if_pos (div_nonneg (by linarith) g.resolution_pos.le)]
    exact hfloor

/-- A bound above a point of a cell is not before the cell. -/
theorem Geometry.le_cellWithBoundary {origin w q : Rat} {size m : Nat} (horigin : origin ≤ q)
    (hm : (m : Int) = ⌊(q - origin) / g.resolution⌋) (hlt : m < size) (h : q ≤ w) :
    (m : Int) ≤ g.cellWithBoundary origin size w := by
  unfold Geometry.cellWithBoundary
  rw [if_neg (by linarith)]
  by_cases hhigh : w > g.resolution * size + origin
  · rw [if_pos hhigh]
    omega
  · rw [if_neg hhigh, truncate, if_pos (div_nonneg (by linarith) g.resolution_pos.le), hm]
    exact Int.floor_le_floor (div_le_div_of_nonneg_right (by linarith) g.resolution_pos.le)

/-- A cell that the bounds cover lies in the window that they make. -/
theorem Bounds.Covers.mem_window (h : b.Covers g c) :
    c ∈ window (max 0 (g.world2MapWithBoundary b.minX b.minY).1)
      (max 0 (g.world2MapWithBoundary b.minX b.minY).2)
      (min g.sizeX ((g.world2MapWithBoundary b.maxX b.maxY).1 + 1))
      (min g.sizeY ((g.world2MapWithBoundary b.maxX b.maxY).2 + 1)) := by
  obtain ⟨vs, hvs, hhull⟩ := h
  have hends : ∀ v ∈ vs,
      ((g.world2MapWithBoundary b.minX b.minY).1 ≤ v.1 ∧
        (v.1 : Int) ≤ (g.world2MapWithBoundary b.maxX b.maxY).1 ∧ v.1 < g.sizeX) ∧
      (g.world2MapWithBoundary b.minX b.minY).2 ≤ v.2 ∧
        (v.2 : Int) ≤ (g.world2MapWithBoundary b.maxX b.maxY).2 ∧ v.2 < g.sizeY := by
    intro v hv
    obtain ⟨p, hp, hspan⟩ := hvs v hv
    obtain ⟨⟨hx, hvx, hltx⟩, hy, hvy, hlty⟩ := world2Map_eq_some hp
    exact ⟨⟨Geometry.cellWithBoundary_le hvx hltx hspan.left,
        Geometry.le_cellWithBoundary hx hvx hltx hspan.right, hltx⟩,
      Geometry.cellWithBoundary_le hvy hlty hspan.bottom,
        Geometry.le_cellWithBoundary hy hvy hlty hspan.top, hlty⟩
  obtain ⟨v₁, hv₁, hleft⟩ := hhull.left
  obtain ⟨v₂, hv₂, hright⟩ := hhull.right
  obtain ⟨v₃, hv₃, hbottom⟩ := hhull.bottom
  obtain ⟨v₄, hv₄, htop⟩ := hhull.top
  have h₁ := (hends v₁ hv₁).1
  have h₂ := (hends v₂ hv₂).1
  have h₃ := (hends v₃ hv₃).2
  have h₄ := (hends v₄ hv₄).2
  rw [RoboRTS.Costmap.mem_window]
  omega

/-! ## The lethal cells of a window -/

namespace LayersConfig

variable {cfg : LayersConfig} {hypot : Rat → Rat → Rat} {exp : Rat → Rat} {cells : List Cell}
  {masterArray costmap : Nat → UInt8} {s : CostmapLayers}

theorem defaultValue_ne : cfg.defaultValue ≠ LETHAL_OBSTACLE := by
  unfold defaultValue
  split
  · decide
  · decide

/-- What `UpdateOverwriteByMax` writes over a cell of the master grid. -/
theorem overwrite_eq_lethal {a m : UInt8} :
    (if a = NO_INFORMATION then m else if m = NO_INFORMATION ∨ m < a then a else m) =
      LETHAL_OBSTACLE ↔ m = LETHAL_OBSTACLE ∨ a = LETHAL_OBSTACLE := by
  simp only [NO_INFORMATION, LETHAL_OBSTACLE, ← UInt8.toNat_inj, UInt8.lt_iff_toNat_lt]
  have ha := a.toNat_lt
  have hm := m.toNat_lt
  by_cases hunknown : a.toNat = (255 : UInt8).toNat
  · rw [if_pos hunknown, hunknown]
    simp
  · rw [if_neg hunknown]
    simp only [UInt8.reduceToNat] at *
    split <;> omega

theorem overwrite_self {a : UInt8} {i : Nat} :
    (if a = NO_INFORMATION then masterArray
        else if masterArray i = NO_INFORMATION ∨ masterArray i < a then
          Function.update masterArray i a
        else masterArray) i =
      if a = NO_INFORMATION then masterArray i
      else if masterArray i = NO_INFORMATION ∨ masterArray i < a then a
      else masterArray i := by
  split
  · rfl
  · split
    · exact Function.update_self ..
    · rfl

/-- `UpdateOverwriteByMax` adds the lethal cells of the layer to those of the master grid. -/
theorem updateOverwriteByMax_eq_lethal (hcells : ∀ d ∈ cells, d.1 < cfg.geometry.sizeX)
    (hc : c.1 < cfg.geometry.sizeX) :
    cfg.updateOverwriteByMax costmap cells masterArray (cfg.geometry.getIndex c.1 c.2) =
        LETHAL_OBSTACLE ↔
      masterArray (cfg.geometry.getIndex c.1 c.2) = LETHAL_OBSTACLE ∨
        (c ∈ cells ∧ costmap (cfg.geometry.getIndex c.1 c.2) = LETHAL_OBSTACLE) := by
  unfold updateOverwriteByMax
  induction cells generalizing masterArray with
  | nil => simp only [List.foldl_nil, List.not_mem_nil, false_and, or_false]
  | cons d cells ih =>
      rw [List.foldl_cons, ih fun e he => hcells e (List.mem_cons_of_mem d he)]
      dsimp only
      by_cases heq : c = d
      · subst heq
        rw [overwrite_self, overwrite_eq_lethal]
        simp only [List.mem_cons_self, true_and]
        tauto
      · have hne := fun h => heq (Geometry.getIndex_inj hc (hcells d List.mem_cons_self) h)
        simp only [List.mem_cons, heq, false_or]
        split
        · rfl
        · split
          · rw [Function.update_of_ne hne]
          · rfl

/-- In the window the static layer puts its own cells on the fresh master grid. -/
theorem staticUpdateCosts_eq_lethal (hcells : ∀ d ∈ cells, d.1 < cfg.geometry.sizeX)
    (hc : c.1 < cfg.geometry.sizeX)
    (hfresh : c ∈ cells → masterArray (cfg.geometry.getIndex c.1 c.2) = cfg.defaultValue) :
    cfg.staticUpdateCosts cells masterArray (cfg.geometry.getIndex c.1 c.2) = LETHAL_OBSTACLE ↔
      if c ∈ cells then cfg.staticCostmap (cfg.geometry.getIndex c.1 c.2) = LETHAL_OBSTACLE
      else masterArray (cfg.geometry.getIndex c.1 c.2) = LETHAL_OBSTACLE := by
  unfold staticUpdateCosts
  split
  · rw [updateOverwriteByMax_eq_lethal hcells hc]
    by_cases hmem : c ∈ cells
    · simp only [hmem, hfresh hmem, defaultValue_ne, false_or, true_and, if_true]
    · simp only [hmem, false_and, or_false, if_false]
  · unfold updateOverwriteByAll
    rw [foldl_update_eq cfg.staticCostmap hcells hc]
    split <;> rfl

/-- Every cost that `ComputeCost` gives away from an obstacle is below that of an obstacle. -/
theorem costsBelow_inflationLayer (hexp : ∀ x ≤ 0, exp x ≤ 1) (q : InflationParameters) :
    (cfg.inflationLayer exp q).CostsBelow := by
  refine ⟨by simp [inflationLayer, computeCost], fun d hd => ?_⟩
  show cfg.computeCost exp q (Nat.sqrt d) < LETHAL_OBSTACLE
  unfold computeCost
  rw [if_neg (Nat.sqrt_pos.mpr hd).ne']
  by_cases hinscribed : (Nat.sqrt d : Rat) * cfg.geometry.resolution ≤ q.inscribedRadius
  · rw [if_pos hinscribed]
    decide
  · rw [if_neg hinscribed]
    dsimp only
    have hweight : q.weight * (Nat.sqrt d * cfg.geometry.resolution - q.inscribedRadius) ≥ 0 :=
      mul_nonneg q.weight_nonneg (by linarith)
    have hfactor := hexp (-1 * q.weight * (Nat.sqrt d * cfg.geometry.resolution - q.inscribedRadius))
      (by linarith)
    -- the factor is at most one, so that the cost of a cell is at most that of the inscribed radius
    generalize exp _ = factor at hfactor
    have hcost : (truncate (252 * factor)).toNat ≤ 252 := by
      unfold truncate
      split
      · have hfloor : ⌊252 * factor⌋ ≤ 252 := by
          rw [Int.floor_le_iff]
          push_cast
          linarith
        omega
      · have hceil : ⌈252 * factor⌉ ≤ 0 := by
          rw [Int.ceil_le]
          push_cast
          linarith
        omega
    show UInt8.ofNat (truncate (252 * factor)).toNat < LETHAL_OBSTACLE
    rw [UInt8.lt_iff_toNat_lt, UInt8.toNat_ofNat']
    show (truncate (252 * factor)).toNat % 256 < 254
    omega

/-- In the window the lethal cells become those of the two layers, outside they stay. -/
theorem updateCosts_eq_lethal (hexp : ∀ x ≤ 0, exp x ≤ 1) {x0 y0 xn yn : Int}
    (hxn : xn ≤ cfg.geometry.sizeX) (hc : c.1 < cfg.geometry.sizeX ∧ c.2 < cfg.geometry.sizeY) :
    (cfg.updateCosts hypot exp x0 y0 xn yn s).masterGrid (cfg.geometry.getIndex c.1 c.2) =
        LETHAL_OBSTACLE ↔
      if c ∈ window x0 y0 xn yn then
        cfg.staticCostmap (cfg.geometry.getIndex c.1 c.2) = LETHAL_OBSTACLE ∨
          (cfg.clearFootprint hypot s.obstacle).costmap (cfg.geometry.getIndex c.1 c.2) =
            LETHAL_OBSTACLE
      else s.masterGrid (cfg.geometry.getIndex c.1 c.2) = LETHAL_OBSTACLE := by
  have hcells : ∀ d ∈ window x0 y0 xn yn, d.1 < cfg.geometry.sizeX := by
    intro d hd
    rw [mem_window] at hd
    omega
  have hlayers : cfg.updateOverwriteByMax (cfg.clearFootprint hypot s.obstacle).costmap
      (window x0 y0 xn yn) (cfg.staticUpdateCosts (window x0 y0 xn yn)
        ((window x0 y0 xn yn).foldl (fun m d =>
          Function.update m (cfg.geometry.getIndex d.1 d.2) cfg.defaultValue) s.masterGrid))
      (cfg.geometry.getIndex c.1 c.2) = LETHAL_OBSTACLE ↔
      if c ∈ window x0 y0 xn yn then
        cfg.staticCostmap (cfg.geometry.getIndex c.1 c.2) = LETHAL_OBSTACLE ∨
          (cfg.clearFootprint hypot s.obstacle).costmap (cfg.geometry.getIndex c.1 c.2) =
            LETHAL_OBSTACLE
      else s.masterGrid (cfg.geometry.getIndex c.1 c.2) = LETHAL_OBSTACLE := by
    -- the master grid is reset in the window before the layers write to it
    have hreset := foldl_update_eq (fun _ => cfg.defaultValue) (m := s.masterGrid) hcells hc.1
    rw [updateOverwriteByMax_eq_lethal hcells hc.1, staticUpdateCosts_eq_lethal hcells hc.1
      fun hmem => hreset.trans (if_pos hmem), hreset]
    by_cases hmem : c ∈ window x0 y0 xn yn
    · simp only [hmem, true_and, if_true]
    · simp only [hmem, false_and, or_false, if_false]
  unfold updateCosts
  dsimp only
  cases cfg.inflation with
  | none => exact hlayers
  | some q =>
      exact (InflationLayer.updateCosts_eq_lethal (costsBelow_inflationLayer hexp q) hc).trans hlayers

end LayersConfig

end RoboRTS.Costmap
