import RoboRTS.Costmap.CostmapLayers.Consistency
import RoboRTS.Lib.SegmentClip

/-!
# The ends of the clearing rays

`RaytraceFreespace` scales the points of a cloud that lie outside of the map towards the sensor. The
ray goes to where the segment from the sensor to the point leaves the map, up to a millimetre
(`scaleToMap_exit`). It is left out when that place is on the upper edge of an axis along which it
was not scaled, since `World2Map` does not count this edge as part of the map.
-/

namespace RoboRTS.Costmap

open SegmentClip

namespace Geometry

variable (g : Geometry)

/-- The upper end of the map along the x axis. -/
def endX : Rat :=
  g.originX + g.sizeX * g.resolution

/-- The upper end of the map along the y axis. -/
def endY : Rat :=
  g.originY + g.sizeY * g.resolution

/-- The point is on the map or on its edge. -/
def Within (p : Rat × Rat) : Prop :=
  (g.originX ≤ p.1 ∧ p.1 ≤ g.endX) ∧ g.originY ≤ p.2 ∧ p.2 ≤ g.endY

/-- The points on the way from one point to another. -/
def between (o p : Rat × Rat) (t : Rat) : Rat × Rat :=
  (o.1 + t * (p.1 - o.1), o.2 + t * (p.2 - o.2))

/-- `t` is where the way from the sensor to a point leaves the map, or its end. -/
structure Exit (o p : Rat × Rat) (t : Rat) : Prop where
  nonneg : 0 ≤ t
  le_one : t ≤ 1
  within_iff : ∀ t', 0 ≤ t' → t' ≤ 1 → (g.Within (between o p t') ↔ t' ≤ t)

/-- The ray that leaves the map at `t` is left out: it ends at its point, on an upper edge, or leaves
the map in a corner, other than the lowest one, that both axes cut off. -/
def LeftOut (o p : Rat × Rat) (t : Rat) : Prop :=
  (t = 1 ∧ (p.1 = g.endX ∨ p.2 = g.endY)) ∨
    (t < 1 ∧ (between o p t = (g.endX, g.endY) ∨
      (between o p t = (g.endX, g.originY) ∧ p.2 < g.originY) ∨
      (between o p t = (g.originX, g.endY) ∧ p.1 < g.originX)))

variable {g} {o p : Rat × Rat} {t : Rat}

/-- The cell of a coordinate that is not below the map is one of the map when the coordinate is below
the upper end. -/
theorem cell_lt_iff {origin w : Rat} {size : Nat} (h : origin ≤ w) :
    (truncate ((w - origin) / g.resolution)).toNat < size ↔ w < origin + size * g.resolution := by
  have hdiv : 0 ≤ (w - origin) / g.resolution :=
    div_nonneg (sub_nonneg.mpr h) g.resolution_pos.le
  rw [truncate, if_pos hdiv, Int.toNat_lt (Int.floor_nonneg.mpr hdiv), Int.floor_lt,
    div_lt_iff₀ g.resolution_pos, Int.cast_natCast, sub_lt_iff_lt_add']

/-- `World2Map` finds the cells of the points that are below the upper edges. -/
theorem world2Map_isSome_iff {wx wy : Rat} : (g.world2Map wx wy).isSome = true ↔
    (g.originX ≤ wx ∧ wx < g.endX) ∧ g.originY ≤ wy ∧ wy < g.endY := by
  unfold Geometry.world2Map
  by_cases hlow : wx < g.originX ∨ wy < g.originY
  · rw [if_pos hlow]
    refine iff_of_false (by decide) fun h => ?_
    exact hlow.elim (not_lt.mpr h.1.1) (not_lt.mpr h.2.1)
  · rw [if_neg hlow]
    rw [not_or, not_lt, not_lt] at hlow
    dsimp only
    split
    · next hin =>
        rw [cell_lt_iff hlow.1, cell_lt_iff hlow.2] at hin
        exact iff_of_true rfl ⟨⟨hlow.1, hin.1⟩, hlow.2, hin.2⟩
    · next hin =>
        rw [cell_lt_iff hlow.1, cell_lt_iff hlow.2] at hin
        exact iff_of_false (by decide) fun h => hin ⟨h.1.2, h.2.2⟩

end Geometry

namespace LayersConfig

open RoboRTS.Costmap.Geometry (between Exit)

variable {cfg : LayersConfig} {ox oy px py : Rat}

/-! ## The four scalings -/

/-- The way is clipped at the lower end of the map along one axis. -/
theorem scale_low {lo o d s : Rat} (ho : lo ≤ o) (hs : 0 ≤ s) (h : o + s * d < lo) :
    (lo - o) / d = clip (-lo) (-o) (-d) s ∧ o + clip (-lo) (-o) (-d) s * d = lo := by
  have hpass : -lo < -o + s * -d := by linarith
  have hat := at_clip (neg_le_neg ho) hs hpass
  refine ⟨?_, by linarith⟩
  rw [clip_of_lt hpass, ← neg_sub_neg, ← neg_div_neg_eq]
  congr 1
  ring

/-- The parameters of the point after each of the scalings. -/
def lowX (cfg : LayersConfig) (o p : Rat × Rat) : Rat :=
  clip (-cfg.geometry.originX) (-o.1) (-(p.1 - o.1)) 1

def lowY (cfg : LayersConfig) (o p : Rat × Rat) : Rat :=
  clip (-cfg.geometry.originY) (-o.2) (-(p.2 - o.2)) (cfg.lowX o p)

def highX (cfg : LayersConfig) (o p : Rat × Rat) : Rat :=
  clip cfg.geometry.endX o.1 (p.1 - o.1) (cfg.lowY o p)

def highY (cfg : LayersConfig) (o p : Rat × Rat) : Rat :=
  clip cfg.geometry.endY o.2 (p.2 - o.2) (cfg.highX o p)

/-- A sensor on the map. -/
structure OnMap (g : Geometry) (o : Rat × Rat) : Prop where
  low_x : g.originX ≤ o.1
  lt_x : o.1 < g.endX
  low_y : g.originY ≤ o.2
  lt_y : o.2 < g.endY

variable {o p : Rat × Rat}

theorem OnMap.params (h : OnMap cfg.geometry o) : 0 ≤ cfg.highY o p ∧
    cfg.highY o p ≤ cfg.highX o p ∧ cfg.highX o p ≤ cfg.lowY o p ∧
    cfg.lowY o p ≤ cfg.lowX o p ∧ cfg.lowX o p ≤ 1 := by
  have h1 : 0 ≤ cfg.lowX o p := clip_nonneg (neg_le_neg h.low_x) zero_le_one
  have h2 : 0 ≤ cfg.lowY o p := clip_nonneg (neg_le_neg h.low_y) h1
  have h3 : 0 ≤ cfg.highX o p := clip_nonneg h.lt_x.le h2
  exact ⟨clip_nonneg h.lt_y.le h3, clip_le h.lt_y.le h3, clip_le h.lt_x.le h2,
    clip_le (neg_le_neg h.low_y) h1, clip_le (neg_le_neg h.low_x) zero_le_one⟩

/-- The last parameter is where the way leaves the map. -/
theorem OnMap.exit (h : OnMap cfg.geometry o) : cfg.geometry.Exit o p (cfg.highY o p) := by
  obtain ⟨h0, h43, h32, h21, h1⟩ := h.params (p := p)
  refine ⟨h0, by linarith, fun t ht ht1 => ⟨fun hwithin => ?_, fun hle => ?_⟩⟩
  · have hx : t ≤ cfg.lowX o p := (le_clip_iff (neg_le_neg h.low_x) ht ht1).mpr (by
      have := hwithin.1.1
      dsimp only [between] at this
      linarith)
    have hy : t ≤ cfg.lowY o p := (le_clip_iff (neg_le_neg h.low_y) ht hx).mpr (by
      have := hwithin.2.1
      dsimp only [between] at this
      linarith)
    have hx' : t ≤ cfg.highX o p := (le_clip_iff h.lt_x.le ht hy).mpr hwithin.1.2
    exact (le_clip_iff h.lt_y.le ht hx').mpr hwithin.2.2
  · have hx := (le_clip_iff (neg_le_neg h.low_x) ht ht1).mp (show t ≤ cfg.lowX o p by linarith)
    have hy := (le_clip_iff (neg_le_neg h.low_y) ht (show t ≤ cfg.lowX o p by linarith)).mp
      (show t ≤ cfg.lowY o p by linarith)
    have hx' := (le_clip_iff h.lt_x.le ht (show t ≤ cfg.lowY o p by linarith)).mp
      (show t ≤ cfg.highX o p by linarith)
    have hy' := (le_clip_iff h.lt_y.le ht (show t ≤ cfg.highX o p by linarith)).mp hle
    dsimp only [Geometry.Within, between]
    exact ⟨⟨by linarith, hx'⟩, by linarith, hy'⟩

/-- What the four scalings make of a point. -/
theorem OnMap.scaleToMap_eq (h : OnMap cfg.geometry o) :
    cfg.scaleToMap o.1 o.2 p.1 p.2 =
      if cfg.geometry.endY < (between o p (cfg.highX o p)).2 then
        ((between o p (cfg.highY o p)).1, cfg.geometry.endY - 1 / 1000)
      else (if cfg.geometry.endX < (between o p (cfg.lowY o p)).1 then cfg.geometry.endX - 1 / 1000
        else (between o p (cfg.highX o p)).1, (between o p (cfg.highX o p)).2) := by
  obtain ⟨h0, h43, h32, h21, -⟩ := h.params (p := p)
  have h1 : (if p.1 < cfg.geometry.originX then (cfg.geometry.originX,
      o.2 + (p.2 - o.2) * ((cfg.geometry.originX - o.1) / (p.1 - o.1))) else (p.1, p.2)) =
      between o p (cfg.lowX o p) := by
    by_cases hlow : p.1 < cfg.geometry.originX
    · obtain ⟨hclip, hat⟩ := scale_low (d := p.1 - o.1) h.low_x zero_le_one (by linarith)
      rw [if_pos hlow, hclip, mul_comm]
      exact Prod.ext hat.symm rfl
    · rw [if_neg hlow, lowX, clip_of_le (by linarith), between]
      exact Prod.ext (by ring) (by ring)
  have h2 : (if (between o p (cfg.lowX o p)).2 < cfg.geometry.originY then
      (o.1 + (p.1 - o.1) * ((cfg.geometry.originY - o.2) / (p.2 - o.2)), cfg.geometry.originY)
      else ((between o p (cfg.lowX o p)).1, (between o p (cfg.lowX o p)).2)) =
      between o p (cfg.lowY o p) := by
    by_cases hlow : (between o p (cfg.lowX o p)).2 < cfg.geometry.originY
    · obtain ⟨hclip, hat⟩ := scale_low (d := p.2 - o.2) h.low_y (by linarith) hlow
      rw [if_pos hlow, hclip, mul_comm]
      exact Prod.ext rfl hat.symm
    · have hle : -o.2 + cfg.lowX o p * -(p.2 - o.2) ≤ -cfg.geometry.originY := by
        have := not_lt.mp hlow
        dsimp only [between] at this
        linarith
      rw [if_neg hlow, lowY, clip_of_le hle]
  have h3 : (if (between o p (cfg.lowY o p)).1 > cfg.geometry.endX then
      (cfg.geometry.endX - 1 / 1000,
        o.2 + (p.2 - o.2) * ((cfg.geometry.endX - o.1) / (p.1 - o.1)))
      else ((between o p (cfg.lowY o p)).1, (between o p (cfg.lowY o p)).2)) =
      (if cfg.geometry.endX < (between o p (cfg.lowY o p)).1 then cfg.geometry.endX - 1 / 1000
        else (between o p (cfg.highX o p)).1, (between o p (cfg.highX o p)).2) := by
    by_cases hhigh : cfg.geometry.endX < (between o p (cfg.lowY o p)).1
    · rw [if_pos hhigh, if_pos hhigh, mul_comm, ← clip_of_lt hhigh]
      rfl
    · rw [if_neg hhigh, if_neg hhigh, highX, clip_of_le (not_lt.mp hhigh)]
  have h4 : cfg.geometry.endY < (between o p (cfg.highX o p)).2 →
      o.1 + (p.1 - o.1) * ((cfg.geometry.endY - o.2) / (p.2 - o.2)) =
        (between o p (cfg.highY o p)).1 := by
    intro hhigh
    rw [mul_comm, ← clip_of_lt hhigh]
    rfl
  unfold scaleToMap
  dsimp only
  rw [h1, h2]
  rw [show cfg.geometry.originX + cfg.geometry.sizeX * cfg.geometry.resolution =
    cfg.geometry.endX from rfl, show cfg.geometry.originY + cfg.geometry.sizeY *
      cfg.geometry.resolution = cfg.geometry.endY from rfl, h3]
  by_cases hhigh : cfg.geometry.endY < (between o p (cfg.highX o p)).2
  · rw [if_pos hhigh, if_pos hhigh, h4 hhigh]
  · rw [if_neg hhigh, if_neg hhigh]

/-! ## The rays that are left out -/

theorem OnMap.lowX_cases (h : OnMap cfg.geometry o) :
    (cfg.geometry.originX ≤ p.1 ∧ cfg.lowX o p = 1) ∨ (p.1 < cfg.geometry.originX ∧ p.1 - o.1 < 0 ∧
      (between o p (cfg.lowX o p)).1 = cfg.geometry.originX) := by
  by_cases hlow : p.1 < cfg.geometry.originX
  · have := h.low_x
    exact Or.inr ⟨hlow, by linarith,
      (scale_low (d := p.1 - o.1) h.low_x zero_le_one (by linarith)).2⟩
  · exact Or.inl ⟨not_lt.mp hlow, clip_of_le (by linarith)⟩

theorem OnMap.lowY_cases (h : OnMap cfg.geometry o) : cfg.lowY o p = cfg.lowX o p ∨
    (p.2 < cfg.geometry.originY ∧ p.2 - o.2 < 0 ∧
      (between o p (cfg.lowY o p)).2 = cfg.geometry.originY) := by
  obtain ⟨h0, h43, h32, h21, h1⟩ := h.params (p := p)
  have hlowX : 0 ≤ cfg.lowX o p := by linarith
  by_cases hlow : o.2 + cfg.lowX o p * (p.2 - o.2) < cfg.geometry.originY
  · have hpass : -cfg.geometry.originY < -o.2 + cfg.lowX o p * -(p.2 - o.2) := by linarith
    have hv := pos_of_lt (neg_le_neg h.low_y) hlowX hpass
    have hfull := mul_le_mul_of_nonneg_right h1 hv.le
    exact Or.inr ⟨by linarith, by linarith, (scale_low h.low_y hlowX hlow).2⟩
  · exact Or.inl (clip_of_le (by linarith))

/-- A ray that is cut off at the upper end of the y axis is drawn. -/
theorem OnMap.not_leftOut_of_highY (h : OnMap cfg.geometry o)
    (hhigh : cfg.geometry.endY < (between o p (cfg.highX o p)).2) :
    (between o p (cfg.highY o p)).1 < cfg.geometry.endX ∧
      (between o p (cfg.highY o p)).2 = cfg.geometry.endY ∧
      ¬ cfg.geometry.LeftOut o p (cfg.highY o p) := by
  obtain ⟨h0, h43, h32, h21, h1⟩ := h.params (p := p)
  have hlt : cfg.highY o p < cfg.highX o p := clip_lt h.lt_y.le (by linarith) hhigh
  have hx : (between o p (cfg.highY o p)).1 < cfg.geometry.endX :=
    lt_of_lt_clip h.lt_x h0 hlt ((le_clip_iff h.lt_x.le (by linarith) h32).mp (le_refl _))
  refine ⟨hx, at_clip h.lt_y.le (by linarith) hhigh, ?_⟩
  rintro (⟨hone, -⟩ | ⟨-, hcorner | ⟨hcorner, -⟩ | ⟨hcorner, hlow⟩⟩)
  · linarith
  · exact hx.ne (congrArg Prod.fst hcorner)
  · exact hx.ne (congrArg Prod.fst hcorner)
  · -- the way has left the lower end of the x axis before
    rcases h.lowX_cases (p := p) with ⟨hle, -⟩ | ⟨-, hneg, hat⟩
    · exact absurd hlow (not_lt.mpr hle)
    · have hcut := congrArg Prod.fst hcorner
      dsimp only [between] at hcut hat
      have := mul_lt_mul_of_neg_right (show cfg.highY o p < cfg.lowX o p by linarith) hneg
      linarith

/-- A ray that is only cut off at the upper end of the x axis is left out when that is in a corner. -/
theorem OnMap.leftOut_iff_of_highX (h : OnMap cfg.geometry o)
    (hlow : ¬ cfg.geometry.endY < (between o p (cfg.highX o p)).2)
    (hhigh : cfg.geometry.endX < (between o p (cfg.lowY o p)).1) :
    cfg.highY o p = cfg.highX o p ∧ (between o p (cfg.highX o p)).1 = cfg.geometry.endX ∧
      (cfg.geometry.LeftOut o p (cfg.highX o p) ↔
        (between o p (cfg.highX o p)).2 = cfg.geometry.endY) := by
  obtain ⟨h0, h43, h32, h21, h1⟩ := h.params (p := p)
  have hlt : cfg.highX o p < cfg.lowY o p := clip_lt h.lt_x.le (by linarith) hhigh
  have hx : (between o p (cfg.highX o p)).1 = cfg.geometry.endX :=
    at_clip h.lt_x.le (by linarith) hhigh
  have hsensor := h.low_x.trans_lt h.lt_x
  refine ⟨clip_of_le (not_lt.mp hlow), hx, ⟨?_, fun hy => ?_⟩⟩
  · rintro (⟨hone, -⟩ | ⟨-, hcorner | ⟨hcorner, hbelow⟩ | ⟨hcorner, -⟩⟩)
    · linarith
    · exact congrArg Prod.snd hcorner
    · -- the way has left the lower end of the y axis later
      have hat := congrArg Prod.snd hcorner
      rcases h.lowY_cases (p := p) with hsame | ⟨-, hneg, hcut⟩
      · have := (le_clip_iff (neg_le_neg h.low_y) (show 0 ≤ cfg.lowX o p by linarith)
          (le_refl _)).mp hsame.ge
        have hneg : p.2 - o.2 < 0 := by have := h.low_y; linarith
        have := mul_lt_mul_of_neg_right (show cfg.highX o p < cfg.lowX o p by linarith) hneg
        dsimp only [between] at hat
        linarith
      · have := mul_lt_mul_of_neg_right hlt hneg
        dsimp only [between] at hat hcut
        linarith
    · exact absurd ((congrArg Prod.fst hcorner).symm.trans hx) hsensor.ne
  · exact Or.inr ⟨by linarith, Or.inl (Prod.ext hx hy)⟩

/-- A ray that is not cut off at an upper end is left out when it ends at one. -/
theorem OnMap.leftOut_iff_of_low (h : OnMap cfg.geometry o)
    (hlowY : ¬ cfg.geometry.endY < (between o p (cfg.highX o p)).2)
    (hlowX : ¬ cfg.geometry.endX < (between o p (cfg.lowY o p)).1) :
    cfg.highX o p = cfg.lowY o p ∧ cfg.highY o p = cfg.lowY o p ∧
      (cfg.geometry.LeftOut o p (cfg.lowY o p) ↔
        (between o p (cfg.lowY o p)).1 = cfg.geometry.endX ∨
          (between o p (cfg.lowY o p)).2 = cfg.geometry.endY) := by
  obtain ⟨h0, h43, h32, h21, h1⟩ := h.params (p := p)
  have hsame : cfg.highX o p = cfg.lowY o p := clip_of_le (not_lt.mp hlowX)
  refine ⟨hsame, (clip_of_le (not_lt.mp hlowY)).trans hsame, ?_⟩
  have hend : cfg.lowY o p = 1 → between o p (cfg.lowY o p) = p := by
    intro hone
    rw [hone, between, one_mul, one_mul, add_sub_cancel, add_sub_cancel]
  constructor
  · rintro (⟨hone, hedge⟩ | ⟨-, hcorner | ⟨hcorner, -⟩ | ⟨hcorner, -⟩⟩)
    · rwa [hend hone]
    · exact Or.inl (congrArg Prod.fst hcorner)
    · exact Or.inl (congrArg Prod.fst hcorner)
    · exact Or.inr (congrArg Prod.snd hcorner)
  · intro hedge
    rcases eq_or_lt_of_le (h21.trans h1) with hone | hlt
    · rw [hend hone] at hedge
      exact Or.inl ⟨hone, hedge⟩
    · refine Or.inr ⟨hlt, Or.inr ?_⟩
      -- the way is cut off at a lower end, and not at the upper end of the same axis
      rcases h.lowY_cases (p := p) with hkept | ⟨hbelow, -, hat⟩
      · rcases h.lowX_cases (p := p) with ⟨-, hone⟩ | ⟨hbelow, -, hat⟩
        · linarith
        · rw [← hkept] at hat
          refine Or.inr ⟨Prod.ext hat (hedge.resolve_left fun hx => ?_), hbelow⟩
          exact (h.low_x.trans_lt h.lt_x).ne (hat.symm.trans hx)
      · refine Or.inl ⟨Prod.ext (hedge.resolve_right fun hy => ?_) hat, hbelow⟩
        exact (h.low_y.trans_lt h.lt_y).ne (hat.symm.trans hy)

/-- The end of a clearing ray is where the way from the sensor to the point leaves the map, up to a
millimetre, and the ray is left out exactly when this is the point itself, on an upper edge, or a
corner that both axes cut off. -/
theorem scaleToMap_exit (cfg : LayersConfig) (o p : Rat × Rat)
    (hsensor : (cfg.geometry.world2Map o.1 o.2).isSome = true)
    (hwide : 1 / 1000 ≤ cfg.geometry.sizeX * cfg.geometry.resolution)
    (hhigh : 1 / 1000 ≤ cfg.geometry.sizeY * cfg.geometry.resolution) :
    ∃ t, cfg.geometry.Exit o p t ∧
      ((between o p t).1 - 1 / 1000 ≤ (cfg.scaleToMap o.1 o.2 p.1 p.2).1 ∧
        (cfg.scaleToMap o.1 o.2 p.1 p.2).1 ≤ (between o p t).1) ∧
      ((between o p t).2 - 1 / 1000 ≤ (cfg.scaleToMap o.1 o.2 p.1 p.2).2 ∧
        (cfg.scaleToMap o.1 o.2 p.1 p.2).2 ≤ (between o p t).2) ∧
      ((cfg.geometry.world2Map (cfg.scaleToMap o.1 o.2 p.1 p.2).1
        (cfg.scaleToMap o.1 o.2 p.1 p.2).2).isSome = true ↔ ¬ cfg.geometry.LeftOut o p t) := by
  obtain ⟨⟨hlowX, hltX⟩, hlowY, hltY⟩ := Geometry.world2Map_isSome_iff.mp hsensor
  have h : OnMap cfg.geometry o := ⟨hlowX, hltX, hlowY, hltY⟩
  have hexit := h.exit (p := p)
  have hwithin := (hexit.within_iff _ hexit.nonneg hexit.le_one).mpr (le_refl _)
  obtain ⟨⟨hx, hx'⟩, hy, hy'⟩ := hwithin
  have hendX : cfg.geometry.originX ≤ cfg.geometry.endX - 1 / 1000 := by
    rw [Geometry.endX]
    linarith
  have hendY : cfg.geometry.originY ≤ cfg.geometry.endY - 1 / 1000 := by
    rw [Geometry.endY]
    linarith
  refine ⟨cfg.highY o p, hexit, ?_⟩
  rw [h.scaleToMap_eq, Geometry.world2Map_isSome_iff]
  by_cases hcutY : cfg.geometry.endY < (between o p (cfg.highX o p)).2
  · obtain ⟨hlt, hat, hnot⟩ := h.not_leftOut_of_highY hcutY
    rw [if_pos hcutY]
    dsimp only
    exact ⟨⟨by linarith, le_refl _⟩, ⟨by linarith, by linarith⟩,
      iff_of_true ⟨⟨hx, hlt⟩, hendY, by linarith⟩ hnot⟩
  · rw [if_neg hcutY]
    by_cases hcutX : cfg.geometry.endX < (between o p (cfg.lowY o p)).1
    · obtain ⟨hsame, hat, hiff⟩ := h.leftOut_iff_of_highX hcutY hcutX
      rw [hsame] at hy hy' ⊢
      rw [if_pos hcutX, hiff]
      dsimp only
      refine ⟨⟨by linarith, by linarith⟩, ⟨by linarith, le_refl _⟩, fun hin => ?_, fun hne => ?_⟩
      · exact hin.2.2.ne
      · exact ⟨⟨hendX, by linarith⟩, hy, lt_of_le_of_ne hy' hne⟩
    · obtain ⟨hsameX, hsame, hiff⟩ := h.leftOut_iff_of_low hcutY hcutX
      rw [hsame] at hx hx' hy hy' ⊢
      rw [if_neg hcutX, hiff, hsameX, not_or]
      dsimp only
      refine ⟨⟨by linarith, le_refl _⟩, ⟨by linarith, le_refl _⟩, fun hin => ?_, fun hne => ?_⟩
      · exact ⟨hin.1.2.ne, hin.2.2.ne⟩
      · exact ⟨⟨hx, lt_of_le_of_ne hx' hne.1⟩, hy, lt_of_le_of_ne hy' hne.2⟩

/-- The ray to a point on the right edge of the small map is left out. -/
theorem scaleToMap_exit_edge :
    ∃ t, smallMap.geometry.Exit (1 / 2, 1 / 2) (3, 1 / 2) t ∧
      smallMap.geometry.LeftOut (1 / 2, 1 / 2) (3, 1 / 2) t := by
  obtain ⟨t, hexit, -, -, hiff⟩ := scaleToMap_exit smallMap (1 / 2, 1 / 2) (3, 1 / 2)
    (by decide +kernel) (by decide +kernel) (by decide +kernel)
  refine ⟨t, hexit, ?_⟩
  by_contra hnot
  exact absurd (hiff.mpr hnot) (by decide +kernel)

end LayersConfig

end RoboRTS.Costmap
