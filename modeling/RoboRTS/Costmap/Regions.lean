import RoboRTS.Costmap.Costmap2D
import Mathlib.Tactic.Common
import Mathlib.Tactic.NormNum
import Mathlib.Tactic.Positivity
import Mathlib.Tactic.Ring

/-!
# The cells of lines and polygons

Every cell that `RaytraceLine` visits lies in the bounding box of the two ends
(`mem_raytraceLine`), and every cell that `FillConvexCells` finds in the bounding box of the polygon
(`hull_fillConvexCells`), whatever the length of the line and the shape of the polygon.
-/

namespace RoboRTS.Costmap

open NearestSite

variable {g : Geometry} {hypot : Rat → Rat → Rat} {c : Cell} {cells polygon : List Cell}

/-- The cell lies in the bounding box of the cells of the list. -/
structure Hull (vs : List Cell) (c : Cell) : Prop where
  left : ∃ v ∈ vs, v.1 ≤ c.1
  right : ∃ v ∈ vs, c.1 ≤ v.1
  bottom : ∃ v ∈ vs, v.2 ≤ c.2
  top : ∃ v ∈ vs, c.2 ≤ v.2

theorem Hull.of_mem (h : c ∈ cells) : Hull cells c :=
  ⟨⟨c, h, Nat.le_refl _⟩, ⟨c, h, Nat.le_refl _⟩, ⟨c, h, Nat.le_refl _⟩, ⟨c, h, Nat.le_refl _⟩⟩

/-- The bounding box of cells in a bounding box lies in it. -/
theorem Hull.trans {vs : List Cell} (h : Hull cells c) (hcells : ∀ d ∈ cells, Hull vs d) :
    Hull vs c := by
  constructor
  case left =>
    obtain ⟨d, hd, hle⟩ := h.left
    obtain ⟨v, hv, hle'⟩ := (hcells d hd).left
    exact ⟨v, hv, hle'.trans hle⟩
  case right =>
    obtain ⟨d, hd, hle⟩ := h.right
    obtain ⟨v, hv, hle'⟩ := (hcells d hd).right
    exact ⟨v, hv, hle.trans hle'⟩
  case bottom =>
    obtain ⟨d, hd, hle⟩ := h.bottom
    obtain ⟨v, hv, hle'⟩ := (hcells d hd).bottom
    exact ⟨v, hv, hle'.trans hle⟩
  case top =>
    obtain ⟨d, hd, hle⟩ := h.top
    obtain ⟨v, hv, hle'⟩ := (hcells d hd).top
    exact ⟨v, hv, hle.trans hle'⟩

/-! ## Indices -/

theorem Geometry.getIndex_inj {a b : Cell} (ha : a.1 < g.sizeX) (hb : b.1 < g.sizeX)
    (h : g.getIndex a.1 a.2 = g.getIndex b.1 b.2) : a = b := by
  rw [Geometry.getIndex, Geometry.getIndex, Nat.add_comm, Nat.add_comm (b.2 * g.sizeX)] at h
  exact eq_of_index ha hb h

theorem Geometry.index2Cells_getIndex {x y : Nat} (h : x < g.sizeX) :
    g.index2Cells (g.getIndex x y) = (x, y) := by
  have hdiv : (y * g.sizeX + x) / g.sizeX = y := by
    rw [Nat.add_comm, Nat.add_mul_div_right _ _ (by omega), Nat.div_eq_of_lt h, Nat.zero_add]
  rw [Geometry.index2Cells, Geometry.getIndex, hdiv, Nat.add_sub_cancel_left]

/-! ## Lines -/

/-- The offset that `Bresenham` visits in each step. -/
theorem bresenham_eq {absDa absDb : Nat} {offsetA offsetB : Int} {n errorB : Nat} {offset : Int}
    (herror : errorB / absDa = 0) (h : n = 0 ∨ (errorB < absDa ∧ absDb ≤ absDa)) :
    bresenham absDa absDb offsetA offsetB n errorB offset =
      (List.range (n + 1)).map fun k : Nat =>
        offset + k * offsetA + ((errorB + k * absDb) / absDa : Nat) * offsetB := by
  have hfirst : offset + (0 : Nat) * offsetA +
      ((errorB + 0 * absDb) / absDa : Nat) * offsetB = offset := by
    rw [Nat.zero_mul, Nat.add_zero, herror, Nat.cast_zero, zero_mul, zero_mul, add_zero, add_zero]
  induction n generalizing errorB offset with
  | zero =>
      rw [List.range_one, List.map_singleton, hfirst, bresenham]
  | succ n ih =>
      obtain ⟨hlt, hle⟩ := h.resolve_left (Nat.succ_ne_zero n)
      have hnext : ∀ {error : Nat} {start : Int}, error < absDa →
          bresenham absDa absDb offsetA offsetB n error start =
            (List.range (n + 1)).map fun k : Nat =>
              start + k * offsetA + ((error + k * absDb) / absDa : Nat) * offsetB := by
        intro error start herror
        refine ih (Nat.div_eq_of_lt herror) (Or.inr ⟨herror, hle⟩) ?_
        rw [Nat.zero_mul, Nat.add_zero, Nat.div_eq_of_lt herror, Nat.cast_zero, zero_mul, zero_mul,
          add_zero, add_zero]
      rw [List.range_succ_eq_map, List.map_cons, List.map_map, hfirst, bresenham]
      by_cases hstep : errorB + absDb ≥ absDa
      · rw [if_pos hstep, hnext (by omega)]
        refine congrArg (offset :: ·) (List.map_congr_left fun k _ => ?_)
        have hdiv : (errorB + (k + 1) * absDb) / absDa =
            (errorB + absDb - absDa + k * absDb) / absDa + 1 := by
          rw [← Nat.add_div_right _ (by omega)]
          congr 1
          rw [Nat.add_one_mul]
          omega
        simp only [Function.comp_apply, Nat.succ_eq_add_one]
        rw [hdiv]
        push_cast
        ring
      · rw [if_neg hstep, hnext (by omega)]
        refine congrArg (offset :: ·) (List.map_congr_left fun k _ => ?_)
        have heq : errorB + (k + 1) * absDb = errorB + absDb + k * absDb := by
          rw [Nat.add_one_mul]
          omega
        simp only [Function.comp_apply, Nat.succ_eq_add_one]
        rw [heq]
        push_cast
        ring

theorem half_div_self (n : Nat) : n / 2 / n = 0 := by
  rcases Nat.eq_zero_or_pos n with rfl | hpos
  · rfl
  · exact Nat.div_eq_of_lt (by omega)

/-- After at most `a` steps, the minor coordinate has moved by at most `b`. -/
theorem minor_le {a b k : Nat} (hk : k ≤ a) :
    (a / 2 + k * b) / a ≤ b := by
  rcases Nat.eq_zero_or_pos a with rfl | hpos
  · rw [Nat.div_zero]
    exact Nat.zero_le _
  · refine Nat.lt_succ_iff.mp ((Nat.div_lt_iff_lt_mul hpos).mpr ?_)
    have hmul : k * b ≤ a * b := Nat.mul_le_mul_right _ hk
    rw [Nat.add_one_mul, Nat.mul_comm b]
    omega

/-- The coordinate that a line has after `k` of the steps between its ends. -/
theorem between_ends {a b k : Nat} (hk : k ≤ ((b : Int) - a).natAbs) :
    ∃ x : Nat, (x : Int) = a + k * sign ((b : Int) - a) ∧ min a b ≤ x ∧ x ≤ max a b := by
  unfold sign
  by_cases h : (b : Int) - a > 0
  · rw [if_pos h]
    exact ⟨a + k, by push_cast; ring, by omega, by omega⟩
  · rw [if_neg h]
    exact ⟨a - k, by omega, by omega, by omega⟩

/-- A line only visits cells in the bounding box of its ends. -/
theorem mem_raytraceLine {x0 y0 x1 y1 maxLength : Nat} {offset : Int}
    (h : offset ∈ g.raytraceLine hypot x0 y0 x1 y1 maxLength) :
    ∃ x y : Nat, offset = g.getIndex x y ∧ Hull [(x0, y0), (x1, y1)] (x, y) := by
  have hull : ∀ {x y : Nat}, min x0 x1 ≤ x → x ≤ max x0 x1 → min y0 y1 ≤ y → y ≤ max y0 y1 →
      Hull [(x0, y0), (x1, y1)] (x, y) := by
    intro x y h1 h2 h3 h4
    constructor <;> simp only [List.mem_cons, List.not_mem_nil, or_false, exists_eq_or_imp,
      exists_eq_left] <;> omega
  unfold Geometry.raytraceLine at h
  dsimp only at h
  by_cases hdominant : ((x1 : Int) - x0).natAbs ≥ ((y1 : Int) - y0).natAbs
  · rw [if_pos hdominant] at h
    generalize hn : min _ ((x1 : Int) - x0).natAbs = n at h
    have hle : n ≤ ((x1 : Int) - x0).natAbs := hn ▸ Nat.min_le_right _ _
    rw [bresenham_eq (half_div_self _) (by omega)] at h
    obtain ⟨k, hk, rfl⟩ := List.mem_map.mp h
    have hk := List.mem_range.mp hk
    obtain ⟨x, hx, hx1, hx2⟩ := between_ends (a := x0) (b := x1) (k := k) (by omega)
    obtain ⟨y, hy, hy1, hy2⟩ := between_ends (a := y0) (b := y1)
      (minor_le (a := ((x1 : Int) - x0).natAbs) (b := ((y1 : Int) - y0).natAbs) (k := k)
        (by omega))
    refine ⟨x, y, ?_, hull hx1 hx2 hy1 hy2⟩
    rw [Geometry.getIndex]
    push_cast
    rw [hx, hy]
    push_cast
    ring
  · rw [if_neg hdominant] at h
    generalize hn : min _ ((y1 : Int) - y0).natAbs = n at h
    have hle : n ≤ ((y1 : Int) - y0).natAbs := hn ▸ Nat.min_le_right _ _
    rw [bresenham_eq (half_div_self _) (by omega)] at h
    obtain ⟨k, hk, rfl⟩ := List.mem_map.mp h
    have hk := List.mem_range.mp hk
    obtain ⟨y, hy, hy1, hy2⟩ := between_ends (a := y0) (b := y1) (k := k) (by omega)
    obtain ⟨x, hx, hx1, hx2⟩ := between_ends (a := x0) (b := x1)
      (minor_le (a := ((y1 : Int) - y0).natAbs) (b := ((x1 : Int) - x0).natAbs) (k := k)
        (by omega))
    refine ⟨x, y, ?_, hull hx1 hx2 hy1 hy2⟩
    rw [Geometry.getIndex]
    push_cast
    rw [hx, hy]
    push_cast
    ring

/-! ## Polygons -/

theorem hull_outlineCells {a b : Cell} (ha : a.1 < g.sizeX) (hb : b.1 < g.sizeX)
    (h : c ∈ g.outlineCells hypot a b) : Hull [a, b] c := by
  obtain ⟨offset, hoffset, rfl⟩ := List.mem_map.mp h
  obtain ⟨x, y, rfl, hhull⟩ := mem_raytraceLine hoffset
  obtain ⟨v, hv, hle⟩ := hhull.right
  have hx : x < g.sizeX := by
    rcases List.mem_cons.mp hv with rfl | hv
    · exact Nat.lt_of_le_of_lt hle ha
    · rw [List.mem_singleton.mp hv] at hle
      exact Nat.lt_of_le_of_lt hle hb
  rw [Int.toNat_natCast, Geometry.index2Cells_getIndex hx]
  exact hhull

/-- The cells of the edges lie in the bounding box of the polygon. -/
theorem hull_getConvexEdge (hpolygon : ∀ v ∈ polygon, v.1 < g.sizeX)
    (h : c ∈ g.getConvexEdge hypot polygon) : Hull polygon c := by
  have hedge : ∀ a b, a ∈ polygon → b ∈ polygon → c ∈ g.outlineCells hypot a b →
      Hull polygon c := by
    intro a b ha hb hc
    refine (hull_outlineCells (hpolygon a ha) (hpolygon b hb) hc).trans fun v hv => ?_
    rcases List.mem_cons.mp hv with rfl | hv
    · exact Hull.of_mem ha
    · rw [List.mem_singleton.mp hv]
      exact Hull.of_mem hb
  unfold Geometry.getConvexEdge at h
  rcases List.mem_append.mp h with hopen | hclosing
  · obtain ⟨⟨a, b⟩, hab, hc⟩ := List.mem_flatMap.mp hopen
    obtain ⟨ha, hb⟩ := List.of_mem_zip hab
    exact hedge a b ha (List.mem_of_mem_drop hb) hc
  · cases hlast : polygon.getLast? with
    | none =>
        rw [hlast] at hclosing
        exact absurd hclosing List.not_mem_nil
    | some last =>
      cases hfirst : polygon.head? with
      | none =>
          rw [hlast, hfirst] at hclosing
          exact absurd hclosing List.not_mem_nil
      | some first =>
          rw [hlast, hfirst] at hclosing
          exact hedge last first (List.mem_of_getLast? hlast) (List.mem_of_head? hfirst) hclosing

/-- Sorting adds no cell. -/
theorem mem_of_mem_sortCells {fuel i : Nat} (h : c ∈ sortCells fuel i cells) : c ∈ cells := by
  induction fuel generalizing i cells with
  | zero => exact h
  | succ fuel ih =>
      unfold sortCells at h
      cases ha : cells[i]? with
      | none =>
          rw [ha] at h
          exact h
      | some a =>
        cases hb : cells[i + 1]? with
        | none =>
            rw [ha, hb] at h
            exact h
        | some b =>
            rw [ha, hb] at h
            dsimp only at h
            by_cases hlt : a.1 > b.1
            · rw [if_pos hlt] at h
              rcases List.mem_or_eq_of_mem_set (ih h) with hmem | rfl
              · rcases List.mem_or_eq_of_mem_set hmem with hmem | rfl
                · exact hmem
                · exact List.mem_of_getElem? hb
              · exact List.mem_of_getElem? ha
            · rw [if_neg hlt] at h
              exact ih h

/-- The ends of a column are cells. -/
theorem columnEnds_mem {x i : Nat} {l : List Cell} {a b : Cell} (ha : a ∈ cells) (hb : b ∈ cells)
    (hrest : ∀ d ∈ l, d ∈ cells) :
    (columnEnds x l i a b).2.1 ∈ cells ∧ (columnEnds x l i a b).2.2 ∈ cells := by
  induction l generalizing i a b with
  | nil => exact ⟨ha, hb⟩
  | cons d l ih =>
      have hd := hrest d List.mem_cons_self
      have htail := fun e he => hrest e (List.mem_cons_of_mem d he)
      unfold columnEnds
      split
      · split
        · exact ih hd hb htail
        · split
          · exact ih ha hd htail
          · exact ih ha hb htail
      · exact ⟨ha, hb⟩

/-- Filling the columns from `x` on stays in the bounding box. -/
theorem hull_fillColumns {vs : List Cell} {n x i : Nat} (hcells : ∀ d ∈ cells, Hull vs d)
    (hleft : ∃ v ∈ vs, v.1 ≤ x) (hright : ∃ v ∈ vs, x + n ≤ v.1 + 1)
    (h : c ∈ fillColumns n x i cells) : Hull vs c := by
  induction n generalizing x i cells with
  | zero => exact hcells c h
  | succ n ih =>
      unfold fillColumns at h
      cases ha : cells[i]? with
      | none =>
          rw [ha] at h
          exact hcells c h
      | some a =>
        cases hb : cells[i + 1]? with
        | none =>
            rw [ha, hb] at h
            exact hcells c h
        | some b =>
            rw [ha, hb] at h
            dsimp only at h
            obtain ⟨v, hv, hle⟩ := hleft
            obtain ⟨v', hv', hle'⟩ := hright
            have hends : ((if a.2 < b.2 then (a, b) else (b, a)) : Cell × Cell).1 ∈ cells ∧
                ((if a.2 < b.2 then (a, b) else (b, a)) : Cell × Cell).2 ∈ cells := by
              split
              · exact ⟨List.mem_of_getElem? ha, List.mem_of_getElem? hb⟩
              · exact ⟨List.mem_of_getElem? hb, List.mem_of_getElem? ha⟩
            have hcolumn := columnEnds_mem (x := x) (i := i + 2) (l := cells.drop (i + 2))
              hends.1 hends.2 fun d hd => List.mem_of_mem_drop hd
            refine ih ?_ ⟨v, hv, by omega⟩ ⟨v', hv', by omega⟩ h
            intro d hd
            rcases List.mem_append.mp hd with hold | hnew
            · exact hcells d hold
            · obtain ⟨y, hy, rfl⟩ := List.mem_map.mp hnew
              have hy := List.mem_range'_1.mp hy
              obtain ⟨p, hp, hple⟩ := (hcells _ hcolumn.1).bottom
              obtain ⟨q, hq, hqle⟩ := (hcells _ hcolumn.2).top
              exact ⟨⟨v, hv, hle⟩, ⟨v', hv', by dsimp only; omega⟩,
                ⟨p, hp, by dsimp only; omega⟩, ⟨q, hq, by dsimp only; omega⟩⟩

/-- A polygon is filled inside its bounding box. -/
theorem hull_fillConvexCells (hpolygon : ∀ v ∈ polygon, v.1 < g.sizeX)
    (h : c ∈ g.fillConvexCells hypot polygon) : Hull polygon c := by
  unfold Geometry.fillConvexCells at h
  by_cases hlength : polygon.length < 3
  · rw [if_pos hlength] at h
    exact absurd h List.not_mem_nil
  rw [if_neg hlength] at h
  dsimp only at h
  generalize hsorted : sortCells _ 0 (g.getConvexEdge hypot polygon) = sorted at h
  have hhull : ∀ d ∈ sorted, Hull polygon d := by
    intro d hd
    rw [← hsorted] at hd
    exact hull_getConvexEdge hpolygon (mem_of_mem_sortCells hd)
  cases hfirst : sorted.head? with
  | none =>
      rw [hfirst] at h
      exact hhull c h
  | some first =>
    cases hlast : sorted.getLast? with
    | none =>
        rw [hfirst, hlast] at h
        exact hhull c h
    | some last =>
        rw [hfirst, hlast] at h
        dsimp only at h
        obtain ⟨v, hv, hle⟩ := (hhull first (List.mem_of_head? hfirst)).left
        obtain ⟨v', hv', hle'⟩ := (hhull last (List.mem_of_getLast? hlast)).right
        by_cases horder : first.1 ≤ last.1
        · exact hull_fillColumns hhull ⟨v, hv, hle⟩ ⟨v', hv', by omega⟩ h
        · rw [show last.1 + 1 - first.1 = 0 by omega] at h
          exact hhull c h

theorem mapM_eq_some {α β : Type} {f : α → Option β} {l : List α} {l' : List β}
    (h : l.mapM f = some l') : ∀ b ∈ l', ∃ a ∈ l, f a = some b := by
  induction l generalizing l' with
  | nil =>
      cases h
      exact fun b hb => absurd hb List.not_mem_nil
  | cons a l ih =>
      rw [List.mapM_cons] at h
      obtain ⟨b, hb, h⟩ := Option.bind_eq_some_iff.mp h
      obtain ⟨tail, htail, h⟩ := Option.bind_eq_some_iff.mp h
      cases h
      intro b' hb'
      rcases List.mem_cons.mp hb' with rfl | hmem
      · exact ⟨a, List.mem_cons_self, hb⟩
      · obtain ⟨a', ha', heq⟩ := ih htail b' hmem
        exact ⟨a', List.mem_cons_of_mem a ha', heq⟩

/-- The cell of a point of the map. -/
theorem world2Map_eq_some {wx wy : Rat} (h : g.world2Map wx wy = some c) :
    (g.originX ≤ wx ∧ (c.1 : Int) = ⌊(wx - g.originX) / g.resolution⌋ ∧ c.1 < g.sizeX) ∧
      g.originY ≤ wy ∧ (c.2 : Int) = ⌊(wy - g.originY) / g.resolution⌋ ∧ c.2 < g.sizeY := by
  have hcell : ∀ {origin w : Rat}, origin ≤ w →
      ((truncate ((w - origin) / g.resolution)).toNat : Int) = ⌊(w - origin) / g.resolution⌋ := by
    intro origin w hle
    have hdiv := div_nonneg (sub_nonneg.mpr hle) g.resolution_pos.le
    rw [truncate, if_pos hdiv, Int.toNat_of_nonneg (Int.floor_nonneg.mpr hdiv)]
  unfold Geometry.world2Map at h
  by_cases hlow : wx < g.originX ∨ wy < g.originY
  · rw [if_pos hlow] at h
    cases h
  rw [if_neg hlow] at h
  simp only [not_or, not_lt] at hlow
  obtain ⟨hx, hy⟩ := hlow
  dsimp only at h
  split at h
  case isTrue hlt =>
    cases h
    exact ⟨⟨hx, hcell hx, hlt.1⟩, hy, hcell hy, hlt.2⟩
  case isFalse => cases h

/-- The centre of a cell lies in the cell. -/
theorem Geometry.world2Map_map2World (hx : c.1 < g.sizeX) (hy : c.2 < g.sizeY) :
    g.world2Map (g.map2World c.1 c.2).1 (g.map2World c.1 c.2).2 = some c := by
  have hres := g.resolution_pos
  have hcell : ∀ (origin : Rat) (m : Nat),
      (truncate ((origin + (m + 1 / 2) * g.resolution - origin) / g.resolution)).toNat = m := by
    intro origin m
    rw [add_sub_cancel_left, mul_div_assoc, div_self hres.ne', mul_one, truncate,
      if_pos (by positivity), show ⌊(m : Rat) + 1 / 2⌋ = m by rw [Int.floor_eq_iff]; norm_num]
    rfl
  have hlow : ∀ (origin : Rat) (m : Nat), ¬ origin + (m + 1 / 2) * g.resolution < origin := by
    intro origin m
    rw [not_lt]
    exact le_add_of_nonneg_right (by positivity)
  unfold Geometry.world2Map Geometry.map2World
  rw [if_neg (by rw [not_or]; exact ⟨hlow _ _, hlow _ _⟩)]
  dsimp only
  rw [hcell, hcell]
  exact if_pos ⟨hx, hy⟩

/-- A loop that gives every cell of a list a value leaves the other cells. -/
theorem foldl_update_eq (value : Nat → UInt8) {m : Nat → UInt8}
    (hcells : ∀ d ∈ cells, d.1 < g.sizeX) (hc : c.1 < g.sizeX) :
    (cells.foldl (fun m (x, y) => Function.update m (g.getIndex x y) (value (g.getIndex x y))) m)
        (g.getIndex c.1 c.2) =
      if c ∈ cells then value (g.getIndex c.1 c.2) else m (g.getIndex c.1 c.2) := by
  induction cells generalizing m with
  | nil => rfl
  | cons d cells ih =>
      rw [List.foldl_cons, ih fun e he => hcells e (List.mem_cons_of_mem d he)]
      show (if c ∈ cells then _ else
        Function.update m (g.getIndex d.1 d.2) (value (g.getIndex d.1 d.2)) (g.getIndex c.1 c.2)) = _
      by_cases heq : c = d
      · subst heq
        rw [Function.update_self, ite_self, if_pos List.mem_cons_self]
      · rw [Function.update_of_ne fun h =>
          heq (Geometry.getIndex_inj hc (hcells d List.mem_cons_self) h)]
        simp only [List.mem_cons, heq, false_or]

/-- `SetConvexRegionCost` only changes the bounding box of the polygon. -/
theorem setConvexRegionCost_eq {points : List (Rat × Rat)} {cost : UInt8} {m : Nat → UInt8}
    (hc : c.1 < g.sizeX) :
    g.setConvexRegionCost hypot points cost m (g.getIndex c.1 c.2) = m (g.getIndex c.1 c.2) ∨
      ∃ vs, (∀ v ∈ vs, ∃ p ∈ points, g.world2Map p.1 p.2 = some v) ∧ Hull vs c := by
  unfold Geometry.setConvexRegionCost
  generalize hmap : (List.mapM _ points : Option (List Cell)) = mapPolygon
  cases mapPolygon with
  | none => exact Or.inl rfl
  | some vs =>
      have hvs := mapM_eq_some hmap
      have hlt : ∀ v ∈ vs, v.1 < g.sizeX := by
        intro v hv
        obtain ⟨p, -, hp⟩ := hvs v hv
        exact (world2Map_eq_some hp).1.2.2
      have hhull : ∀ d ∈ g.fillConvexCells hypot vs, Hull vs d :=
        fun d hd => hull_fillConvexCells hlt hd
      by_cases hmem : c ∈ g.fillConvexCells hypot vs
      · exact Or.inr ⟨vs, hvs, hhull c hmem⟩
      · have hcells : ∀ d ∈ g.fillConvexCells hypot vs, d.1 < g.sizeX := by
          intro d hd
          obtain ⟨v, hv, hle⟩ := (hhull d hd).right
          exact Nat.lt_of_le_of_lt hle (hlt v hv)
        left
        exact (foldl_update_eq (fun _ => cost) hcells hc).trans (if_neg hmem)

end RoboRTS.Costmap
