import RoboRTS.Costmap.Regions
import RoboRTS.Lib.ClosedPolygon
import Mathlib.Data.List.GetD

/-!
# The outline of a polygon

A line has a cell in every column between its ends (`exists_column`). The edges that
`GetConvexEdge` walks close the polygon, so that every column between its leftmost and its
rightmost cell is entered on one edge and left on another: the outline lists at least two cells of
it (`two_le_countP`).
-/

namespace RoboRTS.Costmap

open NearestSite ClosedPolygon

variable {g : Geometry} {hypot : Rat → Rat → Rat} {a b c : Cell} {polygon : List Cell} {x : Nat}

/-- The vertex number `k`, counted around the polygon. -/
def vertex (polygon : List Cell) (k : Nat) : Cell :=
  polygon.getD (k % polygon.length) (0, 0)

/-- The outline of a polygon: the cells of the lines between consecutive vertices, and from the
last one to the first. -/
def Geometry.Outline (g : Geometry) (hypot : Rat → Rat → Rat) (polygon : List Cell) (c : Cell) :
    Prop :=
  ∃ k < polygon.length, c ∈ g.outlineCells hypot (vertex polygon k) (vertex polygon (k + 1))

/-! ## Lines -/

/-- The bound on the length does not shorten a line between two cells of a map. -/
theorem unscaled (hhypot : ∀ x y, 0 ≤ hypot x y ∧ hypot x y ≤ |x| + |y|) (dx dy : Int)
    (hx : dx.natAbs < 2 ^ 31) (hy : dy.natAbs < 2 ^ 31) :
    (if hypot dx dy = 0 then (1 : Rat) else min 1 (UINT_MAX / hypot dx dy)) = 1 := by
  split
  case isTrue => rfl
  case isFalse hne =>
    obtain ⟨hnonneg, hle⟩ := hhypot dx dy
    have hpos : 0 < hypot dx dy := lt_of_le_of_ne hnonneg (Ne.symm hne)
    have hsum : |(dx : Rat)| + |(dy : Rat)| ≤ UINT_MAX := by
      rw [← Int.cast_abs, ← Int.cast_abs, ← Int.cast_add, Int.abs_eq_natAbs, Int.abs_eq_natAbs]
      exact_mod_cast (show dx.natAbs + dy.natAbs ≤ UINT_MAX by unfold UINT_MAX; omega)
    exact min_eq_left ((one_le_div hpos).mpr (hle.trans hsum))

theorem truncate_natCast (n : Nat) : truncate (1 * n) = n := by
  rw [one_mul, truncate, if_pos (Nat.cast_nonneg n), Int.floor_natCast]

/-- After all its steps, a line has moved by the whole distance. -/
theorem minor_end {m n : Nat} (h : 0 < m) : (m / 2 + m * n) / m = n := by
  rw [Nat.add_mul_div_left _ _ h, Nat.div_eq_of_lt (by omega), Nat.zero_add]

/-- One step moves the minor coordinate by at most one. -/
theorem minor_step {m n k : Nat} (h : n ≤ m) :
    (m / 2 + k * n) / m ≤ (m / 2 + (k + 1) * n) / m ∧
      (m / 2 + (k + 1) * n) / m ≤ (m / 2 + k * n) / m + 1 := by
  rcases Nat.eq_zero_or_pos m with rfl | hpos
  · simp
  · rw [← Nat.add_div_right _ hpos, Nat.add_one_mul]
    exact ⟨Nat.div_le_div_right (by omega), Nat.div_le_div_right (by omega)⟩

/-- The cell of an offset that a line visits. -/
theorem mem_outlineCells {y : Nat} {offset : Int} (hx : x < g.sizeX)
    (hoffset : offset ∈ g.raytraceLine hypot a.1 a.2 b.1 b.2 UINT_MAX)
    (heq : offset = y * g.sizeX + x) : (x, y) ∈ g.outlineCells hypot a b := by
  refine List.mem_map.mpr ⟨offset, hoffset, ?_⟩
  rw [heq, show (y * g.sizeX + x : Int).toNat = g.getIndex x y by unfold Geometry.getIndex; omega]
  exact Geometry.index2Cells_getIndex hx

/-- A line between two cells of a map goes all the way. -/
theorem raytraceLine_eq (hhypot : ∀ x y, 0 ≤ hypot x y ∧ hypot x y ≤ |x| + |y|)
    (hdx : ((b.1 : Int) - a.1).natAbs < 2 ^ 31) (hdy : ((b.2 : Int) - a.2).natAbs < 2 ^ 31) :
    g.raytraceLine hypot a.1 a.2 b.1 b.2 UINT_MAX =
      if ((b.1 : Int) - a.1).natAbs ≥ ((b.2 : Int) - a.2).natAbs then
        bresenham ((b.1 : Int) - a.1).natAbs ((b.2 : Int) - a.2).natAbs (sign (b.1 - a.1))
          (sign (b.2 - a.2) * g.sizeX) ((b.1 : Int) - a.1).natAbs
          (((b.1 : Int) - a.1).natAbs / 2) (a.2 * g.sizeX + a.1)
      else
        bresenham ((b.2 : Int) - a.2).natAbs ((b.1 : Int) - a.1).natAbs
          (sign (b.2 - a.2) * g.sizeX) (sign (b.1 - a.1)) ((b.2 : Int) - a.2).natAbs
          (((b.2 : Int) - a.2).natAbs / 2) (a.2 * g.sizeX + a.1) := by
  have hscale := unscaled hhypot _ _ hdx hdy
  unfold Geometry.raytraceLine
  dsimp only
  rw [hscale, truncate_natCast, truncate_natCast, Int.toNat_natCast, Int.toNat_natCast,
    Nat.min_self, Nat.min_self]

/-- A line has a cell in every column between its ends. -/
theorem exists_column (hhypot : ∀ x y, 0 ≤ hypot x y ∧ hypot x y ≤ |x| + |y|)
    (hsizeX : g.sizeX ≤ 2 ^ 31) (hsizeY : g.sizeY ≤ 2 ^ 31)
    (ha : a.1 < g.sizeX ∧ a.2 < g.sizeY) (hb : b.1 < g.sizeX ∧ b.2 < g.sizeY)
    (hlow : min a.1 b.1 ≤ x) (hhigh : x ≤ max a.1 b.1) :
    ∃ c ∈ g.outlineCells hypot a b, c.1 = x := by
  have hx : x < g.sizeX := by omega
  have hline := raytraceLine_eq (g := g) hhypot (a := a) (b := b) (by omega) (by omega)
  by_cases hdominant : ((b.1 : Int) - a.1).natAbs ≥ ((b.2 : Int) - a.2).natAbs
  · -- each step enters the next column
    rw [if_pos hdominant, bresenham_eq (half_div_self _) (by omega)] at hline
    obtain ⟨k, hk, hkx⟩ : ∃ k ≤ ((b.1 : Int) - a.1).natAbs,
        (x : Int) = a.1 + k * sign (b.1 - a.1) := by
      refine ⟨((x : Int) - a.1).natAbs, by omega, ?_⟩
      unfold sign
      split <;> omega
    obtain ⟨y, hy, -⟩ := between_ends (a := a.2) (b := b.2)
      (minor_le (b := ((b.2 : Int) - a.2).natAbs) hk)
    refine ⟨(x, y), mem_outlineCells hx (hline ▸ List.mem_map.mpr
      ⟨k, List.mem_range.mpr (by omega), rfl⟩) ?_, rfl⟩
    rw [hkx, hy]
    push_cast
    ring
  · -- the column changes by at most one in each step
    rw [if_neg hdominant, bresenham_eq (half_div_self _) (by omega)] at hline
    generalize hm : ((b.2 : Int) - a.2).natAbs = m at hline hdominant
    generalize hn : ((b.1 : Int) - a.1).natAbs = n at hline hdominant
    let column : Nat → Int := fun k => a.1 + ((m / 2 + k * n) / m : Nat) * sign (b.1 - a.1)
    have hstart : column 0 = a.1 := by
      show (a.1 : Int) + ((m / 2 + 0 * n) / m : Nat) * sign (b.1 - a.1) = a.1
      rw [Nat.zero_mul, Nat.add_zero, half_div_self, Nat.cast_zero, zero_mul, add_zero]
    have hend : column m = b.1 := by
      show (a.1 : Int) + ((m / 2 + m * n) / m : Nat) * sign (b.1 - a.1) = b.1
      rw [minor_end (by omega)]
      unfold sign
      split <;> omega
    have hstep : ∀ k, |column (k + 1) - column k| ≤ 1 := by
      intro k
      obtain ⟨hle, hle'⟩ := minor_step (m := m) (n := n) (k := k) (by omega)
      show |(a.1 : Int) + ((m / 2 + (k + 1) * n) / m : Nat) * sign (b.1 - a.1) -
        (a.1 + ((m / 2 + k * n) / m : Nat) * sign (b.1 - a.1))| ≤ 1
      unfold sign
      rw [abs_le]
      split <;> omega
    obtain ⟨k, hk, hkx⟩ := exists_eq_of_between hstep m x (by rw [hstart, hend]; omega)
      (by rw [hstart, hend]; omega)
    obtain ⟨y, hy, -⟩ := between_ends (a := a.2) (b := b.2) (k := k) (by omega)
    refine ⟨(x, y), mem_outlineCells hx (hline ▸ List.mem_map.mpr
      ⟨k, List.mem_range.mpr (by omega), rfl⟩) ?_, rfl⟩
    rw [← hkx, hy]
    ring

/-! ## Edges -/

theorem vertex_eq {k : Nat} (h : k % polygon.length < polygon.length) :
    vertex polygon k = polygon[k % polygon.length] := by
  rw [vertex, List.getD_eq_getElem _ _ h]

theorem vertex_mem (h : polygon ≠ []) (k : Nat) : vertex polygon k ∈ polygon := by
  rw [vertex_eq (Nat.mod_lt _ (List.length_pos_iff.mpr h))]
  exact List.getElem_mem _

theorem exists_vertex (h : c ∈ polygon) : ∃ k, vertex polygon k = c := by
  obtain ⟨k, hk, rfl⟩ := List.mem_iff_getElem.mp h
  refine ⟨k, (vertex_eq ?_).trans ?_⟩
  · rwa [Nat.mod_eq_of_lt hk]
  · simp only [Nat.mod_eq_of_lt hk]

theorem vertex_period (polygon : List Cell) (k : Nat) :
    vertex polygon (k + polygon.length) = vertex polygon k := by
  rw [vertex, vertex, Nat.add_mod_right]

/-- `GetConvexEdge` walks the edges of a polygon in turn. -/
theorem getConvexEdge_eq (h : polygon ≠ []) :
    g.getConvexEdge hypot polygon = (List.range polygon.length).flatMap fun k =>
      g.outlineCells hypot (vertex polygon k) (vertex polygon (k + 1)) := by
  have hpos := List.length_pos_iff.mpr h
  have hvertex : ∀ k (hk : k < polygon.length), vertex polygon k = polygon[k] := by
    intro k hk
    rw [vertex, Nat.mod_eq_of_lt hk, List.getD_eq_getElem _ _ hk]
  have hopen : polygon.zip (polygon.drop 1) =
      (List.range (polygon.length - 1)).map
        fun k => (vertex polygon k, vertex polygon (k + 1)) := by
    refine List.ext_getElem (by simp) fun k hk hk' => ?_
    rw [List.length_map, List.length_range] at hk'
    rw [List.getElem_zip, List.getElem_map, List.getElem_drop, List.getElem_range,
      hvertex k (by omega), hvertex (k + 1) (by omega)]
    simp only [Nat.add_comm 1 k]
  have hlast : polygon.getLast? = some (vertex polygon (polygon.length - 1)) := by
    rw [hvertex _ (by omega), List.getLast?_eq_getElem?, List.getElem?_eq_getElem (by omega)]
  have hfirst : polygon.head? = some (vertex polygon (polygon.length - 1 + 1)) := by
    rw [Nat.sub_add_cancel hpos, ← Nat.zero_add polygon.length, vertex_period, hvertex 0 hpos,
      List.head?_eq_getElem?, List.getElem?_eq_getElem hpos]
  unfold Geometry.getConvexEdge
  rw [hopen, hlast, hfirst, List.flatMap_map]
  conv_rhs => rw [← Nat.sub_add_cancel hpos, List.range_succ, List.flatMap_append,
    List.flatMap_singleton]

theorem mem_getConvexEdge (h : polygon ≠ []) :
    c ∈ g.getConvexEdge hypot polygon ↔ g.Outline hypot polygon c := by
  rw [getConvexEdge_eq h, List.mem_flatMap]
  simp only [List.mem_range, Geometry.Outline]

/-- Two of the joined lists have a member of a kind. -/
theorem two_le_countP_flatMap {α : Type*} {p : α → Bool} {f : Nat → List α} {i j n : Nat}
    (hij : i < j) (hj : j < n) (hfi : ∃ a ∈ f i, p a) (hfj : ∃ a ∈ f j, p a) :
    2 ≤ ((List.range n).flatMap f).countP p := by
  obtain ⟨m, rfl⟩ := Nat.exists_eq_add_of_lt hj
  obtain ⟨a, ha, hpa⟩ := hfi
  have hfront : 0 < ((List.range j).flatMap f).countP p :=
    List.countP_pos_iff.mpr ⟨a, List.mem_flatMap.mpr ⟨i, List.mem_range.mpr hij, ha⟩, hpa⟩
  have hlast : 0 < (f j).countP p := List.countP_pos_iff.mpr hfj
  rw [Nat.add_right_comm, List.range_add, List.range_succ, List.flatMap_append, List.flatMap_append,
    List.flatMap_singleton, List.countP_append, List.countP_append]
  omega

/-- The outline lists at least two cells of each of its columns. -/
theorem two_le_countP (hhypot : ∀ x y, 0 ≤ hypot x y ∧ hypot x y ≤ |x| + |y|)
    (hsizeX : g.sizeX ≤ 2 ^ 31) (hsizeY : g.sizeY ≤ 2 ^ 31) (hlength : 2 ≤ polygon.length)
    (hpolygon : ∀ v ∈ polygon, v.1 < g.sizeX ∧ v.2 < g.sizeY)
    (hleft : ∃ d ∈ g.getConvexEdge hypot polygon, d.1 ≤ x)
    (hright : ∃ d ∈ g.getConvexEdge hypot polygon, x ≤ d.1) :
    2 ≤ (g.getConvexEdge hypot polygon).countP fun d => d.1 = x := by
  have hne : polygon ≠ [] := List.length_pos_iff.mp (by omega)
  obtain ⟨d, hd, hdx⟩ := hleft
  obtain ⟨d', hd', hdx'⟩ := hright
  obtain ⟨low, hlow, hle⟩ := (hull_getConvexEdge (fun v hv => (hpolygon v hv).1) hd).left
  obtain ⟨high, hhigh, hle'⟩ := (hull_getConvexEdge (fun v hv => (hpolygon v hv).1) hd').right
  obtain ⟨k, rfl⟩ := exists_vertex hlow
  obtain ⟨k', rfl⟩ := exists_vertex hhigh
  obtain ⟨i, j, hij, hj, hmeets, hmeets'⟩ := two_meet (v := fun k => (vertex polygon k).1) hlength
    (fun k => congrArg Prod.fst (vertex_period polygon k)) ⟨k, hle.trans hdx⟩ ⟨k', hdx'.trans hle'⟩
  have hedge : ∀ k, Meets (fun k => (vertex polygon k).1) x k →
      ∃ c ∈ g.outlineCells hypot (vertex polygon k) (vertex polygon (k + 1)),
        decide (c.1 = x) = true := by
    intro k hk
    obtain ⟨c, hc, hcx⟩ := exists_column hhypot hsizeX hsizeY (hpolygon _ (vertex_mem hne k))
      (hpolygon _ (vertex_mem hne (k + 1))) hk.1 hk.2
    exact ⟨c, hc, decide_eq_true hcx⟩
  rw [getConvexEdge_eq hne]
  exact two_le_countP_flatMap hij hj (hedge i hmeets) (hedge j hmeets')

end RoboRTS.Costmap
