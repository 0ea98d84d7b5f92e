import RoboRTS.Costmap.ConvexCells
import Mathlib.Data.List.Range

/-!
# The walk of a line

`RaytraceLine` walks on the flat index: the strides are added to an unsigned offset, which would
wrap without notice. The cells of the walk are known (`cellAt`), so that the offset after each step
is the index of a cell between the two ends. Without a limit the walk goes from one end to the
other, with a limit it stops earlier (`raytraceOffsets_line`).
-/

namespace RoboRTS.Costmap

open NearestSite

variable {g : Geometry} {hypot : Rat → Rat → Rat} {a b : Cell}

/-- `Bresenham` with its unsigned offset, to which the strides are converted. -/
def bresenhamUnsigned (absDa absDb : Nat) (offsetA offsetB : Int) :
    Nat → Nat → UInt32 → List UInt32
  | 0, _, offset => [offset]
  | n + 1, errorB, offset =>
      let next := offset + UInt32.ofInt offsetA
      let errorB := errorB + absDb
      if errorB ≥ absDa then
        offset :: bresenhamUnsigned absDa absDb offsetA offsetB n (errorB - absDa)
          (next + UInt32.ofInt offsetB)
      else offset :: bresenhamUnsigned absDa absDb offsetA offsetB n errorB next

/-- `RaytraceLine`: the unsigned offsets at which the action is applied. -/
def Geometry.raytraceOffsets (g : Geometry) (hypot : Rat → Rat → Rat) (a b : Cell)
    (maxLength : Nat) : List UInt32 :=
  let dx : Int := b.1 - a.1
  let dy : Int := b.2 - a.2
  let absDx := dx.natAbs
  let absDy := dy.natAbs
  let offsetDx := sign dx
  let offsetDy := sign dy * g.sizeX
  let offset := UInt32.ofInt (a.2 * g.sizeX + a.1)
  let dist := hypot dx dy
  let scale := if dist = 0 then 1 else min 1 (maxLength / dist)
  if absDx ≥ absDy then
    bresenhamUnsigned absDx absDy offsetDx offsetDy (min (truncate (scale * absDx)).toNat absDx)
      (absDx / 2) offset
  else
    bresenhamUnsigned absDy absDx offsetDy offsetDx (min (truncate (scale * absDy)).toNat absDy)
      (absDy / 2) offset

/-! ## Offsets -/

theorem bresenhamUnsigned_eq {absDa absDb : Nat} {offsetA offsetB : Int} {n errorB : Nat}
    (offset : Int) :
    bresenhamUnsigned absDa absDb offsetA offsetB n errorB (UInt32.ofInt offset) =
      (bresenham absDa absDb offsetA offsetB n errorB offset).map UInt32.ofInt := by
  induction n generalizing errorB offset with
  | zero => rfl
  | succ n ih =>
      rw [bresenhamUnsigned, bresenham, ← UInt32.ofInt_add, ← UInt32.ofInt_add, ih, ih]
      split <;> rfl

/-- The unsigned offsets are those of the walk on the integers. -/
theorem raytraceOffsets_eq (maxLength : Nat) :
    g.raytraceOffsets hypot a b maxLength =
      (g.raytraceLine hypot a.1 a.2 b.1 b.2 maxLength).map UInt32.ofInt := by
  unfold Geometry.raytraceOffsets Geometry.raytraceLine
  dsimp only
  rw [bresenhamUnsigned_eq, bresenhamUnsigned_eq]
  split <;> rfl

theorem toNat_ofInt_natCast {n : Nat} (h : n < 2 ^ 32) : (UInt32.ofInt n).toNat = n := by
  rw [UInt32.ofInt, UInt32.toNat_ofNat']
  omega

/-! ## Cells -/

/-- The coordinate after `k` steps from `a` towards `b`. -/
def along (a b k : Nat) : Nat :=
  if a < b then a + k else a - k

theorem along_cast {a b k : Nat} (hk : k ≤ ((b : Int) - a).natAbs) :
    (along a b k : Int) = a + k * sign ((b : Int) - a) := by
  unfold along sign
  by_cases h : a < b
  · rw [if_pos h, if_pos (by omega)]
    push_cast
    ring
  · rw [if_neg h, if_neg (by omega)]
    omega

/-- The steps along the minor axis, of `n` in all, after `k` of the `m` along the dominant one. -/
def minor (m n k : Nat) : Nat :=
  (m / 2 + k * n) / m

/-- The columns and the rows that the line has moved by after `k` steps. -/
def moved (dx dy k : Nat) : Nat × Nat :=
  if dx ≥ dy then (k, minor dx dy k) else (minor dy dx k, k)

/-- The cell of the line after `k` steps. -/
def cellAt (a b : Cell) (k : Nat) : Cell :=
  let steps := moved ((b.1 : Int) - a.1).natAbs ((b.2 : Int) - a.2).natAbs k
  (along a.1 b.1 steps.1, along a.2 b.2 steps.2)

variable {dx dy k : Nat}

theorem moved_le (dx dy : Nat) (hk : k ≤ max dx dy) : (moved dx dy k).1 ≤ dx ∧ (moved dx dy k).2 ≤ dy := by
  unfold moved
  split
  · exact ⟨by omega, minor_le (by omega)⟩
  · exact ⟨minor_le (by omega), by omega⟩

@[simp] theorem moved_zero : moved dx dy 0 = (0, 0) := by
  have hminor : ∀ m n, minor m n 0 = 0 := fun m n => by
    rw [minor, Nat.zero_mul, Nat.add_zero, half_div_self]
  unfold moved
  split <;> rw [hminor]

/-- All of the way along the dominant axis, the line has made all of the minor steps. -/
theorem moved_max : moved dx dy (max dx dy) = (dx, dy) := by
  unfold moved
  by_cases h : dx ≥ dy
  · rw [if_pos h, Nat.max_eq_left h]
    rcases Nat.eq_zero_or_pos dx with hzero | hpos
    · rw [minor, hzero, Nat.div_zero]
      exact Prod.ext rfl (by dsimp only; omega)
    · rw [minor, minor_end hpos]
  · rw [if_neg h, Nat.max_eq_right (by omega), minor, minor_end (by omega)]

/-- A step moves along the dominant axis by one and along the other by at most one. -/
theorem moved_step (dx dy k : Nat) :
    (moved dx dy k).1 ≤ (moved dx dy (k + 1)).1 ∧
      (moved dx dy (k + 1)).1 ≤ (moved dx dy k).1 + 1 ∧
      (moved dx dy k).2 ≤ (moved dx dy (k + 1)).2 ∧
      (moved dx dy (k + 1)).2 ≤ (moved dx dy k).2 + 1 ∧
      moved dx dy k ≠ moved dx dy (k + 1) := by
  unfold moved
  by_cases h : dx ≥ dy
  · obtain ⟨hle, hle'⟩ := minor_step (k := k) h
    rw [if_pos h, if_pos h]
    exact ⟨by omega, by omega, hle, hle', fun heq => by injection heq; omega⟩
  · obtain ⟨hle, hle'⟩ := minor_step (m := dy) (n := dx) (k := k) (by omega)
    rw [if_neg h, if_neg h]
    exact ⟨hle, hle', by omega, by omega, fun heq => by injection heq; omega⟩

/-! ## Lines -/

/-- Two cells are 8-neighbours. -/
def Touches (c d : Cell) : Prop :=
  c ≠ d ∧ (c.1 ≤ d.1 + 1 ∧ d.1 ≤ c.1 + 1) ∧ c.2 ≤ d.2 + 1 ∧ d.2 ≤ c.2 + 1

/-- The cells of a line from `a` to `b`. -/
structure IsLine (a b : Cell) (path : List Cell) : Prop where
  length : path.length = max ((b.1 : Int) - a.1).natAbs ((b.2 : Int) - a.2).natAbs + 1
  first : path.head? = some a
  last : path.getLast? = some b
  steps : path.IsChain Touches
  inBox : ∀ c ∈ path, (min a.1 b.1 ≤ c.1 ∧ c.1 ≤ max a.1 b.1) ∧
    min a.2 b.2 ≤ c.2 ∧ c.2 ≤ max a.2 b.2

/-- The line from `a` to `b`. -/
def lineCells (a b : Cell) : List Cell :=
  (List.range (max ((b.1 : Int) - a.1).natAbs ((b.2 : Int) - a.2).natAbs + 1)).map (cellAt a b)

theorem cellAt_max :
    cellAt a b (max ((b.1 : Int) - a.1).natAbs ((b.2 : Int) - a.2).natAbs) = b := by
  rw [cellAt, moved_max]
  unfold along
  exact Prod.ext (by dsimp only; split <;> omega) (by dsimp only; split <;> omega)

theorem cellAt_zero : cellAt a b 0 = a := by
  rw [cellAt, moved_zero]
  unfold along
  exact Prod.ext (by dsimp only; split <;> omega) (by dsimp only; split <;> omega)

theorem isLine_lineCells : IsLine a b (lineCells a b) := by
  constructor
  case length => rw [lineCells, List.length_map, List.length_range]
  case first =>
    rw [lineCells, List.range_succ_eq_map, List.map_cons, List.head?_cons, cellAt_zero]
  case last =>
    rw [lineCells, List.range_succ, List.map_append, List.map_singleton, List.getLast?_concat,
      cellAt_max]
  case steps =>
    rw [lineCells, List.isChain_map, List.isChain_range_succ]
    intro k hk
    rw [Nat.succ_eq_add_one]
    obtain ⟨hx, hx', hy, hy', hne⟩ :=
      moved_step ((b.1 : Int) - a.1).natAbs ((b.2 : Int) - a.2).natAbs k
    obtain ⟨hdx, hdy⟩ := moved_le _ _ (Nat.add_one_le_of_lt hk)
    unfold Touches cellAt along
    dsimp only
    refine ⟨fun heq => hne ?_, by split <;> omega, by split <;> omega⟩
    injection heq with hcol hrow
    exact Prod.ext (by split at hcol <;> omega) (by split at hrow <;> omega)
  case inBox =>
    intro c hc
    obtain ⟨k, hk, rfl⟩ := List.mem_map.mp hc
    obtain ⟨hdx, hdy⟩ := moved_le ((b.1 : Int) - a.1).natAbs ((b.2 : Int) - a.2).natAbs
      (Nat.le_of_lt_succ (List.mem_range.mp hk))
    unfold cellAt along
    dsimp only
    exact ⟨by split <;> omega, by split <;> omega⟩

/-- The steps that the limit leaves. -/
def lineSteps (hypot : Rat → Rat → Rat) (a b : Cell) (maxLength : Nat) : Nat :=
  let dx : Int := b.1 - a.1
  let dy : Int := b.2 - a.2
  let scale := if hypot dx dy = 0 then 1 else min 1 (maxLength / hypot dx dy)
  min (truncate (scale * max dx.natAbs dy.natAbs)).toNat (max dx.natAbs dy.natAbs)

/-- The index of a cell of the line, from the steps along both axes. -/
theorem getIndex_cellAt {k : Nat}
    (hk : k ≤ max ((b.1 : Int) - a.1).natAbs ((b.2 : Int) - a.2).natAbs) :
    (g.getIndex (cellAt a b k).1 (cellAt a b k).2 : Int) = a.2 * g.sizeX + a.1 +
      (moved ((b.1 : Int) - a.1).natAbs ((b.2 : Int) - a.2).natAbs k).1 * sign (b.1 - a.1) +
      (moved ((b.1 : Int) - a.1).natAbs ((b.2 : Int) - a.2).natAbs k).2 *
        (sign (b.2 - a.2) * g.sizeX) := by
  obtain ⟨hdx, hdy⟩ := moved_le _ _ hk
  rw [Geometry.getIndex, cellAt]
  push_cast
  rw [along_cast hdx, along_cast hdy]
  ring

/-- The offset after each step is the index of the cell. -/
theorem raytraceLine_map (maxLength : Nat) :
    g.raytraceLine hypot a.1 a.2 b.1 b.2 maxLength =
      (List.range (lineSteps hypot a b maxLength + 1)).map fun k =>
        (g.getIndex (cellAt a b k).1 (cellAt a b k).2 : Int) := by
  unfold Geometry.raytraceLine lineSteps
  dsimp only
  by_cases hdominant : ((b.1 : Int) - a.1).natAbs ≥ ((b.2 : Int) - a.2).natAbs
  · rw [if_pos hdominant, bresenham_eq (half_div_self _) (by omega), Nat.max_eq_left hdominant]
    refine List.map_congr_left fun k hk => ?_
    have hle := (Nat.lt_succ_iff.mp (List.mem_range.mp hk)).trans (Nat.min_le_right _ _)
    rw [getIndex_cellAt (hle.trans (le_max_left ..)), moved, if_pos hdominant, minor]
  · rw [if_neg hdominant, bresenham_eq (half_div_self _) (by omega),
      Nat.max_eq_right (Nat.le_of_not_ge hdominant)]
    refine List.map_congr_left fun k hk => ?_
    have hle := (Nat.lt_succ_iff.mp (List.mem_range.mp hk)).trans (Nat.min_le_right _ _)
    rw [getIndex_cellAt (hle.trans (le_max_right ..)), moved, if_neg hdominant, minor]
    ring

/-- Between cells whose differences are `int`s, the default limit leaves all steps. -/
theorem lineSteps_max (hhypot : ∀ x y, 0 ≤ hypot x y ∧ hypot x y ≤ |x| + |y|)
    (hdx : ((b.1 : Int) - a.1).natAbs < 2 ^ 31) (hdy : ((b.2 : Int) - a.2).natAbs < 2 ^ 31) :
    lineSteps hypot a b UINT_MAX = max ((b.1 : Int) - a.1).natAbs ((b.2 : Int) - a.2).natAbs := by
  have hscale := unscaled hhypot _ _ hdx hdy
  unfold lineSteps
  dsimp only
  rw [hscale, truncate_natCast, Int.toNat_natCast, Nat.min_self]

/-- A limit leaves a part of the line from its start on. -/
theorem raytraceOffsets_prefix {maxLength maxLength' : Nat}
    (h : lineSteps hypot a b maxLength ≤ lineSteps hypot a b maxLength') :
    g.raytraceOffsets hypot a b maxLength <+: g.raytraceOffsets hypot a b maxLength' := by
  rw [raytraceOffsets_eq, raytraceOffsets_eq, raytraceLine_map, raytraceLine_map]
  refine List.IsPrefix.map _ (List.IsPrefix.map _ ?_)
  obtain ⟨rest, hrest⟩ := Nat.exists_eq_add_of_le (Nat.succ_le_succ h)
  rw [Nat.succ_eq_add_one, Nat.succ_eq_add_one] at hrest
  rw [hrest]
  exact ⟨_, (List.range_add ..).symm⟩

/-- Without a limit, `RaytraceLine` applies its action to the cells of a line from one end to the
other, with a limit to the first of them; none of the offsets is outside of the map. -/
theorem raytraceOffsets_line (hhypot : ∀ x y, 0 ≤ hypot x y ∧ hypot x y ≤ |x| + |y|)
    (hcells : g.sizeX * g.sizeY ≤ 2 ^ 32)
    (ha : a.1 < g.sizeX ∧ a.2 < g.sizeY) (hb : b.1 < g.sizeX ∧ b.2 < g.sizeY)
    (hdx : ((b.1 : Int) - a.1).natAbs < 2 ^ 31) (hdy : ((b.2 : Int) - a.2).natAbs < 2 ^ 31) :
    (∃ path, IsLine a b path ∧ (g.raytraceOffsets hypot a b UINT_MAX).map UInt32.toNat =
      path.map fun c => g.getIndex c.1 c.2) ∧
    ∀ maxLength, g.raytraceOffsets hypot a b maxLength <+: g.raytraceOffsets hypot a b UINT_MAX ∧
      ∀ offset ∈ g.raytraceOffsets hypot a b maxLength, offset.toNat < g.sizeX * g.sizeY := by
  have hsteps := lineSteps_max hhypot hdx hdy
  have hinMap : ∀ c ∈ lineCells a b, g.getIndex c.1 c.2 < g.sizeX * g.sizeY := by
    intro c hc
    obtain ⟨hcol, hrow⟩ := isLine_lineCells.inBox c hc
    rw [Geometry.getIndex, Nat.add_comm]
    exact index_lt (by omega) (by omega)
  have hpath : (g.raytraceOffsets hypot a b UINT_MAX).map UInt32.toNat =
      (lineCells a b).map fun c => g.getIndex c.1 c.2 := by
    rw [raytraceOffsets_eq, raytraceLine_map, hsteps, lineCells, List.map_map, List.map_map,
      List.map_map]
    refine List.map_congr_left fun k hk => ?_
    have hlt := hinMap (cellAt a b k) (List.mem_map_of_mem hk)
    exact toNat_ofInt_natCast (by omega)
  refine ⟨⟨lineCells a b, isLine_lineCells, hpath⟩, fun maxLength => ?_⟩
  have hstart : g.raytraceOffsets hypot a b maxLength <+: g.raytraceOffsets hypot a b UINT_MAX :=
    raytraceOffsets_prefix (hsteps ▸ Nat.min_le_right _ _)
  refine ⟨hstart, fun offset hoffset => ?_⟩
  have hmem := List.mem_map_of_mem (f := UInt32.toNat) (hstart.subset hoffset)
  rw [hpath] at hmem
  obtain ⟨c, hc, heq⟩ := List.mem_map.mp hmem
  exact heq ▸ hinMap c hc

/-- A line of which `hypot` is five visits five cells of a map of five columns and four rows. -/
theorem raytraceOffsets_five : triangleHypot 4 3 = 5 ∧ ∃ path, IsLine (0, 0) (4, 3) path ∧
    (Geometry.raytraceOffsets ⟨5, 4, 1, 0, 0, by decide⟩ triangleHypot (0, 0) (4, 3) UINT_MAX).map
      UInt32.toNat = path.map fun c => Geometry.getIndex ⟨5, 4, 1, 0, 0, by decide⟩ c.1 c.2 :=
  ⟨by decide +kernel, (raytraceOffsets_line triangleHypot_bounds (by decide) (by decide)
    (by decide) (by decide) (by decide)).1⟩

end RoboRTS.Costmap
