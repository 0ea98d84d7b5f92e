import RoboRTS.Costmap.MapObject
import RoboRTS.Lib.Binary64

/-!
# Windows of a costmap

`CopyCostMapWindow` deletes the array of the destination before it looks for the window in the
source. So a window that does not lie in the source costs the destination its cells, and a window
with a negative extent makes sizes that wrap (`copyCostMapWindow_atomic_iff`).
-/

namespace RoboRTS.Costmap

open Costmap2D

namespace Costmap2D

/-- The map is the window of another one between two of its cells. -/
structure IsWindow (map src : Costmap2D) (lowerLeft upperRight : Nat × Nat) : Prop where
  sizeX : (map.sizeX : Int) = upperRight.1 - lowerLeft.1
  sizeY : (map.sizeY : Int) = upperRight.2 - lowerLeft.2
  cells : ∀ x < map.sizeX, ∀ y < map.sizeY, ∃ cost, map.getCost x y = some cost ∧
    src.getCost (lowerLeft.1 + x) (lowerLeft.2 + y) = some cost

/-- The two maps have the same size and place and the same cells. -/
structure SameMap (map map' : Costmap2D) : Prop where
  sizeX : map'.sizeX = map.sizeX
  sizeY : map'.sizeY = map.sizeY
  resolution : map'.resolution = map.resolution
  originX : map'.originX = map.originX
  originY : map'.originY = map.originY
  cells : ∀ x < map.sizeX, ∀ y < map.sizeY, map'.getCost x y = map.getCost x y

/-- A call that returns `true` has copied the window, and one that returns `false` has changed
nothing. -/
def CopiesAtomically (map : Costmap2D) (rnd : Rat → Rat) (contents : Nat → UInt8)
    (wOriginX wOriginY wSizeX wSizeY : Rat) (source : Source) : Prop :=
  ∃ copied map', map.copyCostMapWindow rnd contents wOriginX wOriginY wSizeX wSizeY source =
      some (copied, map') ∧
    (copied = true → ∃ src lowerLeft upperRight, source = .other src ∧
      src.world2Map rnd wOriginX wOriginY = some (some lowerLeft) ∧
      src.world2Map rnd (rnd (wOriginX + wSizeX)) (rnd (wOriginY + wSizeY)) = some (some upperRight) ∧
      map'.IsWindow src lowerLeft upperRight) ∧
    (copied = false → map.SameMap map')

/-- The window lies in the source, whose cells can be read if it has any. -/
def WindowInMap (rnd : Rat → Rat) (wOriginX wOriginY wSizeX wSizeY : Rat) (src : Costmap2D) :
    Prop :=
  ∃ lowerLeft upperRight, src.world2Map rnd wOriginX wOriginY = some (some lowerLeft) ∧
    src.world2Map rnd (rnd (wOriginX + wSizeX)) (rnd (wOriginY + wSizeY)) = some (some upperRight) ∧
    (lowerLeft.1 ≤ upperRight.1 ∧ lowerLeft.2 ≤ upperRight.2) ∧
    (src.costmap.size ≠ 0 ∨ lowerLeft.1 = upperRight.1 ∨ lowerLeft.2 = upperRight.2)

/-- A corner of the window is outside the source. -/
def WindowOutside (rnd : Rat → Rat) (wOriginX wOriginY wSizeX wSizeY : Rat) (src : Costmap2D) :
    Prop :=
  src.world2Map rnd wOriginX wOriginY = some none ∨
    (∃ lowerLeft, src.world2Map rnd wOriginX wOriginY = some (some lowerLeft)) ∧
      src.world2Map rnd (rnd (wOriginX + wSizeX)) (rnd (wOriginY + wSizeY)) = some none

/-- The source is the destination itself, the window lies in the source, or it does not and the
destination has no cells to lose. -/
def KeepsWindow (map : Costmap2D) (rnd : Rat → Rat) (wOriginX wOriginY wSizeX wSizeY : Rat) :
    Source → Prop
  | .this => True
  | .other src =>
      src.WindowInMap rnd wOriginX wOriginY wSizeX wSizeY ∨
        (src.WindowOutside rnd wOriginX wOriginY wSizeX wSizeY ∧ map.costmap.size = 0)

variable {map src : Costmap2D} {rnd : Rat → Rat} {lowerLeft upperRight : Nat × Nat} {wx wy : Rat}

/-- `World2Map` only returns cells of the map. -/
theorem world2Map_lt {c : Nat × Nat} (h : src.world2Map rnd wx wy = some (some c)) :
    c.1 < src.sizeX ∧ c.2 < src.sizeY := by
  unfold world2Map at h
  split at h
  · cases h
  · obtain ⟨mx, _, h⟩ := Option.bind_eq_some_iff.mp h
    obtain ⟨my, _, h⟩ := Option.bind_eq_some_iff.mp h
    dsimp only at h
    split at h
    · next hlt =>
        cases h
        exact hlt
    · cases h

/-- The difference of two cell numbers in order. -/
theorem toUnsigned_sub {a b : Nat} (hle : a ≤ b) (hlt : b < 2 ^ 32) :
    toUnsigned ((b : Int) - a) = b - a := by
  rw [toUnsigned_of_nonneg (by omega) (by omega)]
  omega

/-- A window between two cells of the source, in order. -/
theorem copy_window (hsrc : src.WellFormed)
    (hupper : upperRight.1 < src.sizeX ∧ upperRight.2 < src.sizeY)
    (hle : lowerLeft.1 ≤ upperRight.1 ∧ lowerLeft.2 ≤ upperRight.2)
    (harray : src.costmap.size ≠ 0 ∨ lowerLeft.1 = upperRight.1 ∨ lowerLeft.2 = upperRight.2)
    {nx ny : Nat} (hnx : nx = upperRight.1 - lowerLeft.1) (hny : ny = upperRight.2 - lowerLeft.2)
    (contents : Nat → UInt8) :
    ∃ costmap, copyMapRegion src.costmap (newArray nx ny contents) src.sizeX nx lowerLeft.1
        lowerLeft.2 0 0 nx ny = some costmap ∧
      ∀ x < nx, ∀ y < ny, ∃ cost, costmap.get? ((y * nx + x) % 2 ^ 32) = some cost ∧
        src.getCost (lowerLeft.1 + x) (lowerLeft.2 + y) = some cost := by
  by_cases hempty : nx = 0 ∨ ny = 0
  · exact ⟨_, copyMapRegion_empty hempty, fun x hx y hy => by omega⟩
  obtain ⟨hsize, hlt⟩ : src.costmap.size = src.sizeX * src.sizeY ∧ src.sizeX * src.sizeY < 2 ^ 32 :=
    hsrc.array.resolve_left (by omega)
  have hrows : (lowerLeft.2 + ny) * src.sizeX ≤ src.costmap.size := by
    rw [hsize, Nat.mul_comm src.sizeX]
    exact Nat.mul_le_mul_right _ (by omega)
  have hcells : nx * ny < 2 ^ 32 :=
    Nat.lt_of_le_of_lt (Nat.mul_le_mul (by omega) (by omega)) hlt
  obtain ⟨costmap, hcopy, hcopySize, hcopied⟩ :=
    copyMapRegion_rect (show lowerLeft.1 + nx ≤ src.sizeX by omega) (Nat.zero_add nx).le hrows
      (show (0 + ny) * nx ≤ (newArray nx ny contents).size by
        rw [newArray, Nat.mod_eq_of_lt hcells, Nat.zero_add, Nat.mul_comm])
      (by rw [hsize]; exact hlt) (Nat.mod_lt _ (by decide)) (by omega) (by omega)
  have hcopySize : costmap.size = nx * ny := hcopySize.trans (Nat.mod_eq_of_lt hcells)
  refine ⟨costmap, hcopy, fun x hx y hy => ?_⟩
  have hrow := Buffer.row_le nx hy
  have hindex : y * nx + x < nx * ny := by
    rw [Nat.mul_comm nx]
    omega
  refine ⟨costmap.elem (y * nx + x), ?_, ?_⟩
  · rw [Nat.mod_eq_of_lt (by omega)]
    exact Buffer.get?_of_lt (by omega)
  · rw [getCost_eq src hsize hlt (by omega) (by omega), hcopied x hx y, if_pos (by omega),
      Nat.sub_zero, Nat.sub_zero]

/-- A destination without cells has none to lose. -/
theorem sameMap_deleted_iff (hmap : map.WellFormed) :
    map.SameMap { map with costmap := noArray } ↔ map.costmap.size = 0 := by
  have hdeleted : ∀ x y, ({ map with costmap := noArray } : Costmap2D).getCost x y = none :=
    fun x y => Buffer.get?_of_size_eq_zero rfl _
  constructor
  · intro hsame
    rcases hmap.array with hzero | ⟨hsize, hlt⟩
    · exact hzero
    · by_contra hne
      obtain ⟨hx, hy⟩ := Nat.mul_ne_zero_iff.mp (hsize ▸ hne)
      have hcell := hsame.cells 0 (Nat.pos_of_ne_zero hx) 0 (Nat.pos_of_ne_zero hy)
      rw [hdeleted, getCost_eq map hsize hlt (Nat.pos_of_ne_zero hx)
        (Nat.pos_of_ne_zero hy)] at hcell
      cases hcell
  · intro hzero
    exact ⟨rfl, rfl, rfl, rfl, rfl, fun x _ y _ =>
      (hdeleted x y).trans (Buffer.get?_of_size_eq_zero hzero _).symm⟩

/-- A source without an array has no cells to copy. -/
theorem copy_noArray {srcMap dstMap : Buffer UInt8} {srcSizeX dstSizeX sx sy nx ny : Nat}
    (hzero : srcMap.size = 0) (hnx : 0 < nx) (hny : 0 < ny) :
    copyMapRegion srcMap dstMap srcSizeX dstSizeX sx sy 0 0 nx ny = none := by
  obtain ⟨rows, rfl⟩ := Nat.exists_eq_add_of_lt hny
  unfold copyMapRegion
  rw [Nat.zero_add, Buffer.copyRows, Buffer.copyRange, if_neg (by omega)]
  rfl

section Cases

variable {contents : Nat → UInt8} {wOriginX wOriginY wSizeX wSizeY : Rat}

/-- The destination after a window between two cells is copied. -/
def windowMap (map src : Costmap2D) (wOriginX wOriginY : Rat) (lowerLeft upperRight : Nat × Nat)
    (costmap : Buffer UInt8) : Costmap2D :=
  { map with
    sizeX := toUnsigned (upperRight.1 - lowerLeft.1)
    sizeY := toUnsigned (upperRight.2 - lowerLeft.2)
    resolution := src.resolution
    originX := wOriginX
    originY := wOriginY
    costmap := costmap }

theorem copyCostMapWindow_outside (h : src.WindowOutside rnd wOriginX wOriginY wSizeX wSizeY) :
    map.copyCostMapWindow rnd contents wOriginX wOriginY wSizeX wSizeY (.other src) =
      some (false, { map with costmap := noArray }) := by
  unfold copyCostMapWindow
  rcases h with hlower | ⟨⟨lowerLeft, hlower⟩, hupper⟩
  · simp only [hlower, Option.bind_eq_bind, Option.bind_some]
    rfl
  · simp only [hlower, hupper, Option.bind_eq_bind, Option.bind_some]
    rfl

variable (map contents) in
theorem copyCostMapWindow_corners
    (hlower : src.world2Map rnd wOriginX wOriginY = some (some lowerLeft))
    (hupper : src.world2Map rnd (rnd (wOriginX + wSizeX)) (rnd (wOriginY + wSizeY)) = some (some upperRight)) :
    map.copyCostMapWindow rnd contents wOriginX wOriginY wSizeX wSizeY (.other src) =
      (copyMapRegion src.costmap
        (newArray (toUnsigned (upperRight.1 - lowerLeft.1))
          (toUnsigned (upperRight.2 - lowerLeft.2)) contents) src.sizeX
        (toUnsigned (upperRight.1 - lowerLeft.1)) lowerLeft.1 lowerLeft.2 0 0
        (toUnsigned (upperRight.1 - lowerLeft.1)) (toUnsigned (upperRight.2 - lowerLeft.2))).map
          fun costmap =>
            (true, map.windowMap src wOriginX wOriginY lowerLeft upperRight costmap) := by
  unfold copyCostMapWindow
  simp only [hlower, hupper, Option.bind_eq_bind, Option.bind_some]
  exact Option.map_eq_bind.symm

/-- Either a corner cannot be converted, or one is outside, or both are cells of the source. -/
theorem window_cases (rnd : Rat → Rat) (wOriginX wOriginY wSizeX wSizeY : Rat)
    (map src : Costmap2D) (contents : Nat → UInt8) :
    (map.copyCostMapWindow rnd contents wOriginX wOriginY wSizeX wSizeY (.other src) = none ∧
      ¬ src.WindowInMap rnd wOriginX wOriginY wSizeX wSizeY ∧
      ¬ src.WindowOutside rnd wOriginX wOriginY wSizeX wSizeY) ∨
    (src.WindowOutside rnd wOriginX wOriginY wSizeX wSizeY ∧
      ¬ src.WindowInMap rnd wOriginX wOriginY wSizeX wSizeY) ∨
    ∃ lowerLeft upperRight, src.world2Map rnd wOriginX wOriginY = some (some lowerLeft) ∧
      src.world2Map rnd (rnd (wOriginX + wSizeX)) (rnd (wOriginY + wSizeY)) = some (some upperRight) := by
  cases hlower : src.world2Map rnd wOriginX wOriginY with
  | none =>
      refine Or.inl ⟨?_, by simp [WindowInMap, hlower], by simp [WindowOutside, hlower]⟩
      unfold copyCostMapWindow
      simp only [hlower, Option.bind_eq_bind, Option.bind_none]
  | some corner =>
    cases corner with
    | none => exact Or.inr (Or.inl ⟨Or.inl hlower, by simp [WindowInMap, hlower]⟩)
    | some lowerLeft =>
      cases hupper : src.world2Map rnd (rnd (wOriginX + wSizeX)) (rnd (wOriginY + wSizeY)) with
      | none =>
          refine Or.inl ⟨?_, by simp [WindowInMap, hupper], by simp [WindowOutside, hlower, hupper]⟩
          unfold copyCostMapWindow
          simp only [hlower, hupper, Option.bind_eq_bind, Option.bind_some]
          rfl
      | some corner =>
        cases corner with
        | none =>
            exact Or.inr (Or.inl
              ⟨Or.inr ⟨⟨lowerLeft, hlower⟩, hupper⟩, by simp [WindowInMap, hupper]⟩)
        | some upperRight => exact Or.inr (Or.inr ⟨lowerLeft, upperRight, rfl, rfl⟩)

/-- A window between two cells of the source is copied, or the destination is left with sizes that
are none. -/
theorem copiesAtomically_corners_iff (hsrc : src.WellFormed)
    (hlower : src.world2Map rnd wOriginX wOriginY = some (some lowerLeft))
    (hupper : src.world2Map rnd (rnd (wOriginX + wSizeX)) (rnd (wOriginY + wSizeY)) = some (some upperRight)) :
    map.CopiesAtomically rnd contents wOriginX wOriginY wSizeX wSizeY (.other src) ↔
      (lowerLeft.1 ≤ upperRight.1 ∧ lowerLeft.2 ≤ upperRight.2) ∧
        (src.costmap.size ≠ 0 ∨ lowerLeft.1 = upperRight.1 ∨ lowerLeft.2 = upperRight.2) := by
  have hcorners := copyCostMapWindow_corners map contents hlower hupper
  have hupper' := world2Map_lt hupper
  have hsizeX := hsrc.sizeX_lt
  have hsizeY := hsrc.sizeY_lt
  constructor
  · rintro ⟨copied, map', hcopy, hwindow, -⟩
    rw [hcorners] at hcopy
    obtain ⟨costmap, hregion, hresult⟩ := Option.map_eq_some_iff.mp hcopy
    cases hresult
    obtain ⟨_, _, _, hother, hlower₁, hupper₁, hiswindow⟩ := hwindow rfl
    cases hother
    cases hlower.symm.trans hlower₁
    cases hupper.symm.trans hupper₁
    -- a size that has wrapped is not the difference of the corners
    have hle : lowerLeft.1 ≤ upperRight.1 ∧ lowerLeft.2 ≤ upperRight.2 := by
      have hx := hiswindow.sizeX
      have hy := hiswindow.sizeY
      omega
    refine ⟨hle, ?_⟩
    -- a region with cells cannot be copied from no array
    by_contra hnone
    rw [toUnsigned_sub hle.1 (by omega), toUnsigned_sub hle.2 (by omega),
      copy_noArray (by omega) (by omega) (by omega)] at hregion
    cases hregion
  · rintro ⟨hle, harray⟩
    have hnx : toUnsigned (upperRight.1 - lowerLeft.1) = upperRight.1 - lowerLeft.1 :=
      toUnsigned_sub hle.1 (by omega)
    have hny : toUnsigned (upperRight.2 - lowerLeft.2) = upperRight.2 - lowerLeft.2 :=
      toUnsigned_sub hle.2 (by omega)
    obtain ⟨costmap, hregion, hcells⟩ :=
      copy_window hsrc hupper' hle harray hnx hny contents
    refine ⟨true, _, by rw [hcorners, hregion, Option.map_some], fun _ => ?_,
      fun h => absurd h (by decide)⟩
    refine ⟨src, lowerLeft, upperRight, rfl, hlower, hupper, ?_, ?_, hcells⟩
    · show ((toUnsigned _ : Nat) : Int) = _
      omega
    · show ((toUnsigned _ : Nat) : Int) = _
      omega

end Cases

/-- A source is a well-formed map. -/
def Source.WellFormed : Source → Prop
  | .this => True
  | .other src => src.WellFormed

theorem SameMap.refl (map : Costmap2D) : map.SameMap map :=
  ⟨rfl, rfl, rfl, rfl, rfl, fun _ _ _ _ => rfl⟩

/-- `CopyCostMapWindow` copies the window or changes nothing exactly when the window lies in the
source, or the destination has no cells to lose. -/
theorem copyCostMapWindow_atomic_iff (map : Costmap2D) (hmap : map.WellFormed) (source : Source)
    (hsource : source.WellFormed) (rnd : Rat → Rat) (contents : Nat → UInt8)
    (wOriginX wOriginY wSizeX wSizeY : Rat) :
    map.CopiesAtomically rnd contents wOriginX wOriginY wSizeX wSizeY source ↔
      map.KeepsWindow rnd wOriginX wOriginY wSizeX wSizeY source := by
  cases source with
  | this =>
      exact iff_of_true ⟨false, map, rfl, fun h => absurd h Bool.false_ne_true,
        fun _ => SameMap.refl map⟩ trivial
  | other src =>
      have hsrc : src.WellFormed := hsource
      show _ ↔ _ ∨ _
      rcases window_cases rnd wOriginX wOriginY wSizeX wSizeY map src contents with
        ⟨hnone, hin, hout⟩ | ⟨hout, hin⟩ | ⟨lowerLeft, upperRight, hlower, hupper⟩
      · refine iff_of_false ?_ fun h => h.elim hin fun h => hout h.1
        rintro ⟨copied, map', hcopy, -⟩
        rw [hnone] at hcopy
        cases hcopy
      -- the call returns `false`, and the array of the destination is gone
      · rw [← sameMap_deleted_iff hmap]
        constructor
        · rintro ⟨copied, map', hcopy, -, hsame⟩
          rw [copyCostMapWindow_outside hout] at hcopy
          cases hcopy
          exact Or.inr ⟨hout, hsame rfl⟩
        · rintro (h | ⟨-, hsame⟩)
          · exact absurd h hin
          · exact ⟨false, _, copyCostMapWindow_outside hout,
            fun h => absurd h Bool.false_ne_true, fun _ => hsame⟩
      · have hout : ¬ src.WindowOutside rnd wOriginX wOriginY wSizeX wSizeY := by
          simp [WindowOutside, hlower, hupper]
        rw [copiesAtomically_corners_iff hsrc hlower hupper]
        constructor
        · exact fun h => Or.inl ⟨lowerLeft, upperRight, hlower, hupper, h⟩
        · rintro (⟨_, _, hlower₁, hupper₁, h⟩ | h)
          · cases hlower.symm.trans hlower₁
            cases hupper.symm.trans hupper₁
            exact h
          · exact absurd h.1 hout

/-- A map with two rows of two cells. -/
def fourCells : Costmap2D where
  sizeX := 2
  sizeY := 2
  resolution := 1
  originX := 0
  originY := 0
  costmap := ⟨4, fun i => 10 * UInt8.ofNat i⟩
  defaultValue := 0

theorem fourCells_wellFormed : fourCells.WellFormed :=
  ⟨by decide, by decide, Or.inr ⟨rfl, by decide⟩⟩

/-- A window of one cell. -/
theorem copyCostMapWindow_atomic_fourCells :
    fourCells.CopiesAtomically Binary64.toDouble (fun _ => 7) 0 0 1 1 (.other fourCells) :=
  (copyCostMapWindow_atomic_iff fourCells fourCells_wellFormed (.other fourCells)
    fourCells_wellFormed Binary64.toDouble (fun _ => 7) 0 0 1 1).mpr
    (Or.inl ⟨(0, 0), (1, 1), by decide +kernel, by decide +kernel, by decide, Or.inl (by decide)⟩)

/-- A window that starts outside the source costs the destination its cells. -/
theorem copyCostMapWindow_loses_cells :
    ¬ ∀ (map : Costmap2D), map.WellFormed → ∀ source : Source, source.WellFormed →
      ∀ (contents : Nat → UInt8) (wOriginX wOriginY wSizeX wSizeY : Rat),
        map.CopiesAtomically Binary64.toDouble contents wOriginX wOriginY wSizeX wSizeY
          source := by
  intro hatomic
  have hout : fourCells.WindowOutside Binary64.toDouble 5 5 1 1 := Or.inl (by decide +kernel)
  obtain ⟨copied, map', hcopy, -, hsame⟩ :=
    hatomic fourCells fourCells_wellFormed (.other fourCells) fourCells_wellFormed (fun _ => 7)
      5 5 1 1
  rw [copyCostMapWindow_outside hout] at hcopy
  cases hcopy
  have hsize := (sameMap_deleted_iff fourCells_wellFormed).mp (hsame rfl)
  exact absurd hsize (by decide)

end Costmap2D

end RoboRTS.Costmap
