import RoboRTS.Costmap.Costmap2D
import RoboRTS.Lib.RegionCopy

/-!
# The costmap as an object

`Costmap2D` with the array that it owns, and the two operations that copy regions of it:
`UpdateOrigin`, which shifts a map, and `CopyCostMapWindow`, which cuts a window out of another one.
Here `int`s have 32 bits: a computation that leaves them, and an access outside an array, is
undefined. The arithmetic of `unsigned int`s wraps. A deleted array has no elements.

World coordinates are finite numbers, and `rnd` rounds the exact result of an operation on them, as
`Binary64.toDouble` does.
-/

namespace RoboRTS.Costmap

open NearestSite

/-- The value of an `int` computation, which is undefined where an `int` cannot hold it. -/
def asInt (i : Int) : Option Int :=
  if -2 ^ 31 ≤ i ∧ i < 2 ^ 31 then some i else none

/-- The conversion of an `int` to an `unsigned int`. -/
def toUnsigned (i : Int) : Nat :=
  (i % 2 ^ 32).toNat

/-- `CopyMapRegion`. -/
def copyMapRegion {α : Type*} (srcMap dstMap : Buffer α) (srcMapSizeX dstMapSizeX : Nat)
    (srcLowerLeftX srcLowerLeftY dstLowerLeftX dstLowerLeftY regionSizeX regionSizeY : Nat) :
    Option (Buffer α) :=
  srcMap.copyRows srcMapSizeX dstMapSizeX regionSizeX regionSizeY
    ((srcLowerLeftX + srcLowerLeftY * srcMapSizeX) % 2 ^ 32)
    ((dstLowerLeftX + dstLowerLeftY * dstMapSizeX) % 2 ^ 32) dstMap

/-- `Costmap2D`. -/
structure Costmap2D where
  sizeX : Nat
  sizeY : Nat
  resolution : Rat
  originX : Rat
  originY : Rat
  costmap : Buffer UInt8
  defaultValue : UInt8

namespace Costmap2D

variable (map : Costmap2D) (rnd : Rat → Rat)

/-- The array that `InitMaps` allocates, with what happens to be in it. -/
def newArray (sizeX sizeY : Nat) (contents : Nat → UInt8) : Buffer UInt8 :=
  ⟨sizeX * sizeY % 2 ^ 32, contents⟩

/-- The array after `DeleteMaps`. -/
def noArray : Buffer UInt8 :=
  ⟨0, fun _ => 0⟩

/-- `GetIndex`. -/
def getIndex (mx my : Nat) : Nat :=
  (my * map.sizeX + mx) % 2 ^ 32

/-- `GetCost`. -/
def getCost (mx my : Nat) : Option UInt8 :=
  map.costmap.get? (map.getIndex mx my)

/-- The number of cells from an origin to a coordinate, as an `int`. -/
def cellNumber (origin w : Rat) : Option Int :=
  if map.resolution = 0 then none
  else asInt (truncate (rnd (rnd (w - origin) / map.resolution)))

/-- `World2Map`. -/
def world2Map (wx wy : Rat) : Option (Option Cell) :=
  if wx < map.originX ∨ wy < map.originY then some none
  else do
    let mx := toUnsigned (← map.cellNumber rnd map.originX wx)
    let my := toUnsigned (← map.cellNumber rnd map.originY wy)
    if mx < map.sizeX ∧ my < map.sizeY then some (some (mx, my)) else some none

/-- `ResetMaps`. -/
def resetMaps : Option (Buffer UInt8) :=
  map.costmap.fill map.defaultValue (map.sizeX * map.sizeY % 2 ^ 32)

/-- What `CopyCostMapWindow` is given to copy from. -/
inductive Source where
  | this
  | other (map : Costmap2D)

/-- `CopyCostMapWindow`, with the contents of the new array: what it returns, and the map after
it. -/
def copyCostMapWindow (contents : Nat → UInt8) (wOriginX wOriginY wSizeX wSizeY : Rat) :
    Source → Option (Bool × Costmap2D)
  | .this => some (false, map)
  | .other src => do
      -- `DeleteMaps` is called before the window is looked up
      let deleted := { map with costmap := noArray }
      match ← src.world2Map rnd wOriginX wOriginY with
      | none => pure (false, deleted)
      | some lowerLeft =>
          match ← src.world2Map rnd (rnd (wOriginX + wSizeX)) (rnd (wOriginY + wSizeY)) with
          | none => pure (false, deleted)
          | some upperRight =>
              let sizeX := toUnsigned (upperRight.1 - lowerLeft.1)
              let sizeY := toUnsigned (upperRight.2 - lowerLeft.2)
              let costmap ← copyMapRegion src.costmap (newArray sizeX sizeY contents) src.sizeX
                sizeX lowerLeft.1 lowerLeft.2 0 0 sizeX sizeY
              pure (true,
                { map with
                  sizeX := sizeX
                  sizeY := sizeY
                  resolution := src.resolution
                  originX := wOriginX
                  originY := wOriginY
                  costmap := costmap })

/-! ## Well-formed maps -/

/-- The array has an element for each cell, or there is none. -/
structure WellFormed : Prop where
  sizeX_lt : map.sizeX < 2 ^ 32
  sizeY_lt : map.sizeY < 2 ^ 32
  array : map.costmap.size = 0 ∨
    (map.costmap.size = map.sizeX * map.sizeY ∧ map.sizeX * map.sizeY < 2 ^ 32)

/-- A map as its constructor leaves it: there is an array for its cells, which have a size. -/
structure Allocated : Prop where
  resolution_pos : 0 < map.resolution
  size : map.costmap.size = map.sizeX * map.sizeY
  size_lt : map.sizeX * map.sizeY < 2 ^ 32

end Costmap2D

/-! ## Machine integers -/

theorem toUnsigned_of_nonneg {i : Int} (h : 0 ≤ i) (hlt : i < 2 ^ 32) : toUnsigned i = i.toNat := by
  rw [toUnsigned, Int.emod_eq_of_lt h hlt]

/-! ## Regions -/

section Regions

variable {α : Type*} {srcMap dstMap : Buffer α} {srcSizeX dstSizeX sx sy dx dy nx ny : Nat}

/-- A region without cells is copied without an access. -/
theorem copyMapRegion_empty (h : nx = 0 ∨ ny = 0) :
    copyMapRegion srcMap dstMap srcSizeX dstSizeX sx sy dx dy nx ny = some dstMap := by
  rcases h with rfl | rfl
  · exact Buffer.copyRows_empty ..
  · rfl

/-- The index of the first cell of a region with cells. -/
theorem region_start_lt {width x₀ y₀ size : Nat} (hx : x₀ + nx ≤ width) (hnx : 0 < nx)
    (hny : 0 < ny) (hsize : (y₀ + ny) * width ≤ size) (hlt : size < 2 ^ 32) :
    (x₀ + y₀ * width) % 2 ^ 32 = x₀ + y₀ * width := by
  have hrow := (Buffer.row_le width (show y₀ < y₀ + ny by omega)).trans hsize
  exact Nat.mod_eq_of_lt (by omega)

/-- A region with cells that lies inside both maps. -/
theorem copyMapRegion_rect (hsx : sx + nx ≤ srcSizeX) (hdx : dx + nx ≤ dstSizeX)
    (hsrc : (sy + ny) * srcSizeX ≤ srcMap.size) (hdst : (dy + ny) * dstSizeX ≤ dstMap.size)
    (hsrcLt : srcMap.size < 2 ^ 32) (hdstLt : dstMap.size < 2 ^ 32) (hnx : 0 < nx) (hny : 0 < ny) :
    ∃ dst', copyMapRegion srcMap dstMap srcSizeX dstSizeX sx sy dx dy nx ny = some dst' ∧
      dst'.size = dstMap.size ∧
      ∀ x < dstSizeX, ∀ y, dst'.elem (y * dstSizeX + x) =
        if (dx ≤ x ∧ x < dx + nx) ∧ dy ≤ y ∧ y < dy + ny then
          srcMap.elem ((sy + (y - dy)) * srcSizeX + (sx + (x - dx)))
        else dstMap.elem (y * dstSizeX + x) := by
  unfold copyMapRegion
  rw [region_start_lt hsx hnx hny hsrc hsrcLt, region_start_lt hdx hnx hny hdst hdstLt]
  exact Buffer.copyRows_rect hsx hdx hsrc hdst

end Regions

namespace Costmap2D

/-- The cells of an allocated map can be read. -/
theorem getCost_eq (map : Costmap2D) (hsize : map.costmap.size = map.sizeX * map.sizeY)
    (hlt : map.sizeX * map.sizeY < 2 ^ 32) {x y : Nat} (hx : x < map.sizeX) (hy : y < map.sizeY) :
    map.getCost x y = some (map.costmap.elem (y * map.sizeX + x)) := by
  have hindex : y * map.sizeX + x < map.sizeX * map.sizeY := by
    have hrow := Buffer.row_le map.sizeX hy
    rw [Nat.mul_comm map.sizeX]
    omega
  rw [getCost, getIndex, Nat.mod_eq_of_lt (by omega)]
  exact Buffer.get?_of_lt (by omega)

end Costmap2D

end RoboRTS.Costmap
