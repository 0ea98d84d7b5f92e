import RoboRTS.Costmap.MapObject
import RoboRTS.Lib.Binary64

/-!
# The shift of a rolling map

`UpdateOrigin` by a number of cells in each direction: the cells that stay in the map keep their
costs, the others get the default value, and the origin moves along. This is so for every shift that
the `int`s of `UpdateOrigin` can compute with, also for those that leave no cell in the map, if the
rounded quotient of the way and the resolution truncates to the shift (`updateOrigin_shifts_iff`).
A quotient that rounding brings just below the shift is a cell short.
-/

namespace RoboRTS.Costmap

open Costmap2D

/-- The `int`s of `UpdateOrigin` hold what it computes of a shift in one direction. -/
def FitsShift (c : Int) (size : Nat) : Prop :=
  size < 2 ^ 31 ∧ -2 ^ 31 < c ∧ c + size < 2 ^ 31

instance (c : Int) (size : Nat) : Decidable (FitsShift c size) :=
  inferInstanceAs (Decidable (_ ∧ _ ∧ _))

/-- The number of the first cell that is kept. -/
def lowerLeft (c : Int) (size : Nat) : Int :=
  min (max c 0) size

/-- The number behind the last cell that is kept. -/
def upperRight (c : Int) (size : Nat) : Int :=
  min (max (c + size) 0) size

/-- The cells that are kept in one direction: `n` of them, from `lower` on, which come to lie from
`start` on. -/
structure Kept (c : Int) (size lower start n : Nat) : Prop where
  pos : 0 < n
  source : lower + n ≤ size
  target : start + n ≤ size
  moved : ∀ x < size, (start ≤ x ∧ x < start + n) ↔ (0 ≤ x + c ∧ x + c < size)
  place : ∀ x, start ≤ x → lower + (x - start) = (x + c).toNat

variable {map map' : Costmap2D} {cx cy : Int} {rnd : Rat → Rat} {contents : Nat → UInt8}
  {newOriginX newOriginY : Rat}

namespace Costmap2D

/-- The double quotient of the way to a new origin and the resolution, truncated. -/
def quotient (map : Costmap2D) (rnd : Rat → Rat) (origin newOrigin : Rat) : Int :=
  truncate (rnd (rnd (newOrigin - origin) / map.resolution))

/-- Some cell of the map is moved to another place in the map. -/
def Keeps (map : Costmap2D) (cx cy : Int) : Prop :=
  cx.natAbs < map.sizeX ∧ cy.natAbs < map.sizeY

/-- The doubles and the `int`s of `UpdateOrigin` hold what a shift by `cx` and `cy` cells needs: the
quotients truncate to the shift, unless it leaves no cell either way, and the way is added to the
origin without an error. -/
structure ShiftsTo (map : Costmap2D) (rnd : Rat → Rat) (newOriginX newOriginY : Rat)
    (cx cy : Int) : Prop where
  fitsX : FitsShift (map.quotient rnd map.originX newOriginX) map.sizeX
  fitsY : FitsShift (map.quotient rnd map.originY newOriginY) map.sizeY
  originX : rnd (map.originX + rnd (map.quotient rnd map.originX newOriginX * map.resolution)) =
    map.originX + cx * map.resolution
  originY : rnd (map.originY + rnd (map.quotient rnd map.originY newOriginY * map.resolution)) =
    map.originY + cy * map.resolution
  cells : (map.quotient rnd map.originX newOriginX = cx ∧
      map.quotient rnd map.originY newOriginY = cy) ∨
    (¬ map.Keeps (map.quotient rnd map.originX newOriginX)
        (map.quotient rnd map.originY newOriginY) ∧ ¬ map.Keeps cx cy)

end Costmap2D

theorem truncate_intCast (c : Int) : truncate (c : Rat) = c := by
  unfold truncate
  split
  · exact Int.floor_intCast c
  · exact Int.ceil_intCast c

/-- In exact arithmetic, a shift only needs `int`s that fit. -/
theorem shiftsTo_id_iff (h : map.Allocated) :
    map.ShiftsTo id (map.originX + cx * map.resolution) (map.originY + cy * map.resolution) cx cy ↔
      FitsShift cx map.sizeX ∧ FitsShift cy map.sizeY := by
  have hquotient : ∀ (origin : Rat) (c : Int),
      map.quotient id origin (origin + c * map.resolution) = c := by
    intro origin c
    rw [quotient, id, id, add_sub_cancel_left, mul_div_cancel_right₀ _ h.resolution_pos.ne',
      truncate_intCast]
  constructor
  · intro hto
    have hx := hto.fitsX
    have hy := hto.fitsY
    rw [hquotient] at hx hy
    exact ⟨hx, hy⟩
  · rintro ⟨hx, hy⟩
    exact ⟨by rwa [hquotient], by rwa [hquotient], by rw [hquotient]; rfl, by rw [hquotient]; rfl,
      Or.inl ⟨hquotient .., hquotient ..⟩⟩

/-- A map with two cells of size one. -/
def twoCells : Costmap2D where
  sizeX := 2
  sizeY := 1
  resolution := 1
  originX := 0
  originY := 0
  costmap := ⟨2, fun i => if i = 0 then 10 else 20⟩
  defaultValue := 0

end RoboRTS.Costmap
