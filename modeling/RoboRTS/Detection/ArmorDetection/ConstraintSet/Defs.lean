import RoboRTS.Lib.ForwardErase
import RoboRTS.Lib.Literals
import Mathlib.Algebra.Order.Floor.Defs
import Mathlib.Algebra.Order.Field.Basic
import Mathlib.Algebra.BigOperators.Group.List.Basic

/-!
# Filtering the armors

`ConstraintSet::FilterArmors`: candidates whose pixels are too bright or differ too much are erased,
then those that overlap a better one. Numbers are exact, over an ordered field. The pixels of a
polygon and the square root come from the libraries; the mean and the standard deviation of the
masked pixels are those that `cv::meanStdDev` documents, zero where the mask is empty.

A candidate is any value with the `ArmorInfo` that the function reads of it.
-/

namespace RoboRTS.Detection

/-- A pixel, by its column and its row. -/
abbrev Pixel := Nat × Nat

/-- `cv::RotatedRect`, without the height. -/
structure RotatedRect (K : Type*) where
  centerX : K
  centerY : K
  width : K
  angle : K
  deriving DecidableEq

/-- `ArmorInfo`, without the standard deviation, which stays what the constructor made it. -/
structure ArmorInfo (K : Type*) where
  rect : RotatedRect K
  vertex : Fin 4 → K × K

/-- The functions of the libraries: `std::sqrt`, and the pixels of a polygon that
`cv::fillConvexPoly` sets. -/
structure ImageLibrary (K : Type*) where
  sqrt : K → K
  polygon : (Fin 4 → Int × Int) → Pixel → Bool

/-- `ConstraintSet`: the image and the limits of the brightness. -/
structure ConstraintSet (K : Type*) where
  rows : Nat
  cols : Nat
  grayImg : Pixel → UInt8
  armorMaxStddev : K
  armorMaxMean : K

variable {K α : Type*} [Field K] [LinearOrder K]

namespace ConstraintSet

section Brightness

variable [FloorRing K] (lib : ImageLibrary K) (c : ConstraintSet K) (info : α → ArmorInfo K)

/-- `(int)`, towards zero. -/
def truncate (q : K) : Int :=
  if 0 ≤ q then ⌊q⌋ else ⌈q⌉

/-- The pixels of the image, row by row. -/
def pixels : List Pixel :=
  (List.range c.rows).flatMap fun y => (List.range c.cols).map fun x => (x, y)

/-- The corners of a candidate, `pts`. -/
def points (armor : α) (i : Fin 4) : Int × Int :=
  (truncate ((info armor).vertex i).1, truncate ((info armor).vertex i).2)

/-- `cv::fillConvexPoly` on a mask. -/
def fillConvexPoly (mask : Pixel → Bool) (pts : Fin 4 → Int × Int) : Pixel → Bool :=
  fun pixel => mask pixel || lib.polygon pts pixel

/-- `cv::meanStdDev` of the image, over the pixels of the mask. -/
def meanStdDev (mask : Pixel → Bool) : K × K :=
  let values := (c.pixels.filter mask).map fun pixel => ((c.grayImg pixel).toNat : K)
  let n : K := values.length
  if values = [] then (0, 0)
  else
    let mean := values.sum / n
    (mean, lib.sqrt ((values.map fun v => (v - mean) * (v - mean)).sum / n))

/-- The masked pixels are too bright, or differ too much. -/
def exceeds (mask : Pixel → Bool) : Bool :=
  let (mean, stddev) := c.meanStdDev lib mask
  stddev > c.armorMaxStddev ∨ mean > c.armorMaxMean

/-- The first loop of `FilterArmors`, over the candidates that are left, with its mask. -/
def filterBrightness (mask : Pixel → Bool) : List α → List α
  | [] => []
  | armor :: armors =>
      let mask := fillConvexPoly lib mask (points info armor)
      if c.exceeds lib mask then filterBrightness mask armors
      else armor :: filterBrightness mask armors

end Brightness

section Suppression

variable (sqrt : K → K) (info : α → ArmorInfo K) (armors : List α)

/-- Two candidates are closer than the sum of their widths. -/
def overlaps (a b : RotatedRect K) : Bool :=
  let dx := a.centerX - b.centerX
  let dy := a.centerY - b.centerY
  let dis := sqrt (dx * dx + dy * dy)
  dis < a.width + b.width

/-- The candidates `i` and `j` are compared. -/
def compare (i j : Nat) (isArmor : List Bool) : List Bool :=
  match armors[i]?, armors[j]? with
  | some a, some b =>
      if overlaps sqrt (info a).rect (info b).rect then
        if (info a).rect.angle > (info b).rect.angle then isArmor.set i false
        else isArmor.set j false
      else isArmor
  | _, _ => isArmor

/-- The loop over `j`, for at most `fuel` rounds. -/
def compareAfter (i : Nat) : Nat → Nat → List Bool → List Bool
  | 0, _, isArmor => isArmor
  | fuel + 1, j, isArmor =>
      if j < armors.length ∧ isArmor[j]? = some true then
        compareAfter i fuel (j + 1) (compare sqrt info armors i j isArmor)
      else isArmor

/-- The loop over `i`, for at most `fuel` rounds. -/
def compareFrom : Nat → Nat → List Bool → List Bool
  | 0, _, isArmor => isArmor
  | fuel + 1, i, isArmor =>
      if i < armors.length ∧ isArmor[i]? = some true then
        compareFrom fuel (i + 1)
          (compareAfter sqrt info armors i armors.length (i + 1) isArmor)
      else isArmor

/-- `is_armor` after the comparisons. -/
def isArmor : List Bool :=
  compareFrom sqrt info armors armors.length 0 (List.replicate armors.length true)

/-- The non-maximum suppression of `FilterArmors`. -/
def suppress : List α :=
  ForwardErase.loop armors.length 0 armors (isArmor sqrt info armors)

end Suppression

/-- `FilterArmors`. -/
def filterArmors [FloorRing K] (lib : ImageLibrary K) (c : ConstraintSet K)
    (info : α → ArmorInfo K) (armors : List α) : List α :=
  suppress lib.sqrt info (c.filterBrightness lib info (fun _ => false) armors)

end ConstraintSet

end RoboRTS.Detection
