import Mathlib.Data.Rat.Floor
import Mathlib.Algebra.Order.Floor.Ring

/-!
# Rounding to double precision

`toDouble` rounds an exact number to a nearest multiple of the unit in its last place, ties to even,
with the precision of the binary64 format. A format of any other precision rounds in the same way.
Numbers that are too large for the format are not cut off.
-/

namespace Binary64

/-- The exponent of the greatest power of two that is not larger than `q`. -/
def exponent (q : Rat) : Int :=
  let e : Int := (Nat.log2 q.num.natAbs : Int) - Nat.log2 q.den
  if (2 : Rat) ^ e ≤ |q| then e else e - 1

/-- The unit in the last place of the doubles of the size of `q`. -/
def ulp (q : Rat) : Rat :=
  (2 : Rat) ^ max (exponent q - 52) (-1074)

/-- The nearest integer, the even one between two. -/
def roundHalfEven (q : Rat) : Int :=
  let rest := q - q.floor
  if rest < 1 / 2 then q.floor
  else if rest > 1 / 2 then q.floor + 1
  else if q.floor % 2 = 0 then q.floor else q.floor + 1

/-- The double that an exact result is rounded to. -/
def toDouble (q : Rat) : Rat :=
  roundHalfEven (q / ulp q) * ulp q

end Binary64
