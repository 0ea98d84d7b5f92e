import Mathlib.Order.Defs.LinearOrder
import Mathlib.Tactic.Common
import Mathlib.Order.Lattice

/-!
# Floating-point numbers in exact arithmetic

A floating-point number that is computed exactly is a number, or infinite, or not a number, where a
comparison is false.
-/

/-- A number, `HUGE_VAL`, or not a number. -/
inductive ExactDouble (K : Type*) where
  | number (x : K)
  | inf
  | nan
  deriving DecidableEq

namespace ExactDouble

variable {K : Type*} [LinearOrder K]

/-- `x < y`. -/
def lt : ExactDouble K → ExactDouble K → Bool
  | .number x, .number y => x < y
  | .number _, .inf => true
  | _, _ => false

/-- `if (x < least) least = x;`. -/
def closer (least x : ExactDouble K) : ExactDouble K :=
  if x.lt least then x else least

/-- `std::min_element` of `first` and `rest`. -/
def minElement (first : ExactDouble K) (rest : List (ExactDouble K)) : ExactDouble K :=
  rest.foldl closer first

end ExactDouble
