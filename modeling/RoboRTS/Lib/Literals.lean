import Mathlib.Algebra.GroupWithZero.Nat
import Mathlib.Data.Nat.Init

/-!
# Literals

The instances of the literals that several modules share. As constants they stay in the definitions
as they are; a proof that is a term would become a lemma of the first definition that needs it.
-/

namespace Literals

instance atLeastTwo_two : Nat.AtLeastTwo 2 := ⟨by decide⟩

instance atLeastTwo_three : Nat.AtLeastTwo 3 := ⟨by decide⟩

instance atLeastTwo_nine : Nat.AtLeastTwo 9 := ⟨by decide⟩

instance atLeastTwo_ten : Nat.AtLeastTwo 10 := ⟨by decide⟩

instance atLeastTwo_twelve : Nat.AtLeastTwo 12 := ⟨by decide⟩

instance atLeastTwo_oneHundredEighty : Nat.AtLeastTwo 180 := ⟨by decide⟩

instance neZero_two : NeZero 2 := ⟨by decide⟩

instance neZero_three : NeZero 3 := ⟨by decide⟩

instance neZero_four : NeZero 4 := ⟨by decide⟩

end Literals
