import Mathlib.Data.List.Basic
import Mathlib.Data.List.Enum
import Mathlib.Tactic.Common

/-!
# Erasing in a loop that moves forward

A loop runs through two vectors of one length by an index, erases the elements that are marked in
the second one from both, and goes on with the next index whether it has erased or not. The element
behind an erased one moves to its place and is passed over. So of consecutive marked elements every
second one is erased, from the first on (`loop_eq`).
-/

namespace ForwardErase

variable {α : Type*}

/-- The loop from index `i` on, for at most `fuel` rounds. -/
def loop : Nat → Nat → List α → List Bool → List α
  | 0, _, xs, _ => xs
  | fuel + 1, i, xs, flags =>
      if i < xs.length then
        if flags[i]? = some false then loop fuel (i + 1) (xs.eraseIdx i) (flags.eraseIdx i)
        else loop fuel (i + 1) xs flags
      else xs

/-- The element number `k` is erased: it is marked, and the one before it is not erased. -/
def erased (marked : Nat → Bool) : Nat → Bool
  | 0 => marked 0
  | k + 1 => marked (k + 1) && !erased marked k

/-- What the loop leaves of elements with their flags, after one that it has erased or not. -/
def sweep : Bool → List (α × Bool) → List α
  | _, [] => []
  | true, (x, _) :: rest => x :: sweep false rest
  | false, (x, true) :: rest => x :: sweep false rest
  | false, (_, false) :: rest => sweep true rest

/-- The loop at the border between elements that it has passed and the rest. -/
theorem loop_append (fuel : Nat) (passed : List α) (passedFlags : List Bool)
    (rest : List (α × Bool)) (hlength : passedFlags.length = passed.length)
    (hfuel : rest.length ≤ fuel) :
    loop fuel passed.length (passed ++ rest.map Prod.fst) (passedFlags ++ rest.map Prod.snd) =
      passed ++ sweep false rest := by
  induction fuel generalizing passed passedFlags rest with
  | zero =>
      obtain rfl := List.eq_nil_of_length_eq_zero (Nat.le_zero.mp hfuel)
      rw [loop, sweep, List.map_nil]
  | succ fuel ih =>
      -- one more element behind the border
      have hnext : ∀ (x : α) (flag : Bool) (tail : List (α × Bool)), tail.length ≤ fuel →
          loop fuel (passed.length + 1) (passed ++ x :: tail.map Prod.fst)
            (passedFlags ++ flag :: tail.map Prod.snd) = passed ++ x :: sweep false tail := by
        intro x flag tail htail
        have h := ih (passed ++ [x]) (passedFlags ++ [flag]) tail (by simp [hlength]) htail
        simpa using h
      cases rest with
      | nil => rw [loop, List.map_nil, List.append_nil, if_neg (Nat.lt_irrefl _), sweep]; simp
      | cons first tail =>
          obtain ⟨x, flag⟩ := first
          rw [List.length_cons] at hfuel
          have hin : passed.length < (passed ++ x :: tail.map Prod.fst).length := by simp
          have hflag : (passedFlags ++ flag :: tail.map Prod.snd)[passed.length]? = some flag := by
            rw [← hlength, List.getElem?_append_right (Nat.le_refl _), Nat.sub_self]
            rfl
          rw [loop, List.map_cons, List.map_cons, if_pos hin, hflag]
          cases flag with
          | true =>
              rw [if_neg (by simp), hnext x true tail (by omega), sweep]
          | false =>
              have herase : (passed ++ x :: tail.map Prod.fst).eraseIdx passed.length =
                  passed ++ tail.map Prod.fst := by
                rw [List.eraseIdx_append_of_length_le (Nat.le_refl _), Nat.sub_self]
                rfl
              have heraseFlags : (passedFlags ++ false :: tail.map Prod.snd).eraseIdx
                  passed.length = passedFlags ++ tail.map Prod.snd := by
                rw [← hlength, List.eraseIdx_append_of_length_le (Nat.le_refl _), Nat.sub_self]
                rfl
              rw [if_pos rfl, herase, heraseFlags, sweep]
              -- the element behind the erased one is passed over
              cases tail with
              | nil =>
                  rw [sweep, List.append_nil, List.map_nil, List.append_nil]
                  cases fuel with
                  | zero => rfl
                  | succ fuel => rw [loop, if_neg (by omega)]
              | cons second tail =>
                  obtain ⟨y, flag⟩ := second
                  rw [List.length_cons] at hfuel
                  rw [List.map_cons, List.map_cons, hnext y flag tail (by omega), sweep]

/-- The sweep in terms of the numbers of the elements. -/
theorem sweep_eq (marked : Nat → Bool) (xs : List α) (k : Nat) (previous : Bool)
    (hprevious : erased marked k = (marked k && !previous)) :
    sweep previous ((xs.zipIdx k).map fun p => (p.1, !marked p.2)) =
      ((xs.zipIdx k).filter fun p => !erased marked p.2).map Prod.fst := by
  induction xs generalizing k previous with
  | nil => cases previous <;> rfl
  | cons x xs ih =>
      have hrest := ih (k + 1) (erased marked k) rfl
      rw [List.zipIdx_cons, List.map_cons, List.filter_cons]
      cases hmarked : marked k <;> cases previous <;>
        simp only [hmarked, Bool.true_and, Bool.false_and, Bool.not_true, Bool.not_false]
          at hprevious ⊢ <;>
        rw [hprevious] at hrest ⊢ <;> simp [sweep, hrest]

/-- The loop leaves the elements that are not erased, in their order. -/
theorem loop_eq {xs : List α} {flags : List Bool} {marked : Nat → Bool}
    (hlength : flags.length = xs.length)
    (hflags : ∀ k < xs.length, flags[k]? = some (!marked k)) {fuel : Nat}
    (hfuel : xs.length ≤ fuel) :
    loop fuel 0 xs flags = (xs.zipIdx.filter fun p => !erased marked p.2).map Prod.fst := by
  have hzip : flags = (xs.zipIdx.map fun (x, k) => (x, !marked k)).map Prod.snd := by
    refine List.ext_getElem? fun k => ?_
    rcases Nat.lt_or_ge k xs.length with hin | hout
    · rw [hflags k hin]
      simp [List.getElem?_zipIdx, List.getElem?_eq_getElem hin]
    · rw [List.getElem?_eq_none (by omega), List.getElem?_eq_none (by simpa using hout)]
  have hfst : (xs.zipIdx.map fun (x, k) => (x, !marked k)).map Prod.fst = xs := by
    rw [List.map_map]
    exact List.zipIdx_map_fst 0 xs
  have h := loop_append fuel ([] : List α) [] (xs.zipIdx.map fun (x, k) => (x, !marked k)) rfl
    (by simpa using hfuel)
  rw [List.nil_append, List.nil_append, List.nil_append, hfst, ← hzip, sweep_eq marked xs 0 false
    (by simp [erased])] at h
  exact h

end ForwardErase
