import Mathlib.Data.List.Rotate
import Mathlib.Tactic.Common

/-!
# Going round a list

The elements of a list are served one after the other, and after the last one the first one again.
A cursor into the list that is taken modulo its length does this (`laps_rotate`).
-/

namespace Laps

variable {α : Type*}

/-- The first `n` elements of the endless repetition of a list. -/
def laps : List α → Nat → List α
  | _, 0 => []
  | [], _ + 1 => []
  | a :: l, n + 1 => a :: laps (l ++ [a]) n

variable {l : List α} {i k n : Nat}

theorem laps_zero (l : List α) : laps l 0 = [] := by
  cases l <;> rfl

/-- What is behind the cursor is served next, and the cursor goes on by one. -/
theorem laps_rotate (h : i < l.length) (n : Nat) :
    laps (l.rotate i) (n + 1) = l[i] :: laps (l.rotate ((i + 1) % l.length)) n := by
  have hnext : l.rotate i = l[i] :: (l.drop (i + 1) ++ l.take i) := by
    rw [List.rotate_eq_drop_append_take h.le, List.drop_eq_getElem_cons h, List.cons_append]
  have hrotate : l.rotate ((i + 1) % l.length) = l.drop (i + 1) ++ l.take i ++ [l[i]] := by
    rw [List.rotate_mod, ← List.rotate_rotate, hnext, List.rotate_cons_succ, List.rotate_zero]
  rw [hrotate, hnext, laps]

theorem length_laps (hl : l ≠ []) (n : Nat) : (laps l n).length = n := by
  induction n generalizing l with
  | zero => rw [laps_zero, List.length_nil]
  | succ n ih =>
      obtain ⟨a, l, rfl⟩ := List.exists_cons_of_ne_nil hl
      rw [laps, List.length_cons, ih (List.append_ne_nil_of_right_ne_nil l (List.cons_ne_nil a []))]

/-- The element after `k` others. -/
theorem getElem?_laps (hl : l ≠ []) (hk : k < n) : (laps l n)[k]? = l[k % l.length]? := by
  induction n generalizing l k with
  | zero => exact absurd hk (Nat.not_lt_zero k)
  | succ n ih =>
      have hpos : 0 < l.length := List.length_pos_of_ne_nil hl
      have hcons := laps_rotate hpos n
      rw [List.rotate_zero] at hcons
      rw [hcons]
      cases k with
      | zero => rw [List.getElem?_cons_zero, Nat.zero_mod, List.getElem?_eq_getElem hpos]
      | succ k =>
          rw [List.getElem?_cons_succ,
            ih (fun h => hl (List.rotate_eq_nil_iff.mp h)) (Nat.lt_of_succ_lt_succ hk),
            List.length_rotate, List.getElem?_rotate (Nat.mod_lt k hpos), Nat.zero_add,
            Nat.add_mod_mod, Nat.mod_add_mod]

end Laps
