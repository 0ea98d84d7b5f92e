import Mathlib.Data.List.Count
import Mathlib.Data.List.Perm.Basic
import Mathlib.Order.Basic
import Mathlib.Tactic.Common
import Mathlib.Tactic.Ring

/-!
# Gnome sort by a key

`loop key fuel i l` compares the elements at `i` and `i + 1`, swaps them and steps back if they are
out of order, and steps forward otherwise. Each swap undoes an inversion of the list, so that the
loop ends within a quadratic number of steps, with an ordered permutation of the list (`loop_spec`).
-/

namespace GnomeSort

variable {α β : Type*} [LinearOrder β] (key : α → β)

/-- The loop from number `i` on, in at most `fuel` tests of its condition. -/
def loop : Nat → Nat → List α → Option (List α)
  | 0, _, _ => none
  | fuel + 1, i, l =>
      match l[i]?, l[i + 1]? with
      | some a, some b =>
          if key b < key a then loop fuel (i - 1) ((l.set i b).set (i + 1) a)
          else loop fuel (i + 1) l
      | _, _ => some l

/-- The number of pairs of elements that are out of order. -/
def inversions : List α → Nat
  | [] => 0
  | a :: l => l.countP (fun b => key b < key a) + inversions l

variable {key} {a b : α} {l front back : List α} {i fuel : Nat}

/-- Two neighbours that are out of order are one inversion more than in order. -/
theorem inversions_swap (h : key b < key a) (front back : List α) :
    inversions key (front ++ a :: b :: back) = inversions key (front ++ b :: a :: back) + 1 := by
  induction front with
  | nil =>
      have hnot : ¬ key a < key b := not_lt_of_gt h
      simp only [List.nil_append, inversions, List.countP_cons, h, hnot, decide_true, decide_false,
        if_true, Bool.false_eq_true, if_false]
      omega
  | cons c front ih =>
      have hcount : (front ++ a :: b :: back).countP (fun d => key d < key c) =
          (front ++ b :: a :: back).countP fun d => key d < key c :=
        (List.Perm.append_left front (List.Perm.swap b a back)).countP_eq _
      rw [List.cons_append, List.cons_append, inversions, inversions, hcount, ih]
      rfl

/-- There are fewer inversions than pairs. -/
theorem inversions_le (key : α → β) (l : List α) :
    2 * inversions key l + l.length ≤ l.length * l.length := by
  induction l with
  | nil => exact Nat.le_refl 0
  | cons a l ih =>
      have hcount : l.countP (fun b => key b < key a) ≤ l.length := List.countP_le_length
      have hsquare : (l.length + 1) * (l.length + 1) = l.length * l.length + 2 * l.length + 1 := by
        ring
      rw [inversions, List.length_cons, hsquare]
      omega

/-- The two elements that the loop compares, with what is before and behind them. -/
theorem split_at (ha : l[i]? = some a) (hb : l[i + 1]? = some b) :
    ∃ front back, l = front ++ a :: b :: back ∧ front.length = i := by
  obtain ⟨hi, rfl⟩ := List.getElem?_eq_some_iff.mp ha
  obtain ⟨hi', rfl⟩ := List.getElem?_eq_some_iff.mp hb
  refine ⟨l.take i, l.drop (i + 2), ?_, List.length_take_of_le (by omega)⟩
  rw [← List.drop_eq_getElem_cons hi', ← List.drop_eq_getElem_cons hi, List.take_append_drop]

theorem set_swap (front back : List α) (a b : α) :
    ((front ++ a :: b :: back).set front.length b).set (front.length + 1) a =
      front ++ b :: a :: back := by
  rw [List.set_append_right _ _ (Nat.le_refl _), Nat.sub_self,
    List.set_append_right _ _ (Nat.le_succ _), Nat.succ_sub (Nat.le_refl _), Nat.sub_self]
  rfl

/-- The loop on a list whose elements up to number `i` are in order. -/
theorem loop_spec (hordered : (l.take (i + 1)).Pairwise fun a b => key a ≤ key b)
    (hi : i ≤ l.length) (hfuel : 2 * inversions key l + l.length < fuel + i) :
    ∃ l', loop key fuel i l = some l' ∧ l'.Perm l ∧ l'.Pairwise fun a b => key a ≤ key b := by
  induction fuel generalizing i l with
  | zero => omega
  | succ fuel ih =>
      have hend : l.length ≤ i + 1 → l.Pairwise fun a b => key a ≤ key b :=
        fun hle => List.take_of_length_le hle ▸ hordered
      unfold loop
      cases ha : l[i]? with
      | none => exact ⟨l, rfl, .refl l, hend (by have := List.getElem?_eq_none_iff.mp ha; omega)⟩
      | some a =>
        cases hb : l[i + 1]? with
        | none => exact ⟨l, rfl, .refl l, hend (List.getElem?_eq_none_iff.mp hb)⟩
        | some b =>
            obtain ⟨front, back, rfl, rfl⟩ := split_at ha hb
            have hfront : (front ++ [a]).Pairwise fun a b => key a ≤ key b := by
              rwa [show front ++ a :: b :: back = (front ++ [a]) ++ b :: back by simp,
                List.take_left' (by simp)] at hordered
            dsimp only
            by_cases hswap : key b < key a
            · rw [if_pos hswap, set_swap]
              have hinversions := inversions_swap hswap front back
              have hlength :
                  (front ++ b :: a :: back).length = (front ++ a :: b :: back).length := by
                simp
              have hback : ((front ++ b :: a :: back).take (front.length - 1 + 1)).Pairwise
                  fun a b => key a ≤ key b := by
                cases front with
                | nil => exact List.pairwise_singleton _ b
                | cons c front =>
                    rw [List.take_left' (by simp)]
                    exact (List.pairwise_append.mp hfront).1
              obtain ⟨l', hloop, hperm, hl'⟩ := ih hback (by omega) (by omega)
              exact ⟨l', hloop, hperm.trans (List.Perm.append_left front (.swap a b back)), hl'⟩
            · rw [if_neg hswap]
              refine ih ?_ (by simp) (by omega)
              rw [show front ++ a :: b :: back = (front ++ [a]) ++ [b] ++ back by simp,
                List.take_left' (by simp)]
              refine List.pairwise_append.mpr ⟨hfront, List.pairwise_singleton _ b, ?_⟩
              intro c hc d hd
              rw [List.mem_singleton.mp hd]
              -- the element in front of `b` is the greatest so far
              have hle : key a ≤ key b := not_lt.mp hswap
              rcases List.mem_append.mp hc with hc | hc
              · have hca := (List.pairwise_append.mp hfront).2.2 c hc a (List.mem_singleton_self a)
                exact hca.trans hle
              · rwa [List.mem_singleton.mp hc]

/-- The loop from the start of a list. -/
theorem loop_total (key : α → β) (hl : l ≠ []) :
    ∃ l', loop key (l.length * l.length + l.length) 0 l = some l' ∧ l'.Perm l ∧
      l'.Pairwise fun a b => key a ≤ key b := by
  obtain ⟨a, rest, rfl⟩ := List.exists_cons_of_ne_nil hl
  refine loop_spec (List.pairwise_singleton _ a) (Nat.zero_le _) ?_
  have hle := inversions_le key (a :: rest)
  rw [List.length_cons] at hle ⊢
  omega

end GnomeSort
