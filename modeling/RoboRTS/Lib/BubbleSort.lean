import Mathlib.Data.List.Basic
import Mathlib.Data.List.Perm.Basic
import Mathlib.Order.Basic
import Mathlib.Order.Lattice

/-!
# Bubble sort by a key

`sort key l` sorts the list `l` by passes of adjacent compare-and-swap steps that get
shorter by one. The key may be any function into a linear order. The result is ordered
(`sort_pairwise`), and a first element with the least key stays first (`sort_head`), which is the
part of stability that the clients need.
-/

namespace BubbleSort

variable {α β : Type*} [LinearOrder β] (key : α → β)

/-- One pass: compare and swap the first `k` adjacent pairs, from left to right. -/
def pass : Nat → List α → List α
  | k + 1, a :: b :: rest =>
      if key b < key a then b :: pass k (a :: rest) else a :: pass k (b :: rest)
  | _, l => l

/-- Passes over the first `k`, `k - 1`, ..., `1` adjacent pairs. -/
def passes : Nat → List α → List α
  | 0, l => l
  | k + 1, l => passes k (pass key (k + 1) l)

/-- Bubble sort: the first pass covers all adjacent pairs. -/
def sort (l : List α) : List α :=
  passes key (l.length - 1) l

/-! ## Permutation -/

theorem pass_perm (k : Nat) (l : List α) : (pass key k l).Perm l := by
  induction k generalizing l with
  | zero => rw [pass]; simp
  | succ k ih =>
      match l with
      | [] => simp [pass]
      | [a] => simp [pass]
      | a :: b :: rest =>
          rw [pass]
          split
          · exact ((ih (a :: rest)).cons b).trans (List.Perm.swap a b rest)
          · exact (ih (b :: rest)).cons a

/-! ## Order -/

/-- A pass over `k` pairs does not look past the first `k + 1` elements. -/
theorem pass_append (k : Nat) (xs ys : List α) (h : xs.length = k + 1) :
    pass key k (xs ++ ys) = pass key k xs ++ ys := by
  induction k generalizing xs with
  | zero =>
      rw [pass, pass] <;> simp
  | succ k ih =>
      match xs with
      | [] => simp at h
      | [a] => simp at h
      | a :: b :: rest =>
          have hlen : rest.length = k := by simpa using h
          simp only [List.cons_append, pass]
          split
          · rw [← List.cons_append, ih (a :: rest) (by simp [hlen]), List.cons_append]
          · rw [← List.cons_append, ih (b :: rest) (by simp [hlen]), List.cons_append]

/-- The last element bounds the whole list when it bounds the others. -/
theorem key_le_last {l zs : List α} {top : α} (hperm : (zs ++ [top]).Perm l)
    (hle : ∀ z ∈ zs, key z ≤ key top) {x : α} (hx : x ∈ l) : key x ≤ key top := by
  rcases List.mem_append.mp (hperm.mem_iff.mpr hx) with hz | ht
  · exact hle x hz
  · rw [List.mem_singleton.mp ht]

/-- A pass over a whole list moves an element with the greatest key to its end. -/
theorem pass_last (k : Nat) (xs : List α) (h : xs.length = k + 1) :
    ∃ zs top, pass key k xs = zs ++ [top] ∧ ∀ z ∈ zs, key z ≤ key top := by
  induction k generalizing xs with
  | zero =>
      match xs with
      | [] => simp at h
      | [a] => exact ⟨[], a, by simp [pass], by simp⟩
      | _ :: _ :: _ => simp at h
  | succ k ih =>
      match xs with
      | [] => simp at h
      | [a] => simp at h
      | a :: b :: rest =>
          have hlen : rest.length = k := by simpa using h
          rw [pass]
          split
          case isTrue hlt =>
              obtain ⟨zs, top, heq, hle⟩ := ih (a :: rest) (by simp [hlen])
              have htop : key a ≤ key top :=
                key_le_last key (heq ▸ pass_perm key k (a :: rest)) hle (by simp)
              exact ⟨b :: zs, top, by rw [heq]; rfl,
                List.forall_mem_cons.mpr ⟨hlt.le.trans htop, hle⟩⟩
          case isFalse hge =>
              obtain ⟨zs, top, heq, hle⟩ := ih (b :: rest) (by simp [hlen])
              have htop : key b ≤ key top :=
                key_le_last key (heq ▸ pass_perm key k (b :: rest)) hle (by simp)
              exact ⟨a :: zs, top, by rw [heq]; rfl,
                List.forall_mem_cons.mpr ⟨(not_lt.mp hge).trans htop, hle⟩⟩

/-- The loop invariant of the passes: a sorted suffix that bounds the unsorted prefix. -/
theorem passes_pairwise (k : Nat) (xs ys : List α) (h : xs.length = k + 1)
    (hsorted : ys.Pairwise fun x y => key x ≤ key y)
    (hbound : ∀ x ∈ xs, ∀ y ∈ ys, key x ≤ key y) :
    (passes key k (xs ++ ys)).Pairwise fun x y => key x ≤ key y := by
  induction k generalizing xs ys with
  | zero =>
      match xs with
      | [] => simp at h
      | [a] => exact List.pairwise_cons.mpr ⟨fun y hy => hbound a (by simp) y hy, hsorted⟩
      | _ :: _ :: _ => simp at h
  | succ k ih =>
      obtain ⟨zs, top, heq, hle⟩ := pass_last key (k + 1) xs h
      have hperm : (zs ++ [top]).Perm xs := heq ▸ pass_perm key (k + 1) xs
      have hlen : zs.length = k + 1 := by
        have := hperm.length_eq
        simp only [List.length_append, List.length_singleton] at this
        omega
      have hsub : ∀ z ∈ zs, z ∈ xs := fun z hz => hperm.mem_iff.mp (by simp [hz])
      have htop : top ∈ xs := hperm.mem_iff.mp (by simp)
      rw [passes, pass_append key (k + 1) xs ys h, heq, List.append_assoc]
      refine ih zs ([top] ++ ys) hlen ?_ ?_
      · exact List.pairwise_cons.mpr ⟨fun y hy => hbound top htop y hy, hsorted⟩
      · intro z hz y hy
        rcases List.mem_cons.mp hy with rfl | hy
        · exact hle z hz
        · exact hbound z (hsub z hz) y hy

/-- The sorted list is ordered by the key. -/
theorem sort_pairwise (l : List α) : (sort key l).Pairwise fun x y => key x ≤ key y := by
  cases l with
  | nil => simp [sort, passes]
  | cons a l =>
      have h := passes_pairwise key l.length (a :: l) [] (by simp) List.Pairwise.nil (by simp)
      simpa [sort] using h

/-! ## The first element -/

/-- A pass never moves a first element whose key is the least. -/
theorem pass_head (k : Nat) (a : α) (l : List α) (h : ∀ x ∈ l, key a ≤ key x) :
    ∃ l', pass key k (a :: l) = a :: l' ∧ l'.Perm l := by
  cases k with
  | zero => exact ⟨l, by rw [pass]; simp, List.Perm.refl l⟩
  | succ k =>
      cases l with
      | nil => exact ⟨[], by simp [pass], List.Perm.refl []⟩
      | cons b rest =>
          refine ⟨pass key k (b :: rest), ?_, pass_perm key k _⟩
          rw [pass, if_neg (not_lt.mpr (h b (by simp)))]

theorem passes_head (k : Nat) (a : α) (l : List α) (h : ∀ x ∈ l, key a ≤ key x) :
    ∃ l', passes key k (a :: l) = a :: l' ∧ l'.Perm l := by
  induction k generalizing l with
  | zero => exact ⟨l, rfl, List.Perm.refl l⟩
  | succ k ih =>
      obtain ⟨l₁, heq, hperm⟩ := pass_head key (k + 1) a l h
      obtain ⟨l₂, heq', hperm'⟩ := ih l₁ (fun x hx => h x (hperm.mem_iff.mp hx))
      exact ⟨l₂, by rw [passes, heq, heq'], hperm'.trans hperm⟩

/-- A first element with the least key is still first after sorting. -/
theorem sort_head (a : α) (l : List α) (h : ∀ x ∈ l, key a ≤ key x) :
    ∃ l', sort key (a :: l) = a :: l' ∧ l'.Perm l :=
  passes_head key _ a l h

end BubbleSort
