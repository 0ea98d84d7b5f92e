import Mathlib.Data.List.Dedup
import Mathlib.Data.List.Nodup
import Mathlib.Tactic.Common

/-!
# Trees that split their keys

The inner nodes of a `SplitTree` hold a test that sends a key to the left or to the right, the
leaves hold a key and a value. A new key splits the leaf at which its tests end. In an `Ordered`
tree each leaf is where the tests of its key end, so that `find?` finds the leaves
(`mem_leaves_iff`). Insertion keeps this up for any choice of tests that sends the two keys of a
split to different sides (`Ordered.insert`), and a lookup after it is as in a table
(`find?_insert`).
-/

/-- A tree with tests of type `τ` in the inner nodes, and keys of type `κ` with values of type `ν`
in the leaves. -/
inductive SplitTree (κ τ ν : Type*) where
  | leaf (key : κ) (value : ν)
  | split (test : τ) (left right : SplitTree κ τ ν)

namespace SplitTree

variable {κ τ ν : Type*}

/-- The leaves, from left to right. -/
def leaves : SplitTree κ τ ν → List (κ × ν)
  | leaf key value => [(key, value)]
  | split _ left right => left.leaves ++ right.leaves

/-- The keys of the leaves. -/
def keys (t : SplitTree κ τ ν) : List κ :=
  t.leaves.map Prod.fst

/-- The number of nodes. -/
def size : SplitTree κ τ ν → Nat
  | leaf _ _ => 1
  | split _ left right => left.size + right.size + 1

/-- The number of nodes on the longest path. -/
def depth : SplitTree κ τ ν → Nat
  | leaf _ _ => 1
  | split _ left right => max left.depth right.depth + 1

variable (goesLeft : τ → κ → Bool)

/-- The tests of each inner node send the keys on its left to the left, and those on its right to
the right. -/
def Ordered : SplitTree κ τ ν → Prop
  | leaf _ _ => True
  | split test left right =>
      (∀ key ∈ left.keys, goesLeft test key = true) ∧
        (∀ key ∈ right.keys, goesLeft test key = false) ∧ left.Ordered ∧ right.Ordered

/-- The key of the leaf at which the tests of a key end. -/
def reach (key : κ) : SplitTree κ τ ν → κ
  | leaf nodeKey _ => nodeKey
  | split test left right =>
      if goesLeft test key then left.reach key else right.reach key

section Lookup

variable [DecidableEq κ]

/-- The value of a key. -/
def find? (key : κ) : SplitTree κ τ ν → Option ν
  | leaf nodeKey value => if key = nodeKey then some value else none
  | split test left right =>
      if goesLeft test key then left.find? key else right.find? key

variable (choose : κ → κ → τ) (combine : ν → ν → ν)

/-- The value of a key is combined with a new one, or the leaf at which its tests end is split. -/
def insert (key : κ) (value : ν) : SplitTree κ τ ν → SplitTree κ τ ν
  | leaf nodeKey nodeValue =>
      if key = nodeKey then leaf nodeKey (combine nodeValue value)
      else if goesLeft (choose key nodeKey) key then
        split (choose key nodeKey) (leaf key value) (leaf nodeKey nodeValue)
      else split (choose key nodeKey) (leaf nodeKey nodeValue) (leaf key value)
  | split test left right =>
      if goesLeft test key then split test (left.insert key value) right
      else split test left (right.insert key value)

end Lookup

/-! ## Sizes -/

theorem size_pos (t : SplitTree κ τ ν) : 0 < t.size := by
  cases t <;> exact Nat.succ_pos _

theorem depth_le_size (t : SplitTree κ τ ν) : t.depth ≤ t.size := by
  induction t with
  | leaf key value => exact Nat.le_refl 1
  | split test left right ihLeft ihRight =>
      have hleft := left.size_pos
      have hright := right.size_pos
      show max left.depth right.depth + 1 ≤ left.size + right.size + 1
      omega

/-- Each inner node joins two subtrees. -/
theorem size_add_one (t : SplitTree κ τ ν) : t.size + 1 = 2 * t.leaves.length := by
  induction t with
  | leaf key value => rfl
  | split test left right ihLeft ihRight =>
      show left.size + right.size + 1 + 1 = 2 * (left.leaves ++ right.leaves).length
      rw [List.length_append]
      omega

theorem length_keys (t : SplitTree κ τ ν) : t.keys.length = t.leaves.length :=
  List.length_map _

theorem keys_split (test : τ) (left right : SplitTree κ τ ν) :
    (split test left right).keys = left.keys ++ right.keys :=
  List.map_append

variable {goesLeft} {t : SplitTree κ τ ν} {key key' : κ} {value : ν}

/-! ## Lookup -/

theorem reach_mem : t.reach goesLeft key ∈ t.keys := by
  induction t with
  | leaf nodeKey nodeValue => exact List.mem_singleton_self nodeKey
  | split test left right ihLeft ihRight =>
      rw [keys_split, List.mem_append]
      unfold reach
      split
      · exact Or.inl ihLeft
      · exact Or.inr ihRight

/-- An ordered tree has a key in one leaf only. -/
theorem Ordered.nodup_keys (h : t.Ordered goesLeft) : t.keys.Nodup := by
  induction t with
  | leaf key value => exact List.nodup_singleton key
  | split test left right ihLeft ihRight =>
      obtain ⟨hleft, hright, hordered, hordered'⟩ := h
      rw [keys_split]
      refine (ihLeft hordered).append (ihRight hordered') fun key hkey hkey' => ?_
      exact Bool.false_ne_true ((hright key hkey').symm.trans (hleft key hkey))

variable [DecidableEq κ]

/-- In an ordered tree, `find?` finds what is in the leaves. -/
theorem mem_leaves_iff (h : t.Ordered goesLeft) :
    (key, value) ∈ t.leaves ↔ t.find? goesLeft key = some value := by
  induction t with
  | leaf nodeKey nodeValue =>
      show (key, value) ∈ [(nodeKey, nodeValue)] ↔
        (if key = nodeKey then some nodeValue else none) = some value
      rw [List.mem_singleton, Prod.mk.injEq]
      by_cases heq : key = nodeKey
      · rw [if_pos heq, Option.some.injEq]
        exact ⟨fun h => h.2.symm, fun h => ⟨heq, h.symm⟩⟩
      · rw [if_neg heq]
        exact iff_of_false (fun h => heq h.1) (by simp)
  | split test left right ihLeft ihRight =>
      obtain ⟨hleft, hright, hordered, hordered'⟩ := h
      show (key, value) ∈ left.leaves ++ right.leaves ↔
        (if goesLeft test key then left.find? goesLeft key else right.find? goesLeft key) =
          some value
      rw [List.mem_append]
      by_cases htest : goesLeft test key = true
      · rw [if_pos htest, ← ihLeft hordered]
        refine or_iff_left fun hmem => ?_
        have hfalse := hright key (List.mem_map.mpr ⟨_, hmem, rfl⟩)
        rw [htest] at hfalse
        cases hfalse
      · rw [if_neg htest, ← ihRight hordered']
        exact or_iff_right fun hmem => htest (hleft key (List.mem_map.mpr ⟨_, hmem, rfl⟩))

theorem mem_keys_iff (h : t.Ordered goesLeft) :
    key ∈ t.keys ↔ ∃ value, t.find? goesLeft key = some value := by
  simp only [← mem_leaves_iff h]
  constructor
  · rintro hkey
    obtain ⟨⟨key', value⟩, hmem, rfl⟩ := List.mem_map.mp hkey
    exact ⟨value, hmem⟩
  · rintro ⟨value, hmem⟩
    exact List.mem_map.mpr ⟨_, hmem, rfl⟩

/-! ## Insertion -/

variable (goesLeft) in
/-- The test that is chosen for two keys sends them to different sides. -/
def Separates (choose : κ → κ → τ) : Prop :=
  ∀ key nodeKey, key ≠ nodeKey →
    goesLeft (choose key nodeKey) nodeKey = !goesLeft (choose key nodeKey) key

variable {choose : κ → κ → τ} {combine : ν → ν → ν}

theorem mem_keys_insert :
    key' ∈ (t.insert goesLeft choose combine key value).keys ↔ key' = key ∨ key' ∈ t.keys := by
  induction t with
  | leaf nodeKey nodeValue =>
      unfold insert
      by_cases heq : key = nodeKey
      · rw [if_pos heq]
        simp [keys, leaves, heq]
      · rw [if_neg heq]
        split <;> simp [keys, leaves, or_comm]
  | split test left right ihLeft ihRight =>
      unfold insert
      split
      · rw [keys_split, keys_split, List.mem_append, List.mem_append, ihLeft, or_assoc]
      · rw [keys_split, keys_split, List.mem_append, List.mem_append, ihRight, or_left_comm]

/-- Insertion keeps the tree ordered. -/
theorem Ordered.insert (hseparates : Separates goesLeft choose) (h : t.Ordered goesLeft) :
    (t.insert goesLeft choose combine key value).Ordered goesLeft := by
  induction t with
  | leaf nodeKey nodeValue =>
      unfold SplitTree.insert
      by_cases heq : key = nodeKey
      · rw [if_pos heq]
        trivial
      · have hother := hseparates key nodeKey heq
        rw [if_neg heq]
        by_cases htest : goesLeft (choose key nodeKey) key = true
        · rw [htest] at hother
          rw [if_pos htest]
          exact ⟨by simpa [keys, leaves] using htest, by simpa [keys, leaves] using hother, trivial,
            trivial⟩
        · rw [Bool.eq_false_iff.mpr htest] at hother
          rw [if_neg htest]
          exact ⟨by simpa [keys, leaves] using hother, by simpa [keys, leaves] using htest, trivial,
            trivial⟩
  | split test left right ihLeft ihRight =>
      obtain ⟨hleft, hright, hordered, hordered'⟩ := h
      unfold SplitTree.insert
      by_cases htest : goesLeft test key = true
      · rw [if_pos htest]
        refine ⟨fun key' hkey' => ?_, hright, ihLeft hordered, hordered'⟩
        rcases mem_keys_insert.mp hkey' with rfl | hkey'
        · exact htest
        · exact hleft key' hkey'
      · rw [if_neg htest]
        refine ⟨hleft, fun key' hkey' => ?_, hordered, ihRight hordered'⟩
        rcases mem_keys_insert.mp hkey' with rfl | hkey'
        · exact Bool.eq_false_iff.mpr htest
        · exact hright key' hkey'

/-- A lookup after an insertion. -/
theorem find?_insert (hseparates : Separates goesLeft choose) :
    (t.insert goesLeft choose combine key value).find? goesLeft key' =
      if key' = key then some ((t.find? goesLeft key).elim value (combine · value))
      else t.find? goesLeft key' := by
  induction t with
  | leaf nodeKey nodeValue =>
      unfold SplitTree.insert
      by_cases heq : key = nodeKey
      · subst heq
        rw [if_pos rfl]
        simp only [find?, if_true, Option.elim_some]
        split <;> rfl
      · have hother := hseparates key nodeKey heq
        rw [if_neg heq]
        by_cases htest : goesLeft (choose key nodeKey) key = true
        · rw [if_pos htest]
          simp only [find?]
          by_cases hkey : key' = key
          · simp [hkey, htest, heq]
          · -- another key ends at the old leaf, or at none of the two
            rw [htest] at hother
            by_cases hnode : key' = nodeKey
            · simp [hnode, hother, Ne.symm heq]
            · simp [hkey, hnode]
        · rw [if_neg htest]
          simp only [find?]
          by_cases hkey : key' = key
          · simp [hkey, htest, heq]
          · rw [Bool.eq_false_iff.mpr htest] at hother
            by_cases hnode : key' = nodeKey
            · simp [hnode, hother, Ne.symm heq]
            · simp [hkey, hnode]
  | split test left right ihLeft ihRight =>
      unfold SplitTree.insert
      by_cases htest : goesLeft test key = true
      · simp only [htest, if_true, find?, ihLeft]
        by_cases hkey : key' = key
        · simp [hkey, htest]
        · simp [hkey]
      · simp only [htest, Bool.false_eq_true, if_false, find?, ihRight]
        by_cases hkey : key' = key
        · simp [hkey, htest]
        · simp [hkey]

end SplitTree
