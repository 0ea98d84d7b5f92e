import RoboRTS.Lib.BubbleSort
import RoboRTS.Sdk.MemoryPool.Defs
import Mathlib.Data.Nat.Basic
import Mathlib.Tactic.Common

/-!
# Blocks in address order

The sorting loops of `AllocMemory` and what they establish. `Layout p mid` says that the
blocks `mid`, put between the two sentinels, are exactly the live blocks in address order and
that each ends before the next one starts. `Valid.layout` shows that the sorted index array is
such a layout, and `Layout.gapTotal_eq` that the gaps of a layout add up to the free memory.
-/

namespace RoboRTS.Sdk.MemoryPool

variable {p : MemoryPool}

/-! ## The sorting loops -/

/-- Three exclusive-ors exchange two values. -/
theorem xorSwap_eq (lower upper : Nat) : xorSwap lower upper = (upper, lower) := by
  simp only [xorSwap, Nat.xor_comm upper lower]
  rw [← Nat.xor_assoc, Nat.xor_self, Nat.zero_xor, Nat.xor_comm lower upper, Nat.xor_comm,
    ← Nat.xor_assoc, Nat.xor_self, Nat.zero_xor]

theorem sortPass_eq (k : Nat) (l : List Nat) :
    p.sortPass k l = BubbleSort.pass (fun i => (p.memoryTable i).memoryPtr) k l := by
  induction k generalizing l with
  | zero => simp [sortPass, BubbleSort.pass]
  | succ k ih =>
      cases l with
      | nil => simp [sortPass, BubbleSort.pass]
      | cons a l =>
          cases l with
          | nil => simp [sortPass, BubbleSort.pass]
          | cons b rest => simp [sortPass, BubbleSort.pass, xorSwap_eq, ih]

theorem sortPasses_eq (k : Nat) (l : List Nat) :
    p.sortPasses k l = BubbleSort.passes (fun i => (p.memoryTable i).memoryPtr) k l := by
  induction k generalizing l with
  | zero => rfl
  | succ k ih => rw [sortPasses, BubbleSort.passes, ih, sortPass_eq]

/-- The index array is bubble sorted by `memory_ptr`. -/
theorem sortedIndex_eq :
    p.sortedIndex = BubbleSort.sort (fun i => (p.memoryTable i).memoryPtr) p.usedIndex :=
  sortPasses_eq _ _

/-! ## The used entries -/

/-- The live blocks in table order. -/
def liveEntries (p : MemoryPool) : List Nat :=
  (List.range' 1 (p.memoryTableNum - 2)).filter fun i => (p.memoryTable i).usageFlag

theorem mem_liveEntries {i : Nat} : i ∈ p.liveEntries ↔ p.Live i := by
  simp only [liveEntries, List.mem_filter, List.mem_range'_1, Live]
  constructor
  · rintro ⟨⟨h1, h2⟩, h3⟩
    exact ⟨h1, by omega, h3⟩
  · rintro ⟨h1, h2, h3⟩
    exact ⟨⟨h1, by omega⟩, h3⟩

theorem nodup_liveEntries : p.liveEntries.Nodup :=
  (List.nodup_range').filter _

/-- The indices below the table size are the two sentinels around the block entries. -/
theorem range_eq {n : Nat} (h : 2 ≤ n) :
    List.range n = 0 :: (List.range' 1 (n - 2) ++ [n - 1]) := by
  obtain ⟨k, rfl⟩ := Nat.exists_eq_add_of_le' h
  rw [List.range_eq_range', show k + 2 = (k + 1) + 1 from rfl, List.range'_succ,
    List.range'_1_concat]
  simp
  omega

/-- The used entries of a valid pool are the live blocks between the two sentinels. -/
theorem Valid.usedEntries_eq (hp : p.Valid) :
    p.usedEntries = 0 :: (p.liveEntries ++ [p.memoryTableNum - 1]) := by
  have hn := hp.three_le
  rw [usedEntries, range_eq (by omega)]
  simp [hp.first, hp.last_used, liveEntries]

/-- In a valid pool every entry carries its own index. -/
theorem Valid.usedIndex_eq (hp : p.Valid) : p.usedIndex = p.usedEntries := by
  rw [usedIndex, usedEntries]
  calc List.map (fun i => (p.memoryTable i).tableIndex) _
      = List.map id _ := List.map_congr_left fun i hi => by
        have hlt : i < p.memoryTableNum := List.mem_range.mp (List.mem_filter.mp hi).1
        simpa using hp.index i hlt
    _ = _ := List.map_id _

/-- The used size of a valid pool counts the live blocks only. -/
theorem Valid.usedMemorySize_eq (hp : p.Valid) :
    p.usedMemorySize = (p.liveEntries.map fun i => (p.memoryTable i).memorySize).sum := by
  rw [usedMemorySize, hp.usedEntries_eq]
  simp [hp.first, hp.last_size]

/-! ## Layouts -/

/-- Block `a` ends before block `b` starts. -/
def Before (p : MemoryPool) (a b : Nat) : Prop :=
  p.blockEnd a ≤ (p.memoryTable b).memoryPtr

/-- The blocks `mid` between the two sentinels. -/
def chain (p : MemoryPool) (mid : List Nat) : List Nat :=
  0 :: (mid ++ [p.memoryTableNum - 1])

/-- The blocks `mid` are the live blocks in address order. -/
structure Layout (p : MemoryPool) (mid : List Nat) : Prop where
  live : ∀ i, i ∈ mid ↔ p.Live i
  nodup : mid.Nodup
  before : (p.chain mid).Pairwise p.Before

/-- Two live blocks ordered by address do not overlap. -/
theorem Valid.before_of_le (hp : p.Valid) {a b : Nat} (ha : p.Live a) (hb : p.Live b)
    (hne : a ≠ b) (hle : (p.memoryTable a).memoryPtr ≤ (p.memoryTable b).memoryPtr) :
    p.Before a b := by
  rcases hp.disjoint a b ha hb hne with h | h
  · exact h
  · have hsize := hp.nonempty b hb
    unfold blockEnd at h
    omega

theorem Valid.ptr_lt (hp : p.Valid) {i : Nat} (hi : p.Live i) :
    (p.memoryTable i).memoryPtr < p.memorySize := by
  have hin := hp.inside i hi
  have hsize := hp.nonempty i hi
  unfold blockEnd at hin
  omega

theorem Valid.blockEnd_first (hp : p.Valid) : p.blockEnd 0 = 0 := by
  simp [blockEnd, hp.first]

/-- Sorting the used indices of a valid pool gives a layout. -/
theorem Valid.layout (hp : p.Valid) :
    ∃ mid, p.sortedIndex = p.chain mid ∧ p.Layout mid ∧ mid.Perm p.liveEntries := by
  have hn := hp.three_le
  have hm := hp.memory_pos
  obtain ⟨l, hsort, hperm⟩ :=
    BubbleSort.sort_head (fun i => (p.memoryTable i).memoryPtr) 0
      (p.liveEntries ++ [p.memoryTableNum - 1]) (by simp [hp.first])
  have hsorted : p.sortedIndex = 0 :: l := by
    rw [sortedIndex_eq, hp.usedIndex_eq, hp.usedEntries_eq, hsort]
  have hpair : l.Pairwise fun x y => (p.memoryTable x).memoryPtr ≤ (p.memoryTable y).memoryPtr := by
    have h := BubbleSort.sort_pairwise (fun i => (p.memoryTable i).memoryPtr) p.usedIndex
    rw [← sortedIndex_eq, hsorted] at h
    exact (List.pairwise_cons.mp h).2
  have hmem : ∀ {x}, x ∈ l ↔ p.Live x ∨ x = p.memoryTableNum - 1 := by
    intro x
    rw [hperm.mem_iff, List.mem_append, mem_liveEntries, List.mem_singleton]
  -- the last element can only be the upper sentinel: every live block starts below the end
  rcases List.eq_nil_or_concat' l with rfl | ⟨mid, z, rfl⟩
  · simp at hperm
  have hz : z = p.memoryTableNum - 1 := by
    by_contra hne
    have hlive : p.Live z := (hmem.mp (by simp)).resolve_right hne
    have hlast : p.memoryTableNum - 1 ∈ mid := by
      have h : p.memoryTableNum - 1 ∈ mid ++ [z] := hmem.mpr (Or.inr rfl)
      rcases List.mem_append.mp h with h | h
      · exact h
      · exact absurd (List.mem_singleton.mp h).symm hne
    have hle := (List.pairwise_append.mp hpair).2.2 _ hlast z (by simp)
    rw [hp.last_ptr] at hle
    exact absurd (hp.ptr_lt hlive) (by omega)
  subst hz
  have hmid : mid.Perm p.liveEntries := (List.perm_append_right_iff _).mp hperm
  have hlive : ∀ i, i ∈ mid ↔ p.Live i := fun i => by rw [hmid.mem_iff, mem_liveEntries]
  refine ⟨mid, hsorted, ⟨hlive, hmid.nodup_iff.mpr nodup_liveEntries, ?_⟩, hmid⟩
  have hnodup : mid.Nodup := hmid.nodup_iff.mpr nodup_liveEntries
  obtain ⟨hmidPair, -, hlastPair⟩ := List.pairwise_append.mp hpair
  refine List.pairwise_cons.mpr ⟨fun x _ => ?_, List.pairwise_append.mpr ⟨?_, by simp, ?_⟩⟩
  · simp [Before, hp.blockEnd_first]
  · exact (hmidPair.and hnodup).imp_of_mem fun ha hb h =>
      hp.before_of_le ((hlive _).mp ha) ((hlive _).mp hb) h.2 h.1
  · intro x hx y hy
    rw [List.mem_singleton.mp hy, Before, hp.last_ptr]
    exact hp.inside x ((hlive x).mp hx)

/-! ## Gaps -/

/-- The first `k` gaps along a list of blocks, added up. -/
def gapTotal (p : MemoryPool) : Nat → List Nat → Nat
  | k + 1, a :: b :: rest => p.leftSize a b + gapTotal p k (b :: rest)
  | _, _ => 0

/-- There are no gaps past the end of the list. -/
theorem gapTotal_length_add (k a : Nat) (l : List Nat) :
    p.gapTotal (l.length + k) (a :: l) = p.gapTotal l.length (a :: l) := by
  induction l generalizing a with
  | nil => cases k <;> simp [gapTotal]
  | cons b rest ih =>
      rw [List.length_cons, show rest.length + 1 + k = rest.length + k + 1 by omega,
        gapTotal, gapTotal, ih]

/-- Gaps and block sizes along a chain add up to the end of its last block. -/
theorem gapTotal_add_sizes (a : Nat) (l : List Nat) (h : (a :: l).Pairwise p.Before) :
    p.blockEnd a + p.gapTotal l.length (a :: l) +
        (l.map fun i => (p.memoryTable i).memorySize).sum =
      p.blockEnd ((a :: l).getLast (by simp)) := by
  induction l generalizing a with
  | nil => simp [gapTotal]
  | cons b rest ih =>
      obtain ⟨hab, hrest⟩ := List.pairwise_cons.mp h
      have hgap : p.blockEnd a ≤ (p.memoryTable b).memoryPtr := hab b (by simp)
      have hih := ih b hrest
      rw [List.getLast_cons (by simp), ← hih]
      simp only [List.length_cons, gapTotal, leftSize, List.map_cons, List.sum_cons]
      unfold blockEnd at hgap ⊢
      omega

/-- The gaps of a layout add up to the memory that is not used. -/
theorem Layout.gapTotal_eq {mid : List Nat} (hp : p.Valid) (hl : p.Layout mid)
    (hperm : mid.Perm p.liveEntries) :
    p.gapTotal (p.chain mid).length (p.chain mid) + p.usedMemorySize = p.memorySize := by
  have h := gapTotal_add_sizes 0 (mid ++ [p.memoryTableNum - 1]) hl.before
  have hsum : (mid.map fun i => (p.memoryTable i).memorySize).sum = p.usedMemorySize := by
    rw [hp.usedMemorySize_eq]
    exact (hperm.map _).sum_eq
  have hend : p.blockEnd (p.memoryTableNum - 1) = p.memorySize := by
    simp [blockEnd, hp.last_ptr, hp.last_size]
  rw [hp.blockEnd_first] at h
  simp only [List.map_append, List.sum_append, hsum, List.map_cons, List.map_nil, List.sum_cons,
    List.sum_nil, hp.last_size] at h
  rw [List.getLast_cons (by simp), List.getLast_append_singleton, hend] at h
  rw [chain, List.length_cons, gapTotal_length_add]
  omega

end RoboRTS.Sdk.MemoryPool
