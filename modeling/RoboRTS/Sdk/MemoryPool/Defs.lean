import RoboRTS.Lib.ByteMemory
import Mathlib.Algebra.BigOperators.Group.List.Basic
import Mathlib.Algebra.GroupWithZero.Nat

/-!
# The memory pool

The allocator of `utilities/memory_pool.h`: a table of blocks over one byte array. Pointers
into `memory_` are offsets from its start and a pointer to a block is its index in the table.
Sizes and offsets are natural numbers: `memory_size_` and every block size are 16-bit values
and the table has at most 255 entries, so no 32-bit sum of the source wraps.
-/

namespace RoboRTS.Sdk

/-- One entry of the block table. -/
structure MemoryBlock where
  usageFlag : Bool
  tableIndex : Nat
  memorySize : Nat
  memoryPtr : Nat
  deriving Repr, DecidableEq, Inhabited

/-- The pool: its three parameters, the block table, and the bytes of `memory_`. -/
structure MemoryPool where
  memoryTableNum : Nat
  memorySize : Nat
  maxBlockSize : Nat
  memoryTable : Nat → MemoryBlock
  memory : ByteMemory
  deriving Inhabited

namespace MemoryPool

/-- Overwrite one table entry. -/
def setBlock (p : MemoryPool) (i : Nat) (block : MemoryBlock) : MemoryPool :=
  { p with memoryTable := Function.update p.memoryTable i block }

/-- The address one past the last byte of a block. -/
def blockEnd (p : MemoryPool) (i : Nat) : Nat :=
  (p.memoryTable i).memoryPtr + (p.memoryTable i).memorySize

/-- `Init`: two used sentinels of size zero at the ends and unused entries between them.
`table` and `memory` are what the fresh arrays happen to contain. -/
def init (maxBlockSize memorySize memoryTableNum : Nat) (table : Nat → MemoryBlock)
    (memory : ByteMemory) : MemoryPool where
  memoryTableNum := memoryTableNum
  memorySize := memorySize
  maxBlockSize := maxBlockSize
  memory := memory
  memoryTable := fun i =>
    if i = 0 then
      { usageFlag := true, tableIndex := 0, memorySize := 0, memoryPtr := 0 }
    else if i = memoryTableNum - 1 then
      { usageFlag := true, tableIndex := i, memorySize := 0, memoryPtr := memorySize }
    else
      { table i with usageFlag := false, tableIndex := i }

/-- `FreeMemory`: a null pointer and the two sentinels are left alone. -/
def freeMemory (p : MemoryPool) (block : Option Nat) : MemoryPool :=
  match block with
  | none => p
  | some i =>
      if (p.memoryTable i).tableIndex = 0 ∨
          (p.memoryTable i).tableIndex = p.memoryTableNum - 1 then p
      else p.setBlock i { p.memoryTable i with usageFlag := false }

/-! ## `AllocMemory` -/

/-- The table entries in use, in table order. -/
def usedEntries (p : MemoryPool) : List Nat :=
  (List.range p.memoryTableNum).filter fun i => (p.memoryTable i).usageFlag

/-- `memory_table_used_index` before it is sorted. -/
def usedIndex (p : MemoryPool) : List Nat :=
  p.usedEntries.map fun i => (p.memoryTable i).tableIndex

/-- `used_memory_size`. -/
def usedMemorySize (p : MemoryPool) : Nat :=
  (p.usedEntries.map fun i => (p.memoryTable i).memorySize).sum

/-- The three exclusive-or assignments that exchange the indices at `j` and `j + 1`. -/
def xorSwap (lower upper : Nat) : Nat × Nat :=
  let upper := upper ^^^ lower
  let lower := lower ^^^ upper
  (lower, upper ^^^ lower)

/-- The inner sorting loop over the first `k` adjacent pairs. -/
def sortPass (p : MemoryPool) : Nat → List Nat → List Nat
  | k + 1, a :: b :: rest =>
      if (p.memoryTable a).memoryPtr > (p.memoryTable b).memoryPtr then
        let swapped := xorSwap a b
        swapped.1 :: sortPass p k (swapped.2 :: rest)
      else a :: sortPass p k (b :: rest)
  | _, l => l

/-- The outer sorting loop; its passes cover `k`, `k - 1`, ..., `1` pairs. -/
def sortPasses (p : MemoryPool) : Nat → List Nat → List Nat
  | 0, l => l
  | k + 1, l => sortPasses p k (sortPass p (k + 1) l)

/-- `memory_table_used_index` after sorting: the used blocks by address. -/
def sortedIndex (p : MemoryPool) : List Nat :=
  sortPasses p (p.usedIndex.length - 1) p.usedIndex

/-- The locals of the gap search: `temp_area`, `accumulate_left_memory_size`, `j` and
`index_found`. -/
structure Gaps where
  tempIndex : Nat
  tempSize : Nat
  accumulateLeft : Nat
  j : Nat
  indexFound : Bool
  deriving Repr, DecidableEq

/-- The locals when the gap search starts; the sorting loops leave `j = 1`. -/
def Gaps.start : Gaps where
  tempIndex := 0xFFFFFFFF
  tempSize := 0xFFFFFFFF
  accumulateLeft := 0
  j := 1
  indexFound := false

/-- The gap between a block and the next block by address. -/
def leftSize (p : MemoryPool) (a b : Nat) : Nat :=
  (p.memoryTable b).memoryPtr - (p.memoryTable a).memoryPtr - (p.memoryTable a).memorySize

/-- One iteration of the gap search, at position `i` with the blocks `a` and `b`. -/
def gapStep (p : MemoryPool) (size i a b : Nat) (g : Gaps) : Gaps :=
  let left := p.leftSize a b
  let g :=
    if left ≥ size ∧ g.tempSize > left then
      { g with tempIndex := (p.memoryTable a).tableIndex, tempSize := left }
    else g
  let g := { g with accumulateLeft := g.accumulateLeft + left }
  if g.accumulateLeft ≥ size ∧ !g.indexFound then { g with j := i, indexFound := true } else g

/-- The gap search over the sorted indices from position `i` on. -/
def gapSearch (p : MemoryPool) (size : Nat) : Nat → List Nat → Gaps → Gaps
  | i, a :: b :: rest, g => gapSearch p size (i + 1) (b :: rest) (gapStep p size i a b g)
  | _, _, g => g

/-- One compaction step: move block `b` down to the end of block `a`. -/
def compactStep (p : MemoryPool) (a b : Nat) : MemoryPool :=
  if (p.memoryTable b).memoryPtr > p.blockEnd a then
    { p with
      memory := p.memory.move (p.blockEnd a) (p.memoryTable b).memoryPtr
        (p.memoryTable b).memorySize
      memoryTable := Function.update p.memoryTable b
        { p.memoryTable b with memoryPtr := p.blockEnd a } }
  else p

/-- The compaction loop: the first `j` steps along the sorted indices. -/
def compact : Nat → List Nat → MemoryPool → MemoryPool
  | j + 1, a :: b :: rest, p => compact j (b :: rest) (compactStep p a b)
  | _, _, p => p

/-- The first unused entry between the sentinels. -/
def firstUnused (p : MemoryPool) : Option Nat :=
  (List.range' 1 (p.memoryTableNum - 2)).find? fun i => !(p.memoryTable i).usageFlag

/-- Give the first unused entry `size` bytes from `ptr` on, if there is one. -/
def takeEntry (p : MemoryPool) (ptr size : Nat) : MemoryPool × Option Nat :=
  match p.firstUnused with
  | some i =>
      (p.setBlock i { p.memoryTable i with memoryPtr := ptr, memorySize := size, usageFlag := true },
        some i)
  | none => (p, none)

/-- `AllocMemory`: the new pool and the allocated block, or `none` for a null pointer. -/
def allocMemory (p : MemoryPool) (size : Nat) : MemoryPool × Option Nat :=
  if size > p.maxBlockSize ∨ size > p.memorySize then (p, none)
  else if p.memorySize < p.usedMemorySize + size then (p, none)
  else if p.usedMemorySize = 0 then
    (p.setBlock 1 { p.memoryTable 1 with
      memoryPtr := (p.memoryTable 0).memoryPtr, memorySize := size, usageFlag := true }, some 1)
  else
    let sorted := p.sortedIndex
    let gaps := p.gapSearch size 0 sorted Gaps.start
    if gaps.tempIndex = 0xFFFFFFFF ∧ gaps.tempSize = 0xFFFFFFFF then
      let p := compact gaps.j sorted p
      p.takeEntry (p.blockEnd (sorted.getD gaps.j 0)) size
    else p.takeEntry (p.blockEnd gaps.tempIndex) size

/-! ## The pool invariant -/

/-- Entry `i` is a block in use, other than the two sentinels. -/
def Live (p : MemoryPool) (i : Nat) : Prop :=
  0 < i ∧ i < p.memoryTableNum - 1 ∧ (p.memoryTable i).usageFlag = true

instance (p : MemoryPool) (i : Nat) : Decidable (p.Live i) :=
  inferInstanceAs (Decidable (_ ∧ _))

/-- The bytes of a live block, read through its `memory_ptr`. -/
def contents (p : MemoryPool) (i : Nat) : List UInt8 :=
  p.memory.read (p.memoryTable i).memoryPtr (p.memoryTable i).memorySize

/-- The two blocks occupy disjoint intervals. -/
def Disjoint (p : MemoryPool) (i j : Nat) : Prop :=
  p.blockEnd i ≤ (p.memoryTable j).memoryPtr ∨ p.blockEnd j ≤ (p.memoryTable i).memoryPtr

/-- The invariant of every pool reachable from `Init`: the sentinels are in place and the live
blocks are non-empty, pairwise disjoint intervals of the byte array. -/
structure Valid (p : MemoryPool) : Prop where
  three_le : 3 ≤ p.memoryTableNum
  memory_pos : 1 ≤ p.memorySize
  memory_lt : p.memorySize < 2 ^ 16
  index : ∀ i, i < p.memoryTableNum → (p.memoryTable i).tableIndex = i
  first : p.memoryTable 0 = { usageFlag := true, tableIndex := 0, memorySize := 0, memoryPtr := 0 }
  last_used : (p.memoryTable (p.memoryTableNum - 1)).usageFlag = true
  last_size : (p.memoryTable (p.memoryTableNum - 1)).memorySize = 0
  last_ptr : (p.memoryTable (p.memoryTableNum - 1)).memoryPtr = p.memorySize
  nonempty : ∀ i, p.Live i → 1 ≤ (p.memoryTable i).memorySize
  inside : ∀ i, p.Live i → p.blockEnd i ≤ p.memorySize
  disjoint : ∀ i j, p.Live i → p.Live j → i ≠ j → p.Disjoint i j

end MemoryPool
end RoboRTS.Sdk
