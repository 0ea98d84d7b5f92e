import RoboRTS.Lib.StateMachine
import RoboRTS.Sdk.MemoryPool.Allocation

/-!
# Runs of the memory pool

Every pool reached from `Init` by allocations and by frees of live blocks is valid
(`run_valid`). `run_allocation` collects what that means for a caller: the live blocks are
disjoint intervals of the memory, an allocation leaves their contents alone, and it fails only
for want of memory or of a table entry.
-/

namespace RoboRTS.Sdk.MemoryPool

/-- The calls a client may make. -/
inductive Call where
  | alloc (size : Nat)
  | free (block : Nat)
  deriving Repr, DecidableEq

/-- One call: requests ask for at least one byte and only live blocks are freed. -/
def step (p : MemoryPool) : Call → Option MemoryPool
  | .alloc size => if 1 ≤ size then some (p.allocMemory size).1 else none
  | .free block => if p.Live block then some (p.freeMemory (some block)) else none

/-- `Init` sets up a valid pool without live blocks. -/
theorem init_valid (maxBlockSize : Nat) {memorySize memoryTableNum : Nat} (hnum : 3 ≤ memoryTableNum)
    (hpos : 1 ≤ memorySize) (hlt : memorySize < 2 ^ 16) (table : Nat → MemoryBlock)
    (memory : ByteMemory) :
    (init maxBlockSize memorySize memoryTableNum table memory).Valid ∧
      ∀ i, ¬ (init maxBlockSize memorySize memoryTableNum table memory).Live i := by
  have hnolive : ∀ i, ¬ (init maxBlockSize memorySize memoryTableNum table memory).Live i := by
    rintro i ⟨h0, hlast, hflag⟩
    have h0 : i ≠ 0 := by omega
    have hlast : i ≠ memoryTableNum - 1 := by
      simp only [init] at hlast
      omega
    simp [init, h0, hlast] at hflag
  have hne : memoryTableNum - 1 ≠ 0 := by omega
  refine ⟨⟨hnum, hpos, hlt, ?_, by simp [init], by simp [init, hne], by simp [init, hne],
    by simp [init, hne], fun i hi => absurd hi (hnolive i), fun i hi => absurd hi (hnolive i),
    fun i _ hi => absurd hi (hnolive i)⟩, hnolive⟩
  intro i _
  simp only [init]
  split_ifs with h0
  · exact h0.symm
  · rfl
  · rfl

/-- Each call keeps the pool valid and its memory size. -/
theorem step_valid {p q : MemoryPool} {call : Call} (hp : p.Valid) (h : p.step call = some q) :
    q.Valid ∧ q.memorySize = p.memorySize ∧ q.maxBlockSize = p.maxBlockSize ∧
      q.memoryTableNum = p.memoryTableNum := by
  cases call with
  | alloc size =>
      simp only [step] at h
      split at h
      case isTrue hsize =>
        cases h
        have hspec := allocMemory_spec hp hsize
        exact ⟨hspec.valid, hspec.memorySize, hspec.maxBlockSize, hspec.memoryTableNum⟩
      case isFalse => exact absurd h (by simp)
  | free block =>
      simp only [step] at h
      split at h
      case isTrue hlive =>
        cases h
        have hspec := freeMemory_spec hp hlive
        exact ⟨hspec.valid, hspec.memorySize, hspec.maxBlockSize, hspec.memoryTableNum⟩
      case isFalse => exact absurd h (by simp)

/-- Every pool reached from a valid one is valid and has its parameters. -/
theorem run_valid {p q : MemoryPool} {calls : List Call} (hp : p.Valid)
    (h : StateMachine.run step p calls = some q) :
    q.Valid ∧ q.memorySize = p.memorySize ∧ q.maxBlockSize = p.maxBlockSize ∧
      q.memoryTableNum = p.memoryTableNum := by
  refine StateMachine.run_invariant (P := fun r => r.Valid ∧
    r.memorySize = p.memorySize ∧ r.maxBlockSize = p.maxBlockSize ∧
    r.memoryTableNum = p.memoryTableNum) ?_ ⟨hp, rfl, rfl, rfl⟩ h
  rintro r call r' ⟨hr, hmsize, hmax, hnum⟩ hstep
  obtain ⟨hr', hmsize', hmax', hnum'⟩ := step_valid hr hstep
  exact ⟨hr', hmsize'.trans hmsize, hmax'.trans hmax, hnum'.trans hnum⟩

/-- The allocator's contract after every run of calls from `Init`: (a) the live blocks are
disjoint intervals inside the memory, (b) an allocation keeps the contents of every live block,
whether or not it moves, and (c) it succeeds exactly when limits, memory and table allow. -/
theorem run_allocation {maxBlockSize m n : Nat} (hn : 3 ≤ n ∧ n ≤ 255) (hm : 1 ≤ m ∧ m < 2 ^ 16)
    {table : Nat → MemoryBlock} {memory : ByteMemory} {calls : List Call} {p : MemoryPool}
    (hrun : StateMachine.run step (init maxBlockSize m n table memory) calls = some p) :
    (∀ i, p.Live i → 1 ≤ (p.memoryTable i).memorySize ∧
        (p.memoryTable i).memoryPtr + (p.memoryTable i).memorySize ≤ m) ∧
    (∀ i j, p.Live i → p.Live j → i ≠ j → p.Disjoint i j) ∧
    ∀ size, 1 ≤ size →
      (∀ i, p.Live i → (p.allocMemory size).1.Live i ∧
        (p.allocMemory size).1.contents i = p.contents i) ∧
      ((p.allocMemory size).2.isSome = true ↔
        size ≤ maxBlockSize ∧ size ≤ m ∧ p.usedMemorySize + size ≤ m ∧
          ∃ i, 0 < i ∧ i < n - 1 ∧ (p.memoryTable i).usageFlag = false) := by
  obtain ⟨hp, hmsize, hmax, hnum⟩ :=
    run_valid (init_valid maxBlockSize hn.1 hm.1 hm.2 table memory).1 hrun
  have hmsize : p.memorySize = m := hmsize
  have hmax : p.maxBlockSize = maxBlockSize := hmax
  have hnum : p.memoryTableNum = n := hnum
  refine ⟨fun i hi => ⟨hp.nonempty i hi, ?_⟩, hp.disjoint, fun size hsize => ⟨?_, ?_⟩⟩
  · have := hp.inside i hi
    rwa [hmsize] at this
  · intro i hi
    have hspec := allocMemory_spec hp hsize
    exact ⟨(hspec.live_iff i).mpr (Or.inl hi), hspec.contents i hi⟩
  · have h := allocMemory_isSome_iff hp hsize
    rwa [hmsize, hmax, hnum] at h

/-- A pool of eight bytes whose free bytes lie in two gaps still serves a request for all of
them. -/
theorem run_allocation_compacts :
    ∃ p, StateMachine.run step (init 8 8 6 (fun _ => default) (fun _ => 0))
        [.alloc 3, .alloc 3, .free 1] = some p ∧ (p.allocMemory 5).2.isSome = true := by
  obtain ⟨p, hp⟩ := Option.isSome_iff_exists.mp
    (show (StateMachine.run step (init 8 8 6 (fun _ => default) (fun _ => 0))
      [.alloc 3, .alloc 3, .free 1]).isSome = true by decide +kernel)
  have hfacts : (StateMachine.run step (init 8 8 6 (fun _ => default) (fun _ => 0))
      [.alloc 3, .alloc 3, .free 1]).map
        (fun q => (q.usedMemorySize, (q.memoryTable 1).usageFlag)) = some (3, false) := by
    decide +kernel
  rw [hp, Option.map_some, Option.some.injEq, Prod.mk.injEq] at hfacts
  refine ⟨p, hp, (((run_allocation (by decide) (by decide) hp).2.2 5 (by decide)).2).mpr ?_⟩
  exact ⟨by decide, by decide, by rw [hfacts.1], 1, by decide, by decide, hfacts.2⟩

end RoboRTS.Sdk.MemoryPool
