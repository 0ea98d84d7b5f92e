import RoboRTS.Sdk.MemoryPool.Compaction

/-!
# Allocation

`allocMemory_spec` is the specification of `AllocMemory` that the rest of the development
uses: the pool stays valid, every other live block keeps its contents, and a returned block
is a fresh live block of the requested size. `allocMemory_isSome_iff` says exactly when a
request succeeds. `freeMemory_spec` is the corresponding fact about `FreeMemory`.
-/

namespace RoboRTS.Sdk.MemoryPool

variable {p : MemoryPool} {mid : List Nat}

/-! ## The gap search -/

/-- The gap search either leaves `temp_area` alone or sets it to a gap that is large enough. -/
theorem gapSearch_temp (size i : Nat) (l : List Nat) (g : Gaps) :
    (gapSearch p size i l g).tempIndex = g.tempIndex ∧
        (gapSearch p size i l g).tempSize = g.tempSize ∨
      ∃ pre a b rest, l = pre ++ a :: b :: rest ∧ size ≤ p.leftSize a b ∧
        (gapSearch p size i l g).tempIndex = (p.memoryTable a).tableIndex := by
  induction l generalizing i g with
  | nil => exact Or.inl ⟨rfl, rfl⟩
  | cons a l ih =>
      cases l with
      | nil => exact Or.inl ⟨rfl, rfl⟩
      | cons b rest =>
          rw [gapSearch]
          rcases ih (i + 1) (gapStep p size i a b g) with ⟨hindex, hsize⟩ | hfit
          · by_cases hcond : p.leftSize a b ≥ size ∧ g.tempSize > p.leftSize a b
            · refine Or.inr ⟨[], a, b, rest, rfl, hcond.1, ?_⟩
              rw [hindex]
              simp only [gapStep, hcond, and_self, if_true]
              split <;> rfl
            · left
              rw [hindex, hsize]
              simp only [gapStep, hcond, if_false]
              split <;> exact ⟨rfl, rfl⟩
          · obtain ⟨pre, c, d, rest', heq, hle, hindex⟩ := hfit
            exact Or.inr ⟨a :: pre, c, d, rest', by rw [heq]; rfl, hle, hindex⟩

/-- Once the accumulated gaps have reached the size, `j` is final. -/
theorem gapSearch_j_of_found (size i : Nat) (l : List Nat) (g : Gaps) (h : g.indexFound = true) :
    (gapSearch p size i l g).j = g.j := by
  induction l generalizing i g with
  | nil => rfl
  | cons a l ih =>
      cases l with
      | nil => rfl
      | cons b rest =>
          rw [gapSearch]
          have hstep : (gapStep p size i a b g).indexFound = true ∧
              (gapStep p size i a b g).j = g.j := by
            simp only [gapStep]
            split <;> simp_all
          rw [ih (i + 1) _ hstep.1, hstep.2]

/-- When the gaps together are large enough, `j` is a position up to which they are. -/
theorem gapSearch_j (size i : Nat) (l : List Nat) (g : Gaps) (hfound : g.indexFound = false)
    (hlt : g.accumulateLeft < size) (htotal : size ≤ g.accumulateLeft + p.gapTotal l.length l) :
    ∃ k, (gapSearch p size i l g).j = i + k ∧ k + 1 < l.length ∧
      size ≤ g.accumulateLeft + p.gapTotal (k + 1) l := by
  induction l generalizing i g with
  | nil =>
      simp [gapTotal] at htotal
      omega
  | cons a l ih =>
      cases l with
      | nil =>
          simp [gapTotal] at htotal
          omega
      | cons b rest =>
          rw [gapSearch]
          rw [List.length_cons, gapTotal] at htotal
          have hacc : (gapStep p size i a b g).accumulateLeft =
              g.accumulateLeft + p.leftSize a b := by
            simp only [gapStep]
            split <;> split <;> simp
          by_cases hreach : size ≤ g.accumulateLeft + p.leftSize a b
          · have hstep : (gapStep p size i a b g).indexFound = true ∧
                (gapStep p size i a b g).j = i := by
              simp only [gapStep]
              split <;> simp [hreach, hfound]
            refine ⟨0, ?_, by simp, by simpa [gapTotal] using hreach⟩
            rw [gapSearch_j_of_found size (i + 1) (b :: rest) _ hstep.1, hstep.2, Nat.add_zero]
          · have hstep : (gapStep p size i a b g).indexFound = false := by
              simp only [gapStep]
              split <;> simp [hreach, hfound]
            obtain ⟨k, hj, hk, hle⟩ := ih (i + 1) (gapStep p size i a b g) hstep
              (by rw [hacc]; omega) (by rw [hacc]; omega)
            rw [hacc] at hle
            refine ⟨k + 1, by rw [hj]; omega, by simpa using hk, ?_⟩
            rw [gapTotal]
            omega

/-! ## Taking an entry -/

theorem firstUnused_eq_some {i : Nat} (h : p.firstUnused = some i) :
    0 < i ∧ i < p.memoryTableNum - 1 ∧ (p.memoryTable i).usageFlag = false := by
  have hmem := List.mem_of_find?_eq_some h
  have hflag := List.find?_some h
  rw [List.mem_range'_1] at hmem
  exact ⟨hmem.1, by omega, by simpa using hflag⟩

theorem firstUnused_isSome_iff : p.firstUnused.isSome = true ↔
    ∃ i, 0 < i ∧ i < p.memoryTableNum - 1 ∧ (p.memoryTable i).usageFlag = false := by
  constructor
  · intro h
    obtain ⟨i, hi⟩ := Option.isSome_iff_exists.mp h
    exact ⟨i, firstUnused_eq_some hi⟩
  · rintro ⟨i, hpos, hlt, hflag⟩
    rw [firstUnused, List.find?_isSome]
    exact ⟨i, List.mem_range'_1.mpr ⟨hpos, by omega⟩, by simp [hflag]⟩

/-- What an allocation does to a pool `p`: `q` is the pool after it, `r` the returned block. -/
structure AllocSpec (p : MemoryPool) (size : Nat) (q : MemoryPool) (r : Option Nat) : Prop where
  valid : q.Valid
  memoryTableNum : q.memoryTableNum = p.memoryTableNum
  memorySize : q.memorySize = p.memorySize
  maxBlockSize : q.maxBlockSize = p.maxBlockSize
  live_iff : ∀ i, q.Live i ↔ p.Live i ∨ r = some i
  blockSize : ∀ i, r ≠ some i → (q.memoryTable i).memorySize = (p.memoryTable i).memorySize
  contents : ∀ i, p.Live i → q.contents i = p.contents i
  fresh : ∀ i, r = some i → ¬ p.Live i ∧ (q.memoryTable i).memorySize = size

/-- Giving an unused entry an interval that no live block meets is an allocation. -/
theorem setBlock_allocSpec (hp : p.Valid) {i ptr size : Nat} (hpos : 0 < i)
    (hlt : i < p.memoryTableNum - 1) (hunused : (p.memoryTable i).usageFlag = false)
    (hsize : 1 ≤ size) (hin : ptr + size ≤ p.memorySize)
    (hgap : ∀ c, p.Live c → p.blockEnd c ≤ ptr ∨ ptr + size ≤ (p.memoryTable c).memoryPtr) :
    AllocSpec p size (p.setBlock i { p.memoryTable i with
      memoryPtr := ptr, memorySize := size, usageFlag := true }) (some i) := by
  have hnotlive : ¬ p.Live i := fun h => by
    rw [h.2.2] at hunused
    exact absurd hunused (by simp)
  have hself : ((p.setBlock i { p.memoryTable i with
      memoryPtr := ptr, memorySize := size, usageFlag := true }).memoryTable i) =
      { p.memoryTable i with memoryPtr := ptr, memorySize := size, usageFlag := true } := by
    simp [setBlock]
  generalize hq : p.setBlock i { p.memoryTable i with
      memoryPtr := ptr, memorySize := size, usageFlag := true } = q at hself ⊢
  have hnum : q.memoryTableNum = p.memoryTableNum := by rw [← hq]; rfl
  have hmsize : q.memorySize = p.memorySize := by rw [← hq]; rfl
  have hother : ∀ {c}, c ≠ i → q.memoryTable c = p.memoryTable c := by
    intro c hc
    rw [← hq, setBlock]
    simp [hc]
  have hlive : ∀ c, q.Live c ↔ p.Live c ∨ c = i := by
    intro c
    by_cases hc : c = i
    · subst hc
      simp [Live, hnum, hself, hpos, hlt]
    · simp [Live, hnum, hother hc, hc]
  have hcontents : ∀ c, p.Live c → q.contents c = p.contents c := by
    intro c hc
    have hci : c ≠ i := fun h => hnotlive (h ▸ hc)
    have hmem : q.memory = p.memory := by rw [← hq]; rfl
    rw [MemoryPool.contents, MemoryPool.contents, hother hci, hmem]
  refine ⟨?_, hnum, hmsize, by rw [← hq]; rfl,
    fun c => by rw [hlive, Option.some.injEq, eq_comm (a := i)], ?_, hcontents, ?_⟩
  · constructor
    case three_le => rw [hnum]; exact hp.three_le
    case memory_pos => rw [hmsize]; exact hp.memory_pos
    case memory_lt => rw [hmsize]; exact hp.memory_lt
    case index =>
      intro c hc
      by_cases hci : c = i
      · subst hci
        rw [hself]
        exact hp.index c (hnum ▸ hc)
      · rw [hother hci]
        exact hp.index c (hnum ▸ hc)
    case first => rw [hother (by omega)]; exact hp.first
    case last_used => rw [hnum, hother (by omega)]; exact hp.last_used
    case last_size => rw [hnum, hother (by omega)]; exact hp.last_size
    case last_ptr => rw [hnum, hother (by omega), hmsize]; exact hp.last_ptr
    case nonempty =>
      intro c hc
      by_cases hci : c = i
      · subst hci
        simpa [hself] using hsize
      · rw [hother hci]
        exact hp.nonempty c (((hlive c).mp hc).resolve_right hci)
    case inside =>
      intro c hc
      unfold blockEnd
      by_cases hci : c = i
      · subst hci
        simpa [hself, hmsize] using hin
      · rw [hother hci, hmsize]
        exact hp.inside c (((hlive c).mp hc).resolve_right hci)
    case disjoint =>
      intro c d hc hd hcd
      unfold Disjoint blockEnd
      by_cases hci : c = i <;> by_cases hdi : d = i
      · omega
      · subst hci
        have := hgap d (((hlive d).mp hd).resolve_right hdi)
        unfold blockEnd at this
        rw [hother hdi, hself]
        simp only
        omega
      · subst hdi
        have := hgap c (((hlive c).mp hc).resolve_right hci)
        unfold blockEnd at this
        rw [hother hci, hself]
        simp only
        omega
      · rw [hother hci, hother hdi]
        exact hp.disjoint c d (((hlive c).mp hc).resolve_right hci)
          (((hlive d).mp hd).resolve_right hdi) hcd
  · intro c hc
    rw [hother fun h => hc (by rw [h])]
  · intro c hc
    cases hc
    exact ⟨hnotlive, by rw [hself]⟩

/-- Placing a block behind `a`, in the gap before its neighbour `b`, is an allocation. -/
theorem takeEntry_allocSpec (hp : p.Valid) (hl : p.Layout mid) {pre rest : List Nat} {a b : Nat}
    (h : p.chain mid = pre ++ a :: b :: rest) {size : Nat} (hsize : 1 ≤ size)
    (hfit : size ≤ p.leftSize a b) :
    AllocSpec p size (p.takeEntry (p.blockEnd a) size).1 (p.takeEntry (p.blockEnd a) size).2 := by
  rw [takeEntry]
  cases hfree : p.firstUnused with
  | none =>
      exact ⟨hp, rfl, rfl, rfl, fun i => by simp, fun _ _ => rfl, fun _ _ => rfl, by simp⟩
  | some i =>
      obtain ⟨hpos, hlt, hunused⟩ := firstUnused_eq_some hfree
      have hroom : p.blockEnd a + size ≤ (p.memoryTable b).memoryPtr := by
        unfold leftSize at hfit
        unfold blockEnd
        omega
      have hb : (p.memoryTable b).memoryPtr ≤ p.memorySize := by
        by_cases hrest : rest = []
        · subst hrest
          have hlast := congrArg (fun l => l.getLast?) h
          simp only [chain, ← List.cons_append, List.getLast?_concat] at hlast
          rw [show pre ++ [a, b] = (pre ++ [a]) ++ [b] by simp, List.getLast?_concat] at hlast
          rw [← Option.some.inj hlast, hp.last_ptr]
        · exact (hp.ptr_lt (hl.live_of_inner h hrest)).le
      refine setBlock_allocSpec hp hpos hlt hunused hsize (by omega) fun c hc => ?_
      by_cases hcb : c = b
      · subst hcb
        exact Or.inr hroom
      · rcases hl.outside_gap h hc hcb with hleft | hright
        · exact Or.inl hleft
        · have hbend : (p.memoryTable b).memoryPtr ≤ p.blockEnd b := Nat.le_add_right _ _
          right
          omega

/-! ## `AllocMemory` -/

/-- A valid pool with no bytes in use has no live block. -/
theorem Valid.not_live_of_unused (hp : p.Valid) (h : p.usedMemorySize = 0) (i : Nat) :
    ¬ p.Live i := by
  intro hi
  rw [hp.usedMemorySize_eq] at h
  have hzero := List.sum_eq_zero_iff_forall_eq_nat.mp h (p.memoryTable i).memorySize
    (List.mem_map.mpr ⟨i, mem_liveEntries.mpr hi, rfl⟩)
  have := hp.nonempty i hi
  omega

/-- When `AllocMemory` finds no single gap, compaction opens one behind block `j`. -/
theorem compact_fits (hp : p.Valid) {size : Nat} (hsize : 1 ≤ size)
    (hroom : p.usedMemorySize + size ≤ p.memorySize) :
    ∃ (q : MemoryPool) (mid : List Nat) (pre : List Nat) (a b : Nat) (rest : List Nat),
      compact (p.gapSearch size 0 p.sortedIndex Gaps.start).j p.sortedIndex p = q ∧
      q.Valid ∧ q.Layout mid ∧ SameBlocks p q ∧ q.chain mid = pre ++ a :: b :: rest ∧
      p.sortedIndex.getD (p.gapSearch size 0 p.sortedIndex Gaps.start).j 0 = a ∧
      size ≤ q.leftSize a b := by
  obtain ⟨mid, hsorted, hl, hperm⟩ := hp.layout
  have htotal := hl.gapTotal_eq hp hperm
  obtain ⟨k, hj, hk, hle⟩ := gapSearch_j (p := p) size 0 (p.chain mid) Gaps.start rfl
    (by simp only [Gaps.start]; omega) (by simp only [Gaps.start]; omega)
  rw [Nat.zero_add] at hj
  obtain ⟨hv, hlay, hsame, hgap⟩ := compact_layout k hp hl [] (p.chain mid) rfl hk
  have hchain : (compact k (p.chain mid) p).chain mid = p.chain mid := by
    conv_lhs => rw [chain, hsame.memoryTableNum]
    rfl
  refine ⟨_, mid, (p.chain mid).take k, (p.chain mid).getD k 0, (p.chain mid).getD (k + 1) 0,
    (p.chain mid).drop (k + 2), by rw [hsorted, hj], hv, hlay, hsame, ?_, by rw [hsorted, hj], ?_⟩
  · rw [hchain]
    conv_lhs => rw [← List.take_append_drop k (p.chain mid)]
    rw [List.drop_eq_getElem_cons (by omega), List.drop_eq_getElem_cons hk]
    simp [List.getD_eq_getElem?_getD, List.getElem?_eq_getElem hk,
      List.getElem?_eq_getElem (show k < (p.chain mid).length by omega)]
  · rw [hgap]
    simpa [Gaps.start] using hle

/-- The gap search finds a gap between neighbours unless it leaves `temp_area` unset. -/
theorem gapSearch_fits (hp : p.Valid) {size : Nat}
    (hset : ¬ ((p.gapSearch size 0 p.sortedIndex Gaps.start).tempIndex = 0xFFFFFFFF ∧
      (p.gapSearch size 0 p.sortedIndex Gaps.start).tempSize = 0xFFFFFFFF)) :
    ∃ (mid pre : List Nat) (a b : Nat) (rest : List Nat), p.Layout mid ∧
      p.chain mid = pre ++ a :: b :: rest ∧
      (p.gapSearch size 0 p.sortedIndex Gaps.start).tempIndex = a ∧ size ≤ p.leftSize a b := by
  obtain ⟨mid, hsorted, hl, -⟩ := hp.layout
  rcases gapSearch_temp (p := p) size 0 p.sortedIndex Gaps.start with hunset | hfit
  · exact absurd hunset hset
  · obtain ⟨pre, a, b, rest, heq, hle, hindex⟩ := hfit
    rw [hsorted] at heq
    have ha : a < p.memoryTableNum := by
      have hmem : a ∈ p.chain mid := by rw [heq]; simp
      have hn := hp.three_le
      simp only [chain, List.mem_cons, List.mem_append, List.not_mem_nil, or_false] at hmem
      rcases hmem with rfl | hmid | rfl
      · omega
      · have := ((hl.live a).mp hmid).2.1
        omega
      · omega
    exact ⟨mid, pre, a, b, rest, hl, heq, by rw [hindex, hp.index a ha], hle⟩

/-- The state after `AllocMemory` and its result, for every request of at least one byte. -/
theorem allocMemory_spec (hp : p.Valid) {size : Nat} (hsize : 1 ≤ size) :
    AllocSpec p size (p.allocMemory size).1 (p.allocMemory size).2 := by
  have hnone : AllocSpec p size p none :=
    ⟨hp, rfl, rfl, rfl, fun i => by simp, fun _ _ => rfl, fun _ _ => rfl, by simp⟩
  dsimp only [allocMemory]
  split_ifs with hmax hroom hempty hunset
  · exact hnone
  · exact hnone
  · -- the first block: no live block, so entry 1 is unused
    have hnolive := hp.not_live_of_unused hempty
    have hn := hp.three_le
    have hunused : (p.memoryTable 1).usageFlag = false := by
      by_contra h
      exact hnolive 1 ⟨by omega, by omega, by simpa using h⟩
    have hptr : (p.memoryTable 0).memoryPtr = 0 := by rw [hp.first]
    exact setBlock_allocSpec hp (by omega) (by omega) hunused hsize
      (by rw [hptr]; omega) fun c hc => absurd hc (hnolive c)
  · obtain ⟨q, mid, pre, a, b, rest, hq, hv, hl, hsame, hchain, hget, hfit⟩ :=
      compact_fits hp hsize (by omega)
    rw [hq, hget]
    have hspec := takeEntry_allocSpec hv hl hchain hsize hfit
    refine ⟨hspec.valid, hspec.memoryTableNum.trans hsame.memoryTableNum,
      hspec.memorySize.trans hsame.memorySize, hspec.maxBlockSize.trans hsame.maxBlockSize,
      fun i => by rw [hspec.live_iff, hsame.live_iff],
      fun i hi => (hspec.blockSize i hi).trans (hsame.blockSize i),
      fun i hi => (hspec.contents i ((hsame.live_iff i).mpr hi)).trans (hsame.contents i hi),
      fun i hi => ⟨fun h => (hspec.fresh i hi).1 ((hsame.live_iff i).mpr h),
        (hspec.fresh i hi).2⟩⟩
  · obtain ⟨mid, pre, a, b, rest, hl, hchain, hindex, hfit⟩ := gapSearch_fits hp hunset
    rw [hindex]
    exact takeEntry_allocSpec hp hl hchain hsize hfit

theorem takeEntry_isSome (ptr size : Nat) :
    (p.takeEntry ptr size).2 = p.firstUnused := by
  rw [takeEntry]
  cases p.firstUnused <;> rfl

/-- `AllocMemory` succeeds exactly when the request respects the two limits, the free memory is
large enough in total, and some entry between the sentinels is unused. -/
theorem allocMemory_isSome_iff (hp : p.Valid) {size : Nat} (hsize : 1 ≤ size) :
    (p.allocMemory size).2.isSome = true ↔
      size ≤ p.maxBlockSize ∧ size ≤ p.memorySize ∧ p.usedMemorySize + size ≤ p.memorySize ∧
        ∃ i, 0 < i ∧ i < p.memoryTableNum - 1 ∧ (p.memoryTable i).usageFlag = false := by
  dsimp only [allocMemory]
  split_ifs with hmax hroom hempty hunset
  · simp only [Option.isSome_none, Bool.false_eq_true, false_iff]
    omega
  · simp only [Option.isSome_none, Bool.false_eq_true, false_iff]
    omega
  · have hn := hp.three_le
    have hunused : (p.memoryTable 1).usageFlag = false := by
      by_contra h
      exact hp.not_live_of_unused hempty 1 ⟨by omega, by omega, by simpa using h⟩
    simp only [Option.isSome_some, true_iff]
    exact ⟨by omega, by omega, by omega, 1, by omega, by omega, hunused⟩
  · obtain ⟨q, mid, pre, a, b, rest, hq, hv, hl, hsame, hchain, hget, hfit⟩ :=
      compact_fits hp hsize (by omega)
    rw [hq, takeEntry_isSome, hsame.firstUnused_eq, firstUnused_isSome_iff]
    exact ⟨fun h => ⟨by omega, by omega, by omega, h⟩, fun h => h.2.2.2⟩
  · rw [takeEntry_isSome, firstUnused_isSome_iff]
    exact ⟨fun h => ⟨by omega, by omega, by omega, h⟩, fun h => h.2.2.2⟩

/-- The pool has room for a request: the size is allowed, so much memory is free, and so is an entry
of the block table. -/
def HasRoom (p : MemoryPool) (size : Nat) : Prop :=
  0 < size ∧ size ≤ p.maxBlockSize ∧ p.usedMemorySize + size ≤ p.memorySize ∧
    ∃ i < p.memoryTableNum - 1, 0 < i ∧ (p.memoryTable i).usageFlag = false

instance (p : MemoryPool) (size : Nat) : Decidable (p.HasRoom size) :=
  inferInstanceAs (Decidable (_ ∧ _ ∧ _ ∧ _))

theorem HasRoom.allocMemory (hp : p.Valid) {size : Nat} (h : p.HasRoom size) :
    (p.allocMemory size).2.isSome = true := by
  obtain ⟨hpos, hmax, hroom, i, hi, hi0, hflag⟩ := h
  exact (allocMemory_isSome_iff hp hpos).mpr ⟨hmax, by omega, hroom, i, hi0, hi, hflag⟩

/-- The size of `temp_area` only decreases. -/
theorem gapSearch_tempSize_le (size i : Nat) (l : List Nat) (g : Gaps) :
    (gapSearch p size i l g).tempSize ≤ g.tempSize := by
  induction l generalizing i g with
  | nil => exact Nat.le_refl _
  | cons a l ih =>
      cases l with
      | nil => exact Nat.le_refl _
      | cons b rest =>
          have hstep : (gapStep p size i a b g).tempSize ≤ g.tempSize := by
            simp only [gapStep]
            split_ifs <;> simp only <;> omega
          exact (ih (i + 1) _).trans hstep

/-- An allocation never changes the size of the memory. -/
theorem allocMemory_memorySize (size : Nat) : (p.allocMemory size).1.memorySize = p.memorySize := by
  have htake : ∀ (q : MemoryPool) ptr, (q.takeEntry ptr size).1.memorySize = q.memorySize := by
    intro q ptr
    rw [takeEntry]
    cases q.firstUnused <;> rfl
  have hcompact : ∀ j l (q : MemoryPool), (compact j l q).memorySize = q.memorySize := by
    intro j l
    induction l generalizing j with
    | nil => intro q; cases j <;> rfl
    | cons a l ih =>
        intro q
        cases j with
        | zero => rfl
        | succ j =>
            cases l with
            | nil => rfl
            | cons b rest =>
                rw [compact, ih]
                unfold compactStep
                split <;> rfl
  dsimp only [allocMemory]
  split_ifs
  · rfl
  · rfl
  · rfl
  · rw [htake, hcompact]
  · rw [htake]

/-- A request of no bytes finds a gap, since every gap is large enough. -/
theorem gapSearch_zero (hp : p.Valid) :
    ¬ ((p.gapSearch 0 0 p.sortedIndex Gaps.start).tempIndex = 0xFFFFFFFF ∧
      (p.gapSearch 0 0 p.sortedIndex Gaps.start).tempSize = 0xFFFFFFFF) := by
  obtain ⟨mid, hsorted, hl, -⟩ := hp.layout
  obtain ⟨b, rest, hchain⟩ : ∃ b rest, p.chain mid = 0 :: b :: rest := by
    cases mid with
    | nil => exact ⟨_, _, rfl⟩
    | cons b rest => exact ⟨_, _, rfl⟩
  have hb : p.leftSize 0 b < 2 ^ 16 := by
    have hptr : (p.memoryTable b).memoryPtr ≤ p.memorySize := by
      have hmem : b ∈ p.chain mid := by rw [hchain]; simp
      simp only [chain, List.mem_cons, List.mem_append, List.not_mem_nil, or_false] at hmem
      rcases hmem with rfl | hmid | rfl
      · rw [hp.first]
        exact Nat.zero_le _
      · exact Nat.le_of_lt (hp.ptr_lt ((hl.live b).mp hmid))
      · exact Nat.le_of_eq hp.last_ptr
    have := hp.memory_lt
    unfold leftSize
    omega
  have hle := gapSearch_tempSize_le (p := p) 0 (0 + 1) (b :: rest) (gapStep p 0 0 0 b Gaps.start)
  have hstep : (gapStep p 0 0 0 b Gaps.start).tempSize = p.leftSize 0 b := by
    have hcond : p.leftSize 0 b ≥ 0 ∧ Gaps.start.tempSize > p.leftSize 0 b := by
      simp only [Gaps.start]
      omega
    simp only [gapStep, if_pos hcond]
    split_ifs <;> rfl
  rintro ⟨-, hsize⟩
  rw [hsorted, hchain, gapSearch] at hsize
  omega

/-- The memory in use fits the pool. -/
theorem Valid.usedMemorySize_le (hp : p.Valid) : p.usedMemorySize ≤ p.memorySize := by
  obtain ⟨mid, -, hl, hperm⟩ := hp.layout
  have := hl.gapTotal_eq hp hperm
  omega

/-- A request of no bytes takes the first unused entry, if there is one. -/
theorem allocMemory_zero_isSome (hp : p.Valid) :
    (p.allocMemory 0).2.isSome = p.firstUnused.isSome := by
  have hle := hp.usedMemorySize_le
  have hn := hp.three_le
  dsimp only [allocMemory]
  rw [if_neg (by omega), if_neg (by omega)]
  by_cases hempty : p.usedMemorySize = 0
  · rw [if_pos hempty, eq_comm, firstUnused_isSome_iff.mpr]
    · rfl
    · refine ⟨1, by omega, by omega, ?_⟩
      by_contra hflag
      exact hp.not_live_of_unused hempty 1 ⟨by omega, by omega, by simpa using hflag⟩
  · rw [if_neg hempty, if_neg (gapSearch_zero hp), takeEntry_isSome]

/-- A request of no bytes fails only for want of an entry, and leaves the pool alone then. -/
theorem allocMemory_zero (hp : p.Valid) (hnone : (p.allocMemory 0).2 = none) :
    (p.allocMemory 0).1 = p ∧ p.firstUnused = none := by
  have hunused : p.firstUnused = none := by
    rw [← Option.isNone_iff_eq_none, ← Option.not_isSome, ← allocMemory_zero_isSome hp, hnone]
    rfl
  have hle := hp.usedMemorySize_le
  refine ⟨?_, hunused⟩
  dsimp only [allocMemory] at hnone ⊢
  rw [if_neg (by omega), if_neg (by omega)] at hnone ⊢
  by_cases hempty : p.usedMemorySize = 0
  · rw [if_pos hempty] at hnone
    cases hnone
  · rw [if_neg hempty, if_neg (gapSearch_zero hp), takeEntry, hunused]

/-- The pool can serve a request of any size: the size is allowed, so much memory is free, and so is
an entry of the block table. -/
def Serves (p : MemoryPool) (size : Nat) : Prop :=
  size ≤ p.maxBlockSize ∧ p.usedMemorySize + size ≤ p.memorySize ∧
    ∃ i < p.memoryTableNum - 1, 0 < i ∧ (p.memoryTable i).usageFlag = false

instance (p : MemoryPool) (size : Nat) : Decidable (p.Serves size) :=
  inferInstanceAs (Decidable (_ ∧ _ ∧ _))

theorem allocMemory_isSome_iff_serves (hp : p.Valid) (size : Nat) :
    (p.allocMemory size).2.isSome = true ↔ p.Serves size := by
  have hentry : (∃ i, 0 < i ∧ i < p.memoryTableNum - 1 ∧ (p.memoryTable i).usageFlag = false) ↔
      ∃ i < p.memoryTableNum - 1, 0 < i ∧ (p.memoryTable i).usageFlag = false :=
    ⟨fun ⟨i, h0, hi, hf⟩ => ⟨i, hi, h0, hf⟩, fun ⟨i, hi, h0, hf⟩ => ⟨i, h0, hi, hf⟩⟩
  have hle := hp.usedMemorySize_le
  unfold Serves
  rw [← hentry]
  rcases Nat.eq_zero_or_pos size with rfl | hpos
  · rw [allocMemory_zero_isSome hp, firstUnused_isSome_iff]
    exact ⟨fun h => ⟨Nat.zero_le _, hle, h⟩, fun h => h.2.2⟩
  · rw [allocMemory_isSome_iff hp hpos]
    exact ⟨fun h => ⟨h.1, h.2.2⟩, fun h => ⟨h.1, by omega, h.2⟩⟩

/-! ## Writing to a block -/

/-- What storing `bytes` in block `b` does to a pool `p`: `q` is the pool after it. -/
structure StoreSpec (p : MemoryPool) (b : Nat) (bytes : List UInt8) (q : MemoryPool) : Prop where
  valid : q.Valid
  memoryTable : q.memoryTable = p.memoryTable
  memoryTableNum : q.memoryTableNum = p.memoryTableNum
  memorySize : q.memorySize = p.memorySize
  maxBlockSize : q.maxBlockSize = p.maxBlockSize
  stored : q.contents b = bytes
  contents : ∀ j, p.Live j → j ≠ b → q.contents j = p.contents j

/-- Changing the bytes of one live block touches no other block. -/
theorem storeSpec (hp : p.Valid) {b : Nat} (hb : p.Live b) {m : ByteMemory} {bytes : List UInt8}
    (hsize : (p.memoryTable b).memorySize = bytes.length)
    (hread : m.read (p.memoryTable b).memoryPtr bytes.length = bytes)
    (houtside : ∀ i, i < (p.memoryTable b).memoryPtr ∨
      (p.memoryTable b).memoryPtr + bytes.length ≤ i → m i = p.memory i) :
    StoreSpec p b bytes { p with memory := m } := by
  refine ⟨⟨hp.three_le, hp.memory_pos, hp.memory_lt, hp.index, hp.first, hp.last_used,
    hp.last_size, hp.last_ptr, hp.nonempty, hp.inside, hp.disjoint⟩, rfl, rfl, rfl, rfl, ?_, ?_⟩
  · rw [contents]
    dsimp only
    rw [hsize, hread]
  · intro j hj hjb
    have hdisj := hp.disjoint j b hj hb hjb
    simp only [Disjoint, blockEnd, hsize] at hdisj
    refine ByteMemory.read_congr fun i hi => houtside ((p.memoryTable j).memoryPtr + i) ?_
    have hlt : i < (p.memoryTable j).memorySize := hi
    omega

/-! ## `FreeMemory` -/

/-- What freeing block `i` does to a pool `p`: `q` is the pool after it. -/
structure FreeSpec (p : MemoryPool) (i : Nat) (q : MemoryPool) : Prop where
  valid : q.Valid
  memoryTableNum : q.memoryTableNum = p.memoryTableNum
  memorySize : q.memorySize = p.memorySize
  maxBlockSize : q.maxBlockSize = p.maxBlockSize
  live_iff : ∀ j, q.Live j ↔ p.Live j ∧ j ≠ i
  blockSize : ∀ j, (q.memoryTable j).memorySize = (p.memoryTable j).memorySize
  contents : ∀ j, q.contents j = p.contents j

/-- Freeing a live block removes it and touches no other block. -/
theorem freeMemory_spec (hp : p.Valid) {i : Nat} (hi : p.Live i) :
    FreeSpec p i (p.freeMemory (some i)) := by
  have hindex := hp.index i (by have := hi.2.1; omega)
  have hfree : p.freeMemory (some i) =
      p.setBlock i { p.memoryTable i with usageFlag := false } := by
    rw [freeMemory, if_neg]
    have := hi.1
    have := hi.2.1
    omega
  rw [hfree]
  generalize hq : p.setBlock i { p.memoryTable i with usageFlag := false } = q
  have hnum : q.memoryTableNum = p.memoryTableNum := by rw [← hq]; rfl
  have hmsize : q.memorySize = p.memorySize := by rw [← hq]; rfl
  have hself : q.memoryTable i = { p.memoryTable i with usageFlag := false } := by
    rw [← hq]
    simp [setBlock]
  have hother : ∀ {c}, c ≠ i → q.memoryTable c = p.memoryTable c := by
    intro c hc
    rw [← hq, setBlock]
    simp [hc]
  have hptr : ∀ c, (q.memoryTable c).memoryPtr = (p.memoryTable c).memoryPtr ∧
      (q.memoryTable c).memorySize = (p.memoryTable c).memorySize ∧
      (q.memoryTable c).tableIndex = (p.memoryTable c).tableIndex := by
    intro c
    by_cases hc : c = i
    · subst hc
      simp [hself]
    · simp [hother hc]
  have hlive : ∀ j, q.Live j ↔ p.Live j ∧ j ≠ i := by
    intro j
    by_cases hj : j = i
    · subst hj
      simp [Live, hself]
    · simp [Live, hnum, hother hj, hj]
  have hmem : q.memory = p.memory := by rw [← hq]; rfl
  refine ⟨?_, hnum, hmsize, by rw [← hq]; rfl, hlive, fun j => (hptr j).2.1,
    fun j => by rw [contents, contents, (hptr j).1, (hptr j).2.1, hmem]⟩
  have hi0 := hi.1
  have hin := hi.2.1
  constructor
  case three_le => rw [hnum]; exact hp.three_le
  case memory_pos => rw [hmsize]; exact hp.memory_pos
  case memory_lt => rw [hmsize]; exact hp.memory_lt
  case index => intro c hc; rw [(hptr c).2.2]; exact hp.index c (hnum ▸ hc)
  case first => rw [hother (by omega)]; exact hp.first
  case last_used => rw [hnum, hother (by omega)]; exact hp.last_used
  case last_size => rw [hnum, (hptr _).2.1]; exact hp.last_size
  case last_ptr => rw [hnum, (hptr _).1, hmsize]; exact hp.last_ptr
  case nonempty => intro c hc; rw [(hptr c).2.1]; exact hp.nonempty c ((hlive c).mp hc).1
  case inside =>
    intro c hc
    unfold blockEnd
    rw [(hptr c).1, (hptr c).2.1, hmsize]
    exact hp.inside c ((hlive c).mp hc).1
  case disjoint =>
    intro c d hc hd hcd
    unfold Disjoint blockEnd
    rw [(hptr c).1, (hptr c).2.1, (hptr d).1, (hptr d).2.1]
    exact hp.disjoint c d ((hlive c).mp hc).1 ((hlive d).mp hd).1 hcd

end RoboRTS.Sdk.MemoryPool
