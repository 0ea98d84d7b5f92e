import RoboRTS.Sdk.MemoryPool.Layout

/-!
# Compaction

What the compaction loop of `AllocMemory` does to a pool laid out in address order. One step
slides a block down to the end of its predecessor (`compactStep_layout`): the layout survives and
every live block still reads the same through its pointer. The loop turns the gaps it passes
into one gap behind the last block it moved (`compact_layout`).
-/

namespace RoboRTS.Sdk.MemoryPool

/-- The pools have the same parameters and the same live blocks with the same contents; only
the addresses of the blocks may differ. -/
structure SameBlocks (p q : MemoryPool) : Prop where
  memoryTableNum : q.memoryTableNum = p.memoryTableNum
  memorySize : q.memorySize = p.memorySize
  maxBlockSize : q.maxBlockSize = p.maxBlockSize
  usageFlag : ∀ i, (q.memoryTable i).usageFlag = (p.memoryTable i).usageFlag
  blockSize : ∀ i, (q.memoryTable i).memorySize = (p.memoryTable i).memorySize
  contents : ∀ i, p.Live i → q.contents i = p.contents i

namespace SameBlocks

variable {p q r : MemoryPool}

theorem refl (p : MemoryPool) : SameBlocks p p :=
  ⟨rfl, rfl, rfl, fun _ => rfl, fun _ => rfl, fun _ _ => rfl⟩

theorem live_iff (h : SameBlocks p q) (i : Nat) : q.Live i ↔ p.Live i := by
  simp only [Live, h.memoryTableNum, h.usageFlag]

theorem trans (h : SameBlocks p q) (h' : SameBlocks q r) : SameBlocks p r where
  memoryTableNum := h'.memoryTableNum.trans h.memoryTableNum
  memorySize := h'.memorySize.trans h.memorySize
  maxBlockSize := h'.maxBlockSize.trans h.maxBlockSize
  usageFlag := fun i => (h'.usageFlag i).trans (h.usageFlag i)
  blockSize := fun i => (h'.blockSize i).trans (h.blockSize i)
  contents := fun i hi => (h'.contents i ((h.live_iff i).mpr hi)).trans (h.contents i hi)

theorem firstUnused_eq (h : SameBlocks p q) : q.firstUnused = p.firstUnused := by
  simp only [firstUnused, h.memoryTableNum, h.usageFlag]

end SameBlocks

variable {p : MemoryPool} {mid : List Nat}

/-! ## Neighbours in a layout -/

namespace Layout

/-- No entry occurs twice along the chain. -/
theorem nodup_chain (hp : p.Valid) (hl : p.Layout mid) : (p.chain mid).Nodup := by
  have hn := hp.three_le
  have hlast : p.memoryTableNum - 1 ∉ mid := fun h => by
    have := ((hl.live _).mp h).2.1
    omega
  have hfirst : 0 ∉ mid := fun h => by
    have := ((hl.live _).mp h).1
    omega
  refine List.nodup_cons.mpr ⟨?_, ?_⟩
  · simp only [List.mem_append, List.mem_singleton, not_or]
    exact ⟨hfirst, by omega⟩
  · refine List.nodup_append.mpr ⟨hl.nodup, by simp, ?_⟩
    intro x hx y hy heq
    rw [List.mem_singleton.mp hy] at heq
    exact hlast (heq ▸ hx)

/-- A live block is on the chain. -/
theorem mem_chain (hl : p.Layout mid) {i : Nat} (hi : p.Live i) : i ∈ p.chain mid := by
  simp [chain, (hl.live i).mpr hi]

/-- An inner element of the chain is a live block. -/
theorem live_of_inner (hl : p.Layout mid) {pre rest : List Nat} {a b : Nat}
    (h : p.chain mid = pre ++ a :: b :: rest) (hrest : rest ≠ []) : p.Live b := by
  obtain ⟨rest', z, rfl⟩ := (List.eq_nil_or_concat' rest).resolve_left hrest
  have hinner : mid = (pre ++ a :: b :: rest').tail := by
    have h' := congrArg List.tail (congrArg List.dropLast h)
    rw [show pre ++ a :: b :: (rest' ++ [z]) = (pre ++ a :: b :: rest') ++ [z] by simp,
      List.dropLast_concat, chain, ← List.cons_append, List.dropLast_concat] at h'
    exact h'
  refine (hl.live b).mp ?_
  rw [hinner]
  cases pre <;> simp

/-- Every live block other than the neighbours `a` and `b` lies before `a` or after `b`. -/
theorem outside_gap (hl : p.Layout mid) {pre rest : List Nat} {a b : Nat}
    (h : p.chain mid = pre ++ a :: b :: rest) {c : Nat} (hc : p.Live c) (hcb : c ≠ b) :
    p.blockEnd c ≤ p.blockEnd a ∨ p.blockEnd b ≤ (p.memoryTable c).memoryPtr := by
  have hpair := hl.before
  have hmem := hl.mem_chain hc
  rw [h] at hpair hmem
  obtain ⟨-, hab, hcross⟩ := List.pairwise_append.mp hpair
  rcases List.mem_append.mp hmem with hpre | hsuf
  · have hca : p.blockEnd c ≤ (p.memoryTable a).memoryPtr := hcross c hpre a (by simp)
    left
    unfold blockEnd at hca ⊢
    omega
  · rcases List.mem_cons.mp hsuf with rfl | hsuf
    · exact Or.inl (le_refl _)
    · have hrest := (List.mem_cons.mp hsuf).resolve_left hcb
      exact Or.inr ((List.pairwise_cons.mp (List.pairwise_cons.mp hab).2).1 c hrest)

/-- Neighbours are ordered by address. -/
theorem before_of_neighbours (hl : p.Layout mid) {pre rest : List Nat} {a b : Nat}
    (h : p.chain mid = pre ++ a :: b :: rest) : p.Before a b := by
  have hpair := hl.before
  rw [h] at hpair
  exact (List.pairwise_cons.mp (List.pairwise_append.mp hpair).2.1).1 b (by simp)

end Layout

/-! ## One step -/

/-- The block moved by a compaction step starts at the end of its predecessor. -/
theorem compactStep_ptr (a b : Nat) (hab : p.Before a b) :
    ((p.compactStep a b).memoryTable b).memoryPtr = p.blockEnd a := by
  unfold compactStep Before at *
  split
  · simp
  · omega

/-- A compaction step changes no other table entry. -/
theorem compactStep_other (a : Nat) {b c : Nat} (hcb : c ≠ b) :
    (p.compactStep a b).memoryTable c = p.memoryTable c := by
  unfold compactStep
  split <;> simp [hcb]

/-- Apart from its address, the moved entry is unchanged too. -/
theorem compactStep_entry (a b c : Nat) :
    (p.compactStep a b).memoryTable c =
      { p.memoryTable c with memoryPtr := ((p.compactStep a b).memoryTable c).memoryPtr } := by
  unfold compactStep
  split
  · by_cases hcb : c = b
    · subst hcb
      simp
    · simp [hcb]
  · rfl

/-- Moving block `b` down to the end of `a` keeps the contents of every live block. -/
theorem compactStep_sameBlocks (a b : Nat) (hgap : ∀ c, p.Live c → c ≠ b →
      p.blockEnd c ≤ p.blockEnd a ∨ p.blockEnd b ≤ (p.memoryTable c).memoryPtr) :
    SameBlocks p (p.compactStep a b) := by
  by_cases hmove : (p.memoryTable b).memoryPtr > p.blockEnd a
  swap
  · rw [compactStep, if_neg hmove]
    exact SameBlocks.refl p
  have hparams : (p.compactStep a b).memoryTableNum = p.memoryTableNum ∧
      (p.compactStep a b).memorySize = p.memorySize ∧
      (p.compactStep a b).maxBlockSize = p.maxBlockSize := by
    rw [compactStep, if_pos hmove]
    exact ⟨rfl, rfl, rfl⟩
  refine ⟨hparams.1, hparams.2.1, hparams.2.2, fun i => by rw [compactStep_entry],
    fun i => by rw [compactStep_entry], fun c hc => ?_⟩
  have hmem : (p.compactStep a b).memory = p.memory.move (p.blockEnd a)
      (p.memoryTable b).memoryPtr (p.memoryTable b).memorySize := by
    rw [compactStep, if_pos hmove]
  unfold contents
  by_cases hcb : c = b
  · subst hcb
    rw [compactStep_ptr a c (le_of_lt hmove), compactStep_entry, hmem]
    exact ByteMemory.read_move_same _ _ _ _
  · rw [compactStep_other a hcb, hmem]
    refine ByteMemory.read_move_outside _ _ _ _ ?_
    have hout := hgap c hc hcb
    unfold blockEnd at hout hmove ⊢
    omega

/-- The end of the moved block only goes down, and its new start is the end of the other one. -/
theorem compactStep_before {a b : Nat} (hab : p.Before a b)
    (hsame : SameBlocks p (p.compactStep a b)) {c d : Nat} (hcd : p.Before c d)
    (hda : d = b → p.blockEnd c ≤ p.blockEnd a) : (p.compactStep a b).Before c d := by
  have hptr := compactStep_ptr a b hab
  have hsize := hsame.blockSize
  have hother : ∀ {c}, c ≠ b → (p.compactStep a b).memoryTable c = p.memoryTable c :=
    fun hcb => compactStep_other a hcb
  unfold Before blockEnd at *
  by_cases hc : c = b <;> by_cases hd : d = b
  · subst hc hd
    have := hda rfl
    rw [hptr, hsize]
    omega
  · subst hc
    rw [hptr, hsize, hother hd]
    omega
  · subst hd
    rw [hptr, hother hc]
    exact hda rfl
  · rw [hother hc, hother hd]
    exact hcd

/-- A block that slides into the gap below it keeps the pool valid. -/
theorem compactStep_valid (hp : p.Valid) {a b : Nat} (hb : p.Live b) (hab : p.Before a b)
    (hgap : ∀ c, p.Live c → c ≠ b →
      p.blockEnd c ≤ p.blockEnd a ∨ p.blockEnd b ≤ (p.memoryTable c).memoryPtr) :
    (p.compactStep a b).Valid := by
  have hsame := compactStep_sameBlocks a b hgap
  have hptr := compactStep_ptr a b hab
  have hother : ∀ {c}, c ≠ b → (p.compactStep a b).memoryTable c = p.memoryTable c :=
    fun hcb => compactStep_other a hcb
  have hsize := hsame.blockSize
  have hnum := hsame.memoryTableNum
  have hne0 : 0 ≠ b := by have := hb.1; omega
  have hneLast : p.memoryTableNum - 1 ≠ b := by have := hb.2.1; omega
  constructor
  case three_le => rw [hnum]; exact hp.three_le
  case memory_pos => rw [hsame.memorySize]; exact hp.memory_pos
  case memory_lt => rw [hsame.memorySize]; exact hp.memory_lt
  case index =>
    intro i hi
    rw [compactStep_entry]
    exact hp.index i (hnum ▸ hi)
  case first => rw [hother hne0]; exact hp.first
  case last_used => rw [hnum, hother hneLast]; exact hp.last_used
  case last_size => rw [hnum, hother hneLast]; exact hp.last_size
  case last_ptr => rw [hnum, hother hneLast, hsame.memorySize]; exact hp.last_ptr
  case nonempty =>
    intro i hi
    rw [hsize]
    exact hp.nonempty i ((hsame.live_iff i).mp hi)
  case inside =>
    intro i hi
    have hin := hp.inside i ((hsame.live_iff i).mp hi)
    rw [hsame.memorySize]
    by_cases hib : i = b
    · subst hib
      unfold Before blockEnd at *
      rw [hptr, hsize]
      omega
    · unfold blockEnd at *
      rwa [hother hib]
  case disjoint =>
    intro i j hi hj hij
    have hi' := (hsame.live_iff i).mp hi
    have hj' := (hsame.live_iff j).mp hj
    have hd := hp.disjoint i j hi' hj' hij
    -- neither block can lie in the gap that `b` slides into
    have hgi := hgap i hi'
    have hgj := hgap j hj'
    unfold Disjoint Before blockEnd at *
    by_cases hib : i = b <;> by_cases hjb : j = b
    · omega
    · subst hib
      have := hgj hjb
      rw [hptr, hsize, hother hjb]
      omega
    · subst hjb
      have := hgi hib
      rw [hother hib, hptr, hsize]
      omega
    · rwa [hother hib, hother hjb]

/-- A compaction step keeps the pool valid and laid out in the same order. -/
theorem compactStep_layout (hp : p.Valid) (hl : p.Layout mid) {pre rest : List Nat} {a b : Nat}
    (h : p.chain mid = pre ++ a :: b :: rest) (hrest : rest ≠ []) :
    (p.compactStep a b).Valid ∧ (p.compactStep a b).Layout mid ∧
      SameBlocks p (p.compactStep a b) := by
  have hb : p.Live b := hl.live_of_inner h hrest
  have hab : p.Before a b := hl.before_of_neighbours h
  have hgap : ∀ c, p.Live c → c ≠ b →
      p.blockEnd c ≤ p.blockEnd a ∨ p.blockEnd b ≤ (p.memoryTable c).memoryPtr :=
    fun c hc hcb => hl.outside_gap h hc hcb
  have hsame := compactStep_sameBlocks a b hgap
  have hbefore : ∀ c d, p.Before c d → (d = b → p.blockEnd c ≤ p.blockEnd a) →
      (p.compactStep a b).Before c d :=
    fun c d => compactStep_before hab hsame
  have hpair := hl.before
  refine ⟨compactStep_valid hp hb hab hgap,
    ⟨fun i => by rw [hl.live, hsame.live_iff], hl.nodup, ?_⟩, hsame⟩
  rw [chain, hsame.memoryTableNum]
  change (p.chain mid).Pairwise _
  rw [h] at hpair ⊢
  obtain ⟨hpre, hsuf, hcross⟩ := List.pairwise_append.mp hpair
  have hnodup := hl.nodup_chain hp
  rw [h] at hnodup
  obtain ⟨hnodupPre, hnodupSuf, hdisj⟩ := List.nodup_append.mp hnodup
  have hbpre : ∀ d ∈ pre, d ≠ b := fun d hd => hdisj d hd b (by simp)
  have hbrest : ∀ d ∈ rest, d ≠ b := fun d hd heq =>
    (List.nodup_cons.mp (List.nodup_cons.mp hnodupSuf).2).1 (heq ▸ hd)
  refine List.pairwise_append.mpr ⟨?_, ?_, ?_⟩
  · exact hpre.imp_of_mem fun _ hd hcd => hbefore _ _ hcd fun heq => absurd heq (hbpre _ hd)
  · refine List.pairwise_cons.mpr ⟨fun d hd => ?_, List.pairwise_cons.mpr ⟨fun d hd => ?_, ?_⟩⟩
    · exact hbefore _ _ ((List.pairwise_cons.mp hsuf).1 d hd) fun _ => le_refl _
    · exact hbefore _ _ ((List.pairwise_cons.mp (List.pairwise_cons.mp hsuf).2).1 d hd)
        fun heq => absurd heq (hbrest d hd)
    · exact (List.pairwise_cons.mp (List.pairwise_cons.mp hsuf).2).2.imp_of_mem
        fun _ hd hcd => hbefore _ _ hcd fun heq => absurd heq (hbrest _ hd)
  · intro c hc d hd
    refine hbefore _ _ (hcross c hc d hd) fun _ => ?_
    have hca := hcross c hc a (by simp)
    unfold Before blockEnd at *
    omega

/-! ## The loop -/

/-- The gaps along a list depend only on the entries of that list. -/
theorem gapTotal_congr {q : MemoryPool} (k : Nat) (l : List Nat)
    (h : ∀ i ∈ l, q.memoryTable i = p.memoryTable i) : q.gapTotal k l = p.gapTotal k l := by
  induction k generalizing l with
  | zero => simp [gapTotal]
  | succ k ih =>
      rcases l with - | ⟨a, - | ⟨b, rest⟩⟩
      · simp [gapTotal]
      · simp [gapTotal]
      · rw [gapTotal, gapTotal, ih (b :: rest) fun i hi => h i (List.mem_cons_of_mem _ hi),
          leftSize, leftSize, h a (by simp), h b (by simp)]

/-- After `j` steps along the suffix `l` of the chain, the gap behind the last block that moved
is all the gaps of the first `j + 1` pairs together. -/
theorem compact_layout (j : Nat) (hp : p.Valid) (hl : p.Layout mid) (pre l : List Nat)
    (h : p.chain mid = pre ++ l) (hj : j + 1 < l.length) :
    (compact j l p).Valid ∧ (compact j l p).Layout mid ∧ SameBlocks p (compact j l p) ∧
      (compact j l p).leftSize (l.getD j 0) (l.getD (j + 1) 0) = p.gapTotal (j + 1) l := by
  induction j generalizing p pre l with
  | zero =>
      rcases l with - | ⟨a, - | ⟨b, rest⟩⟩
      · simp at hj
      · simp at hj
      · refine ⟨by simpa [compact] using hp, by simpa [compact] using hl, ?_, ?_⟩
        · simpa [compact] using SameBlocks.refl p
        · simp [compact, gapTotal]
  | succ j ih =>
      rcases l with - | ⟨a, - | ⟨b, - | ⟨c, rest⟩⟩⟩
      · simp at hj
      · simp at hj
      · simp only [List.length_cons, List.length_nil] at hj
        omega
      · obtain ⟨hp', hl', hsame⟩ := compactStep_layout hp hl h (by simp)
        have hchain : (p.compactStep a b).chain mid = (pre ++ [a]) ++ (b :: c :: rest) := by
          rw [chain, hsame.memoryTableNum]
          simpa [chain] using h
        obtain ⟨hv, hlay, hsame', hgap⟩ := ih hp' hl' (pre ++ [a]) (b :: c :: rest) hchain
          (by simpa using hj)
        rw [compact]
        refine ⟨hv, hlay, hsame.trans hsame', ?_⟩
        rw [List.getD_cons_succ, List.getD_cons_succ, hgap]
        -- the first gap seen by the rest of the loop already contains the gap before `b`
        have hnodup := hl.nodup_chain hp
        rw [h] at hnodup
        have hbrest : ∀ i ∈ c :: rest, i ≠ b := fun i hi heq =>
          (List.nodup_cons.mp (List.nodup_cons.mp (List.nodup_append.mp hnodup).2.1).2).1
            (heq ▸ hi)
        have hab : p.Before a b := hl.before_of_neighbours h
        have hbc : p.Before b c := hl.before_of_neighbours
          (show p.chain mid = (pre ++ [a]) ++ b :: c :: rest by simpa using h)
        have hfirst : (p.compactStep a b).leftSize b c = p.leftSize a b + p.leftSize b c := by
          unfold leftSize Before at *
          rw [compactStep_ptr a b hab, hsame.blockSize, compactStep_other a (hbrest c (by simp))]
          unfold blockEnd at *
          omega
        rw [gapTotal, gapTotal, gapTotal, hfirst,
          gapTotal_congr (p := p) (q := p.compactStep a b) j (c :: rest)
            fun i hi => compactStep_other a (hbrest i hi), Nat.add_assoc]

end RoboRTS.Sdk.MemoryPool
