import RoboRTS.Sdk.MemoryPool.Runs
import RoboRTS.Sdk.Protocol.Packages

/-!
# What the session functions do

One lemma for each function that allocates, frees or sends: everything the call can have done to
the sessions, the pool and the output, so that no later proof unfolds a function
(`sendCMD_cases`, `sendACK_cases`, `autoRepeatSendCheck_cases`, `containerHandler_cases`).
-/

namespace RoboRTS.Sdk

/-! ## The pool of a protocol object -/

namespace MemoryPool

/-- A valid pool with the parameters `Init` gives it. -/
structure Sized (p : MemoryPool) : Prop where
  valid : p.Valid
  memorySize : p.memorySize = 4096
  maxBlockSize : p.maxBlockSize = 4096
  memoryTableNum : p.memoryTableNum = 32

/-- The blocks in use and their contents are the same. -/
structure Preserved (p q : MemoryPool) : Prop where
  sized : q.Sized
  live_iff : ∀ j, q.Live j ↔ p.Live j
  contents : ∀ j, p.Live j → q.contents j = p.contents j

/-- Block `b` has been allocated and filled with `bytes`. -/
structure Acquired (p : MemoryPool) (b : Nat) (bytes : List UInt8) (q : MemoryPool) : Prop where
  sized : q.Sized
  fresh : ¬ p.Live b
  live_iff : ∀ j, q.Live j ↔ p.Live j ∨ j = b
  contents : ∀ j, p.Live j → q.contents j = p.contents j
  stored : q.contents b = bytes

/-- Block `b` has been freed. -/
structure Released (p : MemoryPool) (b : Nat) (q : MemoryPool) : Prop where
  sized : q.Sized
  live_iff : ∀ j, q.Live j ↔ p.Live j ∧ j ≠ b
  contents : ∀ j, q.contents j = p.contents j

theorem Preserved.refl {p : MemoryPool} (hp : p.Sized) : Preserved p p :=
  ⟨hp, fun _ => Iff.rfl, fun _ _ => rfl⟩

theorem AllocSpec.sized {p q : MemoryPool} {size : Nat} {r : Option Nat} (hp : p.Sized)
    (h : AllocSpec p size q r) : q.Sized :=
  ⟨h.valid, h.memorySize.trans hp.memorySize, h.maxBlockSize.trans hp.maxBlockSize,
    h.memoryTableNum.trans hp.memoryTableNum⟩

/-- A failed allocation preserves every block, whatever was asked for. -/
theorem allocMemory_none {p : MemoryPool} (hp : p.Sized) {size : Nat}
    (hnone : (p.allocMemory size).2 = none) : Preserved p (p.allocMemory size).1 := by
  by_cases hsize : size = 0
  · subst hsize
    rw [(allocMemory_zero hp.valid hnone).1]
    exact Preserved.refl hp
  · have hspec := allocMemory_spec hp.valid (show 1 ≤ size by omega)
    refine ⟨hspec.sized hp, fun j => ?_, hspec.contents⟩
    rw [hspec.live_iff, hnone]
    simp

/-- An allocation followed by filling the block. -/
theorem acquired_of_alloc {p q q' : MemoryPool} {b size : Nat} {bytes : List UInt8} (hp : p.Sized)
    (halloc : AllocSpec p size q (some b)) (hstore : StoreSpec q b bytes q') :
    Acquired p b bytes q' := by
  have hq := halloc.sized hp
  have hlive : ∀ j, q'.Live j ↔ q.Live j := fun j => by
    simp only [Live, hstore.memoryTable, hstore.memoryTableNum]
  refine ⟨⟨hstore.valid, hstore.memorySize.trans hq.memorySize,
    hstore.maxBlockSize.trans hq.maxBlockSize, hstore.memoryTableNum.trans hq.memoryTableNum⟩,
    (halloc.fresh b rfl).1, fun j => ?_, fun j hj => ?_, hstore.stored⟩
  · rw [hlive, halloc.live_iff, Option.some_inj, eq_comm (a := b)]
  · have hjb : j ≠ b := fun heq => (halloc.fresh b rfl).1 (heq ▸ hj)
    rw [hstore.contents j ((halloc.live_iff j).mpr (Or.inl hj)) hjb, halloc.contents j hj]

theorem released_of_free {p : MemoryPool} (hp : p.Sized) {b : Nat} (hb : p.Live b) :
    Released p b (p.freeMemory (some b)) := by
  have hspec := freeMemory_spec hp.valid hb
  exact ⟨⟨hspec.valid, hspec.memorySize.trans hp.memorySize,
    hspec.maxBlockSize.trans hp.maxBlockSize, hspec.memoryTableNum.trans hp.memoryTableNum⟩,
    hspec.live_iff, hspec.contents⟩

/-- Freeing whatever a pointer points to leaves a valid pool. -/
theorem freeMemory_sized {p : MemoryPool} (hp : p.Sized) (block : Option Nat) :
    (p.freeMemory block).Sized := by
  cases block with
  | none => exact hp
  | some i =>
      by_cases hi : p.Live i
      · exact (released_of_free hp hi).sized
      rw [freeMemory]
      by_cases hsentinel : (p.memoryTable i).tableIndex = 0 ∨
          (p.memoryTable i).tableIndex = p.memoryTableNum - 1
      · rw [if_pos hsentinel]
        exact hp
      rw [if_neg hsentinel]
      -- the block is not in use, or outside the table
      by_cases hflag : (p.memoryTable i).usageFlag = false
      · have hsame : { p.memoryTable i with usageFlag := false } = p.memoryTable i := by
          rw [← hflag]
        rw [setBlock, hsame, Function.update_eq_self]
        exact hp
      have hout : p.memoryTableNum ≤ i := by
        by_contra hlt
        have hindex := hp.valid.index i (by omega)
        exact hi ⟨by omega, by omega, by simpa using hflag⟩
      have hin : ∀ {j}, j < p.memoryTableNum →
          (p.setBlock i { p.memoryTable i with usageFlag := false }).memoryTable j =
            p.memoryTable j := fun hj => Function.update_of_ne (by omega) ..
      have hnum := hp.valid.three_le
      generalize hq : p.setBlock i { p.memoryTable i with usageFlag := false } = q at hin ⊢
      have hqnum : q.memoryTableNum = p.memoryTableNum := by rw [← hq]; rfl
      have hqsize : q.memorySize = p.memorySize := by rw [← hq]; rfl
      have hqmax : q.maxBlockSize = p.maxBlockSize := by rw [← hq]; rfl
      have hlive : ∀ {j}, q.Live j → p.Live j ∧ q.memoryTable j = p.memoryTable j := by
        intro j hj
        have heq := hin (show j < p.memoryTableNum by have := hj.2.1; omega)
        exact ⟨⟨hj.1, by have := hj.2.1; omega, by rw [← heq]; exact hj.2.2⟩, heq⟩
      refine ⟨⟨by omega, by have := hp.valid.memory_pos; omega, by have := hp.valid.memory_lt; omega,
        ?_, ?_, ?_, ?_, ?_, ?_, ?_, ?_⟩, hqsize.trans hp.memorySize, hqmax.trans hp.maxBlockSize,
        hqnum.trans hp.memoryTableNum⟩
      · intro j hj
        rw [hin (by omega)]
        exact hp.valid.index j (by omega)
      · rw [hin (by omega)]
        exact hp.valid.first
      · rw [hqnum, hin (by omega)]
        exact hp.valid.last_used
      · rw [hqnum, hin (by omega)]
        exact hp.valid.last_size
      · rw [hqnum, hin (by omega), hqsize]
        exact hp.valid.last_ptr
      · intro j hj
        rw [(hlive hj).2]
        exact hp.valid.nonempty j (hlive hj).1
      · intro j hj
        rw [blockEnd, (hlive hj).2, hqsize]
        exact hp.valid.inside j (hlive hj).1
      · intro j k hj hk hne
        rw [Disjoint, blockEnd, blockEnd, (hlive hj).2, (hlive hk).2]
        exact hp.valid.disjoint j k (hlive hj).1 (hlive hk).1 hne

/-- Freeing gives back the size of the block. -/
theorem usedMemorySize_free {p : MemoryPool} (hp : p.Valid) {b : Nat} (hb : p.Live b) :
    (p.freeMemory (some b)).usedMemorySize + (p.memoryTable b).memorySize = p.usedMemorySize := by
  have hspec := freeMemory_spec hp hb
  have hperm : p.liveEntries.Perm (b :: (p.freeMemory (some b)).liveEntries) := by
    rw [List.perm_ext_iff_of_nodup nodup_liveEntries]
    · intro j
      rw [List.mem_cons, mem_liveEntries, mem_liveEntries, hspec.live_iff]
      by_cases hj : j = b
      · simp [hj, hb]
      · simp [hj]
    · refine List.nodup_cons.mpr ⟨?_, nodup_liveEntries⟩
      rw [mem_liveEntries, hspec.live_iff]
      exact fun h => h.2 rfl
  rw [hspec.valid.usedMemorySize_eq, hp.usedMemorySize_eq,
    ((hperm.map fun i => (p.memoryTable i).memorySize).sum_eq), List.map_cons, List.sum_cons,
    Nat.add_comm]
  congr 2
  exact List.map_congr_left fun j _ => hspec.blockSize j

/-- After freeing a block, a request succeeds when it fits the limits and the free memory. -/
theorem allocMemory_after_free {p : MemoryPool} (hp : p.Sized) {b size : Nat} (hb : p.Live b)
    (hmax : size ≤ p.maxBlockSize)
    (hroom : p.usedMemorySize + size ≤ p.memorySize + (p.memoryTable b).memorySize) :
    ((p.freeMemory (some b)).allocMemory size).2.isSome = true := by
  have hfree := released_of_free hp hb
  have hused := usedMemorySize_free hp.valid hb
  have hlt : b < (p.freeMemory (some b)).memoryTableNum - 1 := by
    rw [hfree.sized.memoryTableNum, ← hp.memoryTableNum]
    exact hb.2.1
  have hunused : ((p.freeMemory (some b)).memoryTable b).usageFlag = false := by
    by_contra hflag
    have hlive : (p.freeMemory (some b)).Live b := ⟨hb.1, hlt, by simpa using hflag⟩
    exact ((hfree.live_iff b).mp hlive).2 rfl
  by_cases hsize : size = 0
  · subst hsize
    by_contra hfail
    have hnone : ((p.freeMemory (some b)).allocMemory 0).2 = none := by simpa using hfail
    have hfirst := firstUnused_isSome_iff.mpr ⟨b, hb.1, hlt, hunused⟩
    rw [(allocMemory_zero hfree.sized.valid hnone).2] at hfirst
    cases hfirst
  · rw [hp.maxBlockSize] at hmax
    rw [hp.memorySize] at hroom
    rw [allocMemory_isSome_iff hfree.sized.valid (by omega), hfree.sized.maxBlockSize,
      hfree.sized.memorySize]
    exact ⟨hmax, by omega, by omega, b, hb.1, hlt, hunused⟩

end MemoryPool

namespace Protocol

/-! ## What is sent -/

/-- What `DeviceSend` hands to the device for a package: as many bytes as its header says. -/
def wire (package : List UInt8) : List UInt8 :=
  package.take (Header.decode (ByteMemory.ofList package) 0).length

/-- Sending a block that holds a package. -/
theorem deviceSend_contents {p : Protocol} {b : Nat} {h : Header} {body : List UInt8}
    (hb : p.memoryPool.contents b = h.package body) (hlen : h.length = (h.package body).length) :
    p.deviceSend (p.blockPtr b) =
      { p with deviceOut := p.deviceOut ++ [wire (h.package body)] } := by
  have hdecode : Header.decode p.memoryPool.memory (p.blockPtr b) = h.stored :=
    Header.decode_of_package hb
  have hsize : (p.memoryPool.memoryTable b).memorySize = (h.package body).length := by
    rw [← hb, MemoryPool.contents, ByteMemory.length_read]
  have hle : h.length % 1024 ≤ (p.memoryPool.memoryTable b).memorySize := by
    have := Nat.mod_le h.length 1024
    omega
  have hwire : p.memoryPool.memory.read (p.blockPtr b) (h.length % 1024) =
      wire (h.package body) := by
    rw [wire, Header.decode_package, ← hb, MemoryPool.contents]
    exact (ByteMemory.take_read _ _ hle).symm
  rw [deviceSend, hdecode, ← hwire]
  rfl

/-! ## `SendCMD` -/

section

variable {p p' : Protocol}

/-- The sequence number `SendCMD` puts into a command of session `i`. -/
def cmdSeqNum (p : Protocol) (mode : CMDSessionMode) (i : Nat) : UInt16 :=
  if mode ≠ .CMD_SESSION_0 ∧ p.seqNum.toUInt32 = (p.cmdSessionTable i).preSeqNum then p.seqNum + 1
  else p.seqNum

/-- The package `SendCMD` stores in session `i`. -/
def cmdPackage (p : Protocol) (sessionId : Nat) (seqNum : UInt16) (cmdSet cmdId receiver : UInt8)
    (data : List UInt8) : List UInt8 :=
  (p.packHeader (18 + data.length) sessionId false receiver seqNum).package ([cmdId, cmdSet] ++ data)

/-- The command session after `SendCMD` in one of the modes that keep it. -/
def sentSession (p : Protocol) (mode : CMDSessionMode) (i b : Nat) (cmdSet cmdId : UInt8)
    (ackTimeout retryTime now : Int) : CMDSession :=
  { p.cmdSessionTable i with
    usageFlag := true
    memoryBlockPtr := some b
    cmdSet := cmdSet
    cmdId := cmdId
    preSeqNum := (p.cmdSeqNum mode i).toUInt32
    ackTimeout := if ackTimeout > pollTick then ackTimeout else pollTick
    preTimeStamp := now
    sent := 1
    retryTime := if mode = .CMD_SESSION_1 then 1 else UInt16.ofInt retryTime }

/-- The package of `cmdPackage` has the length its header says. -/
theorem length_cmdPackage (sessionId : Nat) (seqNum : UInt16) (cmdSet cmdId receiver : UInt8)
    (data : List UInt8) :
    (p.cmdPackage sessionId seqNum cmdSet cmdId receiver data).length = 18 + data.length := by
  rw [cmdPackage, Header.length_package _ (by simp)]
  simp only [List.length_append, List.length_cons, List.length_nil]
  omega

theorem freeSession_unused {mode : CMDSessionMode} {i : Nat} (h : p.freeSession mode = some i) :
    (p.cmdSessionTable i).usageFlag = false ∧ i < 32 ∧
      match mode with
      | .CMD_SESSION_0 => i = 0
      | .CMD_SESSION_1 => i = 1
      | .CMD_SESSION_AUTO => 2 ≤ i := by
  cases mode with
  | CMD_SESSION_0 =>
      simp only [freeSession] at h
      split at h
      case isTrue => cases h
      case isFalse hflag => cases h; exact ⟨by simpa using hflag, by decide, rfl⟩
  | CMD_SESSION_1 =>
      simp only [freeSession] at h
      split at h
      case isTrue => cases h
      case isFalse hflag => cases h; exact ⟨by simpa using hflag, by decide, rfl⟩
  | CMD_SESSION_AUTO =>
      have hmem := List.mem_of_find?_eq_some h
      have hflag := List.find?_some h
      rw [List.mem_range'_1] at hmem
      simp only [SESSION_TABLE_NUM] at hmem
      exact ⟨by simpa using hflag, by omega, hmem.1⟩

/-- What `AllocCMDSession` can have done. -/
theorem allocCMDSession_cases (mode : CMDSessionMode) (size : Nat) :
    (∃ pool, p.allocCMDSession mode size = (p.setPool pool, none) ∧
      (pool = p.memoryPool ∨
        pool = (p.memoryPool.allocMemory size).1 ∧ (p.memoryPool.allocMemory size).2 = none)) ∨
    ∃ i b, p.freeSession mode = some i ∧ (p.memoryPool.allocMemory size).2 = some b ∧
      p.allocCMDSession mode size =
        ((p.setPool (p.memoryPool.allocMemory size).1).setCmd i
          { p.cmdSessionTable i with usageFlag := true, memoryBlockPtr := some b }, some i) := by
  rw [allocCMDSession]
  cases hfree : p.freeSession mode with
  | none => exact Or.inl ⟨p.memoryPool, rfl, Or.inl rfl⟩
  | some i =>
      dsimp only
      cases halloc : (p.memoryPool.allocMemory size).2 with
      | none => exact Or.inl ⟨_, rfl, Or.inr ⟨rfl, rfl⟩⟩
      | some b => exact Or.inr ⟨i, b, rfl, rfl, rfl⟩

/-- Packing and sending a command in a block that has just been allocated. -/
theorem packCMD_acquired {q r : Protocol} {i b packLength : Nat} {cmdSet cmdId receiver : UInt8}
    {data : List UInt8} (hp : p.memoryPool.Sized)
    (hlen : (HEADER_LEN + CMD_SET_PREFIX_LEN + data.length + CRC_DATA_LEN) % 2 ^ 16 = packLength)
    (hb : (p.memoryPool.allocMemory packLength).2 = some b)
    (hq : q.memoryPool = (p.memoryPool.allocMemory packLength).1)
    (h : q.packCMD i b packLength cmdSet cmdId receiver data = some r) :
    ∃ pool, MemoryPool.Acquired p.memoryPool b
        (q.cmdPackage (q.cmdSessionTable i).sessionId q.seqNum cmdSet cmdId receiver data) pool ∧
      r = q.setPool pool ∧
      r.deviceSend (r.blockPtr b) =
        { q with
          memoryPool := pool
          deviceOut := q.deviceOut ++ [wire (q.cmdPackage (q.cmdSessionTable i).sessionId q.seqNum
            cmdSet cmdId receiver data)] } := by
  have hsmall : 1 ≤ packLength ∨ packLength = 0 := by omega
  have hq4096 : q.memoryPool.memorySize = 4096 := by
    rcases hsmall with hpos | hzero
    · rw [hq, (MemoryPool.allocMemory_spec hp.valid hpos).memorySize, hp.memorySize]
    · rw [hq, MemoryPool.allocMemory_memorySize, hp.memorySize]
  have hdata := packCMD_isSome hq4096 h
  simp only [HEADER_LEN, CMD_SET_PREFIX_LEN, CRC_DATA_LEN] at hlen
  have hpack : packLength = 18 + data.length := by omega
  subst hpack
  have halloc := MemoryPool.allocMemory_spec hp.valid (show 1 ≤ 18 + data.length by omega)
  rw [hb, ← hq] at halloc
  have hlive : q.memoryPool.Live b := (halloc.live_iff b).mpr (Or.inr rfl)
  obtain ⟨pool, hpool, hstore⟩ :=
    packCMD_spec halloc.valid hlive (halloc.fresh b rfl).2 i cmdSet cmdId receiver
  rw [hpool] at h
  cases h
  have hacq := MemoryPool.acquired_of_alloc hp halloc hstore
  refine ⟨pool, hacq, rfl, ?_⟩
  rw [deviceSend_contents (p := q.setPool pool) hacq.stored
    (length_cmdPackage (p := q) _ _ cmdSet cmdId receiver data).symm]
  rfl

/-- The state after a successful `SendCMD` on session `i`, which has got block `b` of `pool`. -/
def afterSendCMD (p : Protocol) (mode : CMDSessionMode) (i b : Nat) (pool : MemoryPool)
    (package : List UInt8) (cmdSet cmdId : UInt8) (ackTimeout retryTime now : Int) : Protocol :=
  { p with
    seqNum := p.cmdSeqNum mode i + 1
    deviceOut := p.deviceOut ++ [wire package]
    memoryPool := if mode = .CMD_SESSION_0 then pool.freeMemory (some b) else pool
    cmdSessionTable := Function.update p.cmdSessionTable i
      (if mode = .CMD_SESSION_0 then
        { p.cmdSessionTable i with usageFlag := false, memoryBlockPtr := some b }
      else p.sentSession mode i b cmdSet cmdId ackTimeout retryTime now) }

/-- The state in which `SendCMD` packs: session `i` has got block `b` and its sequence number. -/
def beforePack (p : Protocol) (mode : CMDSessionMode) (i b packLength : Nat) : Protocol :=
  { p with
    seqNum := p.cmdSeqNum mode i
    memoryPool := (p.memoryPool.allocMemory packLength).1
    cmdSessionTable := Function.update p.cmdSessionTable i
      { p.cmdSessionTable i with usageFlag := true, memoryBlockPtr := some b } }

theorem beforePack_self (mode : CMDSessionMode) (i b packLength : Nat) :
    (p.beforePack mode i b packLength).cmdSessionTable i =
      { p.cmdSessionTable i with usageFlag := true, memoryBlockPtr := some b } :=
  Function.update_self ..

/-- `SendCMD` on session 0 from the state in which it packs. -/
theorem sendOnce_cases {i b packLength : Nat} {cmdSet cmdId receiver : UInt8} {data : List UInt8}
    (ackTimeout retryTime now : Int) {out : Option MessageHeader} (hp : p.memoryPool.Sized)
    (hid : (p.cmdSessionTable i).sessionId = i)
    (hlen : (HEADER_LEN + CMD_SET_PREFIX_LEN + data.length + CRC_DATA_LEN) % 2 ^ 16 = packLength)
    (hb : (p.memoryPool.allocMemory packLength).2 = some b)
    (h : (p.beforePack .CMD_SESSION_0 i b packLength).sendOnce i b packLength cmdSet cmdId receiver
      data = some (p', out)) :
    ∃ pool, MemoryPool.Acquired p.memoryPool b
        (p.cmdPackage i (p.cmdSeqNum .CMD_SESSION_0 i) cmdSet cmdId receiver data) pool ∧
      out = some { isAck := false, seqNum := p.cmdSeqNum .CMD_SESSION_0 i, sessionId := i } ∧
      p' = p.afterSendCMD .CMD_SESSION_0 i b pool
        (p.cmdPackage i (p.cmdSeqNum .CMD_SESSION_0 i) cmdSet cmdId receiver data)
        cmdSet cmdId ackTimeout retryTime now := by
  have hself := p.beforePack_self .CMD_SESSION_0 i b packLength
  have hqid : ((p.beforePack .CMD_SESSION_0 i b packLength).cmdSessionTable i).sessionId = i := by
    rw [hself]
    exact hid
  rw [sendOnce, Option.map_eq_some_iff] at h
  obtain ⟨r, hr, hout⟩ := h
  obtain ⟨pool, hacq, rfl, hsend⟩ := packCMD_acquired hp hlen hb rfl hr
  rw [hqid] at hacq hsend
  dsimp only at hout
  rw [hsend] at hout
  obtain ⟨rfl, rfl⟩ := Prod.mk.inj hout
  refine ⟨pool, hacq, ?_, ?_⟩
  · rw [cmdMessageHeader, setPool, hqid]
    rfl
  · simp only [freeCMDSession, if_true, hself, setCmd, setPool, afterSendCMD]
    simp only [beforePack, Function.update_idem]
    rfl

/-- The other modes choose the sequence number first. -/
theorem bumpSeqNum_beforePack {mode : CMDSessionMode} (hmode : mode ≠ .CMD_SESSION_0)
    (i b packLength : Nat) :
    (p.beforePack .CMD_SESSION_0 i b packLength).bumpSeqNum i =
      p.beforePack mode i b packLength := by
  simp only [bumpSeqNum, beforePack, Function.update_self, cmdSeqNum, hmode, ne_eq,
    not_true_eq_false, false_and, if_false, not_false_eq_true, true_and]
  split <;> rfl

/-- `SendCMD` in the other two modes from the state in which it packs. -/
theorem sendKept_cases (mode : CMDSessionMode) {i b packLength : Nat}
    {cmdSet cmdId receiver : UInt8} {data : List UInt8} {ackTimeout : Int} (retryTime : Int)
    {now : Int} {retry : UInt16} {out : Option MessageHeader} (hp : p.memoryPool.Sized)
    (hid : (p.cmdSessionTable i).sessionId = i) (hmode : mode ≠ .CMD_SESSION_0)
    (hretry : retry = if mode = .CMD_SESSION_1 then 1 else UInt16.ofInt retryTime)
    (hlen : (HEADER_LEN + CMD_SET_PREFIX_LEN + data.length + CRC_DATA_LEN) % 2 ^ 16 = packLength)
    (hb : (p.memoryPool.allocMemory packLength).2 = some b)
    (h : (p.beforePack .CMD_SESSION_0 i b packLength).sendKept i b packLength cmdSet cmdId receiver
      data ackTimeout retry now = some (p', out)) :
    ∃ pool, MemoryPool.Acquired p.memoryPool b
        (p.cmdPackage i (p.cmdSeqNum mode i) cmdSet cmdId receiver data) pool ∧
      out = some { isAck := false, seqNum := p.cmdSeqNum mode i, sessionId := i } ∧
      p' = p.afterSendCMD mode i b pool
        (p.cmdPackage i (p.cmdSeqNum mode i) cmdSet cmdId receiver data)
        cmdSet cmdId ackTimeout retryTime now := by
  have hself := p.beforePack_self mode i b packLength
  have hqid : ((p.beforePack mode i b packLength).cmdSessionTable i).sessionId = i := by
    rw [hself]
    exact hid
  rw [sendKept] at h
  dsimp only at h
  rw [bumpSeqNum_beforePack hmode, Option.map_eq_some_iff] at h
  obtain ⟨r, hr, hout⟩ := h
  obtain ⟨pool, hacq, rfl, hsend⟩ := packCMD_acquired hp hlen hb rfl hr
  rw [hqid] at hacq hsend
  obtain ⟨rfl, rfl⟩ := Prod.mk.inj hout
  refine ⟨pool, hacq, ?_, ?_⟩
  · rw [cmdMessageHeader, setPool, hqid]
    rfl
  · -- sending looks at the pool only, which is not changed after packing
    have hout := congrArg Protocol.deviceOut hsend
    simp only [deviceSend, setPool] at hout
    simp only [deviceSend, setCmd, setPool, blockPtr, afterSendCMD, hmode, if_false, hself]
    simp only [blockPtr] at hout
    rw [hout]
    simp only [beforePack, Function.update_idem, sentSession, hretry]
    rfl

/-- What `SendCMD` can have done. -/
theorem sendCMD_cases (hp : p.memoryPool.Sized) (hid : ∀ i, (p.cmdSessionTable i).sessionId = i)
    {cmdSet cmdId receiver : UInt8} {data : List UInt8} {mode : CMDSessionMode}
    {ackTimeout retryTime now : Int} {out : Option MessageHeader}
    (h : p.sendCMD cmdSet cmdId receiver data mode ackTimeout retryTime now = some (p', out)) :
    (out = none ∧ ∃ pool, MemoryPool.Preserved p.memoryPool pool ∧ p' = p.setPool pool) ∨
    ∃ i b pool, p.freeSession mode = some i ∧
      MemoryPool.Acquired p.memoryPool b
        (p.cmdPackage i (p.cmdSeqNum mode i) cmdSet cmdId receiver data) pool ∧
      out = some { isAck := false, seqNum := p.cmdSeqNum mode i, sessionId := i } ∧
      p' = p.afterSendCMD mode i b pool
        (p.cmdPackage i (p.cmdSeqNum mode i) cmdSet cmdId receiver data)
        cmdSet cmdId ackTimeout retryTime now := by
  rw [sendCMD] at h
  by_cases hdata : data.length = 0
  · rw [if_pos hdata] at h
    cases h
    exact Or.inl ⟨rfl, p.memoryPool, MemoryPool.Preserved.refl hp, rfl⟩
  rw [if_neg hdata] at h
  dsimp only at h
  generalize hpack : (HEADER_LEN + CMD_SET_PREFIX_LEN + data.length + CRC_DATA_LEN) % 2 ^ 16 =
    packLength at h
  rcases allocCMDSession_cases (p := p) mode packLength with ⟨pool, heq, hpool⟩ | ⟨i, b, hi, hb, heq⟩
  · rw [heq] at h
    cases h
    refine Or.inl ⟨rfl, pool, ?_, rfl⟩
    rcases hpool with rfl | ⟨rfl, hnone⟩
    · exact MemoryPool.Preserved.refl hp
    · exact MemoryPool.allocMemory_none hp hnone
  right
  have hself : ((p.beforePack .CMD_SESSION_0 i b packLength).cmdSessionTable i).memoryBlockPtr =
      some b := by
    rw [beforePack_self]
  have hstate : (p.setPool (p.memoryPool.allocMemory packLength).1).setCmd i
      { p.cmdSessionTable i with usageFlag := true, memoryBlockPtr := some b } =
      p.beforePack .CMD_SESSION_0 i b packLength := rfl
  rw [heq, hstate] at h
  dsimp only at h
  rw [hself] at h
  cases mode with
  | CMD_SESSION_0 =>
      obtain ⟨pool, hcases⟩ := sendOnce_cases ackTimeout retryTime now hp (hid i) hpack hb h
      exact ⟨i, b, pool, hi, hcases⟩
  | CMD_SESSION_1 =>
      obtain ⟨pool, hcases⟩ := sendKept_cases .CMD_SESSION_1 retryTime hp
        (hid i) (by decide) rfl hpack hb h
      exact ⟨i, b, pool, hi, hcases⟩
  | CMD_SESSION_AUTO =>
      obtain ⟨pool, hcases⟩ := sendKept_cases .CMD_SESSION_AUTO retryTime hp
        (hid i) (by decide) rfl hpack hb h
      exact ⟨i, b, pool, hi, hcases⟩

/-! ## `SendACK` -/

/-- The pool after `AllocACKSession` has freed the block the ack session held. -/
def freedPool (p : Protocol) (receiver j : Nat) : MemoryPool :=
  match (p.ackSessionTable receiver j).memoryBlockPtr with
  | none => p.memoryPool
  | some b => p.memoryPool.freeMemory (some b)

/-- The package `SendACK` stores in an ack session. -/
def ackPackage (p : Protocol) (sessionId : Nat) (seqNum : UInt16) (receiver : UInt8)
    (ack : List UInt8) : List UInt8 :=
  (p.packHeader (ackPackLength ack) sessionId true receiver seqNum).package ack

/-- The state after a successful `SendACK`, which has got block `b` of `pool`. -/
def afterSendACK (p : Protocol) (sessionId : Nat) (receiver : UInt8) (b : Nat) (pool : MemoryPool)
    (package : List UInt8) : Protocol :=
  { p.setAck receiver.toNat (sessionId - 1)
      { sessionId := sessionId, sessionStatus := .ACK_SESSION_USING, memoryBlockPtr := some b } with
    memoryPool := pool
    deviceOut := p.deviceOut ++ [wire package] }

theorem length_ackPackage (sessionId : Nat) (seqNum : UInt16) (receiver : UInt8)
    {ack : List UInt8} (hlen : ack.length < 4096) :
    (p.ackPackage sessionId seqNum receiver ack).length = ackPackLength ack := by
  rw [ackPackage, ackPackLength]
  by_cases hne : ack = []
  · subst hne
    rfl
  · have hpos : ack.length ≠ 0 := fun h0 => hne (List.length_eq_zero_iff.mp h0)
    rw [Header.length_package _ hne, if_neg hpos]
    simp only [HEADER_LEN, CRC_DATA_LEN]
    omega

theorem freedPool_sized (receiver j : Nat) (hp : p.memoryPool.Sized) :
    (p.freedPool receiver j).Sized := by
  rw [freedPool]
  cases (p.ackSessionTable receiver j).memoryBlockPtr with
  | none => exact hp
  | some b => exact MemoryPool.freeMemory_sized hp (some b)

/-- What `AllocACKSession` can have done. -/
theorem allocACKSession_cases (receiver : Nat) {sessionId : Nat} (size : Nat)
    (hs : 0 < sessionId ∧ sessionId < 32) :
    (p.allocACKSession receiver sessionId size =
        (p.setPool ((p.freedPool receiver (sessionId - 1)).allocMemory size).1, false) ∧
      ((p.freedPool receiver (sessionId - 1)).allocMemory size).2 = none) ∨
    ∃ b, ((p.freedPool receiver (sessionId - 1)).allocMemory size).2 = some b ∧
      p.allocACKSession receiver sessionId size =
        ((p.setPool ((p.freedPool receiver (sessionId - 1)).allocMemory size).1).setAck receiver
          (sessionId - 1)
          { p.ackSessionTable receiver (sessionId - 1) with memoryBlockPtr := some b }, true) := by
  have hfree : (if (p.ackSessionTable receiver (sessionId - 1)).memoryBlockPtr.isSome = true then
      p.freeACKSession receiver (sessionId - 1) else p) =
      p.setPool (p.freedPool receiver (sessionId - 1)) := by
    rw [freedPool, freeACKSession]
    cases (p.ackSessionTable receiver (sessionId - 1)).memoryBlockPtr <;> rfl
  rw [allocACKSession, if_pos hs]
  dsimp only
  rw [hfree]
  cases halloc : ((p.freedPool receiver (sessionId - 1)).allocMemory size).2 with
  | none =>
      refine Or.inl ⟨?_, rfl⟩
      simp only [setPool, halloc]
  | some b =>
      refine Or.inr ⟨b, rfl, ?_⟩
      simp only [setPool, halloc]

/-- Packing and sending an acknowledgement in a block that has just been allocated. -/
theorem packACK_acquired {pool : MemoryPool} {q r : Protocol} {b sessionId : Nat} {seqNum : UInt16}
    {receiver : UInt8} {ack : List UInt8} (hp : pool.Sized)
    (hb : (pool.allocMemory (ackPackLength ack)).2 = some b)
    (hq : q.memoryPool = (pool.allocMemory (ackPackLength ack)).1)
    (h : q.packACK b (ackPackLength ack) sessionId seqNum receiver ack = some r) :
    ∃ pool', MemoryPool.Acquired pool b (q.ackPackage sessionId seqNum receiver ack) pool' ∧
      r = q.setPool pool' ∧ ack.length < 4096 ∧
      r.deviceSend (r.blockPtr b) =
        { q with
          memoryPool := pool'
          deviceOut := q.deviceOut ++ [wire (q.ackPackage sessionId seqNum receiver ack)] } := by
  have hack := packACK_isSome
    (by rw [hq, MemoryPool.allocMemory_memorySize, hp.memorySize]) h
  have hpos : 1 ≤ ackPackLength ack := by
    rw [ackPackLength]
    simp only [HEADER_LEN, CRC_DATA_LEN]
    split <;> omega
  have halloc := MemoryPool.allocMemory_spec hp.valid hpos
  rw [hb, ← hq] at halloc
  have hlive : q.memoryPool.Live b := (halloc.live_iff b).mpr (Or.inr rfl)
  obtain ⟨pool', hpool, hstore⟩ :=
    packACK_spec halloc.valid hlive hack (halloc.fresh b rfl).2 sessionId seqNum receiver
  rw [hpool] at h
  cases h
  have hacq := MemoryPool.acquired_of_alloc hp halloc hstore
  refine ⟨pool', hacq, rfl, hack, ?_⟩
  rw [deviceSend_contents (p := q.setPool pool') hacq.stored
    (length_ackPackage (p := q) sessionId seqNum receiver hack).symm]
  rfl

/-- What `SendACK` can have done. -/
theorem sendACK_cases (hp : p.memoryPool.Sized)
    (hid : ∀ r j, (p.ackSessionTable r j).sessionId = j + 1) {sessionId : Nat} {seqNum : UInt16}
    {receiver : UInt8} {ack : List UInt8} {ok : Bool}
    (h : p.sendACK sessionId seqNum receiver ack = some (p', ok)) :
    (ok = false ∧ p' = p ∧ (sessionId = 0 ∨ 31 < sessionId)) ∨
    (ok = false ∧ 0 < sessionId ∧ sessionId ≤ 31 ∧ receiver.toNat < 6 ∧
      ((p.freedPool receiver.toNat (sessionId - 1)).allocMemory (ackPackLength ack)).2 = none ∧
      ∃ pool, MemoryPool.Preserved (p.freedPool receiver.toNat (sessionId - 1)) pool ∧
        p' = p.setPool pool) ∨
    (ok = true ∧ 0 < sessionId ∧ sessionId ≤ 31 ∧ receiver.toNat < 6 ∧ ack.length < 4096 ∧
      ∃ b pool, MemoryPool.Acquired (p.freedPool receiver.toNat (sessionId - 1)) b
          (p.ackPackage sessionId seqNum receiver ack) pool ∧
        p' = p.afterSendACK sessionId receiver b pool
          (p.ackPackage sessionId seqNum receiver ack)) := by
  rw [sendACK] at h
  dsimp only at h
  by_cases hs : sessionId = 0 ∨ sessionId > 31
  · rw [if_pos hs] at h
    cases h
    exact Or.inl ⟨rfl, rfl, hs⟩
  rw [if_neg hs] at h
  by_cases hr : receiver.toNat < RECEIVER_NUM
  case neg =>
    rw [if_neg hr] at h
    cases h
  rw [if_pos hr] at h
  have hfreed := freedPool_sized receiver.toNat (sessionId - 1) hp
  rcases allocACKSession_cases (p := p) receiver.toNat (ackPackLength ack)
    (show 0 < sessionId ∧ sessionId < 32 by omega) with ⟨heq, hnone⟩ | ⟨b, hb, heq⟩
  · rw [heq] at h
    cases h
    exact Or.inr (Or.inl ⟨rfl, by omega, by omega, hr, hnone, _,
      MemoryPool.allocMemory_none hfreed hnone, rfl⟩)
  right
  right
  generalize hq : (p.setPool ((p.freedPool receiver.toNat (sessionId - 1)).allocMemory
    (ackPackLength ack)).1).setAck receiver.toNat (sessionId - 1)
    { p.ackSessionTable receiver.toNat (sessionId - 1) with memoryBlockPtr := some b } = q at heq
  have hself : q.ackSessionTable receiver.toNat (sessionId - 1) =
      { p.ackSessionTable receiver.toNat (sessionId - 1) with memoryBlockPtr := some b } := by
    rw [← hq]
    simp only [setAck, setPool, Function.update_self]
  rw [heq] at h
  dsimp only at h
  rw [hself] at h
  dsimp only at h
  rw [Option.map_eq_some_iff] at h
  obtain ⟨r, hpack, hout⟩ := h
  rw [hid, Nat.sub_add_cancel (by omega)] at hpack
  obtain ⟨pool, hacq, rfl, hack, hsend⟩ :=
    packACK_acquired hfreed hb (by rw [← hq]; rfl) hpack
  rw [hsend] at hout
  obtain ⟨rfl, rfl⟩ := Prod.mk.inj hout
  have hpackage : q.ackPackage sessionId seqNum receiver ack =
      p.ackPackage sessionId seqNum receiver ack := by rw [← hq]; rfl
  rw [hpackage] at hacq ⊢
  refine ⟨rfl, by omega, by omega, hr, hack, b, pool, hacq, ?_⟩
  simp only [setAck, hself, hid, Nat.sub_add_cancel (show 1 ≤ sessionId by omega)]
  rw [← hq]
  simp only [setAck, setPool, afterSendACK, Function.update_idem, Function.update_self]

/-! ## Time-outs and retries -/

/-- What freeing a command session in use does. -/
theorem freeCMDSession_eq {i b : Nat} (hflag : (p.cmdSessionTable i).usageFlag = true)
    (hptr : (p.cmdSessionTable i).memoryBlockPtr = some b) :
    p.freeCMDSession i =
      { p with
        memoryPool := p.memoryPool.freeMemory (some b)
        cmdSessionTable := Function.update p.cmdSessionTable i
          { p.cmdSessionTable i with usageFlag := false } } := by
  rw [freeCMDSession, if_pos hflag, hptr]
  rfl

/-- The condition under which `AutoRepeatSendCheck` acts on a session. -/
def timedOut (p : Protocol) (i : Nat) (now : Int) : Bool :=
  (p.cmdSessionTable i).usageFlag &&
    decide ((now - (p.cmdSessionTable i).preTimeStamp).tdiv 1000000 >
      (p.cmdSessionTable i).ackTimeout)

/-- What `AutoRepeatSendCheck` can have done to a session: nothing, or, after a time-out, a free
or a retransmission of its block. -/
theorem autoRepeatSendCheck_cases {i : Nat} {now : Int}
    (h : p.autoRepeatSendCheck i now = some p') :
    (p.timedOut i now = false ∧ p' = p) ∨
    (p.timedOut i now = true ∧ (p.cmdSessionTable i).usageFlag = true ∧
      (p' = p.freeCMDSession i ∨
        ∃ b sent, (p.cmdSessionTable i).memoryBlockPtr = some b ∧
          p' = (p.deviceSend (p.blockPtr b)).setCmd i
            { p.cmdSessionTable i with preTimeStamp := now, sent := sent })) := by
  rw [autoRepeatSendCheck] at h
  split at h
  case isFalse hdue =>
    cases h
    exact Or.inl ⟨by simpa [timedOut] using hdue, rfl⟩
  case isTrue hdue =>
    refine Or.inr ⟨by simpa [timedOut] using hdue, hdue.1, ?_⟩
    split at h
    case isTrue =>
      split at h
      case isTrue => cases h; exact Or.inl rfl
      case isFalse =>
        rw [Option.map_eq_some_iff] at h
        obtain ⟨b, hb, hout⟩ := h
        exact Or.inr ⟨b, _, hb, hout.symm⟩
    case isFalse =>
      rw [Option.map_eq_some_iff] at h
      obtain ⟨b, hb, hout⟩ := h
      exact Or.inr ⟨b, _, hb, hout.symm⟩

/-! ## `ContainerHandler` -/

/-- Filling the container changes nothing else. -/
theorem fillCommand_eq {frame : List UInt8} {needAck : Bool}
    (h : p.fillCommand frame needAck = some p') :
    p' = { p with recvContainer := p'.recvContainer } := by
  rw [fillCommand] at h
  dsimp only at h
  split at h
  · cases h
  · cases h
    rfl

theorem fillAck_eq {frame : List UInt8} {k : Nat} (h : p.fillAck frame k = some p') :
    p' = { p with recvContainer := p'.recvContainer } := by
  rw [fillAck] at h
  dsimp only at h
  split at h
  · cases h
  · cases h
    rfl

/-- What the ACK branch of `ContainerHandler` can have done: nothing, or the container is filled
and the session of the acknowledgement is free. -/
theorem handleAck_cases {frame : List UInt8} {isFrame : Bool}
    (h : p.handleAck frame = some (p', isFrame)) :
    (isFrame = false ∧ p' = p) ∨
    (isFrame = true ∧ ∃ k b q, k = (Header.decode (ByteMemory.ofList frame) 0).sessionId ∧
      0 < k ∧ k < 32 ∧ (p.cmdSessionTable k).usageFlag = true ∧
      (p.cmdSessionTable k).memoryBlockPtr = some b ∧
      (Header.decode p.memoryPool.memory (p.blockPtr b)).sessionId = k ∧
      p.fillAck frame k = some q ∧ p' = q.freeCMDSession k) := by
  rw [handleAck, handleAckWith] at h
  dsimp only at h
  split at h
  case isFalse => cases h; exact Or.inl ⟨rfl, rfl⟩
  case isTrue hk =>
    split at h
    case isFalse => cases h; exact Or.inl ⟨rfl, rfl⟩
    case isTrue hflag =>
      split at h
      · cases h
      · rename_i b hb
        split at h
        case isFalse => cases h; exact Or.inl ⟨rfl, rfl⟩
        case isTrue hsession =>
          rw [Option.map_eq_some_iff] at h
          obtain ⟨q, hq, hout⟩ := h
          cases hout
          exact Or.inr ⟨rfl, _, b, q, rfl, hk.1, hk.2, hflag, hb, hsession, hq, rfl⟩

/-- The state in which a command that needs an acknowledgement is put into the container. -/
def processing (p : Protocol) (receiver k : Nat) : Protocol :=
  p.setAck receiver (k - 1)
    { p.ackSessionTable receiver (k - 1) with sessionStatus := .ACK_SESSION_PROCESS }

/-- What the command branch of `ContainerHandler` can have done: a command without
acknowledgement is delivered; nothing, while the application is still busy with the session; a
command is delivered; or the stored acknowledgement is sent again. -/
theorem handleCommand_cases {frame : List UInt8} {isFrame : Bool}
    (h : p.handleCommand frame = some (p', isFrame)) :
    ((Header.decode (ByteMemory.ofList frame) 0).sessionId = 0 ∧ isFrame = true ∧
      p.fillCommand frame false = some p') ∨
    ∃ k r, k = (Header.decode (ByteMemory.ofList frame) 0).sessionId ∧ 0 < k ∧ k ≤ 31 ∧
      r = (Header.decode (ByteMemory.ofList frame) 0).receiver.toNat ∧ r < 6 ∧
      (((p.ackSessionTable r (k - 1)).sessionStatus = .ACK_SESSION_PROCESS ∧ isFrame = false ∧
          p' = p) ∨
        ((p.ackSessionTable r (k - 1)).sessionStatus = .ACK_SESSION_IDLE ∧ isFrame = true ∧
          (if k > 1 then p.processing r k else p).fillCommand frame true = some p') ∨
        ∃ b, (p.ackSessionTable r (k - 1)).sessionStatus = .ACK_SESSION_USING ∧
          (p.ackSessionTable r (k - 1)).memoryBlockPtr = some b ∧
          (((Header.decode p.memoryPool.memory (p.blockPtr b)).seqNum =
              (Header.decode (ByteMemory.ofList frame) 0).seqNum ∧ isFrame = false ∧
              p' = p.deviceSend (p.blockPtr b)) ∨
            ((Header.decode p.memoryPool.memory (p.blockPtr b)).seqNum ≠
              (Header.decode (ByteMemory.ofList frame) 0).seqNum ∧ isFrame = true ∧
              (p.processing r k).fillCommand frame true = some p'))) := by
  rw [handleCommand, handleCommandWith] at h
  dsimp only at h
  split at h
  case isTrue hk =>
    rw [Option.map_eq_some_iff] at h
    obtain ⟨q, hq, hout⟩ := h
    cases hout
    exact Or.inl ⟨hk, rfl, hq⟩
  case isFalse hk =>
    split at h
    case isTrue hlarge =>
      have := Header.sessionId_decode_lt (ByteMemory.ofList frame) 0
      omega
    case isFalse hsmall =>
      split at h
      case isFalse => cases h
      case isTrue hr =>
        right
        refine ⟨_, _, rfl, by omega, by omega, rfl, hr, ?_⟩
        split at h
        case h_1 hidle =>
          rw [Option.map_eq_some_iff] at h
          obtain ⟨q, hq, hout⟩ := h
          cases hout
          exact Or.inr (Or.inl ⟨hidle, rfl, hq⟩)
        case h_2 hprocess =>
          cases h
          exact Or.inl ⟨hprocess, rfl, rfl⟩
        case h_3 husing =>
          split at h
          · cases h
          · rename_i b hb
            refine Or.inr (Or.inr ⟨b, husing, hb, ?_⟩)
            split at h
            case isTrue hseq =>
              cases h
              exact Or.inl ⟨hseq, rfl, rfl⟩
            case isFalse hseq =>
              rw [Option.map_eq_some_iff] at h
              obtain ⟨q, hq, hout⟩ := h
              cases hout
              exact Or.inr ⟨hseq, rfl, hq⟩

/-- `ContainerHandler` takes one of its two branches. -/
theorem containerHandler_eq (frame : List UInt8) :
    p.containerHandler frame =
      if (Header.decode (ByteMemory.ofList frame) 0).isAck then p.handleAck frame
      else p.handleCommand frame := rfl

end

end Protocol

end RoboRTS.Sdk
