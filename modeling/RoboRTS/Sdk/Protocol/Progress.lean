import RoboRTS.Sdk.Protocol.Ownership

/-!
# When the send functions succeed

`SendCMD` succeeds where a session is free and the allocation succeeds (`sendCMD_of_alloc`), and
`SendACK` where the allocation does, after the old block has been freed (`sendACK_of_alloc`).
-/

namespace RoboRTS.Sdk

namespace Protocol

variable {p : Protocol}

theorem bumpSeqNum_memoryPool (i : Nat) : (p.bumpSeqNum i).memoryPool = p.memoryPool := by
  rw [bumpSeqNum]
  split <;> rfl

/-- `pack_length` of `SendCMD`, a 16-bit value. -/
def cmdPackLength (data : List UInt8) : Nat :=
  (HEADER_LEN + CMD_SET_PREFIX_LEN + data.length + CRC_DATA_LEN) % 2 ^ 16

theorem cmdPackLength_eq {data : List UInt8} (hlen : data.length ≤ 4078) :
    cmdPackLength data = 18 + data.length := by
  simp only [cmdPackLength, HEADER_LEN, CMD_SET_PREFIX_LEN, CRC_DATA_LEN]
  omega

/-- `SendCMD` answers false only without data, without a free session, or without a block. -/
theorem sendCMD_refused {p' : Protocol} {cmdSet cmdId receiver : UInt8} {data : List UInt8}
    {mode : CMDSessionMode} {ackTimeout retryTime now : Int}
    (h : p.sendCMD cmdSet cmdId receiver data mode ackTimeout retryTime now = some (p', none)) :
    data.length = 0 ∨ p.freeSession mode = none ∨
      (p.memoryPool.allocMemory (cmdPackLength data)).2 = none := by
  by_cases hdata : data.length = 0
  · exact Or.inl hdata
  right
  cases hi : p.freeSession mode with
  | none => exact Or.inl rfl
  | some i =>
      right
      cases hb : (p.memoryPool.allocMemory (cmdPackLength data)).2 with
      | none => rfl
      | some b =>
          -- a session that has got a block sends
          have heq : p.allocCMDSession mode (cmdPackLength data) =
              ((p.setPool (p.memoryPool.allocMemory (cmdPackLength data)).1).setCmd i
                { p.cmdSessionTable i with usageFlag := true, memoryBlockPtr := some b },
                some i) := by
            rw [allocCMDSession, hi]
            dsimp only
            rw [hb]
          unfold cmdPackLength at heq
          rw [sendCMD, if_neg hdata] at h
          dsimp only at h
          rw [heq] at h
          simp only [setCmd, Function.update_self] at h
          cases mode <;> simp [sendOnce, sendKept] at h

/-- `SendCMD` succeeds where the session and the allocation do. -/
theorem sendCMD_of_alloc (hp : p.WellFormed) {mode : CMDSessionMode} {i : Nat}
    (hi : p.freeSession mode = some i) (cmdSet cmdId receiver : UInt8) {data : List UInt8}
    (hpos : 1 ≤ data.length) (hlen : data.length ≤ 4078)
    (halloc : (p.memoryPool.allocMemory (18 + data.length)).2.isSome = true)
    (ackTimeout retryTime now : Int) :
    ∃ b pool, MemoryPool.Acquired p.memoryPool b
        (p.cmdPackage i (p.cmdSeqNum mode i) cmdSet cmdId receiver data) pool ∧
      p.sendCMD cmdSet cmdId receiver data mode ackTimeout retryTime now =
        some (p.afterSendCMD mode i b pool
            (p.cmdPackage i (p.cmdSeqNum mode i) cmdSet cmdId receiver data)
            cmdSet cmdId ackTimeout retryTime now,
          some { seqNum := p.cmdSeqNum mode i, sessionId := i, isAck := false }) := by
  obtain ⟨b, hb⟩ := Option.isSome_iff_exists.mp halloc
  have hspec := MemoryPool.allocMemory_spec hp.sized.valid (show 1 ≤ 18 + data.length by omega)
  rw [hb] at hspec
  have hfits : ∃ p' mh, p.sendCMD cmdSet cmdId receiver data mode ackTimeout retryTime now =
      some (p', some mh) := by
    rw [sendCMD, if_neg (by omega)]
    dsimp only
    rw [show (HEADER_LEN + CMD_SET_PREFIX_LEN + data.length + CRC_DATA_LEN) % 2 ^ 16 =
      18 + data.length from cmdPackLength_eq hlen, allocCMDSession, hi]
    dsimp only
    rw [hb]
    dsimp only
    generalize hq : (p.setPool (p.memoryPool.allocMemory (18 + data.length)).1).setCmd i
      { p.cmdSessionTable i with usageFlag := true, memoryBlockPtr := some b } = q
    have hself : (q.cmdSessionTable i).memoryBlockPtr = some b := by
      rw [← hq]
      simp only [setCmd, Function.update_self]
    -- packing looks at the pool only
    have hpack : ∀ r : Protocol, r.memoryPool = q.memoryPool → ∃ r',
        r.packCMD i b (18 + data.length) cmdSet cmdId receiver data = some r' := by
      intro r hr
      have hpool : r.memoryPool = (p.memoryPool.allocMemory (18 + data.length)).1 := by
        rw [hr, ← hq]
        rfl
      obtain ⟨pool, hpackCMD, -⟩ := packCMD_spec (p := r) (b := b) (by rw [hpool]; exact hspec.valid)
        (by rw [hpool]; exact (hspec.live_iff b).mpr (Or.inr rfl))
        (show _ = 18 + data.length by rw [hpool]; exact (hspec.fresh b rfl).2) i cmdSet cmdId
        receiver
      exact ⟨_, hpackCMD⟩
    rw [hself]
    dsimp only
    have hkept : ∀ retry, ∃ p' mh, q.sendKept i b (18 + data.length) cmdSet cmdId receiver data
        ackTimeout retry now = some (p', some mh) := by
      intro retry
      obtain ⟨r, hr⟩ := hpack (q.bumpSeqNum i) (bumpSeqNum_memoryPool i)
      rw [sendKept]
      dsimp only
      rw [hr]
      exact ⟨_, _, rfl⟩
    cases mode with
    | CMD_SESSION_0 =>
        obtain ⟨r, hr⟩ := hpack q rfl
        dsimp only
        rw [sendOnce, hr]
        exact ⟨_, _, rfl⟩
    | CMD_SESSION_1 => exact hkept 1
    | CMD_SESSION_AUTO => exact hkept (UInt16.ofInt retryTime)
  obtain ⟨p', mh, hsend⟩ := hfits
  rcases sendCMD_cases hp.sized hp.cmd_id hsend with
    ⟨hnone, -⟩ | ⟨i', b', pool, hi', hacq, hmh, rfl⟩
  · cases hnone
  · obtain rfl : i = i' := Option.some.inj (hi.symm.trans hi')
    exact ⟨b', pool, hacq, by rw [hsend, hmh]⟩

/-- `SendACK` succeeds where the allocation does, after the old block has been freed. -/
theorem sendACK_of_alloc (hp : p.WellFormed) {sessionId : Nat} (hid : 0 < sessionId)
    (hid31 : sessionId ≤ 31) {receiver : UInt8} (hr : receiver.toNat < 6) (seqNum : UInt16)
    {ack : List UInt8} (hlen : ack.length < 4096)
    (halloc : ((p.freedPool receiver.toNat (sessionId - 1)).allocMemory
      (ackPackLength ack)).2.isSome = true) :
    ∃ b pool, MemoryPool.Acquired (p.freedPool receiver.toNat (sessionId - 1)) b
        (p.ackPackage sessionId seqNum receiver ack) pool ∧
      p.sendACK sessionId seqNum receiver ack =
        some (p.afterSendACK sessionId receiver b pool
          (p.ackPackage sessionId seqNum receiver ack), true) := by
  have hpos : 1 ≤ ackPackLength ack := by
    rw [ackPackLength]
    simp only [HEADER_LEN, CRC_DATA_LEN]
    split <;> omega
  have hsized := freedPool_sized receiver.toNat (sessionId - 1) hp.sized
  obtain ⟨b, hb⟩ := Option.isSome_iff_exists.mp halloc
  have hfits : ∃ p', p.sendACK sessionId seqNum receiver ack = some (p', true) := by
    have halloc := MemoryPool.allocMemory_spec hsized.valid hpos
    rw [hb] at halloc
    rcases allocACKSession_cases (p := p) receiver.toNat (ackPackLength ack)
      (show 0 < sessionId ∧ sessionId < 32 by omega) with ⟨-, hnone⟩ | ⟨b', hb', heq⟩
    · rw [hb] at hnone
      cases hnone
    obtain rfl : b = b' := Option.some.inj (hb.symm.trans hb')
    rw [sendACK]
    dsimp only
    rw [if_neg (by omega), if_pos (show receiver.toNat < RECEIVER_NUM from hr), heq]
    dsimp only
    generalize hq : (p.setPool ((p.freedPool receiver.toNat (sessionId - 1)).allocMemory
      (ackPackLength ack)).1).setAck receiver.toNat (sessionId - 1)
      { p.ackSessionTable receiver.toNat (sessionId - 1) with memoryBlockPtr := some b } = q
    have hself : (q.ackSessionTable receiver.toNat (sessionId - 1)).memoryBlockPtr = some b := by
      rw [← hq]
      simp only [setAck, Function.update_self]
    have hpool : q.memoryPool = ((p.freedPool receiver.toNat (sessionId - 1)).allocMemory
        (ackPackLength ack)).1 := by
      rw [← hq]
      rfl
    obtain ⟨pool, hpackACK, -⟩ := packACK_spec (p := q) (b := b)
      (by rw [hpool]; exact halloc.valid)
      (by rw [hpool]; exact (halloc.live_iff b).mpr (Or.inr rfl)) hlen
      (by rw [hpool]; exact (halloc.fresh b rfl).2)
      (q.ackSessionTable receiver.toNat (sessionId - 1)).sessionId seqNum receiver
    rw [hself]
    dsimp only
    rw [hpackACK]
    exact ⟨_, rfl⟩
  obtain ⟨p', hsend⟩ := hfits
  rcases sendACK_cases hp.sized hp.ack_id hsend with
    ⟨hfalse, -⟩ | ⟨hfalse, -⟩ | ⟨-, -, -, -, -, b', pool, hacq, rfl⟩
  · cases hfalse
  · cases hfalse
  · exact ⟨b', pool, hacq, hsend⟩

end Protocol

end RoboRTS.Sdk
