import RoboRTS.Sdk.Protocol.Progress
import RoboRTS.Sdk.Protocol.RoundTrip

/-!
# Lengths of sent packages

The length of a package goes through a 16-bit sum, the size of an allocation and the 10-bit length
field of the header. `cmdWrites` and `ackWrites` are the byte ranges that packing writes. A send
function that gets a block emits the whole package, from inside that block, exactly up to the
payload whose package has 1023 bytes (`send_whole_iff`).
-/

namespace RoboRTS.Sdk

namespace Protocol

variable {p p' : Protocol}

/-! ## The bytes that packing writes -/

/-- The ranges that `SendCMD` writes, as start and length: header, prefix, data and checksum. -/
def cmdWrites (packLength dataLength ptr : Nat) : List (Nat × Nat) :=
  [(ptr, HEADER_LEN), (ptr + HEADER_LEN, CMD_SET_PREFIX_LEN),
    (ptr + HEADER_LEN + CMD_SET_PREFIX_LEN, dataLength),
    (ptr + packLength - CRC_DATA_LEN, CRC_DATA_LEN)]

/-- The ranges that `SendACK` writes. -/
def ackWrites (packLength ackLength ptr : Nat) : List (Nat × Nat) :=
  (ptr, HEADER_LEN) ::
    if ackLength ≠ 0 then
      [(ptr + HEADER_LEN, ackLength), (ptr + packLength - CRC_DATA_LEN, CRC_DATA_LEN)]
    else []

/-! ## Whole packages -/

/-- The ranges lie inside the block that `pool` gives for `size` bytes. -/
def WritesInside (pool : MemoryPool) (size : Nat) (writes : Nat → List (Nat × Nat)) : Prop :=
  ∃ b, (pool.allocMemory size).2 = some b ∧
    ∀ w ∈ writes ((pool.allocMemory size).1.memoryTable b).memoryPtr,
      ((pool.allocMemory size).1.memoryTable b).memoryPtr ≤ w.1 ∧
        w.1 + w.2 ≤ (pool.allocMemory size).1.blockEnd b

/-- The package has `size` bytes, its header says so, and it is what the device gets. -/
structure EmitsWhole (p p' : Protocol) (package : List UInt8) (size : Nat) : Prop where
  length : package.length = size
  header : (Header.decode (ByteMemory.ofList package) 0).length = size
  emitted : p'.deviceOut = p.deviceOut ++ [package]

/-- `SendCMD` answers false and sends nothing, or sends the whole package of the command from the
bytes of its block. -/
def SendsCmdWhole (p : Protocol) (cmdSet cmdId receiver : UInt8) (data : List UInt8)
    (mode : CMDSessionMode) (ackTimeout retryTime now : Int) : Prop :=
  ∃ p' out, p.sendCMD cmdSet cmdId receiver data mode ackTimeout retryTime now = some (p', out) ∧
    match out with
    | none => p'.deviceOut = p.deviceOut
    | some mh =>
        EmitsWhole p p' (p.cmdPackage mh.sessionId mh.seqNum cmdSet cmdId receiver data)
          (HEADER_LEN + CMD_SET_PREFIX_LEN + data.length + CRC_DATA_LEN) ∧
        WritesInside p.memoryPool (cmdPackLength data) (cmdWrites (cmdPackLength data) data.length)

/-- The size of the package of an acknowledgement. -/
def ackSize (ack : List UInt8) : Nat :=
  if ack.length = 0 then HEADER_LEN else HEADER_LEN + ack.length + CRC_DATA_LEN

/-- The same for `SendACK`, whose session has freed its old block when it allocates. -/
def SendsAckWhole (p : Protocol) (sessionId : Nat) (seqNum : UInt16) (receiver : UInt8)
    (ack : List UInt8) : Prop :=
  ∃ p' ok, p.sendACK sessionId seqNum receiver ack = some (p', ok) ∧
    if ok then
      EmitsWhole p p' (p.ackPackage sessionId seqNum receiver ack) (ackSize ack) ∧
      WritesInside (p.freedPool receiver.toNat (sessionId - 1)) (ackPackLength ack)
        (ackWrites (ackPackLength ack) ack.length)
    else p'.deviceOut = p.deviceOut

/-- A header says at most 1023 bytes. -/
theorem EmitsWhole.size_lt {package : List UInt8} {size : Nat} (h : EmitsWhole p p' package size) :
    size < 1024 := by
  rw [← h.header]
  exact Header.length_decode_lt _ 0

/-- The device gets a whole package if its header can say its length. -/
theorem emitsWhole_of_wire {h : Header} {body : List UInt8} (hlen : h.length = (h.package body).length)
    (hlt : h.length < 1024) (hout : p'.deviceOut = p.deviceOut ++ [wire (h.package body)]) :
    EmitsWhole p p' (h.package body) h.length := by
  have hheader : (Header.decode (ByteMemory.ofList (h.package body)) 0).length = h.length := by
    rw [Header.decode_package]
    exact Nat.mod_eq_of_lt hlt
  refine ⟨hlen.symm, hheader, ?_⟩
  rw [hout, wire, hheader, hlen, List.take_length]

/-- A block of a valid pool that has just been allocated. -/
theorem writesInside_of_alloc {pool : MemoryPool} (hp : pool.Valid) {size : Nat} (hpos : 1 ≤ size)
    (halloc : (pool.allocMemory size).2.isSome = true) {writes : Nat → List (Nat × Nat)}
    (hwrites : ∀ ptr, ∀ w ∈ writes ptr, ptr ≤ w.1 ∧ w.1 + w.2 ≤ ptr + size) :
    WritesInside pool size writes := by
  obtain ⟨b, hb⟩ := Option.isSome_iff_exists.mp halloc
  have hspec := MemoryPool.allocMemory_spec hp hpos
  refine ⟨b, hb, fun w hw => ?_⟩
  rw [MemoryPool.blockEnd, (hspec.fresh b hb).2]
  exact hwrites _ w hw

/-! ## When packages are whole -/

/-- `SendCMD` sends whole packages exactly up to 1005 bytes of data. -/
theorem sendsCmdWhole_iff (hp : p.WellFormed) (cmdSet cmdId receiver : UInt8) (data : List UInt8)
    (mode : CMDSessionMode) (ackTimeout retryTime now : Int) :
    p.SendsCmdWhole cmdSet cmdId receiver data mode ackTimeout retryTime now ↔
      data.length = 0 ∨ p.freeSession mode = none ∨
        ¬ p.memoryPool.Serves (cmdPackLength data) ∨ data.length ≤ 1005 := by
  have hserves := MemoryPool.allocMemory_isSome_iff_serves hp.sized.valid (cmdPackLength data)
  constructor
  · rintro ⟨p', out, hsend, hout⟩
    cases out with
    | none =>
        rcases sendCMD_refused hsend with hdata | hfree | hnone
        · exact Or.inl hdata
        · exact Or.inr (Or.inl hfree)
        · refine Or.inr (Or.inr (Or.inl ?_))
          rw [← hserves, hnone]
          exact Bool.false_ne_true
    | some mh =>
        have hlt := hout.1.size_lt
        simp only [HEADER_LEN, CMD_SET_PREFIX_LEN, CRC_DATA_LEN] at hlt
        omega
  · intro hcond
    by_cases hdata : data.length = 0
    · exact ⟨p, none, by rw [sendCMD, if_pos hdata], rfl⟩
    rcases allocCMDSession_cases (p := p) mode (cmdPackLength data) with
      ⟨pool, heq, -⟩ | ⟨i, b, hi, hb, -⟩
    · refine ⟨p.setPool pool, none, ?_, rfl⟩
      unfold cmdPackLength at heq
      rw [sendCMD, if_neg hdata]
      dsimp only
      rw [heq]
    · have hsome : (p.memoryPool.allocMemory (cmdPackLength data)).2.isSome = true := by
        rw [hb]
        rfl
      have hle : data.length ≤ 1005 := by
        rcases hcond with h0 | hfree | hroom | hle
        · exact absurd h0 hdata
        · rw [hi] at hfree
          cases hfree
        · exact absurd (hserves.mp hsome) hroom
        · exact hle
      have hpack := cmdPackLength_eq (show data.length ≤ 4078 by omega)
      rw [hpack] at hsome
      obtain ⟨b', pool, -, hsend⟩ := sendCMD_of_alloc hp hi cmdSet cmdId receiver
        (show 1 ≤ data.length by omega) (by omega) hsome ackTimeout retryTime now
      refine ⟨_, _, hsend, ?_, ?_⟩
      · have hsize : HEADER_LEN + CMD_SET_PREFIX_LEN + data.length + CRC_DATA_LEN =
            18 + data.length := by
          simp only [HEADER_LEN, CMD_SET_PREFIX_LEN, CRC_DATA_LEN]
          omega
        rw [hsize]
        exact emitsWhole_of_wire (length_cmdPackage (p := p) _ _ cmdSet cmdId receiver data).symm
          (show 18 + data.length < 1024 by omega) rfl
      · rw [hpack]
        refine writesInside_of_alloc hp.sized.valid (by omega) hsome ?_
        intro ptr w hw
        simp only [cmdWrites, HEADER_LEN, CMD_SET_PREFIX_LEN, CRC_DATA_LEN, List.mem_cons,
          List.not_mem_nil, or_false] at hw
        rcases hw with rfl | rfl | rfl | rfl <;> constructor <;> dsimp only <;> omega

/-- `SendACK` sends whole packages exactly up to 1007 bytes of data, to the receivers of its
table. -/
theorem sendsAckWhole_iff (hp : p.WellFormed) (sessionId : Nat) (seqNum : UInt16)
    (receiver : UInt8) (ack : List UInt8) :
    p.SendsAckWhole sessionId seqNum receiver ack ↔
      sessionId = 0 ∨ 31 < sessionId ∨ receiver.toNat < RECEIVER_NUM ∧
        (¬ (p.freedPool receiver.toNat (sessionId - 1)).Serves (ackPackLength ack) ∨
          ack.length ≤ 1007) := by
  have hsized := freedPool_sized receiver.toNat (sessionId - 1) hp.sized
  have hserves := MemoryPool.allocMemory_isSome_iff_serves hsized.valid (ackPackLength ack)
  constructor
  · rintro ⟨p', ok, hsend, hout⟩
    rcases sendACK_cases hp.sized hp.ack_id hsend with
      ⟨-, -, hid⟩ | ⟨-, -, -, hr, hnone, -⟩ | ⟨rfl, -, -, hr, -⟩
    · omega
    · refine Or.inr (Or.inr ⟨hr, Or.inl ?_⟩)
      rw [← hserves, hnone]
      exact Bool.false_ne_true
    · refine Or.inr (Or.inr ⟨hr, Or.inr ?_⟩)
      rw [if_pos rfl] at hout
      have hlt := hout.1.size_lt
      unfold ackSize at hlt
      simp only [HEADER_LEN, CRC_DATA_LEN] at hlt
      split at hlt <;> omega
  · intro hcond
    by_cases hid : sessionId = 0 ∨ sessionId > 31
    · refine ⟨p, false, ?_, rfl⟩
      rw [sendACK]
      dsimp only
      rw [if_pos hid]
    have hr : receiver.toNat < RECEIVER_NUM := by omega
    rcases allocACKSession_cases (p := p) receiver.toNat (ackPackLength ack)
      (show 0 < sessionId ∧ sessionId < 32 by omega) with ⟨heq, -⟩ | ⟨b, hb, -⟩
    · have hsend : p.sendACK sessionId seqNum receiver ack = some (p.setPool
          ((p.freedPool receiver.toNat (sessionId - 1)).allocMemory (ackPackLength ack)).1,
          false) := by
        rw [sendACK]
        dsimp only
        rw [if_neg hid, if_pos hr, heq]
      exact ⟨_, false, hsend, rfl⟩
    · have hsome : ((p.freedPool receiver.toNat (sessionId - 1)).allocMemory
          (ackPackLength ack)).2.isSome = true := by
        rw [hb]
        rfl
      have hle : ack.length ≤ 1007 := by
        rcases hcond with h0 | h31 | ⟨-, hroom | hle⟩
        · omega
        · omega
        · exact absurd (hserves.mp hsome) hroom
        · exact hle
      have hsize : ackSize ack = ackPackLength ack := by
        unfold ackSize ackPackLength
        simp only [HEADER_LEN, CRC_DATA_LEN]
        split <;> omega
      have hbound : 12 ≤ ackPackLength ack ∧ ackPackLength ack < 1024 := by
        unfold ackPackLength
        simp only [HEADER_LEN, CRC_DATA_LEN]
        split <;> omega
      obtain ⟨b', pool, -, hsend⟩ := sendACK_of_alloc hp (show 0 < sessionId by omega)
        (by omega) hr seqNum (show ack.length < 4096 by omega) hsome
      refine ⟨_, _, hsend, ?_⟩
      rw [if_pos rfl, hsize]
      refine ⟨emitsWhole_of_wire
        (length_ackPackage (p := p) sessionId seqNum receiver (by omega)).symm hbound.2 rfl, ?_⟩
      refine writesInside_of_alloc hsized.valid (by omega) hsome ?_
      intro ptr w hw
      simp only [ackWrites, HEADER_LEN, CRC_DATA_LEN, List.mem_cons] at hw
      rcases hw with rfl | hw
      · dsimp only
        omega
      · split at hw
        case isFalse => cases hw
        case isTrue hne =>
          have hpack : ackPackLength ack = 12 + ack.length + 4 := by
            unfold ackPackLength
            simp only [if_neg hne, HEADER_LEN, CRC_DATA_LEN]
            omega
          rw [hpack] at hw ⊢
          simp only [List.mem_cons, List.not_mem_nil, or_false] at hw
          rcases hw with rfl | rfl <;> constructor <;> dsimp only <;> omega

/-- In every reachable state: `SendCMD`, in every session mode, and `SendACK` answer false and send
nothing, or send a whole package from inside its block, exactly when the session or the pool refuses
or the package has at most 1023 bytes. -/
theorem send_whole_iff (hp : p.Reachable) :
    (∀ cmdSet cmdId receiver data mode ackTimeout retryTime now,
      p.SendsCmdWhole cmdSet cmdId receiver data mode ackTimeout retryTime now ↔
        data.length = 0 ∨ p.freeSession mode = none ∨
          ¬ p.memoryPool.Serves (cmdPackLength data) ∨ data.length ≤ 1005) ∧
    ∀ sessionId seqNum receiver ack,
      p.SendsAckWhole sessionId seqNum receiver ack ↔
        sessionId = 0 ∨ 31 < sessionId ∨ receiver.toNat < RECEIVER_NUM ∧
          (¬ (p.freedPool receiver.toNat (sessionId - 1)).Serves (ackPackLength ack) ∨
            ack.length ≤ 1007) :=
  ⟨sendsCmdWhole_iff hp.wellFormed, sendsAckWhole_iff hp.wellFormed⟩

/-- The state after `Init`. -/
theorem init_reachable : ((default : Protocol).init default default).Reachable :=
  ⟨default, default, default, default, [], default, rfl⟩

/-- After `Init`, a command with 1005 bytes is sent whole, and one with 1006 bytes is not. -/
theorem send_whole_init :
    ((default : Protocol).init default default).SendsCmdWhole 1 2 0 (List.replicate 1005 0)
      .CMD_SESSION_0 50 5 0 ∧
    ¬ ((default : Protocol).init default default).SendsCmdWhole 1 2 0 (List.replicate 1006 0)
      .CMD_SESSION_0 50 5 0 := by
  have hiff := (send_whole_iff init_reachable).1
  rw [hiff, hiff]
  simp only [List.length_replicate, cmdPackLength]
  decide

/-- A command with 1006 bytes of data after `Init`: the header says 0 bytes. -/
theorem sendCMD_truncates :
    ¬ ∀ (p : Protocol), p.Reachable → ∀ cmdSet cmdId receiver (data : List UInt8) mode ackTimeout
      retryTime now, data.length < 2 ^ 16 →
        p.SendsCmdWhole cmdSet cmdId receiver data mode ackTimeout retryTime now := by
  intro hall
  have hwhole := hall _ init_reachable 1 2 0 (List.replicate 1006 0) .CMD_SESSION_0 50 5 0
    (by rw [List.length_replicate]; decide)
  rw [sendsCmdWhole_iff init_reachable.wellFormed] at hwhole
  simp only [List.length_replicate, cmdPackLength] at hwhole
  revert hwhole
  decide

end Protocol

end RoboRTS.Sdk
