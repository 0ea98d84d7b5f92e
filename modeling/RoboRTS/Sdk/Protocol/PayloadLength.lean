import RoboRTS.Sdk.Protocol.Calls

/-!
# Payload lengths

`ContainerHandler` copies `length - HEADER_LEN - CRC_DATA_LEN` bytes of an acknowledgement and
`CMD_SET_PREFIX_LEN` less of a command, and nothing before it asks for a frame that long.
`takesPayload` says whether one of the four copies is made, `payloadCopy` is the copy with the
length as it is computed. The copy is safe exactly for frames that are as long as what is subtracted
(`run_copies_payload`); `SendACK` itself sends shorter ones.
-/

namespace RoboRTS.Sdk

/-- A copy into `raw_data`: where the payload starts in the frame, and `header_ptr->length`. -/
structure PayloadCopy where
  offset : Nat
  headerLength : Nat
  deriving Repr, DecidableEq

namespace PayloadCopy

/-- What is subtracted from the length in the header. -/
def overhead (c : PayloadCopy) : Nat :=
  c.offset + CRC_DATA_LEN

/-- The number of bytes `memcpy` is called with, a difference of type `size_t`. -/
def length (c : PayloadCopy) : Nat :=
  (c.headerLength + 2 ^ 64 - c.overhead) % 2 ^ 64

/-- The difference does not wrap, and the copy stays inside `raw_data` and the payload of the
frame. -/
def Safe (c : PayloadCopy) (frame : List UInt8) : Prop :=
  c.overhead ≤ c.headerLength ∧ c.length ≤ 1024 ∧ c.length ≤ frame.length - c.overhead

instance (c : PayloadCopy) (frame : List UInt8) : Decidable (c.Safe frame) :=
  inferInstanceAs (Decidable (_ ∧ _ ∧ _))

theorem length_of_le {c : PayloadCopy} (h : c.overhead ≤ c.headerLength)
    (hlt : c.headerLength < 1024) : c.length = c.headerLength - c.overhead := by
  unfold length
  omega

end PayloadCopy

namespace Protocol

variable {p p' : Protocol} {frame : List UInt8}

/-- `ContainerHandler` gets to a copy of the payload: with copies that do nothing it answers true. -/
def takesPayload (p : Protocol) (frame : List UInt8) : Bool :=
  let answer :=
    if (Header.decode (ByteMemory.ofList frame) 0).isAck then
      p.handleAckWith (fun p _ => some p) frame
    else p.handleCommandWith (fun p _ => some p) frame
  (answer.map Prod.snd).getD false

/-- The shortest frame whose payload length does not wrap. -/
def shortestPackage (frame : List UInt8) : Nat :=
  if (Header.decode (ByteMemory.ofList frame) 0).isAck then HEADER_LEN + CRC_DATA_LEN
  else HEADER_LEN + CMD_SET_PREFIX_LEN + CRC_DATA_LEN

/-- The copy that `ContainerHandler` makes. -/
def payloadCopy (p : Protocol) (frame : List UInt8) : Option PayloadCopy :=
  let header := Header.decode (ByteMemory.ofList frame) 0
  if p.takesPayload frame then
    some
      { offset := if header.isAck then HEADER_LEN else HEADER_LEN + CMD_SET_PREFIX_LEN
        headerLength := header.length }
  else none

theorem overhead_payloadCopy {c : PayloadCopy} (hc : p.payloadCopy frame = some c) :
    p.takesPayload frame = true ∧ c.overhead = shortestPackage frame ∧
      c.headerLength = (Header.decode (ByteMemory.ofList frame) 0).length := by
  unfold payloadCopy at hc
  by_cases htakes : p.takesPayload frame = true
  case neg =>
    rw [if_neg htakes] at hc
    cases hc
  rw [if_pos htakes] at hc
  cases hc
  refine ⟨htakes, ?_, rfl⟩
  simp only [PayloadCopy.overhead, shortestPackage]
  split <;> rfl

/-- On a valid frame the copy is safe exactly if the frame is long enough. -/
theorem payloadCopy_safe_iff {device : UInt8} (hframe : ValidFrame device frame) :
    (∀ c ∈ p.payloadCopy frame, c.Safe frame) ↔
      (p.takesPayload frame = true → shortestPackage frame ≤ frame.length) := by
  have hlt := Header.length_decode_lt (ByteMemory.ofList frame) 0
  constructor
  · intro hsafe htakes
    have hsome : ∃ c, p.payloadCopy frame = some c := ⟨_, if_pos htakes⟩
    obtain ⟨c, hc⟩ := hsome
    obtain ⟨-, hover, hheader⟩ := overhead_payloadCopy hc
    have hle := (hsafe c hc).1
    rwa [hover, hheader, hframe.length] at hle
  · intro hlong c hc
    obtain ⟨htakes, hover, hheader⟩ := overhead_payloadCopy hc
    have hle := hlong htakes
    rw [← hover, ← hframe.length, ← hheader] at hle
    have hlength := PayloadCopy.length_of_le hle (by omega)
    rw [← hheader] at hlt
    refine ⟨hle, by omega, ?_⟩
    rw [hlength, ← hframe.length, ← hheader]

/-! ## The copy and the container -/

/-- A filled container holds the payload that was copied, whose length has not wrapped. -/
def CopiesInto (frame : List UInt8) (c : PayloadCopy) (p p' : Protocol) : Prop :=
  c.overhead ≤ c.headerLength ∧ p'.recvContainer.messageData =
    p.recvContainer.messageData.write 0 ((frame.drop c.offset).take c.length)

theorem fillCommand_copies {needAck : Bool} (h : p.fillCommand frame needAck = some p') :
    CopiesInto frame ⟨HEADER_LEN + CMD_SET_PREFIX_LEN,
      (Header.decode (ByteMemory.ofList frame) 0).length⟩ p p' := by
  have hlt := Header.length_decode_lt (ByteMemory.ofList frame) 0
  rw [fillCommand] at h
  dsimp only at h
  by_cases hshort : (Header.decode (ByteMemory.ofList frame) 0).length <
      HEADER_LEN + CMD_SET_PREFIX_LEN + CRC_DATA_LEN
  case pos =>
    rw [if_pos hshort] at h
    cases h
  rw [if_neg hshort] at h
  cases h
  have hle := Nat.le_of_not_lt hshort
  have hlength := PayloadCopy.length_of_le (c := ⟨HEADER_LEN + CMD_SET_PREFIX_LEN, _⟩) hle hlt
  exact ⟨hle, by rw [hlength]; rfl⟩

theorem fillAck_copies {k : Nat} (h : p.fillAck frame k = some p') :
    CopiesInto frame ⟨HEADER_LEN, (Header.decode (ByteMemory.ofList frame) 0).length⟩ p p' := by
  have hlt := Header.length_decode_lt (ByteMemory.ofList frame) 0
  rw [fillAck] at h
  dsimp only at h
  by_cases hshort : (Header.decode (ByteMemory.ofList frame) 0).length < HEADER_LEN + CRC_DATA_LEN
  case pos =>
    rw [if_pos hshort] at h
    cases h
  rw [if_neg hshort] at h
  cases h
  have hle := Nat.le_of_not_lt hshort
  have hlength := PayloadCopy.length_of_le (c := ⟨HEADER_LEN, _⟩) hle hlt
  exact ⟨hle, by rw [hlength]; rfl⟩

/-- What a call that answers `isFrame` has done to the container. -/
def Answers (p p' : Protocol) (frame : List UInt8) (isFrame : Bool) (offset : Nat) : Prop :=
  isFrame = p.takesPayload frame ∧
    if isFrame then
      CopiesInto frame ⟨offset, (Header.decode (ByteMemory.ofList frame) 0).length⟩ p p'
    else p'.recvContainer = p.recvContainer

/-- The acknowledgements that are taken. -/
theorem handleAck_answers {isFrame : Bool}
    (hack : (Header.decode (ByteMemory.ofList frame) 0).isAck = true)
    (h : p.handleAck frame = some (p', isFrame)) : Answers p p' frame isFrame HEADER_LEN := by
  unfold Answers takesPayload
  rw [handleAck, handleAckWith] at h
  dsimp only at h ⊢
  rw [hack, if_pos rfl, handleAckWith]
  dsimp only
  by_cases hk : 0 < (Header.decode (ByteMemory.ofList frame) 0).sessionId ∧
      (Header.decode (ByteMemory.ofList frame) 0).sessionId < 32
  case neg =>
    rw [if_neg hk] at h ⊢
    cases h
    exact ⟨rfl, rfl⟩
  rw [if_pos hk] at h ⊢
  cases hflag : (p.cmdSessionTable (Header.decode (ByteMemory.ofList frame) 0).sessionId).usageFlag with
  | false =>
      rw [hflag, if_neg Bool.false_ne_true] at h
      cases h
      exact ⟨rfl, rfl⟩
  | true =>
      rw [hflag, if_pos rfl] at h
      cases hb : (p.cmdSessionTable
          (Header.decode (ByteMemory.ofList frame) 0).sessionId).memoryBlockPtr with
      | none =>
          rw [hb] at h
          cases h
      | some b =>
          rw [hb] at h
          dsimp only at h ⊢
          by_cases hsession : (Header.decode p.memoryPool.memory (p.blockPtr b)).sessionId =
              (Header.decode (ByteMemory.ofList frame) 0).sessionId
          case neg =>
            rw [if_neg hsession] at h ⊢
            cases h
            exact ⟨rfl, rfl⟩
          rw [if_pos hsession, Option.map_eq_some_iff] at h
          rw [if_pos hsession]
          obtain ⟨q, hq, hout⟩ := h
          cases hout
          obtain ⟨hle, hdata⟩ := fillAck_copies hq
          refine ⟨rfl, ?_⟩
          rw [if_pos rfl]
          refine ⟨hle, ?_⟩
          rw [← hdata, freeCMDSession]
          split <;> rfl

/-- The commands that are taken. -/
theorem handleCommand_answers {isFrame : Bool}
    (hack : (Header.decode (ByteMemory.ofList frame) 0).isAck = false)
    (h : p.handleCommand frame = some (p', isFrame)) :
    Answers p p' frame isFrame (HEADER_LEN + CMD_SET_PREFIX_LEN) := by
  have hfill : ∀ {q : Protocol} {needAck}, q.recvContainer = p.recvContainer →
      (q.fillCommand frame needAck).map (fun p => (p, true)) = some (p', isFrame) →
      isFrame = true ∧ CopiesInto frame ⟨HEADER_LEN + CMD_SET_PREFIX_LEN,
        (Header.decode (ByteMemory.ofList frame) 0).length⟩ p p' := by
    intro q needAck hq hmap
    obtain ⟨q', hq', hout⟩ := Option.map_eq_some_iff.mp hmap
    cases hout
    obtain ⟨hle, hdata⟩ := fillCommand_copies hq'
    exact ⟨rfl, hle, by rw [hdata, hq]⟩
  unfold Answers takesPayload
  rw [handleCommand, handleCommandWith] at h
  dsimp only at h ⊢
  rw [hack, if_neg Bool.false_ne_true, handleCommandWith]
  dsimp only
  by_cases hk : (Header.decode (ByteMemory.ofList frame) 0).sessionId = 0
  case pos =>
    rw [if_pos hk] at h ⊢
    obtain ⟨rfl, hcopy⟩ := hfill rfl h
    exact ⟨rfl, hcopy⟩
  have hsmall := Header.sessionId_decode_lt (ByteMemory.ofList frame) 0
  rw [if_neg hk, if_neg (by omega)] at h ⊢
  by_cases hr : (Header.decode (ByteMemory.ofList frame) 0).receiver.toNat < RECEIVER_NUM
  case neg =>
    rw [if_neg hr] at h
    cases h
  rw [if_pos hr] at h ⊢
  cases hstatus : (p.ackSessionTable (Header.decode (ByteMemory.ofList frame) 0).receiver.toNat
      ((Header.decode (ByteMemory.ofList frame) 0).sessionId - 1)).sessionStatus with
  | ACK_SESSION_IDLE =>
      rw [hstatus] at h
      obtain ⟨rfl, hcopy⟩ := hfill (by split <;> rfl) h
      exact ⟨rfl, hcopy⟩
  | ACK_SESSION_PROCESS =>
      rw [hstatus] at h
      cases h
      exact ⟨rfl, rfl⟩
  | ACK_SESSION_USING =>
      rw [hstatus] at h
      dsimp only at h ⊢
      cases hb : (p.ackSessionTable (Header.decode (ByteMemory.ofList frame) 0).receiver.toNat
          ((Header.decode (ByteMemory.ofList frame) 0).sessionId - 1)).memoryBlockPtr with
      | none =>
          rw [hb] at h
          cases h
      | some b =>
          rw [hb] at h
          dsimp only at h ⊢
          by_cases hseq : (Header.decode p.memoryPool.memory (p.blockPtr b)).seqNum =
              (Header.decode (ByteMemory.ofList frame) 0).seqNum
          case pos =>
            rw [if_pos hseq] at h ⊢
            cases h
            exact ⟨rfl, rfl⟩
          rw [if_neg hseq] at h ⊢
          obtain ⟨rfl, hcopy⟩ := hfill (by rfl) h
          exact ⟨rfl, hcopy⟩

/-- `payloadCopy` is the copy of `ContainerHandler`: where `ContainerHandler` is defined, its answer
says whether a payload was copied, and then the container holds it. -/
theorem containerHandler_payloadCopy {isFrame : Bool}
    (h : p.containerHandler frame = some (p', isFrame)) :
    match p.payloadCopy frame with
    | none => isFrame = false ∧ p'.recvContainer = p.recvContainer
    | some c => isFrame = true ∧ CopiesInto frame c p p' := by
  have hanswers : Answers p p' frame isFrame
      (if (Header.decode (ByteMemory.ofList frame) 0).isAck then HEADER_LEN
        else HEADER_LEN + CMD_SET_PREFIX_LEN) := by
    rw [containerHandler_eq] at h
    cases hack : (Header.decode (ByteMemory.ofList frame) 0).isAck with
    | true =>
        rw [hack, if_pos rfl] at h
        exact handleAck_answers hack h
    | false =>
        rw [hack, if_neg Bool.false_ne_true] at h
        exact handleCommand_answers hack h
  obtain ⟨hflag, hcopy⟩ := hanswers
  unfold payloadCopy
  dsimp only
  cases isFrame with
  | false =>
      rw [if_neg (by rw [← hflag]; decide)]
      exact ⟨rfl, hcopy⟩
  | true =>
      rw [if_pos hflag.symm]
      exact ⟨rfl, hcopy⟩

end Protocol

/-! ## Runs -/

namespace Traced

/-- In every run, for every frame that `ContainerHandler` is called with: if it gets to a copy of
the payload, the length is computed without underflow and the copy stays inside `raw_data` and the
payload of the frame, exactly when the frame is at least `HEADER_LEN + CRC_DATA_LEN` bytes long, a
command `CMD_SET_PREFIX_LEN` more. -/
theorem run_copies_payload (p : Protocol) (table : Nat → MemoryBlock) (memory buff : ByteMemory)
    (inputs : List (Input ThreadCall)) :
    ∃ s t, StateMachine.run step (RecvStream.init buff, init p table memory) inputs = some (s, t) ∧
      ∀ q frame, SessionCall.containerHandler q frame ∈ t.calls →
        ((∀ c ∈ q.payloadCopy frame, c.Safe frame) ↔
          (q.takesPayload frame = true → Protocol.shortestPackage frame ≤ frame.length)) := by
  obtain ⟨s, t, hrun, hinv⟩ := run_traced p table memory buff inputs
  refine ⟨s, t, hrun, fun q frame hcall => ?_⟩
  exact Protocol.payloadCopy_safe_iff (hinv.calls _ hcall).2

/-- The package `SendACK` sends for an empty acknowledgement of session 2. -/
def emptyAck : List UInt8 :=
  (default : Protocol).ackPackage 2 0 DEVICE []

/-- Whether the copy of a `ContainerHandler` call is safe, if it is one and copies. -/
def copySafe : SessionCall → Option Bool
  | .containerHandler q frame => (q.payloadCopy frame).map fun c => decide (c.Safe frame)
  | .sendACK .. => none

/-- A command is sent in session 2; the empty acknowledgement for it is copied with a length that
wraps. -/
theorem run_copies_empty_ack :
    ¬ ∀ (p : Protocol) (table : Nat → MemoryBlock) (memory buff : ByteMemory)
      (inputs : List (Input ThreadCall)) (s : RecvStream) (t : Traced),
      StateMachine.run step (RecvStream.init buff, init p table memory) inputs = some (s, t) →
      ∀ q frame, SessionCall.containerHandler q frame ∈ t.calls →
        ∀ c ∈ q.payloadCopy frame, c.Safe frame := by
  intro hall
  have hrun : (StateMachine.run step (RecvStream.init default, init default default default)
      (.call (.sendCMD 1 2 0 default 1 .CMD_SESSION_AUTO 50 5 0) :: emptyAck.map .byte)).map
      (fun s => s.2.calls.map copySafe) = some [some false] := by decide +kernel
  obtain ⟨⟨s, t⟩, hs, hcalls⟩ := Option.map_eq_some_iff.mp hrun
  obtain ⟨c, hc, hunsafe⟩ := List.map_eq_singleton_iff.mp hcalls
  cases c with
  | sendACK => cases hunsafe
  | containerHandler q frame =>
      obtain ⟨copy, hcopy, hdecide⟩ := Option.map_eq_some_iff.mp hunsafe
      have hsafe := hall _ _ _ _ _ s t hs q frame (by rw [hc]; exact List.mem_singleton_self _)
        copy hcopy
      rw [decide_eq_true hsafe] at hdecide
      cases hdecide

end Traced

end RoboRTS.Sdk
