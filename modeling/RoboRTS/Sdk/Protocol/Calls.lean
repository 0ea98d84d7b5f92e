import RoboRTS.Sdk.Protocol.Link
import RoboRTS.Sdk.Stream.Interleaved

/-!
# The calls of a run

A protocol object that receives bytes while other threads send through it. A run keeps the calls
of `ContainerHandler` and `SendACK` in their order, each with the object it finds, so that what
such a call reads and copies can be looked up; a call with undefined behaviour is kept as well and
ends the record. `run_traced` says what every call of every run finds.
-/

namespace RoboRTS.Sdk

namespace Protocol

variable {p p' : Protocol}

/-- `SendResponse`; `messageData` is the memory that `message_data` points to. -/
def sendResponse (p : Protocol) (commandInfo : CommandInfo) (messageHeader : MessageHeader)
    (messageData : ByteMemory) : Option (Protocol × Bool) :=
  p.sendACK messageHeader.sessionId messageHeader.seqNum commandInfo.receiver
    (messageData.read 0 commandInfo.length.toNat)

/-- An ack session that has sent its acknowledgement has a block. -/
def AckBlocks (p : Protocol) : Prop :=
  ∀ r j, (p.ackSessionTable r j).sessionStatus = .ACK_SESSION_USING →
    (p.ackSessionTable r j).memoryBlockPtr ≠ none

/-- What holds of the object between two calls. -/
structure Sound (p : Protocol) : Prop where
  wellFormed : p.WellFormed
  ackBlocks : p.AckBlocks

theorem init_sound (p : Protocol) (table : Nat → MemoryBlock) (memory : ByteMemory) :
    (p.init table memory).Sound := by
  have h := init_owned p table memory default
  refine ⟨⟨h.sized, h.cmd_id, h.ack_id⟩, ?_⟩
  intro r j hstatus
  cases hstatus

theorem AckBlocks.of_eq (h : p.AckBlocks) (heq : p'.ackSessionTable = p.ackSessionTable) :
    p'.AckBlocks := by
  intro r j
  rw [heq]
  exact h r j

/-- One changed session keeps the property if it has it. -/
theorem AckBlocks.setAck (h : p.AckBlocks) {r j : Nat} {z : ACKSession}
    (hz : z.sessionStatus = .ACK_SESSION_USING → z.memoryBlockPtr ≠ none) :
    (p.setAck r j z).AckBlocks := by
  intro r' j'
  simp only [Protocol.setAck]
  by_cases hr : r' = r
  · subst hr
    by_cases hj : j' = j
    · subst hj
      rw [Function.update_self, Function.update_self]
      exact hz
    · rw [Function.update_self, Function.update_of_ne hj]
      exact h r' j'
  · rw [Function.update_of_ne hr]
    exact h r' j'

theorem Sound.sendCMD (h : p.Sound) {cmdSet cmdId receiver : UInt8} {data : List UInt8}
    {mode : CMDSessionMode} {ackTimeout retryTime now : Int} {out : Option MessageHeader}
    (hsend : p.sendCMD cmdSet cmdId receiver data mode ackTimeout retryTime now =
      some (p', out)) : p'.Sound := by
  refine ⟨h.wellFormed.sendCMD hsend, h.ackBlocks.of_eq ?_⟩
  rcases sendCMD_cases h.wellFormed.sized h.wellFormed.cmd_id hsend with
    ⟨-, pool, -, rfl⟩ | ⟨i, b, pool, -, -, -, rfl⟩ <;> rfl

theorem Sound.sendACK (h : p.Sound) {sessionId : Nat} {seqNum : UInt16} {receiver : UInt8}
    {ack : List UInt8} {ok : Bool}
    (hsend : p.sendACK sessionId seqNum receiver ack = some (p', ok)) : p'.Sound := by
  refine ⟨h.wellFormed.sendACK hsend, ?_⟩
  rcases sendACK_cases h.wellFormed.sized h.wellFormed.ack_id hsend with
    ⟨-, rfl, -⟩ | ⟨-, -, -, -, -, pool, -, rfl⟩ | ⟨-, -, -, -, -, b, pool, -, rfl⟩
  · exact h.ackBlocks
  · exact h.ackBlocks.of_eq rfl
  · refine AckBlocks.of_eq (h.ackBlocks.setAck (r := receiver.toNat) (j := sessionId - 1)
      (z := ⟨sessionId, .ACK_SESSION_USING, some b⟩) ?_) rfl
    intro _ hnone
    cases hnone

theorem AckBlocks.processing (h : p.AckBlocks) (r k : Nat) : (p.processing r k).AckBlocks :=
  h.setAck fun husing => by cases husing

/-- No branch of `ContainerHandler` puts a session into use. -/
theorem AckBlocks.containerHandler (h : p.AckBlocks) {frame : List UInt8} {isFrame : Bool}
    (hhandle : p.containerHandler frame = some (p', isFrame)) : p'.AckBlocks := by
  have hfill : ∀ {q q' : Protocol} {needAck}, q.AckBlocks → q.fillCommand frame needAck = some q' →
      q'.AckBlocks := by
    intro q q' needAck hq heq
    rw [fillCommand_eq heq]
    exact hq.of_eq rfl
  rw [containerHandler_eq] at hhandle
  cases hack : (Header.decode (ByteMemory.ofList frame) 0).isAck with
  | true =>
      rw [hack, if_pos rfl] at hhandle
      rcases handleAck_cases hhandle with ⟨-, rfl⟩ | ⟨-, k, b, q, -, -, -, hflag, hb, -, hq, rfl⟩
      · exact h
      · rw [freeCMDSession_eq (by rw [fillAck_eq hq]; exact hflag) (by rw [fillAck_eq hq]; exact hb)]
        exact h.of_eq (by rw [fillAck_eq hq])
  | false =>
      rw [hack, if_neg Bool.false_ne_true] at hhandle
      rcases handleCommand_cases hhandle with
        ⟨-, -, hq⟩ | ⟨k, r, -, -, -, -, -,
          ⟨-, -, rfl⟩ | ⟨-, -, hq⟩ | ⟨b, -, -, ⟨-, -, rfl⟩ | ⟨-, -, hq⟩⟩⟩
      · exact hfill h hq
      · exact h
      · split at hq
        · exact hfill (h.processing r k) hq
        · exact hfill h hq
      · exact h.of_eq rfl
      · exact hfill (h.processing r k) hq

theorem Sound.containerHandler (h : p.Sound) {frame : List UInt8} {isFrame : Bool}
    (hhandle : p.containerHandler frame = some (p', isFrame)) : p'.Sound :=
  ⟨h.wellFormed.containerHandler hhandle, h.ackBlocks.containerHandler hhandle⟩

theorem Sound.autoRepeatSendCheck (h : p.Sound) {i : Nat} {now : Int}
    (hretry : p.autoRepeatSendCheck i now = some p') : p'.Sound := by
  refine ⟨h.wellFormed.autoRepeatSendCheck hretry, h.ackBlocks.of_eq ?_⟩
  rcases autoRepeatSendCheck_cases hretry with ⟨-, rfl⟩ | ⟨-, -, rfl | ⟨b, sent, -, rfl⟩⟩
  · rfl
  · rw [freeCMDSession]
    split <;> rfl
  · rfl

end Protocol

/-! ## Runs with a record of the calls -/

/-- A call of `ContainerHandler` or `SendACK`, with the object it finds. -/
inductive SessionCall where
  | containerHandler (p : Protocol) (frame : List UInt8)
  | sendACK (p : Protocol) (sessionId : Nat) (seqNum : UInt16) (receiver : UInt8)
      (ack : List UInt8)

/-- What the other threads call. A pointer to data is the memory behind it, with the length of the
data; session 0 needs no time-out check. -/
inductive ThreadCall where
  | sendCMD (cmdSet cmdId receiver : UInt8) (dataPtr : ByteMemory) (dataLength : UInt16)
      (mode : CMDSessionMode) (ackTimeout retryTime now : Int)
  | sendACK (sessionId : UInt8) (seqNum : UInt16) (receiver : UInt8) (ackPtr : ByteMemory)
      (ackLength : UInt16)
  | sendResponse (commandInfo : CommandInfo) (messageHeader : MessageHeader)
      (messageData : ByteMemory)
  | autoRepeatSendCheck (i : Fin (SESSION_TABLE_NUM - 1)) (now : Int)

/-- An object and its calls so far; after undefined behaviour there is no object. -/
structure Traced where
  protocol : Option Protocol
  calls : List SessionCall

namespace Traced

/-- `ContainerHandler`, recorded. -/
def containerHandler (frame : List UInt8) (_behind : Nat) (t : Traced) : Option (Traced × Bool) :=
  match t.protocol with
  | none => some (t, false)
  | some p =>
      let out := p.containerHandler frame
      some (⟨out.map Prod.fst, t.calls ++ [.containerHandler p frame]⟩,
        (out.map Prod.snd).getD false)

/-- A call of another thread, recorded. -/
def call (t : Traced) (e : ThreadCall) : Traced :=
  match t.protocol with
  | none => t
  | some p =>
      match e with
      | .sendCMD cmdSet cmdId receiver dataPtr dataLength mode ackTimeout retryTime now =>
          let data := dataPtr.read 0 dataLength.toNat
          ⟨(p.sendCMD cmdSet cmdId receiver data mode ackTimeout retryTime now).map Prod.fst,
            t.calls⟩
      | .sendACK sessionId seqNum receiver ackPtr ackLength =>
          let ack := ackPtr.read 0 ackLength.toNat
          ⟨(p.sendACK sessionId.toNat seqNum receiver ack).map Prod.fst,
            t.calls ++ [.sendACK p sessionId.toNat seqNum receiver ack]⟩
      | .sendResponse commandInfo messageHeader messageData =>
          ⟨(p.sendResponse commandInfo messageHeader messageData).map Prod.fst,
            t.calls ++ [.sendACK p messageHeader.sessionId messageHeader.seqNum
              commandInfo.receiver (messageData.read 0 commandInfo.length.toNat)]⟩
      | .autoRepeatSendCheck i now => ⟨p.autoRepeatSendCheck (i + 1) now, t.calls⟩

/-- The object after `Init`, at the address `DEVICE`. -/
def init (p : Protocol) (table : Nat → MemoryBlock) (memory : ByteMemory) : Traced :=
  ⟨some (Protocol.init { p with device := DEVICE } table memory), []⟩

/-- A receiver and its other threads: one byte, or one call. -/
def step : RecvStream × Traced → Input ThreadCall → Option (RecvStream × Traced) :=
  inputStep DEVICE containerHandler call

end Traced

/-! ## What a call finds -/

namespace SessionCall

/-- The object is sound, and the frame has passed `VerifyHeader` and `VerifyData`. -/
def Expected : SessionCall → Prop
  | containerHandler p frame => p.Sound ∧ ValidFrame DEVICE frame
  | sendACK p _ _ _ _ => p.Sound

end SessionCall

namespace Traced

/-- What holds of an object and its record. -/
structure Consistent (t : Traced) : Prop where
  protocol : ∀ p ∈ t.protocol, p.Sound
  calls : ∀ c ∈ t.calls, c.Expected

theorem init_consistent (p : Protocol) (table : Nat → MemoryBlock) (memory : ByteMemory) :
    (init p table memory).Consistent := by
  refine ⟨?_, fun c hc => by cases hc⟩
  intro q hq
  cases hq
  exact Protocol.init_sound _ table memory

variable {t : Traced} {p : Protocol}

/-- A call that keeps the object sound, if it leaves one. -/
theorem Consistent.next (h : t.Consistent) {next : Option Protocol} {calls : List SessionCall}
    (hnext : ∀ q ∈ next, q.Sound) (hcalls : ∀ c ∈ calls, c.Expected) :
    Consistent ⟨next, t.calls ++ calls⟩ := by
  refine ⟨hnext, fun c hc => ?_⟩
  rcases List.mem_append.mp hc with hold | hnew
  · exact h.calls c hold
  · exact hcalls c hnew

theorem containerHandler_keeps : HandlerKeeps DEVICE containerHandler Consistent := by
  intro frame behind t hframe h
  rw [containerHandler]
  cases hp : t.protocol with
  | none => exact ⟨_, rfl, h⟩
  | some p =>
      have hsound := h.protocol p hp
      refine ⟨_, rfl, h.next ?_ ?_⟩
      · intro q hq
        obtain ⟨⟨q', isFrame⟩, hout, rfl⟩ := Option.map_eq_some_iff.mp hq
        exact hsound.containerHandler hout
      · intro c hc
        rw [List.mem_singleton.mp hc]
        exact ⟨hsound, hframe⟩

theorem call_keeps (t : Traced) (e : ThreadCall) (h : t.Consistent) : (t.call e).Consistent := by
  rw [call]
  cases hp : t.protocol with
  | none => exact h
  | some p =>
      have hsound := h.protocol p hp
      have hack : ∀ {sessionId seqNum receiver ack} {q : Protocol},
          q ∈ (p.sendACK sessionId seqNum receiver ack).map Prod.fst → q.Sound := by
        intro sessionId seqNum receiver ack q hq
        obtain ⟨⟨q', ok⟩, hout, rfl⟩ := Option.map_eq_some_iff.mp hq
        exact hsound.sendACK hout
      cases e with
      | sendCMD cmdSet cmdId receiver dataPtr dataLength mode ackTimeout retryTime now =>
          refine ⟨fun q hq => ?_, h.calls⟩
          obtain ⟨⟨q', out⟩, hout, rfl⟩ := Option.map_eq_some_iff.mp hq
          exact hsound.sendCMD hout
      | sendACK sessionId seqNum receiver ackPtr ackLength =>
          refine h.next (fun q hq => hack hq) fun c hc => ?_
          rw [List.mem_singleton.mp hc]
          exact hsound
      | sendResponse commandInfo messageHeader messageData =>
          refine h.next (fun q hq => hack hq) fun c hc => ?_
          rw [List.mem_singleton.mp hc]
          exact hsound
      | autoRepeatSendCheck i now => exact ⟨fun q hq => hsound.autoRepeatSendCheck hq, h.calls⟩

/-- In every run, every call of `ContainerHandler` and `SendACK` finds a sound object, and
`ContainerHandler` a valid frame. -/
theorem run_traced (p : Protocol) (table : Nat → MemoryBlock) (memory buff : ByteMemory)
    (inputs : List (Input ThreadCall)) :
    ∃ s t, StateMachine.run step (RecvStream.init buff, init p table memory) inputs = some (s, t) ∧
      t.Consistent :=
  run_interleaved containerHandler_keeps call_keeps buff (init_consistent p table memory) inputs

end Traced

end RoboRTS.Sdk
