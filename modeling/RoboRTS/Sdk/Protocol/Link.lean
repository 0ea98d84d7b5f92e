import RoboRTS.Lib.RepeatLink
import RoboRTS.Sdk.Protocol.RoundTrip

/-!
# Two protocol objects on a link

A sender that issues commands in the automatic mode and a receiver that acknowledges them, joined
by a link that may lose frames in both directions and never reorders them. The objects and their
functions are those of the protocol layer; a step of `Link` is one call of them, and what the call
hands to the serial device goes onto the link. Frames carry a label that the code does not have:
the session and the number of the command they belong to, in the order in which commands are
issued. `Link.session` is the view of one session, as a state of `RepeatLink`.
-/

namespace RoboRTS.Sdk

/-- `DEVICE`. -/
def DEVICE : UInt8 := 0x00

namespace Protocol

/-! ## A frame that arrives -/

/-- The parser accepts these bytes as a frame. -/
def Accepted (device : UInt8) (frame : List UInt8) : Prop :=
  Scan.accepted device (ByteMemory.ofList frame) 0 = true ∧
    Scan.len (ByteMemory.ofList frame) 0 = frame.length

instance (device : UInt8) (frame : List UInt8) : Decidable (Accepted device frame) :=
  inferInstanceAs (Decidable (_ ∧ _))

/-- What `ByteHandler` does with a frame that arrives while the stream is in its initial state: a
frame that the parser accepts goes to `ContainerHandler` (`feed_deliver`). -/
def deliver (p : Protocol) (frame : List UInt8) : Option (Protocol × Bool) :=
  if Accepted p.device frame then p.containerHandler frame else some (p, false)

variable {p q : Protocol} {frame : List UInt8} {isFrame : Bool}

/-- Feeding an accepted frame byte by byte ends with the state and the answer of `deliver`. -/
theorem feed_deliver (buff : ByteMemory) (hacc : Accepted p.device frame)
    (h : p.deliver frame = some (q, isFrame)) :
    ∃ results last, feed p.device (onFrame onStream) frame (RecvStream.init buff) p =
        some (results ++ [last]) ∧
      results.map Parsed.isFrame = List.replicate (frame.length - 1) false ∧
      last.isFrame = isFrame ∧ last.app = q := by
  rw [deliver, if_pos hacc] at h
  exact feed_answers (h := onStream) buff hacc.1 hacc.2 h

theorem Accepted.le_length {device : UInt8} (h : Accepted device frame) : 12 ≤ frame.length := by
  have h12 := (Scan.accepted_iff.mp h.1).2.1
  rwa [h.2] at h12

/-- A frame that arrives is accepted and handled, or it changes nothing. -/
theorem deliver_cases (h : p.deliver frame = some (q, isFrame)) :
    (q = p ∧ isFrame = false) ∨
      (Accepted p.device frame ∧ p.containerHandler frame = some (q, isFrame)) := by
  rw [deliver] at h
  split at h
  · next hacc => exact Or.inr ⟨hacc, h⟩
  · cases h
    exact Or.inl ⟨rfl, rfl⟩

theorem Owned.deliver {written : Owner → List UInt8} (h : p.Owned written)
    (hdeliver : p.deliver frame = some (q, isFrame)) : q.Owned written := by
  rcases deliver_cases hdeliver with ⟨rfl, -⟩ | ⟨-, hhandle⟩
  · exact h
  · exact h.containerHandler hhandle

/-! ## What a frame carries -/

/-- The bytes are a package for session `k` with the given sequence number, addressed to
`DEVICE`. -/
def PackageOf (bytes : List UInt8) (isAck : Bool) (k : Nat) (seqNum : UInt16) : Prop :=
  ∃ h body, bytes = Header.package h body ∧ h.length = bytes.length ∧ h.isAck = isAck ∧
    h.sessionId = k ∧ h.seqNum = seqNum ∧ h.receiver = DEVICE

/-- The header of a package, read from memory. -/
theorem PackageOf.decode_memory {bytes : List UInt8} {isAck : Bool} {k : Nat} {seqNum : UInt16}
    (h : PackageOf bytes isAck k seqNum) (hk : k < 32) {m : ByteMemory} {a n : Nat}
    (hread : m.read a n = bytes) :
    (Header.decode m a).sessionId = k ∧ (Header.decode m a).seqNum = seqNum := by
  obtain ⟨header, body, rfl, -, -, hid, hseq, -⟩ := h
  rw [Header.decode_of_package hread]
  simp only [Header.stored, hid, hseq, and_true]
  omega

/-- The header of a package, read from the frame that was sent for it. -/
theorem PackageOf.decode_wire {bytes : List UInt8} {isAck : Bool} {k : Nat} {seqNum : UInt16}
    (h : PackageOf bytes isAck k seqNum) (hk : k < 32) (h12 : 12 ≤ (wire bytes).length) :
    (Header.decode (ByteMemory.ofList (wire bytes)) 0).isAck = isAck ∧
      (Header.decode (ByteMemory.ofList (wire bytes)) 0).sessionId = k ∧
      (Header.decode (ByteMemory.ofList (wire bytes)) 0).seqNum = seqNum ∧
      (Header.decode (ByteMemory.ofList (wire bytes)) 0).receiver = DEVICE := by
  obtain ⟨header, body, rfl, -, hack, hid, hseq, hreceiver⟩ := h
  have hpre : header.frame <+: wire (header.package body) := by
    refine List.prefix_of_prefix_length_le (Header.frame_prefix_package header body)
      (List.take_prefix _ _) ?_
    rw [Header.length_frame]
    exact h12
  rw [Header.decode_of_prefix hpre]
  simp only [Header.stored, hack, hid, hseq, hreceiver, and_true, true_and]
  omega

/-- Sending a block that holds a package. -/
theorem PackageOf.deviceSend {bytes : List UInt8} {isAck : Bool} {k : Nat} {seqNum : UInt16}
    (h : PackageOf bytes isAck k seqNum) {b : Nat} (hb : p.memoryPool.contents b = bytes) :
    p.deviceSend (p.blockPtr b) = { p with deviceOut := p.deviceOut ++ [wire bytes] } := by
  obtain ⟨header, body, rfl, hlen, -⟩ := h
  exact deviceSend_contents hb hlen

/-! ## What a command does at the receiver -/

theorem fillCommand_messageHeader {needAck : Bool} (h : p.fillCommand frame needAck = some q) :
    q.recvContainer.messageHeader =
      { seqNum := (Header.decode (ByteMemory.ofList frame) 0).seqNum
        sessionId := (Header.decode (ByteMemory.ofList frame) 0).sessionId
        isAck := false } := by
  rw [fillCommand] at h
  dsimp only at h
  split at h
  · cases h
  · cases h
    rfl

/-- The receiver has just handed over the command of a frame, in session `k`. -/
structure HandedOver (p q : Protocol) (frame : List UInt8) (k : Nat) (seqNum : UInt16) : Prop where
  accepted : Accepted p.device frame
  eq : q = { p.processing 0 k with recvContainer := q.recvContainer }
  messageHeader : q.recvContainer.messageHeader =
    { seqNum := seqNum, sessionId := k, isAck := false }

/-- A command that arrives: nothing happens, it is handed over, or the stored acknowledgement is
sent again. -/
theorem deliver_command {bytes : List UInt8} {k : Nat} {seqNum : UInt16}
    (hpackage : PackageOf bytes false k seqNum) (hk : 2 ≤ k) (hk32 : k < 32)
    (h : p.deliver (wire bytes) = some (q, isFrame)) :
    (q = p ∧ isFrame = false) ∨
    (isFrame = true ∧ HandedOver p q (wire bytes) k seqNum ∧
      ((p.ackSessionTable 0 (k - 1)).sessionStatus = .ACK_SESSION_IDLE ∨
        (p.ackSessionTable 0 (k - 1)).sessionStatus = .ACK_SESSION_USING ∧
          ∃ b, (p.ackSessionTable 0 (k - 1)).memoryBlockPtr = some b ∧
            (Header.decode p.memoryPool.memory (p.blockPtr b)).seqNum ≠ seqNum)) ∨
    (isFrame = false ∧ (p.ackSessionTable 0 (k - 1)).sessionStatus = .ACK_SESSION_USING ∧
      ∃ b, (p.ackSessionTable 0 (k - 1)).memoryBlockPtr = some b ∧
        (Header.decode p.memoryPool.memory (p.blockPtr b)).seqNum = seqNum ∧
        q = p.deviceSend (p.blockPtr b)) := by
  rcases deliver_cases h with hsame | ⟨hacc, hhandle⟩
  · exact Or.inl hsame
  obtain ⟨hack, hid, hseq, hreceiver⟩ := hpackage.decode_wire hk32 hacc.le_length
  rw [containerHandler_eq, hack, if_neg (by decide)] at hhandle
  have hzero : DEVICE.toNat = 0 := rfl
  have hfill : ∀ {needAck}, (p.processing 0 k).fillCommand (wire bytes) needAck = some q →
      HandedOver p q (wire bytes) k seqNum := fun hq =>
    ⟨hacc, fillCommand_eq hq, by rw [fillCommand_messageHeader hq, hid, hseq]⟩
  rcases handleCommand_cases hhandle with ⟨h0, -⟩ | ⟨k', r, rfl, -, -, rfl, -, hcases⟩
  · omega
  rw [hid, hreceiver, hzero, hseq] at hcases
  rcases hcases with ⟨-, hfalse, hq⟩ | ⟨hidle, htrue, hq⟩ | ⟨b, husing, hb, hseqs⟩
  · exact Or.inl ⟨hq, hfalse⟩
  · rw [if_pos (show k > 1 by omega)] at hq
    exact Or.inr (Or.inl ⟨htrue, hfill hq, Or.inl hidle⟩)
  · rcases hseqs with ⟨heq, hfalse, hq⟩ | ⟨hne, htrue, hq⟩
    · exact Or.inr (Or.inr ⟨hfalse, husing, b, hb, heq, hq⟩)
    · exact Or.inr (Or.inl ⟨htrue, hfill hq, Or.inr ⟨husing, b, hb, hne⟩⟩)

/-- A copy of a command that the receiver has answered: the stored acknowledgement is sent again. -/
theorem deliver_again {bytes : List UInt8} {k b : Nat} {seqNum : UInt16}
    (hacc : Accepted p.device (wire bytes)) (hpackage : PackageOf bytes false k seqNum)
    (hk : 2 ≤ k) (hk32 : k < 32)
    (husing : (p.ackSessionTable 0 (k - 1)).sessionStatus = .ACK_SESSION_USING)
    (hb : (p.ackSessionTable 0 (k - 1)).memoryBlockPtr = some b)
    (hseq : (Header.decode p.memoryPool.memory (p.blockPtr b)).seqNum = seqNum) :
    p.deliver (wire bytes) = some (p.deviceSend (p.blockPtr b), false) := by
  obtain ⟨hack, hid, hnum, hreceiver⟩ := hpackage.decode_wire hk32 hacc.le_length
  have hzero : DEVICE.toNat = 0 := rfl
  rw [deliver, if_pos hacc, containerHandler_eq, hack, if_neg (by decide), handleCommand,
    handleCommandWith]
  dsimp only
  rw [hid, hreceiver, hzero, if_neg (by omega), if_neg (by omega), if_pos (by decide), husing, hb]
  dsimp only
  rw [hnum, if_pos hseq]

/-- An acknowledgement that arrives: nothing happens, or it frees the session it is for, which was
in use. -/
theorem deliver_ack {bytes : List UInt8} {k : Nat} {seqNum : UInt16}
    (hpackage : PackageOf bytes true k seqNum) (hk32 : k < 32)
    (h : p.deliver (wire bytes) = some (q, isFrame)) :
    (q = p ∧ isFrame = false) ∨
      (isFrame = true ∧ (Header.decode (ByteMemory.ofList (wire bytes)) 0).sessionId = k ∧
        (p.cmdSessionTable k).usageFlag = true ∧
        ∃ c, q = ({ p with recvContainer := c } : Protocol).freeCMDSession k) := by
  rcases deliver_cases h with hsame | ⟨hacc, hhandle⟩
  · exact Or.inl hsame
  obtain ⟨hack, hid, -⟩ := hpackage.decode_wire hk32 hacc.le_length
  rw [containerHandler_eq, hack, if_pos rfl] at hhandle
  rcases handleAck_cases hhandle with ⟨hfalse, hq⟩ | ⟨htrue, k', b, r, rfl, -, -, hflag, -, -, hr, rfl⟩
  · exact Or.inl ⟨hq, hfalse⟩
  · rw [hid] at hflag hr ⊢
    exact Or.inr ⟨htrue, rfl, hflag, r.recvContainer, by rw [fillAck_eq hr]⟩

/-! ## What the calls of the two objects hand to the serial device -/

/-- `SendCMD` in the automatic mode sends nothing, or one package in a session that was free. -/
theorem sendCMD_issues {ws : Owner → List UInt8} (hp : p.Owned ws) (hout : p.deviceOut = [])
    {cmdSet cmdId : UInt8} {data : List UInt8} {ackTimeout retryTime now : Int}
    {out : Option MessageHeader}
    (h : p.sendCMD cmdSet cmdId DEVICE data .CMD_SESSION_AUTO ackTimeout retryTime now =
      some (q, out)) :
    (out = none ∧ q.Owned ws ∧ q.deviceOut = [] ∧ q.cmdSessionTable = p.cmdSessionTable) ∨
    ∃ i seqNum bytes, out = some { seqNum := seqNum, sessionId := i, isAck := false } ∧
      2 ≤ i ∧ i < 32 ∧ PackageOf bytes false i seqNum ∧
      q.Owned (Function.update ws (.cmd i) bytes) ∧ q.deviceOut = [wire bytes] ∧
      (p.cmdSessionTable i).usageFlag = false ∧
      (p.cmdSessionTable i).preSeqNum ≠ seqNum.toUInt32 ∧
      (q.cmdSessionTable i).usageFlag = true ∧
      (q.cmdSessionTable i).preSeqNum = seqNum.toUInt32 ∧
      ∀ j, j ≠ i → q.cmdSessionTable j = p.cmdSessionTable j := by
  have howned := hp.sendCMD h
  rcases sendCMD_cases hp.sized hp.cmd_id h with
    ⟨rfl, pool, -, rfl⟩ | ⟨i, b, pool, hi, -, rfl, rfl⟩
  · exact Or.inl ⟨rfl, howned, hout, rfl⟩
  obtain ⟨hunused, hlt, hle⟩ := freeSession_unused hi
  refine Or.inr ⟨i, _, _, rfl, hle, hlt, ⟨_, _, rfl, ?_, rfl, rfl, rfl, rfl⟩, howned, ?_, hunused,
    ?_, ?_, ?_, fun j hne => Function.update_of_ne hne ..⟩
  · exact (length_cmdPackage (p := p) _ _ _ _ _ _).symm
  · simp only [afterSendCMD, hout, List.nil_append]
    rfl
  · rw [cmdSeqNum]
    split
    · next hsame =>
        rw [← hsame.2]
        intro heq
        have := congrArg UInt32.toNat heq
        have hlt16 := p.seqNum.toNat_lt
        simp at this
        omega
    · next hdiff =>
        intro heq
        exact hdiff ⟨by decide, heq.symm⟩
  · simp [afterSendCMD, sentSession]
  · simp [afterSendCMD, sentSession]

/-- `AutoRepeatSendCheck` does nothing before the time-out; after it, it frees the session or sends
its package again. -/
theorem autoRepeatSendCheck_resends {ws : Owner → List UInt8} (hp : p.Owned ws)
    (hout : p.deviceOut = []) {i : Nat} {now : Int}
    (hpackage : (p.cmdSessionTable i).usageFlag = true →
      ∃ seqNum, PackageOf (ws (.cmd i)) false i seqNum)
    (h : p.autoRepeatSendCheck i now = some q) :
    (p.timedOut i now = false ∧ q = p) ∨
    (p.timedOut i now = true ∧ q.Owned ws ∧ (p.cmdSessionTable i).usageFlag = true ∧
      (∀ j, (q.cmdSessionTable j).preSeqNum = (p.cmdSessionTable j).preSeqNum) ∧
      (∀ j, j ≠ i → (q.cmdSessionTable j).usageFlag = (p.cmdSessionTable j).usageFlag) ∧
      ((q.deviceOut = [] ∧ (q.cmdSessionTable i).usageFlag = false) ∨
        (q.deviceOut = [wire (ws (.cmd i))] ∧ (q.cmdSessionTable i).usageFlag = true))) := by
  have howned := hp.autoRepeatSendCheck h
  rcases autoRepeatSendCheck_cases h with hnone | ⟨hdue, hflag, hcases⟩
  · exact Or.inl hnone
  obtain ⟨b, hb⟩ := Option.ne_none_iff_exists'.mp (hp.cmd_block i hflag).2
  refine Or.inr ⟨hdue, howned, hflag, ?_⟩
  rcases hcases with rfl | ⟨b', sent, hb', rfl⟩
  · rw [freeCMDSession_eq hflag hb]
    refine ⟨fun j => ?_, fun j hne => ?_, Or.inl ⟨hout, ?_⟩⟩
    · by_cases hj : j = i
      · subst hj
        simp
      · simp [hj]
    · simp [hne]
    · simp
  · obtain ⟨seqNum, hpkg⟩ := hpackage hflag
    have hcontents : p.memoryPool.contents b' = ws (.cmd i) :=
      hp.exclusive.value_eq (o := .cmd i) (by simp only [refs, hflag, if_true, hb'])
    rw [hpkg.deviceSend hcontents, hout, List.nil_append]
    refine ⟨fun j => ?_, fun j hne => ?_, Or.inr ⟨rfl, ?_⟩⟩
    · by_cases hj : j = i
      · subst hj
        simp [setCmd]
      · simp [setCmd, hj]
    · simp [setCmd, hne]
    · simpa [setCmd] using hflag

/-- `SendACK` that returns true sends one package and keeps it in the ack session. -/
theorem sendACK_answers {wr : Owner → List UInt8} (hp : p.Owned wr) (hout : p.deviceOut = [])
    {k : Nat} {seqNum : UInt16} {ack : List UInt8}
    (h : p.sendACK k seqNum DEVICE ack = some (q, true)) :
    ∃ b bytes, PackageOf bytes true k seqNum ∧
      q.Owned (Function.update wr (.ack 0 (k - 1)) bytes) ∧ q.deviceOut = [wire bytes] ∧
      q.device = p.device ∧ q.ackSessionTable 0 (k - 1) =
        { sessionId := k, sessionStatus := .ACK_SESSION_USING, memoryBlockPtr := some b } ∧
      ∀ j, j ≠ k - 1 → q.ackSessionTable 0 j = p.ackSessionTable 0 j := by
  have howned := hp.sendACK h (fun hfalse => nomatch hfalse)
  rcases sendACK_cases hp.sized hp.ack_id h with
    ⟨hfalse, -⟩ | ⟨hfalse, -⟩ | ⟨-, -, -, -, hlen, b, pool, -, rfl⟩
  · cases hfalse
  · cases hfalse
  refine ⟨b, _, ⟨_, _, rfl, ?_, rfl, rfl, rfl, rfl⟩, howned, ?_, rfl, ?_, fun j hne => ?_⟩
  · exact (length_ackPackage (p := p) _ _ _ hlen).symm
  · simp only [afterSendACK, hout, List.nil_append]
    rfl
  · simp [afterSendACK, setAck, DEVICE]
  · simp [afterSendACK, setAck, DEVICE, hne]

/-- A frame is what was sent for a package. -/
def Carries (frame : List UInt8) (isAck : Bool) (k : Nat) (seqNum : UInt16) : Prop :=
  ∃ bytes, frame = wire bytes ∧ PackageOf bytes isAck k seqNum

end Protocol

/-! ## The two objects and the link -/

/-- The session of a command and its number in the order of issue. -/
structure Label where
  sessionId : Nat
  number : Nat
  deriving Repr, DecidableEq

/-- A frame on the link, with the command it belongs to. -/
structure Tagged where
  frame : List UInt8
  label : Label

/-- A command that was issued: its sequence number, and what went onto the link for it. -/
structure Command where
  seqNum : UInt16
  frames : List (List UInt8)

/-- A command in the hands of the application, with the header it has got for it. -/
structure Delivery where
  label : Label
  header : MessageHeader

/-- An acknowledgement that the application has sent with `SendACK`, and what went onto the link. -/
structure Answer where
  label : Label
  frames : List (List UInt8)

/-- A command session that `ContainerHandler` has freed: the command it kept, and the command that
the acknowledgement was sent for. -/
structure Acceptance where
  sessionId : Nat
  stored : Option Nat
  acknowledged : Label
  deriving Repr, DecidableEq

/-- The two protocol objects, the frames on the way in either direction, and what has happened so
far: the commands issued, by their number, and the last one of each session at the sender, and at
the receiver; the commands handed over, those that the application has not answered yet, and the
answers; the acknowledgements that freed a session; and the commands that `AutoRepeatSendCheck` has
sent again or given up. -/
structure Link where
  sender : Protocol
  receiver : Protocol
  commands : List Tagged
  acks : List Tagged
  issued : List Command
  stored : Nat → Option Nat
  lastDelivered : Nat → Nat
  delivered : List Label
  inbox : List Delivery
  answers : List Answer
  accepted : List Acceptance
  repeated : List Label

namespace Protocol

/-- The frames handed to the serial device have gone onto the link. -/
def sentAll (p : Protocol) : Protocol :=
  { p with deviceOut := [] }

theorem sentAll_of_nil {p : Protocol} (h : p.deviceOut = []) : p.sentAll = p := by
  rw [sentAll, ← h]

theorem Owned.sentAll {p : Protocol} {written : Owner → List UInt8} (h : p.Owned written) :
    p.sentAll.Owned written :=
  h.frame (MemoryPool.Preserved.refl h.sized) (fun _ => ⟨rfl, rfl, rfl⟩) fun _ _ => ⟨rfl, rfl⟩

/-- The frames handed to the serial device, with their label. -/
def outgoing (p : Protocol) (label : Label) : List Tagged :=
  p.deviceOut.map fun frame => { frame := frame, label := label }

end Protocol

/-- The calls of the two objects, and what the link does. -/
inductive LinkEvent where
  | issue (cmdSet cmdId : UInt8) (data : List UInt8) (ackTimeout retryTime now : Int)
  | retry (i : Nat) (now : Int)
  | loseCommand (i : Nat)
  | loseAck (i : Nat)
  | deliverCommand
  | respond (i : Nat) (ack : List UInt8)
  | deliverAck

namespace Link

/-- Two objects after `Init` and nothing on the link. -/
def start (p q : Protocol) (table table' : Nat → MemoryBlock) (memory memory' : ByteMemory) :
    Link where
  sender := { p with device := DEVICE, deviceOut := [] }.init table memory
  receiver := { q with device := DEVICE, deviceOut := [] }.init table' memory'
  commands := []
  acks := []
  issued := []
  stored := fun _ => none
  lastDelivered := fun _ => 0
  delivered := []
  inbox := []
  answers := []
  accepted := []
  repeated := []

/-- `SendCMD` in the automatic mode, to `DEVICE`. -/
def issue (s : Link) (cmdSet cmdId : UInt8) (data : List UInt8) (ackTimeout retryTime now : Int) :
    Option Link :=
  (s.sender.sendCMD cmdSet cmdId DEVICE data .CMD_SESSION_AUTO ackTimeout retryTime now).map
    fun out =>
      match out.2 with
      | none => { s with sender := out.1 }
      | some mh =>
          { s with
            sender := out.1.sentAll
            commands := s.commands ++ out.1.outgoing ⟨mh.sessionId, s.issued.length⟩
            issued := s.issued ++ [⟨mh.seqNum, out.1.deviceOut⟩]
            stored := Function.update s.stored mh.sessionId (some s.issued.length) }

/-- One iteration of `AutoRepeatSendCheck`. -/
def retry (s : Link) (i : Nat) (now : Int) : Option Link :=
  (s.sender.autoRepeatSendCheck i now).map fun p =>
    { s with
      sender := p.sentAll
      commands := s.commands ++ p.outgoing ⟨i, (s.stored i).getD 0⟩
      repeated :=
        if s.sender.timedOut i now then s.repeated ++ [⟨i, (s.stored i).getD 0⟩]
        else s.repeated }

/-- The first command on the link arrives at the receiver. An acknowledgement that it sends again
is that of the command it has handed over last. -/
def deliverCommand (s : Link) : Option Link :=
  match s.commands with
  | [] => none
  | t :: rest =>
      (s.receiver.deliver t.frame).map fun out =>
        let s := { s with
          receiver := out.1.sentAll
          commands := rest
          acks := s.acks ++
            out.1.outgoing ⟨t.label.sessionId, s.lastDelivered t.label.sessionId⟩ }
        if out.2 then
          { s with
            lastDelivered := Function.update s.lastDelivered t.label.sessionId t.label.number
            delivered := s.delivered ++ [t.label]
            inbox := s.inbox ++ [⟨t.label, out.1.recvContainer.messageHeader⟩] }
        else s

/-- The application answers one of the commands it has got: `SendACK` with the session and sequence
number of its header. -/
def respond (s : Link) (i : Nat) (ack : List UInt8) : Option Link :=
  match s.inbox[i]? with
  | none => none
  | some d =>
      (s.receiver.sendACK d.header.sessionId d.header.seqNum DEVICE ack).map fun out =>
        if out.2 then
          { s with
            receiver := out.1.sentAll
            acks := s.acks ++ out.1.outgoing d.label
            inbox := s.inbox.eraseIdx i
            answers := s.answers ++ [⟨d.label, out.1.deviceOut⟩] }
        else { s with receiver := out.1 }

/-- The first acknowledgement on the link arrives at the sender. -/
def deliverAck (s : Link) : Option Link :=
  match s.acks with
  | [] => none
  | t :: rest =>
      (s.sender.deliver t.frame).map fun out =>
        let k := (Header.decode (ByteMemory.ofList t.frame) 0).sessionId
        let s := { s with sender := out.1.sentAll, acks := rest }
        if out.2 then { s with accepted := s.accepted ++ [⟨k, s.stored k, t.label⟩] } else s

/-- One step. Lengths are 16-bit values. -/
def step (s : Link) : LinkEvent → Option Link
  | .issue cmdSet cmdId data ackTimeout retryTime now =>
      if data.length < 2 ^ 16 then s.issue cmdSet cmdId data ackTimeout retryTime now else none
  | .retry i now => if 1 ≤ i ∧ i < SESSION_TABLE_NUM then s.retry i now else none
  | .loseCommand i => some { s with commands := s.commands.eraseIdx i }
  | .loseAck i => some { s with acks := s.acks.eraseIdx i }
  | .deliverCommand => s.deliverCommand
  | .respond i ack => if ack.length < 2 ^ 16 then s.respond i ack else none
  | .deliverAck => s.deliverAck

/-! ## One session -/

/-- The numbers of the labels of session `k`. -/
def numbers (k : Nat) (labels : List Label) : List Nat :=
  (labels.filter fun l => l.sessionId = k).map Label.number

/-- The command with number `n`. -/
def command (s : Link) (n : Nat) : Command :=
  s.issued.getD n ⟨0, []⟩

/-- The sequence number of a command. -/
def seqNum (s : Link) (n : Nat) : UInt16 :=
  (s.command n).seqNum

/-- What the receiver is doing with session `k`. -/
def status (s : Link) (k : Nat) : RepeatLink.Status :=
  match (s.receiver.ackSessionTable 0 (k - 1)).sessionStatus with
  | .ACK_SESSION_IDLE => .idle
  | .ACK_SESSION_PROCESS => .processing (s.lastDelivered k)
  | .ACK_SESSION_USING => .answered (s.lastDelivered k)

/-- The view of session `k`. -/
def session (s : Link) (k : Nat) : RepeatLink.State UInt16 where
  next := s.issued.length
  seq := s.seqNum
  stored := s.stored k
  waiting := (s.sender.cmdSessionTable k).usageFlag
  commands := numbers k (s.commands.map Tagged.label)
  acks := numbers k (s.acks.map Tagged.label)
  status := s.status k
  delivered := numbers k s.delivered
  answers := numbers k (s.answers.map Answer.label)
  accepted := (s.accepted.filter fun a => a.sessionId = k).map fun a =>
    (a.stored.getD 0, a.acknowledged.number)
  repeated := numbers k s.repeated

end Link

end RoboRTS.Sdk
