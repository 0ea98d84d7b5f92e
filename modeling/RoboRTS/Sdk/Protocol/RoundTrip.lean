import RoboRTS.Sdk.Protocol.Ownership

/-!
# Frames survive the round trip

A package whose header says its length is accepted by the stream parser at its last byte
(`feed_package`), and `ContainerHandler` reads back what the send functions packed.
`frame_round_trip` puts the two together for commands and acknowledgements.
-/

namespace RoboRTS.Sdk

/-! ## One frame through the parser -/

section Feed

variable {σ : Type*} {device : UInt8} {h : List UInt8 → Nat → σ → Option (σ × Bool)}
variable {x : ByteMemory}

/-- Scanning a stream that is one accepted frame, from any byte of it on. -/
theorem Scan.scanFeed_frame (hacc : Scan.accepted device x 0 = true) (app : σ) :
    ∀ (count n : Nat), n + (count + 1) = Scan.len x 0 →
      Scan.scanFeed device h x n (count + 1) 0 app =
        (h (x.read 0 (Scan.len x 0)) 0 app).map fun out =>
          List.replicate count (app, false) ++ [(out.1, out.2)] := by
  have hdue := Scan.due_of_accepted hacc
  rw [Nat.zero_add] at hdue
  intro count
  induction count with
  | zero =>
      intro n hn
      have hlater := Scan.resume_lt_due_next device x 0
      rw [Scan.resume_of_accepted hacc, hdue] at hlater
      rw [Scan.scanFeed, Scan.scan_of_le (by omega), Scan.decideWindow_of_accepted hacc, hdue, hn,
        Nat.sub_self]
      cases h (x.read 0 (Scan.len x 0)) 0 app with
      | none => rfl
      | some out =>
          rw [Option.bind_some, Scan.scan_of_lt hlater, Option.bind_some, Scan.scanFeed]
          simp
  | succ count ih =>
      intro n hn
      rw [Scan.scanFeed, Scan.scan_of_lt (by omega), Option.bind_some, ih (n + 1) (by omega)]
      cases h (x.read 0 (Scan.len x 0)) 0 app with
      | none => rfl
      | some out => rfl

/-- An accepted frame makes `ByteHandler` answer at its last byte, with the handler's answer. -/
theorem feed_frame {frame : List UInt8} (buff : ByteMemory) (app : σ)
    (hacc : Scan.accepted device (ByteMemory.ofList frame) 0 = true)
    (hlen : Scan.len (ByteMemory.ofList frame) 0 = frame.length) :
    (feed device (onFrame h) frame (RecvStream.init buff) app).map
        (List.map fun p => (p.app, p.isFrame)) =
      (h frame 0 app).map fun out =>
        List.replicate (frame.length - 1) (app, false) ++ [(out.1, out.2)] := by
  have hl := (Scan.accepted_iff.mp hacc).2.1
  simp only [HEADER_LEN] at hl
  rw [feed_scan (x := ByteMemory.ofList frame) frame app
    (fun i hi => by rw [Nat.zero_add]; exact ByteMemory.ofList_apply frame hi)
    (ready_init device _ buff)]
  have hscan := Scan.scanFeed_frame (h := h) hacc app (frame.length - 1) 0 (by omega)
  rw [hlen, ByteMemory.read_ofList, Nat.sub_add_cancel (by omega)] at hscan
  exact hscan

/-- The answers of `ByteHandler` along a frame that the handler takes. -/
theorem feed_answers {frame : List UInt8} (buff : ByteMemory) {app : σ} {out : σ × Bool}
    (hacc : Scan.accepted device (ByteMemory.ofList frame) 0 = true)
    (hlen : Scan.len (ByteMemory.ofList frame) 0 = frame.length)
    (hout : h frame 0 app = some out) :
    ∃ results last, feed device (onFrame h) frame (RecvStream.init buff) app =
        some (results ++ [last]) ∧
      results.map Parsed.isFrame = List.replicate (frame.length - 1) false ∧
      last.isFrame = out.2 ∧ last.app = out.1 := by
  have hfeed := feed_frame (h := h) buff app hacc hlen
  rw [hout, Option.map_some, Option.map_eq_some_iff] at hfeed
  obtain ⟨all, hall, hmap⟩ := hfeed
  obtain ⟨results, tail, rfl, hinit, htail⟩ := List.map_eq_append_iff.mp hmap
  obtain ⟨last, rfl, hlast⟩ := List.map_eq_singleton_iff.mp htail
  refine ⟨results, last, hall, ?_, (Prod.mk.inj hlast).2, (Prod.mk.inj hlast).1⟩
  have := congrArg (List.map Prod.snd) hinit
  simpa [List.map_map, Function.comp_def] using this

end Feed

/-! ## Packages are valid frames -/

/-- A header the send functions fill in, with the length of its package. -/
structure Header.Sendable (h : Header) (device : UInt8) (body : List UInt8) : Prop where
  sof : h.sof = SOF
  version : h.version = VERSION
  length : h.length = (h.package body).length
  length_lt : h.length < 1024
  sessionId : h.sessionId < 32
  reserved0 : h.reserved0 = 0
  reserved1 : h.reserved1 = 0
  receiver : h.receiver = device ∨ h.receiver = 0xFF

theorem Header.Sendable.stored_eq {h : Header} {device : UInt8} {body : List UInt8}
    (hs : h.Sendable device body) : h.stored = h :=
  Header.stored_eq ⟨hs.length_lt, by rw [hs.version]; decide, hs.sessionId,
    by rw [hs.reserved0]; decide, by rw [hs.reserved1]; decide⟩

/-- The header of a sendable package reads back. -/
theorem Header.Sendable.decode_eq {h : Header} {device : UInt8} {body : List UInt8}
    (hs : h.Sendable device body) :
    Header.decode (ByteMemory.ofList (h.package body)) 0 = h := by
  rw [Header.decode_package, hs.stored_eq]

/-- The parser accepts a sendable package. -/
theorem Header.Sendable.accepted {h : Header} {device : UInt8} {body : List UInt8}
    (hs : h.Sendable device body) :
    Scan.accepted device (ByteMemory.ofList (h.package body)) 0 = true ∧
      Scan.len (ByteMemory.ofList (h.package body)) 0 = (h.package body).length := by
  have hlen : Scan.len (ByteMemory.ofList (h.package body)) 0 = (h.package body).length := by
    rw [Scan.len, hs.decode_eq, hs.length]
  have hpre := Header.frame_prefix_package h body
  have h12 : 12 ≤ (h.package body).length := hpre.length_le
  have hhead : (ByteMemory.ofList (h.package body)).read 0 HEADER_LEN = h.frame := by
    rw [← ByteMemory.take_read _ 0 (show HEADER_LEN ≤ (h.package body).length from h12),
      ByteMemory.read_ofList]
    exact (List.prefix_iff_eq_take.mp hpre).symm
  refine ⟨Scan.accepted_iff.mpr ⟨headerValid_iff.mpr ?_, by rw [hlen]; exact h12, ?_⟩, hlen⟩
  · rw [hs.decode_eq, hhead]
    refine ⟨hs.sof, hs.version, ?_, hs.reserved0, hs.reserved1, hs.receiver, ?_⟩
    · have := hs.length_lt
      simp only [MAX_PACK_SIZE]
      omega
    · simpa [crcHeadCheck] using Header.crcHeadCheck_frame h
  · rw [hlen, ByteMemory.read_ofList]
    by_cases hne : body = []
    · left
      rw [hne, Header.package_nil, Header.length_frame]
      rfl
    · exact Or.inr (Header.crcTailCheck_package h hne)

/-- A package shorter than 1024 bytes is sent whole. -/
theorem Header.Sendable.wire_eq {h : Header} {device : UInt8} {body : List UInt8}
    (hs : h.Sendable device body) : Protocol.wire (h.package body) = h.package body := by
  rw [Protocol.wire, hs.decode_eq, hs.length, List.take_length]

/-! ## The container -/

namespace Protocol

/-- The container holds a command: everything its frame says. -/
structure CommandContainer (c : RecvContainer) (cmdSet cmdId : UInt8) (mh : MessageHeader)
    (sender receiver : UInt8) (data : List UInt8) : Prop where
  cmdSet : c.commandInfo.cmdSet = cmdSet
  cmdId : c.commandInfo.cmdId = cmdId
  messageHeader : c.messageHeader = mh
  sender : c.commandInfo.sender = sender
  receiver : c.commandInfo.receiver = receiver
  length : c.commandInfo.length.toNat = data.length
  payload : c.messageData.read 0 data.length = data

/-- The container holds an acknowledgement of a command with the given set and id. -/
structure AckContainer (c : RecvContainer) (cmdSet cmdId : UInt8) (sessionId : Nat)
    (seqNum : UInt16) (sender receiver : UInt8) (ack : List UInt8) : Prop where
  cmdSet : c.commandInfo.cmdSet = cmdSet
  cmdId : c.commandInfo.cmdId = cmdId
  messageHeader : c.messageHeader = { seqNum := seqNum, sessionId := sessionId, isAck := true }
  sender : c.commandInfo.sender = sender
  receiver : c.commandInfo.receiver = receiver
  length : c.commandInfo.length.toNat = ack.length
  payload : c.messageData.read 0 ack.length = ack

variable {p q : Protocol}

/-- The body of a package is behind its header. -/
theorem drop_package (h : Header) {body : List UInt8} (hne : body ≠ []) :
    (h.package body).drop 12 = body ++ bytes32 (crc32Calc (h.frame ++ body)) := by
  rw [Header.package_of_ne_nil h hne, List.append_assoc, List.drop_left' (Header.length_frame h)]

/-- `ContainerHandler` reads a command back. -/
theorem fillCommand_package {h : Header} {device cmdSet cmdId : UInt8} {data : List UInt8}
    (hs : h.Sendable device ([cmdId, cmdSet] ++ data)) (needAck : Bool) :
    ∃ c, q.fillCommand (h.package ([cmdId, cmdSet] ++ data)) needAck =
        some { q with recvContainer := c } ∧ c.commandInfo.needAck = needAck ∧
      CommandContainer c cmdSet cmdId
        { seqNum := h.seqNum, sessionId := h.sessionId, isAck := false } h.sender h.receiver data := by
  have hne : [cmdId, cmdSet] ++ data ≠ [] := by simp
  have hdrop := drop_package h hne
  have hlen := h.length_package hne
  simp only [List.length_append, List.length_cons, List.length_nil] at hlen
  have hl := hs.length
  have hlt := hs.length_lt
  have hget : ∀ i, (h.package ([cmdId, cmdSet] ++ data)).getD (12 + i) 0 =
      ([cmdId, cmdSet] ++ data ++
        bytes32 (crc32Calc (h.frame ++ ([cmdId, cmdSet] ++ data)))).getD i 0 := by
    intro i
    rw [← hdrop]
    simp [List.getD_eq_getElem?_getD, List.getElem?_drop]
  have hpayload : ((h.package ([cmdId, cmdSet] ++ data)).drop (HEADER_LEN + CMD_SET_PREFIX_LEN)).take
      (h.length - (HEADER_LEN + CMD_SET_PREFIX_LEN + CRC_DATA_LEN)) = data := by
    have h14 : (h.package ([cmdId, cmdSet] ++ data)).drop 14 =
        data ++ bytes32 (crc32Calc (h.frame ++ ([cmdId, cmdSet] ++ data))) := by
      rw [show 14 = 12 + 2 from rfl, ← List.drop_drop, hdrop]
      rfl
    rw [show HEADER_LEN + CMD_SET_PREFIX_LEN = 14 from rfl, h14]
    simp only [CRC_DATA_LEN]
    exact List.take_left' (by omega)
  have hover : ¬ h.length < HEADER_LEN + CMD_SET_PREFIX_LEN + CRC_DATA_LEN := by
    simp only [HEADER_LEN, CMD_SET_PREFIX_LEN, CRC_DATA_LEN]
    omega
  rw [fillCommand]
  dsimp only
  rw [hs.decode_eq, if_neg hover, hpayload]
  refine ⟨_, rfl, rfl, hget 1, hget 0, rfl, rfl, rfl, ?_, ByteMemory.read_write_same _ 0 data⟩
  simp only [HEADER_LEN, CMD_SET_PREFIX_LEN, CRC_DATA_LEN]
  rw [UInt16.toNat_ofNat_of_lt' (by simp only [UInt16.size]; omega)]
  omega

/-- `ContainerHandler` reads an acknowledgement back. -/
theorem fillAck_package {h : Header} {device : UInt8} {ack : List UInt8}
    (hs : h.Sendable device ack) (hne : ack ≠ []) (k : Nat) :
    ∃ c, q.fillAck (h.package ack) k = some { q with recvContainer := c } ∧
      AckContainer c (q.cmdSessionTable k).cmdSet (q.cmdSessionTable k).cmdId h.sessionId h.seqNum
        h.sender h.receiver ack := by
  have hlen := h.length_package hne
  have hl := hs.length
  have hlt := hs.length_lt
  have hpayload : ((h.package ack).drop HEADER_LEN).take (h.length - (HEADER_LEN + CRC_DATA_LEN)) =
      ack := by
    rw [show HEADER_LEN = 12 from rfl, drop_package h hne]
    simp only [CRC_DATA_LEN]
    exact List.take_left' (by omega)
  have hover : ¬ h.length < HEADER_LEN + CRC_DATA_LEN := by
    simp only [HEADER_LEN, CRC_DATA_LEN]
    omega
  rw [fillAck]
  dsimp only
  rw [hs.decode_eq, if_neg hover, hpayload]
  refine ⟨_, rfl, rfl, rfl, rfl, rfl, rfl, ?_, ByteMemory.read_write_same _ 0 ack⟩
  simp only [HEADER_LEN, CRC_DATA_LEN]
  rw [UInt16.toNat_ofNat_of_lt' (by simp only [UInt16.size]; omega)]
  omega

/-! ## Handling a package -/

/-- The ack session would deliver a command with this sequence number: it is idle, or it keeps
the acknowledgement of another one. -/
def WouldDeliver (q : Protocol) (receiver sessionId : Nat) (seqNum : UInt16) : Prop :=
  (q.ackSessionTable receiver (sessionId - 1)).sessionStatus = .ACK_SESSION_IDLE ∨
    (q.ackSessionTable receiver (sessionId - 1)).sessionStatus = .ACK_SESSION_USING ∧
      ∃ b, (q.ackSessionTable receiver (sessionId - 1)).memoryBlockPtr = some b ∧
        (Header.decode q.memoryPool.memory (q.blockPtr b)).seqNum ≠ seqNum

/-- A command session that is in use: its flag is set, and the package in its block is one of
this session, which `ContainerHandler` checks. -/
def CmdSessionInUse (q : Protocol) (k : Nat) : Prop :=
  (q.cmdSessionTable k).usageFlag = true ∧
    ∃ b, (q.cmdSessionTable k).memoryBlockPtr = some b ∧
      (Header.decode q.memoryPool.memory (q.blockPtr b)).sessionId = k

/-- A command on session 0 is delivered. -/
theorem containerHandler_session0 {h : Header} {device cmdSet cmdId : UInt8} {data : List UInt8}
    (hs : h.Sendable device ([cmdId, cmdSet] ++ data)) (hack : h.isAck = false)
    (hk : h.sessionId = 0) :
    ∃ c, q.containerHandler (h.package ([cmdId, cmdSet] ++ data)) =
        some ({ q with recvContainer := c }, true) ∧ c.commandInfo.needAck = false ∧
      CommandContainer c cmdSet cmdId { seqNum := h.seqNum, sessionId := h.sessionId, isAck := false }
        h.sender h.receiver data := by
  obtain ⟨c, hc, hcontainer⟩ := fillCommand_package (q := q) hs false
  refine ⟨c, ?_, hcontainer⟩
  rw [containerHandler_eq, hs.decode_eq, hack, if_neg (by decide), handleCommand,
    handleCommandWith]
  dsimp only
  rw [hs.decode_eq, if_pos hk, hc]
  rfl

/-- A command on another session is delivered when its ack session allows it. -/
theorem containerHandler_delivers {h : Header} {device cmdSet cmdId : UInt8} {data : List UInt8}
    (hs : h.Sendable device ([cmdId, cmdSet] ++ data)) (hack : h.isAck = false)
    (hk : 2 ≤ h.sessionId) (hr : h.receiver.toNat < 6)
    (hwould : q.WouldDeliver h.receiver.toNat h.sessionId h.seqNum) :
    ∃ c, q.containerHandler (h.package ([cmdId, cmdSet] ++ data)) =
        some ({ q.processing h.receiver.toNat h.sessionId with recvContainer := c }, true) ∧
      c.commandInfo.needAck = true ∧
      CommandContainer c cmdSet cmdId { seqNum := h.seqNum, sessionId := h.sessionId, isAck := false }
        h.sender h.receiver data := by
  obtain ⟨c, hc, hcontainer⟩ :=
    fillCommand_package (q := q.processing h.receiver.toNat h.sessionId) hs true
  refine ⟨c, ?_, hcontainer⟩
  have h31 := hs.sessionId
  rw [containerHandler_eq, hs.decode_eq, hack, if_neg (by decide), handleCommand,
    handleCommandWith]
  dsimp only
  rw [hs.decode_eq, if_neg (by omega), if_neg (by omega),
    if_pos (show h.receiver.toNat < RECEIVER_NUM from hr)]
  rw [processing] at hc
  rcases hwould with hidle | ⟨husing, b, hb, hseq⟩
  · rw [hidle]
    dsimp only
    rw [if_pos (by omega), hc]
    rfl
  · rw [husing]
    dsimp only
    rw [hb]
    dsimp only
    rw [if_neg hseq, ← hb, hc]
    rfl

/-- An acknowledgement of a session in use is delivered and frees the session. -/
theorem containerHandler_acknowledges {h : Header} {device : UInt8} {ack : List UInt8}
    (hs : h.Sendable device ack) (hne : ack ≠ []) (hack : h.isAck = true)
    (hk : 1 ≤ h.sessionId) (huse : q.CmdSessionInUse h.sessionId) :
    ∃ q', q.containerHandler (h.package ack) = some (q', true) ∧
      (q'.cmdSessionTable h.sessionId).usageFlag = false ∧
      AckContainer q'.recvContainer (q.cmdSessionTable h.sessionId).cmdSet
        (q.cmdSessionTable h.sessionId).cmdId h.sessionId h.seqNum h.sender h.receiver ack := by
  obtain ⟨c, hc, hcontainer⟩ := fillAck_package (q := q) hs hne h.sessionId
  obtain ⟨hflag, b, hb, hsession⟩ := huse
  have h31 := hs.sessionId
  refine ⟨({ q with recvContainer := c } : Protocol).freeCMDSession h.sessionId, ?_, ?_, ?_⟩
  · rw [containerHandler_eq, hs.decode_eq, hack, if_pos rfl, handleAck, handleAckWith]
    dsimp only
    rw [hs.decode_eq, if_pos ⟨hk, h31⟩, if_pos hflag, hb]
    dsimp only
    rw [if_pos hsession, hc]
    rfl
  · rw [freeCMDSession_eq (p := { q with recvContainer := c }) hflag hb]
    simp only [Function.update_self]
  · rw [freeCMDSession_eq (p := { q with recvContainer := c }) hflag hb]
    exact hcontainer

/-! ## The round trip -/

/-- The states a protocol object can be in. -/
def Reachable (p : Protocol) : Prop :=
  ∃ (p₀ : Protocol) (table : Nat → MemoryBlock) (memory : ByteMemory)
    (written : Owner → List UInt8) (events : List SessionEvent) (written' : Owner → List UInt8),
    StateMachine.run sessionStep (p₀.init table memory, written) events = some (p, written')

theorem Reachable.wellFormed (hp : p.Reachable) : p.WellFormed := by
  obtain ⟨p₀, table, memory, written, events, written', hrun⟩ := hp
  exact run_wellFormed p₀ table memory written events hrun

/-- Feeding `frame` to a receiver `q` in the initial stream state answers true at the last byte
only, and leaves the receiver in a state with `Post`. -/
def Decodes (q : Protocol) (frame : List UInt8) (Post : Protocol → Prop) : Prop :=
  ∀ buff, ∃ results last,
    feed q.device (onFrame onStream) frame (RecvStream.init buff) q = some (results ++ [last]) ∧
      results.map Parsed.isFrame = List.replicate (frame.length - 1) false ∧
      last.isFrame = true ∧ Post last.app

theorem decodes_of_handler {h : Header} {body : List UInt8} {q' : Protocol} {P : Protocol → Prop}
    (hs : h.Sendable q.device body)
    (hhandle : q.containerHandler (h.package body) = some (q', true)) (hpost : P q') :
    q.Decodes (h.package body) P := by
  intro buff
  obtain ⟨hacc, hlen⟩ := hs.accepted
  obtain ⟨results, last, hfeed, hinit, hflag, happ⟩ :=
    feed_answers (h := onStream) buff hacc hlen hhandle
  exact ⟨results, last, hfeed, hinit, hflag, happ ▸ hpost⟩

/-- The header of a command fits the receiver it is addressed to. -/
theorem cmdHeader_sendable {i : Nat} (hi : i < 32) (seqNum : UInt16) {receiver device : UInt8}
    (hr : receiver = device ∨ receiver = 0xFF) (cmdSet cmdId : UInt8) {data : List UInt8}
    (hlen : data.length ≤ 1005) :
    (p.packHeader (18 + data.length) i false receiver seqNum).Sendable device
      ([cmdId, cmdSet] ++ data) := by
  have hl := length_cmdPackage (p := p) i seqNum cmdSet cmdId receiver data
  exact ⟨rfl, rfl, hl.symm, by simp only [packHeader]; omega, hi, rfl, rfl, hr⟩

/-- The header of an acknowledgement fits the receiver it is addressed to. -/
theorem ackHeader_sendable {i : Nat} (hi : i < 32) (seqNum : UInt16) {receiver device : UInt8}
    (hr : receiver = device ∨ receiver = 0xFF) {ack : List UInt8} (hlen : ack.length ≤ 1007) :
    (p.packHeader (ackPackLength ack) i true receiver seqNum).Sendable device ack := by
  have hl := length_ackPackage (p := p) i seqNum receiver (show ack.length < 4096 by omega)
  have hlt : ackPackLength ack < 1024 := by
    simp only [ackPackLength, HEADER_LEN, CRC_DATA_LEN]
    split <;> omega
  exact ⟨rfl, rfl, hl.symm, hlt, hi, rfl, rfl, hr⟩

/-- The frame round trip. What `SendCMD` sends on session 0, or on a session of the automatic
mode whose ack session would deliver it, decodes on the addressed side to a container with
everything that was sent; and what `SendACK` sends on session `k` decodes, on a side whose command
session `k` is in use, to the acknowledgement of that session's command, and frees the session. -/
theorem frame_round_trip :
    (∀ (p p' q : Protocol) (cmdSet cmdId receiver : UInt8) (data : List UInt8)
        (mode : CMDSessionMode) (ackTimeout retryTime now : Int) (mh : MessageHeader),
      p.Reachable → 1 ≤ data.length → data.length ≤ 1005 →
      p.sendCMD cmdSet cmdId receiver data mode ackTimeout retryTime now = some (p', some mh) →
      (mode = .CMD_SESSION_0 ∧ (receiver = q.device ∨ receiver = 0xFF) ∨
        mode = .CMD_SESSION_AUTO ∧ receiver = q.device ∧ q.device.toNat < RECEIVER_NUM ∧
          q.WouldDeliver receiver.toNat mh.sessionId mh.seqNum) →
      ∃ frame, p'.deviceOut = p.deviceOut ++ [frame] ∧
        q.Decodes frame fun q' =>
          CommandContainer q'.recvContainer cmdSet cmdId mh p.device receiver data) ∧
    (∀ (p p' q : Protocol) (k : Nat) (seqNum : UInt16) (ack : List UInt8),
      p.Reachable → 1 ≤ ack.length → ack.length ≤ 1007 →
      p.sendACK k seqNum q.device ack = some (p', true) → q.CmdSessionInUse k →
      ∃ frame, p'.deviceOut = p.deviceOut ++ [frame] ∧
        q.Decodes frame fun q' =>
          AckContainer q'.recvContainer (q.cmdSessionTable k).cmdSet (q.cmdSessionTable k).cmdId k
            seqNum p.device q.device ack ∧
          (q'.cmdSessionTable k).usageFlag = false) := by
  constructor
  · intro p p' q cmdSet cmdId receiver data mode ackTimeout retryTime now mh hp hpos hle hsend hmode
    rcases sendCMD_cases hp.wellFormed.sized hp.wellFormed.cmd_id hsend with
      ⟨hnone, -⟩ | ⟨i, b, pool, hi, -, hout, rfl⟩
    · cases hnone
    cases hout
    obtain ⟨-, hlt, hrange⟩ := freeSession_unused hi
    have hr : receiver = q.device ∨ receiver = 0xFF := by
      rcases hmode with ⟨-, hr⟩ | ⟨-, hr, -⟩
      · exact hr
      · exact Or.inl hr
    have hs := cmdHeader_sendable (p := p) hlt (p.cmdSeqNum mode i) hr cmdSet cmdId hle
    refine ⟨p.cmdPackage i (p.cmdSeqNum mode i) cmdSet cmdId receiver data, ?_, ?_⟩
    · rw [afterSendCMD, cmdPackage, hs.wire_eq]
    rcases hmode with ⟨rfl, -⟩ | ⟨rfl, rfl, hdevice, hwould⟩
    · obtain ⟨c, hc, -, hcontainer⟩ := containerHandler_session0 (q := q) hs rfl hrange
      exact decodes_of_handler hs hc hcontainer
    · obtain ⟨c, hc, -, hcontainer⟩ := containerHandler_delivers (q := q) hs rfl hrange hdevice hwould
      exact decodes_of_handler hs hc hcontainer
  · intro p p' q k seqNum ack hp hpos hle hsend huse
    rcases sendACK_cases hp.wellFormed.sized hp.wellFormed.ack_id hsend with
      ⟨hfalse, -⟩ | ⟨hfalse, -⟩ | ⟨-, hk, hk31, -, -, b, pool, -, rfl⟩
    · cases hfalse
    · cases hfalse
    have hs := ackHeader_sendable (p := p) (show k < 32 by omega) seqNum
      (show q.device = q.device ∨ q.device = 0xFF from Or.inl rfl) hle
    have hne : ack ≠ [] := fun h0 => by rw [h0] at hpos; exact absurd hpos (by decide)
    refine ⟨p.ackPackage k seqNum q.device ack, ?_, ?_⟩
    · rw [afterSendACK, ackPackage, hs.wire_eq]
    · obtain ⟨q', hq', hfree, hcontainer⟩ :=
        containerHandler_acknowledges (q := q) hs hne rfl hk huse
      exact decodes_of_handler hs hq' ⟨hcontainer, hfree⟩

/-- A fresh object sends a command on session 2 and an acknowledgement on session 3. -/
theorem frame_round_trip_session2 :
    (∃ p' mh frame, ((default : Protocol).init default default).sendCMD 1 2 0 [7] .CMD_SESSION_AUTO
        50 5 0 = some (p', some mh) ∧ p'.deviceOut = [frame] ∧
      ((default : Protocol).init default default).Decodes frame fun q' =>
        CommandContainer q'.recvContainer 1 2 mh 0 0 [7]) ∧
    ∃ p' q frame, ((default : Protocol).init default default).sendACK 2 9 0 [8] = some (p', true) ∧
      p'.deviceOut = [frame] ∧ Decodes q frame fun q' => (q'.cmdSessionTable 2).usageFlag = false := by
  have hfresh : ((default : Protocol).init default default).Reachable :=
    ⟨default, default, default, default, [], default, rfl⟩
  have hsend : ((((default : Protocol).init default default).sendCMD 1 2 0 [7] .CMD_SESSION_AUTO
      50 5 0).map fun out => (out.2, (out.1.cmdSessionTable 2).usageFlag,
        (out.1.cmdSessionTable 2).memoryBlockPtr.map fun b =>
          (Header.decode out.1.memoryPool.memory (out.1.blockPtr b)).sessionId)) =
      some (some { seqNum := 1, sessionId := 2, isAck := false }, true, some 2) := by decide +kernel
  have hack : ((((default : Protocol).init default default).sendACK 2 9 0 [8]).map Prod.snd) =
      some true := by decide +kernel
  rw [Option.map_eq_some_iff] at hsend hack
  obtain ⟨⟨p₁, out⟩, hp₁, hout⟩ := hsend
  obtain ⟨⟨p₂, ok⟩, hp₂, hok⟩ := hack
  simp only [Prod.mk.injEq] at hout hok
  obtain ⟨rfl, hflag, hblock⟩ := hout
  subst hok
  constructor
  · obtain ⟨frame, hframe, hdecodes⟩ := frame_round_trip.1 _ p₁
      ((default : Protocol).init default default) 1 2 0 [7] .CMD_SESSION_AUTO 50 5 0 _ hfresh
      (by decide) (by decide) hp₁ (Or.inr ⟨rfl, rfl, by decide, Or.inl rfl⟩)
    exact ⟨p₁, _, frame, hp₁, hframe, hdecodes⟩
  · rw [Option.map_eq_some_iff] at hblock
    obtain ⟨b, hb, hsession⟩ := hblock
    have hdevice : p₁.device = 0 := by
      have := congrArg (Option.map fun out => out.1.device) hp₁
      exact (Option.some.inj (this.symm.trans (by decide +kernel :
        _ = some (0 : UInt8))))
    obtain ⟨frame, hframe, hdecodes⟩ := frame_round_trip.2 _ p₂ p₁ 2 9 [8] hfresh
      (by decide) (by decide) (by rw [hdevice]; exact hp₂) ⟨hflag, b, hb, hsession⟩
    refine ⟨p₂, p₁, frame, hp₂, hframe, fun buff => ?_⟩
    obtain ⟨results, last, h1, h2, h3, h4⟩ := hdecodes buff
    exact ⟨results, last, h1, h2, h3, h4.2⟩

end Protocol

end RoboRTS.Sdk
