import RoboRTS.Lib.IndexedMachine
import RoboRTS.Sdk.Protocol.Progress

/-!
# Commands from several senders

The ack sessions are indexed by the receiver of a command, which is always the local device, so the
commands of different senders meet in one row. Each ack session by itself is a small machine
(`AckEntry.next`), and the protocol is a table of them as long as the pool has room for every
acknowledgement (`run_answers`). What a sender's commands meet is then independent of the other
senders as long as they use other sessions (`run_isolated`).
-/

namespace RoboRTS.Sdk

open Protocol

/-- A command arrives, or the application acknowledges a command of the sender `source`. -/
inductive SenderEvent where
  | command (frame : List UInt8)
  | ack (source : UInt8) (sessionId : Nat) (seqNum : UInt16) (receiver : UInt8) (ack : List UInt8)
  deriving DecidableEq

namespace SenderEvent

/-- The sender whose command an event is about. -/
def sender : SenderEvent → UInt8
  | .command frame => (Header.decode (ByteMemory.ofList frame) 0).sender
  | .ack source .. => source

/-- The ack session that an event uses: its row and its session id. -/
def entry : SenderEvent → Nat × Nat
  | .command frame =>
      ((Header.decode (ByteMemory.ofList frame) 0).receiver.toNat,
        (Header.decode (ByteMemory.ofList frame) 0).sessionId)
  | .ack _ sessionId _ receiver _ => (receiver.toNat, sessionId)

end SenderEvent

/-- What happens to a command, and what `SendACK` returns. -/
inductive Response where
  | delivered
  | ignored
  | answered (package : List UInt8)
  | sentACK (ret : Bool)
  deriving DecidableEq

/-! ## The protocol -/

/-- The protocol with what happened to every event. -/
structure AckRun where
  protocol : Protocol
  log : List (SenderEvent × Response)

namespace AckRun

/-- After `Init`. -/
def start (p : Protocol) (table : Nat → MemoryBlock) (memory : ByteMemory) : AckRun where
  protocol := p.init table memory
  log := []

/-- What happened to a command: `ContainerHandler` returns true, or it sends a package, or it does
nothing. -/
def handled (p : Protocol) : Protocol × Bool → Response
  | (_, true) => .delivered
  | (p', false) =>
      match p'.deviceOut.drop p.deviceOut.length with
      | [] => .ignored
      | package :: _ => .answered package

/-- One event. Commands use the sessions 1 to 31, and lengths are 16-bit values. -/
def step (w : AckRun) : SenderEvent → Option AckRun
  | .command frame =>
      let header := Header.decode (ByteMemory.ofList frame) 0
      if header.isAck = false ∧ 0 < header.sessionId ∧ header.sessionId ≤ 31 then
        (w.protocol.containerHandler frame).map fun out =>
          ⟨out.1, w.log ++ [(.command frame, handled w.protocol out)]⟩
      else none
  | .ack source sessionId seqNum receiver ack =>
      if ack.length < 2 ^ 16 then
        (w.protocol.sendACK sessionId seqNum receiver ack).map fun out =>
          ⟨out.1, w.log ++ [(.ack source sessionId seqNum receiver ack, .sentACK out.2)]⟩
      else none

/-- The pool has room for an acknowledgement, also in the place of the one before it. -/
def Served (w : AckRun) : SenderEvent → Prop
  | .command _ => True
  | .ack _ sessionId _ receiver ack =>
      0 < sessionId → sessionId ≤ 31 →
        match (w.protocol.ackSessionTable receiver.toNat (sessionId - 1)).memoryBlockPtr with
        | none => w.protocol.memoryPool.HasRoom (ackPackLength ack)
        | some b =>
            ackPackLength ack ≤ w.protocol.memoryPool.maxBlockSize ∧
            w.protocol.memoryPool.usedMemorySize + ackPackLength ack ≤
              w.protocol.memoryPool.memorySize + (w.protocol.memoryPool.memoryTable b).memorySize

instance (w : AckRun) : ∀ e, Decidable (w.Served e)
  | .command _ => inferInstanceAs (Decidable True)
  | .ack _ sessionId _ receiver ack =>
      have : Decidable (match
            (w.protocol.ackSessionTable receiver.toNat (sessionId - 1)).memoryBlockPtr with
          | none => w.protocol.memoryPool.HasRoom (ackPackLength ack)
          | some b =>
              ackPackLength ack ≤ w.protocol.memoryPool.maxBlockSize ∧
              w.protocol.memoryPool.usedMemorySize + ackPackLength ack ≤
                w.protocol.memoryPool.memorySize +
                  (w.protocol.memoryPool.memoryTable b).memorySize) := by
        split <;> infer_instance
      inferInstanceAs (Decidable (0 < sessionId → sessionId ≤ 31 → _))

end AckRun

/-! ## One ack session -/

/-- An ack session by itself: its status and the package it stores. -/
structure AckEntry where
  status : ACKSessionStatus
  stored : Option (List UInt8)

namespace AckEntry

/-- An unused session. -/
def idle : AckEntry := ⟨.ACK_SESSION_IDLE, none⟩

/-- The package of an acknowledgement from a device. -/
def ackPackage (device : UInt8) (sessionId : Nat) (seqNum : UInt16) (receiver : UInt8)
    (ack : List UInt8) : List UInt8 :=
  Protocol.ackPackage { (default : Protocol) with device := device } sessionId seqNum receiver ack

/-- A command is delivered unless it is too short to have a length. -/
def deliver (entry : AckEntry) (frame : List UInt8) : Option (AckEntry × Response) :=
  if (Header.decode (ByteMemory.ofList frame) 0).length <
      HEADER_LEN + CMD_SET_PREFIX_LEN + CRC_DATA_LEN then none
  else some (entry, .delivered)

/-- What one event does to its session. -/
def next (device : UInt8) (entry : AckEntry) : SenderEvent → Option (AckEntry × Response)
  | .command frame =>
      let header := Header.decode (ByteMemory.ofList frame) 0
      if header.isAck = false ∧ 0 < header.sessionId ∧ header.sessionId ≤ 31 then
        if header.receiver.toNat < RECEIVER_NUM then
          match entry.status with
          | .ACK_SESSION_IDLE =>
              deliver (if header.sessionId > 1 then { entry with status := .ACK_SESSION_PROCESS }
                else entry) frame
          | .ACK_SESSION_PROCESS => some (entry, .ignored)
          | .ACK_SESSION_USING =>
              match entry.stored with
              | none => none
              | some package =>
                  if (Header.decode (ByteMemory.ofList package) 0).seqNum = header.seqNum then
                    some (entry, .answered (wire package))
                  else deliver { entry with status := .ACK_SESSION_PROCESS } frame
        else none
      else none
  | .ack _ sessionId seqNum receiver ack =>
      if ack.length < 2 ^ 16 then
        if sessionId = 0 ∨ sessionId > 31 then some (entry, .sentACK false)
        else if receiver.toNat < RECEIVER_NUM ∧ ack.length < 4096 then
          some ({ status := .ACK_SESSION_USING
                  stored := some (ackPackage device sessionId seqNum receiver ack) }, .sentACK true)
        else none
      else none

end AckEntry

/-! ## The protocol as a table of sessions -/

namespace AckRun

/-- The ack sessions of the protocol are the machines of the table. -/
structure Refines (p : Protocol) (written : Owner → List UInt8) (device : UInt8)
    (table : Nat × Nat → AckEntry) : Prop where
  owned : p.Owned written
  device : p.device = device
  status : ∀ r k, 0 < k → k ≤ 31 →
    (p.ackSessionTable r (k - 1)).sessionStatus = (table (r, k)).status
  unused : ∀ r k, 0 < k → k ≤ 31 → (table (r, k)).stored = none →
    (p.ackSessionTable r (k - 1)).memoryBlockPtr = none
  stored : ∀ r k package, 0 < k → k ≤ 31 → (table (r, k)).stored = some package →
    (p.ackSessionTable r (k - 1)).memoryBlockPtr ≠ none ∧ written (.ack r (k - 1)) = package ∧
      ∃ h body, package = Header.package h body ∧ h.length = package.length

variable {p p' : Protocol} {written : Owner → List UInt8} {device : UInt8}
  {table : Nat × Nat → AckEntry} {log : List (SenderEvent × Response)}

theorem start_refines (p : Protocol) (memoryTable : Nat → MemoryBlock) (memory : ByteMemory)
    (written : Owner → List UInt8) :
    Refines (p.init memoryTable memory) written p.device fun _ => .idle where
  owned := init_owned p memoryTable memory written
  device := rfl
  status := fun _ _ _ _ => rfl
  unused := fun _ _ _ _ _ => rfl
  stored := fun _ _ _ _ _ hstored => nomatch hstored

/-- A command changes the status of its session and nothing else in the table. -/
theorem Refines.command (h : Refines p written device table) (howned : p'.Owned written)
    (hdevice : p'.device = p.device) {r k : Nat} (hk : 0 < k) {entry : AckEntry}
    (hstored : entry.stored = (table (r, k)).stored)
    (hother : ∀ r' j, ¬ (r' = r ∧ j = k - 1) → p'.ackSessionTable r' j = p.ackSessionTable r' j)
    (hstatus : (p'.ackSessionTable r (k - 1)).sessionStatus = entry.status)
    (hptr : (p'.ackSessionTable r (k - 1)).memoryBlockPtr =
      (p.ackSessionTable r (k - 1)).memoryBlockPtr) :
    Refines p' written device (Function.update table (r, k) entry) := by
  have hne : ∀ {r' k'}, 0 < k' → (r', k') ≠ (r, k) → ¬ (r' = r ∧ k' - 1 = k - 1) := by
    rintro r' k' hk' hne ⟨rfl, hkk⟩
    exact hne (by rw [show k' = k by omega])
  have hptr' : ∀ r' k', 0 < k' → (p'.ackSessionTable r' (k' - 1)).memoryBlockPtr =
      (p.ackSessionTable r' (k' - 1)).memoryBlockPtr := by
    intro r' k' hk'
    by_cases heq : (r', k') = (r, k)
    · obtain ⟨rfl, rfl⟩ := Prod.mk.inj heq
      exact hptr
    · rw [hother r' (k' - 1) (hne hk' heq)]
  have hstored' : ∀ r' k', (Function.update table (r, k) entry (r', k')).stored =
      (table (r', k')).stored := by
    intro r' k'
    by_cases heq : (r', k') = (r, k)
    · rw [heq, Function.update_self]
      exact hstored
    · rw [Function.update_of_ne heq]
  refine ⟨howned, hdevice.trans h.device, fun r' k' hk' hk31 => ?_, fun r' k' hk' hk31 hnone => ?_,
    fun r' k' package hk' hk31 hsome => ?_⟩
  · by_cases heq : (r', k') = (r, k)
    · obtain ⟨rfl, rfl⟩ := Prod.mk.inj heq
      rw [Function.update_self]
      exact hstatus
    · rw [Function.update_of_ne heq, hother r' (k' - 1) (hne hk' heq)]
      exact h.status r' k' hk' hk31
  · rw [hstored'] at hnone
    rw [hptr' r' k' hk']
    exact h.unused r' k' hk' hk31 hnone
  · rw [hstored'] at hsome
    rw [hptr' r' k' hk']
    exact h.stored r' k' package hk' hk31 hsome

/-- Delivering a command from a state `q` that differs from `p` in a status only. -/
theorem Refines.deliver (h : Refines p written device table) {frame : List UInt8} {r k : Nat}
    (hk : 0 < k) {entry : AckEntry} (hstored : entry.stored = (table (r, k)).stored)
    {q : Protocol} (hdevice : q.device = p.device)
    (hother : ∀ r' j, ¬ (r' = r ∧ j = k - 1) → q.ackSessionTable r' j = p.ackSessionTable r' j)
    (hstatus : (q.ackSessionTable r (k - 1)).sessionStatus = entry.status)
    (hptr : (q.ackSessionTable r (k - 1)).memoryBlockPtr =
      (p.ackSessionTable r (k - 1)).memoryBlockPtr)
    (hhandle : p.containerHandler frame = (q.fillCommand frame true).map fun p => (p, true)) :
    match entry.deliver frame with
    | none => p.containerHandler frame = none
    | some (entry, response) => ∃ out, p.containerHandler frame = some out ∧
        response = handled p out ∧ Refines out.1 written device (Function.update table (r, k) entry) := by
  rw [AckEntry.deliver]
  cases hfill : q.fillCommand frame true with
  | none =>
      rw [hfill] at hhandle
      rw [fillCommand] at hfill
      dsimp only at hfill
      split at hfill
      case isTrue hshort =>
        rw [if_pos hshort]
        exact hhandle
      case isFalse => cases hfill
  | some p' =>
      have hlong : ¬ (Header.decode (ByteMemory.ofList frame) 0).length <
          HEADER_LEN + CMD_SET_PREFIX_LEN + CRC_DATA_LEN := by
        intro hshort
        rw [fillCommand, if_pos hshort] at hfill
        cases hfill
      rw [hfill] at hhandle
      rw [if_neg hlong]
      refine ⟨(p', true), hhandle, rfl, ?_⟩
      have heq := fillCommand_eq hfill
      refine h.command (h.owned.containerHandler hhandle) ?_ hk hstored ?_ ?_ ?_
      · rw [heq]
        exact hdevice
      · rw [heq]
        exact hother
      · rw [heq]
        exact hstatus
      · rw [heq]
        exact hptr

/-- A stored package is what the block of its session holds. -/
theorem Refines.package (h : Refines p written device table) {r k : Nat} (hk : 0 < k)
    (hk31 : k ≤ 31) {package : List UInt8} (hstored : (table (r, k)).stored = some package) :
    ∃ b, (p.ackSessionTable r (k - 1)).memoryBlockPtr = some b ∧
      (Header.decode p.memoryPool.memory (p.blockPtr b)).seqNum =
        (Header.decode (ByteMemory.ofList package) 0).seqNum ∧
      p.deviceSend (p.blockPtr b) = { p with deviceOut := p.deviceOut ++ [wire package] } := by
  obtain ⟨hptr, hwritten, header, body, rfl, hlen⟩ := h.stored r k package hk hk31 hstored
  obtain ⟨b, hb⟩ := Option.ne_none_iff_exists'.mp hptr
  have hcontents : p.memoryPool.contents b = header.package body :=
    hwritten ▸ h.owned.exclusive.value_eq (o := .ack r (k - 1)) hb
  have hlist : (ByteMemory.ofList (header.package body)).read 0 (header.package body).length =
      header.package body := ByteMemory.read_ofList _
  refine ⟨b, hb, ?_, deviceSend_contents hcontents hlen⟩
  have hdecode : Header.decode p.memoryPool.memory (p.blockPtr b) = header.stored :=
    Header.decode_of_package hcontents
  rw [hdecode, Header.decode_of_package hlist]

/-- A command does to the protocol what it does to its session. -/
theorem Refines.next_command (h : Refines p written device table) {frame : List UInt8}
    (hguard : (Header.decode (ByteMemory.ofList frame) 0).isAck = false ∧
      0 < (Header.decode (ByteMemory.ofList frame) 0).sessionId ∧
      (Header.decode (ByteMemory.ofList frame) 0).sessionId ≤ 31) :
    match (table (SenderEvent.command frame).entry).next device (.command frame) with
    | none => p.containerHandler frame = none
    | some (entry, response) => ∃ out, p.containerHandler frame = some out ∧
        response = handled p out ∧
        Refines out.1 written device
          (Function.update table (SenderEvent.command frame).entry entry) := by
  have hhandle : p.containerHandler frame = p.handleCommand frame := by
    rw [containerHandler_eq, hguard.1, if_neg (by decide)]
  rw [handleCommand, handleCommandWith] at hhandle
  dsimp only at hhandle
  dsimp only [AckEntry.next, SenderEvent.entry]
  rw [if_pos hguard]
  obtain ⟨-, hk, hk31⟩ := hguard
  generalize (Header.decode (ByteMemory.ofList frame) 0).receiver.toNat = r at hhandle ⊢
  generalize (Header.decode (ByteMemory.ofList frame) 0).sessionId = k at hhandle hk hk31 ⊢
  rw [if_neg (show ¬ k = 0 by omega), if_neg (show ¬ k > 31 by omega)] at hhandle
  by_cases hr6 : r < RECEIVER_NUM
  case neg =>
    rw [if_neg hr6] at hhandle ⊢
    exact hhandle
  rw [if_pos hr6] at hhandle ⊢
  have hstatus := h.status r k hk hk31
  have hself : (p.processing r k).ackSessionTable r (k - 1) =
      { p.ackSessionTable r (k - 1) with sessionStatus := .ACK_SESSION_PROCESS } := by
    simp only [processing, setAck, Function.update_self]
  have hother : ∀ r' j, ¬ (r' = r ∧ j = k - 1) →
      (p.processing r k).ackSessionTable r' j = p.ackSessionTable r' j := by
    intro r' j hne
    simp only [processing, setAck]
    by_cases hr' : r' = r
    · subst hr'
      rw [Function.update_self, Function.update_of_ne (fun hj => hne ⟨rfl, hj⟩)]
    · rw [Function.update_of_ne hr']
  -- delivering from the state in which the session is in process
  have hdeliver : p.containerHandler frame =
        ((p.processing r k).fillCommand frame true).map (fun p => (p, true)) →
      match ({ table (r, k) with status := .ACK_SESSION_PROCESS } : AckEntry).deliver frame with
      | none => p.containerHandler frame = none
      | some (entry, response) => ∃ out, p.containerHandler frame = some out ∧
          response = handled p out ∧
          Refines out.1 written device (Function.update table (r, k) entry) :=
    fun hhandle => h.deliver (q := p.processing r k) hk rfl rfl hother (by rw [hself]) (by rw [hself])
      hhandle
  cases hentry : (table (r, k)).status <;> rw [hentry] at hstatus <;> rw [hstatus] at hhandle <;>
    dsimp only at hhandle ⊢
  case ACK_SESSION_IDLE =>
    split at hhandle
    case isTrue hgt =>
      rw [if_pos hgt]
      exact hdeliver hhandle
    case isFalse hle =>
      rw [if_neg hle]
      exact h.deliver hk rfl rfl (fun _ _ _ => rfl) (by rw [hstatus, hentry]) rfl hhandle
  case ACK_SESSION_PROCESS =>
    refine ⟨(p, false), hhandle, ?_, ?_⟩
    · rw [handled, List.drop_length]
    · rw [Function.update_eq_self]
      exact h
  case ACK_SESSION_USING =>
    cases hstored : (table (r, k)).stored with
    | none =>
        rw [h.unused r k hk hk31 hstored] at hhandle
        exact hhandle
    | some package =>
        obtain ⟨b, hb, hseq, hsend⟩ := h.package hk hk31 hstored
        rw [hb] at hhandle
        dsimp only at hhandle ⊢
        rw [hseq] at hhandle
        split at hhandle
        case isTrue hsame =>
          rw [if_pos hsame]
          refine ⟨_, hhandle, ?_, ?_⟩
          · rw [handled, hsend, List.drop_left' rfl]
          · rw [Function.update_eq_self]
            have howned := h.owned.containerHandler hhandle
            rw [hsend] at howned ⊢
            exact ⟨howned, h.device, h.status, h.unused, h.stored⟩
        case isFalse hnew =>
          rw [← hb] at hhandle
          rw [if_neg hnew, ← hstored]
          exact hdeliver hhandle

/-- A successful `SendACK` stores its package in its session. -/
theorem Refines.sentACK (h : Refines p written device table) {sessionId : Nat} {seqNum : UInt16}
    {receiver : UInt8} {ack : List UInt8} (hk : 0 < sessionId) (hlen : ack.length < 4096)
    {b : Nat} {pool : MemoryPool}
    (hsend : p.sendACK sessionId seqNum receiver ack =
      some (p.afterSendACK sessionId receiver b pool
        (p.ackPackage sessionId seqNum receiver ack), true)) :
    Refines (p.afterSendACK sessionId receiver b pool (p.ackPackage sessionId seqNum receiver ack))
      (p.recordAck written sessionId seqNum receiver ack true) device
      (Function.update table (receiver.toNat, sessionId)
        { status := .ACK_SESSION_USING
          stored := some (AckEntry.ackPackage device sessionId seqNum receiver ack) }) := by
  have hpackage : AckEntry.ackPackage device sessionId seqNum receiver ack =
      p.ackPackage sessionId seqNum receiver ack := by
    rw [← h.device]
    rfl
  have howned := h.owned.sendACK hsend fun hfalse => absurd hfalse.symm Bool.false_ne_true
  rw [hpackage]
  generalize hbytes : p.ackPackage sessionId seqNum receiver ack = package at howned ⊢
  have hself : (p.afterSendACK sessionId receiver b pool package).ackSessionTable receiver.toNat
      (sessionId - 1) =
      { sessionId := sessionId, sessionStatus := .ACK_SESSION_USING, memoryBlockPtr := some b } := by
    simp only [afterSendACK, setAck, Function.update_self]
  have hwritten : p.recordAck written sessionId seqNum receiver ack true =
      Function.update written (.ack receiver.toNat (sessionId - 1)) package := by
    rw [recordAck, hbytes]
  have hother : ∀ r k, 0 < k → (r, k) ≠ (receiver.toNat, sessionId) →
      (p.afterSendACK sessionId receiver b pool package).ackSessionTable r (k - 1) =
          p.ackSessionTable r (k - 1) ∧
        p.recordAck written sessionId seqNum receiver ack true (.ack r (k - 1)) =
          written (.ack r (k - 1)) := by
    intro r k hk' hne
    have hne' : ¬ (r = receiver.toNat ∧ k - 1 = sessionId - 1) := by
      rintro ⟨rfl, hkk⟩
      exact hne (by rw [show k = sessionId by omega])
    constructor
    · simp only [afterSendACK, setAck]
      by_cases hr : r = receiver.toNat
      · subst hr
        rw [Function.update_self, Function.update_of_ne (fun hj => hne' ⟨rfl, hj⟩)]
      · rw [Function.update_of_ne hr]
    · rw [hwritten, Function.update_of_ne (fun heq => hne' (Owner.ack.inj heq))]
  refine ⟨howned, h.device, fun r k hk' hk31 => ?_, fun r k hk' hk31 hnone => ?_,
    fun r k stored hk' hk31 hsome => ?_⟩
  · by_cases heq : (r, k) = (receiver.toNat, sessionId)
    · obtain ⟨rfl, rfl⟩ := Prod.mk.inj heq
      rw [hself, Function.update_self]
    · rw [(hother r k hk' heq).1, Function.update_of_ne heq]
      exact h.status r k hk' hk31
  · by_cases heq : (r, k) = (receiver.toNat, sessionId)
    · rw [heq, Function.update_self] at hnone
      cases hnone
    · rw [Function.update_of_ne heq] at hnone
      rw [(hother r k hk' heq).1]
      exact h.unused r k hk' hk31 hnone
  · by_cases heq : (r, k) = (receiver.toNat, sessionId)
    · obtain ⟨rfl, rfl⟩ := Prod.mk.inj heq
      rw [Function.update_self] at hsome
      obtain rfl := Option.some.inj hsome
      rw [hself, hwritten, Function.update_self]
      refine ⟨Option.some_ne_none _, rfl, _, _, hbytes.symm, ?_⟩
      rw [← hbytes, length_ackPackage _ _ _ hlen]
      rfl
    · rw [Function.update_of_ne heq] at hsome
      rw [(hother r k hk' heq).1, (hother r k hk' heq).2]
      exact h.stored r k stored hk' hk31 hsome

/-- An acknowledgement with room in the pool does to the protocol what it does to its session. -/
theorem Refines.next_ack (h : Refines p written device table) {source : UInt8} {sessionId : Nat}
    {seqNum : UInt16} {receiver : UInt8} {ack : List UInt8}
    (hserved : Served ⟨p, log⟩ (.ack source sessionId seqNum receiver ack))
    (hlen : ack.length < 2 ^ 16) :
    match (table (receiver.toNat, sessionId)).next device
        (.ack source sessionId seqNum receiver ack) with
    | none => p.sendACK sessionId seqNum receiver ack = none
    | some (entry, response) => ∃ p' written' ret,
        p.sendACK sessionId seqNum receiver ack = some (p', ret) ∧ response = .sentACK ret ∧
        Refines p' written' device (Function.update table (receiver.toNat, sessionId) entry) := by
  have hwf : p.WellFormed := ⟨h.owned.sized, h.owned.cmd_id, h.owned.ack_id⟩
  dsimp only [AckEntry.next]
  rw [if_pos hlen]
  by_cases hid : sessionId = 0 ∨ sessionId > 31
  case pos =>
    rw [if_pos hid]
    refine ⟨p, written, false, ?_, rfl, ?_⟩
    · rw [sendACK]
      exact if_pos hid
    · rw [Function.update_eq_self]
      exact h
  rw [if_neg hid]
  have hk : 0 < sessionId := by omega
  have hk31 : sessionId ≤ 31 := by omega
  have halloc : ((p.freedPool receiver.toNat (sessionId - 1)).allocMemory
      (ackPackLength ack)).2.isSome = true := by
    have hserved := hserved hk hk31
    dsimp only at hserved
    rw [freedPool]
    cases hptr : (p.ackSessionTable receiver.toNat (sessionId - 1)).memoryBlockPtr with
    | none =>
        rw [hptr] at hserved
        exact hserved.allocMemory h.owned.sized.valid
    | some b =>
        rw [hptr] at hserved
        exact MemoryPool.allocMemory_after_free h.owned.sized (h.owned.ack_live _ _ b hptr)
          hserved.1 hserved.2
  split
  case h_1 hnone =>
    -- a successful `SendACK` would be the one of `next`
    split at hnone
    case isTrue => cases hnone
    case isFalse hbad =>
      rw [Option.eq_none_iff_forall_ne_some]
      rintro ⟨p', ret⟩ hsend
      rcases sendACK_cases h.owned.sized h.owned.ack_id hsend with
        ⟨-, -, hid'⟩ | ⟨-, -, -, -, hfail, -⟩ | ⟨-, -, -, hr, hack, -⟩
      · exact hid hid'
      · rw [hfail] at halloc
        cases halloc
      · exact hbad ⟨hr, hack⟩
  case h_2 entry response hsome =>
    split at hsome
    case isFalse => cases hsome
    case isTrue hgood =>
      cases hsome
      obtain ⟨b, pool, -, hsend⟩ := sendACK_of_alloc hwf hk hk31 hgood.1 seqNum hgood.2 halloc
      exact ⟨_, _, true, hsend, rfl, h.sentACK hk hgood.2 hsend⟩

/-- One event does to the protocol what it does to its session. -/
theorem Refines.step {w : AckRun} (h : Refines w.protocol written device table) {e : SenderEvent}
    (hserved : w.Served e) :
    match (table e.entry).next device e with
    | none => w.step e = none
    | some (entry, response) => ∃ p' written', w.step e = some ⟨p', w.log ++ [(e, response)]⟩ ∧
        Refines p' written' device (Function.update table e.entry entry) := by
  cases e with
  | command frame =>
      by_cases hguard : (Header.decode (ByteMemory.ofList frame) 0).isAck = false ∧
          0 < (Header.decode (ByteMemory.ofList frame) 0).sessionId ∧
          (Header.decode (ByteMemory.ofList frame) 0).sessionId ≤ 31
      case neg =>
        dsimp only [AckEntry.next]
        rw [if_neg hguard]
        exact if_neg hguard
      have hstep : w.step (.command frame) = (w.protocol.containerHandler frame).map fun out =>
          ⟨out.1, w.log ++ [(.command frame, handled w.protocol out)]⟩ := if_pos hguard
      have hnext := h.next_command hguard
      rw [hstep]
      split at hnext
      case h_1 => rw [hnext, Option.map_none]
      case h_2 =>
        obtain ⟨out, hout, rfl, hrefines⟩ := hnext
        rw [hout, Option.map_some]
        exact ⟨out.1, written, rfl, hrefines⟩
  | ack source sessionId seqNum receiver ack =>
      by_cases hlen : ack.length < 2 ^ 16
      case neg =>
        dsimp only [AckEntry.next]
        rw [if_neg hlen]
        exact if_neg hlen
      have hstep : w.step (.ack source sessionId seqNum receiver ack) =
          (w.protocol.sendACK sessionId seqNum receiver ack).map fun out =>
            ⟨out.1, w.log ++ [(.ack source sessionId seqNum receiver ack, .sentACK out.2)]⟩ :=
        if_pos hlen
      have hnext := h.next_ack hserved hlen
      rw [hstep]
      dsimp only [SenderEvent.entry]
      split at hnext
      case h_1 => rw [hnext, Option.map_none]
      case h_2 =>
        obtain ⟨p', written', ret, hout, rfl, hrefines⟩ := hnext
        rw [hout, Option.map_some]
        exact ⟨p', written', rfl, hrefines⟩

/-- A run with room for every acknowledgement is the run of the table of sessions. -/
theorem run_answers {w : AckRun} {es : List SenderEvent}
    (h : Refines w.protocol written device table) (hok : StateMachine.Along step Served w es) :
    match IndexedMachine.answers SenderEvent.entry (fun entry e => entry.next device e) table es with
    | none => StateMachine.run step w es = none
    | some log => ∃ w', StateMachine.run step w es = some w' ∧ w'.log = w.log ++ log := by
  induction es generalizing w written table with
  | nil => exact ⟨w, rfl, (List.append_nil _).symm⟩
  | cons e es ih =>
      obtain ⟨hserved, hok⟩ := hok
      have hstep := h.step hserved
      rw [IndexedMachine.answers, StateMachine.run_cons]
      split at hstep
      case h_1 hnone => rw [hnone, hstep]; rfl
      case h_2 entry response hsome =>
        obtain ⟨p', written', hstep, hrefines⟩ := hstep
        rw [hstep] at hok
        have hrest := ih hrefines hok
        rw [hsome, hstep]
        dsimp only [Option.bind_some]
        split at hrest
        case h_1 hnone => rw [hnone]; exact hrest
        case h_2 log hlog =>
          obtain ⟨w', hrun, heq⟩ := hrest
          rw [hlog]
          exact ⟨w', hrun, by rw [heq, List.append_assoc]; rfl⟩

/-- Leaving out everything about other senders, who use other sessions, changes nothing for a
sender. -/
theorem run_isolated (sender : UInt8) (p : Protocol) (memoryTable : Nat → MemoryBlock)
    (memory : ByteMemory) (events : List SenderEvent) (w : AckRun)
    (hapart : ∀ e ∈ events, ∀ e' ∈ events, e.sender = sender → e'.sender ≠ sender →
      e.entry ≠ e'.entry)
    (hok : StateMachine.Along step Served (start p memoryTable memory) events)
    (hok' : StateMachine.Along step Served (start p memoryTable memory)
      (events.filter fun e => e.sender = sender))
    (hrun : StateMachine.run step (start p memoryTable memory) events = some w) :
    ∃ w', StateMachine.run step (start p memoryTable memory)
        (events.filter fun e => e.sender = sender) = some w' ∧
      w'.log = w.log.filter fun x => x.1.sender = sender := by
  have hstart := start_refines p memoryTable memory fun _ => []
  have hall := run_answers hstart hok
  split at hall
  case h_1 => rw [hall] at hrun; cases hrun
  case h_2 log hlog =>
    obtain ⟨w₁, hw₁, heq⟩ := hall
    obtain rfl : w = w₁ := Option.some.inj (hrun.symm.trans hw₁)
    have hfiltered := IndexedMachine.answers_filter (t := fun _ => AckEntry.idle)
      (fun e he e' he' (hk : decide (e.sender = sender) = true) hk' =>
        hapart e he e' he' (of_decide_eq_true hk) (of_decide_eq_false hk'))
      (fun _ _ _ => rfl) hlog
    have hkept := run_answers hstart hok'
    rw [hfiltered] at hkept
    obtain ⟨w', hw', heq'⟩ := hkept
    exact ⟨w', hw', by rw [heq', heq]; rfl⟩

/-- A command with one byte of data. -/
def byteFrame (sender : UInt8) (sessionId : Nat) (seqNum : UInt16) : List UInt8 :=
  Header.package
    { sof := SOF, length := 19, version := VERSION, sessionId := sessionId, isAck := false,
      reserved0 := 0, sender := sender, receiver := 0, reserved1 := 0, seqNum := seqNum } [2, 1, 7]

/-- Two senders with a session each: a command and its copy, and the next command. -/
def ownSessions : List SenderEvent :=
  [.command (byteFrame 0 2 1), .command (byteFrame 1 3 1), .ack 0 2 1 0 [9], .ack 1 3 1 1 [8],
    .command (byteFrame 0 2 1), .command (byteFrame 1 3 2), .command (byteFrame 0 2 2)]

/-- Two senders that both choose session 2 and the sequence number 1. -/
def sharedSession : List SenderEvent :=
  [.command (byteFrame 1 2 1), .ack 1 2 1 0 [9], .command (byteFrame 2 2 1)]

theorem run_isolated_ownSessions :
    ∃ w w', StateMachine.run step (start default default default) ownSessions = some w ∧
      StateMachine.run step (start default default default)
        (ownSessions.filter fun e => e.sender = 0) = some w' ∧
      (w'.log = w.log.filter fun x => x.1.sender = 0) ∧
      w'.log.map Prod.snd = [.delivered, .sentACK true,
        .answered (wire (AckEntry.ackPackage 0 2 1 0 [9])), .delivered] := by
  obtain ⟨w, hw⟩ := Option.isSome_iff_exists.mp
    (show (StateMachine.run step (start default default default) ownSessions).isSome = true by
      decide +kernel)
  obtain ⟨w', hw', hlog⟩ := run_isolated 0 default default default ownSessions w (by decide +kernel)
    (by decide +kernel) (by decide +kernel) hw
  have hresponses : (StateMachine.run step (start default default default)
      (ownSessions.filter fun e => e.sender = 0)).map (fun w => w.log.map Prod.snd) =
        some [.delivered, .sentACK true, .answered (wire (AckEntry.ackPackage 0 2 1 0 [9])),
          .delivered] := by decide +kernel
  rw [hw', Option.map_some, Option.some.injEq] at hresponses
  exact ⟨w, w', hw, hw', hlog, hresponses⟩

/-- The command of one sender is answered with the acknowledgement of another one's command. -/
theorem ackSession_shared_by_senders :
    (¬ ∀ (sender : UInt8) (p : Protocol) (memoryTable : Nat → MemoryBlock) (memory : ByteMemory)
        (events : List SenderEvent) (w w' : AckRun),
        StateMachine.run step (start p memoryTable memory) events = some w →
        StateMachine.run step (start p memoryTable memory)
          (events.filter fun e => e.sender = sender) = some w' →
        w'.log = w.log.filter fun x => x.1.sender = sender) ∧
      ∃ w, StateMachine.run step (start default default default) sharedSession = some w ∧
        w.log.getLast?.map Prod.snd =
          some (.answered (wire (AckEntry.ackPackage 0 2 1 0 [9]))) := by
  have hlast := Option.map_eq_some_iff.mp
    (show (StateMachine.run step (start default default default) sharedSession).map
      (fun w => w.log.getLast?.map Prod.snd) =
        some (some (.answered (wire (AckEntry.ackPackage 0 2 1 0 [9])))) by decide +kernel)
  refine ⟨fun hall => ?_, hlast⟩
  obtain ⟨w, hw, hresponses⟩ := Option.map_eq_some_iff.mp
    (show (StateMachine.run step (start default default default) sharedSession).map
      (fun w => (w.log.filter fun x => x.1.sender = 2).map Prod.snd) =
        some [.answered (wire (AckEntry.ackPackage 0 2 1 0 [9]))] by decide +kernel)
  obtain ⟨w', hw', hresponses'⟩ := Option.map_eq_some_iff.mp
    (show (StateMachine.run step (start default default default)
      (sharedSession.filter fun e => e.sender = 2)).map (fun w => w.log.map Prod.snd) =
        some [.delivered] by decide +kernel)
  rw [hall 2 _ _ _ _ w w' hw hw', hresponses] at hresponses'
  exact absurd hresponses' (by decide)

end AckRun

end RoboRTS.Sdk
