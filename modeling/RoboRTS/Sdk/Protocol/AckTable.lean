import RoboRTS.Sdk.Protocol.PayloadLength

/-!
# Accesses to the ACK session table

`ContainerHandler` takes the row of `ack_session_table_` from the receiver in a frame, `SendACK`
from its argument; both check the session number and neither checks the row. `entry` is the entry a
call accesses and `dereferenced` the block pointers of that entry it follows. The accesses are in
bounds exactly for commands to this device and acknowledgements for one of `RECEIVER_NUM` receivers
(`run_accesses_ackTable`); no pointer that is followed is null.
-/

namespace RoboRTS.Sdk

namespace SessionCall

/-- The entry of `ack_session_table_` that a call accesses. -/
def entry : SessionCall → Option (Nat × Nat)
  | containerHandler _ frame =>
      let header := Header.decode (ByteMemory.ofList frame) 0
      if header.isAck = true ∨ header.sessionId = 0 ∨ header.sessionId > 31 then none
      else some (header.receiver.toNat, header.sessionId - 1)
  | sendACK _ sessionId _ receiver _ =>
      if sessionId = 0 ∨ sessionId > 31 then none else some (receiver.toNat, sessionId - 1)

/-- The block pointers that a call follows in an entry of the table: `ContainerHandler` reads the
package of a session in use, `SendACK` frees the block of its session and fills the new one. -/
def dereferencedAt : SessionCall → Nat × Nat → List (Option Nat)
  | containerHandler p _, (r, j) =>
      if (p.ackSessionTable r j).sessionStatus = .ACK_SESSION_USING then
        [(p.ackSessionTable r j).memoryBlockPtr]
      else []
  | sendACK p sessionId _ _ ack, (r, j) =>
      let out := p.allocACKSession r sessionId (Protocol.ackPackLength ack)
      (if (p.ackSessionTable r j).memoryBlockPtr.isSome then
          [(p.ackSessionTable r j).memoryBlockPtr] else []) ++
        if out.2 then [(out.1.ackSessionTable r j).memoryBlockPtr] else []

/-- The entry is in the table. -/
def InTable (e : Nat × Nat) : Prop :=
  e.1 < RECEIVER_NUM ∧ e.2 < SESSION_TABLE_NUM - 1

instance (e : Nat × Nat) : Decidable (InTable e) :=
  inferInstanceAs (Decidable (_ ∧ _))

/-- The block pointers that a call follows; outside the table there are none to speak of. -/
def dereferenced (c : SessionCall) : List (Option Nat) :=
  match c.entry with
  | none => []
  | some e => if InTable e then c.dereferencedAt e else []

/-- Every access is in bounds, and no pointer that is followed is null. -/
def InBounds (c : SessionCall) : Prop :=
  (∀ e ∈ c.entry, InTable e) ∧ ∀ ptr ∈ c.dereferenced, ptr ≠ none

/-- A command with a session number is for this device alone, and an acknowledgement for a receiver
that the table has a row for. -/
def Addressed : SessionCall → Prop
  | containerHandler _ frame =>
      (Header.decode (ByteMemory.ofList frame) 0).isAck = false →
      0 < (Header.decode (ByteMemory.ofList frame) 0).sessionId →
      (Header.decode (ByteMemory.ofList frame) 0).receiver ≠ 0xFF
  | sendACK _ sessionId _ receiver _ =>
      0 < sessionId → sessionId ≤ 31 → receiver.toNat < RECEIVER_NUM

/-- What a call leaves. -/
def result : SessionCall → Option Protocol
  | containerHandler p frame => (p.containerHandler frame).map Prod.fst
  | sendACK p sessionId seqNum receiver ack =>
      (p.sendACK sessionId seqNum receiver ack).map Prod.fst

variable {c : SessionCall}

/-- A sound object has a block wherever one is followed. -/
theorem dereferenced_ne_none (hc : c.Expected) {ptr : Option Nat} (hptr : ptr ∈ c.dereferenced) :
    ptr ≠ none := by
  unfold dereferenced at hptr
  cases hentry : c.entry with
  | none =>
      rw [hentry] at hptr
      cases hptr
  | some e =>
      rw [hentry] at hptr
      dsimp only at hptr
      by_cases hin : InTable e
      case neg =>
        rw [if_neg hin] at hptr
        cases hptr
      rw [if_pos hin] at hptr
      obtain ⟨r, j⟩ := e
      cases c with
      | containerHandler p frame =>
          simp only [dereferencedAt] at hptr
          by_cases husing : (p.ackSessionTable r j).sessionStatus = .ACK_SESSION_USING
          case neg =>
            rw [if_neg husing] at hptr
            cases hptr
          rw [if_pos husing] at hptr
          rw [List.mem_singleton.mp hptr]
          exact hc.1.ackBlocks r j husing
      | sendACK p sessionId seqNum receiver ack =>
          simp only [entry] at hentry
          split at hentry
          case isTrue => cases hentry
          case isFalse hcond =>
            cases hentry
            simp only [dereferencedAt, List.mem_append] at hptr
            rcases hptr with hold | hnew
            · split at hold
              case isTrue hsome =>
                rw [List.mem_singleton.mp hold]
                exact Option.isSome_iff_ne_none.mp hsome
              case isFalse => cases hold
            · -- a session that is returned has just got its block
              rcases Protocol.allocACKSession_cases (p := p) receiver.toNat
                (Protocol.ackPackLength ack) (show 0 < sessionId ∧ sessionId < 32 by omega) with
                ⟨heq, -⟩ | ⟨b, -, heq⟩
              · rw [heq, if_neg Bool.false_ne_true] at hnew
                cases hnew
              · rw [heq, if_pos rfl] at hnew
                rw [List.mem_singleton.mp hnew]
                simp [Protocol.setAck, Protocol.setPool]

/-- A call is in bounds exactly if it is addressed to a row of the table. -/
theorem inBounds_iff (hc : c.Expected) : c.InBounds ↔ c.Addressed := by
  have hderef : c.InBounds ↔ ∀ e ∈ c.entry, InTable e :=
    ⟨And.left, fun h => ⟨h, fun ptr hptr => dereferenced_ne_none hc hptr⟩⟩
  rw [hderef]
  cases c with
  | containerHandler p frame =>
      have hsmall := Header.sessionId_decode_lt (ByteMemory.ofList frame) 0
      have hreceiver := hc.2.receiver
      simp only [entry, Addressed, InTable, SESSION_TABLE_NUM, RECEIVER_NUM]
      constructor
      · intro hin hack hpos hbroadcast
        have hrow := (hin _ (if_neg (by simp only [hack, Bool.false_eq_true, false_or]; omega))).1
        rw [hbroadcast] at hrow
        exact absurd (show (0xFF : UInt8).toNat < 6 from hrow) (by decide)
      · intro haddressed e he
        split at he
        case isTrue => cases he
        case isFalse hcond =>
          cases he
          simp only [not_or, Bool.not_eq_true] at hcond
          rcases hreceiver with hdevice | hbroadcast
          · rw [hdevice]
            exact ⟨show DEVICE.toNat < 6 by decide, by omega⟩
          · exact absurd hbroadcast (haddressed hcond.1 (by omega))
  | sendACK p sessionId seqNum receiver ack =>
      simp only [entry, Addressed, InTable, SESSION_TABLE_NUM]
      constructor
      · intro hin hpos hle
        exact (hin _ (if_neg (by omega))).1
      · intro haddressed e he
        split at he
        case isTrue => cases he
        case isFalse hcond =>
          cases he
          exact ⟨haddressed (by omega) (by omega), by omega⟩

end SessionCall

namespace Traced

/-- In every run, a call of `ContainerHandler` or `SendACK` accesses the ACK session table in bounds
and follows no null pointer exactly when it is addressed to a row of the table. -/
theorem run_accesses_ackTable (p : Protocol) (table : Nat → MemoryBlock) (memory buff : ByteMemory)
    (inputs : List (Input ThreadCall)) :
    ∃ s t, StateMachine.run step (RecvStream.init buff, init p table memory) inputs = some (s, t) ∧
      ∀ c ∈ t.calls, (c.InBounds ↔ c.Addressed) := by
  obtain ⟨s, t, hrun, hinv⟩ := run_traced p table memory buff inputs
  exact ⟨s, t, hrun, fun c hc => SessionCall.inBounds_iff (hinv.calls c hc)⟩

/-- A command with session number 2 that is sent to every device. -/
def broadcastCmd : List UInt8 :=
  (default : Protocol).cmdPackage 2 0 1 2 0xFF [7]

/-- A broadcast command with a session number reads row 255 of the table. -/
theorem run_accesses_broadcast :
    ¬ ∀ (p : Protocol) (table : Nat → MemoryBlock) (memory buff : ByteMemory)
      (inputs : List (Input ThreadCall)) (s : RecvStream) (t : Traced),
      StateMachine.run step (RecvStream.init buff, init p table memory) inputs = some (s, t) →
      ∀ c ∈ t.calls, c.InBounds := by
  intro hall
  have hrun : (StateMachine.run step (RecvStream.init default, init default default default)
      (broadcastCmd.map .byte)).map (fun s => s.2.calls.map SessionCall.entry) =
        some [some (255, 1)] := by decide +kernel
  obtain ⟨⟨s, t⟩, hs, hcalls⟩ := Option.map_eq_some_iff.mp hrun
  obtain ⟨c, hc, hentry⟩ := List.map_eq_singleton_iff.mp hcalls
  have hbounds := hall _ _ _ _ _ s t hs c (by rw [hc]; exact List.mem_singleton_self c)
  exact absurd (hbounds.1 _ hentry) (by decide)

end Traced

end RoboRTS.Sdk
