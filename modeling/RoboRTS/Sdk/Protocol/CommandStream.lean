import RoboRTS.Sdk.Protocol.Receive
import RoboRTS.Sdk.Stream.Framed

/-!
# A stream of commands from one protocol object to another

`SendCMD` on one side, the serial line, and repeated calls of `Receive` on the other side. The line
may put other bytes between the frames and may deliver the bytes in any reads that do not fill the
buffer. As long as no other window looks like a header, `commands_received_in_order` gives what the
receiver returns: one container for each command, in order, with everything that was sent.
-/

namespace RoboRTS.Sdk.Protocol

/-- The arguments of a call of `SendCMD` on session 0. -/
structure Command where
  cmdSet : UInt8
  cmdId : UInt8
  receiver : UInt8
  data : List UInt8

/-- One call of `SendCMD` on session 0 that sends its frame, and the header it returns. -/
def sendSession0 (p : Protocol) (c : Command) : Option (Protocol × MessageHeader) :=
  (p.sendCMD c.cmdSet c.cmdId c.receiver c.data .CMD_SESSION_0 0 0 0).bind fun out =>
    out.2.map fun mh => (out.1, mh)

/-- Calls of `SendCMD` one after the other, with the headers they return. -/
def sendCommands : List Command → Protocol → Option (Protocol × List MessageHeader)
  | [], p => some (p, [])
  | c :: commands, p =>
      (p.sendSession0 c).bind fun out =>
        (sendCommands commands out.1).map fun rest => (rest.1, out.2 :: rest.2)

/-- The container of `q` holds a command that `sender` sent with the header `sent.2`. -/
def CarriesCommand (sender : UInt8) (sent : Command × MessageHeader) (q : Protocol) : Prop :=
  CommandContainer q.recvContainer sent.1.cmdSet sent.1.cmdId sent.2 sender sent.1.receiver
    sent.1.data

variable {p p' q : Protocol}

/-- A package that the send functions fill in is a valid frame. -/
theorem sendable_validFrame {h : Header} {device : UInt8}
    {body : List UInt8} (hs : h.Sendable device body) : ValidFrame device (h.package body) := by
  obtain ⟨hacc, hlen⟩ := hs.accepted
  have hvalid := validFrame_of_accepted hacc
  rwa [hlen, ByteMemory.read_ofList] at hvalid

/-- One command: the frame it sends, which the receiver's handler takes in every state. -/
theorem sendSession0_delivers {c : Command} {mh : MessageHeader} (hp : p.WellFormed)
    (hle : c.data.length ≤ 1005) (hreceiver : c.receiver = q.device ∨ c.receiver = 0xFF)
    (hsend : p.sendSession0 c = some (p', mh)) :
    ∃ frame, p'.deviceOut = p.deviceOut ++ [frame] ∧ p'.device = p.device ∧ p'.WellFormed ∧
      ValidFrame q.device frame ∧
      ∀ q₁ : Protocol, ∃ q₂, onStream frame 0 q₁ = some (q₂, true) ∧
        CarriesCommand p.device (c, mh) q₂ := by
  rw [sendSession0, Option.bind_eq_some_iff] at hsend
  obtain ⟨⟨p₁, out⟩, hcall, hout⟩ := hsend
  obtain ⟨mh', rfl, hmh⟩ := Option.map_eq_some_iff.mp hout
  obtain ⟨rfl, rfl⟩ := Prod.mk.inj hmh
  have hformed := hp.sendCMD hcall
  rcases sendCMD_cases hp.sized hp.cmd_id hcall with ⟨hnone, -⟩ | ⟨i, b, pool, hi, -, hheader, rfl⟩
  · cases hnone
  obtain rfl := Option.some.inj hheader
  obtain ⟨-, hlt, hzero⟩ := freeSession_unused hi
  have hs := cmdHeader_sendable (p := p) hlt (p.cmdSeqNum .CMD_SESSION_0 i) hreceiver c.cmdSet
    c.cmdId hle
  refine ⟨p.cmdPackage i (p.cmdSeqNum .CMD_SESSION_0 i) c.cmdSet c.cmdId c.receiver c.data, ?_, rfl,
    hformed, sendable_validFrame hs, fun q₁ => ?_⟩
  · rw [afterSendCMD, cmdPackage, hs.wire_eq]
  · obtain ⟨container, hc, -, hcontainer⟩ := containerHandler_session0 (q := q₁) hs rfl hzero
    exact ⟨_, hc, hcontainer⟩

/-- The commands of a run of the sender: their frames, which the receiver's handler takes one after
the other. -/
theorem sendCommands_delivers (commands : List Command) :
    ∀ {p p' : Protocol} {mhs : List MessageHeader}, p.WellFormed →
      (∀ c ∈ commands, c.data.length ≤ 1005 ∧ (c.receiver = q.device ∨ c.receiver = 0xFF)) →
      sendCommands commands p = some (p', mhs) →
      ∃ frames, p'.deviceOut = p.deviceOut ++ frames ∧
        (∀ frame ∈ frames, ValidFrame q.device frame) ∧
        ∀ q₁ : Protocol, ∃ states, Delivers onStream frames q₁ states ∧
          List.Forall₂ (CarriesCommand p.device) (commands.zip mhs) states := by
  induction commands with
  | nil =>
      intro p p' mhs hp hcommands hsend
      cases hsend
      exact ⟨[], (List.append_nil _).symm, by simp, fun q₁ => ⟨[], .nil q₁, .nil⟩⟩
  | cons c commands ih =>
      intro p p' mhs hp hcommands hsend
      rw [sendCommands, Option.bind_eq_some_iff] at hsend
      obtain ⟨⟨p₁, mh⟩, hfirst, hsend⟩ := hsend
      obtain ⟨⟨p₂, rest⟩, hrest, heq⟩ := Option.map_eq_some_iff.mp hsend
      obtain ⟨rfl, rfl⟩ := Prod.mk.inj heq
      obtain ⟨hle, hreceiver⟩ := hcommands c (List.mem_cons_self ..)
      obtain ⟨frame, hout, hdevice, hformed, hvalid, hhandle⟩ :=
        sendSession0_delivers hp hle hreceiver hfirst
      obtain ⟨frames, houts, hvalids, hdelivers⟩ :=
        ih hformed (fun c' hc' => hcommands c' (List.mem_cons_of_mem _ hc')) hrest
      rw [hdevice] at hdelivers
      refine ⟨frame :: frames, ?_, ?_, fun q₁ => ?_⟩
      · rw [houts, hout, List.append_assoc, List.singleton_append]
      · intro f hf
        rcases List.mem_cons.mp hf with rfl | hf
        · exact hvalid
        · exact hvalids f hf
      · obtain ⟨q₂, htake, hcontainer⟩ := hhandle q₁
        obtain ⟨states, hstates, hall⟩ := hdelivers q₂
        exact ⟨q₂ :: states, .cons htake hstates, .cons hcontainer hall⟩

/-- Whatever commands one object sends on session 0, another one that reads their frames from its
serial device, with other bytes between them and in reads that do not fill its buffer, returns one
container for each, in order, that holds what was sent. The only condition is that no other window
has a valid header: none that starts in the bytes before the first frame, in the last eleven bytes of
a frame, which the parser keeps, in its last byte, which comes twice, or in the other bytes behind
it. -/
theorem commands_received_in_order (p p' q : Protocol) (commands : List Command)
    (mhs : List MessageHeader) (hp : p.Reachable)
    (hcommands : ∀ c ∈ commands, c.data.length ≤ 1005 ∧ (c.receiver = q.device ∨ c.receiver = 0xFF))
    (hsend : sendCommands commands p = some (p', mhs)) :
    ∃ frames, p'.deviceOut = p.deviceOut ++ frames ∧
      ∀ (segments : List Segment) (tail : List UInt8) (reads : List (List UInt8))
        (buff recvBuff : ByteMemory), segments.map Segment.frame = frames →
        Clear q.device [] (handedSegments [] segments) (handedTail [] segments tail) →
        SerialReads reads → (∀ chunk ∈ reads, chunk.length ≠ BUFFER_SIZE) →
        reads.flatten = Segment.stream segments tail →
        ∃ handed returned s q', q.Drains buff recvBuff reads handed returned s q' ∧
          List.Forall₂ (CarriesCommand p.device) (commands.zip mhs) returned := by
  obtain ⟨frames, hout, hvalid, hdelivers⟩ :=
    sendCommands_delivers commands hp.wellFormed hcommands hsend
  refine ⟨frames, hout, fun segments tail reads buff recvBuff hframes hclear hserial hsmall
    hreads => ?_⟩
  obtain ⟨states, hstates, hall⟩ := hdelivers q
  rw [← hframes] at hstates hvalid
  obtain ⟨handed, s, q', hdrains⟩ := Receiver.drains_segments buff recvBuff hserial.ne_nil hsmall
    hreads (fun segment hmem => hvalid _ (List.mem_map_of_mem hmem)) hclear hstates
  exact ⟨handed, states, s, q', hdrains, hall⟩

/-- Two commands of a fresh object, with two bytes before the first frame, the second of them `SOF`,
and a byte behind the last. -/
theorem commands_received_in_order_two :
    ∃ p' mhs first second handed returned s q',
      sendCommands [⟨1, 2, 0, [7]⟩, ⟨1, 3, 0, [8, 9]⟩] ((default : Protocol).init default default) =
        some (p', mhs) ∧ p'.deviceOut = [first, second] ∧
      ((default : Protocol).init default default).Drains default default
        [[0x55, 0xAA] ++ first, second ++ [1]] handed returned s q' ∧
      List.Forall₂ (CarriesCommand 0) (List.zip [⟨1, 2, 0, [7]⟩, ⟨1, 3, 0, [8, 9]⟩] mhs) returned := by
  have hsends : ((sendCommands [⟨1, 2, 0, [7]⟩, ⟨1, 3, 0, [8, 9]⟩]
      ((default : Protocol).init default default)).map fun out =>
        (out.1.deviceOut.map List.length,
          decide (Clear 0 [] (handedSegments [] [⟨[0x55, 0xAA], out.1.deviceOut.getD 0 []⟩,
            ⟨[], out.1.deviceOut.getD 1 []⟩]) (handedTail [] [⟨[0x55, 0xAA],
              out.1.deviceOut.getD 0 []⟩, ⟨[], out.1.deviceOut.getD 1 []⟩] [1])))) =
      some ([19, 20], true) := by decide +kernel
  obtain ⟨⟨p', mhs⟩, hsend, hout⟩ := Option.map_eq_some_iff.mp hsends
  obtain ⟨hlengths, hclear⟩ := Prod.mk.inj hout
  obtain ⟨first, rest, hfirst, hlen₁, hrest⟩ := List.map_eq_cons_iff.mp hlengths
  obtain ⟨second, hsecond, hlen₂⟩ := List.map_eq_singleton_iff.mp hrest
  have hdevice : p'.deviceOut = [first, second] := by rw [hfirst, hsecond]
  have hreachable : ((default : Protocol).init default default).Reachable :=
    ⟨default, default, default, default, [], default, rfl⟩
  obtain ⟨frames, hframes, hreceived⟩ := commands_received_in_order _ p'
    ((default : Protocol).init default default) [⟨1, 2, 0, [7]⟩, ⟨1, 3, 0, [8, 9]⟩] mhs hreachable
    (by decide) hsend
  have hboth : [first, second] = frames := by
    rw [← hdevice, hframes]
    rfl
  simp only [hdevice] at hclear
  obtain ⟨handed, returned, s, q', hdrains, hall⟩ := hreceived [⟨[0x55, 0xAA], first⟩, ⟨[], second⟩]
    [1] [[0x55, 0xAA] ++ first, second ++ [1]] default default hboth (of_decide_eq_true hclear)
    (by
      intro chunk hmem
      rcases List.mem_pair.mp hmem with rfl | rfl <;>
        simp only [List.length_append, hlen₁, hlen₂, BUFFER_SIZE, List.length_cons,
          List.length_nil] <;> omega)
    (by
      intro chunk hmem
      rcases List.mem_pair.mp hmem with rfl | rfl <;>
        simp only [List.length_append, hlen₁, hlen₂, BUFFER_SIZE, List.length_cons,
          List.length_nil] <;> omega)
    (by simp [Segment.stream, Segment.bytes])
  exact ⟨p', mhs, first, second, handed, returned, s, q', hsend, hdevice, hdrains, hall⟩

end RoboRTS.Sdk.Protocol
