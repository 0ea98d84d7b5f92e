import RoboRTS.Sdk.Protocol.RoundTrip
import RoboRTS.Sdk.Stream.Receive

/-!
# Which bytes a protocol object parses

`Receive` of a protocol object, for every sequence of reads that the serial device returns. The
bytes that a byte string of reads hands to the parser do not depend on how it was split, but the
byte that completes a frame is handed twice, and a read that fills the buffer is not parsed.
-/

namespace RoboRTS.Sdk.Protocol

/-- What successful reads return: between one byte and a full buffer each. -/
def SerialReads (reads : List (List UInt8)) : Prop :=
  ∀ chunk ∈ reads, 1 ≤ chunk.length ∧ chunk.length ≤ BUFFER_SIZE

instance (reads : List (List UInt8)) : Decidable (SerialReads reads) :=
  inferInstanceAs (Decidable (∀ chunk ∈ reads, 1 ≤ chunk.length ∧ chunk.length ≤ BUFFER_SIZE))

theorem SerialReads.ne_nil {reads : List (List UInt8)} (h : SerialReads reads) :
    ∀ chunk ∈ reads, chunk ≠ [] := by
  intro chunk hmem hnil
  have := (h chunk hmem).1
  rw [hnil] at this
  exact absurd this (by decide)

/-- Repeated calls of `Receive` of `p` on `reads` until every byte is used. -/
def Drains (p : Protocol) (buff recvBuff : ByteMemory) (reads : List (List UInt8))
    (handed : List (UInt8 × Nat)) (returned : List Protocol) (s : RecvStream) (p' : Protocol) :
    Prop :=
  Receiver.Drains p.device (onFrame onStream) (Receiver.start buff recvBuff p reads) handed returned
    s p'

/-- The bytes that `Receive` of `p` hands to the parser are the concatenation of `reads`, each byte
once and in order. -/
def HandsOnce (p : Protocol) (buff recvBuff : ByteMemory) (reads : List (List UInt8)) : Prop :=
  ∃ returned s p', p.Drains buff recvBuff reads reads.flatten.zipIdx returned s p'

/-- Every byte is parsed once exactly when no read fills the buffer and no byte completes a frame;
and as long as no read fills the buffer, what is parsed and which containers are returned depend on
the concatenation of the reads only. -/
theorem receive_exactly_once (p : Protocol) (buff recvBuff : ByteMemory)
    (reads : List (List UInt8)) (hreads : SerialReads reads) :
    (p.HandsOnce buff recvBuff reads ↔
      (∀ chunk ∈ reads, chunk.length ≠ BUFFER_SIZE) ∧
        ∃ results, feed p.device (onFrame onStream) reads.flatten (RecvStream.init buff) p =
            some results ∧ ∀ r ∈ results, r.isFrame = false) ∧
    ∀ reads', SerialReads reads' → (∀ chunk ∈ reads, chunk.length ≠ BUFFER_SIZE) →
      (∀ chunk ∈ reads', chunk.length ≠ BUFFER_SIZE) → reads.flatten = reads'.flatten →
      ∀ handed returned s p', p.Drains buff recvBuff reads handed returned s p' ↔
        p.Drains buff recvBuff reads' handed returned s p' :=
  ⟨Receiver.start_handsOnce_iff buff recvBuff p hreads.ne_nil,
    fun _ hreads' hsmall hsmall' hflatten =>
      Receiver.start_drains_iff buff recvBuff p hreads.ne_nil hsmall hreads'.ne_nil hsmall' hflatten⟩

/-- Three bytes of noise in two reads are parsed once, as in one read. -/
theorem receive_exactly_once_noise :
    (default : Protocol).HandsOnce default default [[0xAA], [1, 2]] ∧
      ∀ handed returned s p',
        (default : Protocol).Drains default default [[0xAA], [1, 2]] handed returned s p' ↔
          (default : Protocol).Drains default default [[0xAA, 1, 2]] handed returned s p' := by
  have hreads : SerialReads [[0xAA], [1, 2]] := by decide
  have hreads' : SerialReads [[0xAA, 1, 2]] := by decide
  have hfeed : ((feed (default : Protocol).device (onFrame onStream) [0xAA, 1, 2]
      (RecvStream.init default) default).map (List.all · fun r => !r.isFrame)) = some true := by
    decide +kernel
  obtain ⟨results, hresults, hall⟩ := Option.map_eq_some_iff.mp hfeed
  refine ⟨(receive_exactly_once _ _ _ _ hreads).1.mpr ⟨by decide, results, hresults, ?_⟩,
    (receive_exactly_once _ _ _ _ hreads).2 _ hreads' (by decide) (by decide) rfl⟩
  intro r hr
  simpa using List.all_eq_true.mp hall r hr

/-- A command frame in one read: its last byte is handed twice. -/
theorem receive_hands_frame_end_again :
    ¬ ∀ (p : Protocol) (buff recvBuff : ByteMemory) (reads : List (List UInt8)), SerialReads reads →
      p.HandsOnce buff recvBuff reads := by
  intro hall
  have hs := cmdHeader_sendable (p := default) (i := 0) (by decide) 1
    (show (0 : UInt8) = (default : Protocol).device ∨ (0 : UInt8) = 0xFF from Or.inl rfl) 1 2
    (show [(7 : UInt8)].length ≤ 1005 by decide)
  obtain ⟨c, hhandle, -⟩ := containerHandler_session0 (q := default) hs rfl rfl
  obtain ⟨results, last, hfeed, -, hlast, -⟩ :=
    decodes_of_handler (P := fun _ => True) hs hhandle trivial default
  have hreads : SerialReads [(default : Protocol).cmdPackage 0 1 1 2 0 [7]] := by
    intro chunk hmem
    rw [List.mem_singleton.mp hmem, length_cmdPackage]
    decide
  obtain ⟨-, results', hfeed', hfalse⟩ :=
    (Receiver.start_handsOnce_iff default default default hreads.ne_nil).mp
      (hall default default default _ hreads)
  rw [List.flatten_singleton] at hfeed'
  obtain rfl := Option.some.inj (hfeed.symm.trans hfeed')
  rw [hfalse last (by simp)] at hlast
  cases hlast

end RoboRTS.Sdk.Protocol
