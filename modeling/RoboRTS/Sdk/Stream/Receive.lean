import RoboRTS.Sdk.Stream.ByteHandler

/-!
# Reading from the serial device

`Receive` reads a chunk from the serial device when the last one is used up and hands its bytes
to `ByteHandler` until one of them completes a frame. `Hands` says which bytes that hands to the
parser, without the chunks: a byte that completes a frame is handed once more. `run_hands` is the
refinement between the two for reads shorter than the buffer; a read that fills the buffer
bypasses the parser (`bypassed_not_handed`).
-/

namespace RoboRTS.Sdk

/-- The members of `Protocol` that `Receive` works on. `reads` are the chunks the serial device
has still to return. The last three fields belong to no member: the number of bytes read so far,
the bytes handed to `ByteHandler` with their positions in all that was read, and the states in
which `Receive` returned its container. -/
structure Receiver (σ : Type*) where
  stream : RecvStream
  app : σ
  recvBuff : ByteMemory
  readPos : Nat
  readLen : Nat
  reads : List (List UInt8)
  received : Nat
  handed : List (UInt8 × Nat)
  returned : List σ

namespace Receiver

/-- A receiver in the initial stream state whose buffer counts as consumed. -/
def start {σ : Type*} (buff recvBuff : ByteMemory) (app : σ) (reads : List (List UInt8)) :
    Receiver σ where
  stream := RecvStream.init buff
  app := app
  recvBuff := recvBuff
  readPos := 0
  readLen := 0
  reads := reads
  received := 0
  handed := []
  returned := []

section Receive

variable {σ : Type*} (device : UInt8) (containerHandler : RecvStream → σ → Option (σ × Bool))

/-- Step 1 of `Receive`: read the next chunk when the buffer is consumed. A chunk has at most
`BUFFER_SIZE` bytes, so `recv_buff_read_len_` holds its length; without a chunk `Read` blocks. -/
def refill (r : Receiver σ) : Option (Receiver σ) :=
  if r.readLen ≤ r.readPos then
    match r.reads with
    | [] => none
    | chunk :: reads =>
        some { r with
          readPos := 0
          readLen := chunk.length
          recvBuff := r.recvBuff.write 0 chunk
          reads := reads
          received := r.received + chunk.length }
  else some r

/-- The position of the next byte of the buffer. -/
def position {σ : Type*} (r : Receiver σ) : Nat :=
  r.received - r.readLen + r.readPos

/-- What `ByteHandler` leaves of the byte at the read position. -/
def handByte {σ : Type*} (r : Receiver σ) (p : Parsed σ) : Receiver σ :=
  { r with
    stream := p.stream
    app := p.app
    handed := r.handed ++ [(r.recvBuff r.readPos, r.position)] }

/-- The next byte of the buffer. -/
def advance {σ : Type*} (r : Receiver σ) : Receiver σ :=
  { r with readPos := r.readPos + 1 }

/-- The loop of `Receive` over the last `count` bytes of the buffer; the flag says whether it
returned on a frame, and then the read position stays on the byte that completed it. -/
def scanBuffer : Nat → Receiver σ → Option (Receiver σ × Bool)
  | 0, r => some (r, false)
  | count + 1, r =>
      (byteHandler device containerHandler (r.recvBuff r.readPos) r.stream r.app).bind fun p =>
        if p.isFrame then some (r.handByte p, true)
        else scanBuffer count (r.handByte p).advance

/-- The branch of `Receive` for large data: the whole buffer is copied behind the live bytes of
the stream, which has room for it only when it is empty. -/
def storeLarge (r : Receiver σ) : Option (Receiver σ × Bool) :=
  if r.stream.recvIndex + BUFFER_SIZE ≤ MAX_PACK_SIZE then
    let buff := r.stream.recvBuff.write r.stream.recvIndex (r.recvBuff.read 0 BUFFER_SIZE)
    let stream :=
      { r.stream with recvBuff := buff, recvIndex := r.stream.recvIndex + BUFFER_SIZE }
    some ({ r with stream := stream, readPos := BUFFER_SIZE }, false)
  else none

/-- `Receive`; the flag says whether the result is a container. -/
def receive (r : Receiver σ) : Option (Receiver σ × Bool) :=
  (refill r).bind fun r =>
    if r.readLen = BUFFER_SIZE then storeLarge r
    else scanBuffer device containerHandler (r.readLen - r.readPos) r

/-- The container that a call of `Receive` returns, if it returns one, is recorded. -/
def record (out : Receiver σ × Bool) : Receiver σ :=
  if out.2 then { out.1 with returned := out.1.returned ++ [out.1.app] } else out.1

/-- One call of `Receive`. -/
def receiveOnce (r : Receiver σ) : Option (Receiver σ) :=
  (receive device containerHandler r).map record

/-- `k` calls of `Receive`. -/
def receiveTimes : Nat → Receiver σ → Option (Receiver σ)
  | 0, r => some r
  | k + 1, r => (receiveOnce device containerHandler r).bind (receiveTimes k)

end Receive

/-- Every byte of every chunk has been used: the next call would wait for the device. -/
def Consumed {σ : Type*} (r : Receiver σ) : Prop :=
  r.reads = [] ∧ r.readLen ≤ r.readPos

/-! ## What is handed to the parser -/

section Hands

variable {σ : Type*} {device : UInt8} {h : RecvStream → σ → Option (σ × Bool)}

/-- Which bytes of a byte string `Receive` hands to the parser and in which states it returns,
from position `i` on: a byte that completes a frame is handed again. -/
inductive Hands (device : UInt8) (h : RecvStream → σ → Option (σ × Bool)) :
    List UInt8 → Nat → RecvStream → σ → List (UInt8 × Nat) → List σ → RecvStream → σ → Prop
  | done (i : Nat) (s : RecvStream) (app : σ) : Hands device h [] i s app [] [] s app
  | pass {byte bytes i s app s' app' handed returned s'' app''} :
      byteHandler device h byte s app = some ⟨s', app', false⟩ →
      Hands device h bytes (i + 1) s' app' handed returned s'' app'' →
      Hands device h (byte :: bytes) i s app ((byte, i) :: handed) returned s'' app''
  | frame {byte bytes i s app s' app' handed returned s'' app''} :
      byteHandler device h byte s app = some ⟨s', app', true⟩ →
      Hands device h (byte :: bytes) i s' app' handed returned s'' app'' →
      Hands device h (byte :: bytes) i s app ((byte, i) :: handed) (app' :: returned) s'' app''

/-- The first byte is handed first. -/
theorem Hands.handed_head {byte : UInt8} {bytes : List UInt8} {i : Nat} {s s'' : RecvStream}
    {app app'' : σ} {handed : List (UInt8 × Nat)} {returned : List σ}
    (hh : Hands device h (byte :: bytes) i s app handed returned s'' app'') :
    ∃ rest, handed = (byte, i) :: rest := by
  cases hh with
  | pass => exact ⟨_, rfl⟩
  | frame => exact ⟨_, rfl⟩

/-- Each byte is handed once exactly when no byte completes a frame. -/
theorem hands_zipIdx {bytes : List UInt8} {i : Nat} {s : RecvStream} {app : σ} :
    (∃ returned s'' app'', Hands device h bytes i s app (bytes.zipIdx i) returned s'' app'') ↔
      ∃ results, feed device h bytes s app = some results ∧ ∀ p ∈ results, p.isFrame = false := by
  induction bytes generalizing i s app with
  | nil => exact ⟨fun _ => ⟨[], rfl, by simp⟩, fun _ => ⟨[], s, app, .done i s app⟩⟩
  | cons byte bytes ih =>
      rw [List.zipIdx_cons]
      constructor
      · rintro ⟨returned, s'', app'', hh⟩
        generalize hall : (byte, i) :: bytes.zipIdx (i + 1) = handed at hh
        cases hh with
        | @pass _ _ _ _ _ s' app' handed' _ _ _ hbyte hrest =>
            rw [← (List.cons.inj hall).2] at hrest
            obtain ⟨results, hfeed, hfalse⟩ := ih.mp ⟨_, _, _, hrest⟩
            refine ⟨⟨s', app', false⟩ :: results, by rw [feed, hbyte, Option.bind_some, hfeed]; rfl,
              ?_⟩
            rintro p (_ | ⟨_, hp⟩)
            · rfl
            · exact hfalse p hp
        | frame hbyte hagain =>
            -- the second copy of the byte would come at the position of the next one
            obtain ⟨rest, hrest⟩ := hagain.handed_head
            have hmem : (byte, i) ∈ bytes.zipIdx (i + 1) := by
              rw [(List.cons.inj hall).2, hrest]
              exact List.mem_cons_self
            have := List.le_snd_of_mem_zipIdx hmem
            omega
      · rintro ⟨results, hfeed, hfalse⟩
        rw [feed, Option.bind_eq_some_iff] at hfeed
        obtain ⟨⟨s', app', flag⟩, hbyte, hrest⟩ := hfeed
        rw [Option.map_eq_some_iff] at hrest
        obtain ⟨rest, hrest, rfl⟩ := hrest
        obtain rfl : flag = false := hfalse _ List.mem_cons_self
        obtain ⟨returned, s'', app'', hh⟩ :=
          ih.mpr ⟨rest, hrest, fun p hp => hfalse p (List.mem_cons_of_mem _ hp)⟩
        exact ⟨returned, s'', app'', .pass hbyte hh⟩

/-! ## The refinement -/

/-- The bytes that have been read or will be read and that the parser has not got past. -/
def remaining (r : Receiver σ) : List UInt8 :=
  r.recvBuff.read r.readPos (r.readLen - r.readPos) ++ r.reads.flatten

/-- Between two calls of `Receive`: the position is in the buffer, no chunk is empty, and none of
them, the current one included, fills the buffer. -/
structure Small (r : Receiver σ) : Prop where
  readPos_le : r.readPos ≤ r.readLen
  readLen_le : r.readLen ≤ r.received
  readLen_ne : r.readLen ≠ BUFFER_SIZE
  nonempty : ∀ chunk ∈ r.reads, chunk ≠ []
  reads_ne : ∀ chunk ∈ r.reads, chunk.length ≠ BUFFER_SIZE

theorem start_small (buff recvBuff : ByteMemory) (app : σ) {reads : List (List UInt8)}
    (hne : ∀ chunk ∈ reads, chunk ≠ []) (hsmall : ∀ chunk ∈ reads, chunk.length ≠ BUFFER_SIZE) :
    (start buff recvBuff app reads).Small :=
  ⟨Nat.le_refl 0, Nat.le_refl 0, by simp only [start, BUFFER_SIZE]; omega, hne, hsmall⟩

/-- A buffer with bytes left is not refilled. -/
theorem refill_of_lt {r : Receiver σ} (hlt : r.readPos < r.readLen) : r.refill = some r := by
  rw [refill, if_neg (by omega)]

/-- A consumed buffer takes the next chunk. -/
theorem refill_of_le {r : Receiver σ} (hle : r.readLen ≤ r.readPos) {chunk : List UInt8}
    {reads : List (List UInt8)} (hreads : r.reads = chunk :: reads) :
    r.refill = some { r with
      readPos := 0
      readLen := chunk.length
      recvBuff := r.recvBuff.write 0 chunk
      reads := reads
      received := r.received + chunk.length } := by
  rw [refill, if_pos hle, hreads]

/-- What `refill` leaves: bytes in the buffer, and the same bytes to come at the same position. -/
theorem refill_cases {r r' : Receiver σ} (hr : r.Small) (hrefill : r.refill = some r') :
    r'.Small ∧ r'.readPos < r'.readLen ∧ r'.remaining = r.remaining ∧ r'.position = r.position ∧
      r'.stream = r.stream ∧ r'.app = r.app ∧ r'.handed = r.handed ∧ r'.returned = r.returned := by
  obtain ⟨hpos, hlen, hne, hnonempty, hsmall⟩ := hr
  by_cases hlt : r.readPos < r.readLen
  · rw [refill_of_lt hlt] at hrefill
    cases hrefill
    exact ⟨⟨hpos, hlen, hne, hnonempty, hsmall⟩, hlt, rfl, rfl, rfl, rfl, rfl, rfl⟩
  · cases hreads : r.reads with
    | nil => simp [refill, hreads, show r.readLen ≤ r.readPos by omega] at hrefill
    | cons chunk reads =>
        rw [refill_of_le (by omega) hreads] at hrefill
        cases hrefill
        rw [hreads] at hnonempty hsmall
        have hchunk := List.length_pos_iff.mpr (hnonempty chunk List.mem_cons_self)
        refine ⟨⟨Nat.zero_le _, Nat.le_add_left _ _, hsmall chunk List.mem_cons_self,
          fun c hc => hnonempty c (List.mem_cons_of_mem _ hc),
          fun c hc => hsmall c (List.mem_cons_of_mem _ hc)⟩, hchunk, ?_, ?_, rfl, rfl, rfl, rfl⟩
        · simp only [remaining, hreads, List.flatten_cons, Nat.sub_zero, ByteMemory.read_write_same]
          rw [show r.readLen - r.readPos = 0 by omega, ByteMemory.read_zero, List.nil_append]
        · simp only [position]
          omega

/-- A buffer with bytes left starts with the one at the read position. -/
theorem remaining_cons {r : Receiver σ} (hlt : r.readPos < r.readLen) :
    r.remaining = r.recvBuff r.readPos ::
      (r.recvBuff.read (r.readPos + 1) (r.readLen - (r.readPos + 1)) ++ r.reads.flatten) := by
  rw [remaining, show r.readLen - r.readPos = (r.readLen - (r.readPos + 1)) + 1 by omega,
    Nat.add_comm _ 1, ByteMemory.read_add]
  rfl

/-- What `r'` still hands completes what `r` hands with `more` before it, and likewise for the
containers. -/
def Continues (device : UInt8) (h : RecvStream → σ → Option (σ × Bool)) (r r' : Receiver σ) : Prop :=
  ∃ more back, r'.handed = r.handed ++ more ∧ r'.returned = r.returned ++ back ∧
    ∀ handed returned s'' app'',
      Hands device h r'.remaining r'.position r'.stream r'.app handed returned s'' app'' →
      Hands device h r.remaining r.position r.stream r.app (more ++ handed) (back ++ returned) s''
        app''

theorem Continues.refl (r : Receiver σ) : Continues device h r r :=
  ⟨[], [], (List.append_nil _).symm, (List.append_nil _).symm, fun _ _ _ _ hh => hh⟩

theorem Continues.trans {r r' r'' : Receiver σ} (h₁ : Continues device h r r')
    (h₂ : Continues device h r' r'') : Continues device h r r'' := by
  obtain ⟨more₁, back₁, hhanded₁, hback₁, hhands₁⟩ := h₁
  obtain ⟨more₂, back₂, hhanded₂, hback₂, hhands₂⟩ := h₂
  refine ⟨more₁ ++ more₂, back₁ ++ back₂, by rw [hhanded₂, hhanded₁, List.append_assoc],
    by rw [hback₂, hback₁, List.append_assoc], fun handed returned s'' app'' hh => ?_⟩
  rw [List.append_assoc, List.append_assoc]
  exact hhands₁ _ _ _ _ (hhands₂ _ _ _ _ hh)

/-- A byte that completes no frame. -/
theorem scanBuffer_pass {r : Receiver σ} {s' : RecvStream} {app' : σ}
    (hbyte : byteHandler device h (r.recvBuff r.readPos) r.stream r.app =
      some ⟨s', app', false⟩) (count : Nat) :
    scanBuffer device h (count + 1) r =
      scanBuffer device h count (r.handByte ⟨s', app', false⟩).advance := by
  rw [scanBuffer, hbyte]
  rfl

/-- A byte that completes a frame. -/
theorem scanBuffer_frame {r : Receiver σ} {s' : RecvStream} {app' : σ}
    (hbyte : byteHandler device h (r.recvBuff r.readPos) r.stream r.app =
      some ⟨s', app', true⟩) (count : Nat) :
    scanBuffer device h (count + 1) r = some (r.handByte ⟨s', app', true⟩, true) := by
  rw [scanBuffer, hbyte]
  rfl

theorem Small.handByte {r : Receiver σ} (hr : r.Small) (p : Parsed σ) : (r.handByte p).Small :=
  ⟨hr.readPos_le, hr.readLen_le, hr.readLen_ne, hr.nonempty, hr.reads_ne⟩

theorem Small.advance {r : Receiver σ} (hr : r.Small) (hlt : r.readPos < r.readLen) :
    r.advance.Small :=
  ⟨hlt, hr.readLen_le, hr.readLen_ne, hr.nonempty, hr.reads_ne⟩

/-- A byte that completes no frame is handed once. -/
theorem pass_continues {r : Receiver σ} (hlt : r.readPos < r.readLen) {s' : RecvStream} {app' : σ}
    (hbyte : byteHandler device h (r.recvBuff r.readPos) r.stream r.app =
      some ⟨s', app', false⟩) :
    Continues device h r (r.handByte ⟨s', app', false⟩).advance := by
  refine ⟨[(r.recvBuff r.readPos, r.position)], [], rfl, (List.append_nil _).symm,
    fun handed returned s'' app'' hh => ?_⟩
  rw [remaining_cons hlt]
  exact .pass hbyte hh

/-- A byte that completes a frame is still to come. -/
theorem frame_continues {r : Receiver σ} (hlt : r.readPos < r.readLen) {s' : RecvStream} {app' : σ}
    (hbyte : byteHandler device h (r.recvBuff r.readPos) r.stream r.app =
      some ⟨s', app', true⟩) :
    Continues device h r (record (r.handByte ⟨s', app', true⟩, true)) := by
  have hcons := remaining_cons hlt
  refine ⟨[(r.recvBuff r.readPos, r.position)], [app'], rfl, rfl,
    fun handed returned s'' app'' hh => ?_⟩
  rw [hcons]
  refine .frame hbyte ?_
  rw [← hcons]
  exact hh

/-- The loop over the buffer hands the next bytes. -/
theorem scanBuffer_continues (count : Nat) : ∀ {r : Receiver σ} {out : Receiver σ × Bool}, r.Small →
    r.readPos + count = r.readLen → scanBuffer device h count r = some out →
    (record out).Small ∧ Continues device h r (record out) := by
  induction count with
  | zero =>
      intro r out hr _ hscan
      cases hscan
      exact ⟨hr, .refl r⟩
  | succ count ih =>
      intro r out hr hcount hscan
      have hlt : r.readPos < r.readLen := by omega
      cases hbyte : byteHandler device h (r.recvBuff r.readPos) r.stream r.app with
      | none => simp [scanBuffer, hbyte] at hscan
      | some p =>
          obtain ⟨s', app', flag⟩ := p
          cases flag with
          | true =>
              rw [scanBuffer_frame hbyte] at hscan
              cases hscan
              have hsmall := hr.handByte ⟨s', app', true⟩
              exact ⟨⟨hsmall.readPos_le, hsmall.readLen_le, hsmall.readLen_ne, hsmall.nonempty,
                hsmall.reads_ne⟩, frame_continues hlt hbyte⟩
          | false =>
              rw [scanBuffer_pass hbyte] at hscan
              obtain ⟨hsmall, hcont⟩ := ih ((hr.handByte _).advance hlt)
                (by show r.readPos + 1 + count = r.readLen; omega) hscan
              exact ⟨hsmall, (pass_continues hlt hbyte).trans hcont⟩

/-- A call of `Receive` hands the next bytes. -/
theorem receiveOnce_continues {r r' : Receiver σ} (hr : r.Small)
    (hreceive : receiveOnce device h r = some r') : r'.Small ∧ Continues device h r r' := by
  rw [receiveOnce, Option.map_eq_some_iff] at hreceive
  obtain ⟨out, hreceive, rfl⟩ := hreceive
  rw [receive, Option.bind_eq_some_iff] at hreceive
  obtain ⟨r₁, hrefill, hscan⟩ := hreceive
  obtain ⟨hr₁, hlt, hremaining, hposition, hstream, happ, hhanded, hreturned⟩ :=
    refill_cases hr hrefill
  rw [if_neg hr₁.readLen_ne] at hscan
  obtain ⟨hsmall, hcont⟩ := scanBuffer_continues _ hr₁ (by omega) hscan
  refine ⟨hsmall, Continues.trans ⟨[], [], by rw [hhanded, List.append_nil],
    by rw [hreturned, List.append_nil], fun handed returned s'' app'' hh => ?_⟩ hcont⟩
  rwa [hremaining, hposition, hstream, happ] at hh

theorem receiveTimes_continues (k : Nat) : ∀ {r r' : Receiver σ}, r.Small →
    receiveTimes device h k r = some r' → r'.Small ∧ Continues device h r r' := by
  induction k with
  | zero =>
      intro r r' hr hrun
      cases hrun
      exact ⟨hr, .refl r⟩
  | succ k ih =>
      intro r r' hr hrun
      rw [receiveTimes, Option.bind_eq_some_iff] at hrun
      obtain ⟨r₁, hfirst, hrest⟩ := hrun
      obtain ⟨hr₁, hcont₁⟩ := receiveOnce_continues hr hfirst
      obtain ⟨hr', hcont⟩ := ih hr₁ hrest
      exact ⟨hr', hcont₁.trans hcont⟩

/-- A consumed receiver has nothing to come. -/
theorem remaining_of_consumed {r : Receiver σ} (hr : r.Consumed) : r.remaining = [] := by
  obtain ⟨hreads, hle⟩ := hr
  rw [remaining, hreads, show r.readLen - r.readPos = 0 by omega]
  rfl

/-- A receiver with nothing to come is consumed. -/
theorem consumed_of_remaining {r : Receiver σ} (hr : r.Small) (hnil : r.remaining = []) :
    r.Consumed := by
  obtain ⟨hbuffer, hreads⟩ := List.append_eq_nil_iff.mp hnil
  have hlen := congrArg List.length hbuffer
  rw [ByteMemory.length_read, List.length_nil] at hlen
  refine ⟨?_, by omega⟩
  rw [List.flatten_eq_nil_iff] at hreads
  cases hr' : r.reads with
  | nil => rfl
  | cons chunk reads =>
      have hmem : chunk ∈ r.reads := by rw [hr']; exact List.mem_cons_self
      exact absurd (hreads chunk hmem) (hr.nonempty chunk hmem)

/-- A receiver with something to come can be refilled. -/
theorem refill_isSome {r : Receiver σ} (hne : r.remaining ≠ []) :
    ∃ r', r.refill = some r' := by
  by_cases hlt : r.readPos < r.readLen
  · exact ⟨r, refill_of_lt hlt⟩
  · cases hreads : r.reads with
    | nil => exact absurd (remaining_of_consumed ⟨hreads, by omega⟩) hne
    | cons chunk reads => exact ⟨_, refill_of_le (by omega) hreads⟩

/-- A call of `Receive` on a byte that completes no frame goes on with the next byte; on the last
byte of the buffer it returns nothing. -/
theorem receiveOnce_pass {r : Receiver σ} {s' : RecvStream} {app' : σ} (hr : r.Small)
    (hlt : r.readPos < r.readLen)
    (hbyte : byteHandler device h (r.recvBuff r.readPos) r.stream r.app =
      some ⟨s', app', false⟩) :
    receiveOnce device h r =
      if r.readPos + 1 < r.readLen then
        receiveOnce device h (r.handByte ⟨s', app', false⟩).advance
      else some (r.handByte ⟨s', app', false⟩).advance := by
  rw [receiveOnce, receive, refill_of_lt hlt, Option.bind_some, if_neg hr.readLen_ne,
    show r.readLen - r.readPos = (r.readLen - (r.readPos + 1)) + 1 by omega, scanBuffer_pass hbyte]
  split
  · next hnext =>
      rw [receiveOnce, receive, refill_of_lt (by exact hnext), Option.bind_some,
        if_neg (by exact hr.readLen_ne)]
      rfl
  · next hnext =>
      rw [show r.readLen - (r.readPos + 1) = 0 by omega]
      rfl

/-- A byte that completes a frame ends the call. -/
theorem receiveOnce_frame {r : Receiver σ} {s' : RecvStream} {app' : σ} (hr : r.Small)
    (hlt : r.readPos < r.readLen)
    (hbyte : byteHandler device h (r.recvBuff r.readPos) r.stream r.app =
      some ⟨s', app', true⟩) :
    receiveOnce device h r = some (record (r.handByte ⟨s', app', true⟩, true)) := by
  rw [receiveOnce, receive, refill_of_lt hlt, Option.bind_some, if_neg hr.readLen_ne,
    show r.readLen - r.readPos = (r.readLen - (r.readPos + 1)) + 1 by omega, scanBuffer_frame hbyte]
  rfl

/-- Refilling first changes nothing for a call of `Receive`. -/
theorem receiveOnce_refill {r r₁ : Receiver σ} (hlt : r₁.readPos < r₁.readLen)
    (hrefill : r.refill = some r₁) : receiveOnce device h r = receiveOnce device h r₁ := by
  rw [receiveOnce, receiveOnce, receive, receive, hrefill, refill_of_lt hlt]

/-- The outcome of repeated calls of `Receive` on `r` up to the consumption of every chunk. -/
def Drains (device : UInt8) (h : RecvStream → σ → Option (σ × Bool)) (r : Receiver σ)
    (handed : List (UInt8 × Nat)) (returned : List σ) (s : RecvStream) (app : σ) : Prop :=
  ∃ k r', receiveTimes device h k r = some r' ∧ r'.Consumed ∧ r'.handed = handed ∧
    r'.returned = returned ∧ r'.stream = s ∧ r'.app = app

/-- A call of `Receive` is the first of the calls that drain. -/
theorem Drains.of_once {r r₁ : Receiver σ} {handed : List (UInt8 × Nat)} {returned : List σ}
    {s : RecvStream} {app : σ} (honce : receiveOnce device h r = some r₁)
    (hdrains : Drains device h r₁ handed returned s app) :
    Drains device h r handed returned s app := by
  obtain ⟨k, r', hrun, hrest⟩ := hdrains
  exact ⟨k + 1, r', by rw [receiveTimes, honce, Option.bind_some, hrun], hrest⟩

variable (device h) in
/-- The next byte of a receiver that has `byte :: bytes` to come, once its buffer is refilled. -/
theorem refill_next {r : Receiver σ} {byte : UInt8} {bytes : List UInt8} (hr : r.Small)
    (hremaining : r.remaining = byte :: bytes) :
    ∃ r₁, r₁.Small ∧ r₁.readPos < r₁.readLen ∧ r₁.recvBuff r₁.readPos = byte ∧
      r₁.remaining = byte :: bytes ∧ r₁.advance.remaining = bytes ∧ r₁.position = r.position ∧
      r₁.stream = r.stream ∧ r₁.app = r.app ∧ r₁.handed = r.handed ∧ r₁.returned = r.returned ∧
      receiveOnce device h r = receiveOnce device h r₁ := by
  obtain ⟨r₁, hrefill⟩ := refill_isSome (by rw [hremaining]; exact List.cons_ne_nil _ _)
  obtain ⟨hr₁, hlt, hremaining₁, hrest⟩ := refill_cases hr hrefill
  rw [hremaining] at hremaining₁
  obtain ⟨hbyte, hbytes⟩ := List.cons.inj ((remaining_cons hlt).symm.trans hremaining₁)
  obtain ⟨hposition, hstream, happ, hhanded, hreturned⟩ := hrest
  exact ⟨r₁, hr₁, hlt, hbyte, hremaining₁, hbytes, hposition, hstream, happ, hhanded, hreturned,
    receiveOnce_refill hlt hrefill⟩

/-- Whatever is handed to the parser, calls of `Receive` hand it. -/
theorem drains_of_hands {bytes : List UInt8} {i : Nat} {s s'' : RecvStream} {app app'' : σ}
    {handed : List (UInt8 × Nat)} {returned : List σ}
    (hh : Hands device h bytes i s app handed returned s'' app'') :
    ∀ {r : Receiver σ}, r.Small → r.remaining = bytes → r.position = i → r.stream = s →
      r.app = app →
      Drains device h r (r.handed ++ handed) (r.returned ++ returned) s'' app'' := by
  induction hh with
  | done =>
      intro r hr hremaining _ hstream happ
      exact ⟨0, r, rfl, consumed_of_remaining hr hremaining, (List.append_nil _).symm,
        (List.append_nil _).symm, hstream, happ⟩
  | @pass byte bytes i s app s' app' handed returned s'' app'' hbyte _ ih =>
      intro r hr hremaining hposition hstream happ
      obtain ⟨r₁, hr₁, hlt, rfl, -, hbytes, hposition₁, hstream₁, happ₁, hhanded₁, hreturned₁, hsame⟩ :=
        refill_next device h hr hremaining
      rw [← hstream, ← hstream₁, ← happ, ← happ₁] at hbyte
      have honce := receiveOnce_pass hr₁ hlt hbyte
      rw [← hsame] at honce
      have hdrains := ih ((hr₁.handByte ⟨s', app', false⟩).advance hlt) hbytes
        (by rw [← hposition, ← hposition₁]; rfl) rfl rfl
      have hhanded : (r₁.handByte ⟨s', app', false⟩).advance.handed ++ handed =
          r.handed ++ (r₁.recvBuff r₁.readPos, i) :: handed := by
        rw [← hposition, ← hposition₁, ← hhanded₁]
        exact List.append_assoc _ _ _
      rw [hhanded, show (r₁.handByte ⟨s', app', false⟩).advance.returned = r.returned from
        hreturned₁] at hdrains
      split at honce
      · next hnext =>
          obtain ⟨k, r', hrun, hconsumed, hrest⟩ := hdrains
          cases k with
          | zero =>
              cases hrun
              exact absurd hconsumed.2 (Nat.not_le.mpr hnext)
          | succ k =>
              refine ⟨k + 1, r', ?_, hconsumed, hrest⟩
              rw [receiveTimes, honce]
              exact hrun
      · exact .of_once honce hdrains
  | @frame byte bytes i s app s' app' handed returned s'' app'' hbyte _ ih =>
      intro r hr hremaining hposition hstream happ
      obtain ⟨r₁, hr₁, hlt, rfl, hremaining₁, -, hposition₁, hstream₁, happ₁, hhanded₁, hreturned₁,
        hsame⟩ := refill_next device h hr hremaining
      rw [← hstream, ← hstream₁, ← happ, ← happ₁] at hbyte
      have honce := receiveOnce_frame hr₁ hlt hbyte
      rw [← hsame] at honce
      have hdrains := ih (r := record (r₁.handByte ⟨s', app', true⟩, true))
        ⟨hr₁.readPos_le, hr₁.readLen_le, hr₁.readLen_ne, hr₁.nonempty, hr₁.reads_ne⟩
        hremaining₁ (hposition₁.trans hposition) rfl rfl
      have hhanded : (record (r₁.handByte ⟨s', app', true⟩, true)).handed ++ handed =
          r.handed ++ (r₁.recvBuff r₁.readPos, i) :: handed := by
        rw [← hposition, ← hposition₁, ← hhanded₁]
        exact List.append_assoc _ _ _
      have hreturned : (record (r₁.handByte ⟨s', app', true⟩, true)).returned ++ returned =
          r.returned ++ app' :: returned := by
        rw [← hreturned₁]
        exact List.append_assoc _ _ _
      rw [hhanded, hreturned] at hdrains
      exact .of_once honce hdrains

variable (device h) in
/-- Repeated calls of `Receive` hand what `Hands` says, for reads that do not fill the buffer. -/
theorem drains_iff_hands {r : Receiver σ} (hr : r.Small) (handed : List (UInt8 × Nat))
    (returned : List σ) (s : RecvStream) (app : σ) :
    Drains device h r (r.handed ++ handed) (r.returned ++ returned) s app ↔
      Hands device h r.remaining r.position r.stream r.app handed returned s app := by
  constructor
  · rintro ⟨k, r', hrun, hconsumed, hhanded, hreturned, rfl, rfl⟩
    obtain ⟨-, more, back, hmore, hback, hhands⟩ := receiveTimes_continues k hr hrun
    rw [hmore, List.append_cancel_left_eq] at hhanded
    rw [hback, List.append_cancel_left_eq] at hreturned
    have hall := hhands [] [] r'.stream r'.app
      (by rw [remaining_of_consumed hconsumed]; exact .done _ _ _)
    rwa [List.append_nil, List.append_nil, hhanded, hreturned] at hall
  · intro hh
    exact drains_of_hands hh hr rfl rfl rfl rfl

/-! ## Reads that fill the buffer -/

/-- The byte at position `p`, the first of a chunk that fills the buffer, is not handed: the chunk
is still to be read, or it is in the buffer, or it is behind. -/
structure Bypassed (p : Nat) (r : Receiver σ) : Prop where
  readLen_le : r.readLen ≤ r.received
  not_handed : ∀ x ∈ r.handed, x.2 ≠ p
  large : (∃ front chunk back, r.reads = front ++ chunk :: back ∧ chunk.length = BUFFER_SIZE ∧
      p = r.received + front.flatten.length) ∨
    (r.readLen = BUFFER_SIZE ∧ p + BUFFER_SIZE = r.received) ∨ p + r.readLen < r.received

theorem start_bypassed (buff recvBuff : ByteMemory) (app : σ) {front back : List (List UInt8)}
    {chunk : List UInt8} (hchunk : chunk.length = BUFFER_SIZE) :
    Bypassed front.flatten.length (start buff recvBuff app (front ++ chunk :: back)) :=
  ⟨Nat.le_refl 0, by simp [start],
    Or.inl ⟨front, chunk, back, rfl, hchunk, (Nat.zero_add _).symm⟩⟩

theorem Bypassed.refill {p : Nat} {r r' : Receiver σ} (hr : r.Bypassed p)
    (hrefill : r.refill = some r') : r'.Bypassed p := by
  obtain ⟨hlen, hnot, hlarge⟩ := hr
  by_cases hlt : r.readPos < r.readLen
  · rw [refill_of_lt hlt] at hrefill
    cases hrefill
    exact ⟨hlen, hnot, hlarge⟩
  · cases hreads : r.reads with
    | nil => simp [Receiver.refill, hreads, show r.readLen ≤ r.readPos by omega] at hrefill
    | cons next reads =>
        rw [refill_of_le (by omega) hreads] at hrefill
        cases hrefill
        refine ⟨Nat.le_add_left _ _, hnot, ?_⟩
        show _ ∨ (next.length = BUFFER_SIZE ∧ p + BUFFER_SIZE = r.received + next.length) ∨
          p + next.length < r.received + next.length
        rcases hlarge with ⟨front, chunk, back, hsplit, hchunk, hp⟩ | ⟨hfull, hp⟩ | hp
        · rw [hreads] at hsplit
          cases front with
          | nil =>
              obtain ⟨rfl, -⟩ := List.cons.inj hsplit
              rw [List.flatten_nil, List.length_nil] at hp
              exact Or.inr (Or.inl ⟨hchunk, by omega⟩)
          | cons first front =>
              obtain ⟨rfl, hrest⟩ := List.cons.inj hsplit
              refine Or.inl ⟨front, chunk, back, hrest, hchunk, ?_⟩
              rw [hp, List.flatten_cons, List.length_append]
              exact (Nat.add_assoc _ _ _).symm
        · simp only [BUFFER_SIZE] at hp
          omega
        · omega

/-- The loop over the buffer hands bytes of the buffer only. -/
theorem scanBuffer_handed (count : Nat) : ∀ {r : Receiver σ} {out : Receiver σ × Bool},
    scanBuffer device h count r = some out →
      out.1.reads = r.reads ∧ out.1.readLen = r.readLen ∧ out.1.received = r.received ∧
        ∀ x ∈ out.1.handed, x ∈ r.handed ∨ r.position ≤ x.2 ∧ x.2 < r.position + count := by
  induction count with
  | zero =>
      intro r out hscan
      cases hscan
      exact ⟨rfl, rfl, rfl, fun x hx => Or.inl hx⟩
  | succ count ih =>
      intro r out hscan
      rw [scanBuffer, Option.bind_eq_some_iff] at hscan
      obtain ⟨p, -, hrest⟩ := hscan
      have hhanded : ∀ x ∈ (r.handByte p).handed, x ∈ r.handed ∨ x.2 = r.position := by
        intro x hx
        rcases List.mem_append.mp hx with hx | hx
        · exact Or.inl hx
        · rw [List.mem_singleton.mp hx]
          exact Or.inr rfl
      split at hrest
      · cases hrest
        refine ⟨rfl, rfl, rfl, fun x hx => ?_⟩
        rcases hhanded x hx with hx | hx
        · exact Or.inl hx
        · omega
      · obtain ⟨hreads, hlen, hreceived, hmem⟩ := ih hrest
        have hposition : (r.handByte p).advance.position = r.position + 1 :=
          (Nat.add_assoc _ _ _).symm
        rw [hposition] at hmem
        refine ⟨hreads, hlen, hreceived, fun x hx => ?_⟩
        rcases hmem x hx with hx | hx
        · rcases hhanded x hx with hx | hx
          · exact Or.inl hx
          · omega
        · omega

theorem Bypassed.receiveOnce {p : Nat} {r r' : Receiver σ} (hr : r.Bypassed p)
    (honce : receiveOnce device h r = some r') : r'.Bypassed p := by
  rw [Receiver.receiveOnce, Option.map_eq_some_iff] at honce
  obtain ⟨out, hreceive, rfl⟩ := honce
  have hrecord : (record out).readLen = out.1.readLen ∧ (record out).received = out.1.received ∧
      (record out).reads = out.1.reads ∧ (record out).handed = out.1.handed := by
    rw [record]
    split <;> exact ⟨rfl, rfl, rfl, rfl⟩
  suffices hout : out.1.Bypassed p by
    obtain ⟨h₁, h₂, h₃⟩ := hout
    obtain ⟨hlen, hreceived, hreads, hhanded⟩ := hrecord
    exact ⟨by rw [hlen, hreceived]; exact h₁, by rw [hhanded]; exact h₂,
      by rw [hlen, hreceived, hreads]; exact h₃⟩
  rw [receive, Option.bind_eq_some_iff] at hreceive
  obtain ⟨r₁, hrefill, hbody⟩ := hreceive
  obtain ⟨hlen, hnot, hlarge⟩ := hr.refill hrefill
  split at hbody
  · rw [storeLarge] at hbody
    split at hbody
    · cases hbody
      exact ⟨hlen, hnot, hlarge⟩
    · cases hbody
  · next hsmall =>
      obtain ⟨hreads, hlen', hreceived, hmem⟩ := scanBuffer_handed _ hbody
      refine ⟨by rw [hlen', hreceived]; exact hlen, fun x hx => ?_,
        by rw [hlen', hreceived, hreads]; exact hlarge⟩
      rcases hmem x hx with hx | hx
      · exact hnot x hx
      · simp only [position] at hx
        rcases hlarge with ⟨front, chunk, back, -, -, hp⟩ | ⟨hfull, -⟩ | hp
        · omega
        · exact absurd hfull hsmall
        · omega

/-- The first byte of a chunk that fills the buffer is never handed to the parser. -/
theorem bypassed_not_handed {p : Nat} (k : Nat) : ∀ {r r' : Receiver σ}, r.Bypassed p →
    receiveTimes device h k r = some r' → ∀ x ∈ r'.handed, x.2 ≠ p := by
  induction k with
  | zero =>
      intro r r' hr hrun
      cases hrun
      exact hr.not_handed
  | succ k ih =>
      intro r r' hr hrun
      rw [receiveTimes, Option.bind_eq_some_iff] at hrun
      obtain ⟨r₁, hfirst, hrest⟩ := hrun
      exact ih (hr.receiveOnce hfirst) hrest

/-! ## Exactly once -/

/-- Repeated calls of `Receive` on `reads` consume every chunk and hand each byte to the parser
once, in order. -/
def HandsOnce (device : UInt8) (h : RecvStream → σ → Option (σ × Bool)) (r : Receiver σ)
    (bytes : List UInt8) : Prop :=
  ∃ returned s app, Drains device h r bytes.zipIdx returned s app

/-- Bytes are handed once exactly when no read fills the buffer and no byte completes a frame. -/
theorem start_handsOnce_iff (buff recvBuff : ByteMemory) (app : σ) {reads : List (List UInt8)}
    (hne : ∀ chunk ∈ reads, chunk ≠ []) :
    HandsOnce device h (start buff recvBuff app reads) reads.flatten ↔
      (∀ chunk ∈ reads, chunk.length ≠ BUFFER_SIZE) ∧
        ∃ results, feed device h reads.flatten (RecvStream.init buff) app = some results ∧
          ∀ p ∈ results, p.isFrame = false := by
  by_cases hsmall : ∀ chunk ∈ reads, chunk.length ≠ BUFFER_SIZE
  · have hstart := start_small buff recvBuff app hne hsmall
    have hiff := fun returned s app' => drains_iff_hands device h hstart
      reads.flatten.zipIdx returned s app'
    rw [and_iff_right hsmall, ← hands_zipIdx (i := 0)]
    exact exists_congr fun returned => exists_congr fun s => exists_congr fun app' =>
      hiff returned s app'
  · refine iff_of_false ?_ fun hall => hsmall hall.1
    rintro ⟨returned, s, app', k, r', hrun, -, hhanded, -⟩
    push Not at hsmall
    obtain ⟨chunk, hmem, hchunk⟩ := hsmall
    obtain ⟨front, back, rfl⟩ := List.append_of_mem hmem
    have hnot := bypassed_not_handed k (start_bypassed buff recvBuff app hchunk) hrun
    have hlt : front.flatten.length < (front ++ chunk :: back).flatten.length := by
      rw [List.flatten_append, List.flatten_cons, List.length_append, List.length_append, hchunk,
        BUFFER_SIZE]
      omega
    refine hnot ((front ++ chunk :: back).flatten[front.flatten.length], front.flatten.length) ?_ rfl
    rw [hhanded, List.mk_mem_zipIdx_iff_getElem?]
    exact List.getElem?_eq_getElem hlt

/-- Without reads that fill the buffer, how the bytes were split into reads makes no difference. -/
theorem start_drains_iff (buff recvBuff : ByteMemory) (app : σ) {reads reads' : List (List UInt8)}
    (hne : ∀ chunk ∈ reads, chunk ≠ []) (hsmall : ∀ chunk ∈ reads, chunk.length ≠ BUFFER_SIZE)
    (hne' : ∀ chunk ∈ reads', chunk ≠ []) (hsmall' : ∀ chunk ∈ reads', chunk.length ≠ BUFFER_SIZE)
    (hflatten : reads.flatten = reads'.flatten) (handed : List (UInt8 × Nat)) (returned : List σ)
    (s : RecvStream) (app' : σ) :
    Drains device h (start buff recvBuff app reads) handed returned s app' ↔
      Drains device h (start buff recvBuff app reads') handed returned s app' := by
  have hiff := drains_iff_hands device h (start_small buff recvBuff app hne hsmall) handed returned s
    app'
  have hiff' := drains_iff_hands device h (start_small buff recvBuff app hne' hsmall') handed
    returned s app'
  refine hiff.trans (Iff.trans ?_ hiff'.symm)
  rw [show (start buff recvBuff app reads).remaining = reads.flatten from rfl,
    show (start buff recvBuff app reads').remaining = reads'.flatten from rfl, hflatten]
  rfl

end Hands

end Receiver

end RoboRTS.Sdk
