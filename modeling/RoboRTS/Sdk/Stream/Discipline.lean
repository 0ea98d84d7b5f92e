import RoboRTS.Sdk.Stream.ByteHandler

/-!
# Parser soundness and buffer discipline

At every iteration of every call of `ByteHandler` the buffer holds a piece of the received
stream that ends at the last byte, in two regions that do not overlap, and `ContainerHandler` is
called on valid frames of the stream only (`parser_sound`).
-/

namespace RoboRTS.Sdk

/-- What `VerifyHeader` and `VerifyData` check of a frame before it is handled. -/
structure ValidFrame (device : UInt8) (frame : List UInt8) : Prop where
  sof : (Header.decode (ByteMemory.ofList frame) 0).sof = SOF
  version : (Header.decode (ByteMemory.ofList frame) 0).version = VERSION
  length : (Header.decode (ByteMemory.ofList frame) 0).length = frame.length
  reserved0 : (Header.decode (ByteMemory.ofList frame) 0).reserved0 = 0
  reserved1 : (Header.decode (ByteMemory.ofList frame) 0).reserved1 = 0
  receiver : (Header.decode (ByteMemory.ofList frame) 0).receiver = device ∨
    (Header.decode (ByteMemory.ofList frame) 0).receiver = 0xFF
  header_len : HEADER_LEN ≤ frame.length
  head : crc16Calc (frame.take HEADER_LEN) = 0
  tail : HEADER_LEN < frame.length → crc32Calc frame = 0

/-- One call of `ByteHandler` as a step of the receiver. -/
def byteStep {σ : Type*} (device : UInt8) (containerHandler : RecvStream → σ → Option (σ × Bool))
    (state : RecvStream × σ) (byte : UInt8) : Option (RecvStream × σ) :=
  (byteHandler device containerHandler byte state.1 state.2).map fun p => (p.stream, p.app)

/-- The header in a piece of the stream is the header at its position. -/
theorem decode_ofList_read (x : ByteMemory) {m l : Nat} (hl : 10 ≤ l) :
    Header.decode (ByteMemory.ofList (x.read m l)) 0 = Header.decode x m := by
  apply Header.decode_congr
  intro i hi
  have hlen : i < (x.read m l).length := by rw [ByteMemory.length_read]; omega
  rw [Nat.zero_add, ByteMemory.ofList_apply _ hlen, ByteMemory.getElem_read]

theorem headerValid_iff {device : UInt8} {x : ByteMemory} {m : Nat} :
    headerValid device x m = true ↔
      (Header.decode x m).sof = SOF ∧ (Header.decode x m).version = VERSION ∧
      (Header.decode x m).length < MAX_PACK_SIZE ∧ (Header.decode x m).reserved0 = 0 ∧
      (Header.decode x m).reserved1 = 0 ∧
      ((Header.decode x m).receiver = device ∨ (Header.decode x m).receiver = 0xFF) ∧
      crc16Calc (x.read m HEADER_LEN) = 0 := by
  simp [headerValid, crcHeadCheck, and_assoc]

/-- Accepted windows are valid frames. -/
theorem validFrame_of_accepted {device : UInt8} {x : ByteMemory} {m : Nat}
    (h : Scan.accepted device x m = true) : ValidFrame device (x.read m (Scan.len x m)) := by
  obtain ⟨hv, hl, htail⟩ := Scan.accepted_iff.mp h
  obtain ⟨hsof, hver, -, hr0, hr1, hrecv, hcrc⟩ := headerValid_iff.mp hv
  have hdecode := decode_ofList_read x (m := m) (l := Scan.len x m)
    (Nat.le_trans (by decide) hl)
  have hlen := ByteMemory.length_read x m (Scan.len x m)
  refine ⟨?_, ?_, ?_, ?_, ?_, ?_, ?_, ?_, ?_⟩
  · rw [hdecode, hsof]
  · rw [hdecode, hver]
  · rw [hdecode, hlen, Scan.len]
  · rw [hdecode, hr0]
  · rw [hdecode, hr1]
  · rw [hdecode]
    exact hrecv
  · rw [hlen]
    exact hl
  · rw [ByteMemory.take_read x m hl, hcrc]
  · intro hlt
    rw [hlen] at hlt
    simpa [crcTailCheck] using htail.resolve_left (Nat.ne_of_gt hlt)

section

variable {σ : Type*} {device : UInt8} {handle : List UInt8 → Nat → σ → Option (σ × Bool)}
variable {x : ByteMemory} {m k n : Nat}

/-- Every recorded call was on an accepted window among the first `n` bytes. -/
def RecordOk (device : UInt8) (x : ByteMemory) (n : Nat) (record : List Handled) : Prop :=
  ∀ f ∈ record, ∃ m, Scan.accepted device x m = true ∧ m + Scan.len x m ≤ n ∧
    f.frame = x.read m (Scan.len x m)

theorem RecordOk.mono {record : List Handled} {n' : Nat} (h : RecordOk device x n record)
    (hle : n ≤ n') : RecordOk device x n' record := by
  intro f hf
  obtain ⟨m, hacc, hm, hframe⟩ := h f hf
  exact ⟨m, hacc, Nat.le_trans hm hle, hframe⟩

/-- The state of a call of `ByteHandler` between two bytes that it scans. -/
def ScanState (device : UInt8) (x : ByteMemory) (n : Nat)
    (p : Parsed (Option σ × List Handled)) : Prop :=
  (∃ m k, Holds x m k k n p.stream ∧ k < Scan.due device x m) ∧ RecordOk device x n p.app.2

variable (handle) in
/-- Scanning one byte keeps the buffer and the record in order. -/
theorem streamHandler_scanState {s : RecvStream} {app : Option σ × List Handled}
    (hs : Holds x m k (k + 1) n s) (hk : k < Scan.due device x m)
    (happ : RecordOk device x n app.2) :
    ∃ p, streamHandler device (onFrame (recorded handle)) (x k) s app = some p ∧
      ScanState device x n p := by
  have hroom := hs.room
  have hpn := hs.pending_le
  by_cases hwait : k + 1 < Scan.due device x m
  · obtain ⟨s', hs', hholds, -⟩ :=
      streamHandler_wait (onFrame (recorded handle)) app hs hwait
    exact ⟨_, hs', ⟨m, k + 1, hholds, hwait⟩, happ⟩
  have hdue : k + 1 = Scan.due device x m := by omega
  have hlater := Scan.resume_lt_due_next device x m
  cases hacc : Scan.accepted device x m with
  | false =>
      obtain ⟨s', hs', hholds, -⟩ := streamHandler_reject (onFrame (recorded handle)) app hs hdue (by omega) hacc
      exact ⟨_, hs', ⟨_, _, hholds, hlater⟩, happ⟩
  | true =>
      obtain ⟨s₁, s', hs', hframe, -, hholds⟩ := streamHandler_accept (onFrame (recorded handle)) app hs hdue hacc
      rw [Scan.resume_of_accepted hacc, ← hdue] at hlater
      refine ⟨_, hs', ⟨_, _, hholds, hlater⟩, ?_⟩
      intro f hf
      rcases List.mem_append.mp hf with hold | hnew
      · exact happ f hold
      · rw [List.mem_singleton.mp hnew]
        exact ⟨m, hacc, by rw [← Scan.due_of_accepted hacc]; omega, hframe⟩

variable (handle) in
/-- After any number of iterations of the re-scan loop. -/
theorem byteHandlerUpTo_scanState {s : RecvStream} {app : Option σ × List Handled} (bound : Nat)
    (hs : Ready device x m n s) (happ : RecordOk device x n app.2) :
    ∃ p, byteHandlerUpTo device (onFrame (recorded handle)) bound (x n) s app = some p ∧
      ScanState device x (n + 1) p := by
  obtain ⟨p, hp, hinv⟩ := streamHandler_scanState handle hs.holds hs.undecided
    (happ.mono (Nat.le_succ n))
  rw [byteHandlerUpTo, hp, Option.bind_some]
  by_cases hcount : p.stream.reuseCount ≠ 0
  · rw [if_pos hcount]
    refine While.whileUpTo_total (P := ScanState device x (n + 1)) ?_ bound hinv
    rintro q ⟨⟨m', k', hholds, hk'⟩, hrecord⟩ hcond
    obtain ⟨hbyte, htake⟩ := hholds.take ((rescanCond_iff hholds).mp hcond)
    rw [rescanBody, hbyte]
    exact streamHandler_scanState handle htake hk' hrecord
  · rw [if_neg hcount]
    exact ⟨p, rfl, hinv⟩

/-- The receiver between two calls. -/
def Receiving (device : UInt8) (x : ByteMemory) (n : Nat)
    (state : RecvStream × (Option σ × List Handled)) : Prop :=
  (∃ m, Ready device x m n state.1) ∧ RecordOk device x n state.2.2

variable (handle) in
theorem byteStep_receiving {state : RecvStream × (Option σ × List Handled)}
    (hs : Receiving device x n state) :
    ∃ state', byteStep device (onFrame (recorded handle)) state (x n) = some state' ∧
      Receiving device x (n + 1) state' := by
  obtain ⟨⟨m, hready⟩, hrecord⟩ := hs
  have hagree := byteHandler_scan (h := recorded handle) state.2 hready
  obtain ⟨p, hp, -, hrecord'⟩ :=
    byteHandlerUpTo_scanState handle rescanBound hready hrecord
  rw [byteStep]
  rw [byteHandler, hp, Option.map_some] at hagree ⊢
  match hscan : Scan.scan device (recorded handle) x (n + 1) m state.2 false with
  | none =>
      rw [hscan] at hagree
      exact absurd hagree (by simp [Agrees])
  | some (m', app', flag') =>
      rw [hscan] at hagree
      obtain ⟨s', heq, hholds, hdue⟩ := hagree
      refine ⟨_, rfl, ⟨m', ?_⟩, ?_⟩
      · rw [Option.some.inj heq]
        exact hholds.ready hdue
      · split <;> exact hrecord'

variable (device handle x) in
/-- The receiver after the bytes of a list. -/
theorem run_receiving (bytes : List UInt8) :
    ∀ (n : Nat) (state : RecvStream × (Option σ × List Handled)),
    (∀ i (hi : i < bytes.length), x (n + i) = bytes[i]) → Receiving device x n state →
    ∃ state', StateMachine.run (byteStep device (onFrame (recorded handle))) state bytes =
        some state' ∧ Receiving device x (n + bytes.length) state' := by
  induction bytes with
  | nil => exact fun _ _ _ hs => ⟨_, rfl, hs⟩
  | cons byte bytes ih =>
      intro n state hbytes hs
      have hbyte : x n = byte := hbytes 0 (by simp)
      obtain ⟨s₁, hfirst, hs₁⟩ := byteStep_receiving handle hs
      obtain ⟨s₂, hrest, hs₂⟩ := ih (n + 1) s₁
        (fun i hi => by
          have := hbytes (i + 1) (by simpa using hi)
          rw [Nat.add_assoc, Nat.add_comm 1 i]
          simpa using this) hs₁
      refine ⟨s₂, ?_, ?_⟩
      · rw [StateMachine.run_cons, ← hbyte, hfirst]
        exact hrest
      · rw [List.length_cons, Nat.add_comm bytes.length 1, ← Nat.add_assoc]
        exact hs₂

end

/-- Parser soundness and buffer discipline: after every number `k` of iterations of the re-scan
loop, while any byte of any stream is handled from the initial state, the live bytes and the
bytes to scan again are the end of the stream, the two regions do not overlap, and every call of
`ContainerHandler` was on a valid frame that occurs in the stream. -/
theorem parser_sound {σ : Type*} (device : UInt8)
    (handle : List UInt8 → Nat → σ → Option (σ × Bool)) (app : σ) (buff : ByteMemory)
    (bytes : List UInt8) (byte : UInt8) (k : Nat) :
    ∃ s a p,
      StateMachine.run (byteStep device (onFrame (recorded handle)))
        (RecvStream.init buff, (some app, [])) bytes = some (s, a) ∧
      byteHandlerUpTo device (onFrame (recorded handle)) k byte s a = some p ∧
      p.stream.live ++ p.stream.pending <:+ bytes ++ [byte] ∧
      p.stream.recvIndex ≤ p.stream.reuseIndex ∧ p.stream.reuseIndex ≤ MAX_PACK_SIZE ∧
      p.stream.recvIndex ≤ MAX_PACK_SIZE ∧
      ∀ f ∈ p.app.2, ValidFrame device f.frame ∧ f.frame <:+: bytes ++ [byte] := by
  obtain ⟨⟨s, a⟩, hrun, ⟨m, hready⟩, hrecord⟩ :=
    run_receiving device handle (ByteMemory.ofList (bytes ++ [byte])) bytes 0
      (RecvStream.init buff, (some app, []))
      (fun i hi => by rw [Nat.zero_add]; exact ByteMemory.ofList_append_left _ _ hi)
      ⟨⟨0, ready_init device _ buff⟩, by intro f hf; cases hf⟩
  rw [Nat.zero_add] at hready hrecord
  obtain ⟨p, hp, ⟨m', k', hholds, hdue⟩, hrecord'⟩ :=
    byteHandlerUpTo_scanState handle k hready hrecord
  have hlast : ByteMemory.ofList (bytes ++ [byte]) bytes.length = byte := by
    simp [ByteMemory.ofList]
  rw [hlast] at hp
  have hlen : (bytes ++ [byte]).length = bytes.length + 1 := by simp
  have hle := Scan.due_le device (ByteMemory.ofList (bytes ++ [byte])) m'
  have hwindow := hholds.window_le
  have hpending := hholds.pending_le
  refine ⟨s, a, p, hrun, hp, ?_, ?_⟩
  · rw [hholds.live_eq, hholds.pending_eq]
    have hread := ByteMemory.read_add (ByteMemory.ofList (bytes ++ [byte])) m' (k' - m')
      (bytes.length + 1 - k')
    rw [Nat.add_sub_cancel' hwindow] at hread
    rw [← hread, show k' - m' + (bytes.length + 1 - k') = (bytes ++ [byte]).length - m' by omega,
      ByteMemory.read_ofList_drop _ (by omega)]
    exact List.drop_suffix _ _
  · obtain ⟨h1, h2, h3⟩ := hholds.bounds (by simp only [MAX_PACK_SIZE]; omega)
    refine ⟨h1, h2, h3, ?_⟩
    intro f hf
    obtain ⟨w, hacc, hw, hframe⟩ := hrecord' f hf
    rw [hframe]
    exact ⟨validFrame_of_accepted hacc, ByteMemory.read_ofList_infix _ (by omega)⟩

end RoboRTS.Sdk
