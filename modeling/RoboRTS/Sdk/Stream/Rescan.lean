import RoboRTS.Sdk.Stream.ByteHandler

/-!
# The re-scan loop

Whatever bytes `ByteHandler` has been given, and whatever full buffers `Receive` has copied over
the empty stream, the re-scan loop ends and leaves no byte waiting (`run_rescans`). Between two
calls the stream is that of some received bytes, or the copy fills it; a full stream is emptied by
the next byte.
-/

namespace RoboRTS.Sdk

/-- What changes the stream between two calls of `ByteHandler`, the call included. -/
inductive StreamEvent where
  | byte (byte : UInt8)
  | large (chunk : List UInt8)

section Rescan

variable {σ : Type*} (device : UInt8) (handle : List UInt8 → Nat → σ → Option (σ × Bool))

/-- The copy of a full buffer behind the live bytes, when there is room for it. -/
def RecvStream.storeLarge (s : RecvStream) (chunk : List UInt8) : Option RecvStream :=
  if s.recvIndex + chunk.length ≤ MAX_PACK_SIZE then
    some { s with
      recvBuff := s.recvBuff.write s.recvIndex chunk
      recvIndex := s.recvIndex + chunk.length }
  else none

/-- An event of the stream; a copy is made of a full buffer only. -/
def streamStep (state : RecvStream × σ) : StreamEvent → Option (RecvStream × σ)
  | .byte byte =>
      (byteHandler device (onFrame handle) byte state.1 state.2).map fun p => (p.stream, p.app)
  | .large chunk =>
      if chunk.length = BUFFER_SIZE then
        (state.1.storeLarge chunk).map fun s => (s, state.2)
      else none

/-- The stream between two calls of `ByteHandler`. -/
def Between (s : RecvStream) : Prop :=
  (∃ x m n, Ready device x m n s) ∨ s.recvIndex = MAX_PACK_SIZE

variable {device handle} {x : ByteMemory} {m n : Nat} {s : RecvStream} {byte : UInt8}

/-- Bytes that have not arrived do not decide a window. -/
theorem Scan.lt_due_congr {y : ByteMemory} (hxy : ∀ i < n, x i = y i)
    (h : n < Scan.due device x m) : n < Scan.due device y m := by
  have hdue := Scan.add_le_due device y m
  by_cases hfew : n < m + 12
  · omega
  have hbytes : ∀ i, i < 12 → x (m + i) = y (m + i) := fun i hi => hxy _ (by omega)
  have hdecode : Header.decode x m = Header.decode y m :=
    Header.decode_congr fun i hi => hbytes i (by omega)
  have hread : x.read m HEADER_LEN = y.read m HEADER_LEN := ByteMemory.read_congr hbytes
  have hvalid : headerValid device x m = headerValid device y m := by
    simp only [headerValid, hdecode, hread]
  have hlen : Scan.len x m = Scan.len y m := congrArg Header.length hdecode
  unfold Scan.due at h ⊢
  rwa [hvalid, hlen] at h

/-- The next byte of the stream may be any. -/
theorem Ready.extend (h : Ready device x m n s) (byte : UInt8) :
    ∃ y : ByteMemory, y n = byte ∧ Ready device y m n s := by
  have hsame : ∀ i < n, x i = Function.update x n byte i :=
    fun i hi => (Function.update_of_ne (Nat.ne_of_lt hi) ..).symm
  obtain ⟨hundecided, hm, hl, hpn, hi, hr, hlive, -, hroom⟩ := h
  refine ⟨Function.update x n byte, Function.update_self .., Scan.lt_due_congr hsame hundecided,
    hm, hl, hpn, hi, hr, fun i hin => ?_, fun i hin => ?_, hroom⟩
  · rw [hlive i hin]
    exact hsame _ (by omega)
  · omega

/-- An empty stream may start anywhere. -/
theorem ready_empty (x : ByteMemory) (hindex : s.recvIndex = 0) : Ready device x 0 0 s := by
  have hdue := Scan.add_le_due device x 0
  refine ⟨by omega, Nat.le_refl _, Nat.le_succ _, Nat.le_refl _, hindex, rfl, ?_, ?_, Or.inl rfl⟩
  · intro i hi
    omega
  · intro i hi
    omega

variable (handle) in
/-- A byte that finds the stream full empties it. -/
theorem byteHandlerUpTo_full (hfull : s.recvIndex = MAX_PACK_SIZE) (bound : Nat) (byte : UInt8)
    (app : σ) :
    ∃ s', byteHandlerUpTo device (onFrame handle) bound byte s app = some ⟨s', app, false⟩ ∧
      s'.recvIndex = 0 ∧ s'.reuseIndex = MAX_PACK_SIZE ∧ s'.reuseCount = 0 := by
  refine ⟨{ s with
    reuseCount := 0
    reuseIndex := MAX_PACK_SIZE
    recvBuff := s.recvBuff.fill 0 0 s.recvIndex
    recvIndex := 0 }, ?_, rfl, rfl, rfl⟩
  have hpush : RecvStream.pushByte { s with reuseCount := 0, reuseIndex := MAX_PACK_SIZE } byte =
      { s with
        reuseCount := 0
        reuseIndex := MAX_PACK_SIZE
        recvBuff := s.recvBuff.fill 0 0 s.recvIndex
        recvIndex := 0 } := if_neg (by rw [hfull]; exact Nat.lt_irrefl _)
  rw [byteHandlerUpTo, streamHandler, hpush, checkStream_of_lt app (show 0 < HEADER_LEN by decide),
    Option.bind_some]
  exact if_neg fun hcount => hcount rfl

/-- The stream after a call of `ByteHandler`. -/
theorem Between.byteHandler {p : Parsed σ} {app : σ} (h : Between device s)
    (hp : Sdk.byteHandler device (onFrame handle) byte s app = some p) :
    Between device p.stream := by
  rcases h with ⟨x, m, n, hready⟩ | hfull
  · obtain ⟨y, rfl, hready⟩ := hready.extend byte
    have hagree := byteHandler_scan (h := handle) app hready
    rw [hp] at hagree
    match hscan : Scan.scan device handle y (n + 1) m app false with
    | none =>
        rw [hscan] at hagree
        exact absurd hagree (by simp [Agrees])
    | some (m', app', flag') =>
        rw [hscan] at hagree
        obtain ⟨s', heq, hholds, hdue⟩ := hagree
        cases heq
        exact Or.inl ⟨y, m', n + 1, hholds.ready hdue⟩
  · obtain ⟨s', heq, hindex, -, hcount⟩ := byteHandlerUpTo_full handle hfull rescanBound byte app
    rw [Sdk.byteHandler, heq, Option.map_some, if_neg fun hne => hne hcount] at hp
    cases hp
    exact Or.inl ⟨fun _ => 0, 0, 0, ready_empty _ hindex⟩

/-- The re-scan loop ends with no byte left, if it is not stopped by the handler. -/
theorem Between.rescans {p : Parsed σ} {app : σ} (h : Between device s)
    (hp : byteHandlerUpTo device (onFrame handle) rescanBound byte s app = some p) :
    p.stream.reuseIndex = MAX_PACK_SIZE := by
  rcases h with ⟨x, m, n, hready⟩ | hfull
  · obtain ⟨y, rfl, hready⟩ := hready.extend byte
    have hagree := byteHandlerUpTo_scan (h := handle) app hready
    rw [hp] at hagree
    match hscan : Scan.scan device handle y (n + 1) m app false with
    | none =>
        rw [hscan] at hagree
        exact absurd hagree (by simp [Agrees])
    | some (m', app', flag') =>
        rw [hscan] at hagree
        obtain ⟨s', heq, hholds, -⟩ := hagree
        cases heq
        have hreuse := hholds.reuseIndex
        rwa [Nat.sub_self, Nat.add_zero] at hreuse
  · obtain ⟨s', heq, -, hreuse, -⟩ := byteHandlerUpTo_full handle hfull rescanBound byte app
    rw [heq] at hp
    cases hp
    exact hreuse

/-- Scanning does not fail where the handler answers every frame. -/
theorem Scan.scan_isSome (hanswers : ∀ frame behind app, (handle frame behind app).isSome = true)
    (x : ByteMemory) (n m : Nat) (app : σ) (flag : Bool) :
    (Scan.scan device handle x n m app flag).isSome = true := by
  induction m, app, flag using Scan.scan.induct device x n with
  | case1 m app flag hle ih =>
      rw [Scan.scan_of_le hle]
      have hdecided : ∃ out, Scan.decideWindow device handle x n m app = some out := by
        unfold Scan.decideWindow
        split
        · exact Option.isSome_iff_exists.mp (hanswers _ _ _)
        · exact ⟨_, rfl⟩
      obtain ⟨out, hout⟩ := hdecided
      rw [hout, Option.bind_some]
      exact ih out
  | case2 m app flag hlt =>
      rw [Scan.scan_of_lt (Nat.lt_of_not_le hlt)]
      rfl

/-- `ByteHandler` returns where the handler answers every frame. -/
theorem Between.byteHandlerUpTo_isSome
    (hanswers : ∀ frame behind app, (handle frame behind app).isSome = true)
    (h : Between device s) (byte : UInt8) (app : σ) :
    ∃ p, byteHandlerUpTo device (onFrame handle) rescanBound byte s app = some p := by
  rcases h with ⟨x, m, n, hready⟩ | hfull
  · obtain ⟨y, rfl, hready⟩ := hready.extend byte
    have hagree := byteHandlerUpTo_scan (h := handle) app hready
    have hsome : (Scan.scan device handle y (n + 1) m app false).isSome = true :=
      Scan.scan_isSome hanswers y (n + 1) m app false
    obtain ⟨out, hscan⟩ := Option.isSome_iff_exists.mp hsome
    rw [hscan] at hagree
    obtain ⟨s', heq, -⟩ := hagree
    exact ⟨_, heq⟩
  · obtain ⟨s', heq, -⟩ := byteHandlerUpTo_full handle hfull rescanBound byte app
    exact ⟨_, heq⟩

/-- The stream of every run is one between two calls. -/
theorem streamStep_between {state state' : RecvStream × σ} {event : StreamEvent}
    (h : Between device state.1) (hstep : streamStep device handle state event = some state') :
    Between device state'.1 := by
  cases event with
  | byte byte =>
      obtain ⟨p, hp, rfl⟩ := Option.map_eq_some_iff.mp hstep
      exact h.byteHandler hp
  | large chunk =>
      rw [streamStep] at hstep
      by_cases hlen : chunk.length = BUFFER_SIZE
      · rw [if_pos hlen] at hstep
        obtain ⟨s, hs, rfl⟩ := Option.map_eq_some_iff.mp hstep
        rw [RecvStream.storeLarge] at hs
        by_cases hroom : state.1.recvIndex + chunk.length ≤ MAX_PACK_SIZE
        · rw [if_pos hroom] at hs
          cases hs
          have hmax : BUFFER_SIZE = MAX_PACK_SIZE := rfl
          refine Or.inr ?_
          show state.1.recvIndex + chunk.length = MAX_PACK_SIZE
          omega
        · rw [if_neg hroom] at hs
          cases hs
      · rw [if_neg hlen] at hstep
        cases hstep

end Rescan

/-- In every state that bytes and copies of full buffers lead to, the re-scan loop for the next
byte ends with no byte left to hand over. It returns where the handler answers every frame. -/
theorem run_rescans {σ : Type*} (device : UInt8)
    (handle : List UInt8 → Nat → σ → Option (σ × Bool)) (buff : ByteMemory) (app : σ)
    (events : List StreamEvent) {s : RecvStream} {app' : σ}
    (hrun : StateMachine.run (streamStep device handle) (RecvStream.init buff, app) events =
      some (s, app')) (byte : UInt8) :
    (∀ p, byteHandlerUpTo device (onFrame handle) rescanBound byte s app' = some p →
        rescanCond p = false ∧ p.stream.reuseIndex = MAX_PACK_SIZE) ∧
      ((∀ frame behind app, (handle frame behind app).isSome = true) →
        ∃ p, byteHandlerUpTo device (onFrame handle) rescanBound byte s app' = some p) := by
  have hstart : Between device (RecvStream.init buff) := Or.inl ⟨_, 0, 0, ready_init device buff buff⟩
  have hbetween : Between device s :=
    StateMachine.run_invariant (P := fun state => Between device state.1)
      (fun _ _ _ h hstep => streamStep_between h hstep) hstart hrun
  refine ⟨fun p hp => ?_, fun hanswers => hbetween.byteHandlerUpTo_isSome hanswers byte app'⟩
  have hreuse := hbetween.rescans hp
  exact ⟨by rw [rescanCond, hreuse]; rfl, hreuse⟩

/-- The frame of an acknowledgement up to the last byte of its checksum, which should be 150. -/
def unfinishedFrame : List UInt8 :=
  [170, 17, 0, 34, 0, 0, 0, 0, 1, 0, 57, 76, 9, 241, 233, 84]

/-- With a wrong last byte the loop is entered, and the bytes behind the header are scanned again. -/
theorem run_rescans_wrong_checksum :
    ∃ s, StateMachine.run (streamStep 0 fun _ _ (_ : Unit) => some ((), true))
        (RecvStream.init fun _ => 0, ()) (unfinishedFrame.map .byte) = some (s, ()) ∧
      (byteHandlerUpTo 0 (onFrame fun _ _ (_ : Unit) => some ((), true)) 0 151 s ()).map
        (fun p => (rescanCond p, p.stream.pending)) = some (true, [9, 241, 233, 84, 151]) ∧
      ∃ p, byteHandlerUpTo 0 (onFrame fun _ _ (_ : Unit) => some ((), true)) rescanBound 151 s () =
          some p ∧ rescanCond p = false := by
  have hcheck : (StateMachine.run (streamStep 0 fun _ _ (_ : Unit) => some ((), true))
      (RecvStream.init fun _ => 0, ()) (unfinishedFrame.map .byte)).map (fun state =>
        (byteHandlerUpTo 0 (onFrame fun _ _ (_ : Unit) => some ((), true)) 0 151 state.1 state.2).map
          fun p => (rescanCond p, p.stream.pending)) =
      some (some (true, [9, 241, 233, 84, 151])) := by decide +kernel
  obtain ⟨⟨s, ⟨⟩⟩, hrun, hentered⟩ := Option.map_eq_some_iff.mp hcheck
  have hspec := run_rescans 0 (fun _ _ (_ : Unit) => some ((), true)) (fun _ => 0) ()
    (unfinishedFrame.map .byte) hrun 151
  obtain ⟨p, hp⟩ := hspec.2 fun _ _ _ => rfl
  exact ⟨s, hrun, hentered, p, hp, (hspec.1 p hp).1⟩

end RoboRTS.Sdk
