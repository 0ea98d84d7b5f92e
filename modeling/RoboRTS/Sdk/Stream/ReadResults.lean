import RoboRTS.Sdk.Stream.Rescan
import Mathlib.Algebra.Group.Int.Defs

/-!
# Reads that fail

`Receive` with what it accesses: the places of the receive buffer that it uses, and the ranges of
`recv_buff` that it writes. A failed read returns -1, which the 16-bit length turns into 65535. In
every state that good reads lead to, a call stays within what was read and within `recv_buff`
exactly when the next read is good (`run_safe`): it does not fail, and a read that fills the buffer
finds the stream empty.
-/

namespace RoboRTS.Sdk

/-- A range of addresses: the first one and how many there are. -/
abbrev Range := Nat × Nat

/-! ## What the parser writes -/

namespace RecvStream

variable (device : UInt8) (s : RecvStream)

/-- The writes of the first half of `StreamHandler`. -/
def pushWrites : List Range :=
  if s.recvIndex < MAX_PACK_SIZE then [(s.recvIndex, 1)] else [(0, s.recvIndex)]

/-- The writes of `ShiftStream`. -/
def shiftWrites : List Range :=
  if s.recvIndex - 1 ≠ 0 then [(0, s.recvIndex - 1)] else []

/-- The writes of `PrepareStream`. -/
def prepareWrites : List Range :=
  let bytesToMove := HEADER_LEN - 1
  [(0, bytesToMove), (bytesToMove, (s.recvIndex + 2 ^ 32 - bytesToMove) % 2 ^ 32)]

/-- The writes of `ReuseStream`. -/
def reuseWrites : List Range :=
  let bytesToMove := (s.recvIndex + 2 ^ 32 - HEADER_LEN) % 2 ^ 16
  let destIndex := (s.reuseIndex + 2 ^ 32 - bytesToMove) % 2 ^ 16
  (destIndex, bytesToMove) :: shiftWrites { s with recvIndex := HEADER_LEN }

/-- The writes of `CheckStream`. -/
def checkWrites : List Range :=
  if s.recvIndex < HEADER_LEN then []
  else if s.recvIndex = HEADER_LEN then
    if headerValid device s.recvBuff 0 then
      if s.header.length = HEADER_LEN then s.prepareWrites else []
    else s.shiftWrites
  else if s.recvIndex = s.header.length then
    if crcTailCheck s.frame then s.prepareWrites else s.reuseWrites
  else []

/-- The writes of `StreamHandler`. -/
def streamWrites (byte : UInt8) : List Range :=
  s.pushWrites ++ (s.pushByte byte).checkWrites device

end RecvStream

section Parser

variable {σ : Type*} (device : UInt8) (containerHandler : RecvStream → σ → Option (σ × Bool))

/-- The writes of at most `k` iterations of the re-scan loop. -/
def rescanWrites : Nat → Parsed σ → List Range
  | 0, _ => []
  | k + 1, p =>
      if rescanCond p then
        { p.stream with reuseIndex := p.stream.reuseIndex + 1 }.streamWrites device
            (p.stream.recvBuff p.stream.reuseIndex) ++
          match rescanBody device containerHandler p with
          | none => []
          | some p => rescanWrites k p
      else []

/-- The writes of `ByteHandler`. -/
def byteWrites (byte : UInt8) (s : RecvStream) (app : σ) : List Range :=
  let s := { s with reuseCount := 0, reuseIndex := MAX_PACK_SIZE }
  s.streamWrites device byte ++
    match streamHandler device containerHandler byte s app with
    | none => []
    | some p =>
        if p.stream.reuseCount ≠ 0 then rescanWrites device containerHandler rescanBound p else []

end Parser

/-! ## `Receive` -/

/-- What `Read` returns: the bytes read, or -1. -/
abbrev ReadResult := Option (List UInt8)

/-- `recv_buff_read_len_` after a read. -/
def readLength (result : ReadResult) : Nat :=
  let ret : Int := match result with
    | none => -1
    | some chunk => chunk.length
  (ret % 2 ^ 16).toNat

/-- The members of `Protocol` that `Receive` works on; `lastRead` belongs to no member and counts
the bytes that the last successful read returned. What lies behind the receive buffer may be any
bytes. -/
structure ReadState (σ : Type*) where
  stream : RecvStream
  app : σ
  recvBuff : ByteMemory
  readPos : Nat
  readLen : Nat
  lastRead : Nat

/-- The accesses of a call of `Receive`, and whether it returns its container. -/
structure Accesses where
  used : List Nat
  written : List Range
  container : Bool

namespace ReadState

section Receive

variable {σ : Type*} (device : UInt8) (containerHandler : RecvStream → σ → Option (σ × Bool))

/-- A receiver in the initial stream state whose buffer counts as consumed. -/
def start (buff recvBuff : ByteMemory) (app : σ) : ReadState σ where
  stream := RecvStream.init buff
  app := app
  recvBuff := recvBuff
  readPos := 0
  readLen := 0
  lastRead := 0

/-- The buffer is consumed, so the next call reads. -/
def Reads (r : ReadState σ) : Prop :=
  r.readLen ≤ r.readPos

instance (r : ReadState σ) : Decidable r.Reads :=
  inferInstanceAs (Decidable (_ ≤ _))

/-- Step 1 of `Receive`. -/
def refill (result : ReadResult) (r : ReadState σ) : ReadState σ :=
  if r.Reads then
    { r with
      readPos := 0
      readLen := readLength result
      recvBuff := r.recvBuff.write 0 (result.getD [])
      lastRead := match result with
        | none => r.lastRead
        | some chunk => chunk.length }
  else r

/-- What the copy of a full buffer leaves. -/
def storeLarge (r : ReadState σ) : ReadState σ × Accesses :=
  let s := r.stream
  ({ r with
      stream := { s with
        recvBuff := s.recvBuff.write s.recvIndex (r.recvBuff.read 0 BUFFER_SIZE)
        recvIndex := s.recvIndex + BUFFER_SIZE }
      readPos := BUFFER_SIZE },
    ⟨List.range BUFFER_SIZE, [(s.recvIndex, BUFFER_SIZE)], false⟩)

/-- The loop of `Receive` over the last `count` bytes of the buffer. -/
def scanBuffer : Nat → ReadState σ → Option (ReadState σ × Accesses)
  | 0, r => some (r, ⟨[], [], false⟩)
  | count + 1, r =>
      let byte := r.recvBuff r.readPos
      let written := byteWrites device containerHandler byte r.stream r.app
      (byteHandler device containerHandler byte r.stream r.app).bind fun p =>
        let scanned := { r with stream := p.stream, app := p.app }
        if p.isFrame then some (scanned, ⟨[r.readPos], written, true⟩)
        else
          (scanBuffer count { scanned with readPos := r.readPos + 1 }).map fun (r', t) =>
            (r', ⟨r.readPos :: t.used, written ++ t.written, t.container⟩)

/-- `Receive`, where `result` is what a read returns. -/
def receive (result : ReadResult) (r : ReadState σ) : Option (ReadState σ × Accesses) :=
  let r := r.refill result
  if r.readLen = BUFFER_SIZE then some r.storeLarge
  else scanBuffer device containerHandler (r.readLen - r.readPos) r

/-- A call of `Receive` as a step. -/
def step (r : ReadState σ) (result : ReadResult) : Option (ReadState σ) :=
  (r.receive device containerHandler result).map Prod.fst

end Receive

end ReadState

/-! ## The writes stay inside -/

namespace RecvStream

variable {device : UInt8} {s : RecvStream}

/-- `ShiftStream`, `PrepareStream` and `ReuseStream` write inside. -/
theorem checkWrites_inside (hindex : s.recvIndex ≤ MAX_PACK_SIZE)
    (hroom : s.recvIndex ≤ s.reuseIndex + 1) (hreuse : s.reuseIndex ≤ MAX_PACK_SIZE) :
    ∀ w ∈ s.checkWrites device, w.1 + w.2 ≤ MAX_PACK_SIZE := by
  have hmax : MAX_PACK_SIZE = 4096 := rfl
  have hheader : HEADER_LEN = 12 := rfl
  have hshift : ∀ s : RecvStream, s.recvIndex ≤ MAX_PACK_SIZE →
      ∀ w ∈ s.shiftWrites, w.1 + w.2 ≤ MAX_PACK_SIZE := by
    intro s hindex w hw
    unfold shiftWrites at hw
    split at hw
    · rw [List.mem_singleton.mp hw]
      dsimp only
      omega
    · exact absurd hw List.not_mem_nil
  have hprepare : HEADER_LEN ≤ s.recvIndex → ∀ w ∈ s.prepareWrites, w.1 + w.2 ≤ MAX_PACK_SIZE := by
    intro hlen w hw
    rcases List.mem_cons.mp hw with rfl | hw
    · dsimp only
      omega
    · rw [List.mem_singleton.mp hw]
      dsimp only
      omega
  have hreused : HEADER_LEN ≤ s.recvIndex → ∀ w ∈ s.reuseWrites, w.1 + w.2 ≤ MAX_PACK_SIZE := by
    intro hlen w hw
    rcases List.mem_cons.mp hw with rfl | hw
    · dsimp only
      omega
    · exact hshift _ (by dsimp only; omega) w hw
  intro w hw
  unfold checkWrites at hw
  split_ifs at hw with hfew htwelve hvalid hempty hwhole htail
  · exact absurd hw List.not_mem_nil
  · exact hprepare (by omega) w hw
  · exact absurd hw List.not_mem_nil
  · exact hshift s hindex w hw
  · exact hprepare (by omega) w hw
  · exact hreused (by omega) w hw
  · exact absurd hw List.not_mem_nil

/-- `StreamHandler` writes inside when the live bytes end before the bytes to scan again. -/
theorem streamWrites_inside (hindex : s.recvIndex ≤ s.reuseIndex)
    (hreuse : s.reuseIndex ≤ MAX_PACK_SIZE) (byte : UInt8) :
    ∀ w ∈ s.streamWrites device byte, w.1 + w.2 ≤ MAX_PACK_SIZE := by
  intro w hw
  rcases List.mem_append.mp hw with hpush | hcheck
  · unfold pushWrites at hpush
    split at hpush
    · rw [List.mem_singleton.mp hpush]
      dsimp only
      omega
    · rw [List.mem_singleton.mp hpush]
      dsimp only
      omega
  · refine checkWrites_inside ?_ ?_ ?_ w hcheck
    all_goals
      unfold pushByte
      split
    all_goals
      dsimp only
      omega

end RecvStream

section Inside

variable {σ : Type*} {device : UInt8} {handle : List UInt8 → Nat → σ → Option (σ × Bool)}
variable {x : ByteMemory} {m k n : Nat} {s : RecvStream} {app : σ} {p : Parsed σ}

/-- A call of `ByteHandler` between two bytes that it scans. -/
def Scanning (device : UInt8) (x : ByteMemory) (n : Nat) (s : RecvStream) : Prop :=
  ∃ m k, Holds x m k k n s ∧ k < Scan.due device x m

/-- Scanning one byte. -/
theorem streamHandler_scanning (hs : Holds x m k (k + 1) n s) (hk : k < Scan.due device x m)
    (hp : streamHandler device (onFrame handle) (x k) s app = some p) :
    Scanning device x n p.stream := by
  have hroom := hs.room
  by_cases hwait : k + 1 < Scan.due device x m
  · obtain ⟨s', hs', hholds, -⟩ := streamHandler_wait (onFrame handle) app hs hwait
    rw [hs'] at hp
    cases hp
    exact ⟨m, k + 1, hholds, hwait⟩
  have hdue : k + 1 = Scan.due device x m := by omega
  have hlater := Scan.resume_lt_due_next device x m
  cases hacc : Scan.accepted device x m with
  | false =>
      obtain ⟨s', hs', hholds, -⟩ := streamHandler_reject (onFrame handle) app hs hdue (by omega) hacc
      rw [hs'] at hp
      cases hp
      exact ⟨_, _, hholds, hlater⟩
  | true =>
      obtain ⟨s₁, s', hs', -, -, hholds⟩ := streamHandler_accept (onFrame handle) app hs hdue hacc
      rw [hs'] at hp
      obtain ⟨out, -, rfl⟩ := Option.map_eq_some_iff.mp hp
      rw [Scan.resume_of_accepted hacc, ← hdue] at hlater
      exact ⟨_, _, hholds, hlater⟩

/-- One call of `StreamHandler` writes inside. -/
theorem Holds.streamWrites_inside (hs : Holds x m k (k + 1) n s) (hk : k < Scan.due device x m)
    (byte : UInt8) : ∀ w ∈ s.streamWrites device byte, w.1 + w.2 ≤ MAX_PACK_SIZE := by
  have hdue := Scan.due_le device x m
  obtain ⟨hindex, hreuse, -⟩ := hs.bounds (by simp only [MAX_PACK_SIZE]; omega)
  exact RecvStream.streamWrites_inside hindex hreuse byte

/-- The re-scan loop writes inside. -/
theorem rescanWrites_inside (bound : Nat) (h : Scanning device x n p.stream) :
    ∀ w ∈ rescanWrites device (onFrame handle) bound p, w.1 + w.2 ≤ MAX_PACK_SIZE := by
  induction bound generalizing p with
  | zero => exact fun w hw => absurd hw List.not_mem_nil
  | succ bound ih =>
      intro w hw
      unfold rescanWrites at hw
      split at hw
      · next hcond =>
          obtain ⟨m, k, hholds, hk⟩ := h
          obtain ⟨hbyte, htake⟩ := hholds.take ((rescanCond_iff hholds).mp hcond)
          rcases List.mem_append.mp hw with hfirst | hrest
          · exact htake.streamWrites_inside hk _ w hfirst
          · cases hbody : rescanBody device (onFrame handle) p with
            | none =>
                rw [hbody] at hrest
                exact absurd hrest List.not_mem_nil
            | some p' =>
                rw [hbody] at hrest
                rw [rescanBody, hbyte] at hbody
                exact ih (streamHandler_scanning htake hk hbody) w hrest
      · exact absurd hw List.not_mem_nil

/-- `ByteHandler` writes inside. -/
theorem Between.byteWrites_inside (handle : List UInt8 → Nat → σ → Option (σ × Bool))
    (h : Between device s) (byte : UInt8) (app : σ) :
    ∀ w ∈ byteWrites device (onFrame handle) byte s app, w.1 + w.2 ≤ MAX_PACK_SIZE := by
  intro w hw
  rcases List.mem_append.mp hw with hfirst | hrest
  · refine RecvStream.streamWrites_inside ?_ (Nat.le_refl _) byte w hfirst
    rcases h with ⟨x, m, n, hready⟩ | hfull
    · have hundecided := hready.undecided
      have hdue := Scan.due_le device x m
      exact (hready.holds.bounds (by simp only [MAX_PACK_SIZE]; omega)).2.2
    · exact Nat.le_of_eq hfull
  · cases hfirst : streamHandler device (onFrame handle) byte
        { s with reuseCount := 0, reuseIndex := MAX_PACK_SIZE } app with
    | none =>
        rw [hfirst] at hrest
        exact absurd hrest List.not_mem_nil
    | some p =>
        rw [hfirst] at hrest
        dsimp only at hrest
        split at hrest
        · next hcount =>
            rcases h with ⟨x, m, n, hready⟩ | hfull
            · obtain ⟨y, rfl, hready⟩ := hready.extend byte
              exact rescanWrites_inside rescanBound
                (streamHandler_scanning hready.holds hready.undecided hfirst) w hrest
            · obtain ⟨s', heq, -, -, hzero⟩ := byteHandlerUpTo_full handle hfull 0 byte app
              rw [byteHandlerUpTo, hfirst, Option.bind_some, if_pos hcount] at heq
              cases heq
              exact absurd hzero hcount
        · exact absurd hrest List.not_mem_nil

end Inside

/-! ## Reads that succeed -/

namespace ReadState

section Safe

variable {σ : Type*} (device : UInt8) (handle : List UInt8 → Nat → σ → Option (σ × Bool))

/-- The results that `Read` may return: a failure, or between 1 and `BUFFER_SIZE` bytes. -/
def Possible (result : ReadResult) : Prop :=
  ∀ chunk ∈ result, 1 ≤ chunk.length ∧ chunk.length ≤ BUFFER_SIZE

/-- A call, unless it reads nothing, meets a read that did not fail, and an empty stream where the
read fills the buffer. -/
def Good (r : ReadState σ) (result : ReadResult) : Prop :=
  r.Reads → ∃ chunk, result = some chunk ∧
    (chunk.length = BUFFER_SIZE → r.stream.recvIndex = 0)

/-- What a call from `r` to `r'` has to keep to: the bytes of the last read, the bytes of
`recv_buff`, and no effect of a read that failed. -/
structure CallSafe (r : ReadState σ) (result : ReadResult) (r' : ReadState σ) (t : Accesses) :
    Prop where
  used : ∀ i ∈ t.used, i < r'.lastRead
  written : ∀ w ∈ t.written, w.1 + w.2 ≤ MAX_PACK_SIZE
  failed : r.Reads → result = none →
    t.container = false ∧ r'.stream = r.stream ∧ r'.app = r.app

/-- The receiver between two calls, as long as the reads are good. -/
structure Received (r : ReadState σ) : Prop where
  between : Between device r.stream
  readLen : r.readLen = r.lastRead
  lastRead : r.lastRead ≤ BUFFER_SIZE
  consumed : r.readLen = BUFFER_SIZE → r.Reads

/-- What the loop over the last `count` bytes does. -/
structure Scanned (count : Nat) (r r' : ReadState σ) (t : Accesses) : Prop where
  between : Between device r'.stream
  readLen : r'.readLen = r.readLen
  lastRead : r'.lastRead = r.lastRead
  used : ∀ i ∈ t.used, i < r.readPos + count
  written : ∀ w ∈ t.written, w.1 + w.2 ≤ MAX_PACK_SIZE
  whole : t.container = true ∨ ∀ i < count, r.readPos + i ∈ t.used

variable {device handle} {r r' : ReadState σ} {result : ReadResult} {t : Accesses}

/-- The loop stays between two bytes of the stream; it stops early only with a container. -/
theorem scanBuffer_scanned (count : Nat)
    (hcall : scanBuffer device (onFrame handle) count r = some (r', t))
    (h : Between device r.stream) : Scanned device count r r' t := by
  induction count generalizing r r' t with
  | zero =>
      cases hcall
      exact ⟨h, rfl, rfl, fun i hi => absurd hi List.not_mem_nil,
        fun w hw => absurd hw List.not_mem_nil, Or.inr fun i hi => absurd hi (Nat.not_lt_zero i)⟩
  | succ count ih =>
      rw [scanBuffer] at hcall
      obtain ⟨p, hp, hrest⟩ := Option.bind_eq_some_iff.mp hcall
      have hbetween := h.byteHandler hp
      have hwritten := Between.byteWrites_inside handle h (r.recvBuff r.readPos) r.app
      by_cases hframe : p.isFrame = true
      · rw [if_pos hframe] at hrest
        cases hrest
        refine ⟨hbetween, rfl, rfl, fun i hi => ?_, hwritten, Or.inl rfl⟩
        rw [List.mem_singleton.mp hi]
        omega
      · rw [if_neg hframe] at hrest
        obtain ⟨⟨r₁, t₁⟩, hloop, heq⟩ := Option.map_eq_some_iff.mp hrest
        cases heq
        have hscanned := ih hloop hbetween
        refine ⟨hscanned.between, hscanned.readLen, hscanned.lastRead, fun i hi => ?_,
          fun w hw => ?_, hscanned.whole.imp_right fun hall i hi => ?_⟩
        · rcases List.mem_cons.mp hi with rfl | hi
          · omega
          · have hused := hscanned.used i hi
            dsimp only at hused
            omega
        · exact (List.mem_append.mp hw).elim (hwritten w) (hscanned.written w)
        · cases i with
          | zero => exact List.mem_cons_self
          | succ i =>
              refine List.mem_cons_of_mem _ ?_
              rw [show r.readPos + (i + 1) = r.readPos + 1 + i by omega]
              exact hall i (by omega)

/-- A buffer that is not consumed is not read again. -/
theorem refill_of_not_reads (hreads : ¬r.Reads) : r.refill result = r :=
  if_neg hreads

/-- A call that still has bytes is safe. -/
theorem Received.receive_rest (h : Received device r) (hreads : ¬r.Reads)
    (hcall : r.receive device (onFrame handle) result = some (r', t)) :
    Received device r' ∧ CallSafe r result r' t := by
  have hlen : r.readLen ≠ BUFFER_SIZE := fun hfull => hreads (h.consumed hfull)
  rw [receive, refill_of_not_reads hreads, if_neg hlen] at hcall
  have hscanned := scanBuffer_scanned _ hcall h.between
  have hreadLen := hscanned.readLen
  have hlast := hscanned.lastRead
  refine ⟨⟨hscanned.between, by rw [hreadLen, hlast, h.readLen], by rw [hlast]; exact h.lastRead,
    fun hfull => absurd (hreadLen ▸ hfull) hlen⟩, fun i hi => ?_, hscanned.written,
    fun h => absurd h hreads⟩
  have hused := hscanned.used i hi
  have hread := h.readLen
  unfold Reads at hreads
  omega

/-- A call that reads a chunk which does not fill the buffer is safe. -/
theorem Received.receive_chunk (h : Received device r) (hreads : r.Reads) {chunk : List UInt8}
    (hshort : chunk.length < BUFFER_SIZE)
    (hcall : r.receive device (onFrame handle) (some chunk) = some (r', t)) :
    Received device r' ∧ CallSafe r (some chunk) r' t := by
  have hsize : BUFFER_SIZE = 4096 := rfl
  have hlength : readLength (some chunk) = chunk.length := by
    show ((chunk.length : Int) % 2 ^ 16).toNat = chunk.length
    omega
  rw [receive, refill, if_pos hreads, hlength] at hcall
  dsimp only at hcall
  rw [if_neg (by omega)] at hcall
  have hscanned := scanBuffer_scanned _ hcall h.between
  have hreadLen : r'.readLen = chunk.length := hscanned.readLen
  have hlast : r'.lastRead = chunk.length := hscanned.lastRead
  refine ⟨⟨hscanned.between, by omega, by omega, fun hfull => by omega⟩, fun i hi => ?_,
    hscanned.written, fun _ hnone => nomatch hnone⟩
  have hused := hscanned.used i hi
  dsimp only at hused
  omega

variable (device handle) in
/-- A full buffer that is read is copied. -/
theorem receive_full (hreads : r.Reads) {chunk : List UInt8} (hfull : chunk.length = BUFFER_SIZE) :
    r.receive device (onFrame handle) (some chunk) = some (storeLarge { r with
      readPos := 0
      readLen := BUFFER_SIZE
      recvBuff := r.recvBuff.write 0 chunk
      lastRead := chunk.length }) := by
  have hsize : BUFFER_SIZE = 4096 := rfl
  have hlength : readLength (some chunk) = BUFFER_SIZE := by
    show ((chunk.length : Int) % 2 ^ 16).toNat = BUFFER_SIZE
    omega
  rw [receive, refill, if_pos hreads, hlength]
  exact if_pos rfl

/-- A call that reads a full buffer is safe exactly when the stream is empty. -/
theorem Received.receive_large (hreads : r.Reads) {chunk : List UInt8}
    (hfull : chunk.length = BUFFER_SIZE)
    (hcall : r.receive device (onFrame handle) (some chunk) = some (r', t)) :
    (CallSafe r (some chunk) r' t ↔ r.stream.recvIndex = 0) ∧
      (r.stream.recvIndex = 0 → Received device r') := by
  have hsize : BUFFER_SIZE = 4096 := rfl
  have hmax : MAX_PACK_SIZE = 4096 := rfl
  rw [receive_full device handle hreads hfull, storeLarge] at hcall
  cases hcall
  refine ⟨⟨fun hsafe => ?_, fun hempty => ⟨fun i hi => ?_, fun w hw => ?_, fun _ hnone =>
    nomatch hnone⟩⟩, fun hempty => ⟨Or.inr ?_, hfull.symm, Nat.le_of_eq hfull, fun _ =>
    Nat.le_refl _⟩⟩
  · have hinside := hsafe.written _ (List.mem_singleton_self _)
    dsimp only at hinside
    omega
  · show i < chunk.length
    rw [hfull]
    simpa only [List.mem_range] using hi
  · rw [List.mem_singleton.mp hw]
    show r.stream.recvIndex + BUFFER_SIZE ≤ MAX_PACK_SIZE
    omega
  · show r.stream.recvIndex + BUFFER_SIZE = MAX_PACK_SIZE
    omega

/-- A call whose read fails is not safe: it uses 65535 bytes, or returns a container before. -/
theorem Received.receive_failed (h : Received device r) (hreads : r.Reads)
    (hcall : r.receive device (onFrame handle) none = some (r', t)) : ¬CallSafe r none r' t := by
  intro hsafe
  have hsize : BUFFER_SIZE = 4096 := rfl
  rw [receive, refill, if_pos hreads, show readLength none = 65535 from rfl] at hcall
  dsimp only at hcall
  rw [if_neg (by omega)] at hcall
  have hscanned := scanBuffer_scanned _ hcall h.between
  have hlast : r'.lastRead = r.lastRead := hscanned.lastRead
  have hread := h.lastRead
  rcases hscanned.whole with hcontainer | hall
  · rw [(hsafe.failed hreads rfl).1] at hcontainer
    cases hcontainer
  · have hused := hsafe.used _ (hall 65534 (by omega))
    dsimp only at hused
    omega

/-- A call is safe exactly when it is good, and then the next call is like it. -/
theorem Received.receive_safe_iff (h : Received device r) (hpossible : Possible result)
    (hcall : r.receive device (onFrame handle) result = some (r', t)) :
    (CallSafe r result r' t ↔ r.Good result) ∧ (r.Good result → Received device r') := by
  by_cases hreads : r.Reads
  · cases result with
    | none =>
        have hbad : ¬r.Good none := fun hgood => by
          obtain ⟨chunk, hnone, -⟩ := hgood hreads
          cases hnone
        exact ⟨iff_of_false (h.receive_failed hreads hcall) hbad, fun hgood => absurd hgood hbad⟩
    | some chunk =>
        by_cases hfull : chunk.length = BUFFER_SIZE
        · have hgood : r.Good (some chunk) ↔ r.stream.recvIndex = 0 := by
            refine ⟨fun hgood => ?_, fun hempty _ => ⟨chunk, rfl, fun _ => hempty⟩⟩
            obtain ⟨chunk, hsome, hempty⟩ := hgood hreads
            cases hsome
            exact hempty hfull
          rw [hgood]
          exact receive_large hreads hfull hcall
        · have hshort := Nat.lt_of_le_of_ne (hpossible chunk rfl).2 hfull
          obtain ⟨hreceived, hsafe⟩ := h.receive_chunk hreads hshort hcall
          exact ⟨iff_of_true hsafe fun _ => ⟨chunk, rfl, fun h => absurd h hfull⟩,
            fun _ => hreceived⟩
  · obtain ⟨hreceived, hsafe⟩ := h.receive_rest hreads hcall
    exact ⟨iff_of_true hsafe fun h => absurd h hreads, fun _ => hreceived⟩

/-- The receiver at the start. -/
theorem received_start (device : UInt8) (buff recvBuff : ByteMemory) (app : σ) :
    Received device (start buff recvBuff app) :=
  ⟨Or.inl ⟨_, 0, 0, ready_init device buff buff⟩, rfl, Nat.zero_le _, fun _ => Nat.le_refl _⟩

/-- The receiver after good calls. -/
theorem Received.run {results : List ReadResult} (h : Received device r)
    (hpossible : ∀ result ∈ results, Possible result)
    (hgood : StateMachine.Along (step device (onFrame handle)) Good r results)
    (hrun : StateMachine.run (step device (onFrame handle)) r results = some r') :
    Received device r' := by
  induction results generalizing r with
  | nil =>
      cases hrun
      exact h
  | cons result results ih =>
      rw [StateMachine.run_cons] at hrun
      obtain ⟨r₁, hfirst, hrest⟩ := Option.bind_eq_some_iff.mp hrun
      obtain ⟨hresult, hgood⟩ := hgood
      rw [hfirst] at hgood
      obtain ⟨⟨r₁, t⟩, hcall, rfl⟩ := Option.map_eq_some_iff.mp hfirst
      have hnext := (h.receive_safe_iff (hpossible result List.mem_cons_self) hcall).2 hresult
      exact ih hnext (fun result hmem => hpossible result (List.mem_cons_of_mem _ hmem)) hgood hrest

/-- The loop ends where the handler answers every frame. -/
theorem scanBuffer_isSome (hanswers : ∀ frame behind app, (handle frame behind app).isSome = true)
    (count : Nat) (h : Between device r.stream) :
    ∃ out, scanBuffer device (onFrame handle) count r = some out := by
  induction count generalizing r with
  | zero => exact ⟨_, rfl⟩
  | succ count ih =>
      obtain ⟨p, hp⟩ := h.byteHandlerUpTo_isSome hanswers (r.recvBuff r.readPos) r.app
      have hbyte : ∃ q, byteHandler device (onFrame handle) (r.recvBuff r.readPos) r.stream r.app =
          some q := by
        rw [byteHandler, hp]
        exact ⟨_, rfl⟩
      obtain ⟨q, hq⟩ := hbyte
      have hbetween := h.byteHandler hq
      rw [scanBuffer, hq, Option.bind_some]
      split
      · exact ⟨_, rfl⟩
      · obtain ⟨out, hout⟩ :=
          ih (r := { r with stream := q.stream, app := q.app, readPos := r.readPos + 1 }) hbetween
        dsimp only
        rw [hout]
        exact ⟨_, rfl⟩

end Safe

end ReadState

section Results

open ReadState

variable {σ : Type*} (device : UInt8) (handle : List UInt8 → Nat → σ → Option (σ × Bool))

/-- In every state that good reads lead to, the next call uses only bytes that the last read
returned, writes only bytes of `recv_buff` and ignores a read that failed, exactly when the read
of that call is good. -/
theorem run_safe (buff recvBuff : ByteMemory) (app : σ) (results : List ReadResult)
    (hpossible : ∀ result ∈ results, Possible result)
    (hgood : StateMachine.Along (step device (onFrame handle)) Good (start buff recvBuff app) results)
    {r : ReadState σ}
    (hrun : StateMachine.run (step device (onFrame handle)) (start buff recvBuff app) results = some r)
    (result : ReadResult) (hnext : Possible result) {r' : ReadState σ} {t : Accesses}
    (hcall : r.receive device (onFrame handle) result = some (r', t)) :
    CallSafe r result r' t ↔ r.Good result :=
  (((received_start device buff recvBuff app).run hpossible hgood hrun).receive_safe_iff hnext
    hcall).1

/-- A full buffer read into the empty stream, as the first read. -/
theorem run_safe_full_buffer :
    ∃ r' t, (start (fun _ => 0) (fun _ => 0) ()).receive 0
        (onFrame fun _ _ (_ : Unit) => some ((), true))
        (some (List.replicate BUFFER_SIZE 1)) = some (r', t) ∧
      (CallSafe (start (fun _ => 0) (fun _ => 0) ()) (some (List.replicate BUFFER_SIZE 1)) r' t ↔
        (start (fun _ => 0) (fun _ => 0) ()).Good (some (List.replicate BUFFER_SIZE 1))) := by
  have hlen : (List.replicate BUFFER_SIZE (1 : UInt8)).length = BUFFER_SIZE :=
    List.length_replicate
  have hcall := receive_full 0 (fun _ _ (_ : Unit) => some ((), true))
    (r := start (fun _ => 0) (fun _ => 0) ()) (Nat.le_refl _) hlen
  refine ⟨_, _, hcall, run_safe 0 (fun _ _ (_ : Unit) => some ((), true)) (fun _ => 0) (fun _ => 0)
    () [] (fun _ h => absurd h List.not_mem_nil) trivial rfl _ ?_ hcall⟩
  intro chunk hchunk
  cases hchunk
  rw [hlen]
  exact ⟨by decide, Nat.le_refl _⟩

/-- The first read fails: the call goes through 65535 bytes that were never read. -/
theorem failed_read_not_safe :
    ∃ r' t, (start (fun _ => 0) (fun _ => 0) ()).receive 0
        (onFrame fun _ _ (_ : Unit) => some ((), true)) none = some (r', t) ∧
      ¬CallSafe (start (fun _ => 0) (fun _ => 0) ()) none r' t := by
  have hstart := received_start 0 (fun _ => 0) (fun _ => 0) ()
  obtain ⟨⟨r', t⟩, hcall⟩ : ∃ out, (start (fun _ => 0) (fun _ => 0) ()).receive 0
      (onFrame fun _ _ (_ : Unit) => some ((), true)) none = some out :=
    scanBuffer_isSome (r := (start (fun _ => 0) (fun _ => 0) ()).refill none)
      (fun _ _ _ => rfl) _ hstart.between
  exact ⟨r', t, hcall, hstart.receive_failed (Nat.le_refl _) hcall⟩

end Results

end RoboRTS.Sdk
