import RoboRTS.Sdk.Stream.Defs

/-!
# Scanning a stream

What the parser is for, stated on positions of the stream instead of bytes of a buffer. A
window is a position at which a frame may start. Twelve bytes decide an invalid header; a valid
header is decided when its declared length has arrived, or, when that length is less than a
header, when the buffer overflows. `Scan.due` is the position at which a window is decided and
`Scan.next` the window examined after it. `Holds` relates the buffer to the stream, and the
`streamHandler_*` lemmas say what one byte does to a buffer that holds a window: nothing, reject
the window, or hand it to the handler.
-/

namespace RoboRTS.Sdk

namespace Scan

variable (device : UInt8) (x : ByteMemory)

/-- The length field of the window at `m`. -/
def len (m : Nat) : Nat :=
  (Header.decode x m).length

/-- The window at `m` is handed to `ContainerHandler`. -/
def accepted (m : Nat) : Bool :=
  headerValid device x m && decide (HEADER_LEN ≤ len x m) &&
    (len x m == HEADER_LEN || crcTailCheck (x.read m (len x m)))

/-- The number of bytes of the stream that decide the window at `m`. -/
def due (m : Nat) : Nat :=
  if headerValid device x m then
    if len x m < HEADER_LEN then m + (MAX_PACK_SIZE + 1) else m + len x m
  else m + HEADER_LEN

/-- The window examined after the one at `m`. -/
def next (m : Nat) : Nat :=
  if headerValid device x m then
    if len x m < HEADER_LEN then m + (MAX_PACK_SIZE + 1)
    else if accepted device x m then m + len x m - (HEADER_LEN - 1)
    else m + 1
  else m + 1

/-- The number of bytes of the stream scanned when the window after `m` begins: all bytes up to
the decision, except after a checksum failure. -/
def resume (m : Nat) : Nat :=
  if headerValid device x m = true ∧ HEADER_LEN ≤ len x m ∧ accepted device x m = false then
    m + HEADER_LEN
  else due device x m

variable {device x}

theorem len_lt (m : Nat) : len x m < 1024 :=
  Header.length_decode_lt x m

theorem accepted_iff {m : Nat} : accepted device x m = true ↔
    headerValid device x m = true ∧ HEADER_LEN ≤ len x m ∧
      (len x m = HEADER_LEN ∨ crcTailCheck (x.read m (len x m)) = true) := by
  simp [accepted, and_assoc]

theorem due_of_invalid {m : Nat} (h : headerValid device x m = false) :
    due device x m = m + 12 := by
  simp [due, h, HEADER_LEN]

theorem due_of_short {m : Nat} (h : headerValid device x m = true) (hl : len x m < 12) :
    due device x m = m + 4097 := by
  simp [due, h, HEADER_LEN, hl, MAX_PACK_SIZE]

theorem due_of_valid {m : Nat} (h : headerValid device x m = true) (hl : 12 ≤ len x m) :
    due device x m = m + len x m := by
  simp [due, h, HEADER_LEN, Nat.not_lt.mpr hl]

/-- An accepted window is decided by its last byte. -/
theorem due_of_accepted {m : Nat} (h : accepted device x m = true) :
    due device x m = m + len x m :=
  due_of_valid (accepted_iff.mp h).1 (accepted_iff.mp h).2.1

theorem next_of_invalid {m : Nat} (h : headerValid device x m = false) :
    next device x m = m + 1 := by
  simp [next, h]

theorem next_of_short {m : Nat} (h : headerValid device x m = true) (hl : len x m < 12) :
    next device x m = m + 4097 := by
  simp [next, h, HEADER_LEN, hl, MAX_PACK_SIZE]

theorem next_of_accepted {m : Nat} (h : accepted device x m = true) :
    next device x m = m + len x m - 11 := by
  obtain ⟨hv, hl, -⟩ := accepted_iff.mp h
  simp only [HEADER_LEN] at hl
  simp [next, hv, HEADER_LEN, Nat.not_lt.mpr hl, h]

theorem next_of_rejected {m : Nat} (hl : 12 ≤ len x m) (h : accepted device x m = false) :
    next device x m = m + 1 := by
  cases hv : headerValid device x m with
  | false => exact next_of_invalid hv
  | true => simp [next, hv, HEADER_LEN, Nat.not_lt.mpr hl, h]

theorem resume_of_invalid {m : Nat} (h : headerValid device x m = false) :
    resume device x m = m + 12 := by
  rw [resume, if_neg (by rw [h]; simp), due_of_invalid h]

theorem resume_of_short {m : Nat} (hl : len x m < 12) : resume device x m = due device x m :=
  if_neg fun h => Nat.not_le.mpr hl h.2.1

theorem resume_of_accepted {m : Nat} (h : accepted device x m = true) :
    resume device x m = due device x m :=
  if_neg fun hr => by rw [h] at hr; exact absurd hr.2.2 (by decide)

theorem resume_of_rejected {m : Nat} (hv : headerValid device x m = true) (hl : 12 ≤ len x m)
    (h : accepted device x m = false) : resume device x m = m + 12 :=
  if_pos ⟨hv, hl, h⟩

/-- A valid header with a possible length is rejected for its data checksum only. -/
theorem of_rejected {m : Nat} (hv : headerValid device x m = true) (hl : 12 ≤ len x m)
    (h : accepted device x m = false) :
    len x m ≠ 12 ∧ crcTailCheck (x.read m (len x m)) = false := by
  rw [← Bool.not_eq_true, accepted_iff] at h
  simp only [HEADER_LEN, hv, hl, true_and, not_or, Bool.not_eq_true] at h
  exact h

variable (device x) in
/-- The cases of a window: a wrong header, a length below the header length, an accepted frame,
or a wrong data checksum. -/
theorem window_cases (m : Nat) :
    (headerValid device x m = false ∧ due device x m = m + 12 ∧ next device x m = m + 1 ∧
        resume device x m = m + 12) ∨
    (headerValid device x m = true ∧ len x m < 12 ∧ due device x m = m + 4097 ∧
        next device x m = m + 4097 ∧ resume device x m = m + 4097) ∨
    (accepted device x m = true ∧ 12 ≤ len x m ∧ due device x m = m + len x m ∧
        next device x m = m + len x m - 11 ∧ resume device x m = m + len x m) ∨
    (headerValid device x m = true ∧ accepted device x m = false ∧ 12 < len x m ∧
        due device x m = m + len x m ∧ next device x m = m + 1 ∧ resume device x m = m + 12) := by
  cases hv : headerValid device x m with
  | false => exact Or.inl ⟨rfl, due_of_invalid hv, next_of_invalid hv, resume_of_invalid hv⟩
  | true =>
      by_cases hl : len x m < 12
      · have hdue := due_of_short hv hl
        exact Or.inr (Or.inl ⟨rfl, hl, hdue, next_of_short hv hl, (resume_of_short hl).trans hdue⟩)
      · have hl' : 12 ≤ len x m := Nat.not_lt.mp hl
        have hdue := due_of_valid hv hl'
        cases ha : accepted device x m with
        | true =>
            exact Or.inr (Or.inr (Or.inl
              ⟨rfl, hl', hdue, next_of_accepted ha, (resume_of_accepted ha).trans hdue⟩))
        | false =>
            have hne := (of_rejected hv hl' ha).1
            exact Or.inr (Or.inr (Or.inr ⟨rfl, rfl, by omega, hdue, next_of_rejected hl' ha,
              resume_of_rejected hv hl' ha⟩))

variable (device x) in
/-- Every window needs at least twelve bytes. -/
theorem add_le_due (m : Nat) : m + 12 ≤ due device x m := by
  rcases window_cases device x m with h | h | h | h <;> omega

variable (device x) in
theorem due_le (m : Nat) : due device x m ≤ m + 4097 := by
  have hlen := len_lt (x := x) m
  rcases window_cases device x m with h | h | h | h <;> omega

variable (device x) in
/-- Windows move forward. -/
theorem lt_next (m : Nat) : m < next device x m := by
  rcases window_cases device x m with h | h | h | h <;> omega

variable (device x) in
/-- The bytes scanned so far do not decide the next window. -/
theorem resume_lt_due_next (m : Nat) :
    resume device x m < due device x (next device x m) := by
  have h12 := add_le_due device x (next device x m)
  rcases window_cases device x m with h | h | h | h <;> omega

end Scan

/-! ## The stream routines inside the buffer -/

namespace RecvStream

variable {s : RecvStream}

/-- `ShiftStream` on twelve live bytes. -/
theorem shiftStream_eq (h : s.recvIndex = 12) :
    s.shiftStream = { s with recvIndex := 11, recvBuff := s.recvBuff.move 0 1 11 } := by
  simp [shiftStream, h]

/-- `PrepareStream` when its difference does not wrap. -/
theorem prepareStream_eq (h : 11 ≤ s.recvIndex) (hlt : s.recvIndex < 2 ^ 32) :
    s.prepareStream = { s with
      recvIndex := 11
      recvBuff := (s.recvBuff.move 0 (s.recvIndex - 11) 11).fill 11 0 (s.recvIndex - 11) } := by
  have hmove : (s.recvIndex + 2 ^ 32 - (HEADER_LEN - 1)) % 2 ^ 32 = s.recvIndex - 11 := by
    simp only [HEADER_LEN]
    omega
  simp only [prepareStream, hmove]
  rfl

/-- `ReuseStream` when its differences do not wrap. -/
theorem reuseStream_eq (h : 12 ≤ s.recvIndex) (hle : s.recvIndex - 12 ≤ s.reuseIndex)
    (hlt : s.recvIndex + s.reuseIndex < 2 ^ 16) :
    s.reuseStream = { s with
      reuseIndex := s.reuseIndex - (s.recvIndex - 12)
      reuseCount := s.reuseCount + 1
      recvIndex := 11
      recvBuff := (s.recvBuff.move (s.reuseIndex - (s.recvIndex - 12)) 12
        (s.recvIndex - 12)).move 0 1 11 } := by
  have hmove : (s.recvIndex + 2 ^ 32 - HEADER_LEN) % 2 ^ 16 = s.recvIndex - 12 := by
    simp only [HEADER_LEN]
    omega
  have hdest : (s.reuseIndex + 2 ^ 32 - (s.recvIndex - 12)) % 2 ^ 16 =
      s.reuseIndex - (s.recvIndex - 12) := by
    omega
  simp only [reuseStream, hmove, hdest]
  rw [shiftStream_eq rfl]
  rfl

end RecvStream

/-! ## The buffer and the stream -/

/-- The buffer holds the stream `x`: the live bytes are those from the window `m` up to `k`, the
bytes that wait to be scanned again are those from `p` up to `n`. -/
structure Holds (x : ByteMemory) (m k p n : Nat) (s : RecvStream) : Prop where
  window_le : m ≤ k
  live_le : k ≤ p
  pending_le : p ≤ n
  recvIndex : s.recvIndex = k - m
  reuseIndex : s.reuseIndex + (n - p) = MAX_PACK_SIZE
  live : ∀ i, i < k - m → s.recvBuff i = x (m + i)
  pending : ∀ i, i < n - p → s.recvBuff (s.reuseIndex + i) = x (p + i)
  room : p = n ∨ n < m + 1024

namespace Holds

variable {x : ByteMemory} {m k p n : Nat} {s : RecvStream}

/-- The live bytes as a piece of the stream. -/
theorem live_eq (h : Holds x m k p n s) : s.live = x.read m (k - m) := by
  rw [RecvStream.live, h.recvIndex]
  exact ByteMemory.read_congr fun i hi => by rw [Nat.zero_add]; exact h.live i hi

/-- The bytes to scan again as a piece of the stream. -/
theorem pending_eq (h : Holds x m k p n s) : s.pending = x.read p (n - p) := by
  have hreuse := h.reuseIndex
  rw [RecvStream.pending, show MAX_PACK_SIZE - s.reuseIndex = n - p by omega]
  exact ByteMemory.read_congr h.pending

/-- The header in the buffer is the header of the window. -/
theorem header_eq (h : Holds x m k p n s) (hk : m + 10 ≤ k) : s.header = Header.decode x m :=
  Header.decode_congr fun i hi => by rw [Nat.zero_add]; exact h.live i (by omega)

theorem headerValid_eq (h : Holds x m k p n s) (hk : m + 12 ≤ k) (device : UInt8) :
    headerValid device s.recvBuff 0 = headerValid device x m := by
  have hread : s.recvBuff.read 0 HEADER_LEN = x.read m HEADER_LEN :=
    ByteMemory.read_congr fun i hi => by
      rw [Nat.zero_add]
      exact h.live i (by simp only [HEADER_LEN] at hi; omega)
  have hheader : Header.decode s.recvBuff 0 = Header.decode x m := h.header_eq (by omega)
  simp only [headerValid, hread, hheader]

/-- The frame in the buffer is the frame of the window, once it has arrived. -/
theorem frame_eq (h : Holds x m k p n s) (hk : m + 10 ≤ k) (hlen : m + Scan.len x m ≤ k) :
    s.frame = x.read m (Scan.len x m) := by
  rw [RecvStream.frame, h.header_eq hk]
  exact ByteMemory.read_congr fun i hi => by
    rw [Nat.zero_add]
    exact h.live i (by simp only [Scan.len] at hlen; omega)

/-- The two regions are inside the buffer and do not overlap. -/
theorem bounds (h : Holds x m k p n s) (hk : k ≤ m + MAX_PACK_SIZE) :
    s.recvIndex ≤ s.reuseIndex ∧ s.reuseIndex ≤ MAX_PACK_SIZE ∧ s.recvIndex ≤ MAX_PACK_SIZE := by
  obtain ⟨hm, hl, hp, hi, hr, -, -, hroom⟩ := h
  simp only [MAX_PACK_SIZE] at hr hk ⊢
  omega

/-- Appending the next byte. -/
theorem pushByte (h : Holds x m k (k + 1) n s) (hk : k < m + MAX_PACK_SIZE) :
    Holds x m (k + 1) (k + 1) n (s.pushByte (x k)) ∧
      (s.pushByte (x k)).reuseCount = s.reuseCount := by
  obtain ⟨hm, hl, hp, hi, hr, hlive, hpend, hroom⟩ := h
  simp only [MAX_PACK_SIZE] at hr hk
  have hlt : s.recvIndex < MAX_PACK_SIZE := by simp only [MAX_PACK_SIZE]; omega
  have hwrite : ∀ i, i ≠ k - m → (s.recvBuff.write s.recvIndex [x k]) i = s.recvBuff i :=
    fun i hne => ByteMemory.write_outside _ _ _ (by simp only [List.length_singleton]; omega)
  simp only [RecvStream.pushByte, hlt, if_true]
  refine ⟨⟨by omega, by omega, hp, by simp only; omega, hr, ?_, ?_, hroom⟩, trivial⟩
  · intro i hik
    by_cases hlast : i = k - m
    · have := ByteMemory.write_inside s.recvBuff s.recvIndex [x k] (i := 0) (by simp)
      rw [Nat.add_zero] at this
      rw [show i = s.recvIndex by omega, show m + s.recvIndex = k by omega]
      exact this
    · exact (hwrite i hlast).trans (hlive i (by omega))
  · intro i hin
    exact (hwrite _ (by dsimp only; omega)).trans (hpend i hin)

/-- A full buffer is emptied and the next byte is dropped. -/
theorem pushByte_full (h : Holds x m k (k + 1) n s) (hk : k = m + MAX_PACK_SIZE) :
    Holds x (k + 1) (k + 1) (k + 1) n (s.pushByte (x k)) := by
  obtain ⟨hm, hl, hp, hi, hr, hlive, hpend, hroom⟩ := h
  simp only [MAX_PACK_SIZE] at hr hk
  have hfull : ¬ s.recvIndex < MAX_PACK_SIZE := by simp only [MAX_PACK_SIZE]; omega
  have hn : k + 1 = n := by omega
  simp only [RecvStream.pushByte, hfull, if_false]
  refine ⟨by omega, by omega, hp, by simp only; omega, hr, ?_, ?_, Or.inl hn⟩
  · intro i hik
    omega
  · intro i hin
    omega

/-- Dropping the oldest of twelve live bytes. -/
theorem shiftStream (h : Holds x m (m + 12) p n s) (hp : m + 12 ≤ p) :
    Holds x (m + 1) (m + 12) p n s.shiftStream := by
  obtain ⟨hm, hl, hpn, hi, hr, hlive, hpend, hroom⟩ := h
  simp only [MAX_PACK_SIZE] at hr
  rw [RecvStream.shiftStream_eq (by omega)]
  refine ⟨by omega, hl, hpn, by dsimp only; omega, hr, ?_, ?_, by omega⟩
  · intro i hik
    have := ByteMemory.move_inside s.recvBuff 0 1 11 (i := i) (by omega)
    rw [Nat.zero_add] at this
    exact this.trans (by rw [hlive (1 + i) (by omega), Nat.add_assoc])
  · intro i hin
    exact (ByteMemory.move_outside _ _ _ _ (by dsimp only; omega)).trans (hpend i hin)

/-- Keeping the last eleven live bytes. -/
theorem prepareStream (h : Holds x m k p n s) (hk : m + 12 ≤ k) (hmax : k ≤ m + MAX_PACK_SIZE) :
    Holds x (k - 11) k p n s.prepareStream := by
  have hbounds := h.bounds hmax
  obtain ⟨hm, hl, hpn, hi, hr, hlive, hpend, hroom⟩ := h
  simp only [MAX_PACK_SIZE] at hr hmax hbounds
  rw [RecvStream.prepareStream_eq (by omega) (by omega)]
  refine ⟨by omega, hl, hpn, by dsimp only; omega, hr, ?_, ?_, by omega⟩
  · intro i hik
    have := ByteMemory.move_inside s.recvBuff 0 (s.recvIndex - 11) 11 (i := i) (by omega)
    rw [Nat.zero_add, hlive _ (by omega)] at this
    rw [show m + (s.recvIndex - 11 + i) = k - 11 + i by omega] at this
    exact (ByteMemory.fill_outside _ _ _ _ (by omega)).trans this
  · intro i hin
    exact (ByteMemory.fill_outside _ _ _ _ (by dsimp only; omega)).trans
      ((ByteMemory.move_outside _ _ _ _ (by dsimp only; omega)).trans (hpend i hin))

/-- Setting the bytes behind a false header aside to scan them again. -/
theorem reuseStream (h : Holds x m k k n s) (hk : m + 12 < k) (hmax : n < m + 1024) :
    Holds x (m + 1) (m + 12) (m + 12) n s.reuseStream ∧ s.reuseStream.reuseCount ≠ 0 := by
  obtain ⟨hm, hl, hpn, hi, hr, hlive, hpend, hroom⟩ := h
  simp only [MAX_PACK_SIZE] at hr
  rw [RecvStream.reuseStream_eq (by omega) (by omega) (by omega)]
  generalize hd : s.reuseIndex - (s.recvIndex - 12) = dest
  generalize hc : s.recvIndex - 12 = count
  refine ⟨⟨by omega, by omega, by omega, by dsimp only; omega,
    by simp only [MAX_PACK_SIZE]; omega, ?_, ?_, by omega⟩, Nat.succ_ne_zero _⟩
  · intro i hik
    have := ByteMemory.move_inside (s.recvBuff.move dest 12 count) 0 1 11 (i := i) (by omega)
    rw [Nat.zero_add, ByteMemory.move_outside s.recvBuff _ _ _ (by omega),
      hlive (1 + i) (by omega), ← Nat.add_assoc] at this
    exact this
  · intro i hin
    refine (ByteMemory.move_outside _ _ _ _ (by dsimp only; omega)).trans ?_
    -- the region is the data set aside now, followed by what already waited
    by_cases hnew : i < count
    · have := ByteMemory.move_inside s.recvBuff dest 12 count hnew
      rw [hlive _ (by omega), ← Nat.add_assoc] at this
      exact this
    · have := hpend (i - count) (by omega)
      rw [show s.reuseIndex + (i - count) = dest + i by omega,
        show k + (i - count) = m + 12 + i by omega] at this
      exact (ByteMemory.move_outside _ _ _ _ (by dsimp only; omega)).trans this

end Holds

/-! ## One byte -/

section Step

variable {σ : Type*} {device : UInt8} {containerHandler : RecvStream → σ → Option (σ × Bool)}
variable {x : ByteMemory} {m k n : Nat} {s : RecvStream}

theorem checkStream_of_lt (app : σ) (h : s.recvIndex < HEADER_LEN) :
    checkStream device containerHandler s app = some ⟨s, app, false⟩ := if_pos h

theorem checkStream_header (app : σ) (h : s.recvIndex = HEADER_LEN) :
    checkStream device containerHandler s app = verifyHeader device containerHandler s app := by
  rw [checkStream, if_neg (by rw [h]; decide), if_pos h]

theorem checkStream_data (app : σ) (h : HEADER_LEN < s.recvIndex)
    (hl : s.recvIndex = s.header.length) :
    checkStream device containerHandler s app = verifyData containerHandler s app := by
  rw [checkStream, if_neg (Nat.not_lt.mpr (Nat.le_of_lt h)), if_neg (Nat.ne_of_gt h), if_pos hl]

theorem checkStream_wait (app : σ) (h : HEADER_LEN < s.recvIndex)
    (hl : s.recvIndex ≠ s.header.length) :
    checkStream device containerHandler s app = some ⟨s, app, false⟩ := by
  rw [checkStream, if_neg (Nat.not_lt.mpr (Nat.le_of_lt h)), if_neg (Nat.ne_of_gt h), if_neg hl]

variable (containerHandler) in
/-- A byte that does not decide the window is appended. -/
theorem streamHandler_wait (app : σ) (h : Holds x m k (k + 1) n s)
    (hwait : k + 1 < Scan.due device x m) :
    ∃ s', streamHandler device containerHandler (x k) s app = some ⟨s', app, false⟩ ∧
      Holds x m (k + 1) (k + 1) n s' ∧ s'.reuseCount = s.reuseCount := by
  have hm := h.window_le
  have hdue := Scan.due_le device x m
  obtain ⟨hpush, hcount⟩ := h.pushByte (by simp only [MAX_PACK_SIZE]; omega)
  refine ⟨s.pushByte (x k), ?_, hpush, hcount⟩
  have hindex := hpush.recvIndex
  have hH : HEADER_LEN = 12 := rfl
  rw [streamHandler]
  by_cases hlt : (s.pushByte (x k)).recvIndex < HEADER_LEN
  · exact checkStream_of_lt app hlt
  have hvalid : headerValid device x m = true := by
    cases hv : headerValid device x m with
    | true => rfl
    | false =>
        rw [Scan.due_of_invalid hv] at hwait
        omega
  have hheader : (s.pushByte (x k)).header.length = Scan.len x m := by
    rw [hpush.header_eq (by omega)]
    rfl
  have hlen : m + Scan.len x m ≠ k + 1 := by
    by_cases hl : Scan.len x m < 12
    · omega
    · rw [Scan.due_of_valid hvalid (by omega)] at hwait
      omega
  by_cases h12 : (s.pushByte (x k)).recvIndex = HEADER_LEN
  · rw [checkStream_header app h12, verifyHeader, hpush.headerValid_eq (by omega), if_pos hvalid,
      if_neg (by omega)]
  · exact checkStream_wait app (by omega) (by rw [hheader]; omega)

variable (containerHandler) in
/-- The byte that decides a window against it moves on to the next window. -/
theorem streamHandler_reject (app : σ) (h : Holds x m k (k + 1) n s)
    (hdue : k + 1 = Scan.due device x m) (hroom : n < m + 1024 ∨ k + 1 = n)
    (hrej : Scan.accepted device x m = false) :
    ∃ s', streamHandler device containerHandler (x k) s app = some ⟨s', app, false⟩ ∧
      Holds x (Scan.next device x m) (Scan.resume device x m) (Scan.resume device x m) n s' ∧
      (s'.reuseCount = 0 → Scan.resume device x m = k + 1) := by
  have hm := h.window_le
  have hlen := Scan.len_lt (x := x) m
  have hpn := h.pending_le
  have hH : HEADER_LEN = 12 := rfl
  rw [streamHandler]
  cases hv : headerValid device x m with
  | false =>
      -- the header is wrong: its first byte is dropped
      have hk : k + 1 = m + 12 := by rw [hdue, Scan.due_of_invalid hv]
      obtain ⟨hpush, -⟩ := h.pushByte (by simp only [MAX_PACK_SIZE]; omega)
      have hindex := hpush.recvIndex
      rw [Scan.next_of_invalid hv, Scan.resume_of_invalid hv, ← hk]
      refine ⟨(s.pushByte (x k)).shiftStream, ?_, ?_, fun _ => rfl⟩
      · rw [checkStream_header app (by omega), verifyHeader, hpush.headerValid_eq (by omega), hv]
        rfl
      · rw [hk] at hpush ⊢
        exact hpush.shiftStream (Nat.le_refl _)
  | true =>
      by_cases hl : Scan.len x m < 12
      · -- the declared length is never reached: the buffer overflows
        have hk : k = m + MAX_PACK_SIZE := by
          rw [Scan.due_of_short hv hl] at hdue
          simp only [MAX_PACK_SIZE]
          omega
        have hresume : Scan.resume device x m = k + 1 := by
          rw [Scan.resume_of_short hl, hdue]
        have hnext : Scan.next device x m = k + 1 := by
          rw [Scan.next_of_short hv hl, hdue, Scan.due_of_short hv hl]
        have hpush := h.pushByte_full hk
        have hindex := hpush.recvIndex
        rw [hnext, hresume]
        exact ⟨s.pushByte (x k), checkStream_of_lt app (by omega), hpush, fun _ => rfl⟩
      · -- the data checksum is wrong: the data is scanned again
        have hk : k + 1 = m + Scan.len x m := by rw [hdue, Scan.due_of_valid hv (by omega)]
        obtain ⟨hne, htail⟩ := Scan.of_rejected hv (by omega) hrej
        obtain ⟨hpush, -⟩ := h.pushByte (by simp only [MAX_PACK_SIZE]; omega)
        have hindex := hpush.recvIndex
        obtain ⟨hreuse, hcount⟩ := hpush.reuseStream (by omega) (by omega)
        have hheader : (s.pushByte (x k)).header.length = Scan.len x m := by
          rw [hpush.header_eq (by omega)]
          rfl
        rw [Scan.next_of_rejected (by omega) hrej, Scan.resume_of_rejected hv (by omega) hrej]
        refine ⟨(s.pushByte (x k)).reuseStream, ?_, hreuse, fun h0 => absurd h0 hcount⟩
        rw [checkStream_data app (by omega) (by omega), verifyData,
          hpush.frame_eq (by omega) (by omega), htail]
        rfl

variable (containerHandler) in
/-- The byte that completes an accepted window hands its frame to the handler. -/
theorem streamHandler_accept (app : σ) (h : Holds x m k (k + 1) n s)
    (hdue : k + 1 = Scan.due device x m) (hacc : Scan.accepted device x m = true) :
    ∃ s₁ s', streamHandler device containerHandler (x k) s app =
        (containerHandler s₁ app).map (fun out => ⟨s', out.1, out.2⟩) ∧
      s₁.frame = x.read m (Scan.len x m) ∧ MAX_PACK_SIZE - s₁.reuseIndex = n - (k + 1) ∧
      Holds x (Scan.next device x m) (k + 1) (k + 1) n s' := by
  have hm := h.window_le
  have hlen := Scan.len_lt (x := x) m
  obtain ⟨hv, hl, htail⟩ := Scan.accepted_iff.mp hacc
  have hl12 : 12 ≤ Scan.len x m := hl
  have hk : k + 1 = m + Scan.len x m := by rw [hdue, Scan.due_of_accepted hacc]
  obtain ⟨hpush, -⟩ := h.pushByte (by simp only [MAX_PACK_SIZE]; omega)
  have hindex := hpush.recvIndex
  have hreuse := hpush.reuseIndex
  have hframe := hpush.frame_eq (by omega) (by omega)
  have hheader : (s.pushByte (x k)).header.length = Scan.len x m := by
    rw [hpush.header_eq (by omega)]
    rfl
  refine ⟨s.pushByte (x k), (s.pushByte (x k)).prepareStream, ?_, hframe, by omega, ?_⟩
  · have hH : HEADER_LEN = 12 := rfl
    rw [streamHandler]
    by_cases h12 : Scan.len x m = HEADER_LEN
    · rw [checkStream_header app (by omega), verifyHeader, hpush.headerValid_eq (by omega),
        if_pos hv, if_pos (hheader.trans h12)]
      rfl
    · rw [checkStream_data app (by omega) (by omega), verifyData, hframe,
        if_pos (htail.resolve_left h12)]
      rfl
  · rw [Scan.next_of_accepted hacc, ← hk]
    exact hpush.prepareStream (by omega) (by simp only [MAX_PACK_SIZE]; omega)

end Step

end RoboRTS.Sdk
