import RoboRTS.Lib.StateMachine
import RoboRTS.Sdk.Stream.Scan

/-!
# `ByteHandler` scans the stream

`Scan.scan n m` decides the windows from `m` on that `n` bytes of the stream decide, in order,
and hands the accepted ones to the handler. `byteHandler_scan` says that a call of `ByteHandler`
on byte number `n` is exactly that, for `n + 1` bytes, including the re-scan loop, which always
ends; `feed_scan` is the statement for the bytes of a whole stream. The result of a call is the
handler's answer only when the window ends at the last byte of the stream (`Scan.scan`): an
answer given while buffered bytes are left to scan is overwritten.
-/

namespace RoboRTS.Sdk

namespace Scan

variable {σ : Type*} (device : UInt8) (h : List UInt8 → Nat → σ → Option (σ × Bool))
variable (x : ByteMemory)

/-- Decide the window at `m` with `n` bytes of the stream in the buffer. -/
def decideWindow (n m : Nat) (app : σ) : Option (σ × Bool) :=
  if accepted device x m then h (x.read m (len x m)) (n - due device x m) app
  else some (app, false)

/-- Decide every window from `m` on that `n` bytes of the stream decide. The flag is the answer
for the last one if it ends with the stream, and false otherwise. -/
def scan (n m : Nat) (app : σ) (flag : Bool) : Option (Nat × σ × Bool) :=
  if due device x m ≤ n then
    (decideWindow device h x n m app).bind fun out =>
      scan n (next device x m) out.1 (out.2 && due device x m == n)
  else some (m, app, flag)
termination_by n - m
decreasing_by
  have h1 := add_le_due device x m
  have h2 := lt_next device x m
  omega

/-- Scan the stream byte by byte from byte `n` on, for `count` bytes. -/
def scanFeed : Nat → Nat → Nat → σ → Option (List (σ × Bool))
  | _, 0, _, _ => some []
  | n, count + 1, m, app =>
      (scan device h x (n + 1) m app false).bind fun out =>
        (scanFeed (n + 1) count out.1 out.2.1).map fun rest => (out.2.1, out.2.2) :: rest

variable {device h x}

theorem scan_of_lt {n m : Nat} {app : σ} {flag : Bool} (hlt : n < due device x m) :
    scan device h x n m app flag = some (m, app, flag) := by
  rw [scan, if_neg (Nat.not_le.mpr hlt)]

theorem scan_of_le {n m : Nat} {app : σ} {flag : Bool} (hle : due device x m ≤ n) :
    scan device h x n m app flag = (decideWindow device h x n m app).bind fun out =>
      scan device h x n (next device x m) out.1 (out.2 && due device x m == n) := by
  rw [scan, if_pos hle]

theorem decideWindow_of_rejected {n m : Nat} {app : σ} (hrej : accepted device x m = false) :
    decideWindow device h x n m app = some (app, false) := by
  rw [decideWindow, hrej]
  rfl

theorem decideWindow_of_accepted {n m : Nat} {app : σ} (hacc : accepted device x m = true) :
    decideWindow device h x n m app = h (x.read m (len x m)) (n - due device x m) app := by
  rw [decideWindow, if_pos hacc]

end Scan

section ByteHandler

variable {σ : Type*} {device : UInt8} {h : List UInt8 → Nat → σ → Option (σ × Bool)}
variable {x : ByteMemory} {m k n : Nat}

/-- The result of handling bytes agrees with the result of scanning. -/
def Agrees (device : UInt8) (x : ByteMemory) (n : Nat) (scanned : Option (Nat × σ × Bool))
    (parsed : Option (Parsed σ)) : Prop :=
  match scanned with
  | none => parsed = none
  | some (m, app, flag) =>
      ∃ s, parsed = some ⟨s, app, flag⟩ ∧ Holds x m n n n s ∧ n < Scan.due device x m

theorem Holds.take {s : RecvStream} (hs : Holds x m k k n s) (hk : k < n) :
    s.recvBuff s.reuseIndex = x k ∧
      Holds x m k (k + 1) n { s with reuseIndex := s.reuseIndex + 1 } := by
  obtain ⟨hm, hl, hpn, hi, hr, hlive, hpend, hroom⟩ := hs
  refine ⟨by simpa using hpend 0 (by omega), hm, by omega, hk, hi, by dsimp only; omega, hlive, ?_,
    by omega⟩
  intro i hin
  have := hpend (i + 1) (by omega)
  rw [show s.reuseIndex + (i + 1) = s.reuseIndex + 1 + i by omega,
    show k + (i + 1) = k + 1 + i by omega] at this
  exact this

/-- The re-scan loop condition: bytes wait to be scanned again. -/
theorem rescanCond_iff {p : Parsed σ} (hp : Holds x m k k n p.stream) :
    rescanCond p = true ↔ k < n := by
  have hr := hp.reuseIndex
  have hpn := hp.pending_le
  simp only [rescanCond, decide_eq_true_eq]
  omega

/-- The re-scan loop scans the rest of the buffered bytes. Each iteration either brings one more
byte to the window or moves on to a later window. -/
theorem rescan_scan (bound : Nat) : ∀ (m k : Nat) (p : Parsed σ) (flag : Bool),
    Holds x m k k n p.stream → k < Scan.due device x m → (k = n ∨ n < m + 1024) →
    (k < n → (n - m) * 1024 + (n - k) ≤ bound) → (k = n → flag = p.isFrame) → (k < n → flag = false) →
    Agrees device x n (Scan.scan device h x n m p.app flag)
      (whileUpTo rescanCond (rescanBody device (onFrame h)) bound p) := by
  induction bound with
  | zero =>
      intro m k p flag hp hk hroom hbound heq hlt
      have hpn := hp.pending_le
      have hkn : k = n := by omega
      subst hkn
      rw [Scan.scan_of_lt hk, heq rfl]
      exact ⟨p.stream, rfl, hp, hk⟩
  | succ bound ih =>
      intro m k p flag hp hk hroom hbound heq hlt
      have hpn := hp.pending_le
      have hmk := hp.window_le
      by_cases hkn : k = n
      · subst hkn
        have hcond : rescanCond p = false := by
          rw [← Bool.not_eq_true, rescanCond_iff hp]
          omega
        rw [Scan.scan_of_lt hk, heq rfl, While.whileUpTo_of_not hcond]
        exact ⟨p.stream, rfl, hp, hk⟩
      · have hkn' : k < n := by omega
        have hflag := hlt hkn'
        subst hflag
        obtain ⟨hbyte, htake⟩ := hp.take hkn'
        rw [While.whileUpTo_succ_of ((rescanCond_iff hp).mpr hkn'), rescanBody, hbyte]
        by_cases hwait : k + 1 < Scan.due device x m
        · obtain ⟨s', hs', hholds, -⟩ :=
            streamHandler_wait (onFrame h) p.app htake hwait
          rw [hs', Option.bind_some]
          exact ih m (k + 1) ⟨s', p.app, false⟩ false hholds hwait (by omega) (by omega)
            (fun _ => rfl) (fun _ => rfl)
        · have hdue : k + 1 = Scan.due device x m := by omega
          have hnext := Scan.lt_next device x m
          have hlater := Scan.resume_lt_due_next device x m
          rw [Scan.scan_of_le (by omega)]
          cases hacc : Scan.accepted device x m with
          | false =>
              obtain ⟨s', hs', hholds, -⟩ :=
                streamHandler_reject (onFrame h) p.app htake hdue (by omega) hacc
              have hle := hholds.pending_le
              have hle' := hholds.window_le
              rw [hs', Scan.decideWindow_of_rejected hacc, Option.bind_some, Option.bind_some]
              exact ih _ _ ⟨s', p.app, false⟩ _ hholds hlater (by omega) (by omega)
                (fun _ => rfl) (fun _ => rfl)
          | true =>
              obtain ⟨s₁, s', hs', hframe, hbehind, hholds⟩ :=
                streamHandler_accept (onFrame h) p.app htake hdue hacc
              rw [Scan.resume_of_accepted hacc, ← hdue] at hlater
              have hle := hholds.pending_le
              have hle' := hholds.window_le
              rw [hs', Scan.decideWindow_of_accepted hacc, onFrame, hframe, hbehind, ← hdue]
              cases h (x.read m (Scan.len x m)) (n - (k + 1)) p.app with
              | none => exact rfl
              | some out =>
                  rw [Option.map_some, Option.bind_some, Option.bind_some]
                  exact ih _ _ ⟨s', out.1, out.2⟩ _ hholds hlater (by omega) (by omega)
                    (fun hend => by simp [hend]) (fun hend => by simp [Nat.ne_of_lt hend])

/-- The stream between two calls of `ByteHandler`: `n` bytes have been received and the window
`m` is not decided. -/
structure Ready (device : UInt8) (x : ByteMemory) (m n : Nat) (s : RecvStream) : Prop where
  undecided : n < Scan.due device x m
  holds : Holds x m n (n + 1) (n + 1) { s with reuseCount := 0, reuseIndex := MAX_PACK_SIZE }

theorem ready_init (device : UInt8) (x buff : ByteMemory) :
    Ready device x 0 0 (RecvStream.init buff) := by
  have hdue := Scan.add_le_due device x 0
  refine ⟨by omega, Nat.le_refl _, by decide, Nat.le_refl _, rfl, rfl, ?_, ?_, Or.inl rfl⟩
  · intro i hi
    omega
  · intro i hi
    omega

theorem Holds.ready {s : RecvStream} (hs : Holds x m n n n s) (hdue : n < Scan.due device x m) :
    Ready device x m n s := by
  obtain ⟨hm, hl, hpn, hi, hr, hlive, hpend, hroom⟩ := hs
  refine ⟨hdue, hm, by omega, Nat.le_refl _, hi, ?_, hlive, ?_, Or.inl rfl⟩
  · exact Nat.add_eq_left.mpr (by omega)
  · intro i hin
    omega

/-- `Agrees` does not look at `reuse_count`. -/
theorem Agrees.resetCount {scanned : Option (Nat × σ × Bool)} {parsed : Option (Parsed σ)}
    (hagree : Agrees device x n scanned parsed) :
    Agrees device x n scanned (parsed.map fun p =>
      if p.stream.reuseCount ≠ 0 then { p with stream := { p.stream with reuseCount := 0 } }
      else p) := by
  match scanned with
  | none =>
      have hnone : parsed = none := hagree
      rw [hnone]
      rfl
  | some (m', app', flag') =>
      obtain ⟨s', rfl, ⟨hm, hl, hpn, hi, hr, hlive, hpend, hroom⟩, hdue⟩ := hagree
      by_cases hcount : s'.reuseCount ≠ 0
      · exact ⟨{ s' with reuseCount := 0 }, by rw [Option.map_some, if_pos hcount],
          ⟨hm, hl, hpn, hi, hr, hlive, hpend, hroom⟩, hdue⟩
      · exact ⟨s', by rw [Option.map_some, if_neg hcount],
          ⟨hm, hl, hpn, hi, hr, hlive, hpend, hroom⟩, hdue⟩

/-- `ByteHandler` on byte `n`, its loop run to the bound, decides exactly the windows that
`n + 1` bytes decide. -/
theorem byteHandlerUpTo_scan {s : RecvStream} (app : σ) (hs : Ready device x m n s) :
    Agrees device x (n + 1) (Scan.scan device h x (n + 1) m app false)
      (byteHandlerUpTo device (onFrame h) rescanBound (x n) s app) := by
  obtain ⟨hdue, hs⟩ := hs
  rw [byteHandlerUpTo]
  by_cases hwait : n + 1 < Scan.due device x m
  · obtain ⟨s', hs', hholds, hcount⟩ :=
      streamHandler_wait (onFrame h) app hs hwait
    rw [hs', Option.bind_some, if_neg (by rw [hcount]; simp), Scan.scan_of_lt hwait]
    exact ⟨s', rfl, hholds, hwait⟩
  · have hdue' : n + 1 = Scan.due device x m := by omega
    have hnext := Scan.lt_next device x m
    have hlater := Scan.resume_lt_due_next device x m
    rw [Scan.scan_of_le (by omega)]
    cases hacc : Scan.accepted device x m with
    | false =>
        obtain ⟨s', hs', hholds, hcount⟩ :=
          streamHandler_reject (onFrame h) app hs hdue' (Or.inr rfl) hacc
        have hle := hholds.pending_le
        have hle' := hholds.window_le
        have hroom := hholds.room
        rw [hs', Scan.decideWindow_of_rejected hacc, Option.bind_some, Option.bind_some]
        by_cases h0 : s'.reuseCount = 0
        · rw [if_neg (by simp [h0])]
          rw [hcount h0] at hholds hlater
          rw [Scan.scan_of_lt hlater]
          exact ⟨s', rfl, hholds, hlater⟩
        · rw [if_pos h0]
          exact rescan_scan rescanBound _ _ ⟨s', app, false⟩ _ hholds hlater hroom
            (by simp only [rescanBound, MAX_PACK_SIZE]; omega) (fun _ => rfl) (fun _ => rfl)
    | true =>
        obtain ⟨s₁, s', hs', hframe, hbehind, hholds⟩ :=
          streamHandler_accept (onFrame h) app hs hdue' hacc
        rw [Scan.resume_of_accepted hacc, ← hdue'] at hlater
        rw [hs', Scan.decideWindow_of_accepted hacc, onFrame, hframe, hbehind, ← hdue']
        cases h (x.read m (Scan.len x m)) (n + 1 - (n + 1)) app with
        | none => exact rfl
        | some out =>
            have hcond : rescanCond (⟨s', out.1, out.2⟩ : Parsed σ) = false := by
              rw [← Bool.not_eq_true, rescanCond_iff hholds]
              omega
            rw [Option.map_some, Option.bind_some, Option.bind_some, Scan.scan_of_lt hlater,
              While.whileUpTo_of_not hcond, ite_self]
            exact ⟨s', by simp, hholds, hlater⟩

/-- A call of `ByteHandler` on byte `n` decides exactly the windows that `n + 1` bytes decide. -/
theorem byteHandler_scan {s : RecvStream} (app : σ) (hs : Ready device x m n s) :
    Agrees device x (n + 1) (Scan.scan device h x (n + 1) m app false)
      (byteHandler device (onFrame h) (x n) s app) :=
  (byteHandlerUpTo_scan app hs).resetCount

/-- The calls of `ByteHandler` on a stream are the steps of its scan. -/
theorem feed_scan (bytes : List UInt8) : ∀ {m n : Nat} {s : RecvStream} (app : σ),
    (∀ i (hi : i < bytes.length), x (n + i) = bytes[i]) → Ready device x m n s →
    (feed device (onFrame h) bytes s app).map (List.map fun p => (p.app, p.isFrame)) =
      Scan.scanFeed device h x n bytes.length m app := by
  induction bytes with
  | nil =>
      intro m n s app hbytes hs
      rfl
  | cons byte bytes ih =>
      intro m n s app hbytes hs
      have hbyte : x n = byte := hbytes 0 (by simp)
      have hagree := byteHandler_scan (h := h) app hs
      rw [List.length_cons, feed, Scan.scanFeed, ← hbyte]
      match hscan : Scan.scan device h x (n + 1) m app false with
      | none =>
          have hnone : byteHandler device (onFrame h) (x n) s app = none := by
            rw [hscan] at hagree
            exact hagree
          rw [hnone]
          rfl
      | some (m', app', flag') =>
          rw [hscan] at hagree
          obtain ⟨s', hs', hholds, hdue⟩ := hagree
          have hrest := ih (n := n + 1) (s := s') app'
            (fun i hi => by
              have := hbytes (i + 1) (by simpa using hi)
              rw [Nat.add_assoc, Nat.add_comm 1 i]
              simpa using this)
            (hholds.ready hdue)
          rw [hs', Option.bind_some, Option.bind_some, ← hrest]
          cases feed device (onFrame h) bytes s' app' with
          | none => rfl
          | some rest => rfl

end ByteHandler

end RoboRTS.Sdk
