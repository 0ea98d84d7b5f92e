import RoboRTS.Sdk.Stream.Discipline

/-!
# Bytes between other calls

A receiver whose application state is also changed by calls from outside, between the bytes of the
stream. What every handled frame and every such call keep holds after every run
(`run_interleaved`): the stream under the run is that of its bytes alone.
-/

namespace RoboRTS.Sdk

/-- What reaches a receiver: the next byte of the device, or another call. -/
inductive Input (ε : Type*) where
  | byte (byte : UInt8)
  | call (e : ε)

namespace Input

variable {ε : Type*}

/-- The byte of an input, if it is one. -/
def byte? : Input ε → Option UInt8
  | byte b => some b
  | call _ => none

/-- The stream that a list of inputs carries. -/
def bytes (inputs : List (Input ε)) : List UInt8 :=
  inputs.filterMap byte?

@[simp] theorem bytes_byte (b : UInt8) (inputs : List (Input ε)) :
    bytes (byte b :: inputs) = b :: bytes inputs := rfl

@[simp] theorem bytes_call (e : ε) (inputs : List (Input ε)) :
    bytes (call e :: inputs) = bytes inputs := rfl

end Input

/-- One input: a call of `ByteHandler`, or a call that touches the application state only. -/
def inputStep {σ ε : Type*} (device : UInt8) (handle : List UInt8 → Nat → σ → Option (σ × Bool))
    (other : σ → ε → σ) (state : RecvStream × σ) : Input ε → Option (RecvStream × σ)
  | .byte b => byteStep device (onFrame handle) state b
  | .call e => some (state.1, other state.2 e)

section

variable {σ ε : Type*} {device : UInt8} {handle : List UInt8 → Nat → σ → Option (σ × Bool)}
variable {other : σ → ε → σ} {P : σ → Prop} {x : ByteMemory} {m n : Nat}

/-- The handler is defined on valid frames and keeps `P`. -/
def HandlerKeeps (device : UInt8) (handle : List UInt8 → Nat → σ → Option (σ × Bool))
    (P : σ → Prop) : Prop :=
  ∀ frame behind app, ValidFrame device frame → P app →
    ∃ out, handle frame behind app = some out ∧ P out.1

/-- Deciding the windows of a stream keeps what the handler keeps. -/
theorem scan_keeps (hkeeps : HandlerKeeps device handle P) (n m : Nat) (app : σ) (flag : Bool)
    (happ : P app) :
    ∃ out, Scan.scan device handle x n m app flag = some out ∧ P out.2.1 := by
  -- the measure of `scan`: how much of the stream is left behind the window
  induction hleft : n - m using Nat.strongRecOn generalizing m app flag with
  | ind left ih =>
    by_cases hdue : Scan.due device x m ≤ n
    case neg => exact ⟨_, Scan.scan_of_lt (Nat.not_le.mp hdue), happ⟩
    rw [Scan.scan_of_le hdue]
    have hnext := Scan.lt_next device x m
    have hadd := Scan.add_le_due device x m
    have hdecide : ∃ out, Scan.decideWindow device handle x n m app = some out ∧ P out.1 := by
      cases hacc : Scan.accepted device x m with
      | false => exact ⟨_, Scan.decideWindow_of_rejected hacc, happ⟩
      | true =>
          rw [Scan.decideWindow_of_accepted hacc]
          exact hkeeps _ _ app (validFrame_of_accepted hacc) happ
    obtain ⟨out, hout, hP⟩ := hdecide
    rw [hout]
    exact ih (n - Scan.next device x m) (by omega) _ out.1 _ hP rfl

/-- One byte keeps it. -/
theorem byteStep_keeps (hkeeps : HandlerKeeps device handle P) {s : RecvStream} {app : σ}
    (hs : Ready device x m n s) (happ : P app) :
    ∃ m' s' app', byteStep device (onFrame handle) (s, app) (x n) = some (s', app') ∧
      Ready device x m' (n + 1) s' ∧ P app' := by
  have hagree := byteHandler_scan (h := handle) app hs
  obtain ⟨⟨m', app', flag⟩, hscan, hP⟩ := scan_keeps (x := x) hkeeps (n + 1) m app false happ
  rw [hscan] at hagree
  obtain ⟨s', hparsed, hholds, hdue⟩ := hagree
  refine ⟨m', s', app', ?_, hholds.ready hdue, hP⟩
  rw [byteStep, hparsed, Option.map_some]

variable (x) in
/-- The inputs of a list keep it, in every order of bytes and other calls. -/
theorem run_keeps (hkeeps : HandlerKeeps device handle P)
    (hother : ∀ app e, P app → P (other app e)) (inputs : List (Input ε)) :
    ∀ (m n : Nat) (s : RecvStream) (app : σ),
      (∀ i (hi : i < (Input.bytes inputs).length), x (n + i) = (Input.bytes inputs)[i]) →
      Ready device x m n s → P app →
      ∃ s' app', StateMachine.run (inputStep device handle other) (s, app) inputs =
        some (s', app') ∧ P app' := by
  induction inputs with
  | nil => exact fun _ _ s app _ _ happ => ⟨s, app, rfl, happ⟩
  | cons input inputs ih =>
      intro m n s app hbytes hs happ
      cases input with
      | byte b =>
          have hb : x n = b := hbytes 0 (by simp)
          obtain ⟨m', s₁, app₁, hfirst, hs₁, happ₁⟩ := byteStep_keeps hkeeps hs happ
          obtain ⟨s', app', hrest, hP⟩ := ih m' (n + 1) s₁ app₁
            (fun i hi => by
              have := hbytes (i + 1) (by simpa using hi)
              rw [Nat.add_assoc, Nat.add_comm 1 i]
              simpa using this) hs₁ happ₁
          refine ⟨s', app', ?_, hP⟩
          rw [StateMachine.run_cons, inputStep, ← hb, hfirst]
          exact hrest
      | call e => exact ih m n s (other app e) hbytes hs (hother app e happ)

/-- From the initial stream, what every handled frame and every other call keep holds after every
run. -/
theorem run_interleaved (hkeeps : HandlerKeeps device handle P)
    (hother : ∀ app e, P app → P (other app e)) (buff : ByteMemory) {app : σ} (happ : P app)
    (inputs : List (Input ε)) :
    ∃ s' app', StateMachine.run (inputStep device handle other) (RecvStream.init buff, app)
      inputs = some (s', app') ∧ P app' := by
  refine run_keeps (ByteMemory.ofList (Input.bytes inputs)) hkeeps hother inputs 0 0 _ app ?_
    (ready_init device _ buff) happ
  intro i hi
  rw [Nat.zero_add, ByteMemory.ofList_apply _ hi]

end

end RoboRTS.Sdk
