import RoboRTS.Lib.While
import RoboRTS.Sdk.Header

/-!
# The stream parser

`ByteHandler` and the routines under it, which find package frames in the received bytes. The
parser only moves bytes in `recv_buff` and calls `ContainerHandler` on the frames it accepts, so
it is defined over an arbitrary handler on an arbitrary state `σ`; a handler call that has
undefined behaviour gives `none`. `reuse_buffer_` is true in every protocol object and is not
modelled. `MAX_PACK_SIZE` bytes of `recv_buff` exist; that no index leaves them is proved with
the buffer invariant, not assumed.
-/

namespace RoboRTS.Sdk

/-- `RecvStream`. The bytes below `recv_index` are live, those from `reuse_index` on wait to be
scanned again. -/
structure RecvStream where
  reuseIndex : Nat
  reuseCount : Nat
  recvIndex : Nat
  recvBuff : ByteMemory

/-- What one call of a handler of the parser leaves: the stream, the state, and `is_frame`. -/
structure Parsed (σ : Type*) where
  stream : RecvStream
  app : σ
  isFrame : Bool

namespace RecvStream

/-- The stream `Init` sets up; `buff` is what the fresh array happens to contain. -/
def init (buff : ByteMemory) : RecvStream where
  reuseIndex := 0
  reuseCount := 0
  recvIndex := 0
  recvBuff := buff

/-- `header_ptr`: the header at the start of the buffer. -/
def header (s : RecvStream) : Header :=
  Header.decode s.recvBuff 0

/-- The frame at the start of the buffer, as long as its header says. -/
def frame (s : RecvStream) : List UInt8 :=
  s.recvBuff.read 0 s.header.length

/-- The bytes `recv_buff[0..recv_index)`. -/
def live (s : RecvStream) : List UInt8 :=
  s.recvBuff.read 0 s.recvIndex

/-- The bytes `recv_buff[reuse_index..MAX_PACK_SIZE)`. -/
def pending (s : RecvStream) : List UInt8 :=
  s.recvBuff.read s.reuseIndex (MAX_PACK_SIZE - s.reuseIndex)

/-! ## Stream management -/

/-- `PrepareStream`; `index_of_move` is a 32-bit difference. -/
def prepareStream (s : RecvStream) : RecvStream :=
  let bytesToMove := HEADER_LEN - 1
  let indexOfMove := (s.recvIndex + 2 ^ 32 - bytesToMove) % 2 ^ 32
  let buff := s.recvBuff.move 0 indexOfMove bytesToMove
  { s with recvBuff := buff.fill bytesToMove 0 indexOfMove, recvIndex := bytesToMove }

/-- `ShiftStream`. -/
def shiftStream (s : RecvStream) : RecvStream :=
  if s.recvIndex ≠ 0 then
    let s := { s with recvIndex := s.recvIndex - 1 }
    if s.recvIndex ≠ 0 then { s with recvBuff := s.recvBuff.move 0 1 s.recvIndex } else s
  else s

/-- `ReuseStream`; `bytes_to_move` and `n_dest_index` are 16-bit differences. -/
def reuseStream (s : RecvStream) : RecvStream :=
  let bytesToMove := (s.recvIndex + 2 ^ 32 - HEADER_LEN) % 2 ^ 16
  let destIndex := (s.reuseIndex + 2 ^ 32 - bytesToMove) % 2 ^ 16
  let buff := s.recvBuff.move destIndex HEADER_LEN bytesToMove
  let s := shiftStream { s with recvBuff := buff, recvIndex := HEADER_LEN }
  { s with reuseIndex := destIndex, reuseCount := s.reuseCount + 1 }

/-- The first half of `StreamHandler`: append the byte, or empty a full buffer. -/
def pushByte (s : RecvStream) (byte : UInt8) : RecvStream :=
  if s.recvIndex < MAX_PACK_SIZE then
    { s with recvBuff := s.recvBuff.write s.recvIndex [byte], recvIndex := s.recvIndex + 1 }
  else
    { s with recvBuff := s.recvBuff.fill 0 0 s.recvIndex, recvIndex := 0 }

end RecvStream

/-- The condition of `VerifyHeader` on the twelve bytes at address `a`, on a device with the
address `device`. -/
def headerValid (device : UInt8) (m : ByteMemory) (a : Nat) : Bool :=
  let header := Header.decode m a
  header.sof == SOF && header.version == VERSION && decide (header.length < MAX_PACK_SIZE) &&
    header.reserved0 == 0 && header.reserved1 == 0 &&
    (header.receiver == device || header.receiver == 0xFF) &&
    crcHeadCheck (m.read a HEADER_LEN)

/-! ## The handlers -/

section Handlers

variable {σ : Type*} (device : UInt8) (containerHandler : RecvStream → σ → Option (σ × Bool))

/-- Hand the frame in the buffer to `ContainerHandler`, then prepare the stream. -/
def handleAndPrepare (s : RecvStream) (app : σ) : Option (Parsed σ) :=
  (containerHandler s app).map fun out => ⟨s.prepareStream, out.1, out.2⟩

/-- `VerifyHeader`. -/
def verifyHeader (s : RecvStream) (app : σ) : Option (Parsed σ) :=
  if headerValid device s.recvBuff 0 then
    if s.header.length = HEADER_LEN then handleAndPrepare containerHandler s app
    else some ⟨s, app, false⟩
  else some ⟨s.shiftStream, app, false⟩

/-- `VerifyData`. -/
def verifyData (s : RecvStream) (app : σ) : Option (Parsed σ) :=
  if crcTailCheck s.frame then handleAndPrepare containerHandler s app
  else some ⟨s.reuseStream, app, false⟩

/-- `CheckStream`. -/
def checkStream (s : RecvStream) (app : σ) : Option (Parsed σ) :=
  if s.recvIndex < HEADER_LEN then some ⟨s, app, false⟩
  else if s.recvIndex = HEADER_LEN then verifyHeader device containerHandler s app
  else if s.recvIndex = s.header.length then verifyData containerHandler s app
  else some ⟨s, app, false⟩

/-- `StreamHandler`. -/
def streamHandler (byte : UInt8) (s : RecvStream) (app : σ) : Option (Parsed σ) :=
  checkStream device containerHandler (s.pushByte byte) app

/-- The loop condition of `ByteHandler`. -/
def rescanCond (p : Parsed σ) : Bool :=
  decide (p.stream.reuseIndex < MAX_PACK_SIZE)

/-- The loop body of `ByteHandler`: scan the next buffered byte again. -/
def rescanBody (p : Parsed σ) : Option (Parsed σ) :=
  streamHandler device containerHandler (p.stream.recvBuff p.stream.reuseIndex)
    { p.stream with reuseIndex := p.stream.reuseIndex + 1 } p.app

/-- `ByteHandler` up to at most `k` iterations of its re-scan loop. -/
def byteHandlerUpTo (k : Nat) (byte : UInt8) (s : RecvStream) (app : σ) : Option (Parsed σ) :=
  (streamHandler device containerHandler byte
      { s with reuseCount := 0, reuseIndex := MAX_PACK_SIZE } app).bind fun p =>
    if p.stream.reuseCount ≠ 0 then
      whileUpTo rescanCond (rescanBody device containerHandler) k p
    else some p

/-- More iterations than the re-scan loop ever makes. -/
def rescanBound : Nat :=
  MAX_PACK_SIZE * (MAX_PACK_SIZE + 1)

/-- `ByteHandler`. -/
def byteHandler (byte : UInt8) (s : RecvStream) (app : σ) : Option (Parsed σ) :=
  (byteHandlerUpTo device containerHandler rescanBound byte s app).map fun p =>
    if p.stream.reuseCount ≠ 0 then { p with stream := { p.stream with reuseCount := 0 } } else p

/-- `ByteHandler` on the bytes of a list one after the other: what each call leaves. -/
def feed : List UInt8 → RecvStream → σ → Option (List (Parsed σ))
  | [], _, _ => some []
  | byte :: bytes, s, app =>
      (byteHandler device containerHandler byte s app).bind fun p =>
        (feed bytes p.stream p.app).map fun rest => p :: rest

end Handlers

/-! ## Handlers of frames -/

/-- A handler that reads the frame in the buffer and the number of bytes that wait behind it. -/
def onFrame {σ : Type*} (handle : List UInt8 → Nat → σ → Option (σ × Bool)) (s : RecvStream)
    (app : σ) : Option (σ × Bool) :=
  handle s.frame (MAX_PACK_SIZE - s.reuseIndex) app

/-- A call of `ContainerHandler`: the frame in the buffer and how many buffered bytes behind it
wait to be scanned again. -/
structure Handled where
  frame : List UInt8
  behind : Nat
  deriving Repr, DecidableEq

/-- A handler together with the record of its calls. Recording goes on after a call with
undefined behaviour, so the record contains every call up to it and that call itself. -/
def recorded {σ : Type*} (handle : List UInt8 → Nat → σ → Option (σ × Bool)) (frame : List UInt8)
    (behind : Nat) (app : Option σ × List Handled) : Option ((Option σ × List Handled) × Bool) :=
  let out := app.1.bind (handle frame behind)
  some ((out.map Prod.fst, app.2 ++ [⟨frame, behind⟩]), (out.map Prod.snd).getD false)

end RoboRTS.Sdk
