import RoboRTS.Sdk.Stream.Defs
import RoboRTS.Sdk.MemoryPool.Defs

/-!
# The protocol layer

The sessions of `class Protocol`: the command sessions of the sender, the ack sessions of the
receiver, the memory pool that holds their frames, and the functions that send and handle frames.
A pointer to a memory block is an index of the block table. Undefined behaviour (a table index or
a copy out of range, a null pointer read) gives `none`. What the functions hand to the serial
device is kept in `deviceOut`; whether the write succeeds is only logged by the source. Locks and
log messages are left out: every function is one atomic step.
-/

namespace RoboRTS.Sdk

/-- `ACKSessionStatus`. -/
inductive ACKSessionStatus where
  | ACK_SESSION_IDLE
  | ACK_SESSION_PROCESS
  | ACK_SESSION_USING
  deriving Repr, DecidableEq, Inhabited

/-- `CMDSessionMode`. -/
inductive CMDSessionMode where
  | CMD_SESSION_0
  | CMD_SESSION_1
  | CMD_SESSION_AUTO
  deriving Repr, DecidableEq

/-- `CMDSession`; times are nanoseconds of the steady clock and timeouts milliseconds. -/
structure CMDSession where
  sessionId : Nat
  usageFlag : Bool
  memoryBlockPtr : Option Nat
  cmdSet : UInt8
  cmdId : UInt8
  sent : UInt16
  retryTime : UInt16
  ackTimeout : Int
  preTimeStamp : Int
  preSeqNum : UInt32
  deriving Repr, DecidableEq, Inhabited

/-- `ACKSession`. -/
structure ACKSession where
  sessionId : Nat
  sessionStatus : ACKSessionStatus
  memoryBlockPtr : Option Nat
  deriving Repr, DecidableEq, Inhabited

/-- `CommandInfo`. -/
structure CommandInfo where
  cmdSet : UInt8
  cmdId : UInt8
  needAck : Bool
  sender : UInt8
  receiver : UInt8
  length : UInt16
  deriving Repr, DecidableEq, Inhabited

/-- `MessageHeader`. -/
structure MessageHeader where
  seqNum : UInt16
  sessionId : Nat
  isAck : Bool
  deriving Repr, DecidableEq, Inhabited

/-- `RecvContainer`; `messageData` is `raw_data`. -/
structure RecvContainer where
  commandInfo : CommandInfo
  messageHeader : MessageHeader
  messageData : ByteMemory
  deriving Inhabited

/-- The members of `Protocol` that its send and receive functions use. -/
structure Protocol where
  device : UInt8
  seqNum : UInt16
  cmdSessionTable : Nat → CMDSession
  ackSessionTable : Nat → Nat → ACKSession
  memoryPool : MemoryPool
  recvContainer : RecvContainer
  deviceOut : List (List UInt8)
  deriving Inhabited

namespace Protocol

/-- `poll_tick_` in milliseconds. -/
def pollTick : Int := 10

/-! ## Session management -/

/-- `SetupSession`. -/
def setupSession (p : Protocol) : Protocol :=
  { p with
    cmdSessionTable := fun i =>
      { p.cmdSessionTable i with sessionId := i, usageFlag := false, memoryBlockPtr := none }
    ackSessionTable := fun _ j =>
      { sessionId := j + 1, sessionStatus := .ACK_SESSION_IDLE, memoryBlockPtr := none } }

/-- The part of `Init` that the sessions see. What the members and the fresh arrays contain
before is arbitrary. -/
def init (p : Protocol) (table : Nat → MemoryBlock) (memory : ByteMemory) : Protocol :=
  setupSession { p with
    seqNum := 0
    memoryPool := MemoryPool.init MAX_PACK_SIZE BUFFER_SIZE SESSION_TABLE_NUM table memory }

/-- Overwrite one command session. -/
def setCmd (p : Protocol) (i : Nat) (session : CMDSession) : Protocol :=
  { p with cmdSessionTable := Function.update p.cmdSessionTable i session }

/-- Overwrite one ack session. -/
def setAck (p : Protocol) (receiver j : Nat) (session : ACKSession) : Protocol :=
  { p with
    ackSessionTable := Function.update p.ackSessionTable receiver
      (Function.update (p.ackSessionTable receiver) j session) }

/-- Replace the pool. -/
def setPool (p : Protocol) (pool : MemoryPool) : Protocol :=
  { p with memoryPool := pool }

/-- The session that `AllocCMDSession` tries. -/
def freeSession (p : Protocol) : CMDSessionMode → Option Nat
  | .CMD_SESSION_0 => if (p.cmdSessionTable 0).usageFlag then none else some 0
  | .CMD_SESSION_1 => if (p.cmdSessionTable 1).usageFlag then none else some 1
  | .CMD_SESSION_AUTO =>
      (List.range' 2 (SESSION_TABLE_NUM - 2)).find? fun i => !(p.cmdSessionTable i).usageFlag

/-- `AllocCMDSession`: the index of the session, or `none` for a null pointer. -/
def allocCMDSession (p : Protocol) (mode : CMDSessionMode) (size : Nat) : Protocol × Option Nat :=
  match p.freeSession mode with
  | none => (p, none)
  | some i =>
      let (pool, block) := p.memoryPool.allocMemory size
      match block with
      | none => (p.setPool pool, none)
      | some b =>
          ((p.setPool pool).setCmd i
            { p.cmdSessionTable i with usageFlag := true, memoryBlockPtr := some b }, some i)

/-- `FreeCMDSession`. -/
def freeCMDSession (p : Protocol) (i : Nat) : Protocol :=
  if (p.cmdSessionTable i).usageFlag then
    (p.setPool (p.memoryPool.freeMemory (p.cmdSessionTable i).memoryBlockPtr)).setCmd i
      { p.cmdSessionTable i with usageFlag := false }
  else p

/-- `FreeACKSession`; the pointer stays. -/
def freeACKSession (p : Protocol) (receiver j : Nat) : Protocol :=
  p.setPool (p.memoryPool.freeMemory (p.ackSessionTable receiver j).memoryBlockPtr)

/-- `AllocACKSession` on a receiver of the table: whether it returns a session. -/
def allocACKSession (p : Protocol) (receiver sessionId size : Nat) : Protocol × Bool :=
  if 0 < sessionId ∧ sessionId < 32 then
    let p := if (p.ackSessionTable receiver (sessionId - 1)).memoryBlockPtr.isSome then
        p.freeACKSession receiver (sessionId - 1)
      else p
    let (pool, block) := p.memoryPool.allocMemory size
    match block with
    | none => (p.setPool pool, false)
    | some b =>
        ((p.setPool pool).setAck receiver (sessionId - 1)
          { p.ackSessionTable receiver (sessionId - 1) with memoryBlockPtr := some b }, true)
  else (p, false)

/-! ## Send pipeline -/

/-- `DeviceSend`: as many bytes as the header at `ptr` says. -/
def deviceSend (p : Protocol) (ptr : Nat) : Protocol :=
  { p with
    deviceOut := p.deviceOut ++
      [p.memoryPool.memory.read ptr (Header.decode p.memoryPool.memory ptr).length] }

/-- The address a session's block is at. -/
def blockPtr (p : Protocol) (b : Nat) : Nat :=
  (p.memoryPool.memoryTable b).memoryPtr

/-- Append the CRC-32 of the first `packLength - CRC_DATA_LEN` bytes of a package. -/
def packCrc (m : ByteMemory) (ptr packLength : Nat) : ByteMemory :=
  m.write (ptr + packLength - CRC_DATA_LEN)
    (bytes32 (crc32Calc (m.read ptr (packLength - CRC_DATA_LEN))))

/-- The header both send functions fill in. -/
def packHeader (p : Protocol) (packLength sessionId : Nat) (isAck : Bool) (receiver : UInt8)
    (seqNum : UInt16) : Header where
  sof := SOF
  length := packLength
  version := VERSION
  sessionId := sessionId
  isAck := isAck
  reserved0 := 0
  sender := p.device
  receiver := receiver
  reserved1 := 0
  seqNum := seqNum

/-- Pack a command into the block of session `i`: header, prefix, data and checksum. The copies
must stay inside the pool memory. -/
def packCMD (p : Protocol) (i b packLength : Nat) (cmdSet cmdId receiver : UInt8)
    (data : List UInt8) : Option Protocol :=
  let ptr := p.blockPtr b
  if ptr + HEADER_LEN + CMD_SET_PREFIX_LEN + data.length ≤ p.memoryPool.memorySize then
    let header := p.packHeader packLength (p.cmdSessionTable i).sessionId false receiver p.seqNum
    let m := header.write p.memoryPool.memory ptr
    let m := m.write (ptr + HEADER_LEN) [cmdId, cmdSet]
    let m := m.write (ptr + HEADER_LEN + CMD_SET_PREFIX_LEN) data
    some (p.setPool { p.memoryPool with memory := packCrc m ptr packLength })
  else none

/-- What `SendCMD` stores in `message_header`. -/
def cmdMessageHeader (p : Protocol) (i : Nat) : MessageHeader where
  seqNum := p.seqNum
  sessionId := (p.cmdSessionTable i).sessionId
  isAck := false

/-- `SendCMD` on session 0: the session is free again after the send. -/
def sendOnce (p : Protocol) (i b packLength : Nat) (cmdSet cmdId receiver : UInt8)
    (data : List UInt8) : Option (Protocol × Option MessageHeader) :=
  (p.packCMD i b packLength cmdSet cmdId receiver data).map fun p =>
    let out := p.cmdMessageHeader i
    let p := p.deviceSend (p.blockPtr b)
    let p := { p with seqNum := p.seqNum + 1 }
    (p.freeCMDSession i, some out)

/-- The sequence number must differ from the last one of session `i`. -/
def bumpSeqNum (p : Protocol) (i : Nat) : Protocol :=
  if p.seqNum.toUInt32 = (p.cmdSessionTable i).preSeqNum then { p with seqNum := p.seqNum + 1 }
  else p

/-- `SendCMD` in the two modes that keep the session until it is acknowledged or times out. -/
def sendKept (p : Protocol) (i b packLength : Nat) (cmdSet cmdId receiver : UInt8)
    (data : List UInt8) (ackTimeout : Int) (retryTime : UInt16) (now : Int) :
    Option (Protocol × Option MessageHeader) :=
  let p := p.bumpSeqNum i
  (p.packCMD i b packLength cmdSet cmdId receiver data).map fun p =>
    let out := p.cmdMessageHeader i
    let p := p.setCmd i { p.cmdSessionTable i with
      cmdSet := cmdSet
      cmdId := cmdId
      preSeqNum := p.seqNum.toUInt32
      ackTimeout := if ackTimeout > pollTick then ackTimeout else pollTick
      preTimeStamp := now
      sent := 1
      retryTime := retryTime }
    let p := { p with seqNum := p.seqNum + 1 }
    (p.deviceSend (p.blockPtr b), some out)

/-- `SendCMD` at time `now`. The result is the new state and, when `SendCMD` returns true, what it
stores in `message_header`. `pack_length` is a 16-bit value; a null `data_ptr` is an empty
`data`. -/
def sendCMD (p : Protocol) (cmdSet cmdId receiver : UInt8) (data : List UInt8)
    (mode : CMDSessionMode) (ackTimeout retryTime now : Int) :
    Option (Protocol × Option MessageHeader) :=
  if data.length = 0 then some (p, none)
  else
    let packLength := (HEADER_LEN + CMD_SET_PREFIX_LEN + data.length + CRC_DATA_LEN) % 2 ^ 16
    match p.allocCMDSession mode packLength with
    | (p, none) => some (p, none)
    | (p, some i) =>
        match (p.cmdSessionTable i).memoryBlockPtr with
        | none => none
        | some b =>
            match mode with
            | .CMD_SESSION_0 => p.sendOnce i b packLength cmdSet cmdId receiver data
            | .CMD_SESSION_1 => p.sendKept i b packLength cmdSet cmdId receiver data ackTimeout 1 now
            | .CMD_SESSION_AUTO =>
                p.sendKept i b packLength cmdSet cmdId receiver data ackTimeout
                  (UInt16.ofInt retryTime) now

/-- Pack an acknowledgement into block `b` of an ack session: header and, unless it is empty,
data and checksum. -/
def packACK (p : Protocol) (b packLength sessionId : Nat) (seqNum : UInt16) (receiver : UInt8)
    (ack : List UInt8) : Option Protocol :=
  let ptr := p.blockPtr b
  if ptr + HEADER_LEN + ack.length ≤ p.memoryPool.memorySize then
    let header := p.packHeader packLength sessionId true receiver seqNum
    let m := header.write p.memoryPool.memory ptr
    let m := if ack.length ≠ 0 then packCrc (m.write (ptr + HEADER_LEN) ack) ptr packLength else m
    some (p.setPool { p.memoryPool with memory := m })
  else none

/-- `pack_length` of `SendACK`, a 16-bit value; a null `ack_ptr` is an empty `ack`. -/
def ackPackLength (ack : List UInt8) : Nat :=
  if ack.length = 0 then HEADER_LEN else (HEADER_LEN + ack.length + CRC_DATA_LEN) % 2 ^ 16

/-- `SendACK`. -/
def sendACK (p : Protocol) (sessionId : Nat) (seqNum : UInt16) (receiver : UInt8)
    (ack : List UInt8) : Option (Protocol × Bool) :=
  let packLength := ackPackLength ack
  if sessionId = 0 ∨ sessionId > 31 then some (p, false)
  else if receiver.toNat < RECEIVER_NUM then
    match p.allocACKSession receiver.toNat sessionId packLength with
    | (p, false) => some (p, false)
    | (p, true) =>
        let session := p.ackSessionTable receiver.toNat (sessionId - 1)
        match session.memoryBlockPtr with
        | none => none
        | some b =>
            (p.packACK b packLength session.sessionId seqNum receiver ack).map fun p =>
              let p := p.deviceSend (p.blockPtr b)
              (p.setAck receiver.toNat (sessionId - 1)
                { p.ackSessionTable receiver.toNat (sessionId - 1) with
                  sessionStatus := .ACK_SESSION_USING }, true)
  else none

/-- One iteration of the loop of `AutoRepeatSendCheck`: session `i` at time `now`. -/
def autoRepeatSendCheck (p : Protocol) (i : Nat) (now : Int) : Option Protocol :=
  let session := p.cmdSessionTable i
  if session.usageFlag ∧ (now - session.preTimeStamp).tdiv 1000000 > session.ackTimeout then
    if session.retryTime > 0 then
      if session.sent ≥ session.retryTime then some (p.freeCMDSession i)
      else
        session.memoryBlockPtr.map fun b =>
          (p.deviceSend (p.blockPtr b)).setCmd i
            { session with preTimeStamp := now, sent := session.sent + 1 }
    else
      session.memoryBlockPtr.map fun b =>
        (p.deviceSend (p.blockPtr b)).setCmd i { session with preTimeStamp := now }
  else some p

/-! ## Receive pipeline -/

/-- Fill the container with a command. The copied length wraps when the frame is too short. -/
def fillCommand (p : Protocol) (frame : List UInt8) (needAck : Bool) : Option Protocol :=
  let header := Header.decode (ByteMemory.ofList frame) 0
  let overhead := HEADER_LEN + CMD_SET_PREFIX_LEN + CRC_DATA_LEN
  if header.length < overhead then none
  else
    let length := header.length - overhead
    some { p with recvContainer := {
      commandInfo := {
        cmdSet := frame.getD (HEADER_LEN + 1) 0
        cmdId := frame.getD HEADER_LEN 0
        needAck := needAck
        sender := header.sender
        receiver := header.receiver
        length := UInt16.ofNat length }
      messageHeader := {
        seqNum := header.seqNum
        sessionId := header.sessionId
        isAck := false }
      messageData := p.recvContainer.messageData.write 0
        ((frame.drop (HEADER_LEN + CMD_SET_PREFIX_LEN)).take length) } }

/-- Fill the container with the acknowledgement of command session `k`. -/
def fillAck (p : Protocol) (frame : List UInt8) (k : Nat) : Option Protocol :=
  let header := Header.decode (ByteMemory.ofList frame) 0
  let overhead := HEADER_LEN + CRC_DATA_LEN
  if header.length < overhead then none
  else
    let length := header.length - overhead
    some { p with recvContainer := {
      commandInfo := {
        cmdSet := (p.cmdSessionTable k).cmdSet
        cmdId := (p.cmdSessionTable k).cmdId
        needAck := true
        sender := header.sender
        receiver := header.receiver
        length := UInt16.ofNat length }
      messageHeader := {
        seqNum := header.seqNum
        sessionId := header.sessionId
        isAck := true }
      messageData := p.recvContainer.messageData.write 0
        ((frame.drop HEADER_LEN).take length) } }

/-- The ACK branch of `ContainerHandler`, with what fills the container for an acknowledgement of a
session. The sequence numbers are not compared. -/
def handleAckWith (fill : Protocol → Nat → Option Protocol) (p : Protocol) (frame : List UInt8) :
    Option (Protocol × Bool) :=
  let header := Header.decode (ByteMemory.ofList frame) 0
  let k := header.sessionId
  if 0 < k ∧ k < 32 then
    if (p.cmdSessionTable k).usageFlag then
      match (p.cmdSessionTable k).memoryBlockPtr with
      | none => none
      | some b =>
          let sessionHeader := Header.decode p.memoryPool.memory (p.blockPtr b)
          if sessionHeader.sessionId = k then
            (fill p k).map fun p => (p.freeCMDSession k, true)
          else some (p, false)
    else some (p, false)
  else some (p, false)

/-- The ACK branch of `ContainerHandler`. -/
def handleAck (p : Protocol) (frame : List UInt8) : Option (Protocol × Bool) :=
  p.handleAckWith (fun p k => p.fillAck frame k) frame

/-- The command branch of `ContainerHandler`, with what fills the container for a command that needs
an acknowledgement or not. -/
def handleCommandWith (fill : Protocol → Bool → Option Protocol) (p : Protocol)
    (frame : List UInt8) : Option (Protocol × Bool) :=
  let header := Header.decode (ByteMemory.ofList frame) 0
  let k := header.sessionId
  if k = 0 then (fill p false).map fun p => (p, true)
  else if k > 31 then some (p, false)
  else if header.receiver.toNat < RECEIVER_NUM then
    let receiver := header.receiver.toNat
    let session := p.ackSessionTable receiver (k - 1)
    match session.sessionStatus with
    | .ACK_SESSION_IDLE =>
        let p := if k > 1 then
            p.setAck receiver (k - 1) { session with sessionStatus := .ACK_SESSION_PROCESS }
          else p
        (fill p true).map fun p => (p, true)
    | .ACK_SESSION_PROCESS => some (p, false)
    | .ACK_SESSION_USING =>
        match session.memoryBlockPtr with
        | none => none
        | some b =>
            let sessionHeader := Header.decode p.memoryPool.memory (p.blockPtr b)
            if sessionHeader.seqNum = header.seqNum then
              some (p.deviceSend (p.blockPtr b), false)
            else
              let p := p.setAck receiver (k - 1)
                { session with sessionStatus := .ACK_SESSION_PROCESS }
              (fill p true).map fun p => (p, true)
  else none

/-- The command branch of `ContainerHandler`. -/
def handleCommand (p : Protocol) (frame : List UInt8) : Option (Protocol × Bool) :=
  p.handleCommandWith (fun p needAck => p.fillCommand frame needAck) frame

/-- `ContainerHandler` on the frame at the start of `recv_buff`. -/
def containerHandler (p : Protocol) (frame : List UInt8) : Option (Protocol × Bool) :=
  if (Header.decode (ByteMemory.ofList frame) 0).isAck then p.handleAck frame
  else p.handleCommand frame

/-- `ContainerHandler` as the handler of the stream parser. -/
def onStream (frame : List UInt8) (_behind : Nat) (p : Protocol) : Option (Protocol × Bool) :=
  p.containerHandler frame

end Protocol

end RoboRTS.Sdk
