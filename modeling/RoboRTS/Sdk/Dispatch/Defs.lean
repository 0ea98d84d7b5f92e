import RoboRTS.Sdk.Protocol.BufferPool

/-!
# The dispatch layer

`Client` sends its requests in command sessions of the protocol and keeps what waits for a response
under the id of the session. A promise is the number of its request; `futures` are the values that
the promises have got. Callbacks and locks are left out: every call is one atomic step.
-/

namespace RoboRTS.Sdk

/-- What a function that is given a pointer to `object` copies; reading behind the object is
undefined. -/
def readObject (object : List UInt8) (length : UInt16) : Option (List UInt8) :=
  if length.toNat ≤ object.length then some (object.take length.toNat) else none

namespace Protocol

/-- `SendRequest`, with the defaults of `SendCMD`. -/
def sendRequest (p : Protocol) (info : CommandInfo) (object : List UInt8) (now : Int) :
    Option (Protocol × Option MessageHeader) :=
  (readObject object info.length).bind fun data =>
    p.sendCMD info.cmdSet info.cmdId info.receiver data .CMD_SESSION_AUTO 50 5 now

end Protocol

/-- `Client`. -/
structure Client where
  commandInfo : CommandInfo
  pendingRequests : Nat → Option Nat
  futures : List (Option (List UInt8))

namespace Client

/-- A client without requests. -/
def create (commandInfo : CommandInfo) : Client where
  commandInfo := commandInfo
  pendingRequests := fun _ => none
  futures := []

/-- `AsyncSendRequest`. The header is zero unless `SendRequest` fills it in. -/
def asyncSendRequest (c : Client) (p : Protocol) (request : List UInt8) (now : Int) :
    Option (Client × Protocol × Option MessageHeader) :=
  (p.sendRequest c.commandInfo request now).map fun (p, ret) =>
    let requestHeader := ret.getD { seqNum := 0, sessionId := 0, isAck := false }
    ({ c with
      pendingRequests :=
        Function.update c.pendingRequests requestHeader.sessionId (some c.futures.length)
      futures := c.futures ++ [none] }, p, ret)

/-- `HandleResponse`. -/
def handleResponse (c : Client) (requestHeader : MessageHeader) (response : List UInt8) : Client :=
  match c.pendingRequests requestHeader.sessionId with
  | none => c
  | some promise =>
      { c with
        pendingRequests := Function.update c.pendingRequests requestHeader.sessionId none
        futures := c.futures.set promise (some response) }

end Client

end RoboRTS.Sdk
