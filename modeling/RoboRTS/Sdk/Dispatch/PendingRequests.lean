import RoboRTS.Sdk.Dispatch.Defs
import RoboRTS.Sdk.Protocol.Ownership

/-!
# The pending requests of a client

One client on a protocol that others use too. Its pending requests belong to the command sessions
that it has in use or whose acknowledgement has not been dispatched to it (`PendingTable`), in every
run in which no request fails, no session of the client times out for good, and no session is used
again before its acknowledgement has been dispatched.
-/

namespace RoboRTS.Sdk

/-- A client, the protocol, and the accepted acknowledgements that `HandleResponse` has not got yet.
The ghost fields say which sessions were last opened by the client, by which request each session id
was last got, and what `pending_requests_` was before and after each failed request. -/
structure ClientRun where
  client : Client
  protocol : Protocol
  undispatched : List RecvContainer
  opened : Nat → Bool
  latest : Nat → Option Nat
  failures : List ((Nat → Option Nat) × (Nat → Option Nat))

/-- The client sends a request; the other users of the protocol send a command or an
acknowledgement; a frame arrives; a buffered acknowledgement is dispatched; one session is checked
for a time-out. -/
inductive ClientEvent where
  | request (request : List UInt8) (now : Int)
  | sendCMD (cmdSet cmdId receiver : UInt8) (data : List UInt8) (mode : CMDSessionMode)
      (ackTimeout retryTime now : Int)
  | sendACK (sessionId : Nat) (seqNum : UInt16) (receiver : UInt8) (ack : List UInt8)
  | receive (frame : List UInt8)
  | dispatch (n : Nat)
  | check (i : Nat) (now : Int)

namespace ClientRun

/-- After `Init`, with no request sent. -/
def start (commandInfo : CommandInfo) (p : Protocol) (table : Nat → MemoryBlock)
    (memory : ByteMemory) : ClientRun where
  client := .create commandInfo
  protocol := p.init table memory
  undispatched := []
  opened := fun _ => false
  latest := fun _ => none
  failures := []

/-- What a request leaves behind. -/
def requested (w : ClientRun) : Client × Protocol × Option MessageHeader → ClientRun
  | (client, p, none) =>
      { w with
        client := client
        protocol := p
        failures := w.failures ++ [(w.client.pendingRequests, client.pendingRequests)] }
  | (client, p, some header) =>
      { w with
        client := client
        protocol := p
        opened := Function.update w.opened header.sessionId true
        latest := Function.update w.latest header.sessionId (some w.client.futures.length) }

/-- What a command of another user leaves behind. -/
def commanded (w : ClientRun) : Protocol × Option MessageHeader → ClientRun
  | (p, none) => { w with protocol := p }
  | (p, some header) =>
      { w with protocol := p, opened := Function.update w.opened header.sessionId false }

/-- A frame has been handled. An accepted acknowledgement waits under the key of its command. -/
def received (w : ClientRun) : Protocol × Bool → ClientRun
  | (p, isFrame) =>
      { w with
        protocol := p
        undispatched :=
          if isFrame ∧ p.recvContainer.messageHeader.isAck ∧
              p.recvContainer.key = w.client.commandInfo.key then
            w.undispatched ++ [p.recvContainer]
          else w.undispatched }

/-- One step. The other users send other commands, and `Take` dispatches what matches. -/
def step (w : ClientRun) : ClientEvent → Option ClientRun
  | .request request now =>
      (w.client.asyncSendRequest w.protocol request now).map w.requested
  | .sendCMD cmdSet cmdId receiver data mode ackTimeout retryTime now =>
      if data.length < 2 ^ 16 ∧ (cmdSet, cmdId) ≠ w.client.commandInfo.key then
        (w.protocol.sendCMD cmdSet cmdId receiver data mode ackTimeout retryTime now).map w.commanded
      else none
  | .sendACK sessionId seqNum receiver ack =>
      if ack.length < 2 ^ 16 then
        (w.protocol.sendACK sessionId seqNum receiver ack).map fun (p, _) => { w with protocol := p }
      else none
  | .receive frame => (w.protocol.containerHandler frame).map w.received
  | .dispatch n =>
      w.undispatched[n]?.bind fun container =>
        if mismatch container w.client.commandInfo then none
        else some { w with
          client := w.client.handleResponse container.messageHeader
            (container.messageData.read 0 w.client.commandInfo.length.toNat)
          undispatched := w.undispatched.eraseIdx n }
  | .check i now => (w.protocol.autoRepeatSendCheck i now).map fun p => { w with protocol := p }

/-- Session `k` is in use and was opened by the client. -/
def InUse (w : ClientRun) (k : Nat) : Prop :=
  (w.protocol.cmdSessionTable k).usageFlag = true ∧ w.opened k = true

/-- An accepted acknowledgement of session `k` has not been dispatched. -/
def Undispatched (w : ClientRun) (k : Nat) : Prop :=
  ∃ container ∈ w.undispatched, container.messageHeader.sessionId = k

/-- The keys are the sessions in use and those with an acknowledgement to dispatch, each with the
promise of its latest request, and a failed request has left the table as it was. -/
structure PendingTable (w : ClientRun) : Prop where
  keys : ∀ k, (w.client.pendingRequests k).isSome ↔ w.InUse k ∨ w.Undispatched k
  promise : ∀ k r, w.client.pendingRequests k = some r → w.latest k = some r
  failed : ∀ f ∈ w.failures, f.2 = f.1

/-- `SendRequest` for a request of this length returns true: it is not empty, a session is free, and
the pool has room for the package. -/
def Grants (p : Protocol) (length : UInt16) : Prop :=
  length ≠ 0 ∧ p.freeSession .CMD_SESSION_AUTO ≠ none ∧
    p.memoryPool.HasRoom
      ((HEADER_LEN + CMD_SET_PREFIX_LEN + length.toNat + CRC_DATA_LEN) % 2 ^ 16)

/-- The step condition: a request can be sent, in a session without an acknowledgement to dispatch,
and a session of the client that times out has a retry left. -/
def Undisturbed (w : ClientRun) : ClientEvent → Prop
  | .request _ _ =>
      Grants w.protocol w.client.commandInfo.length ∧
        ∀ k ∈ w.protocol.freeSession .CMD_SESSION_AUTO,
          ∀ container ∈ w.undispatched, container.messageHeader.sessionId ≠ k
  | .check i now =>
      w.opened i = true → w.protocol.timedOut i now = true →
        (w.protocol.cmdSessionTable i).sent < (w.protocol.cmdSessionTable i).retryTime
  | _ => True

instance (p : Protocol) (length : UInt16) : Decidable (Grants p length) :=
  inferInstanceAs (Decidable (_ ∧ _ ∧ _))

instance : ∀ (w : ClientRun) (e : ClientEvent), Decidable (w.Undisturbed e)
  | w, .request _ _ =>
      inferInstanceAs (Decidable (Grants w.protocol w.client.commandInfo.length ∧
        ∀ k ∈ w.protocol.freeSession .CMD_SESSION_AUTO,
          ∀ container ∈ w.undispatched, container.messageHeader.sessionId ≠ k))
  | w, .check i now =>
      inferInstanceAs (Decidable (w.opened i = true → w.protocol.timedOut i now = true →
        (w.protocol.cmdSessionTable i).sent < (w.protocol.cmdSessionTable i).retryTime))
  | _, .sendCMD .. | _, .sendACK .. | _, .receive _ | _, .dispatch _ =>
      inferInstanceAs (Decidable True)

/-! ## The calls and the command sessions -/

section

open Protocol

variable {p p' : Protocol}

/-- What `SendCMD` does to the command sessions. -/
theorem sendCMD_table (hp : p.WellFormed) {cmdSet cmdId receiver : UInt8} {data : List UInt8}
    {mode : CMDSessionMode} {ackTimeout retryTime now : Int} {out : Option MessageHeader}
    (h : p.sendCMD cmdSet cmdId receiver data mode ackTimeout retryTime now = some (p', out)) :
    (out = none ∧ p'.cmdSessionTable = p.cmdSessionTable) ∨
    ∃ i header session, p.freeSession mode = some i ∧ out = some header ∧ header.sessionId = i ∧
      p'.cmdSessionTable = Function.update p.cmdSessionTable i session ∧
      (session.usageFlag = true ↔ mode ≠ .CMD_SESSION_0) ∧
      (session.usageFlag = true → (session.cmdSet, session.cmdId) = (cmdSet, cmdId)) := by
  rcases sendCMD_cases hp.sized hp.cmd_id h with ⟨rfl, pool, -, rfl⟩ | ⟨i, b, pool, hi, -, rfl, rfl⟩
  · exact Or.inl ⟨rfl, rfl⟩
  · refine Or.inr ⟨i, _, _, hi, rfl, rfl, rfl, ?_, ?_⟩
    · split
      case isTrue hmode => simp [hmode]
      case isFalse hmode => simp [hmode, sentSession]
    · split
      case isTrue hmode => exact fun hflag => absurd hflag Bool.false_ne_true
      case isFalse hmode => exact fun _ => rfl

/-- `SendCMD` returns true where the request is granted. -/
theorem sendCMD_granted (hp : p.WellFormed) {length : UInt16} (hgrants : Grants p length)
    {cmdSet cmdId receiver : UInt8} {data : List UInt8} (hlen : data.length = length.toNat)
    {ackTimeout retryTime now : Int} {out : Option MessageHeader}
    (h : p.sendCMD cmdSet cmdId receiver data .CMD_SESSION_AUTO ackTimeout retryTime now =
      some (p', out)) : out.isSome := by
  obtain ⟨hne, hsession, hroom⟩ := hgrants
  have halloc : (p.memoryPool.allocMemory ((HEADER_LEN + CMD_SET_PREFIX_LEN + data.length +
      CRC_DATA_LEN) % 2 ^ 16)).2.isSome = true := by
    rw [hlen]
    exact hroom.allocMemory hp.sized.valid
  have hdata : data.length ≠ 0 := by
    rw [hlen]
    exact fun h0 => hne (UInt16.toNat_inj.mp h0)
  rw [sendCMD, if_neg hdata] at h
  dsimp only at h
  obtain ⟨k, hk⟩ := Option.ne_none_iff_exists'.mp hsession
  obtain ⟨b, hb⟩ := Option.isSome_iff_exists.mp halloc
  rw [allocCMDSession, hk] at h
  dsimp only at h
  rw [hb] at h
  dsimp only at h
  split at h
  · cases h
  · rw [sendKept] at h
    obtain ⟨q, -, hq⟩ := Option.map_eq_some_iff.mp h
    cases hq
    rfl

/-- What `ContainerHandler` does to the command sessions: it accepts an acknowledgement of a session
in use and frees the session, or it changes none. -/
theorem containerHandler_table {frame : List UInt8} {isFrame : Bool}
    (h : p.containerHandler frame = some (p', isFrame)) :
    ((isFrame = true → p'.recvContainer.messageHeader.isAck = false) ∧
      p'.cmdSessionTable = p.cmdSessionTable) ∨
    ∃ k, isFrame = true ∧ (p.cmdSessionTable k).usageFlag = true ∧
      p'.recvContainer.messageHeader.isAck = true ∧ p'.recvContainer.messageHeader.sessionId = k ∧
      p'.recvContainer.key = ((p.cmdSessionTable k).cmdSet, (p.cmdSessionTable k).cmdId) ∧
      p'.cmdSessionTable =
        Function.update p.cmdSessionTable k { p.cmdSessionTable k with usageFlag := false } := by
  have hcommand : ∀ {q : Protocol} {needAck}, q.cmdSessionTable = p.cmdSessionTable →
      q.fillCommand frame needAck = some p' →
      p'.recvContainer.messageHeader.isAck = false ∧ p'.cmdSessionTable = p.cmdSessionTable := by
    intro q needAck hq hfill
    rw [fillCommand] at hfill
    dsimp only at hfill
    split at hfill
    · cases hfill
    · cases hfill
      exact ⟨rfl, hq⟩
  rw [containerHandler] at h
  split at h
  · rcases handleAck_cases h with ⟨rfl, rfl⟩ | ⟨rfl, k, b, q, hk, -, -, hflag, hb, -, hfill, rfl⟩
    · exact Or.inl ⟨fun hf => absurd hf Bool.false_ne_true, rfl⟩
    · have hfilled : q.cmdSessionTable = p.cmdSessionTable ∧
          q.recvContainer.messageHeader.isAck = true ∧
          q.recvContainer.messageHeader.sessionId = k ∧
          q.recvContainer.key = ((p.cmdSessionTable k).cmdSet, (p.cmdSessionTable k).cmdId) := by
        rw [fillAck] at hfill
        dsimp only at hfill
        split at hfill
        · cases hfill
        · cases hfill
          exact ⟨rfl, rfl, hk.symm, rfl⟩
      obtain ⟨htable, hack, hsession, hkey⟩ := hfilled
      rw [freeCMDSession_eq (by rw [htable]; exact hflag) (by rw [htable]; exact hb), htable]
      exact Or.inr ⟨k, rfl, hflag, hack, hsession, hkey, rfl⟩
  · left
    rcases handleCommand_cases h with ⟨-, rfl, hfill⟩ | ⟨k, r, -, -, -, -, -,
      ⟨-, rfl, rfl⟩ | ⟨-, rfl, hfill⟩ | ⟨b, -, -, ⟨-, rfl, rfl⟩ | ⟨-, rfl, hfill⟩⟩⟩
    · exact (hcommand rfl hfill).imp_left fun hack _ => hack
    · exact ⟨fun hf => absurd hf Bool.false_ne_true, rfl⟩
    · refine And.imp_left (fun hack _ => hack) (hcommand ?_ hfill)
      split <;> rfl
    · exact ⟨fun hf => absurd hf Bool.false_ne_true, rfl⟩
    · have htable : (p.processing r k).cmdSessionTable = p.cmdSessionTable := rfl
      exact (hcommand htable hfill).imp_left fun hack _ => hack

/-- What `AutoRepeatSendCheck` does to the command sessions: a session that has timed out with no
retry left is freed, or it only changes times and counters. -/
theorem autoRepeatSendCheck_table {i : Nat} {now : Int}
    (h : p.autoRepeatSendCheck i now = some p') :
    (p.timedOut i now = true ∧ ¬ (p.cmdSessionTable i).sent < (p.cmdSessionTable i).retryTime ∧
      p'.cmdSessionTable =
        Function.update p.cmdSessionTable i { p.cmdSessionTable i with usageFlag := false }) ∨
    ∃ session, p'.cmdSessionTable = Function.update p.cmdSessionTable i session ∧
      session.usageFlag = (p.cmdSessionTable i).usageFlag ∧
      session.cmdSet = (p.cmdSessionTable i).cmdSet ∧
      session.cmdId = (p.cmdSessionTable i).cmdId := by
  rw [autoRepeatSendCheck] at h
  split at h
  case isFalse =>
    cases h
    exact Or.inr ⟨_, (Function.update_eq_self ..).symm, rfl, rfl, rfl⟩
  case isTrue hdue =>
    split at h
    case isTrue =>
      split at h
      case isTrue hsent =>
        cases h
        refine Or.inl ⟨by simpa [timedOut] using hdue, UInt16.not_lt.mpr hsent, ?_⟩
        rw [freeCMDSession, if_pos hdue.1]
        rfl
      case isFalse =>
        obtain ⟨b, -, rfl⟩ := Option.map_eq_some_iff.mp h
        exact Or.inr ⟨_, rfl, rfl, rfl, rfl⟩
    case isFalse =>
      obtain ⟨b, -, rfl⟩ := Option.map_eq_some_iff.mp h
      exact Or.inr ⟨_, rfl, rfl, rfl, rfl⟩

end

/-! ## The invariant -/

/-- What holds while nothing disturbs the client. -/
structure Keyed (w : ClientRun) : Prop where
  wellFormed : w.protocol.WellFormed
  own : ∀ k, (w.protocol.cmdSessionTable k).usageFlag = true →
    (w.opened k = true ↔ ((w.protocol.cmdSessionTable k).cmdSet,
      (w.protocol.cmdSessionTable k).cmdId) = w.client.commandInfo.key)
  pending : ∀ k r, w.client.pendingRequests k = some r ↔
    (w.InUse k ∨ w.Undispatched k) ∧ w.latest k = some r
  requested : ∀ k, w.InUse k ∨ w.Undispatched k → ∃ r, w.latest k = some r
  apart : ∀ k, w.InUse k → ¬ w.Undispatched k
  distinct : (w.undispatched.map fun c => c.messageHeader.sessionId).Nodup
  failed : w.failures = []

variable {w w' : ClientRun}

theorem Keyed.pendingTable (h : w.Keyed) : w.PendingTable := by
  refine ⟨fun k => ?_, fun k r hr => ((h.pending k r).mp hr).2, ?_⟩
  · rw [Option.isSome_iff_exists]
    constructor
    · rintro ⟨r, hr⟩
      exact ((h.pending k r).mp hr).1
    · intro hk
      obtain ⟨r, hr⟩ := h.requested k hk
      exact ⟨r, (h.pending k r).mpr ⟨hk, hr⟩⟩
  · rw [h.failed]
    exact fun f hf => nomatch hf

theorem start_keyed (commandInfo : CommandInfo) (p : Protocol) (table : Nat → MemoryBlock)
    (memory : ByteMemory) : (start commandInfo p table memory).Keyed := by
  have hwf : (p.init table memory).WellFormed :=
    ⟨(Protocol.init_owned p table memory default).sized, fun _ => rfl, fun _ _ => rfl⟩
  refine ⟨hwf, fun k hk => (nomatch hk), fun k r => ?_, ?_, ?_, List.nodup_nil, rfl⟩
  · simp [start, Client.create, InUse, Undispatched]
  · rintro k (⟨hflag, -⟩ | ⟨c, hc, -⟩)
    · cases hflag
    · cases hc
  · rintro k ⟨hflag, -⟩
    cases hflag

/-- The protocol goes on; the client's sessions in use stay the same. -/
theorem Keyed.frame (h : w.Keyed) {p : Protocol} {opened : Nat → Bool} (hwf : p.WellFormed)
    (hinUse : ∀ k, (p.cmdSessionTable k).usageFlag = true ∧ opened k = true ↔ w.InUse k)
    (hown : ∀ k, (p.cmdSessionTable k).usageFlag = true →
      (opened k = true ↔ ((p.cmdSessionTable k).cmdSet, (p.cmdSessionTable k).cmdId) =
        w.client.commandInfo.key)) :
    Keyed { w with protocol := p, opened := opened } where
  wellFormed := hwf
  own := hown
  pending := fun k r => by
    rw [h.pending]
    exact and_congr_left' (or_congr_left (hinUse k).symm)
  requested := fun k hk => h.requested k (hk.imp_left (hinUse k).mp)
  apart := fun k hk => h.apart k ((hinUse k).mp hk)
  distinct := h.distinct
  failed := h.failed

/-- The protocol goes on without touching the command sessions. -/
theorem Keyed.sameTable (h : w.Keyed) {p : Protocol} (hwf : p.WellFormed)
    (htable : p.cmdSessionTable = w.protocol.cmdSessionTable) :
    Keyed { w with protocol := p } :=
  h.frame hwf (fun k => by rw [htable]; exact Iff.rfl) (fun k => by rw [htable]; exact h.own k)

/-- One session changes; whether it is in use by the client does not. -/
theorem Keyed.setSession (h : w.Keyed) {p : Protocol} (hwf : p.WellFormed) {i : Nat}
    {session : CMDSession} {opened : Bool}
    (htable : p.cmdSessionTable = Function.update w.protocol.cmdSessionTable i session)
    (hinUse : session.usageFlag = true ∧ opened = true ↔ w.InUse i)
    (hown : session.usageFlag = true →
      (opened = true ↔ (session.cmdSet, session.cmdId) = w.client.commandInfo.key)) :
    Keyed { w with protocol := p, opened := Function.update w.opened i opened } := by
  refine h.frame hwf (fun k => ?_) fun k => ?_ <;> rw [htable] <;> by_cases hk : k = i
  · subst hk
    rw [Function.update_self, Function.update_self]
    exact hinUse
  · rw [Function.update_of_ne hk, Function.update_of_ne hk]
    exact Iff.rfl
  · subst hk
    rw [Function.update_self, Function.update_self]
    exact hown
  · rw [Function.update_of_ne hk, Function.update_of_ne hk]
    exact h.own k

/-- The client opens session `i` for its next request. -/
theorem Keyed.openSession (h : w.Keyed) {p : Protocol} (hwf : p.WellFormed) {i : Nat}
    {session : CMDSession} (hfree : (w.protocol.cmdSessionTable i).usageFlag = false)
    (hdispatched : ¬ w.Undispatched i)
    (htable : p.cmdSessionTable = Function.update w.protocol.cmdSessionTable i session)
    (hflag : session.usageFlag = true)
    (hkey : (session.cmdSet, session.cmdId) = w.client.commandInfo.key) (r : Nat)
    (futures : List (Option (List UInt8))) :
    Keyed { w with
      client := { w.client with
        pendingRequests := Function.update w.client.pendingRequests i (some r)
        futures := futures }
      protocol := p
      opened := Function.update w.opened i true
      latest := Function.update w.latest i (some r) } := by
  generalize hw' : ({ w with
      client := { w.client with
        pendingRequests := Function.update w.client.pendingRequests i (some r)
        futures := futures }
      protocol := p
      opened := Function.update w.opened i true
      latest := Function.update w.latest i (some r) } : ClientRun) = w'
  have hself : w'.InUse i := by
    subst hw'
    simp [InUse, htable, hflag]
  have hinUse : ∀ k, k ≠ i → (w'.InUse k ↔ w.InUse k) := by
    intro k hk
    subst hw'
    simp [InUse, htable, hk]
  have hundispatched : ∀ k, w'.Undispatched k ↔ w.Undispatched k := by
    intro k
    subst hw'
    exact Iff.rfl
  refine ⟨?_, fun k => ?_, fun k r' => ?_, fun k hk => ?_, fun k hk => ?_, ?_, ?_⟩
  · subst hw'
    exact hwf
  · subst hw'
    rw [htable]
    by_cases hk : k = i
    · subst hk
      simp [hkey]
    · simp only [Function.update_of_ne hk]
      exact h.own k
  · by_cases hk : k = i
    · subst hk
      rw [and_iff_right (Or.inl hself)]
      subst hw'
      simp
    · rw [hinUse k hk, hundispatched]
      subst hw'
      simp only [Function.update_of_ne hk]
      exact h.pending k r'
  · by_cases hki : k = i
    · subst hki
      subst hw'
      exact ⟨r, Function.update_self ..⟩
    · rw [hinUse k hki, hundispatched] at hk
      subst hw'
      simp only [Function.update_of_ne hki]
      exact h.requested k hk
  · rw [hundispatched]
    by_cases hki : k = i
    · rw [hki]
      exact hdispatched
    · exact h.apart k ((hinUse k hki).mp hk)
  · subst hw'
    exact h.distinct
  · subst hw'
    exact h.failed

/-- An acknowledgement of session `i` of the client is accepted. -/
theorem Keyed.accept (h : w.Keyed) {p : Protocol} (hwf : p.WellFormed) {i : Nat}
    (hinUse : w.InUse i) {session : CMDSession} {container : RecvContainer}
    (htable : p.cmdSessionTable = Function.update w.protocol.cmdSessionTable i session)
    (hflag : session.usageFlag = false) (hid : container.messageHeader.sessionId = i) :
    Keyed { w with protocol := p, undispatched := w.undispatched ++ [container] } := by
  generalize hw' : ({ w with
    protocol := p, undispatched := w.undispatched ++ [container] } : ClientRun) = w'
  have hinUse' : ∀ k, w'.InUse k ↔ w.InUse k ∧ k ≠ i := by
    intro k
    subst hw'
    by_cases hk : k = i
    · subst hk
      simp [InUse, htable, hflag]
    · simp [InUse, htable, hk]
  have hundispatched : ∀ k, w'.Undispatched k ↔ w.Undispatched k ∨ k = i := by
    intro k
    subst hw'
    simp only [Undispatched, List.mem_append, List.mem_singleton, or_and_right, exists_or,
      exists_eq_left, hid, eq_comm (a := i)]
  have hkeys : ∀ k, w'.InUse k ∨ w'.Undispatched k ↔ w.InUse k ∨ w.Undispatched k := by
    intro k
    rw [hinUse', hundispatched]
    by_cases hk : k = i
    · subst hk
      simp [hinUse]
    · simp [hk]
  refine ⟨?_, fun k => ?_, fun k r => ?_, fun k hk => ?_, fun k hk => ?_, ?_, ?_⟩
  · subst hw'
    exact hwf
  · subst hw'
    rw [htable]
    by_cases hk : k = i
    · subst hk
      simp [hflag]
    · rw [Function.update_of_ne hk]
      exact h.own k
  · rw [hkeys]
    subst hw'
    exact h.pending k r
  · rw [hkeys] at hk
    subst hw'
    exact h.requested k hk
  · rw [hinUse'] at hk
    rw [hundispatched]
    exact not_or_intro (h.apart k hk.1) hk.2
  · subst hw'
    rw [List.map_append, List.map_singleton, hid]
    refine (List.perm_append_singleton ..).nodup_iff.mpr
      (List.nodup_cons.mpr ⟨fun hmem => ?_, h.distinct⟩)
    obtain ⟨c, hc, hci⟩ := List.mem_map.mp hmem
    exact h.apart i hinUse ⟨c, hc, hci⟩
  · subst hw'
    exact h.failed

/-- A buffered acknowledgement is dispatched. -/
theorem Keyed.dispatch (h : w.Keyed) {n : Nat} {container : RecvContainer}
    (hn : w.undispatched[n]? = some container) (response : List UInt8) :
    Keyed { w with
      client := w.client.handleResponse container.messageHeader response
      undispatched := w.undispatched.eraseIdx n } := by
  have hlt : n < w.undispatched.length := (List.getElem?_eq_some_iff.mp hn).choose
  have hget : w.undispatched[n] = container := (List.getElem?_eq_some_iff.mp hn).choose_spec
  generalize hi : container.messageHeader.sessionId = i
  have hmem : container ∈ w.undispatched := hget ▸ List.getElem_mem hlt
  have hperm : w.undispatched.Perm (container :: w.undispatched.eraseIdx n) :=
    hget ▸ (List.getElem_cons_eraseIdx_perm hlt).symm
  have hids : (w.undispatched.map fun c => c.messageHeader.sessionId).Perm
      (i :: (w.undispatched.eraseIdx n).map fun c => c.messageHeader.sessionId) := by
    rw [← hi]
    exact hperm.map fun c => c.messageHeader.sessionId
  obtain ⟨hlast, hdistinct⟩ := List.nodup_cons.mp (hids.nodup_iff.mp h.distinct)
  have hwaits : w.Undispatched i := ⟨container, hmem, hi⟩
  have hleft : ∀ k, (∃ c ∈ w.undispatched.eraseIdx n, c.messageHeader.sessionId = k) ↔
      w.Undispatched k ∧ k ≠ i := by
    intro k
    simp only [Undispatched, hperm.mem_iff, List.mem_cons, exists_eq_or_imp, hi]
    constructor
    · intro hk
      refine ⟨Or.inr hk, ?_⟩
      rintro rfl
      obtain ⟨c, hc, hck⟩ := hk
      exact hlast (List.mem_map.mpr ⟨c, hc, hck⟩)
    · rintro ⟨hk | hk, hne⟩
      · exact absurd hk.symm hne
      · exact hk
  obtain ⟨r, hr⟩ := h.requested i (Or.inr hwaits)
  have hclient : w.client.handleResponse container.messageHeader response =
      { w.client with
        pendingRequests := Function.update w.client.pendingRequests i none
        futures := w.client.futures.set r (some response) } := by
    rw [Client.handleResponse, hi, (h.pending i r).mpr ⟨Or.inr hwaits, hr⟩]
  rw [hclient]
  refine ⟨h.wellFormed, h.own, fun k r' => ?_, fun k hk => ?_, fun k hk hdisp => ?_, hdistinct,
    h.failed⟩
  · show Function.update w.client.pendingRequests i none k = some r' ↔
      (w.InUse k ∨ ∃ c ∈ w.undispatched.eraseIdx n, c.messageHeader.sessionId = k) ∧
        w.latest k = some r'
    rw [hleft]
    by_cases hk : k = i
    · subst hk
      have hnot : ¬ w.InUse k := fun hin => h.apart k hin hwaits
      simp [hnot]
    · rw [Function.update_of_ne hk, h.pending]
      simp [hk]
  · exact h.requested k (hk.imp_right fun hk => ((hleft k).mp hk).1)
  · exact h.apart k hk ((hleft k).mp hdisp).1

/-! ## Steps and runs -/

theorem request_keyed (h : w.Keyed) {request : List UInt8} {now : Int}
    (hgrants : Grants w.protocol w.client.commandInfo.length)
    (hfresh : ∀ k ∈ w.protocol.freeSession .CMD_SESSION_AUTO,
      ∀ container ∈ w.undispatched, container.messageHeader.sessionId ≠ k)
    (hstep : w.step (.request request now) = some w') : w'.Keyed := by
  obtain ⟨⟨client, p, out⟩, hrequest, rfl⟩ := Option.map_eq_some_iff.mp hstep
  obtain ⟨⟨p, out⟩, hsend, heq⟩ := Option.map_eq_some_iff.mp hrequest
  cases heq
  obtain ⟨data, hread, hsend⟩ := Option.bind_eq_some_iff.mp hsend
  have hlen : data.length = w.client.commandInfo.length.toNat := by
    rw [readObject] at hread
    split at hread
    case isTrue hle =>
      cases hread
      exact List.length_take_of_le hle
    case isFalse => cases hread
  have hgranted := sendCMD_granted h.wellFormed hgrants hlen hsend
  rcases sendCMD_table h.wellFormed hsend with
    ⟨rfl, -⟩ | ⟨i, header, session, hfree, rfl, hid, htable, hflag, hkey⟩
  · cases hgranted
  · subst hid
    refine h.openSession (h.wellFormed.sendCMD hsend) (Protocol.freeSession_unused hfree).1 ?_ htable
      (hflag.mpr (by decide)) (hkey (hflag.mpr (by decide))) _ _
    rintro ⟨container, hmem, heq⟩
    exact hfresh _ hfree container hmem heq

theorem sendCMD_keyed (h : w.Keyed) {cmdSet cmdId receiver : UInt8} {data : List UInt8}
    {mode : CMDSessionMode} {ackTimeout retryTime now : Int}
    (hstep : w.step (.sendCMD cmdSet cmdId receiver data mode ackTimeout retryTime now) = some w') :
    w'.Keyed := by
  rw [step] at hstep
  split at hstep
  case isFalse => cases hstep
  case isTrue hother =>
    obtain ⟨⟨p, out⟩, hsend, rfl⟩ := Option.map_eq_some_iff.mp hstep
    have hwf := h.wellFormed.sendCMD hsend
    rcases sendCMD_table h.wellFormed hsend with
      ⟨rfl, htable⟩ | ⟨i, header, session, hfree, rfl, hid, htable, -, hkey⟩
    · exact h.sameTable hwf htable
    · subst hid
      refine h.setSession hwf htable ?_ fun hflag => ?_
      · simp [InUse, (Protocol.freeSession_unused hfree).1]
      · rw [hkey hflag]
        simp [hother.2]

theorem receive_keyed (h : w.Keyed) {frame : List UInt8}
    (hstep : w.step (.receive frame) = some w') : w'.Keyed := by
  obtain ⟨⟨p, isFrame⟩, hhandle, rfl⟩ := Option.map_eq_some_iff.mp hstep
  have hwf := h.wellFormed.containerHandler hhandle
  rcases containerHandler_table hhandle with
    ⟨hcommand, htable⟩ | ⟨k, rfl, hflag, hack, hid, hkey, htable⟩
  · have hsame : (isFrame = true ∧ p.recvContainer.messageHeader.isAck = true ∧
        p.recvContainer.key = w.client.commandInfo.key) ↔ False := by
      rw [iff_false]
      rintro ⟨hframe, hack, -⟩
      rw [hcommand hframe] at hack
      cases hack
    rw [received, if_neg (fun hif => hsame.mp hif)]
    exact h.sameTable hwf htable
  · -- the acknowledgement goes to the client exactly when the client opened its session
    have hopened := h.own k hflag
    rw [← hkey] at hopened
    by_cases hown : w.opened k = true
    · rw [received, if_pos ⟨rfl, hack, hopened.mp hown⟩]
      exact h.accept hwf ⟨hflag, hown⟩ htable rfl hid
    · rw [received, if_neg (fun hif => hown (hopened.mpr hif.2.2))]
      have hset : Keyed { w with
          protocol := p, opened := Function.update w.opened k (w.opened k) } :=
        h.setSession hwf htable (by simp [InUse, hown]) (fun hflag => nomatch hflag)
      rwa [Function.update_eq_self] at hset

theorem check_keyed (h : w.Keyed) {i : Nat} {now : Int} (hok : w.Undisturbed (.check i now))
    (hstep : w.step (.check i now) = some w') : w'.Keyed := by
  obtain ⟨p, hcheck, rfl⟩ := Option.map_eq_some_iff.mp hstep
  have hwf := h.wellFormed.autoRepeatSendCheck hcheck
  have hset : ∀ session : CMDSession,
      p.cmdSessionTable = Function.update w.protocol.cmdSessionTable i session →
      (session.usageFlag = true ∧ w.opened i = true ↔ w.InUse i) →
      (session.usageFlag = true → (w.opened i = true ↔
        (session.cmdSet, session.cmdId) = w.client.commandInfo.key)) →
      Keyed { w with protocol := p } := by
    intro session htable hinUse hown
    have hset := h.setSession hwf htable hinUse hown
    rwa [Function.update_eq_self] at hset
  rcases autoRepeatSendCheck_table hcheck with
    ⟨htimedOut, hsent, htable⟩ | ⟨session, htable, hflag, hcmdSet, hcmdId⟩
  · have hother : ¬ w.opened i = true := fun hopened => hsent (hok hopened htimedOut)
    exact hset _ htable (by simp [InUse, hother]) fun hflag => nomatch hflag
  · refine hset _ htable (by rw [hflag]; exact Iff.rfl) fun huse => ?_
    rw [hcmdSet, hcmdId]
    exact h.own i (hflag ▸ huse)

theorem step_keyed {e : ClientEvent} (h : w.Keyed) (hok : w.Undisturbed e)
    (hstep : w.step e = some w') : w'.Keyed := by
  cases e with
  | request request now => exact request_keyed h hok.1 hok.2 hstep
  | sendCMD => exact sendCMD_keyed h hstep
  | sendACK sessionId seqNum receiver ack =>
      rw [step] at hstep
      split at hstep
      case isFalse => cases hstep
      case isTrue =>
        obtain ⟨⟨p, ok⟩, hsend, rfl⟩ := Option.map_eq_some_iff.mp hstep
        refine h.sameTable (h.wellFormed.sendACK hsend) ?_
        rcases Protocol.sendACK_cases h.wellFormed.sized h.wellFormed.ack_id hsend with
          ⟨-, rfl, -⟩ | ⟨-, -, -, -, -, pool, -, rfl⟩ | ⟨-, -, -, -, -, b, pool, -, rfl⟩ <;> rfl
  | receive frame => exact receive_keyed h hstep
  | dispatch n =>
      obtain ⟨container, hn, hstep⟩ := Option.bind_eq_some_iff.mp hstep
      split at hstep
      · cases hstep
      · cases hstep
        exact h.dispatch hn _
  | check i now => exact check_keyed h hok hstep

/-- In every undisturbed run the pending requests are those of the sessions of the client. -/
theorem run_pendingTable (commandInfo : CommandInfo) (p : Protocol) (table : Nat → MemoryBlock)
    (memory : ByteMemory) (events : List ClientEvent) (w : ClientRun)
    (hok : StateMachine.Along step Undisturbed (start commandInfo p table memory) events)
    (hrun : StateMachine.run step (start commandInfo p table memory) events = some w) :
    w.PendingTable :=
  (StateMachine.run_invariant_of (P := Keyed) (fun _ _ _ h hok hstep => step_keyed h hok hstep)
    (start_keyed commandInfo p table memory) hok hrun).pendingTable

/-- A client of a command with one byte each way. -/
def byteInfo : CommandInfo := ⟨1, 2, true, 0, 0, 1⟩

/-- The acknowledgement `9` of a command in session 2. -/
def ackFrame : List UInt8 :=
  Header.package
    { sof := SOF, length := 17, version := VERSION, sessionId := 2, isAck := true, reserved0 := 0,
      sender := 0, receiver := 0, reserved1 := 0, seqNum := 0 } [9]

/-- A request is answered, and the next one in the same session is sent again after a time-out. -/
def answeredRequests : List ClientEvent :=
  [.request [3] 0, .receive ackFrame, .dispatch 0, .request [4] 1, .check 2 60000000]

/-- More requests than there are sessions. -/
def failedRequest : List ClientEvent :=
  List.replicate 31 (.request [3] 0)

/-- A request that times out. -/
def timedOutRequest : List ClientEvent :=
  .request [3] 0 :: (List.range 5).map fun n => .check 2 ((n + 1) * 60000000)

/-- The session of a request is used again before its acknowledgement has been dispatched. -/
def reusedSession : List ClientEvent :=
  [.request [3] 0, .receive ackFrame, .request [4] 1, .dispatch 0]

theorem run_pendingTable_answeredRequests :
    ∃ w, StateMachine.run step (start byteInfo default default default) answeredRequests = some w ∧
      w.client.futures = [some [9], none] ∧ w.PendingTable := by
  obtain ⟨w, hw⟩ := Option.isSome_iff_exists.mp
    (show (StateMachine.run step (start byteInfo default default default)
      answeredRequests).isSome = true by decide +kernel)
  have hfutures : (StateMachine.run step (start byteInfo default default default)
      answeredRequests).map (fun w => w.client.futures) = some [some [9], none] := by
    decide +kernel
  rw [hw, Option.map_some, Option.some.injEq] at hfutures
  exact ⟨w, hw, hfutures, run_pendingTable _ _ _ _ _ w (by decide +kernel) hw⟩

/-- A failed request changes the table, a request that times out stays in it, and a late
acknowledgement resolves the promise of the next request of its session. -/
theorem asyncSendRequest_keeps_no_session :
    (¬ ∀ (commandInfo : CommandInfo) (p : Protocol) (table : Nat → MemoryBlock)
        (memory : ByteMemory) (events : List ClientEvent) (w : ClientRun),
        StateMachine.run step (start commandInfo p table memory) events = some w →
          w.PendingTable) ∧
      (∃ w, StateMachine.run step (start byteInfo default default default) timedOutRequest = some w ∧
        w.client.pendingRequests 2 = some 0 ∧
        (w.protocol.cmdSessionTable 2).usageFlag = false ∧ w.undispatched.length = 0) ∧
      ∃ w, StateMachine.run step (start byteInfo default default default) reusedSession = some w ∧
        w.client.pendingRequests 2 = none ∧ w.InUse 2 ∧ w.client.futures = [none, some [9]] := by
  refine ⟨fun hall => ?_, ?_, ?_⟩
  · obtain ⟨w, hw⟩ := Option.isSome_iff_exists.mp
      (show (StateMachine.run step (start byteInfo default default default)
        failedRequest).isSome = true by decide +kernel)
    have hfailures : (StateMachine.run step (start byteInfo default default default)
        failedRequest).map (fun w => w.failures.map fun f => (f.1 0, f.2 0)) =
          some [(none, some 30)] := by decide +kernel
    rw [hw, Option.map_some, Option.some.injEq] at hfailures
    obtain ⟨f, hf, hkeys⟩ := List.mem_map.mp (hfailures ▸ List.mem_singleton_self (none, some 30))
    rw [(hall _ _ _ _ _ w hw).failed f hf, Prod.mk.injEq] at hkeys
    rw [hkeys.1] at hkeys
    exact nomatch hkeys.2
  · obtain ⟨w, hw⟩ := Option.isSome_iff_exists.mp
      (show (StateMachine.run step (start byteInfo default default default)
        timedOutRequest).isSome = true by decide +kernel)
    have hfacts : (StateMachine.run step (start byteInfo default default default)
        timedOutRequest).map (fun w => (w.client.pendingRequests 2,
          (w.protocol.cmdSessionTable 2).usageFlag, w.undispatched.length)) =
            some (some 0, false, 0) := by decide +kernel
    rw [hw, Option.map_some, Option.some.injEq, Prod.mk.injEq, Prod.mk.injEq] at hfacts
    exact ⟨w, hw, hfacts⟩
  · obtain ⟨w, hw⟩ := Option.isSome_iff_exists.mp
      (show (StateMachine.run step (start byteInfo default default default)
        reusedSession).isSome = true by decide +kernel)
    have hsession : (StateMachine.run step (start byteInfo default default default)
        reusedSession).map (fun w => ((w.protocol.cmdSessionTable 2).usageFlag, w.opened 2)) =
          some (true, true) := by decide +kernel
    have hclient : (StateMachine.run step (start byteInfo default default default)
        reusedSession).map (fun w => (w.client.pendingRequests 2, w.client.futures)) =
          some (none, [none, some [9]]) := by decide +kernel
    rw [hw, Option.map_some, Option.some.injEq, Prod.mk.injEq] at hsession hclient
    exact ⟨w, hw, hclient.1, hsession, hclient.2⟩

end ClientRun

end RoboRTS.Sdk
