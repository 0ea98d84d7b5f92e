import RoboRTS.Sdk.Protocol.Ownership

/-!
# Retransmission between three threads

`AutoRepeatSendCheck` and the ACK branch of `ContainerHandler` test the usage flag of a command
session without the lock, and act on the session under the lock without testing it again. A step of
the threads is such a test, such a locked section, or a `SendCMD`. As long as no session is freed
between a test and the section that acts on it, and no test goes by the time of a delayed
retransmission (`Unraced`), retransmission is disciplined (`run_disciplined`).
-/

namespace RoboRTS.Sdk

namespace Protocol

/-! ## Tests and locked sections -/

/-- A session whose retries are used up is given up. -/
def GivesUp (p : Protocol) (i : Nat) : Prop :=
  (p.cmdSessionTable i).retryTime > 0 ∧
    (p.cmdSessionTable i).sent ≥ (p.cmdSessionTable i).retryTime

instance (p : Protocol) (i : Nat) : Decidable (p.GivesUp i) :=
  inferInstanceAs (Decidable (_ ∧ _))

/-- The locked section of `AutoRepeatSendCheck`; `now` is the time its test has read. -/
def autoRepeatSend (p : Protocol) (i : Nat) (now : Int) : Option Protocol :=
  let session := p.cmdSessionTable i
  if session.retryTime > 0 then
    if session.sent ≥ session.retryTime then some (p.freeCMDSession i)
    else
      session.memoryBlockPtr.map fun b =>
        (p.deviceSend (p.blockPtr b)).setCmd i
          { session with preTimeStamp := now, sent := session.sent + 1 }
  else
    session.memoryBlockPtr.map fun b =>
      (p.deviceSend (p.blockPtr b)).setCmd i { session with preTimeStamp := now }

theorem autoRepeatSendCheck_eq (p : Protocol) (i : Nat) (now : Int) :
    p.autoRepeatSendCheck i now =
      if p.timedOut i now then p.autoRepeatSend i now else some p := by
  simp only [autoRepeatSendCheck, timedOut, autoRepeatSend, Bool.and_eq_true, decide_eq_true_eq]

/-- What the locked section can have done: the session is given up, or its block is sent again. -/
theorem autoRepeatSend_cases {p p' : Protocol} {i : Nat} {now : Int}
    (h : p.autoRepeatSend i now = some p') :
    (p.GivesUp i ∧ p' = p.freeCMDSession i) ∨
    (¬ p.GivesUp i ∧ ∃ b sent,
      p' = (p.deviceSend (p.blockPtr b)).setCmd i
        { p.cmdSessionTable i with preTimeStamp := now, sent := sent } ∧
      ((p.cmdSessionTable i).retryTime > 0 → sent = (p.cmdSessionTable i).sent + 1)) := by
  unfold autoRepeatSend at h
  dsimp only at h
  split at h
  case isTrue hretry =>
    split at h
    case isTrue hsent =>
      cases h
      exact Or.inl ⟨⟨hretry, hsent⟩, rfl⟩
    case isFalse hsent =>
      obtain ⟨b, -, rfl⟩ := Option.map_eq_some_iff.mp h
      exact Or.inr ⟨fun hgives => hsent hgives.2, b, _, rfl, fun _ => rfl⟩
  case isFalse hretry =>
    obtain ⟨b, -, rfl⟩ := Option.map_eq_some_iff.mp h
    exact Or.inr ⟨fun hgives => hretry hgives.1, b, (p.cmdSessionTable i).sent, rfl,
      fun hpos => absurd hpos hretry⟩

/-- The session id of a frame. -/
def sessionOf (frame : List UInt8) : Nat :=
  (Header.decode (ByteMemory.ofList frame) 0).sessionId

/-- The tests of the ACK branch of `ContainerHandler`. -/
def ackTest (p : Protocol) (frame : List UInt8) : Bool :=
  if 0 < sessionOf frame ∧ sessionOf frame < 32 then
    (p.cmdSessionTable (sessionOf frame)).usageFlag
  else false

/-- The locked section of the ACK branch. -/
def ackSection (p : Protocol) (frame : List UInt8) : Option (Protocol × Bool) :=
  match (p.cmdSessionTable (sessionOf frame)).memoryBlockPtr with
  | none => none
  | some b =>
      if (Header.decode p.memoryPool.memory (p.blockPtr b)).sessionId = sessionOf frame then
        (p.fillAck frame (sessionOf frame)).map fun p => (p.freeCMDSession (sessionOf frame), true)
      else some (p, false)

/-- What the locked section can have done: nothing, or the container is filled and the session is
freed. -/
theorem ackSection_cases {p p' : Protocol} {frame : List UInt8} {isFrame : Bool}
    (h : p.ackSection frame = some (p', isFrame)) :
    (isFrame = false ∧ p' = p) ∨
    (isFrame = true ∧ ∃ container,
      p' = freeCMDSession { p with recvContainer := container } (sessionOf frame)) := by
  unfold ackSection at h
  split at h
  · cases h
  · split at h
    · obtain ⟨q, hfill, heq⟩ := Option.map_eq_some_iff.mp h
      cases heq
      exact Or.inr ⟨rfl, q.recvContainer, by rw [← fillAck_eq hfill]⟩
    · cases h
      exact Or.inl ⟨rfl, rfl⟩

/-- `FreeCMDSession` clears one usage flag. -/
theorem freeCMDSession_table (p : Protocol) (i : Nat) :
    (p.freeCMDSession i).cmdSessionTable =
      Function.update p.cmdSessionTable i { p.cmdSessionTable i with usageFlag := false } := by
  unfold freeCMDSession
  split
  case isTrue => rfl
  case isFalse hflag =>
    rw [← Bool.eq_false_iff.mpr hflag]
    exact (Function.update_eq_self ..).symm

theorem handleAck_eq (p : Protocol) (frame : List UInt8) :
    p.handleAck frame = if p.ackTest frame then p.ackSection frame else some (p, false) := by
  by_cases hk : 0 < sessionOf frame ∧ sessionOf frame < 32
  · rw [ackTest, if_pos hk]
    exact if_pos hk
  · rw [ackTest, if_neg hk]
    exact if_neg hk

end Protocol

/-! ## Runs -/

/-- A retransmission, or the end of a command that has used up its retries: the session with its
usage flag and timeout, and when it happened and when the command was last transmitted. -/
structure Retry where
  session : Nat
  resent : Bool
  usageFlag : Bool
  ackTimeout : Int
  time : Int
  lastSent : Int

/-- The protocol, the clock, the poll thread at its session (with the time of a passed test), and
the receive thread (with the frame of a passed test). The ghost fields number the commands: which
one is in each session and when it was last transmitted, the `retry_time` of each, and every
transmission; and they keep every retry, and the usage flag of every session whose acknowledgement
was accepted. -/
structure SendRun where
  protocol : Protocol
  clock : Int
  pollSession : Nat
  pollTimeStamp : Option Int
  ackFrame : Option (List UInt8)
  command : Nat → Nat
  lastSent : Nat → Int
  issued : List Int
  transmissions : List Nat
  retries : List Retry
  acceptances : List Bool

/-- `SendCMD`; the poll thread goes on; an ACK frame arrives; its locked section; time passes. -/
inductive SendEvent where
  | sendCMD (cmdSet cmdId receiver : UInt8) (data : List UInt8) (mode : CMDSessionMode)
      (ackTimeout retryTime : Int)
  | poll
  | ack (frame : List UInt8)
  | ackSection
  | tick (duration : Nat)

namespace SendRun

/-- After `Init`, at time `clock`. -/
def start (p : Protocol) (table : Nat → MemoryBlock) (memory : ByteMemory) (clock : Int) :
    SendRun where
  protocol := p.init table memory
  clock := clock
  pollSession := 1
  pollTimeStamp := none
  ackFrame := none
  command := fun _ => 0
  lastSent := fun _ => 0
  issued := []
  transmissions := []
  retries := []
  acceptances := []

/-- What `SendCMD` leaves behind. In the modes 0 and 1 a command is to be transmitted once. -/
def sent (w : SendRun) (mode : CMDSessionMode) (retryTime : Int) :
    Protocol × Option MessageHeader → SendRun
  | (p, none) => { w with protocol := p }
  | (p, some header) =>
      { w with
        protocol := p
        command := Function.update w.command header.sessionId w.issued.length
        lastSent := Function.update w.lastSent header.sessionId w.clock
        issued := w.issued ++ [if mode = .CMD_SESSION_AUTO then retryTime else 1]
        transmissions := w.transmissions ++ [w.issued.length] }

/-- The poll thread goes on to the next session. -/
def nextSession (w : SendRun) : SendRun :=
  { w with
    pollTimeStamp := none
    pollSession := if w.pollSession + 1 < SESSION_TABLE_NUM then w.pollSession + 1 else 1 }

/-- The record of the locked section of the poll thread. -/
def retry (w : SendRun) (resent : Bool) : Retry where
  session := w.pollSession
  resent := resent
  usageFlag := (w.protocol.cmdSessionTable w.pollSession).usageFlag
  ackTimeout := (w.protocol.cmdSessionTable w.pollSession).ackTimeout
  time := w.clock
  lastSent := w.lastSent w.pollSession

/-- What the locked section of the poll thread leaves behind. Giving up a session that is not in use
does nothing. -/
def polled (w : SendRun) (p : Protocol) : SendRun :=
  if w.protocol.GivesUp w.pollSession then
    { w with
      protocol := p
      retries := if (w.protocol.cmdSessionTable w.pollSession).usageFlag then
          w.retries ++ [w.retry false]
        else w.retries }
  else
    { w with
      protocol := p
      lastSent := Function.update w.lastSent w.pollSession w.clock
      transmissions := w.transmissions ++ [w.command w.pollSession]
      retries := w.retries ++ [w.retry true] }

/-- What the locked section of the ACK branch leaves behind. -/
def acknowledged (w : SendRun) (frame : List UInt8) : Protocol × Bool → SendRun
  | (p, isFrame) =>
      { w with
        protocol := p
        ackFrame := none
        acceptances := if isFrame then
            w.acceptances ++
              [(w.protocol.cmdSessionTable (Protocol.sessionOf frame)).usageFlag]
          else w.acceptances }

/-- One step of the threads or of the clock. -/
def step (w : SendRun) : SendEvent → Option SendRun
  | .sendCMD cmdSet cmdId receiver data mode ackTimeout retryTime =>
      if data.length < 2 ^ 16 then
        (w.protocol.sendCMD cmdSet cmdId receiver data mode ackTimeout retryTime w.clock).map
          (w.sent mode retryTime)
      else none
  | .poll =>
      match w.pollTimeStamp with
      | none =>
          if w.protocol.timedOut w.pollSession w.clock then
            some { w with pollTimeStamp := some w.clock }
          else some w.nextSession
      | some now =>
          (w.protocol.autoRepeatSend w.pollSession now).map fun p => (w.polled p).nextSession
  | .ack frame =>
      if w.ackFrame = none ∧ (Header.decode (ByteMemory.ofList frame) 0).isAck then
        some (if w.protocol.ackTest frame then { w with ackFrame := some frame } else w)
      else none
  | .ackSection =>
      w.ackFrame.bind fun frame => (w.protocol.ackSection frame).map (w.acknowledged frame)
  | .tick duration => some { w with clock := w.clock + duration }

/-- Frames are only sent again from sessions in use, only acknowledgements of sessions in use are
accepted, nothing is sent again or given up before its timeout, and a command is transmitted as
often as its `retry_time` allows. -/
structure Disciplined (w : SendRun) : Prop where
  inUse : ∀ r ∈ w.retries, r.resent = true → r.usageFlag = true
  accepted : ∀ usageFlag ∈ w.acceptances, usageFlag = true
  timely : ∀ r ∈ w.retries, r.lastSent + r.ackTimeout * 1000000 ≤ r.time
  bounded : ∀ (c : Nat) (retryTime : Int), w.issued[c]? = some retryTime → 1 ≤ retryTime →
    w.transmissions.count c ≤ retryTime

/-- The step condition: `retry_time` fits the session, the poll thread passes its test by the time
of the last transmission, and no session is freed between a test and the section that acts on it. -/
def Unraced (w : SendRun) : SendEvent → Prop
  | .sendCMD _ _ _ _ mode _ retryTime =>
      mode = .CMD_SESSION_AUTO → 1 ≤ retryTime → retryTime % 2 ^ 16 ≠ 0
  | .poll =>
      (w.pollTimeStamp = none → w.protocol.timedOut w.pollSession w.clock = true →
        (w.protocol.cmdSessionTable w.pollSession).preTimeStamp = w.lastSent w.pollSession) ∧
      (w.pollTimeStamp ≠ none → w.protocol.GivesUp w.pollSession →
        ∀ frame ∈ w.ackFrame, Protocol.sessionOf frame ≠ w.pollSession)
  | .ackSection =>
      w.pollTimeStamp ≠ none → ∀ frame ∈ w.ackFrame, Protocol.sessionOf frame ≠ w.pollSession
  | .ack _ | .tick _ => True

instance : ∀ (w : SendRun) (e : SendEvent), Decidable (w.Unraced e)
  | _, .sendCMD _ _ _ _ mode _ retryTime =>
      inferInstanceAs (Decidable (mode = .CMD_SESSION_AUTO → 1 ≤ retryTime →
        retryTime % 2 ^ 16 ≠ 0))
  | w, .poll =>
      inferInstanceAs (Decidable
        ((w.pollTimeStamp = none → w.protocol.timedOut w.pollSession w.clock = true →
          (w.protocol.cmdSessionTable w.pollSession).preTimeStamp = w.lastSent w.pollSession) ∧
        (w.pollTimeStamp ≠ none → w.protocol.GivesUp w.pollSession →
          ∀ frame ∈ w.ackFrame, Protocol.sessionOf frame ≠ w.pollSession)))
  | w, .ackSection =>
      inferInstanceAs (Decidable (w.pollTimeStamp ≠ none →
        ∀ frame ∈ w.ackFrame, Protocol.sessionOf frame ≠ w.pollSession))
  | _, .ack _ | _, .tick _ => inferInstanceAs (Decidable True)

/-! ## Counting transmissions -/

/-- A session of a command with `retry_time` `retryTime` that was transmitted `n` times. -/
structure Budget (session : CMDSession) (retryTime : Int) (n : Nat) : Prop where
  pos : 0 < session.retryTime.toNat
  le : session.retryTime.toNat ≤ retryTime
  count : n = session.sent.toNat
  sent_le : session.sent.toNat ≤ session.retryTime.toNat

/-- The commands of the sessions in use are different ones, and every command is within its
`retry_time`. -/
structure Counted (table : Nat → CMDSession) (command : Nat → Nat) (issued : List Int)
    (transmissions : List Nat) : Prop where
  budget : ∀ i, (table i).usageFlag = true → ∃ r, issued[command i]? = some r ∧
    (1 ≤ r → Budget (table i) r (transmissions.count (command i)))
  distinct : ∀ i j, (table i).usageFlag = true → (table j).usageFlag = true →
    command i = command j → i = j
  numbered : ∀ c ∈ transmissions, c < issued.length
  bounded : ∀ (c : Nat) (r : Int), issued[c]? = some r → 1 ≤ r → transmissions.count c ≤ r

section

variable {table : Nat → CMDSession} {command : Nat → Nat} {issued : List Int}
  {transmissions : List Nat} {i : Nat}

theorem start_counted (h : ∀ i, (table i).usageFlag = false) (command : Nat → Nat) :
    Counted table command [] [] where
  budget := fun i hi => by
    rw [h i] at hi
    cases hi
  distinct := fun i _ hi => by
    rw [h i] at hi
    cases hi
  numbered := fun _ hc => nomatch hc
  bounded := fun _ _ hr => nomatch hr

/-- A session is freed. -/
theorem Counted.free (h : Counted table command issued transmissions) :
    Counted (Function.update table i { table i with usageFlag := false }) command issued
      transmissions := by
  have hold : ∀ j, (Function.update table i { table i with usageFlag := false } j).usageFlag =
      true → Function.update table i { table i with usageFlag := false } j = table j ∧
        (table j).usageFlag = true := by
    intro j hj
    by_cases hji : j = i
    · subst hji
      rw [Function.update_self] at hj
      cases hj
    · rw [Function.update_of_ne hji] at hj ⊢
      exact ⟨rfl, hj⟩
  refine ⟨fun j hj => ?_, fun j k hj hk => h.distinct j k (hold j hj).2 (hold k hk).2, h.numbered,
    h.bounded⟩
  rw [(hold j hj).1]
  exact h.budget j (hold j hj).2

/-- A command is transmitted again from its session in use. -/
theorem Counted.resend (h : Counted table command issued transmissions)
    (hflag : (table i).usageFlag = true) {now : Int} {sent : UInt16}
    (hsent : (table i).retryTime > 0 → sent = (table i).sent + 1)
    (hleft : ¬ ((table i).retryTime > 0 ∧ (table i).sent ≥ (table i).retryTime)) :
    Counted (Function.update table i { table i with preTimeStamp := now, sent := sent }) command
      issued (transmissions ++ [command i]) := by
  generalize hsession : ({ table i with preTimeStamp := now, sent := sent } : CMDSession) = session
  have husage : session.usageFlag = true := by
    subst hsession
    exact hflag
  have hold : ∀ j, (Function.update table i session j).usageFlag = true →
      (table j).usageFlag = true := by
    intro j hj
    by_cases hji : j = i
    · exact hji ▸ hflag
    · rwa [Function.update_of_ne hji] at hj
  have hcount : ∀ c, (transmissions ++ [command i]).count c =
      transmissions.count c + if command i = c then 1 else 0 := fun c => by
    rw [List.count_append, List.count_singleton']
  obtain ⟨r, hr, hbudget⟩ := h.budget i hflag
  have hsent' : 1 ≤ r → Budget session r (transmissions.count (command i) + 1) := by
    intro hpos
    obtain ⟨hretry, hle, hn, -⟩ := hbudget hpos
    have hretry' : (table i).retryTime > 0 := UInt16.lt_iff_toNat_lt.mpr hretry
    have hlt : (table i).sent.toNat < (table i).retryTime.toNat := by
      rw [← UInt16.lt_iff_toNat_lt]
      exact UInt16.not_le.mp fun hge => hleft ⟨hretry', hge⟩
    have hnext : sent.toNat = (table i).sent.toNat + 1 := by
      have := (table i).retryTime.toNat_lt
      rw [hsent hretry', UInt16.toNat_add, UInt16.toNat_one]
      omega
    subst hsession
    exact ⟨hretry, hle, by rw [hn, hnext], by rw [hnext]; exact hlt⟩
  refine ⟨fun j hj => ?_, fun j k hj hk => h.distinct j k (hold j hj) (hold k hk), fun c hc => ?_,
    fun c r' hr' hpos => ?_⟩
  · by_cases hji : j = i
    · subst hji
      rw [Function.update_self, hcount, if_pos rfl]
      exact ⟨r, hr, hsent'⟩
    · have hne : command i ≠ command j := fun heq => hji (h.distinct j i (hold j hj) hflag heq.symm)
      rw [Function.update_of_ne hji, hcount, if_neg hne]
      exact h.budget j (hold j hj)
  · rcases List.mem_append.mp hc with hc | hc
    · exact h.numbered c hc
    · rw [List.mem_singleton.mp hc]
      exact (List.getElem?_eq_some_iff.mp hr).choose
  · rw [hcount]
    split
    case isTrue heq =>
      subst heq
      obtain rfl : r = r' := Option.some.inj (hr.symm.trans hr')
      obtain ⟨-, hle, hn, hsent_le⟩ := hsent' hpos
      rw [hn]
      omega
    case isFalse => exact h.bounded c r' hr' hpos

/-- A new command is transmitted; its session is used or free again. -/
theorem Counted.send (h : Counted table command issued transmissions)
    (hflag : (table i).usageFlag = false) {session : CMDSession} {r : Int}
    (hsession : session.usageFlag = true → 1 ≤ r → Budget session r 1) :
    Counted (Function.update table i session) (Function.update command i issued.length)
      (issued ++ [r]) (transmissions ++ [issued.length]) := by
  have hfresh : issued.length ∉ transmissions := fun hmem => Nat.lt_irrefl _ (h.numbered _ hmem)
  have hcount : ∀ c, (transmissions ++ [issued.length]).count c =
      transmissions.count c + if issued.length = c then 1 else 0 := fun c => by
    rw [List.count_append, List.count_singleton']
  have hold : ∀ j, j ≠ i → (Function.update table i session j).usageFlag = true →
      (table j).usageFlag = true := fun j hji hj => by rwa [Function.update_of_ne hji] at hj
  have hlt : ∀ j, (table j).usageFlag = true → command j < issued.length := by
    intro j hj
    obtain ⟨r', hr', -⟩ := h.budget j hj
    exact (List.getElem?_eq_some_iff.mp hr').choose
  refine ⟨fun j hj => ?_, fun j k hj hk heq => ?_, fun c hc => ?_, fun c r' hr' hpos => ?_⟩
  · by_cases hji : j = i
    · subst hji
      rw [Function.update_self] at hj
      rw [Function.update_self, Function.update_self, hcount, if_pos rfl,
        List.count_eq_zero.mpr hfresh]
      exact ⟨r, List.getElem?_concat_length, hsession hj⟩
    · have hj := hold j hji hj
      obtain ⟨r', hr', hbudget⟩ := h.budget j hj
      rw [Function.update_of_ne hji, Function.update_of_ne hji, hcount,
        if_neg (Nat.ne_of_gt (hlt j hj)), List.getElem?_append_left (hlt j hj)]
      exact ⟨r', hr', hbudget⟩
  · by_cases hji : j = i <;> by_cases hki : k = i
    · rw [hji, hki]
    · subst hji
      rw [Function.update_self, Function.update_of_ne hki] at heq
      exact absurd (hlt k (hold k hki hk)) (by omega)
    · subst hki
      rw [Function.update_self, Function.update_of_ne hji] at heq
      exact absurd (hlt j (hold j hji hj)) (by omega)
    · rw [Function.update_of_ne hji, Function.update_of_ne hki] at heq
      exact h.distinct j k (hold j hji hj) (hold k hki hk) heq
  · rw [List.length_append, List.length_singleton]
    rcases List.mem_append.mp hc with hc | hc
    · exact Nat.lt_succ_of_lt (h.numbered c hc)
    · rw [List.mem_singleton.mp hc]
      exact Nat.lt_succ_self _
  · rw [hcount]
    split
    case isTrue heq =>
      subst heq
      rw [List.count_eq_zero.mpr hfresh]
      exact_mod_cast hpos
    case isFalse hne =>
      have hc : c < issued.length := by
        have := (List.getElem?_eq_some_iff.mp hr').choose
        rw [List.length_append, List.length_singleton] at this
        omega
      rw [List.getElem?_append_left hc] at hr'
      exact h.bounded c r' hr' hpos

end

/-! ## The invariant -/

/-- What holds while no thread overtakes another between a test and its section. -/
structure Guarded (w : SendRun) : Prop where
  wellFormed : w.protocol.WellFormed
  tested : ∀ now, w.pollTimeStamp = some now → now ≤ w.clock ∧
    w.protocol.timedOut w.pollSession now = true ∧
    (w.protocol.cmdSessionTable w.pollSession).preTimeStamp = w.lastSent w.pollSession
  ackTested : ∀ frame, w.ackFrame = some frame →
    (w.protocol.cmdSessionTable (Protocol.sessionOf frame)).usageFlag = true
  counted : Counted w.protocol.cmdSessionTable w.command w.issued w.transmissions
  inUse : ∀ r ∈ w.retries, r.resent = true → r.usageFlag = true
  accepted : ∀ usageFlag ∈ w.acceptances, usageFlag = true
  timely : ∀ r ∈ w.retries, r.lastSent + r.ackTimeout * 1000000 ≤ r.time

variable {w w' : SendRun}

theorem Guarded.disciplined (h : w.Guarded) : w.Disciplined :=
  ⟨h.inUse, h.accepted, h.timely, h.counted.bounded⟩

theorem start_guarded (p : Protocol) (table : Nat → MemoryBlock) (memory : ByteMemory)
    (clock : Int) : (start p table memory clock).Guarded where
  wellFormed := ⟨(Protocol.init_owned p table memory default).sized, fun _ => rfl, fun _ _ => rfl⟩
  tested := fun _ hnow => nomatch hnow
  ackTested := fun _ hframe => nomatch hframe
  counted := start_counted (fun _ => rfl) _
  inUse := fun _ hr => nomatch hr
  accepted := fun _ hr => nomatch hr
  timely := fun _ hr => nomatch hr

theorem timedOut_usageFlag {p : Protocol} {i : Nat} {now : Int} (h : p.timedOut i now = true) :
    (p.cmdSessionTable i).usageFlag = true :=
  (Bool.and_eq_true_iff.mp h).1

theorem timedOut_congr {p p' : Protocol} {i : Nat} (h : p'.cmdSessionTable i = p.cmdSessionTable i)
    (now : Int) : p'.timedOut i now = p.timedOut i now := by
  rw [Protocol.timedOut, h, Protocol.timedOut]

/-- A session that has timed out by its time stamp. -/
theorem timedOut_elapsed {p : Protocol} {i : Nat} {now : Int} (h : p.timedOut i now = true) :
    (p.cmdSessionTable i).preTimeStamp + (p.cmdSessionTable i).ackTimeout * 1000000 ≤ now := by
  have hlate : (now - (p.cmdSessionTable i).preTimeStamp).tdiv 1000000 >
      (p.cmdSessionTable i).ackTimeout := of_decide_eq_true (Bool.and_eq_true_iff.mp h).2
  have hsplit := Int.mul_tdiv_add_tmod (now - (p.cmdSessionTable i).preTimeStamp) 1000000
  have hrest := Int.lt_tmod_of_pos (now - (p.cmdSessionTable i).preTimeStamp)
    (show (0 : Int) < 1000000 by decide)
  omega

theorem tick_guarded (h : w.Guarded) (duration : Nat) :
    Guarded { w with clock := w.clock + duration } where
  wellFormed := h.wellFormed
  tested := fun now hnow => by
    obtain ⟨hle, htested⟩ := h.tested now hnow
    exact ⟨by show now ≤ w.clock + duration; omega, htested⟩
  ackTested := h.ackTested
  counted := h.counted
  inUse := h.inUse
  accepted := h.accepted
  timely := h.timely

theorem ack_guarded (h : w.Guarded) {frame : List UInt8}
    (hstep : w.step (.ack frame) = some w') : w'.Guarded := by
  simp only [step] at hstep
  split at hstep
  case isFalse => cases hstep
  case isTrue =>
    cases hstep
    split
    case isFalse => exact h
    case isTrue htest =>
      refine ⟨h.wellFormed, h.tested, ?_, h.counted, h.inUse, h.accepted, h.timely⟩
      rintro frame' hframe
      cases hframe
      rw [Protocol.ackTest] at htest
      split at htest
      · exact htest
      · cases htest

theorem ackSection_guarded (h : w.Guarded) (hok : w.Unraced .ackSection)
    (hstep : w.step .ackSection = some w') : w'.Guarded := by
  obtain ⟨frame, hframe, hstep⟩ := Option.bind_eq_some_iff.mp hstep
  obtain ⟨⟨p, isFrame⟩, hsection, rfl⟩ := Option.map_eq_some_iff.mp hstep
  have hflag := h.ackTested frame hframe
  rcases Protocol.ackSection_cases hsection with ⟨rfl, rfl⟩ | ⟨rfl, container, rfl⟩
  · exact ⟨h.wellFormed, h.tested, fun _ hnone => (nomatch hnone), h.counted, h.inUse, h.accepted,
      h.timely⟩
  · generalize hq : ({ w.protocol with recvContainer := container } : Protocol) = q
    have hqtable : q.cmdSessionTable = w.protocol.cmdSessionTable := by rw [← hq]
    have hwf : q.WellFormed := by
      rw [← hq]
      exact h.wellFormed.frame h.wellFormed.sized (fun _ => rfl) fun _ _ => rfl
    have htable := Protocol.freeCMDSession_table q (Protocol.sessionOf frame)
    rw [hqtable] at htable
    refine ⟨hwf.freeCMDSession _, fun now hnow => ?_, fun _ hnone => (nomatch hnone), ?_, h.inUse,
      ?_, h.timely⟩
    · -- the poll thread is at another session
      obtain ⟨hle, htimedOut, hstamp⟩ := h.tested now hnow
      have hne : w.pollSession ≠ Protocol.sessionOf frame := fun heq =>
        hok (fun hnone => nomatch hnone.symm.trans hnow) frame hframe heq.symm
      have hsame : (q.freeCMDSession (Protocol.sessionOf frame)).cmdSessionTable w.pollSession =
          w.protocol.cmdSessionTable w.pollSession := by
        rw [htable, Function.update_of_ne hne]
      exact ⟨hle, (timedOut_congr hsame now).trans htimedOut, hsame ▸ hstamp⟩
    · show Counted (q.freeCMDSession (Protocol.sessionOf frame)).cmdSessionTable w.command w.issued
        w.transmissions
      rw [htable]
      exact h.counted.free
    · intro usageFlag hmem
      rcases List.mem_append.mp hmem with hmem | hmem
      · exact h.accepted usageFlag hmem
      · rw [List.mem_singleton.mp hmem]
        exact hflag

/-- A `retry_time` that fits the session is kept there. -/
theorem toNat_ofInt {retryTime : Int} (hpos : 1 ≤ retryTime) (hfits : retryTime % 2 ^ 16 ≠ 0) :
    0 < (UInt16.ofInt retryTime).toNat ∧ (UInt16.ofInt retryTime).toNat ≤ retryTime := by
  rw [UInt16.ofInt, UInt16.toNat_ofNat']
  omega

/-- A session that was unused gets a command. -/
theorem Guarded.send (h : w.Guarded) {p : Protocol} (hwf : p.WellFormed) {i : Nat}
    {session : CMDSession} {r : Int} (hfree : (w.protocol.cmdSessionTable i).usageFlag = false)
    (htable : p.cmdSessionTable = Function.update w.protocol.cmdSessionTable i session)
    (hsession : session.usageFlag = true → 1 ≤ r → Budget session r 1) :
    Guarded { w with
      protocol := p
      command := Function.update w.command i w.issued.length
      lastSent := Function.update w.lastSent i w.clock
      issued := w.issued ++ [r]
      transmissions := w.transmissions ++ [w.issued.length] } := by
  have hsame : ∀ j, (w.protocol.cmdSessionTable j).usageFlag = true → j ≠ i ∧
      p.cmdSessionTable j = w.protocol.cmdSessionTable j := by
    intro j hj
    have hji : j ≠ i := by
      rintro rfl
      rw [hfree] at hj
      cases hj
    exact ⟨hji, by rw [htable, Function.update_of_ne hji]⟩
  refine ⟨hwf, fun now hnow => ?_, fun frame hframe => ?_, ?_, h.inUse, h.accepted, h.timely⟩
  · obtain ⟨hle, htimedOut, hstamp⟩ := h.tested now hnow
    obtain ⟨hne, hsame⟩ := hsame w.pollSession (timedOut_usageFlag htimedOut)
    refine ⟨hle, (timedOut_congr hsame now).trans htimedOut, ?_⟩
    show (p.cmdSessionTable w.pollSession).preTimeStamp =
      Function.update w.lastSent i w.clock w.pollSession
    rw [hsame, Function.update_of_ne hne]
    exact hstamp
  · show (p.cmdSessionTable (Protocol.sessionOf frame)).usageFlag = true
    rw [(hsame _ (h.ackTested frame hframe)).2]
    exact h.ackTested frame hframe
  · show Counted p.cmdSessionTable _ _ _
    rw [htable]
    exact h.counted.send hfree hsession

theorem sendCMD_guarded (h : w.Guarded) {cmdSet cmdId receiver : UInt8} {data : List UInt8}
    {mode : CMDSessionMode} {ackTimeout retryTime : Int}
    (hok : w.Unraced (.sendCMD cmdSet cmdId receiver data mode ackTimeout retryTime))
    (hstep : w.step (.sendCMD cmdSet cmdId receiver data mode ackTimeout retryTime) = some w') :
    w'.Guarded := by
  simp only [step] at hstep
  split at hstep
  case isFalse => cases hstep
  case isTrue =>
    obtain ⟨⟨p, out⟩, hsend, rfl⟩ := Option.map_eq_some_iff.mp hstep
    have hwf := h.wellFormed.sendCMD hsend
    rcases Protocol.sendCMD_cases h.wellFormed.sized h.wellFormed.cmd_id hsend with
      ⟨rfl, pool, -, rfl⟩ | ⟨i, b, pool, hi, -, rfl, rfl⟩
    · exact ⟨hwf, h.tested, h.ackTested, h.counted, h.inUse, h.accepted, h.timely⟩
    · refine h.send hwf (Protocol.freeSession_unused hi).1 rfl fun hflag hpos => ?_
      cases mode with
      | CMD_SESSION_0 => cases hflag
      | CMD_SESSION_1 => exact ⟨Nat.one_pos, Int.le_refl 1, rfl, Nat.le_refl 1⟩
      | CMD_SESSION_AUTO =>
          obtain ⟨hretry, hle⟩ := toNat_ofInt hpos (hok rfl hpos)
          exact ⟨hretry, hle, rfl, hretry⟩

/-- The poll thread has acted on its session, which was in use and had timed out. -/
theorem Guarded.polled (h : w.Guarded) (hok : w.Unraced .poll) {now : Int}
    (hnow : w.pollTimeStamp = some now) {p : Protocol}
    (hsend : w.protocol.autoRepeatSend w.pollSession now = some p) :
    Guarded (w.polled p).nextSession := by
  obtain ⟨hle, htimedOut, hstamp⟩ := h.tested now hnow
  have hflag := timedOut_usageFlag htimedOut
  have helapsed := timedOut_elapsed htimedOut
  have hretry : ∀ resent, ∀ r ∈ w.retries ++ [w.retry resent],
      (r.resent = true → r.usageFlag = true) ∧ r.lastSent + r.ackTimeout * 1000000 ≤ r.time := by
    intro resent r hr
    rcases List.mem_append.mp hr with hr | hr
    · exact ⟨h.inUse r hr, h.timely r hr⟩
    · rw [List.mem_singleton.mp hr]
      refine ⟨fun _ => hflag, ?_⟩
      show w.lastSent w.pollSession +
        (w.protocol.cmdSessionTable w.pollSession).ackTimeout * 1000000 ≤ w.clock
      rw [← hstamp]
      omega
  rcases Protocol.autoRepeatSend_cases hsend with
    ⟨hgives, rfl⟩ | ⟨hgives, b, sent, rfl, hsent⟩
  · have htable := Protocol.freeCMDSession_table w.protocol w.pollSession
    rw [SendRun.polled, if_pos hgives, if_pos hflag]
    refine ⟨h.wellFormed.freeCMDSession _, fun _ hnone => (nomatch hnone), fun frame hframe => ?_,
      ?_, fun r hr => (hretry _ r hr).1, h.accepted, fun r hr => (hretry _ r hr).2⟩
    · have hne := hok.2 (fun hnone => nomatch hnone.symm.trans hnow) hgives frame hframe
      show ((w.protocol.freeCMDSession w.pollSession).cmdSessionTable
        (Protocol.sessionOf frame)).usageFlag = true
      rw [htable, Function.update_of_ne hne]
      exact h.ackTested frame hframe
    · show Counted (w.protocol.freeCMDSession w.pollSession).cmdSessionTable _ _ _
      rw [htable]
      exact h.counted.free
  · rw [SendRun.polled, if_neg hgives]
    refine ⟨?_, fun _ hnone => (nomatch hnone), fun frame hframe => ?_,
      h.counted.resend hflag hsent hgives, fun r hr => (hretry _ r hr).1, h.accepted,
      fun r hr => (hretry _ r hr).2⟩
    · exact h.wellFormed.frame h.wellFormed.sized
        (fun j => Protocol.setCmd_sessionId _ w.pollSession j rfl) fun _ _ => rfl
    · show (Function.update w.protocol.cmdSessionTable w.pollSession _
        (Protocol.sessionOf frame)).usageFlag = true
      by_cases heq : Protocol.sessionOf frame = w.pollSession
      · rw [heq, Function.update_self]
        exact hflag
      · rw [Function.update_of_ne heq]
        exact h.ackTested frame hframe

theorem poll_guarded (h : w.Guarded) (hok : w.Unraced .poll) (hstep : w.step .poll = some w') :
    w'.Guarded := by
  cases hnow : w.pollTimeStamp with
  | none =>
      simp only [step, hnow] at hstep
      split at hstep
      case isTrue htimedOut =>
        cases hstep
        refine ⟨h.wellFormed, fun now hnow' => ?_, h.ackTested, h.counted, h.inUse, h.accepted,
          h.timely⟩
        cases hnow'
        exact ⟨Int.le_refl _, htimedOut, hok.1 hnow htimedOut⟩
      case isFalse =>
        cases hstep
        exact ⟨h.wellFormed, fun _ hnone => (nomatch hnone), h.ackTested, h.counted, h.inUse,
          h.accepted, h.timely⟩
  | some now =>
      simp only [step, hnow] at hstep
      obtain ⟨p, hsend, rfl⟩ := Option.map_eq_some_iff.mp hstep
      exact h.polled hok hnow hsend

theorem step_guarded {e : SendEvent} (h : w.Guarded) (hok : w.Unraced e)
    (hstep : w.step e = some w') : w'.Guarded := by
  cases e with
  | sendCMD => exact sendCMD_guarded h hok hstep
  | poll => exact poll_guarded h hok hstep
  | ack => exact ack_guarded h hstep
  | ackSection => exact ackSection_guarded h hok hstep
  | tick duration =>
      cases hstep
      exact tick_guarded h duration

/-- In every unraced run retransmission is disciplined. -/
theorem run_disciplined (p : Protocol) (table : Nat → MemoryBlock) (memory : ByteMemory)
    (clock : Int) (events : List SendEvent) (w : SendRun)
    (hok : StateMachine.Along step Unraced (start p table memory clock) events)
    (hrun : StateMachine.run step (start p table memory clock) events = some w) : w.Disciplined :=
  (StateMachine.run_invariant_of (P := Guarded) (fun _ _ _ h hok hstep => step_guarded h hok hstep)
    (start_guarded p table memory clock) hok hrun).disciplined

/-! ## Five runs -/

/-- A command of one byte that is to be transmitted `retryTime` times, with a timeout of 50 ms. -/
def byteCommand (retryTime : Int) : SendEvent :=
  .sendCMD 1 2 0 [3] .CMD_SESSION_AUTO 50 retryTime

/-- An acknowledgement of session 2. -/
def session2Ack : List UInt8 :=
  Header.package
    { sof := SOF, length := 17, version := VERSION, sessionId := 2, isAck := true, reserved0 := 0,
      sender := 0, receiver := 0, reserved1 := 0, seqNum := 0 } [9]

/-- A command times out, and the poll thread passes the test of its session. -/
def timedOutCommand (retryTime : Int) : List SendEvent :=
  [byteCommand retryTime, .tick 60000000, .poll, .poll]

/-- A command is transmitted twice and given up. -/
def givenUp : List SendEvent :=
  timedOutCommand 2 ++ .poll :: .tick 60000000 :: List.replicate 32 .poll

/-- The command is acknowledged between the test and the retransmission. -/
def freedSession : List SendEvent :=
  timedOutCommand 5 ++ [.ack session2Ack, .ackSection, .poll]

/-- The command is given up between the test and the locked section of its acknowledgement. -/
def lateAck : List SendEvent :=
  timedOutCommand 1 ++ [.ack session2Ack, .poll, .ackSection]

/-- The session goes to the next command between the test and the section. -/
def reusedSession : List SendEvent :=
  timedOutCommand 5 ++ [.ack session2Ack, .ackSection, byteCommand 1, .poll]

/-- The retransmission is 40 ms late, and the next one is due by the time of the test. -/
def delayedSection : List SendEvent :=
  timedOutCommand 5 ++ .tick 40000000 :: List.replicate 31 .poll ++ [.tick 20000000, .poll, .poll]

theorem run_disciplined_givenUp :
    ∃ w, StateMachine.run step (start default default default 0) givenUp = some w ∧
      w.transmissions = [0, 0] ∧ w.retries.map Retry.resent = [true, false] ∧ w.Disciplined := by
  obtain ⟨w, hw⟩ := Option.isSome_iff_exists.mp
    (show (StateMachine.run step (start default default default 0) givenUp).isSome = true by
      decide +kernel)
  have hlogs : (StateMachine.run step (start default default default 0) givenUp).map
      (fun w => (w.transmissions, w.retries.map Retry.resent)) = some ([0, 0], [true, false]) := by
    decide +kernel
  rw [hw, Option.map_some, Option.some.injEq, Prod.mk.injEq] at hlogs
  exact ⟨w, hw, hlogs.1, hlogs.2, run_disciplined _ _ _ _ _ w (by decide +kernel) hw⟩

/-- A frame is sent from a free session, an acknowledgement of a free session is accepted, and a
command is given up, and one sent again, before its timeout. -/
theorem sections_skip_the_tests :
    (¬ ∀ (p : Protocol) (table : Nat → MemoryBlock) (memory : ByteMemory) (clock : Int)
        (events : List SendEvent) (w : SendRun),
        StateMachine.run step (start p table memory clock) events = some w → w.Disciplined) ∧
      (∃ w, StateMachine.run step (start default default default 0) lateAck = some w ∧
        w.acceptances = [false]) ∧
      (∃ w, StateMachine.run step (start default default default 0) reusedSession = some w ∧
        w.retries.map (fun r => (r.resent, r.time, r.lastSent)) = [(false, 60000000, 60000000)]) ∧
      ∃ w, StateMachine.run step (start default default default 0) delayedSection = some w ∧
        w.retries.map (fun r => (r.resent, r.time, r.lastSent)) =
          [(true, 100000000, 0), (true, 120000000, 100000000)] := by
  refine ⟨fun hall => ?_, Option.map_eq_some_iff.mp (by decide +kernel),
    Option.map_eq_some_iff.mp (by decide +kernel), Option.map_eq_some_iff.mp (by decide +kernel)⟩
  obtain ⟨w, hw, hretries⟩ := Option.map_eq_some_iff.mp
    (show (StateMachine.run step (start default default default 0) freedSession).map
      (fun w => w.retries.map fun r => (r.resent, r.usageFlag)) = some [(true, false)] by
        decide +kernel)
  obtain ⟨r, hr, hflags⟩ := List.mem_map.mp (hretries ▸ List.mem_singleton_self (true, false))
  rw [Prod.mk.injEq] at hflags
  have hflag := (hall _ _ _ _ _ w hw).inUse r hr hflags.1
  rw [hflags.2] at hflag
  cases hflag

end SendRun

end RoboRTS.Sdk
