import RoboRTS.Lib.Ownership
import RoboRTS.Lib.StateMachine
import RoboRTS.Sdk.Protocol.Sessions

/-!
# Exclusive ownership of the pool blocks

Every block of the memory pool belongs to one live session, and holds the package that session
last wrote. The invariant `Owned` is `Exclusive` at the sessions and blocks of a protocol object;
every function keeps it, `SendACK` only when it does not fail on a session that holds a block:
`AllocACKSession` frees that block first and on failure leaves the pointer to it.
-/

namespace RoboRTS.Sdk

/-- The sessions that may own a block. -/
inductive Owner where
  | cmd (i : Nat)
  | ack (receiver j : Nat)
  deriving Repr, DecidableEq

namespace Protocol

/-- The block pointer of a session. -/
def ownerBlock (p : Protocol) : Owner → Option Nat
  | .cmd i => (p.cmdSessionTable i).memoryBlockPtr
  | .ack receiver j => (p.ackSessionTable receiver j).memoryBlockPtr

/-- A command session in use, or an ack session with a block. -/
def LiveSession (p : Protocol) : Owner → Prop
  | .cmd i => i < SESSION_TABLE_NUM ∧ (p.cmdSessionTable i).usageFlag = true
  | .ack receiver j => receiver < RECEIVER_NUM ∧ j < SESSION_TABLE_NUM - 1 ∧
      (p.ackSessionTable receiver j).memoryBlockPtr ≠ none

/-- Each block in use is referenced by exactly one live session, no two live sessions share a
block, each references a block in use, and the block holds what the session last wrote. -/
structure ExclusiveOwnership (p : Protocol) (written : Owner → List UInt8) : Prop where
  one_owner : ∀ b, p.memoryPool.Live b → ∃! o, p.LiveSession o ∧ p.ownerBlock o = some b
  distinct : ∀ o o' b, p.LiveSession o → p.LiveSession o' → p.ownerBlock o = some b →
    p.ownerBlock o' = some b → o = o'
  block_used : ∀ o, p.LiveSession o → ∃ b, p.ownerBlock o = some b ∧ p.memoryPool.Live b
  contents : ∀ o b, p.LiveSession o → p.ownerBlock o = some b →
    p.memoryPool.contents b = written o

/-! ## Runs -/

/-- The calls that touch the sessions: sends, handled frames, and the time-out check. -/
inductive SessionEvent where
  | sendCMD (cmdSet cmdId receiver : UInt8) (data : List UInt8) (mode : CMDSessionMode)
      (ackTimeout retryTime now : Int)
  | sendACK (sessionId : Nat) (seqNum : UInt16) (receiver : UInt8) (ack : List UInt8)
  | receive (frame : List UInt8)
  | retry (i : Nat) (now : Int)

/-- The record after `SendCMD`. -/
def recordCmd (p : Protocol) (written : Owner → List UInt8) (cmdSet cmdId receiver : UInt8)
    (data : List UInt8) : Option MessageHeader → Owner → List UInt8
  | none => written
  | some mh => Function.update written (.cmd mh.sessionId)
      (p.cmdPackage mh.sessionId mh.seqNum cmdSet cmdId receiver data)

/-- The record after `SendACK`. -/
def recordAck (p : Protocol) (written : Owner → List UInt8) (sessionId : Nat) (seqNum : UInt16)
    (receiver : UInt8) (ack : List UInt8) : Bool → Owner → List UInt8
  | false => written
  | true => Function.update written (.ack receiver.toNat (sessionId - 1))
      (p.ackPackage sessionId seqNum receiver ack)

/-- One call, together with the record of what each session last wrote. Lengths are 16-bit
values. -/
def sessionStep (s : Protocol × (Owner → List UInt8)) :
    SessionEvent → Option (Protocol × (Owner → List UInt8))
  | .sendCMD cmdSet cmdId receiver data mode ackTimeout retryTime now =>
      if data.length < 2 ^ 16 then
        (s.1.sendCMD cmdSet cmdId receiver data mode ackTimeout retryTime now).map fun out =>
          (out.1, s.1.recordCmd s.2 cmdSet cmdId receiver data out.2)
      else none
  | .sendACK sessionId seqNum receiver ack =>
      if ack.length < 2 ^ 16 then
        (s.1.sendACK sessionId seqNum receiver ack).map fun out =>
          (out.1, s.1.recordAck s.2 sessionId seqNum receiver ack out.2)
      else none
  | .receive frame => (s.1.containerHandler frame).map fun out => (out.1, s.2)
  | .retry i now =>
      if 1 ≤ i ∧ i < SESSION_TABLE_NUM then
        (s.1.autoRepeatSendCheck i now).map fun p => (p, s.2)
      else none

/-- A `SendACK` on a session that already holds a block asks for no more than the largest block
size and than the free memory together with that block. -/
def Servable (s : Protocol × (Owner → List UInt8)) : SessionEvent → Prop
  | .sendACK sessionId _ receiver ack =>
      0 < sessionId → sessionId ≤ 31 →
      ∀ b ∈ (s.1.ackSessionTable receiver.toNat (sessionId - 1)).memoryBlockPtr,
        ackPackLength ack ≤ s.1.memoryPool.maxBlockSize ∧
        s.1.memoryPool.usedMemorySize + ackPackLength ack ≤
          s.1.memoryPool.memorySize + (s.1.memoryPool.memoryTable b).memorySize
  | _ => True

instance (s : Protocol × (Owner → List UInt8)) : ∀ e, Decidable (Servable s e)
  | .sendCMD .. => inferInstanceAs (Decidable True)
  | .sendACK .. => inferInstanceAs (Decidable (_ → _ → ∀ b ∈ _, _ ∧ _))
  | .receive .. => inferInstanceAs (Decidable True)
  | .retry .. => inferInstanceAs (Decidable True)

/-! ## The invariant -/

/-- The block a session owns: a command session owns one while it is in use. -/
def refs (p : Protocol) : Owner → Option Nat
  | .cmd i =>
      if (p.cmdSessionTable i).usageFlag then (p.cmdSessionTable i).memoryBlockPtr else none
  | .ack receiver j => (p.ackSessionTable receiver j).memoryBlockPtr

/-- The invariant of the sessions and the pool. -/
structure Owned (p : Protocol) (written : Owner → List UInt8) : Prop where
  sized : p.memoryPool.Sized
  exclusive : Exclusive p.refs p.memoryPool.Live p.memoryPool.contents written
  cmd_id : ∀ i, (p.cmdSessionTable i).sessionId = i
  ack_id : ∀ r j, (p.ackSessionTable r j).sessionId = j + 1
  cmd_block : ∀ i, (p.cmdSessionTable i).usageFlag = true →
    i < 32 ∧ (p.cmdSessionTable i).memoryBlockPtr ≠ none
  ack_block : ∀ r j, (p.ackSessionTable r j).memoryBlockPtr ≠ none → r < 6 ∧ j < 31
  cmd_package : ∀ i, (p.cmdSessionTable i).usageFlag = true →
    ∃ h body, written (.cmd i) = Header.package h body ∧ h.sessionId = i

/-- The invariant is exclusive ownership in the words of the sessions. -/
theorem Owned.exclusiveOwnership {p : Protocol} {written : Owner → List UInt8}
    (h : p.Owned written) : p.ExclusiveOwnership written := by
  have hrefs : ∀ {o b}, p.LiveSession o → p.ownerBlock o = some b → p.refs o = some b := by
    intro o b hlive hblock
    cases o with
    | cmd i => simp only [refs, hlive.2, if_true]; exact hblock
    | ack r j => exact hblock
  have hlive : ∀ {o b}, p.refs o = some b → p.LiveSession o ∧ p.ownerBlock o = some b := by
    intro o b hb
    cases o with
    | cmd i =>
        simp only [refs] at hb
        split at hb
        case isTrue hflag => exact ⟨⟨(h.cmd_block i hflag).1, hflag⟩, hb⟩
        case isFalse => cases hb
    | ack r j =>
        have hne : (p.ackSessionTable r j).memoryBlockPtr ≠ none := by
          change (p.ackSessionTable r j).memoryBlockPtr = some b at hb
          rw [hb]
          simp
        exact ⟨⟨(h.ack_block r j hne).1, (h.ack_block r j hne).2, hne⟩, hb⟩
  refine ⟨?_, ?_, ?_, ?_⟩
  · intro b hb
    obtain ⟨o, ho⟩ := h.exclusive.owned hb
    exact ⟨o, hlive ho, fun o' ho' => h.exclusive.unique (hrefs ho'.1 ho'.2) ho⟩
  · intro o o' b ho ho' hb hb'
    exact h.exclusive.unique (hrefs ho hb) (hrefs ho' hb')
  · intro o ho
    have hsome : ∃ b, p.ownerBlock o = some b := by
      cases o with
      | cmd i => exact Option.ne_none_iff_exists'.mp (h.cmd_block i ho.2).2
      | ack r j => exact Option.ne_none_iff_exists'.mp ho.2.2
    obtain ⟨b, hb⟩ := hsome
    exact ⟨b, hb, h.exclusive.used_of_refs (hrefs ho hb)⟩
  · intro o b ho hb
    exact h.exclusive.value_eq (hrefs ho hb)

variable {p p' : Protocol} {written : Owner → List UInt8}

/-- After `Init` no session and no block is in use. -/
theorem init_owned (p : Protocol) (table : Nat → MemoryBlock) (memory : ByteMemory)
    (written : Owner → List UInt8) : (p.init table memory).Owned written := by
  obtain ⟨hvalid, hnolive⟩ := MemoryPool.init_valid MAX_PACK_SIZE
    (show 3 ≤ SESSION_TABLE_NUM by decide) (show 1 ≤ BUFFER_SIZE by decide)
    (by decide) table memory
  refine ⟨⟨hvalid, rfl, rfl, rfl⟩, Exclusive.empty ?_ hnolive, fun i => rfl, fun r j => rfl, ?_, ?_,
    ?_⟩
  · intro o
    cases o <;> rfl
  · intro i hflag
    cases hflag
  · intro r j hne
    exact absurd rfl hne
  · intro i hflag
    cases hflag

/-- Changes that leave the sessions' blocks and the contents of the pool alone. -/
theorem Owned.frame (h : p.Owned written) (hpool : MemoryPool.Preserved p.memoryPool p'.memoryPool)
    (hcmd : ∀ i, (p'.cmdSessionTable i).sessionId = (p.cmdSessionTable i).sessionId ∧
      (p'.cmdSessionTable i).usageFlag = (p.cmdSessionTable i).usageFlag ∧
      (p'.cmdSessionTable i).memoryBlockPtr = (p.cmdSessionTable i).memoryBlockPtr)
    (hack : ∀ r j, (p'.ackSessionTable r j).sessionId = (p.ackSessionTable r j).sessionId ∧
      (p'.ackSessionTable r j).memoryBlockPtr = (p.ackSessionTable r j).memoryBlockPtr) :
    p'.Owned written := by
  refine ⟨hpool.sized, h.exclusive.frame ?_ hpool.live_iff hpool.contents fun _ _ => rfl, ?_, ?_,
    ?_, ?_, ?_⟩
  · intro o
    cases o with
    | cmd i => simp only [refs, (hcmd i).2.1, (hcmd i).2.2]
    | ack r j => exact (hack r j).2
  · intro i
    rw [(hcmd i).1, h.cmd_id]
  · intro r j
    rw [(hack r j).1, h.ack_id]
  · intro i hflag
    rw [(hcmd i).2.1] at hflag
    rw [(hcmd i).2.2]
    exact h.cmd_block i hflag
  · intro r j hne
    rw [(hack r j).2] at hne
    exact h.ack_block r j hne
  · intro i hflag
    rw [(hcmd i).2.1] at hflag
    exact h.cmd_package i hflag

/-- Freeing a command session. -/
theorem Owned.freeCMDSession (h : p.Owned written) {i : Nat}
    (hflag : (p.cmdSessionTable i).usageFlag = true) : (p.freeCMDSession i).Owned written := by
  obtain ⟨b, hb⟩ := Option.ne_none_iff_exists'.mp (h.cmd_block i hflag).2
  have hrefs : p.refs (.cmd i) = some b := by simp only [refs, hflag, if_true, hb]
  have hfree := MemoryPool.released_of_free h.sized (h.exclusive.used_of_refs hrefs)
  rw [freeCMDSession_eq hflag hb]
  have hother : ∀ i', i' ≠ i → Function.update p.cmdSessionTable i
      { p.cmdSessionTable i with usageFlag := false } i' = p.cmdSessionTable i' :=
    fun i' hne => Function.update_of_ne hne ..
  refine ⟨hfree.sized, h.exclusive.release hrefs ?_ ?_ hfree.live_iff
    (fun r _ => hfree.contents r) fun _ _ => rfl, ?_, h.ack_id, ?_, h.ack_block, ?_⟩
  · simp only [refs, Function.update_self, Bool.false_eq_true, if_false]
  · intro o hne
    cases o with
    | cmd i' =>
        have hii : i' ≠ i := fun heq => hne (by rw [heq])
        simp only [refs, hother i' hii]
    | ack r j => rfl
  · intro i'
    by_cases hii : i' = i
    · subst hii
      simpa using h.cmd_id i'
    · exact (congrArg CMDSession.sessionId (hother i' hii)).trans (h.cmd_id i')
  · intro i' hflag'
    by_cases hii : i' = i
    · subst hii
      simp at hflag'
    · dsimp only at hflag' ⊢
      rw [hother i' hii] at hflag' ⊢
      exact h.cmd_block i' hflag'
  · intro i' hflag'
    by_cases hii : i' = i
    · subst hii
      simp at hflag'
    · dsimp only at hflag'
      rw [hother i' hii] at hflag'
      exact h.cmd_package i' hflag'

/-- `SendCMD` keeps the invariant. -/
theorem Owned.sendCMD (h : p.Owned written) {cmdSet cmdId receiver : UInt8} {data : List UInt8}
    {mode : CMDSessionMode} {ackTimeout retryTime now : Int} {out : Option MessageHeader}
    (hsend : p.sendCMD cmdSet cmdId receiver data mode ackTimeout retryTime now =
      some (p', out)) :
    p'.Owned (p.recordCmd written cmdSet cmdId receiver data out) := by
  rcases sendCMD_cases h.sized h.cmd_id hsend with
    ⟨rfl, pool, hpool, rfl⟩ | ⟨i, b, pool, hi, hacq, rfl, rfl⟩
  · exact h.frame hpool (fun i => ⟨rfl, rfl, rfl⟩) fun r j => ⟨rfl, rfl⟩
  obtain ⟨hunused, hlt, -⟩ := freeSession_unused hi
  rw [recordCmd]
  dsimp only
  generalize hpackage : p.cmdPackage i (p.cmdSeqNum mode i) cmdSet cmdId receiver data = package
    at hacq
  have hnone : p.refs (.cmd i) = none := by simp only [refs, hunused, Bool.false_eq_true, if_false]
  have hwant : ∀ o, o ≠ .cmd i → Function.update written (.cmd i) package o = written o :=
    fun o hne => Function.update_of_ne hne ..
  have hother : ∀ (session : CMDSession) i', i' ≠ i →
      Function.update p.cmdSessionTable i session i' = p.cmdSessionTable i' :=
    fun session i' hne => Function.update_of_ne hne ..
  have hrefs : ∀ (session : CMDSession) o, o ≠ .cmd i →
      refs { p with cmdSessionTable := Function.update p.cmdSessionTable i session } o =
        p.refs o := by
    intro session o hne
    cases o with
    | cmd i' =>
        have hii : i' ≠ i := fun heq => hne (by rw [heq])
        simp only [refs, hother session i' hii]
    | ack r j => rfl
  by_cases hmode : mode = .CMD_SESSION_0
  · -- session 0 is free again: the pool is as before
    have hfree := MemoryPool.released_of_free hacq.sized ((hacq.live_iff b).mpr (Or.inr rfl))
    simp only [afterSendCMD, hmode, if_true]
    have hself : refs { p with
        cmdSessionTable := Function.update p.cmdSessionTable i
          { p.cmdSessionTable i with usageFlag := false, memoryBlockPtr := some b } } (.cmd i) =
        none := by
      simp only [refs, Function.update_self, Bool.false_eq_true, if_false]
    refine ⟨hfree.sized, h.exclusive.frame ?_ ?_ ?_ ?_, ?_, h.ack_id, ?_, h.ack_block, ?_⟩
    · intro o
      by_cases ho : o = .cmd i
      · subst ho
        exact hself.trans hnone.symm
      · exact hrefs _ o ho
    · intro r
      rw [hfree.live_iff, hacq.live_iff]
      constructor
      · rintro ⟨hr, hne⟩
        exact hr.resolve_right hne
      · intro hr
        exact ⟨Or.inl hr, fun heq => hacq.fresh (heq ▸ hr)⟩
    · intro r hr
      rw [hfree.contents, hacq.contents r hr]
    · intro o ho
      exact hwant o fun heq => ho (heq ▸ hnone)
    · intro i'
      by_cases hii : i' = i
      · subst hii
        simpa using h.cmd_id i'
      · exact (congrArg CMDSession.sessionId (hother _ i' hii)).trans (h.cmd_id i')
    · intro i' hflag'
      by_cases hii : i' = i
      · subst hii
        simp at hflag'
      · dsimp only at hflag' ⊢
        rw [hother _ i' hii] at hflag' ⊢
        exact h.cmd_block i' hflag'
    · intro i' hflag'
      by_cases hii : i' = i
      · subst hii
        simp at hflag'
      · dsimp only at hflag'
        rw [hother _ i' hii] at hflag'
        rw [hwant _ (by simpa using hii)]
        exact h.cmd_package i' hflag'
  · simp only [afterSendCMD, hmode, if_false]
    refine ⟨hacq.sized, h.exclusive.acquire hnone hacq.fresh ?_ (hrefs _) hacq.live_iff
      hacq.contents ?_ hwant, ?_, h.ack_id, ?_, h.ack_block, ?_⟩
    · simp only [refs, Function.update_self, sentSession, if_true]
    · rw [hacq.stored, Function.update_self]
    · intro i'
      by_cases hii : i' = i
      · subst hii
        simpa [sentSession] using h.cmd_id i'
      · exact (congrArg CMDSession.sessionId (hother _ i' hii)).trans (h.cmd_id i')
    · intro i' hflag'
      by_cases hii : i' = i
      · subst hii
        simp [sentSession, hlt]
      · dsimp only at hflag' ⊢
        rw [hother _ i' hii] at hflag' ⊢
        exact h.cmd_block i' hflag'
    · intro i' hflag'
      by_cases hii : i' = i
      · subst hii
        rw [Function.update_self, ← hpackage]
        exact ⟨_, _, rfl, rfl⟩
      · dsimp only at hflag'
        rw [hother _ i' hii] at hflag'
        rw [hwant _ (by simpa using hii)]
        exact h.cmd_package i' hflag'

/-- The block of an ack session is in use. -/
theorem Owned.ack_live (h : p.Owned written) (r j b : Nat)
    (hb : (p.ackSessionTable r j).memoryBlockPtr = some b) : p.memoryPool.Live b :=
  h.exclusive.used_of_refs (o := .ack r j) hb

/-- Freeing the block of an ack session. -/
theorem Owned.freed (h : p.Owned written) (r j : Nat) :
    Exclusive (Function.update p.refs (.ack r j) none) (p.freedPool r j).Live
      (p.freedPool r j).contents written := by
  rw [freedPool]
  cases hptr : (p.ackSessionTable r j).memoryBlockPtr with
  | none =>
      have hsame : Function.update p.refs (.ack r j) none = p.refs := by
        rw [show none = p.refs (.ack r j) from hptr.symm]
        exact Function.update_eq_self ..
      rw [hsame]
      exact h.exclusive
  | some b =>
      have hfree := MemoryPool.released_of_free h.sized (h.ack_live r j b hptr)
      exact h.exclusive.release (o := .ack r j) hptr (Function.update_self ..)
        (fun o hne => Function.update_of_ne hne ..) hfree.live_iff (fun b' _ => hfree.contents b')
        fun _ _ => rfl

/-- `SendACK` keeps the invariant unless it fails on a session that holds a block. -/
theorem Owned.sendACK (h : p.Owned written) {sessionId : Nat} {seqNum : UInt16}
    {receiver : UInt8} {ack : List UInt8} {ok : Bool}
    (hsend : p.sendACK sessionId seqNum receiver ack = some (p', ok))
    (hkeep : ok = false → 0 < sessionId → sessionId ≤ 31 →
      (p.ackSessionTable receiver.toNat (sessionId - 1)).memoryBlockPtr = none) :
    p'.Owned (p.recordAck written sessionId seqNum receiver ack ok) := by
  rcases sendACK_cases h.sized h.ack_id hsend with
    ⟨rfl, rfl, -⟩ | ⟨rfl, hpos, hle, hr, -, pool, hpool, rfl⟩ |
      ⟨rfl, hpos, hle, hr, -, b, pool, hacq, rfl⟩
  · exact h
  · rw [freedPool, hkeep rfl hpos hle] at hpool
    exact h.frame hpool (fun i => ⟨rfl, rfl, rfl⟩) fun r j => ⟨rfl, rfl⟩
  rw [recordAck]
  generalize hpackage : p.ackPackage sessionId seqNum receiver ack = package at hacq
  have hself : (p.afterSendACK sessionId receiver b pool package).ackSessionTable receiver.toNat
      (sessionId - 1) =
      { sessionId := sessionId, sessionStatus := .ACK_SESSION_USING, memoryBlockPtr := some b } := by
    simp only [afterSendACK, setAck, Function.update_self]
  have hother : ∀ r j, ¬ (r = receiver.toNat ∧ j = sessionId - 1) →
      (p.afterSendACK sessionId receiver b pool package).ackSessionTable r j =
        p.ackSessionTable r j := by
    intro r j hne
    simp only [afterSendACK, setAck]
    by_cases hr : r = receiver.toNat
    · subst hr
      rw [Function.update_self, Function.update_of_ne (by tauto)]
    · rw [Function.update_of_ne hr]
  refine ⟨hacq.sized, (h.freed receiver.toNat (sessionId - 1)).acquire
    (o := .ack receiver.toNat (sessionId - 1)) (Function.update_self ..) hacq.fresh
    (congrArg ACKSession.memoryBlockPtr hself) ?_ hacq.live_iff hacq.contents ?_
    (fun o hne => Function.update_of_ne hne ..), h.cmd_id, ?_, h.cmd_block, ?_, ?_⟩
  · intro o hne
    rw [Function.update_of_ne hne]
    cases o with
    | cmd i => rfl
    | ack r j =>
        exact congrArg ACKSession.memoryBlockPtr (hother r j fun heq => hne (by rw [heq.1, heq.2]))
  · rw [Function.update_self]
    exact hacq.stored
  · intro r j
    by_cases heq : r = receiver.toNat ∧ j = sessionId - 1
    · rw [heq.1, heq.2, hself]
      exact (Nat.sub_add_cancel hpos).symm
    · rw [hother r j heq]
      exact h.ack_id r j
  · intro r j hne
    by_cases heq : r = receiver.toNat ∧ j = sessionId - 1
    · omega
    · rw [hother r j heq] at hne
      exact h.ack_block r j hne
  · intro i hflag
    rw [Function.update_of_ne (by simp)]
    exact h.cmd_package i hflag

/-- A frame given to `ContainerHandler` keeps the invariant. -/
theorem Owned.containerHandler (h : p.Owned written) {frame : List UInt8} {isFrame : Bool}
    (hhandle : p.containerHandler frame = some (p', isFrame)) : p'.Owned written := by
  have hrefl := MemoryPool.Preserved.refl h.sized
  -- delivering a command changes the container and a status only
  have hprocessing : ∀ r k q, (p.processing r k).fillCommand frame true = some q →
      q.Owned written := by
    intro r k q hq
    rw [fillCommand_eq hq]
    refine h.frame hrefl (fun i => ⟨rfl, rfl, rfl⟩) fun r' j' => ?_
    simp only [processing, setAck]
    by_cases hr : r' = r
    · subst hr
      by_cases hj : j' = k - 1
      · subst hj
        simp
      · simp [hj]
    · simp [hr]
  have hfill : ∀ needAck q, p.fillCommand frame needAck = some q → q.Owned written := by
    intro needAck q hq
    rw [fillCommand_eq hq]
    exact h.frame hrefl (fun i => ⟨rfl, rfl, rfl⟩) fun r j => ⟨rfl, rfl⟩
  rw [containerHandler_eq] at hhandle
  split at hhandle
  · rcases handleAck_cases hhandle with
      ⟨-, rfl⟩ | ⟨-, k, b, q, -, -, -, hflag, hb, -, hq, rfl⟩
    · exact h
    · have hqOwned : q.Owned written := by
        rw [fillAck_eq hq]
        exact h.frame hrefl (fun i => ⟨rfl, rfl, rfl⟩) fun r j => ⟨rfl, rfl⟩
      exact hqOwned.freeCMDSession (by rw [fillAck_eq hq]; exact hflag)
  · rcases handleCommand_cases hhandle with
      ⟨-, -, hq⟩ | ⟨k, r, -, -, -, -, -,
        ⟨-, -, rfl⟩ | ⟨-, -, hq⟩ | ⟨b, -, -, ⟨-, -, rfl⟩ | ⟨-, -, hq⟩⟩⟩
    · exact hfill false p' hq
    · exact h
    · split at hq
      · exact hprocessing r k p' hq
      · exact hfill true p' hq
    · exact h.frame hrefl (fun i => ⟨rfl, rfl, rfl⟩) fun r j => ⟨rfl, rfl⟩
    · exact hprocessing r k p' hq

/-- The time-out check keeps the invariant. -/
theorem Owned.autoRepeatSendCheck (h : p.Owned written) {i : Nat} {now : Int}
    (hretry : p.autoRepeatSendCheck i now = some p') : p'.Owned written := by
  rcases autoRepeatSendCheck_cases hretry with ⟨-, rfl⟩ | ⟨-, hflag, rfl | ⟨b, sent, -, rfl⟩⟩
  · exact h
  · exact h.freeCMDSession hflag
  · refine h.frame (MemoryPool.Preserved.refl h.sized) (fun i' => ?_) fun r j => ⟨rfl, rfl⟩
    simp only [setCmd, deviceSend]
    by_cases hii : i' = i
    · subst hii
      simp
    · simp [hii]

/-- Every call keeps the invariant when it is servable. -/
theorem sessionStep_owned {s s' : Protocol × (Owner → List UInt8)} {e : SessionEvent}
    (h : s.1.Owned s.2) (hok : Servable s e) (hstep : sessionStep s e = some s') :
    s'.1.Owned s'.2 := by
  cases e with
  | sendCMD cmdSet cmdId receiver data mode ackTimeout retryTime now =>
      simp only [sessionStep] at hstep
      split at hstep
      case isFalse => cases hstep
      case isTrue =>
        rw [Option.map_eq_some_iff] at hstep
        obtain ⟨⟨q, out⟩, hsend, rfl⟩ := hstep
        exact h.sendCMD hsend
  | sendACK sessionId seqNum receiver ack =>
      simp only [sessionStep] at hstep
      split at hstep
      case isFalse => cases hstep
      case isTrue hlen =>
        rw [Option.map_eq_some_iff] at hstep
        obtain ⟨⟨q, ok⟩, hsend, rfl⟩ := hstep
        have hkeep : ok = false → 0 < sessionId → sessionId ≤ 31 →
            (s.1.ackSessionTable receiver.toNat (sessionId - 1)).memoryBlockPtr = none := by
          intro hfail hpos hle
          rcases sendACK_cases h.sized h.ack_id hsend with
            ⟨-, -, hbad⟩ | ⟨-, -, -, -, hnone, -⟩ | ⟨rfl, -⟩
          · omega
          · cases hptr : (s.1.ackSessionTable receiver.toNat (sessionId - 1)).memoryBlockPtr with
            | none => rfl
            | some b =>
                obtain ⟨hmax, hroom⟩ := hok hpos hle b hptr
                have hsome : ((s.1.memoryPool.freeMemory (some b)).allocMemory
                    (ackPackLength ack)).2.isSome = true :=
                  MemoryPool.allocMemory_after_free h.sized
                    (h.ack_live receiver.toNat (sessionId - 1) b hptr) hmax hroom
                rw [freedPool, hptr] at hnone
                simp only [hnone, Option.isSome_none, Bool.false_eq_true] at hsome
          · cases hfail
        exact h.sendACK hsend hkeep
  | receive frame =>
      simp only [sessionStep, Option.map_eq_some_iff] at hstep
      obtain ⟨⟨q, isFrame⟩, hhandle, rfl⟩ := hstep
      exact h.containerHandler hhandle
  | retry i now =>
      simp only [sessionStep] at hstep
      split at hstep
      case isFalse => cases hstep
      case isTrue =>
        rw [Option.map_eq_some_iff] at hstep
        obtain ⟨q, hretry, rfl⟩ := hstep
        exact h.autoRepeatSendCheck hretry

/-! ## What holds in every run -/

/-- What the defect of `AllocACKSession` cannot break: a valid pool and the session ids. -/
structure WellFormed (p : Protocol) : Prop where
  sized : p.memoryPool.Sized
  cmd_id : ∀ i, (p.cmdSessionTable i).sessionId = i
  ack_id : ∀ r j, (p.ackSessionTable r j).sessionId = j + 1

theorem WellFormed.frame (h : p.WellFormed) (hpool : p'.memoryPool.Sized)
    (hcmd : ∀ i, (p'.cmdSessionTable i).sessionId = (p.cmdSessionTable i).sessionId)
    (hack : ∀ r j, (p'.ackSessionTable r j).sessionId = (p.ackSessionTable r j).sessionId) :
    p'.WellFormed :=
  ⟨hpool, fun i => (hcmd i).trans (h.cmd_id i), fun r j => (hack r j).trans (h.ack_id r j)⟩

theorem setCmd_sessionId (session : CMDSession) (i i' : Nat)
    (hid : session.sessionId = (p.cmdSessionTable i).sessionId) :
    (Function.update p.cmdSessionTable i session i').sessionId =
      (p.cmdSessionTable i').sessionId := by
  by_cases hii : i' = i
  · subst hii
    rw [Function.update_self, hid]
  · rw [Function.update_of_ne hii]

theorem setAck_sessionId (session : ACKSession) (r j r' j' : Nat)
    (hid : session.sessionId = (p.ackSessionTable r j).sessionId) :
    ((p.setAck r j session).ackSessionTable r' j').sessionId =
      (p.ackSessionTable r' j').sessionId := by
  simp only [setAck]
  by_cases hr : r' = r
  · subst hr
    by_cases hj : j' = j
    · subst hj
      rw [Function.update_self, Function.update_self, hid]
    · rw [Function.update_self, Function.update_of_ne hj]
  · rw [Function.update_of_ne hr]

theorem WellFormed.freeCMDSession (h : p.WellFormed) (i : Nat) :
    (p.freeCMDSession i).WellFormed := by
  rw [Protocol.freeCMDSession]
  split
  · exact h.frame (MemoryPool.freeMemory_sized h.sized _)
      (fun i' => setCmd_sessionId _ i i' rfl) fun r j => rfl
  · exact h

theorem WellFormed.sendCMD (h : p.WellFormed) {cmdSet cmdId receiver : UInt8} {data : List UInt8}
    {mode : CMDSessionMode} {ackTimeout retryTime now : Int} {out : Option MessageHeader}
    (hsend : p.sendCMD cmdSet cmdId receiver data mode ackTimeout retryTime now =
      some (p', out)) : p'.WellFormed := by
  rcases sendCMD_cases h.sized h.cmd_id hsend with
    ⟨-, pool, hpool, rfl⟩ | ⟨i, b, pool, -, hacq, -, rfl⟩
  · exact h.frame hpool.sized (fun i => rfl) fun r j => rfl
  · refine h.frame ?_ (fun i' => setCmd_sessionId _ i i' ?_) fun r j => rfl
    · simp only [afterSendCMD]
      split
      · exact MemoryPool.freeMemory_sized hacq.sized _
      · exact hacq.sized
    · split <;> rfl

theorem WellFormed.sendACK (h : p.WellFormed) {sessionId : Nat} {seqNum : UInt16}
    {receiver : UInt8} {ack : List UInt8} {ok : Bool}
    (hsend : p.sendACK sessionId seqNum receiver ack = some (p', ok)) : p'.WellFormed := by
  rcases sendACK_cases h.sized h.ack_id hsend with
    ⟨-, rfl, -⟩ | ⟨-, -, -, -, -, pool, hpool, rfl⟩ | ⟨-, hpos, -, -, -, b, pool, hacq, rfl⟩
  · exact h
  · exact h.frame hpool.sized (fun i => rfl) fun r j => rfl
  · refine h.frame hacq.sized (fun i => rfl) fun r j => setAck_sessionId _ _ _ r j ?_
    rw [h.ack_id]
    exact (Nat.sub_add_cancel hpos).symm

theorem WellFormed.containerHandler (h : p.WellFormed) {frame : List UInt8} {isFrame : Bool}
    (hhandle : p.containerHandler frame = some (p', isFrame)) : p'.WellFormed := by
  have hfill : ∀ {q q' : Protocol} {needAck}, q.WellFormed → q.fillCommand frame needAck = some q' →
      q'.WellFormed := by
    intro q q' needAck hq heq
    rw [fillCommand_eq heq]
    exact hq.frame hq.sized (fun i => rfl) fun r j => rfl
  have hprocessing : ∀ r k, (p.processing r k).WellFormed := fun r k =>
    h.frame h.sized (fun i => rfl) fun r' j' => setAck_sessionId _ r (k - 1) r' j' rfl
  rw [containerHandler_eq] at hhandle
  split at hhandle
  · rcases handleAck_cases hhandle with ⟨-, rfl⟩ | ⟨-, k, b, q, -, -, -, -, -, -, hq, rfl⟩
    · exact h
    · have hqWell : q.WellFormed := by
        rw [fillAck_eq hq]
        exact h.frame h.sized (fun i => rfl) fun r j => rfl
      exact hqWell.freeCMDSession k
  · rcases handleCommand_cases hhandle with
      ⟨-, -, hq⟩ | ⟨k, r, -, -, -, -, -,
        ⟨-, -, rfl⟩ | ⟨-, -, hq⟩ | ⟨b, -, -, ⟨-, -, rfl⟩ | ⟨-, -, hq⟩⟩⟩
    · exact hfill h hq
    · exact h
    · split at hq
      · exact hfill (hprocessing r k) hq
      · exact hfill h hq
    · exact h.frame h.sized (fun i => rfl) fun r j => rfl
    · exact hfill (hprocessing r k) hq

theorem WellFormed.autoRepeatSendCheck (h : p.WellFormed) {i : Nat} {now : Int}
    (hretry : p.autoRepeatSendCheck i now = some p') : p'.WellFormed := by
  rcases autoRepeatSendCheck_cases hretry with ⟨-, rfl⟩ | ⟨-, -, rfl | ⟨b, sent, -, rfl⟩⟩
  · exact h
  · exact h.freeCMDSession i
  · exact h.frame h.sized (fun i' => setCmd_sessionId _ i i' rfl) fun r j => rfl

/-- Every state of every run from `Init` is well formed. -/
theorem run_wellFormed (p : Protocol) (table : Nat → MemoryBlock) (memory : ByteMemory)
    (written : Owner → List UInt8) (events : List SessionEvent)
    {s : Protocol × (Owner → List UInt8)}
    (hrun : StateMachine.run sessionStep (p.init table memory, written) events = some s) :
    s.1.WellFormed := by
  refine StateMachine.run_invariant (P := fun s => s.1.WellFormed) ?_ ?_ hrun
  · intro s e s' h hstep
    cases e with
    | sendCMD cmdSet cmdId receiver data mode ackTimeout retryTime now =>
        simp only [sessionStep] at hstep
        split at hstep
        case isFalse => cases hstep
        case isTrue =>
          rw [Option.map_eq_some_iff] at hstep
          obtain ⟨⟨q, out⟩, hsend, rfl⟩ := hstep
          exact h.sendCMD hsend
    | sendACK sessionId seqNum receiver ack =>
        simp only [sessionStep] at hstep
        split at hstep
        case isFalse => cases hstep
        case isTrue =>
          rw [Option.map_eq_some_iff] at hstep
          obtain ⟨⟨q, ok⟩, hsend, rfl⟩ := hstep
          exact h.sendACK hsend
    | receive frame =>
        simp only [sessionStep, Option.map_eq_some_iff] at hstep
        obtain ⟨⟨q, isFrame⟩, hhandle, rfl⟩ := hstep
        exact h.containerHandler hhandle
    | retry i now =>
        simp only [sessionStep] at hstep
        split at hstep
        case isFalse => cases hstep
        case isTrue =>
          rw [Option.map_eq_some_iff] at hstep
          obtain ⟨q, hretry, rfl⟩ := hstep
          exact h.autoRepeatSendCheck hretry
  · have h := init_owned p table memory written
    exact ⟨h.sized, h.cmd_id, h.ack_id⟩

/-! ## Exclusive ownership in every run -/

/-- In every run from `Init` whose `SendACK` calls on a session that holds a block can be served,
every state has exclusive block ownership. -/
theorem run_ownership (p : Protocol) (table : Nat → MemoryBlock) (memory : ByteMemory)
    (written : Owner → List UInt8) (events : List SessionEvent)
    (s : Protocol × (Owner → List UInt8))
    (hok : StateMachine.Along sessionStep Servable (p.init table memory, written) events)
    (hrun : StateMachine.run sessionStep (p.init table memory, written) events = some s) :
    s.1.ExclusiveOwnership s.2 := by
  have hinv : s.1.Owned s.2 :=
    StateMachine.run_invariant_of (P := fun s => s.1.Owned s.2) (Q := Servable)
      (fun _ _ _ h hok hstep => sessionStep_owned h hok hstep) (init_owned p table memory written)
      hok hrun
  exact hinv.exclusiveOwnership

/-- Two acknowledgements on one session, a command that stays in use, and its retransmission. -/
theorem run_ownership_resend :
    ∃ s, StateMachine.run sessionStep ((default : Protocol).init default default, default)
        [.sendACK 2 7 0 [1, 2], .sendCMD 1 2 0 [3] .CMD_SESSION_AUTO 50 5 0,
          .sendACK 2 8 0 [4], .retry 2 60000000] = some s ∧ s.1.ExclusiveOwnership s.2 := by
  have hsome : (StateMachine.run sessionStep ((default : Protocol).init default default, default)
      [.sendACK 2 7 0 [1, 2], .sendCMD 1 2 0 [3] .CMD_SESSION_AUTO 50 5 0,
        .sendACK 2 8 0 [4], .retry 2 60000000]).isSome = true := by decide +kernel
  obtain ⟨s, hs⟩ := Option.isSome_iff_exists.mp hsome
  exact ⟨s, hs, run_ownership _ _ _ _ _ s (by decide +kernel) hs⟩

/-- Six acknowledgements: the last one asks for more than is left after its old block has been
freed, so the session keeps a pointer to a block that is not in use. -/
theorem sendACK_keeps_freed_block :
    ¬ ∀ (p : Protocol) (table : Nat → MemoryBlock) (memory : ByteMemory)
      (written : Owner → List UInt8) (events : List SessionEvent)
      (s : Protocol × (Owner → List UInt8)),
      StateMachine.run sessionStep (p.init table memory, written) events = some s →
        s.1.ExclusiveOwnership s.2 := by
  intro hall
  have hrun : (StateMachine.run sessionStep ((default : Protocol).init default default, default)
      [.sendACK 2 0 0 [1], .sendACK 3 0 0 (List.replicate 1000 0),
        .sendACK 4 0 0 (List.replicate 1000 0), .sendACK 5 0 0 (List.replicate 1000 0),
        .sendACK 6 0 0 (List.replicate 1000 0), .sendACK 2 1 0 (List.replicate 1000 0)]).map
      (fun s => (s.1.ackSessionTable 0 1).memoryBlockPtr.map fun b =>
        (s.1.memoryPool.memoryTable b).usageFlag) = some (some false) := by decide +kernel
  rw [Option.map_eq_some_iff] at hrun
  obtain ⟨s, hs, hfreed⟩ := hrun
  rw [Option.map_eq_some_iff] at hfreed
  obtain ⟨b, hb, hunused⟩ := hfreed
  have hown := hall _ _ _ _ _ s hs
  obtain ⟨b', hb', hlive⟩ := hown.block_used (.ack 0 1)
    ⟨by decide, by decide, by rw [hb]; simp⟩
  have hbb : b = b' := Option.some.inj (hb.symm.trans hb')
  rw [← hbb] at hlive
  rw [hlive.2.2] at hunused
  cases hunused

end Protocol

end RoboRTS.Sdk
