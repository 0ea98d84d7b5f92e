import RoboRTS.Lib.RotatingQueue
import RoboRTS.Lib.StateMachine
import RoboRTS.Sdk.CircularBuffer
import RoboRTS.Sdk.Protocol.Defs

/-!
# Received containers and their consumers

`ReceivePool` buffers the containers that `Receive` returns, one circular buffer for each command
set and id; `Take` hands the front one to a consumer whose `CommandInfo` it matches, and puts it
back behind the others when it does not match (`take_contents`). `run_take` says what this means
for the consumers in any interleaving: no container is lost or taken twice, and a consumer gets
its containers in the order of arrival as long as none of them is put behind another.

Both functions hold `mutex_`, so each is one step. A container is buffered with a tag that the
code does not have and does not look at.
-/

namespace RoboRTS.Sdk

/-- The capacity of the buffers that `ReceivePool` creates. -/
def POOL_CAPACITY : Nat := 100

/-- `buffer_pool_map_`. -/
abbrev BufferPool (τ : Type) : Type :=
  UInt8 × UInt8 → Option (CircularBuffer (RecvContainer × τ) POOL_CAPACITY)

/-- The key under which a container is buffered. -/
def RecvContainer.key (container : RecvContainer) : UInt8 × UInt8 :=
  (container.commandInfo.cmdSet, container.commandInfo.cmdId)

/-- The key a consumer asks for. -/
def CommandInfo.key (info : CommandInfo) : UInt8 × UInt8 :=
  (info.cmdSet, info.cmdId)

/-- `mismatch` in `Take`. -/
def mismatch (container : RecvContainer) (info : CommandInfo) : Bool :=
  container.commandInfo.needAck != info.needAck ||
    (if container.messageHeader.isAck then
      container.commandInfo.receiver != info.sender || container.commandInfo.sender != info.receiver
    else
      container.commandInfo.receiver != info.receiver ||
        container.commandInfo.sender != info.sender) ||
    container.commandInfo.length != info.length

/-- What a successful `Take` copies out; the copy of the header is longer than the header, and what
it writes behind it is left out. -/
structure Taken (τ : Type) where
  messageHeader : MessageHeader
  messageData : List UInt8
  tag : τ

namespace BufferPool

variable {τ : Type}

/-- The map before the first container. -/
def empty : BufferPool τ := fun _ => none

/-- The containers buffered under a key, the oldest first. -/
def contents (pool : BufferPool τ) (key : UInt8 × UInt8) : List (RecvContainer × τ) :=
  match pool key with
  | none => []
  | some buffer => buffer.contents

/-- The part of `ReceivePool` that buffers a container; `fresh` is what a new buffer contains. -/
def receivePool (fresh : Nat → RecvContainer × τ) (pool : BufferPool τ)
    (container : RecvContainer × τ) : BufferPool τ :=
  let buffer := (pool container.1.key).getD (CircularBuffer.create fresh (by decide))
  Function.update pool container.1.key (some (buffer.push container))

/-- `Take`. -/
def take (pool : BufferPool τ) (info : CommandInfo) : BufferPool τ × Option (Taken τ) :=
  match pool info.key with
  | none => (pool, none)
  | some buffer =>
      match buffer.pop with
      | none => (pool, none)
      | some (container, buffer) =>
          if mismatch container.1 info then
            (Function.update pool info.key (some (buffer.push container)), none)
          else
            (Function.update pool info.key (some buffer),
              some
                { messageHeader := container.1.messageHeader
                  messageData := container.1.messageData.read 0 info.length.toNat
                  tag := container.2 })

/-! ## The buffers as queues -/

@[simp] theorem contents_empty (key : UInt8 × UInt8) : (empty : BufferPool τ).contents key = [] :=
  rfl

theorem contents_update_self (pool : BufferPool τ) (key : UInt8 × UInt8)
    (buffer : CircularBuffer (RecvContainer × τ) POOL_CAPACITY) :
    contents (Function.update pool key (some buffer)) key = buffer.contents := by
  simp [contents]

theorem contents_update_of_ne (pool : BufferPool τ) {key key' : UInt8 × UInt8} (hne : key' ≠ key)
    (buffer : CircularBuffer (RecvContainer × τ) POOL_CAPACITY) :
    contents (Function.update pool key (some buffer)) key' = pool.contents key' := by
  simp [contents, hne]

/-- A container goes to the back of the buffer under its key, if there is room. -/
theorem contents_receivePool (fresh : Nat → RecvContainer × τ) (pool : BufferPool τ)
    (container : RecvContainer × τ) (key : UInt8 × UInt8)
    (hroom : (pool.contents container.1.key).length < POOL_CAPACITY) :
    (receivePool fresh pool container).contents key =
      pool.contents key ++ if container.1.key = key then [container] else [] := by
  by_cases hkey : container.1.key = key
  · subst hkey
    rw [receivePool, contents_update_self, if_pos rfl]
    rw [contents] at hroom ⊢
    cases hbuffer : pool container.1.key with
    | none =>
        rw [Option.getD_none, CircularBuffer.contents_push _ _ (by exact Nat.zero_lt_succ 99),
          CircularBuffer.contents_create]
    | some buffer =>
        rw [hbuffer] at hroom
        rw [Option.getD_some, CircularBuffer.contents_push _ _
          (by rwa [← CircularBuffer.length_contents])]
  · rw [receivePool, contents_update_of_ne _ (Ne.symm hkey), if_neg hkey, List.append_nil]

/-- What the consumer `info` wants of the containers under its key. -/
def wants (info : CommandInfo) (container : RecvContainer × τ) : Bool :=
  !mismatch container.1 info

/-- What `Take` reads from a container. -/
def taken (info : CommandInfo) (container : RecvContainer × τ) : Taken τ where
  messageHeader := container.1.messageHeader
  messageData := container.1.messageData.read 0 info.length.toNat
  tag := container.2

/-- The queues after the one under `key` has been replaced. -/
theorem contents_update (pool : BufferPool τ) (key key' : UInt8 × UInt8)
    (buffer : CircularBuffer (RecvContainer × τ) POOL_CAPACITY) :
    contents (Function.update pool key (some buffer)) key' =
      if key' = key then buffer.contents else pool.contents key' := by
  split
  · next hkey => rw [hkey, contents_update_self]
  · next hkey => exact contents_update_of_ne pool hkey buffer

/-- A queue that stays the same, as one that is replaced by itself. -/
theorem contents_eq_ite (pool : BufferPool τ) (key key' : UInt8 × UInt8) :
    pool.contents key' = if key' = key then pool.contents key else pool.contents key' := by
  split
  · next hkey => rw [hkey]
  · rfl

/-- `Take` serves the consumer from the queue under its key and leaves the other queues alone. -/
theorem take_contents (pool : BufferPool τ) (info : CommandInfo) :
    (pool.take info).2 =
        (RotatingQueue.serve (wants info) (pool.contents info.key)).1.map (taken info) ∧
      ∀ key, (pool.take info).1.contents key =
        if key = info.key then (RotatingQueue.serve (wants info) (pool.contents info.key)).2
        else pool.contents key := by
  cases hbuffer : pool info.key with
  | none =>
      have hnil : pool.contents info.key = [] := by rw [contents, hbuffer]
      have htake : pool.take info = (pool, none) := by rw [take, hbuffer]
      rw [htake, hnil, RotatingQueue.serve_nil]
      exact ⟨rfl, fun key => by rw [← hnil]; exact pool.contents_eq_ite info.key key⟩
  | some buffer =>
      have hcontents : pool.contents info.key = buffer.contents := by rw [contents, hbuffer]
      cases hpop : buffer.pop with
      | none =>
          have hnil := hcontents.trans (CircularBuffer.pop_none hpop)
          have htake : pool.take info = (pool, none) := by
            rw [take, hbuffer]
            dsimp only
            rw [hpop]
          rw [htake, hnil, RotatingQueue.serve_nil]
          exact ⟨rfl, fun key => by rw [← hnil]; exact pool.contents_eq_ite info.key key⟩
      | some out =>
          obtain ⟨container, rest⟩ := out
          have hsplit := CircularBuffer.pop_some hpop
          have hroom : rest.getSize < POOL_CAPACITY := by
            have := buffer.getSize_le
            rw [← CircularBuffer.length_contents, hsplit, List.length_cons,
              CircularBuffer.length_contents] at this
            omega
          rw [hcontents, hsplit]
          cases hmis : mismatch container.1 info with
          | true =>
              have htake : pool.take info =
                  (Function.update pool info.key (some (rest.push container)), none) := by
                rw [take, hbuffer]
                dsimp only
                rw [hpop]
                dsimp only
                rw [if_pos hmis]
              rw [htake, RotatingQueue.serve_unwanted _ (by simp [wants, hmis])]
              refine ⟨rfl, fun key => ?_⟩
              rw [contents_update, CircularBuffer.contents_push _ _ hroom]
          | false =>
              have htake : pool.take info =
                  (Function.update pool info.key (some rest), some (taken info container)) := by
                rw [take, hbuffer]
                dsimp only
                rw [hpop]
                dsimp only
                rw [if_neg (by rw [hmis]; decide)]
                rfl
              rw [htake, RotatingQueue.serve_wanted _ (by simp [wants, hmis])]
              exact ⟨rfl, fun key => contents_update pool info.key key rest⟩

/-- A `Take` that fails loses nothing, whatever the key. -/
theorem take_none_perm {pool : BufferPool τ} {info : CommandInfo} (h : (pool.take info).2 = none)
    (key : UInt8 × UInt8) : ((pool.take info).1.contents key).Perm (pool.contents key) := by
  obtain ⟨hserve, hcontents⟩ := pool.take_contents info
  rw [hcontents]
  split
  · next hkey =>
      rw [hkey]
      exact RotatingQueue.serve_none_perm (by rwa [h, eq_comm, Option.map_eq_none_iff] at hserve)
  · exact .refl _

/-- A container matches one consumer at most. -/
theorem eq_of_wants {container : RecvContainer × τ} {info info' : CommandInfo}
    (hkey : info.key = info'.key) (h : wants info container = true)
    (h' : wants info' container = true) : info = info' := by
  obtain ⟨cmdSet, cmdId, needAck, sender, receiver, length⟩ := info
  obtain ⟨cmdSet', cmdId', needAck', sender', receiver', length'⟩ := info'
  simp only [CommandInfo.key, Prod.mk.injEq] at hkey
  simp only [wants, mismatch, Bool.not_or, Bool.and_eq_true, Bool.not_eq_true'] at h h'
  cases hack : container.1.messageHeader.isAck <;>
    simp_all

end BufferPool

/-! ## Arrivals and consumers -/

/-- The buffers with their history: the containers that have arrived, in their order, and what has
been taken by which consumer. A container is buffered with its place in the order of arrival. -/
structure PoolRun where
  pool : BufferPool Nat
  arrived : List RecvContainer
  taken : List (CommandInfo × Taken Nat)

/-- A container arrives, or a consumer calls `Take`. -/
inductive PoolEvent where
  | arrive (container : RecvContainer)
  | take (info : CommandInfo)

namespace PoolRun

/-- Nothing has arrived. -/
def start : PoolRun where
  pool := BufferPool.empty
  arrived := []
  taken := []

/-- One arrival or one call of `Take`; `fresh` is what a new buffer contains. -/
def step (fresh : Nat → RecvContainer × Nat) (s : PoolRun) : PoolEvent → Option PoolRun
  | .arrive container =>
      some { s with
        pool := BufferPool.receivePool fresh s.pool (container, s.arrived.length)
        arrived := s.arrived ++ [container] }
  | .take info =>
      some { s with
        pool := (s.pool.take info).1
        taken := s.taken ++ (s.pool.take info).2.toList.map fun out => (info, out) }

/-- An arriving container finds room in its buffer. -/
def HasRoom (s : PoolRun) : PoolEvent → Prop
  | .arrive container => (s.pool.contents container.key).length < POOL_CAPACITY
  | .take _ => True

instance (s : PoolRun) : ∀ e, Decidable (s.HasRoom e)
  | .arrive container =>
      inferInstanceAs (Decidable ((s.pool.contents container.key).length < POOL_CAPACITY))
  | .take _ => inferInstanceAs (Decidable True)

/-- The consumer `info` wants this container. -/
def wanted (info : CommandInfo) (container : RecvContainer) : Bool :=
  container.key == info.key && !mismatch container info

/-- The containers that arrived for `info`, by their place in the order of arrival. -/
def arrivals (s : PoolRun) (info : CommandInfo) : List Nat :=
  (s.arrived.zipIdx.filter fun x => wanted info x.1).map Prod.snd

/-- The containers that `info` has taken, in the order in which it took them. -/
def received (s : PoolRun) (info : CommandInfo) : List Nat :=
  (s.taken.filter fun entry => entry.1 = info).map fun entry => entry.2.tag

/-- The containers for `info` that are still buffered, in the order in which it will meet them. -/
def waiting (s : PoolRun) (info : CommandInfo) : List Nat :=
  ((s.pool.contents info.key).filter (BufferPool.wants info)).map Prod.snd

/-- A call of `Take` puts no container for `info` behind another one. -/
def KeepsOrder (info : CommandInfo) (s : PoolRun) : PoolEvent → Prop
  | .arrive _ => True
  | .take info' => info'.key = info.key →
      RotatingQueue.Overtakes (BufferPool.wants info') (BufferPool.wants info)
        (s.pool.contents info'.key) = false

instance (info : CommandInfo) (s : PoolRun) : ∀ e, Decidable (KeepsOrder info s e)
  | .arrive _ => inferInstanceAs (Decidable True)
  | .take info' => inferInstanceAs (Decidable (info'.key = info.key → _ = false))

/-- What has been taken matches the consumer and is what arrived. -/
structure Delivered (s : PoolRun) (info : CommandInfo) (out : Taken Nat) (c : RecvContainer) :
    Prop where
  arrived : s.arrived[out.tag]? = some c
  wanted : wanted info c = true
  messageHeader : out.messageHeader = c.messageHeader
  messageData : out.messageData = c.messageData.read 0 info.length.toNat

/-- The buffers hold what arrived, under its key, and what was taken has been delivered. -/
structure Consistent (s : PoolRun) : Prop where
  buffered : ∀ key, ∀ x ∈ s.pool.contents key, s.arrived[x.2]? = some x.1 ∧ x.1.key = key
  taken : ∀ entry ∈ s.taken, ∃ c, s.Delivered entry.1 entry.2 c

variable {fresh : Nat → RecvContainer × Nat} {s s' : PoolRun}

theorem start_consistent : start.Consistent :=
  ⟨by simp [start], by simp [start]⟩

/-- What a call of `Take` does to the history. -/
theorem step_take (info : CommandInfo) (hstep : step fresh s (.take info) = some s') :
    s'.arrived = s.arrived ∧
      ((s'.taken = s.taken ∧ (RotatingQueue.serve (BufferPool.wants info)
          (s.pool.contents info.key)).1 = none) ∨
        ∃ x rest, s.pool.contents info.key = x :: rest ∧ BufferPool.wants info x = true ∧
          s'.taken = s.taken ++ [(info, BufferPool.taken info x)]) ∧
      ∀ key, s'.pool.contents key =
        if key = info.key then
          (RotatingQueue.serve (BufferPool.wants info) (s.pool.contents info.key)).2
        else s.pool.contents key := by
  obtain ⟨hout, hcontents⟩ := s.pool.take_contents info
  cases hstep
  refine ⟨rfl, ?_, hcontents⟩
  cases hserve : (RotatingQueue.serve (BufferPool.wants info) (s.pool.contents info.key)).1 with
  | none =>
      rw [hserve] at hout
      left
      simp [hout]
  | some x =>
      rw [hserve] at hout
      right
      obtain ⟨hsplit, hwant⟩ := RotatingQueue.serve_some hserve
      exact ⟨x, _, hsplit, hwant, by simp [hout]⟩

/-- Served or not, what is in the queues was there before. -/
theorem mem_of_step_take {info : CommandInfo} (hstep : step fresh s (.take info) = some s')
    {key : UInt8 × UInt8} {x : RecvContainer × Nat} (hx : x ∈ s'.pool.contents key) :
    x ∈ s.pool.contents key := by
  obtain ⟨-, hcases, hcontents⟩ := step_take info hstep
  rw [hcontents] at hx
  split at hx
  · next hkey =>
      rw [hkey]
      rcases hcases with ⟨-, hnone⟩ | ⟨y, rest, hsplit, hwant, -⟩
      · exact (RotatingQueue.serve_none_perm hnone).mem_iff.mp hx
      · rw [hsplit, RotatingQueue.serve_wanted rest hwant] at hx
        rw [hsplit]
        exact List.mem_cons_of_mem _ hx
  · exact hx

theorem Delivered.mono {info : CommandInfo} {out : Taken Nat} {c : RecvContainer}
    (h : s.Delivered info out c) (more : List RecvContainer)
    (harrived : s'.arrived = s.arrived ++ more) : s'.Delivered info out c := by
  refine ⟨?_, h.wanted, h.messageHeader, h.messageData⟩
  rw [harrived, List.getElem?_append_left (List.getElem?_eq_some_iff.mp h.arrived).1]
  exact h.arrived

theorem step_consistent {e : PoolEvent} (hs : s.Consistent) (hroom : s.HasRoom e)
    (hstep : step fresh s e = some s') : s'.Consistent := by
  cases e with
  | arrive container =>
      cases hstep
      have hmono : ∀ (i : Nat) c, s.arrived[i]? = some c →
          (s.arrived ++ [container])[i]? = some c := by
        intro i c hi
        rw [List.getElem?_append_left (List.getElem?_eq_some_iff.mp hi).1]
        exact hi
      refine ⟨fun key x hx => ?_, fun entry hentry => ?_⟩
      · rw [BufferPool.contents_receivePool _ _ (container, s.arrived.length) _ hroom] at hx
        rcases List.mem_append.mp hx with hx | hx
        · obtain ⟨harrived, hkey⟩ := hs.buffered key x hx
          exact ⟨hmono _ _ harrived, hkey⟩
        · split at hx
          · next hkey =>
              rw [List.mem_singleton.mp hx]
              exact ⟨by simp, hkey⟩
          · cases hx
      · obtain ⟨c, hc⟩ := hs.taken entry hentry
        exact ⟨c, hc.mono [container] rfl⟩
  | take info =>
      obtain ⟨harrived, hcases, -⟩ := step_take info hstep
      refine ⟨fun key x hx => ?_, fun entry hentry => ?_⟩
      · rw [harrived]
        exact hs.buffered key x (mem_of_step_take hstep hx)
      · have hold : ∀ entry ∈ s.taken, ∃ c, s'.Delivered entry.1 entry.2 c := fun entry hentry => by
          obtain ⟨c, hc⟩ := hs.taken entry hentry
          exact ⟨c, hc.mono [] (by rw [harrived, List.append_nil])⟩
        rcases hcases with ⟨hsame, -⟩ | ⟨x, rest, hsplit, hwant, htaken⟩
        · rw [hsame] at hentry
          exact hold entry hentry
        · rw [htaken] at hentry
          rcases List.mem_append.mp hentry with hentry | hentry
          · exact hold entry hentry
          · rw [List.mem_singleton.mp hentry]
            obtain ⟨hx, hkey⟩ := hs.buffered info.key x (by rw [hsplit]; exact List.mem_cons_self)
            refine ⟨x.1, by rw [harrived]; exact hx, ?_, rfl, rfl⟩
            rw [wanted, hkey, beq_self_eq_true, Bool.true_and]
            exact hwant

/-- An arrival goes to the end of the queue of the consumer it is for. -/
theorem ledger_arrive {container : RecvContainer} (hroom : s.HasRoom (.arrive container))
    (hstep : step fresh s (.arrive container) = some s') (info : CommandInfo) :
    ∃ new, s'.received info ++ s'.waiting info = s.received info ++ s.waiting info ++ new ∧
      s'.arrivals info = s.arrivals info ++ new := by
  cases hstep
  refine ⟨if wanted info container then [s.arrived.length] else [], ?_, ?_⟩
  · rw [List.append_assoc, waiting, waiting,
      BufferPool.contents_receivePool _ _ (container, s.arrived.length) _ hroom,
      List.filter_append, List.map_append]
    refine congrArg (_ ++ ·) (congrArg (_ ++ ·) ?_)
    by_cases hkey : container.key = info.key
    · cases hmis : mismatch container info <;> simp [hkey, hmis, wanted, BufferPool.wants]
    · simp [hkey, wanted]
  · simp only [arrivals, List.zipIdx_append, List.filter_append, List.map_append]
    cases hw : wanted info container <;> simp [hw]

/-- What a consumer has taken and what is there for it, after a call of `Take`. -/
theorem ledger_take {info' : CommandInfo} (hstep : step fresh s (.take info') = some s')
    (info : CommandInfo) :
    (s'.received info ++ s'.waiting info).Perm (s.received info ++ s.waiting info) ∧
      (s.KeepsOrder info (.take info') →
        s'.received info ++ s'.waiting info = s.received info ++ s.waiting info) := by
  obtain ⟨-, hcases, hcontents⟩ := step_take info' hstep
  by_cases hkey : info'.key = info.key
  · have hwaiting := hcontents info.key
    rw [if_pos hkey.symm] at hwaiting
    rcases hcases with ⟨hsame, hnone⟩ | ⟨x, rest, hsplit, hwant, htaken⟩
    · have hreceived : s'.received info = s.received info := by rw [received, hsame, received]
      rw [hreceived, waiting, waiting, hwaiting, ← hkey]
      constructor
      · exact ((RotatingQueue.serve_none_perm hnone).filter _).map _ |>.append_left _
      · intro hover
        rw [RotatingQueue.serve_none_filter hnone (hover hkey)]
    · suffices heq : s'.received info ++ s'.waiting info = s.received info ++ s.waiting info from
        ⟨.of_eq heq, fun _ => heq⟩
      rw [received, received, waiting, waiting, hwaiting, htaken, ← hkey, hsplit,
        RotatingQueue.serve_wanted rest hwant, List.filter_append, List.map_append,
        List.append_assoc]
      refine congrArg (_ ++ ·) ?_
      by_cases hinfo : info' = info
      · subst hinfo
        simp [hwant, BufferPool.taken]
      · have hother : BufferPool.wants info x = false := by
          rw [← Bool.not_eq_true]
          exact fun h => hinfo (BufferPool.eq_of_wants hkey hwant h)
        simp [hinfo, hother]
  · have hwaiting : s'.waiting info = s.waiting info := by
      rw [waiting, waiting, hcontents, if_neg (Ne.symm hkey)]
    have hreceived : s'.received info = s.received info := by
      rcases hcases with ⟨hsame, -⟩ | ⟨x, rest, -, -, htaken⟩
      · rw [received, hsame, received]
      · have hinfo : info' ≠ info := fun h => hkey (by rw [h])
        simp [received, htaken, hinfo]
    rw [hwaiting, hreceived]
    exact ⟨.refl _, fun _ => rfl⟩

/-- Nothing is lost and nothing is taken twice. -/
theorem step_ledger {e : PoolEvent} (hroom : s.HasRoom e) (hstep : step fresh s e = some s')
    (info : CommandInfo) (hperm : (s.received info ++ s.waiting info).Perm (s.arrivals info)) :
    (s'.received info ++ s'.waiting info).Perm (s'.arrivals info) := by
  cases e with
  | arrive container =>
      obtain ⟨new, hledger, harrivals⟩ := ledger_arrive hroom hstep info
      rw [hledger, harrivals]
      exact hperm.append_right new
  | take info' =>
      have harrivals : s'.arrivals info = s.arrivals info := by
        rw [arrivals, (step_take info' hstep).1, arrivals]
      rw [harrivals]
      exact (ledger_take hstep info).1.trans hperm

/-- The order is kept by a step that puts no container for the consumer behind another one. -/
theorem step_order {e : PoolEvent} {info : CommandInfo} (hroom : s.HasRoom e)
    (horder : s.KeepsOrder info e) (hstep : step fresh s e = some s')
    (heq : s.received info ++ s.waiting info = s.arrivals info) :
    s'.received info ++ s'.waiting info = s'.arrivals info := by
  cases e with
  | arrive container =>
      obtain ⟨new, hledger, harrivals⟩ := ledger_arrive hroom hstep info
      rw [hledger, harrivals, heq]
  | take info' =>
      have harrivals : s'.arrivals info = s.arrivals info := by
        rw [arrivals, (step_take info' hstep).1, arrivals]
      rw [harrivals, (ledger_take hstep info).2 horder, heq]

/-- In every run without overflow: a `Take` that fails leaves the same containers under every key;
what a consumer takes matches it and is what arrived; what a consumer has taken and what waits for
it are the containers that arrived for it, none lost and none twice, and in the order of arrival
if no `Take` of the run has put a container for it behind another one. -/
theorem run_take (fresh : Nat → RecvContainer × Nat) (events : List PoolEvent) (s : PoolRun)
    (hroom : StateMachine.Along (step fresh) HasRoom start events)
    (hrun : StateMachine.run (step fresh) start events = some s) :
    (∀ info, (s.pool.take info).2 = none →
      ∀ key, ((s.pool.take info).1.contents key).Perm (s.pool.contents key)) ∧
    (∀ entry ∈ s.taken, ∃ c, s.Delivered entry.1 entry.2 c) ∧
    ∀ info, (s.received info ++ s.waiting info).Perm (s.arrivals info) ∧
      (StateMachine.Along (step fresh) (KeepsOrder info) start events →
        s.received info ++ s.waiting info = s.arrivals info) := by
  have hconsistent : s.Consistent :=
    StateMachine.run_invariant_of (fun _ _ _ hs hok hstep => step_consistent hs hok hstep)
      start_consistent hroom hrun
  refine ⟨fun _ hnone key => BufferPool.take_none_perm hnone key, hconsistent.taken,
    fun info => ⟨?_, fun horder => ?_⟩⟩
  · exact StateMachine.run_invariant_of
      (P := fun s => (s.received info ++ s.waiting info).Perm (s.arrivals info))
      (fun _ _ _ hs hok hstep => step_ledger hok hstep info hs) (.refl _) hroom hrun
  · exact StateMachine.run_invariant_of
      (P := fun s => s.received info ++ s.waiting info = s.arrivals info)
      (fun _ _ _ hs hok hstep => step_order hok.1 hok.2 hstep hs) rfl (hroom.and horder) hrun

/-- A command from `sender` with one byte of payload, and the consumer that waits for it. -/
def oneByte (sender : UInt8) : RecvContainer where
  commandInfo :=
    { cmdSet := 1, cmdId := 2, needAck := false, sender := sender, receiver := 0, length := 1 }
  messageHeader := { seqNum := 0, sessionId := 0, isAck := false }
  messageData := fun _ => 0

/-- Two consumers with a container each, one of them asking too early. -/
theorem run_take_two_senders :
    ∃ s, StateMachine.run (step default) start
        [.arrive (oneByte 3), .arrive (oneByte 4), .take (oneByte 4).commandInfo,
          .take (oneByte 4).commandInfo, .take (oneByte 3).commandInfo] = some s ∧
      s.received (oneByte 3).commandInfo ++ s.waiting (oneByte 3).commandInfo =
        s.arrivals (oneByte 3).commandInfo := by
  refine ⟨_, rfl, ((run_take default [.arrive (oneByte 3), .arrive (oneByte 4),
    .take (oneByte 4).commandInfo, .take (oneByte 4).commandInfo, .take (oneByte 3).commandInfo] _
    (by decide +kernel) rfl).2.2 (oneByte 3).commandInfo).2 ?_⟩
  decide +kernel

/-- Another consumer asks in vain while two containers for the first one wait: the first one gets
the second container first. -/
theorem take_breaks_order :
    ¬ ∀ (fresh : Nat → RecvContainer × Nat) (events : List PoolEvent) (s : PoolRun),
      StateMachine.Along (step fresh) HasRoom start events →
      StateMachine.run (step fresh) start events = some s →
      ∀ info, s.received info <+: s.arrivals info := by
  intro hall
  have hswapped := hall default
    [.arrive (oneByte 3), .arrive (oneByte 3), .take (oneByte 4).commandInfo,
      .take (oneByte 3).commandInfo] _ (by decide +kernel) rfl (oneByte 3).commandInfo
  exact absurd hswapped (by decide +kernel)

end PoolRun

end RoboRTS.Sdk
