import RoboRTS.Sdk.Protocol.LinkInvariant

/-!
# Delivery and acknowledgement of commands

In every run of a link the receiver hands over each command at most once, and a command that it has
answered gets the same answer again (`run_at_most_once`). An acknowledgement that the sender
accepts was sent for a command of its session, and for the command that waits there unless an
earlier one was repeated or given up (`run_acknowledges`): the sequence numbers are not compared.
-/

namespace RoboRTS.Sdk

namespace Link

open Protocol

variable {s s' : Link} {ws wr : Owner → List UInt8}

/-! ## Runs of a link -/

/-- In every run from `Init` whose acknowledgements are served, the invariant holds and every
session is settled. -/
theorem run_linked {p q : Protocol} {table table' : Nat → MemoryBlock}
    {memory memory' : ByteMemory} {events : List LinkEvent}
    (hserved : StateMachine.Along step AckServed (start p q table table' memory memory') events)
    (hrun : StateMachine.run step (start p q table table' memory memory') events = some s) :
    (∃ ws wr, s.Linked ws wr) ∧ ∀ k, RepeatLink.Settled (s.session k) := by
  refine StateMachine.run_invariant_of
    (P := fun s => (∃ ws wr, s.Linked ws wr) ∧ ∀ k, RepeatLink.Settled (s.session k)) ?_ ?_ hserved hrun
  · rintro s e s' ⟨⟨ws, wr, hlinked⟩, hsettled⟩ hok hstep
    obtain ⟨hlinked', hsession⟩ := step_linked hlinked hok hstep
    exact ⟨hlinked', fun k => (hsettled k).next (hlinked.sessions k) (hsession k)⟩
  · exact ⟨⟨default, default, start_linked p q table table' memory memory' _ _⟩,
      fun k => .init rfl rfl rfl rfl rfl⟩

/-- Two objects after `Init`. -/
def initial : Link :=
  start default default default default default default

/-! ## At most once -/

/-- Labels are distinct when those of each session are. -/
theorem nodup_of_numbers {labels : List Label} (h : ∀ k, (numbers k labels).Nodup) :
    labels.Nodup := by
  induction labels with
  | nil => exact List.nodup_nil
  | cons l labels ih =>
      have hl := h l.sessionId
      rw [numbers_cons, if_pos rfl, List.nodup_cons] at hl
      refine List.nodup_cons.mpr ⟨fun hmem => hl.1 (mem_numbers.mpr hmem), ih fun k => ?_⟩
      exact (h k).sublist (numbers_sublist k (List.sublist_cons_self l labels))

theorem Linked.nodup (h : s.Linked ws wr) : s.delivered.Nodup :=
  nodup_of_numbers fun k => (h.sessions k).nodup

theorem using_of_answered {k n : Nat} (h : s.status k = .answered n) :
    (s.receiver.ackSessionTable 0 (k - 1)).sessionStatus = .ACK_SESSION_USING ∧
      s.lastDelivered k = n := by
  rw [status] at h
  split at h
  · cases h
  · cases h
  · next husing =>
      cases h
      exact ⟨husing, rfl⟩

/-- A copy of a command that was answered, when no later one of its session has been handed over:
the receiver sends the stored acknowledgement again and hands over nothing. -/
theorem Linked.deliver_copy (h : s.Linked ws wr) {t : Tagged} {rest : List Tagged} {a : Answer}
    (hcommands : s.commands = t :: rest) (ha : a ∈ s.answers) (hlabel : a.label = t.label)
    (hlast : ∀ l ∈ s.delivered, l.sessionId = t.label.sessionId → l.number ≤ t.label.number) :
    ∃ frame, a.frames = [frame] ∧
      s.deliverCommand =
        some { s with commands := rest, acks := s.acks ++ [⟨frame, t.label⟩] } := by
  have hmem : t ∈ s.commands := by rw [hcommands]; exact List.mem_cons_self
  obtain ⟨⟨hk, hk32, -, bytes, hframe, hbytes⟩, hframes⟩ := h.commands t hmem
  have hanswer : t.label.number ∈ (s.session t.label.sessionId).answers :=
    mem_numbers.mpr (List.mem_map.mpr ⟨a, ha, hlabel⟩)
  have hstatus : s.status t.label.sessionId = .answered t.label.number :=
    (h.sessions _).answered hanswer fun n hn => hlast _ (mem_numbers.mp hn) rfl
  -- the command was handed over, so its frame is one that the parser accepts
  obtain ⟨frame, hfirst, hacc⟩ := h.delivered t.label
    (mem_numbers.mp ((h.sessions _).answers _ hanswer).1)
  obtain rfl : frame = t.frame := by simpa using hfirst.symm.trans hframes
  obtain ⟨husing, hlast⟩ := using_of_answered hstatus
  obtain ⟨b, hb⟩ := Option.ne_none_iff_exists'.mp (h.answered _ _ hk hk32 hstatus).1
  obtain ⟨-, hcontents, hpkg, hnum⟩ := h.kept_seqNum hk hk32 husing hb
  rw [hlast] at hpkg hnum
  rw [← h.device, hframe] at hacc
  have hdeliver := deliver_again hacc hbytes hk hk32 husing hb hnum
  refine ⟨_, (h.answers a ha).frames (by rw [hlabel]; exact hstatus), ?_⟩
  rw [deliverCommand, hcommands]
  dsimp only
  rw [hframe, hdeliver, hpkg.deviceSend hcontents, h.receiver_out, hlast, hlabel]
  refine congrArg some ?_
  simp only [outgoing, sentAll, List.nil_append, List.map_singleton, if_false, Bool.false_eq_true]
  rw [← h.receiver_out]

/-- In every run whose acknowledgements are served, each command is handed over at most once, and
every copy that arrives after the answer to it and before a later command of its session is handed
over is answered with the very frame that `SendACK` has sent. -/
theorem run_at_most_once (p q : Protocol) (table table' : Nat → MemoryBlock)
    (memory memory' : ByteMemory) (events : List LinkEvent) (s : Link)
    (hserved : StateMachine.Along step AckServed (start p q table table' memory memory') events)
    (hrun : StateMachine.run step (start p q table table' memory memory') events = some s) :
    s.delivered.Nodup ∧
      ∀ t rest a, s.commands = t :: rest → a ∈ s.answers → a.label = t.label →
        (∀ l ∈ s.delivered, l.sessionId = t.label.sessionId → l.number ≤ t.label.number) →
        ∃ frame, a.frames = [frame] ∧ s.deliverCommand =
          some { s with commands := rest, acks := s.acks ++ [⟨frame, t.label⟩] } := by
  obtain ⟨⟨ws, wr, hlinked⟩, -⟩ := run_linked hserved hrun
  exact ⟨hlinked.nodup, fun t rest a => hlinked.deliver_copy⟩

/-- A command is issued and sent again; one copy is handed over and answered, the other arrives. -/
theorem run_at_most_once_copy :
    ∃ s : Link, StateMachine.run step initial
        [.issue 1 2 [7] 50 5 0, .retry 2 60000000, .deliverCommand, .respond 0 [9]] = some s ∧
      s.delivered.Nodup ∧ ∃ rest frame, s.deliverCommand =
        some { s with commands := rest, acks := s.acks ++ [⟨frame, ⟨2, 0⟩⟩] } := by
  have hrun : (StateMachine.run step initial
      [.issue 1 2 [7] 50 5 0, .retry 2 60000000, .deliverCommand, .respond 0 [9]]).map (fun s =>
        (s.commands.head?.map Tagged.label, s.answers.head?.map Answer.label, s.delivered)) =
      some (some ⟨2, 0⟩, some ⟨2, 0⟩, [⟨2, 0⟩]) := by decide +kernel
  obtain ⟨s, hs, heq⟩ := Option.map_eq_some_iff.mp hrun
  simp only [Prod.mk.injEq] at heq
  obtain ⟨hcommand, hanswer, hdelivered⟩ := heq
  obtain ⟨t, ht, hlabel⟩ := Option.map_eq_some_iff.mp hcommand
  obtain ⟨rest, hcommands⟩ := List.head?_eq_some_iff.mp ht
  obtain ⟨a, ha, halabel⟩ := Option.map_eq_some_iff.mp hanswer
  obtain ⟨hnodup, hcopy⟩ :=
    run_at_most_once default default default default default default _ s (by decide +kernel) hs
  obtain ⟨frame, -, hdeliver⟩ := hcopy t rest a hcommands (List.mem_of_mem_head? ha)
    (halabel.trans hlabel.symm) fun l hl _ => by
      rw [hdelivered, List.mem_singleton] at hl
      rw [hl, hlabel]
  exact ⟨s, hs, hnodup, rest, frame, by rw [hdeliver, hlabel]⟩

/-! ## Which command an acknowledgement is for -/

/-- An acknowledgement that frees a session was sent for a command of that session, and for the
command that waits there unless an earlier one was repeated or given up. -/
theorem Linked.accepted_ack (h : s.Linked ws wr) (hsettled : ∀ k, RepeatLink.Settled (s.session k))
    {t : Tagged} {rest : List Tagged} (hacks : s.acks = t :: rest) {q : Protocol}
    (hdeliver : s.sender.deliver t.frame = some (q, true)) :
    (Header.decode (ByteMemory.ofList t.frame) 0).sessionId = t.label.sessionId ∧
      (∃ a ∈ s.answers, a.label = t.label ∧ t.frame ∈ a.frames) ∧
      ((∀ l ∈ s.repeated, l.sessionId = t.label.sessionId →
          s.stored t.label.sessionId = some l.number) →
        s.stored t.label.sessionId = some t.label.number) := by
  have hmem : t ∈ s.acks := by rw [hacks]; exact List.mem_cons_self
  obtain ⟨⟨-, hk32, -, bytes, hframe, hbytes⟩, hanswer⟩ := h.acks t hmem
  rw [hframe] at hdeliver
  rcases deliver_ack hbytes hk32 hdeliver with ⟨-, hfalse⟩ | ⟨-, hk, -⟩
  · cases hfalse
  refine ⟨by rw [hframe]; exact hk, hanswer, fun honly => ?_⟩
  have hcalm := (hsettled t.label.sessionId).calm fun n hn => honly _ (mem_numbers.mp hn) rfl
  exact hcalm.acks _ (mem_numbers.mpr (List.mem_map_of_mem hmem))

/-- In every run whose acknowledgements are served, an acknowledgement that `ContainerHandler`
accepts was sent by `SendACK` for a command of the session that it frees. If no command of that
session but the stored one was repeated or given up, it was sent for the stored one. -/
theorem run_acknowledges (p q : Protocol) (table table' : Nat → MemoryBlock)
    (memory memory' : ByteMemory) (events : List LinkEvent) (s s' : Link) (t : Tagged)
    (rest : List Tagged)
    (hserved : StateMachine.Along step AckServed (start p q table table' memory memory') events)
    (hrun : StateMachine.run step (start p q table table' memory memory') events = some s)
    (hacks : s.acks = t :: rest) (hstep : s.deliverAck = some s') :
    s'.accepted = s.accepted ∨
      ∃ k, s'.accepted = s.accepted ++ [⟨k, s.stored k, t.label⟩] ∧ t.label.sessionId = k ∧
        (∃ a ∈ s.answers, a.label = t.label ∧ t.frame ∈ a.frames) ∧
        ((∀ l ∈ s.repeated, l.sessionId = k → s.stored k = some l.number) →
          s.stored k = some t.label.number) := by
  obtain ⟨⟨ws, wr, hlinked⟩, hsettled⟩ := run_linked hserved hrun
  rw [deliverAck, hacks] at hstep
  dsimp only at hstep
  rw [Option.map_eq_some_iff] at hstep
  obtain ⟨⟨p', isFrame⟩, hdeliver, rfl⟩ := hstep
  cases isFrame with
  | false => exact Or.inl rfl
  | true =>
      obtain ⟨hk, hanswer, hstored⟩ := hlinked.accepted_ack hsettled hacks hdeliver
      refine Or.inr ⟨t.label.sessionId, ?_, rfl, hanswer, hstored⟩
      dsimp only
      rw [if_pos rfl, hk]

/-- A run from `initial` up to an acknowledgement that the sender accepts. -/
theorem deliverAck_of_run {events : List LinkEvent} (l : Label)
    (accepted accepted' : List Acceptance) (stored : Option Nat)
    (hrun : (StateMachine.run step initial events).map (fun s =>
        (s.acks.head?.map Tagged.label, s.accepted, s.deliverAck.map Link.accepted, s.stored 2)) =
      some (some l, accepted, some accepted', stored)) :
    ∃ s s' t rest, StateMachine.run step initial events = some s ∧ s.acks = t :: rest ∧
      s.deliverAck = some s' ∧ t.label = l ∧ s.accepted = accepted ∧ s'.accepted = accepted' ∧
      s.stored 2 = stored := by
  obtain ⟨s, hs, heq⟩ := Option.map_eq_some_iff.mp hrun
  simp only [Prod.mk.injEq] at heq
  obtain ⟨hhead, haccepted, hdeliver, hstored⟩ := heq
  obtain ⟨t, ht, hlabel⟩ := Option.map_eq_some_iff.mp hhead
  obtain ⟨rest, hacks⟩ := List.head?_eq_some_iff.mp ht
  obtain ⟨s', hs', haccepted'⟩ := Option.map_eq_some_iff.mp hdeliver
  exact ⟨s, s', t, rest, hs, hacks, hs', hlabel, haccepted, haccepted', hstored⟩

/-- A command is issued, handed over and answered, and its acknowledgement frees session 2. -/
theorem run_acknowledges_first :
    ∃ s s' : Link, StateMachine.run step initial
        [.issue 1 2 [7] 50 5 0, .deliverCommand, .respond 0 [9]] = some s ∧
      s.deliverAck = some s' ∧ ∃ k, s'.accepted = s.accepted ++ [⟨k, s.stored k, ⟨2, 0⟩⟩] ∧
        ∃ a ∈ s.answers, a.label = ⟨2, 0⟩ := by
  obtain ⟨s, s', t, rest, hs, hacks, hs', hlabel, haccepted, haccepted', -⟩ :=
    deliverAck_of_run ⟨2, 0⟩ [] [⟨2, some 0, ⟨2, 0⟩⟩] (some 0) (by decide +kernel :
        (StateMachine.run step initial
          [.issue 1 2 [7] 50 5 0, .deliverCommand, .respond 0 [9]]).map _ = _)
  refine ⟨s, s', hs, hs', ?_⟩
  rcases run_acknowledges default default default default default default _ s s' t rest
    (by decide +kernel) hs hacks hs' with hsame | ⟨k, hnew, -, ⟨a, ha, halabel, -⟩, -⟩
  · rw [haccepted, haccepted'] at hsame
    cases hsame
  · rw [hlabel] at hnew halabel
    exact ⟨k, hnew, a, ha, halabel⟩

/-- A command is sent and sent again; it is answered, and so is the copy. The first acknowledgement
frees session 2, the second one is still on the link when the next command is issued there, and
frees the session of that command. -/
theorem deliverAck_takes_late_ack :
    ¬ ∀ (p q : Protocol) (table table' : Nat → MemoryBlock) (memory memory' : ByteMemory)
      (events : List LinkEvent) (s s' : Link) (t : Tagged) (rest : List Tagged),
      StateMachine.Along step AckServed (start p q table table' memory memory') events →
      StateMachine.run step (start p q table table' memory memory') events = some s →
      s.acks = t :: rest → s.deliverAck = some s' →
      s'.accepted = s.accepted ∨
        ∃ k, s'.accepted = s.accepted ++ [⟨k, s.stored k, t.label⟩] ∧
          s.stored k = some t.label.number := by
  intro hall
  obtain ⟨s, s', t, rest, hs, hacks, hs', hlabel, haccepted, haccepted', hstored⟩ :=
    deliverAck_of_run ⟨2, 0⟩ [⟨2, some 0, ⟨2, 0⟩⟩]
      [⟨2, some 0, ⟨2, 0⟩⟩, ⟨2, some 1, ⟨2, 0⟩⟩] (some 1)
      (by decide +kernel :
        (StateMachine.run step initial
          [.issue 1 2 [7] 50 5 0, .retry 2 60000000, .deliverCommand, .respond 0 [9],
            .deliverCommand, .deliverAck, .issue 1 2 [8] 50 5 60000000]).map _ = _)
  rcases hall default default default default default default _ s s' t rest (by decide +kernel) hs
    hacks hs' with hsame | ⟨k, hnew, hk⟩
  · rw [haccepted, haccepted'] at hsame
    cases hsame
  · rw [haccepted, haccepted'] at hnew
    simp only [List.singleton_append, List.cons.injEq, Acceptance.mk.injEq, true_and, and_true]
      at hnew
    rw [← hnew.2.1, hlabel] at hk
    cases hk

end Link

end RoboRTS.Sdk
