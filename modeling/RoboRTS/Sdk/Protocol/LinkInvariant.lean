import RoboRTS.Sdk.Protocol.Link

/-!
# Every session of a link is a session of the abstract model

`Linked` ties the frames on the link, the packages in the two memory pools and the status of the
sessions to the commands they belong to. Every step of a link keeps it (`step_linked`), and in
the view of a session every step is one of `RepeatLink` or none (`step_session`), so the
invariants of `RepeatLink` hold of every session.
-/

namespace RoboRTS.Sdk

namespace Link

open Protocol

/-! ## The invariant -/

/-- What holds of a command that is on the link, or of an acknowledgement of it. -/
structure OnLink (s : Link) (isAck : Bool) (t : Tagged) : Prop where
  two_le : 2 ≤ t.label.sessionId
  lt : t.label.sessionId < 32
  number_lt : t.label.number < s.issued.length
  carries : Carries t.frame isAck t.label.sessionId (s.seqNum t.label.number)

/-- What holds of a command in the hands of the application. -/
structure InHand (s : Link) (d : Delivery) : Prop where
  two_le : 2 ≤ d.label.sessionId
  lt : d.label.sessionId < 32
  number_lt : d.label.number < s.issued.length
  sessionId : d.header.sessionId = d.label.sessionId
  seqNum : d.header.seqNum = s.seqNum d.label.number
  status : s.status d.label.sessionId = .processing d.label.number

/-- What holds of an answer: as long as the receiver keeps it, it is in the block of its session. -/
structure Kept (s : Link) (wr : Owner → List UInt8) (a : Answer) : Prop where
  two_le : 2 ≤ a.label.sessionId
  lt : a.label.sessionId < 32
  frames : s.status a.label.sessionId = .answered a.label.number →
    a.frames = [wire (wr (.ack 0 (a.label.sessionId - 1)))]

/-- What holds of a command that is kept in a session of the sender. -/
def IsStored (s : Link) (ws : Owner → List UInt8) (k n : Nat) : Prop :=
  PackageOf (ws (.cmd k)) false k (s.seqNum n) ∧ (s.command n).frames = [wire (ws (.cmd k))]

/-- The invariant of a link, with what the sessions of both objects have written. -/
structure Linked (s : Link) (ws wr : Owner → List UInt8) : Prop where
  sender : s.sender.Owned ws
  receiver : s.receiver.Owned wr
  sender_out : s.sender.deviceOut = []
  receiver_out : s.receiver.deviceOut = []
  device : s.receiver.device = DEVICE
  stored : ∀ k n, s.stored k = some n → 2 ≤ k ∧ k < 32 ∧ n < s.issued.length ∧
    (s.sender.cmdSessionTable k).preSeqNum = (s.seqNum n).toUInt32
  package : ∀ k, (s.sender.cmdSessionTable k).usageFlag = true →
    ∃ n, s.stored k = some n ∧ s.IsStored ws k n
  answered : ∀ k n, 2 ≤ k → k < 32 → s.status k = .answered n →
    (s.receiver.ackSessionTable 0 (k - 1)).memoryBlockPtr ≠ none ∧
      PackageOf (wr (.ack 0 (k - 1))) true k (s.seqNum n) ∧
      ∃ a ∈ s.answers, a.label = ⟨k, n⟩
  commands : ∀ t ∈ s.commands, s.OnLink false t ∧ (s.command t.label.number).frames = [t.frame]
  delivered : ∀ l ∈ s.delivered,
    ∃ frame, (s.command l.number).frames = [frame] ∧ Accepted DEVICE frame
  acks : ∀ t ∈ s.acks, s.OnLink true t ∧ ∃ a ∈ s.answers, a.label = t.label ∧ t.frame ∈ a.frames
  inbox : ∀ d ∈ s.inbox, s.InHand d
  inbox_distinct : s.inbox.Pairwise fun d d' => d.label.sessionId ≠ d'.label.sessionId
  answers : ∀ a ∈ s.answers, s.Kept wr a
  sessions : ∀ k, RepeatLink.Inv (s.session k)

variable {s s' : Link} {ws wr : Owner → List UInt8}

/-- A link on which nothing has happened. -/
theorem start_linked (p q : Protocol) (table table' : Nat → MemoryBlock)
    (memory memory' : ByteMemory) (ws wr : Owner → List UInt8) :
    (start p q table table' memory memory').Linked ws wr := by
  constructor
  case sender => exact init_owned _ _ _ _
  case receiver => exact init_owned _ _ _ _
  case sender_out => rfl
  case receiver_out => rfl
  case device => rfl
  case stored => exact fun k n h => nomatch h
  case package => exact fun k h => nomatch h
  case answered => exact fun k n _ _ h => nomatch h
  case commands => exact fun t h => nomatch h
  case delivered => exact fun l h => nomatch h
  case acks => exact fun t h => nomatch h
  case inbox => exact fun d h => nomatch h
  case inbox_distinct => exact List.Pairwise.nil
  case answers => exact fun a h => nomatch h
  case sessions => exact fun k => RepeatLink.Inv.init rfl rfl rfl rfl rfl

/-! ## Numbers of a session -/

@[simp] theorem numbers_nil (k : Nat) : numbers k [] = [] := rfl

@[simp] theorem numbers_append (k : Nat) (labels labels' : List Label) :
    numbers k (labels ++ labels') = numbers k labels ++ numbers k labels' := by
  simp [numbers]

theorem numbers_cons (k : Nat) (l : Label) (labels : List Label) :
    numbers k (l :: labels) =
      if l.sessionId = k then l.number :: numbers k labels else numbers k labels := by
  by_cases h : l.sessionId = k <;> simp [numbers, h]

theorem mem_numbers {k n : Nat} {labels : List Label} :
    n ∈ numbers k labels ↔ (⟨k, n⟩ : Label) ∈ labels := by
  simp only [numbers, List.mem_map, List.mem_filter, decide_eq_true_eq]
  constructor
  · rintro ⟨l, ⟨hmem, rfl⟩, rfl⟩
    exact hmem
  · intro hmem
    exact ⟨⟨k, n⟩, ⟨hmem, rfl⟩, rfl⟩

theorem numbers_sublist (k : Nat) {labels labels' : List Label} (h : labels.Sublist labels') :
    (numbers k labels).Sublist (numbers k labels') :=
  (h.filter _).map _

@[simp] theorem label_outgoing (p : Protocol) (l : Label) :
    (p.outgoing l).map Tagged.label = List.replicate p.deviceOut.length l := by
  simp only [outgoing, List.map_map, Function.comp_def]
  exact List.map_const'

theorem numbers_replicate (k m : Nat) (l : Label) :
    numbers k (List.replicate m l) = if l.sessionId = k then List.replicate m l.number else [] := by
  by_cases h : l.sessionId = k <;> simp [numbers, h]

/-- The command a session keeps at the receiver is one of those issued. -/
theorem Linked.last_lt (h : s.Linked ws wr) {k n : Nat} (hn : (s.status k).last = some n) :
    n < s.issued.length :=
  (h.sessions k).last_lt hn

/-- A command that was handed over is one of those issued. -/
theorem Linked.delivered_lt (h : s.Linked ws wr) {l : Label} (hl : l ∈ s.delivered) :
    l.number < s.issued.length := by
  have hinv := h.sessions l.sessionId
  obtain ⟨m, hm, hle⟩ := hinv.delivered_stored l.number (mem_numbers.mpr hl)
  exact hle.trans_lt (hinv.stored_lt m hm)

/-! ## Steps that leave the receiver alone -/

/-- The numbers in use keep their commands. -/
theorem command_mono (hpre : s.issued <+: s'.issued) {n : Nat} (h : n < s.issued.length) :
    s'.command n = s.command n := by
  obtain ⟨more, hmore⟩ := hpre
  rw [command, command, ← hmore, List.getD_eq_getElem?_getD, List.getElem?_append_left h,
    List.getD_eq_getElem?_getD]

theorem seqNum_mono (hpre : s.issued <+: s'.issued) {n : Nat} (h : n < s.issued.length) :
    s'.seqNum n = s.seqNum n := by
  rw [seqNum, seqNum, command_mono hpre h]

theorem IsStored.mono {k n : Nat} (h : s.IsStored ws k n) {ws' : Owner → List UInt8}
    (hpre : s.issued <+: s'.issued) (hlt : n < s.issued.length) (hws : ws' (.cmd k) = ws (.cmd k)) :
    s'.IsStored ws' k n := by
  rw [IsStored, seqNum_mono hpre hlt, command_mono hpre hlt, hws]
  exact h

theorem OnLink.mono {isAck : Bool} {t : Tagged} (h : s.OnLink isAck t)
    (hpre : s.issued <+: s'.issued) : s'.OnLink isAck t :=
  ⟨h.two_le, h.lt, h.number_lt.trans_le hpre.length_le,
    by rw [seqNum_mono hpre h.number_lt]; exact h.carries⟩

theorem InHand.mono {d : Delivery} (h : s.InHand d) (hpre : s.issued <+: s'.issued)
    (hstatus : s'.status d.label.sessionId = s.status d.label.sessionId) : s'.InHand d :=
  ⟨h.two_le, h.lt, h.number_lt.trans_le hpre.length_le, h.sessionId,
    by rw [seqNum_mono hpre h.number_lt]; exact h.seqNum, hstatus.trans h.status⟩

theorem Kept.mono {a : Answer} (h : s.Kept wr a) {wr' : Owner → List UInt8}
    (hstatus : s'.status a.label.sessionId = s.status a.label.sessionId)
    (hwr : wr' (.ack 0 (a.label.sessionId - 1)) = wr (.ack 0 (a.label.sessionId - 1))) :
    s'.Kept wr' a :=
  ⟨h.two_le, h.lt, fun hs => by rw [hwr]; exact h.frames (hstatus.symm.trans hs)⟩

/-- A step of the sender: the invariant of the receiver's side stays. -/
theorem Linked.sender_step (h : s.Linked ws wr) (ws' : Owner → List UInt8)
    (hpre : s.issued <+: s'.issued) (hreceiver : s'.receiver = s.receiver)
    (hlast : s'.lastDelivered = s.lastDelivered) (hdelivered : s'.delivered = s.delivered)
    (hinbox : s'.inbox = s.inbox) (hanswers : s'.answers = s.answers)
    (hacks : s'.acks.Sublist s.acks)
    (howned : s'.sender.Owned ws') (hout : s'.sender.deviceOut = [])
    (hstored : ∀ k n, s'.stored k = some n → 2 ≤ k ∧ k < 32 ∧ n < s'.issued.length ∧
      (s'.sender.cmdSessionTable k).preSeqNum = (s'.seqNum n).toUInt32)
    (hpackage : ∀ k, (s'.sender.cmdSessionTable k).usageFlag = true →
      ∃ n, s'.stored k = some n ∧ s'.IsStored ws' k n)
    (hcommands : ∀ t ∈ s'.commands, t ∈ s.commands ∨
      s'.OnLink false t ∧ (s'.command t.label.number).frames = [t.frame])
    (hsession : ∀ k, s'.session k = s.session k ∨
      RepeatLink.Step (s.session k) (s'.session k)) : s'.Linked ws' wr := by
  have hstatus : ∀ k, s'.status k = s.status k := fun k => by
    rw [status, status, hreceiver, hlast]
  constructor
  case sender => exact howned
  case receiver => rw [hreceiver]; exact h.receiver
  case sender_out => exact hout
  case receiver_out => rw [hreceiver]; exact h.receiver_out
  case device => rw [hreceiver]; exact h.device
  case stored => exact hstored
  case package => exact hpackage
  case answered =>
    intro k n hk hk32 hs
    rw [hstatus] at hs
    rw [hreceiver, hanswers, seqNum_mono hpre (h.last_lt (k := k) (by rw [hs]; rfl))]
    exact h.answered k n hk hk32 hs
  case commands =>
    intro t ht
    rcases hcommands t ht with hold | hnew
    · obtain ⟨hlink, hframe⟩ := h.commands t hold
      exact ⟨hlink.mono hpre, by rw [command_mono hpre hlink.number_lt]; exact hframe⟩
    · exact hnew
  case delivered =>
    intro l hl
    rw [hdelivered] at hl
    rw [command_mono hpre (h.delivered_lt hl)]
    exact h.delivered l hl
  case acks =>
    intro t ht
    obtain ⟨hlink, hanswer⟩ := h.acks t (hacks.subset ht)
    exact ⟨hlink.mono hpre, by rw [hanswers]; exact hanswer⟩
  case inbox =>
    intro d hd
    rw [hinbox] at hd
    exact (h.inbox d hd).mono hpre (hstatus _)
  case inbox_distinct => rw [hinbox]; exact h.inbox_distinct
  case answers =>
    intro a ha
    rw [hanswers] at ha
    exact (h.answers a ha).mono (hstatus _) rfl
  case sessions => exact fun k => (h.sessions k).next (hsession k)

/-! ## A command is issued -/

/-- The link after `SendCMD` has sent package `bytes` in session `i`. -/
def afterIssue (s : Link) (q : Protocol) (i : Nat) (c : Command) : Link :=
  { s with
    sender := q.sentAll
    commands := s.commands ++ q.outgoing ⟨i, s.issued.length⟩
    issued := s.issued ++ [c]
    stored := Function.update s.stored i (some s.issued.length) }

theorem afterIssue_command (q : Protocol) (i : Nat) (c : Command) :
    (s.afterIssue q i c).command s.issued.length = c := by
  simp [command, afterIssue, List.getD_eq_getElem?_getD]

/-- The new command gets its sequence number, the others keep theirs. -/
theorem afterIssue_seqNum (q : Protocol) (i : Nat) (c : Command) :
    (s.afterIssue q i c).seqNum = Function.update s.seqNum s.issued.length c.seqNum := by
  have hpre : s.issued <+: (s.afterIssue q i c).issued := List.prefix_append _ _
  have hlen : (s.afterIssue q i c).issued.length = s.issued.length + 1 := by simp [afterIssue]
  funext n
  by_cases hn : n = s.issued.length
  · rw [hn, Function.update_self, seqNum, afterIssue_command]
  · rw [Function.update_of_ne hn]
    by_cases hlt : n < s.issued.length
    · exact seqNum_mono hpre hlt
    · simp only [seqNum, command, List.getD_eq_getElem?_getD]
      rw [List.getElem?_eq_none (by omega), List.getElem?_eq_none (by omega)]

/-- In the view of its session a command is issued; the other sessions see a number used up. -/
theorem afterIssue_session {q : Protocol} {i : Nat} (seqNum : UInt16) {frame : List UInt8}
    (hout : q.deviceOut = [frame]) (hfree : (s.sender.cmdSessionTable i).usageFlag = false)
    (hnew : ∀ n, s.stored i = some n → s.seqNum n ≠ seqNum)
    (hused : (q.cmdSessionTable i).usageFlag = true)
    (hother : ∀ j, j ≠ i → q.cmdSessionTable j = s.sender.cmdSessionTable j) (k : Nat) :
    RepeatLink.Step (s.session k) ((s.afterIssue q i ⟨seqNum, [frame]⟩).session k) := by
  have hseq := afterIssue_seqNum (s := s) q i ⟨seqNum, [frame]⟩
  have hlen : (s.afterIssue q i ⟨seqNum, [frame]⟩).issued.length = s.issued.length + 1 := by
    simp [afterIssue]
  have hcommands : numbers k ((s.afterIssue q i ⟨seqNum, [frame]⟩).commands.map Tagged.label) =
      numbers k (s.commands.map Tagged.label) ++ if i = k then [s.issued.length] else [] := by
    simp [afterIssue, hout, numbers_cons]
  by_cases hk : i = k
  · subst hk
    have hsession : (s.afterIssue q i ⟨seqNum, [frame]⟩).session i =
        { s.session i with
          next := s.issued.length + 1
          seq := Function.update s.seqNum s.issued.length seqNum
          stored := some s.issued.length
          waiting := true
          commands := numbers i (s.commands.map Tagged.label) ++ [s.issued.length] } := by
      rw [if_pos rfl] at hcommands
      exact RepeatLink.State.ext hlen hseq (Function.update_self ..) hused hcommands rfl rfl rfl rfl
        rfl rfl
    rw [hsession]
    exact .issue s.issued.length seqNum hfree (Nat.le_refl _) hnew
  · have hsession : (s.afterIssue q i ⟨seqNum, [frame]⟩).session k =
        { s.session k with
          next := s.issued.length + 1
          seq := Function.update s.seqNum s.issued.length seqNum } := by
      rw [if_neg hk, List.append_nil] at hcommands
      exact RepeatLink.State.ext hlen hseq (Function.update_of_ne (Ne.symm hk) ..)
        (congrArg CMDSession.usageFlag (hother k (Ne.symm hk))) hcommands rfl rfl rfl rfl rfl rfl
    rw [hsession]
    exact .other s.issued.length seqNum (Nat.le_refl _)

theorem issue_linked (h : s.Linked ws wr) {cmdSet cmdId : UInt8} {data : List UInt8}
    {ackTimeout retryTime now : Int}
    (hstep : s.issue cmdSet cmdId data ackTimeout retryTime now = some s') :
    (∃ ws', s'.Linked ws' wr) ∧
      ∀ k, s'.session k = s.session k ∨ RepeatLink.Step (s.session k) (s'.session k) := by
  rw [issue, Option.map_eq_some_iff] at hstep
  obtain ⟨⟨q, out⟩, hsend, hout⟩ := hstep
  rcases sendCMD_issues h.sender h.sender_out hsend with
    ⟨rfl, howned, hempty, htable⟩ |
      ⟨i, seqNum, bytes, rfl, hi, hi32, hbytes, howned, hq, hfree, hpre, hused, hseq, hother⟩
  · have hs' : s' = { s with sender := q } := hout.symm
    subst hs'
    have hsession : ∀ k, ({ s with sender := q } : Link).session k = s.session k := fun k => by
      simp only [session, status, htable]
      rfl
    refine ⟨⟨ws, h.sender_step ws List.prefix_rfl rfl rfl rfl rfl rfl (List.Sublist.refl _) howned hempty
      ?_ ?_ (fun t ht => Or.inl ht) fun k => Or.inl (hsession k)⟩, fun k => Or.inl (hsession k)⟩
    · intro k n hk
      dsimp only
      rw [htable]
      exact h.stored k n hk
    · intro k hflag
      dsimp only at hflag
      rw [htable] at hflag
      exact h.package k hflag
  · have hs' : s' = s.afterIssue q i ⟨seqNum, [wire bytes]⟩ := by
      rw [← hout, ← hq]
      rfl
    subst hs'
    have hprefix : s.issued <+: (s.afterIssue q i ⟨seqNum, [wire bytes]⟩).issued :=
      List.prefix_append _ _
    have hcommand := afterIssue_command (s := s) q i ⟨seqNum, [wire bytes]⟩
    have hnew : (s.afterIssue q i ⟨seqNum, [wire bytes]⟩).seqNum s.issued.length = seqNum := by
      rw [Link.seqNum, hcommand]
    have hlt : s.issued.length < (s.afterIssue q i ⟨seqNum, [wire bytes]⟩).issued.length := by
      simp [afterIssue]
    have hstep := afterIssue_session seqNum hq hfree
      (fun n hn heq => hpre (by rw [(h.stored i n hn).2.2.2, heq])) hused hother
    refine ⟨⟨_, h.sender_step (Function.update ws (.cmd i) bytes) hprefix rfl rfl rfl rfl rfl
      (List.Sublist.refl _) howned.sentAll rfl ?_ ?_ ?_ fun k => Or.inr (hstep k)⟩,
      fun k => Or.inr (hstep k)⟩
    · intro k n hk
      by_cases hki : k = i
      · subst hki
        obtain rfl : s.issued.length = n := by
          simpa [afterIssue] using hk
        rw [hnew]
        exact ⟨hi, hi32, hlt, hseq⟩
      · have hold : s.stored k = some n := by
          simpa [afterIssue, hki] using hk
        obtain ⟨h2, h32, hn, hpreSeq⟩ := h.stored k n hold
        rw [seqNum_mono hprefix hn]
        refine ⟨h2, h32, hn.trans hlt, ?_⟩
        rw [← hpreSeq]
        exact congrArg CMDSession.preSeqNum (hother k hki)
    · intro k hflag
      by_cases hki : k = i
      · subst hki
        refine ⟨s.issued.length, Function.update_self .., ?_⟩
        rw [IsStored, hnew, hcommand, Function.update_self]
        exact ⟨hbytes, rfl⟩
      · have hold : (s.sender.cmdSessionTable k).usageFlag = true :=
          (congrArg CMDSession.usageFlag (hother k hki)).symm.trans hflag
        obtain ⟨n, hn, hkept⟩ := h.package k hold
        exact ⟨n, (Function.update_of_ne hki ..).trans hn, hkept.mono hprefix (h.stored k n hn).2.2.1
          (Function.update_of_ne (by simpa using hki) ..)⟩
    · intro t ht
      rcases List.mem_append.mp ht with ht | ht
      · exact Or.inl ht
      · rw [outgoing, hq, List.map_singleton, List.mem_singleton] at ht
        subst ht
        exact Or.inr ⟨⟨hi, hi32, hlt, ⟨bytes, rfl, by rw [hnew]; exact hbytes⟩⟩, by rw [hcommand]⟩

/-! ## A command is repeated or given up -/

/-- The link after `AutoRepeatSendCheck` has acted on session `i`. -/
def afterTimeout (s : Link) (q : Protocol) (i : Nat) : Link :=
  { s with
    sender := q.sentAll
    commands := s.commands ++ q.outgoing ⟨i, (s.stored i).getD 0⟩
    repeated := s.repeated ++ [⟨i, (s.stored i).getD 0⟩] }

/-- In the view of its session the command is repeated or given up. -/
theorem afterTimeout_session {q : Protocol} {i n : Nat} (hn : s.stored i = some n)
    (hflag : (s.sender.cmdSessionTable i).usageFlag = true)
    (hother : ∀ j, j ≠ i →
      (q.cmdSessionTable j).usageFlag = (s.sender.cmdSessionTable j).usageFlag)
    (hcases : (q.deviceOut = [] ∧ (q.cmdSessionTable i).usageFlag = false) ∨
      ∃ frame, q.deviceOut = [frame] ∧ (q.cmdSessionTable i).usageFlag = true) (k : Nat) :
    (s.afterTimeout q i).session k = s.session k ∨
      RepeatLink.Step (s.session k) ((s.afterTimeout q i).session k) := by
  have hcommands : numbers k ((s.afterTimeout q i).commands.map Tagged.label) =
      numbers k (s.commands.map Tagged.label) ++
        if i = k then List.replicate q.deviceOut.length n else [] := by
    simp [afterTimeout, hn, numbers_replicate]
  have hrepeated : numbers k (s.afterTimeout q i).repeated =
      numbers k s.repeated ++ if i = k then [n] else [] := by
    simp [afterTimeout, hn, numbers_cons]
  by_cases hk : i = k
  · subst hk
    rw [if_pos rfl] at hcommands hrepeated
    right
    rcases hcases with ⟨hout, hfree⟩ | ⟨frame, hout, hused⟩
    · have hsession : (s.afterTimeout q i).session i =
          { s.session i with waiting := false, repeated := numbers i s.repeated ++ [n] } := by
        rw [hout, List.length_nil, List.replicate_zero, List.append_nil] at hcommands
        exact RepeatLink.State.ext rfl rfl rfl hfree hcommands rfl rfl rfl rfl rfl hrepeated
      rw [hsession]
      exact .giveUp n hflag hn
    · have hsession : (s.afterTimeout q i).session i =
          { s.session i with
            commands := numbers i (s.commands.map Tagged.label) ++ [n]
            repeated := numbers i s.repeated ++ [n] } := by
        rw [hout] at hcommands
        exact RepeatLink.State.ext rfl rfl rfl (hused.trans hflag.symm) hcommands rfl rfl rfl rfl
          rfl hrepeated
      rw [hsession]
      exact .again n hflag hn
  · left
    rw [if_neg hk, List.append_nil] at hcommands hrepeated
    exact RepeatLink.State.ext rfl rfl rfl (hother k (Ne.symm hk)) hcommands rfl rfl rfl rfl rfl
      hrepeated

theorem retry_linked (h : s.Linked ws wr) {i : Nat} {now : Int}
    (hstep : s.retry i now = some s') :
    (∃ ws', s'.Linked ws' wr) ∧
      ∀ k, s'.session k = s.session k ∨ RepeatLink.Step (s.session k) (s'.session k) := by
  rw [retry, Option.map_eq_some_iff] at hstep
  obtain ⟨q, hretry, hout⟩ := hstep
  have hpackage : (s.sender.cmdSessionTable i).usageFlag = true →
      ∃ seqNum, PackageOf (ws (.cmd i)) false i seqNum := fun hflag => by
    obtain ⟨n, -, hpkg, -⟩ := h.package i hflag
    exact ⟨_, hpkg⟩
  rcases autoRepeatSendCheck_resends h.sender h.sender_out hpackage hretry with
    ⟨hdue, rfl⟩ | ⟨hdue, howned, hflag, hseq, hother, hcases⟩
  · have hsame : s' = s := by
      rw [← hout, hdue]
      simp only [sentAll, outgoing, h.sender_out, List.map_nil, List.append_nil, if_false,
        Bool.false_eq_true]
      rw [← h.sender_out]
    subst hsame
    exact ⟨⟨ws, h⟩, fun k => Or.inl rfl⟩
  have hs' : s' = s.afterTimeout q i := by
    rw [← hout, hdue]
    rfl
  subst hs'
  obtain ⟨n, hn, hpkg, hframes⟩ := h.package i hflag
  obtain ⟨hi, hi32, hlt, -⟩ := h.stored i n hn
  have hsession := afterTimeout_session hn hflag hother
    (hcases.imp_right fun hsent => ⟨_, hsent.1, hsent.2⟩)
  have husage : ∀ k, (q.cmdSessionTable k).usageFlag = true →
      (s.sender.cmdSessionTable k).usageFlag = true := fun k hk => by
    by_cases hki : k = i
    · rw [hki]
      exact hflag
    · rw [← hother k hki]
      exact hk
  refine ⟨⟨ws, h.sender_step ws List.prefix_rfl rfl rfl rfl rfl rfl (List.Sublist.refl _)
    howned.sentAll rfl (fun k m hm => ?_) (fun k hk => h.package k (husage k hk)) (fun t ht => ?_) hsession⟩, hsession⟩
  · obtain ⟨h2, h32, hmlt, hpre⟩ := h.stored k m hm
    exact ⟨h2, h32, hmlt, (hseq k).trans hpre⟩
  · rcases List.mem_append.mp ht with ht | ht
    · exact Or.inl ht
    · rcases hcases with ⟨hnil, -⟩ | ⟨hsent, -⟩
      · rw [outgoing, hnil] at ht
        cases ht
      · rw [outgoing, hsent, List.map_singleton, List.mem_singleton, hn] at ht
        subst ht
        exact Or.inr ⟨⟨hi, hi32, hlt, ⟨_, rfl, hpkg⟩⟩, hframes⟩

/-! ## Frames are lost -/

theorem loseCommand_linked (h : s.Linked ws wr) (i : Nat) :
    let s' := { s with commands := s.commands.eraseIdx i }
    s'.Linked ws wr ∧
      ∀ k, s'.session k = s.session k ∨ RepeatLink.Step (s.session k) (s'.session k) := by
  intro s'
  have hsub : s'.commands.Sublist s.commands := List.eraseIdx_sublist ..
  have hsession : ∀ k, RepeatLink.Step (s.session k) (s'.session k) := fun k =>
    .loseCommands _ (numbers_sublist k (hsub.map Tagged.label))
  exact ⟨h.sender_step ws List.prefix_rfl rfl rfl rfl rfl rfl (List.Sublist.refl _) h.sender
    h.sender_out h.stored h.package (fun t ht => Or.inl (hsub.subset ht))
    fun k => Or.inr (hsession k), fun k => Or.inr (hsession k)⟩

theorem loseAck_linked (h : s.Linked ws wr) (i : Nat) :
    let s' := { s with acks := s.acks.eraseIdx i }
    s'.Linked ws wr ∧
      ∀ k, s'.session k = s.session k ∨ RepeatLink.Step (s.session k) (s'.session k) := by
  intro s'
  have hsub : s'.acks.Sublist s.acks := List.eraseIdx_sublist ..
  have hsession : ∀ k, RepeatLink.Step (s.session k) (s'.session k) := fun k =>
    .loseAcks _ (numbers_sublist k (hsub.map Tagged.label))
  exact ⟨h.sender_step ws List.prefix_rfl rfl rfl rfl rfl rfl hsub h.sender h.sender_out
    h.stored h.package (fun t ht => Or.inl ht)
    fun k => Or.inr (hsession k), fun k => Or.inr (hsession k)⟩

/-! ## An acknowledgement arrives -/

/-- The link after the first acknowledgement has freed session `k`. -/
def acceptedAck (s : Link) (q : Protocol) (rest : List Tagged) (k : Nat) (label : Label) : Link :=
  { s with
    sender := q.sentAll
    acks := rest
    accepted := s.accepted ++ [⟨k, s.stored k, label⟩] }

/-- In the view of its session the acknowledgement is accepted. -/
theorem acceptedAck_session {q : Protocol} {t : Tagged} {rest : List Tagged} {n : Nat}
    (hacks : s.acks = t :: rest) (hn : s.stored t.label.sessionId = some n)
    (hflag : (s.sender.cmdSessionTable t.label.sessionId).usageFlag = true)
    (hfree : (q.cmdSessionTable t.label.sessionId).usageFlag = false)
    (hother : ∀ j, j ≠ t.label.sessionId → q.cmdSessionTable j = s.sender.cmdSessionTable j)
    (k : Nat) :
    (s.acceptedAck q rest t.label.sessionId t.label).session k = s.session k ∨
      RepeatLink.Step (s.session k)
        ((s.acceptedAck q rest t.label.sessionId t.label).session k) := by
  have hnumbers : (s.session k).acks = if t.label.sessionId = k then
      t.label.number :: numbers k (rest.map Tagged.label)
      else numbers k (rest.map Tagged.label) := by
    simp only [session, hacks, List.map_cons, numbers_cons]
  by_cases hk : t.label.sessionId = k
  · subst hk
    right
    rw [if_pos rfl] at hnumbers
    have hsession : (s.acceptedAck q rest t.label.sessionId t.label).session t.label.sessionId =
        { s.session t.label.sessionId with
          acks := numbers t.label.sessionId (rest.map Tagged.label)
          waiting := false
          accepted := (s.session t.label.sessionId).accepted ++ [(n, t.label.number)] } := by
      refine RepeatLink.State.ext rfl rfl rfl hfree rfl rfl rfl rfl rfl ?_ rfl
      simp [session, acceptedAck, hn]
    rw [hsession]
    exact .accept n t.label.number _ hnumbers hflag hn
  · left
    rw [if_neg hk] at hnumbers
    refine RepeatLink.State.ext rfl rfl rfl
      (congrArg CMDSession.usageFlag (hother k (Ne.symm hk))) rfl hnumbers.symm rfl rfl rfl ?_ rfl
    simp [session, acceptedAck, hk]

theorem deliverAck_linked (h : s.Linked ws wr) (hstep : s.deliverAck = some s') :
    s'.Linked ws wr ∧
      ∀ k, s'.session k = s.session k ∨ RepeatLink.Step (s.session k) (s'.session k) := by
  rw [deliverAck] at hstep
  cases hacks : s.acks with
  | nil => rw [hacks] at hstep; cases hstep
  | cons t rest =>
      rw [hacks] at hstep
      dsimp only at hstep
      rw [Option.map_eq_some_iff] at hstep
      obtain ⟨⟨q, isFrame⟩, hdeliver, hout⟩ := hstep
      have hmem : t ∈ s.acks := by rw [hacks]; exact List.mem_cons_self
      have hsub : rest.Sublist s.acks := by rw [hacks]; exact List.sublist_cons_self t rest
      obtain ⟨⟨-, hk32, -, bytes, hframe, hbytes⟩, -⟩ := h.acks t hmem
      have howned := h.sender.deliver hdeliver
      rw [hframe] at hdeliver
      rcases deliver_ack hbytes hk32 hdeliver with ⟨rfl, rfl⟩ | ⟨rfl, hk, hflag, c, rfl⟩
      · have hs' : s' = { s with acks := rest } := by
          rw [← hout, sentAll_of_nil h.sender_out]
          rfl
        subst hs'
        have hsession : ∀ k, RepeatLink.Step (s.session k)
            (({ s with acks := rest } : Link).session k) := fun k =>
          .loseAcks _ (numbers_sublist k (hsub.map Tagged.label))
        exact ⟨h.sender_step ws List.prefix_rfl rfl rfl rfl rfl rfl hsub h.sender h.sender_out
          h.stored h.package (fun t ht => Or.inl ht)
          fun k => Or.inr (hsession k), fun k => Or.inr (hsession k)⟩
      · obtain ⟨b, hb⟩ := Option.ne_none_iff_exists'.mp (h.sender.cmd_block _ hflag).2
        obtain ⟨n, hn, -⟩ := h.package _ hflag
        have heq := freeCMDSession_eq (p := { s.sender with recvContainer := c }) hflag hb
        generalize hq : Protocol.freeCMDSession { s.sender with recvContainer := c }
          t.label.sessionId = q at *
        have hs' : s' = s.acceptedAck q rest t.label.sessionId t.label := by
          rw [← hout, hframe, hk]
          rfl
        subst hs'
        have hother : ∀ j, j ≠ t.label.sessionId →
            q.cmdSessionTable j = s.sender.cmdSessionTable j := fun j hne => by
          rw [heq]
          exact Function.update_of_ne hne ..
        have hfree : (q.cmdSessionTable t.label.sessionId).usageFlag = false := by
          rw [heq]
          simp
        have hpre : ∀ j, (q.cmdSessionTable j).preSeqNum =
            (s.sender.cmdSessionTable j).preSeqNum := fun j => by
          by_cases hj : j = t.label.sessionId
          · rw [heq, hj]
            simp
          · rw [hother j hj]
        have hsession := acceptedAck_session hacks hn hflag hfree hother
        refine ⟨h.sender_step ws List.prefix_rfl rfl rfl rfl rfl rfl hsub howned.sentAll rfl
          (fun k m hm => ?_) (fun k hflag' => ?_) (fun t ht => Or.inl ht) hsession, hsession⟩
        · obtain ⟨h2, h32, hlt, hseq⟩ := h.stored k m hm
          exact ⟨h2, h32, hlt, (hpre k).trans hseq⟩
        · refine h.package k ?_
          by_cases hj : k = t.label.sessionId
          · rw [hj]
            exact hflag
          · rw [← hother k hj]
            exact hflag'

/-! ## A command arrives -/

/-- A step of the receiver: the invariant of the sender's side stays. -/
theorem Linked.receiver_step (h : s.Linked ws wr) {wr' : Owner → List UInt8}
    (hseq : s'.issued = s.issued) (hsender : s'.sender = s.sender) (hstored : s'.stored = s.stored)
    (hcommands : s'.commands.Sublist s.commands) (howned : s'.receiver.Owned wr')
    (hout : s'.receiver.deviceOut = []) (hdevice : s'.receiver.device = s.receiver.device)
    (hdelivered : ∀ l ∈ s'.delivered, l ∈ s.delivered ∨
      ∃ frame, (s.command l.number).frames = [frame] ∧ Accepted DEVICE frame)
    (hanswered : ∀ k n, 2 ≤ k → k < 32 → s'.status k = .answered n →
      (s'.receiver.ackSessionTable 0 (k - 1)).memoryBlockPtr ≠ none ∧
        PackageOf (wr' (.ack 0 (k - 1))) true k (s'.seqNum n) ∧
        ∃ a ∈ s'.answers, a.label = ⟨k, n⟩)
    (hacks : ∀ t ∈ s'.acks, s'.OnLink true t ∧
      ∃ a ∈ s'.answers, a.label = t.label ∧ t.frame ∈ a.frames)
    (hinbox : ∀ d ∈ s'.inbox, s'.InHand d)
    (hdistinct : s'.inbox.Pairwise fun d d' => d.label.sessionId ≠ d'.label.sessionId)
    (hanswers : ∀ a ∈ s'.answers, s'.Kept wr' a)
    (hsession : ∀ k, s'.session k = s.session k ∨
      RepeatLink.Step (s.session k) (s'.session k)) : s'.Linked ws wr' := by
  have hcommand : s'.command = s.command := by
    funext n
    rw [command, command, hseq]
  have hnum : s'.seqNum = s.seqNum := by
    funext n
    rw [seqNum, seqNum, hcommand]
  constructor
  case sender => rw [hsender]; exact h.sender
  case receiver => exact howned
  case sender_out => rw [hsender]; exact h.sender_out
  case receiver_out => exact hout
  case device => rw [hdevice]; exact h.device
  case stored =>
    rw [hsender, hstored, hseq, hnum]
    exact h.stored
  case package =>
    intro k hflag
    rw [hsender] at hflag
    obtain ⟨n, hn, hkept⟩ := h.package k hflag
    exact ⟨n, by rw [hstored]; exact hn,
      hkept.mono (hseq ▸ List.prefix_rfl) (h.stored k n hn).2.2.1 rfl⟩
  case answered => exact hanswered
  case commands =>
    intro t ht
    obtain ⟨hlink, hframe⟩ := h.commands t (hcommands.subset ht)
    exact ⟨hlink.mono (hseq ▸ List.prefix_rfl), by rw [hcommand]; exact hframe⟩
  case delivered =>
    intro l hl
    rw [hcommand]
    exact (hdelivered l hl).elim (h.delivered l) id
  case acks => exact hacks
  case inbox => exact hinbox
  case inbox_distinct => exact hdistinct
  case answers => exact hanswers
  case sessions => exact fun k => (h.sessions k).next (hsession k)

/-- The command that comes next is the first one of its session. -/
theorem commands_head {t : Tagged} {rest : List Tagged} (hcommands : s.commands = t :: rest)
    (k : Nat) :
    (s.session k).commands = if t.label.sessionId = k then
      t.label.number :: numbers k (rest.map Tagged.label)
      else numbers k (rest.map Tagged.label) := by
  simp only [session, hcommands, List.map_cons, numbers_cons]

/-- The sequence number in the block of an ack session is that of the command it answers. -/
theorem Linked.kept_seqNum (h : s.Linked ws wr) {k b : Nat} (hk : 2 ≤ k) (hk32 : k < 32)
    (husing : (s.receiver.ackSessionTable 0 (k - 1)).sessionStatus = .ACK_SESSION_USING)
    (hb : (s.receiver.ackSessionTable 0 (k - 1)).memoryBlockPtr = some b) :
    s.status k = .answered (s.lastDelivered k) ∧
      s.receiver.memoryPool.contents b = wr (.ack 0 (k - 1)) ∧
      PackageOf (wr (.ack 0 (k - 1))) true k (s.seqNum (s.lastDelivered k)) ∧
      (Header.decode s.receiver.memoryPool.memory (s.receiver.blockPtr b)).seqNum =
        s.seqNum (s.lastDelivered k) := by
  have hstatus : s.status k = .answered (s.lastDelivered k) := by rw [status, husing]
  obtain ⟨-, hpkg, -⟩ := h.answered k _ hk hk32 hstatus
  have hcontents : s.receiver.memoryPool.contents b = wr (.ack 0 (k - 1)) :=
    h.receiver.exclusive.value_eq (o := .ack 0 (k - 1)) hb
  exact ⟨hstatus, hcontents, hpkg, (hpkg.decode_memory hk32 hcontents).2⟩

/-- The link after the receiver has handed over a command. -/
def handedOver (s : Link) (q : Protocol) (rest : List Tagged) (label : Label) : Link :=
  { s with
    receiver := q.sentAll
    commands := rest
    lastDelivered := Function.update s.lastDelivered label.sessionId label.number
    delivered := s.delivered ++ [label]
    inbox := s.inbox ++ [⟨label, q.recvContainer.messageHeader⟩] }

theorem handedOver_ackSessionTable {q : Protocol} {frame : List UInt8} {k : Nat} {seqNum : UInt16}
    (hq : HandedOver s.receiver q frame k seqNum) (j : Nat) :
    q.ackSessionTable 0 j =
      if j = k - 1 then
        { s.receiver.ackSessionTable 0 (k - 1) with sessionStatus := .ACK_SESSION_PROCESS }
      else s.receiver.ackSessionTable 0 j := by
  rw [hq.eq]
  simp only [processing, setAck, Function.update_self]
  split
  · next hj => rw [hj, Function.update_self]
  · next hj => rw [Function.update_of_ne hj]

/-- The status of the sessions after a command has been handed over. -/
theorem handedOver_status {q : Protocol} (rest : List Tagged) {label : Label} {frame : List UInt8}
    {seqNum : UInt16} (hk : 2 ≤ label.sessionId)
    (hq : HandedOver s.receiver q frame label.sessionId seqNum) (k : Nat) :
    (s.handedOver q rest label).status k =
      if k = label.sessionId then .processing label.number else s.status k := by
  have htable := handedOver_ackSessionTable hq (k - 1)
  by_cases hkey : k = label.sessionId
  · subst hkey
    rw [if_pos rfl] at htable
    simp [status, handedOver, sentAll, htable]
  · rw [if_neg (by omega)] at htable
    simp [status, handedOver, sentAll, htable, hkey]

/-- In the view of its session the command is handed over. -/
theorem handedOver_session {q : Protocol} {t : Tagged} {rest : List Tagged} {seqNum : UInt16}
    (hcommands : s.commands = t :: rest) (hk : 2 ≤ t.label.sessionId)
    (hq : HandedOver s.receiver q t.frame t.label.sessionId seqNum)
    (hnew : s.status t.label.sessionId = .idle ∨ ∃ d, s.status t.label.sessionId = .answered d ∧
      s.seqNum d ≠ s.seqNum t.label.number) (k : Nat) :
    (s.handedOver q rest t.label).session k = s.session k ∨
      RepeatLink.Step (s.session k) ((s.handedOver q rest t.label).session k) := by
  have hhead := commands_head hcommands k
  have hstatus := handedOver_status rest hk hq k
  by_cases hkey : t.label.sessionId = k
  · subst hkey
    right
    rw [if_pos rfl] at hhead hstatus
    have hsession : (s.handedOver q rest t.label).session t.label.sessionId =
        { s.session t.label.sessionId with
          commands := numbers t.label.sessionId (rest.map Tagged.label)
          status := .processing t.label.number
          delivered := (s.session t.label.sessionId).delivered ++ [t.label.number] } := by
      refine RepeatLink.State.ext rfl rfl rfl rfl rfl rfl hstatus ?_ rfl rfl rfl
      simp [session, handedOver, numbers_cons]
    rw [hsession]
    exact .deliver t.label.number _ hhead hnew
  · left
    rw [if_neg hkey] at hhead
    rw [if_neg (Ne.symm hkey)] at hstatus
    refine RepeatLink.State.ext rfl rfl rfl rfl hhead.symm rfl hstatus ?_ rfl rfl rfl
    simp [session, handedOver, numbers_cons, hkey]

theorem handedOver_linked (h : s.Linked ws wr) {q : Protocol} {t : Tagged} {rest : List Tagged}
    (hcommands : s.commands = t :: rest)
    (hq : HandedOver s.receiver q t.frame t.label.sessionId (s.seqNum t.label.number))
    (howned : q.Owned wr)
    (hnew : s.status t.label.sessionId = .idle ∨ ∃ d, s.status t.label.sessionId = .answered d ∧
      s.seqNum d ≠ s.seqNum t.label.number) :
    (s.handedOver q rest t.label).Linked ws wr := by
  have hmem : t ∈ s.commands := by rw [hcommands]; exact List.mem_cons_self
  obtain ⟨⟨hk, hk32, hlt, -⟩, hframe⟩ := h.commands t hmem
  have hstatus := handedOver_status rest hk hq
  have hother : ∀ d ∈ s.inbox, d.label.sessionId ≠ t.label.sessionId := by
    intro d hd heq
    have hbusy := (h.inbox d hd).status
    rw [heq] at hbusy
    rw [hbusy] at hnew
    rcases hnew with hidle | ⟨n, hn, -⟩
    · cases hidle
    · cases hn
  refine h.receiver_step rfl rfl rfl (by rw [hcommands]; exact List.sublist_cons_self t rest)
    howned.sentAll rfl (by rw [handedOver, sentAll, hq.eq]; rfl) (fun l hl => ?_)
    (fun k n h2 h32 hs => ?_) (fun u hu => ?_) (fun d hd => ?_) ?_ (fun a ha => ?_)
    (handedOver_session hcommands hk hq hnew)
  · rcases List.mem_append.mp hl with hl | hl
    · exact Or.inl hl
    · rw [List.mem_singleton.mp hl]
      exact Or.inr ⟨t.frame, hframe, h.device ▸ hq.accepted⟩
  · rw [hstatus] at hs
    split at hs
    · cases hs
    · next hne =>
        have htable : (s.handedOver q rest t.label).receiver.ackSessionTable 0 (k - 1) =
            s.receiver.ackSessionTable 0 (k - 1) :=
          (handedOver_ackSessionTable hq _).trans (if_neg (by omega))
        rw [htable]
        exact h.answered k n h2 h32 hs
  · obtain ⟨hlink, hanswer⟩ := h.acks u hu
    exact ⟨hlink.mono List.prefix_rfl, hanswer⟩
  · rcases List.mem_append.mp hd with hd | hd
    · exact (h.inbox d hd).mono List.prefix_rfl ((hstatus _).trans (if_neg (hother d hd)))
    · rw [List.mem_singleton] at hd
      subst hd
      exact ⟨hk, hk32, hlt, congrArg MessageHeader.sessionId hq.messageHeader,
        congrArg MessageHeader.seqNum hq.messageHeader, (hstatus _).trans (if_pos rfl)⟩
  · refine List.pairwise_append.mpr ⟨h.inbox_distinct, List.pairwise_singleton _ _,
      fun d hd d' hd' => ?_⟩
    rw [List.mem_singleton.mp hd']
    exact hother d hd
  · by_cases hkey : a.label.sessionId = t.label.sessionId
    · refine ⟨(h.answers a ha).two_le, (h.answers a ha).lt, fun hs => ?_⟩
      rw [hstatus, if_pos hkey] at hs
      cases hs
    · exact (h.answers a ha).mono ((hstatus _).trans (if_neg hkey)) rfl

/-- The link after the receiver has sent the stored acknowledgement of session `k` again. -/
def reanswered (s : Link) (rest : List Tagged) (k : Nat) (frame : List UInt8) : Link :=
  { s with
    commands := rest
    acks := s.acks ++ [⟨frame, ⟨k, s.lastDelivered k⟩⟩] }

/-- In the view of its session the command is answered again. -/
theorem reanswered_session {t : Tagged} {rest : List Tagged} {frame : List UInt8}
    (hcommands : s.commands = t :: rest)
    (hstatus : s.status t.label.sessionId = .answered (s.lastDelivered t.label.sessionId))
    (hseq : s.seqNum (s.lastDelivered t.label.sessionId) = s.seqNum t.label.number) (k : Nat) :
    (s.reanswered rest t.label.sessionId frame).session k = s.session k ∨
      RepeatLink.Step (s.session k)
        ((s.reanswered rest t.label.sessionId frame).session k) := by
  have hhead := commands_head hcommands k
  by_cases hkey : t.label.sessionId = k
  · subst hkey
    right
    rw [if_pos rfl] at hhead
    have hsession : (s.reanswered rest t.label.sessionId frame).session t.label.sessionId =
        { s.session t.label.sessionId with
          commands := numbers t.label.sessionId (rest.map Tagged.label)
          acks := (s.session t.label.sessionId).acks ++
            [s.lastDelivered t.label.sessionId] } := by
      refine RepeatLink.State.ext rfl rfl rfl rfl rfl ?_ rfl rfl rfl rfl rfl
      simp [session, reanswered, numbers_cons]
    rw [hsession]
    exact .reanswer t.label.number _ _ hhead hstatus hseq
  · left
    rw [if_neg hkey] at hhead
    refine RepeatLink.State.ext rfl rfl rfl rfl hhead.symm ?_ rfl rfl rfl rfl rfl
    simp [session, reanswered, numbers_cons, hkey]

theorem reanswered_linked (h : s.Linked ws wr) {t : Tagged} {rest : List Tagged}
    (hcommands : s.commands = t :: rest)
    (hstatus : s.status t.label.sessionId = .answered (s.lastDelivered t.label.sessionId))
    (hseq : s.seqNum (s.lastDelivered t.label.sessionId) = s.seqNum t.label.number) :
    (s.reanswered rest t.label.sessionId
      (wire (wr (.ack 0 (t.label.sessionId - 1))))).Linked ws wr := by
  have hmem : t ∈ s.commands := by rw [hcommands]; exact List.mem_cons_self
  obtain ⟨⟨hk, hk32, -⟩, -⟩ := h.commands t hmem
  obtain ⟨-, hpkg, a, ha, hlabel⟩ := h.answered _ _ hk hk32 hstatus
  have hframes := (h.answers a ha).frames
  rw [hlabel] at hframes
  refine h.receiver_step rfl rfl rfl (by rw [hcommands]; exact List.sublist_cons_self t rest)
    h.receiver h.receiver_out rfl (fun l hl => Or.inl hl) h.answered (fun u hu => ?_)
    (fun d hd => (h.inbox d hd).mono List.prefix_rfl rfl) h.inbox_distinct
    (fun a ha => (h.answers a ha).mono rfl rfl) (reanswered_session hcommands hstatus hseq)
  rcases List.mem_append.mp hu with hu | hu
  · obtain ⟨hlink, hanswer⟩ := h.acks u hu
    exact ⟨hlink.mono List.prefix_rfl, hanswer⟩
  · rw [List.mem_singleton] at hu
    subst hu
    refine ⟨⟨hk, hk32, h.last_lt (k := t.label.sessionId) (by rw [hstatus]; rfl), _, rfl, hpkg⟩, a,
      ha, hlabel, ?_⟩
    rw [hframes hstatus]
    exact List.mem_singleton_self _

theorem deliverCommand_linked (h : s.Linked ws wr) (hstep : s.deliverCommand = some s') :
    s'.Linked ws wr ∧
      ∀ k, s'.session k = s.session k ∨ RepeatLink.Step (s.session k) (s'.session k) := by
  rw [deliverCommand] at hstep
  cases hcommands : s.commands with
  | nil => rw [hcommands] at hstep; cases hstep
  | cons t rest =>
      rw [hcommands] at hstep
      dsimp only at hstep
      rw [Option.map_eq_some_iff] at hstep
      obtain ⟨⟨q, isFrame⟩, hdeliver, hout⟩ := hstep
      have hmem : t ∈ s.commands := by rw [hcommands]; exact List.mem_cons_self
      have hsub : rest.Sublist s.commands := by rw [hcommands]; exact List.sublist_cons_self t rest
      obtain ⟨⟨hk, hk32, -, bytes, hframe, hbytes⟩, -⟩ := h.commands t hmem
      have howned := h.receiver.deliver hdeliver
      rw [hframe] at hdeliver
      rcases deliver_command hbytes hk hk32 hdeliver with
        ⟨rfl, rfl⟩ | ⟨rfl, hq, hnew⟩ | ⟨rfl, husing, b, hb, hseq, rfl⟩
      · have hs' : s' = { s with commands := rest } := by
          rw [← hout, sentAll_of_nil h.receiver_out, outgoing, h.receiver_out, List.map_nil,
            List.append_nil]
          rfl
        subst hs'
        have hsession : ∀ k, RepeatLink.Step (s.session k)
            (({ s with commands := rest } : Link).session k) := fun k =>
          .loseCommands _ (numbers_sublist k (hsub.map Tagged.label))
        exact ⟨h.sender_step ws List.prefix_rfl rfl rfl rfl rfl rfl (List.Sublist.refl _) h.sender
          h.sender_out h.stored h.package (fun t ht => Or.inl (hsub.subset ht))
          fun k => Or.inr (hsession k), fun k => Or.inr (hsession k)⟩
      · have hs' : s' = s.handedOver q rest t.label := by
          have hqout : q.deviceOut = [] := by rw [hq.eq]; exact h.receiver_out
          rw [← hout, outgoing, hqout, List.map_nil, List.append_nil]
          rfl
        subst hs'
        rw [← hframe] at hq
        have hstatus : s.status t.label.sessionId = .idle ∨
            ∃ d, s.status t.label.sessionId = .answered d ∧
              s.seqNum d ≠ s.seqNum t.label.number := by
          rcases hnew with hidle | ⟨husing, b, hb, hne⟩
          · exact Or.inl (by rw [status, hidle])
          · obtain ⟨hstatus, -, -, hnum⟩ := h.kept_seqNum hk hk32 husing hb
            exact Or.inr ⟨_, hstatus, by rw [← hnum]; exact hne⟩
        exact ⟨handedOver_linked h hcommands hq howned hstatus,
          handedOver_session hcommands hk hq hstatus⟩
      · obtain ⟨hstatus, hcontents, hpkg, hnum⟩ := h.kept_seqNum hk hk32 husing hb
        have hs' : s' = s.reanswered rest t.label.sessionId
            (wire (wr (.ack 0 (t.label.sessionId - 1)))) := by
          rw [← hout, hpkg.deviceSend hcontents, h.receiver_out, List.nil_append, outgoing, sentAll]
          dsimp only [List.map_singleton]
          rw [← h.receiver_out]
          rfl
        subst hs'
        have hsame : s.seqNum (s.lastDelivered t.label.sessionId) = s.seqNum t.label.number :=
          hnum.symm.trans hseq
        exact ⟨reanswered_linked h hcommands hstatus hsame,
          reanswered_session hcommands hstatus hsame⟩

/-! ## The application answers -/

theorem lastDelivered_of_processing {k n : Nat} (h : s.status k = .processing n) :
    s.lastDelivered k = n := by
  rw [status] at h
  split at h
  · cases h
  · cases h
    rfl
  · cases h

/-- The link after the application has answered command `i` of its inbox. -/
def answered (s : Link) (q : Protocol) (i : Nat) (label : Label) (frame : List UInt8) : Link :=
  { s with
    receiver := q.sentAll
    acks := s.acks ++ [⟨frame, label⟩]
    inbox := s.inbox.eraseIdx i
    answers := s.answers ++ [⟨label, [frame]⟩] }

/-- The status of the sessions after an answer. -/
theorem answered_status {q : Protocol} (i : Nat) {label : Label} (frame : List UInt8)
    (hk : 2 ≤ label.sessionId) (hstatus : s.status label.sessionId = .processing label.number)
    (husing : (q.ackSessionTable 0 (label.sessionId - 1)).sessionStatus = .ACK_SESSION_USING)
    (hother : ∀ j, j ≠ label.sessionId - 1 →
      q.ackSessionTable 0 j = s.receiver.ackSessionTable 0 j) (k : Nat) :
    (s.answered q i label frame).status k =
      if k = label.sessionId then .answered label.number else s.status k := by
  by_cases hkey : k = label.sessionId
  · subst hkey
    rw [if_pos rfl, ← lastDelivered_of_processing hstatus]
    simp [status, answered, sentAll, husing]
  · rw [if_neg hkey]
    simp [status, answered, sentAll, hother (k - 1) (by omega)]

/-- In the view of its session the command is answered. -/
theorem answered_session {q : Protocol} (i : Nat) {label : Label} (frame : List UInt8)
    (hk : 2 ≤ label.sessionId) (hstatus : s.status label.sessionId = .processing label.number)
    (husing : (q.ackSessionTable 0 (label.sessionId - 1)).sessionStatus = .ACK_SESSION_USING)
    (hother : ∀ j, j ≠ label.sessionId - 1 →
      q.ackSessionTable 0 j = s.receiver.ackSessionTable 0 j) (k : Nat) :
    (s.answered q i label frame).session k = s.session k ∨
      RepeatLink.Step (s.session k) ((s.answered q i label frame).session k) := by
  have hnew := answered_status i frame hk hstatus husing hother k
  by_cases hkey : label.sessionId = k
  · subst hkey
    right
    rw [if_pos rfl] at hnew
    have hsession : (s.answered q i label frame).session label.sessionId =
        { s.session label.sessionId with
          status := .answered label.number
          acks := (s.session label.sessionId).acks ++ [label.number]
          answers := (s.session label.sessionId).answers ++ [label.number] } := by
      refine RepeatLink.State.ext rfl rfl rfl rfl rfl ?_ hnew rfl ?_ rfl rfl
      · simp [session, answered, numbers_cons]
      · simp [session, answered, numbers_cons]
    rw [hsession]
    exact .answer label.number hstatus
  · left
    rw [if_neg (Ne.symm hkey)] at hnew
    refine RepeatLink.State.ext rfl rfl rfl rfl rfl ?_ hnew rfl ?_ rfl rfl
    · simp [session, answered, numbers_cons, hkey]
    · simp [session, answered, numbers_cons, hkey]

/-- The other commands in the inbox are those of other sessions. -/
theorem Linked.inbox_other (h : s.Linked ws wr) {i : Nat} {d e : Delivery}
    (hd : s.inbox[i]? = some d) (he : e ∈ s.inbox.eraseIdx i) :
    e ∈ s.inbox ∧ e.label.sessionId ≠ d.label.sessionId := by
  obtain ⟨j, hji, hj⟩ := List.mem_eraseIdx_iff_getElem?.mp he
  obtain ⟨hi, rfl⟩ := List.getElem?_eq_some_iff.mp hd
  obtain ⟨hjlt, rfl⟩ := List.getElem?_eq_some_iff.mp hj
  have hpair := List.pairwise_iff_getElem.mp h.inbox_distinct
  refine ⟨List.getElem_mem hjlt, ?_⟩
  rcases Nat.lt_or_gt_of_ne hji with hlt | hlt
  · exact hpair j i hjlt hi hlt
  · exact (hpair i j hi hjlt hlt).symm

/-- An answer to a command is the only one. -/
theorem Linked.not_answered (h : s.Linked ws wr) {label : Label}
    (hstatus : s.status label.sessionId = .processing label.number) {a : Answer}
    (ha : a ∈ s.answers) : a.label ≠ label := by
  rintro rfl
  exact (h.sessions _).not_answered hstatus (mem_numbers.mpr (List.mem_map_of_mem ha))

theorem answered_linked (h : s.Linked ws wr) {q : Protocol} {i b : Nat} {d : Delivery}
    {bytes : List UInt8} (hd : s.inbox[i]? = some d)
    (hbytes : PackageOf bytes true d.label.sessionId (s.seqNum d.label.number))
    (howned : q.Owned (Function.update wr (.ack 0 (d.label.sessionId - 1)) bytes))
    (hdevice : q.device = s.receiver.device)
    (htable : q.ackSessionTable 0 (d.label.sessionId - 1) =
      { sessionId := d.label.sessionId, sessionStatus := .ACK_SESSION_USING,
        memoryBlockPtr := some b })
    (hother : ∀ j, j ≠ d.label.sessionId - 1 →
      q.ackSessionTable 0 j = s.receiver.ackSessionTable 0 j) :
    (s.answered q i d.label (wire bytes)).Linked ws
        (Function.update wr (.ack 0 (d.label.sessionId - 1)) bytes) ∧
      ∀ k, (s.answered q i d.label (wire bytes)).session k = s.session k ∨
        RepeatLink.Step (s.session k) ((s.answered q i d.label (wire bytes)).session k) := by
  have hinbox : d ∈ s.inbox := List.mem_of_getElem? hd
  obtain ⟨hk, hk32, hlt, -, -, hprocessing⟩ := h.inbox d hinbox
  have husing : (q.ackSessionTable 0 (d.label.sessionId - 1)).sessionStatus =
      .ACK_SESSION_USING := by rw [htable]
  have hstatus := answered_status i (wire bytes) hk hprocessing husing hother
  have hsession := answered_session i (wire bytes) hk hprocessing husing hother
  have hupdate : ∀ k, 2 ≤ k → k ≠ d.label.sessionId →
      Function.update wr (.ack 0 (d.label.sessionId - 1)) bytes (.ack 0 (k - 1)) =
        wr (.ack 0 (k - 1)) := fun k hk2 hne =>
    Function.update_of_ne (fun heq => hne (by have := (Owner.ack.inj heq).2; omega)) ..
  refine ⟨h.receiver_step rfl rfl rfl (List.Sublist.refl _) howned.sentAll rfl hdevice
    (fun l hl => Or.inl hl) (fun k n h2 h32 hs => ?_) (fun t ht => ?_) (fun e he => ?_)
    (h.inbox_distinct.sublist (List.eraseIdx_sublist ..)) (fun a ha => ?_) hsession, hsession⟩
  · rw [hstatus] at hs
    split at hs
    · next hkey =>
        subst hkey
        cases hs
        refine ⟨?_, by rw [Function.update_self]; exact hbytes, _,
          List.mem_append_right _ (List.mem_singleton_self _), rfl⟩
        rw [answered, sentAll, htable]
        exact Option.some_ne_none b
    · next hne =>
        obtain ⟨hptr, hpkg, a, ha, hlabel⟩ := h.answered k n h2 h32 hs
        rw [hupdate k h2 hne]
        refine ⟨?_, hpkg, a, List.mem_append_left _ ha, hlabel⟩
        exact (congrArg ACKSession.memoryBlockPtr (hother (k - 1) (by omega))).trans_ne hptr
  · rcases List.mem_append.mp ht with ht | ht
    · obtain ⟨hlink, a, ha, hlabel, hframe⟩ := h.acks t ht
      exact ⟨hlink.mono List.prefix_rfl, a, List.mem_append_left _ ha, hlabel, hframe⟩
    · rw [List.mem_singleton] at ht
      subst ht
      exact ⟨⟨hk, hk32, hlt, bytes, rfl, hbytes⟩, _,
        List.mem_append_right _ (List.mem_singleton_self _), rfl, List.mem_singleton_self _⟩
  · obtain ⟨hmem, hne⟩ := h.inbox_other hd he
    exact (h.inbox e hmem).mono List.prefix_rfl ((hstatus _).trans (if_neg hne))
  · rcases List.mem_append.mp ha with ha | ha
    · by_cases hkey : a.label.sessionId = d.label.sessionId
      · refine ⟨(h.answers a ha).two_le, (h.answers a ha).lt, fun hs => ?_⟩
        rw [hstatus, if_pos hkey] at hs
        have hnumber : d.label.number = a.label.number := by injection hs
        have hlabel : a.label = d.label := by
          rcases a with ⟨⟨_, _⟩, _⟩
          rcases d with ⟨⟨_, _⟩, _⟩
          simp only at hkey hnumber ⊢
          rw [hkey, hnumber]
        exact absurd hlabel (h.not_answered hprocessing ha)
      · exact (h.answers a ha).mono ((hstatus _).trans (if_neg hkey))
          (hupdate _ (h.answers a ha).two_le hkey)
    · rw [List.mem_singleton] at ha
      subst ha
      refine ⟨hk, hk32, fun _ => ?_⟩
      rw [Function.update_self]

theorem respond_linked (h : s.Linked ws wr) {i : Nat} {ack : List UInt8}
    (hserved : ∀ d ∈ s.inbox[i]?,
      (s.receiver.sendACK d.header.sessionId d.header.seqNum DEVICE ack).map Prod.snd ≠ some false)
    (hstep : s.respond i ack = some s') :
    (∃ wr', s'.Linked ws wr') ∧
      ∀ k, s'.session k = s.session k ∨ RepeatLink.Step (s.session k) (s'.session k) := by
  rw [respond] at hstep
  cases hd : s.inbox[i]? with
  | none => rw [hd] at hstep; cases hstep
  | some d =>
      rw [hd] at hstep
      dsimp only at hstep
      rw [Option.map_eq_some_iff] at hstep
      obtain ⟨⟨q, sent⟩, hsend, hout⟩ := hstep
      cases sent with
      | false => exact absurd (by rw [hsend]; rfl) (hserved d hd)
      | true =>
          obtain ⟨-, -, -, hid, hnum, -⟩ := h.inbox d (List.mem_of_getElem? hd)
          rw [hid, hnum] at hsend
          obtain ⟨b, bytes, hbytes, howned, hq, hdevice, htable, hother⟩ :=
            sendACK_answers h.receiver h.receiver_out hsend
          have hs' : s' = s.answered q i d.label (wire bytes) := by
            rw [← hout, outgoing, hq]
            rfl
          subst hs'
          obtain ⟨hlinked, hsession⟩ :=
            answered_linked h hd hbytes howned hdevice htable hother
          exact ⟨⟨_, hlinked⟩, hsession⟩

/-! ## Runs -/

/-- `SendACK` does not fail: the allocation that it asks for succeeds. -/
def AckServed (s : Link) : LinkEvent → Prop
  | .respond i ack => ∀ d ∈ s.inbox[i]?,
      (s.receiver.sendACK d.header.sessionId d.header.seqNum DEVICE ack).map Prod.snd ≠ some false
  | _ => True

instance (s : Link) : ∀ e, Decidable (s.AckServed e)
  | .respond _ _ => inferInstanceAs (Decidable (∀ _ ∈ _, _))
  | .issue .. | .retry .. | .loseCommand _ | .loseAck _ | .deliverCommand | .deliverAck =>
      inferInstanceAs (Decidable True)

/-- Every step keeps the invariant, and in the view of a session it is a step or none. -/
theorem step_linked (h : s.Linked ws wr) {e : LinkEvent} (hserved : s.AckServed e)
    (hstep : s.step e = some s') :
    (∃ ws' wr', s'.Linked ws' wr') ∧
      ∀ k, s'.session k = s.session k ∨ RepeatLink.Step (s.session k) (s'.session k) := by
  cases e with
  | issue cmdSet cmdId data ackTimeout retryTime now =>
      rw [step] at hstep
      split at hstep
      · obtain ⟨⟨ws', hlinked⟩, hsession⟩ := issue_linked h hstep
        exact ⟨⟨ws', wr, hlinked⟩, hsession⟩
      · cases hstep
  | retry i now =>
      rw [step] at hstep
      split at hstep
      · obtain ⟨⟨ws', hlinked⟩, hsession⟩ := retry_linked h hstep
        exact ⟨⟨ws', wr, hlinked⟩, hsession⟩
      · cases hstep
  | loseCommand i =>
      cases hstep
      exact ⟨⟨ws, wr, (loseCommand_linked h i).1⟩, (loseCommand_linked h i).2⟩
  | loseAck i =>
      cases hstep
      exact ⟨⟨ws, wr, (loseAck_linked h i).1⟩, (loseAck_linked h i).2⟩
  | deliverCommand =>
      obtain ⟨hlinked, hsession⟩ := deliverCommand_linked h hstep
      exact ⟨⟨ws, wr, hlinked⟩, hsession⟩
  | respond i ack =>
      rw [step] at hstep
      split at hstep
      · obtain ⟨⟨wr', hlinked⟩, hsession⟩ := respond_linked h hserved hstep
        exact ⟨⟨ws, wr', hlinked⟩, hsession⟩
      · cases hstep
  | deliverAck =>
      obtain ⟨hlinked, hsession⟩ := deliverAck_linked h hstep
      exact ⟨⟨ws, wr, hlinked⟩, hsession⟩

end Link

end RoboRTS.Sdk
