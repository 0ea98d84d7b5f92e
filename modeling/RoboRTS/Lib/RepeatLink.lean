import Mathlib.Data.List.Nodup
import Mathlib.Logic.Function.Basic
import Mathlib.Order.Nat
import Mathlib.Tactic.Common

/-!
# Commands repeated over a lossy link

One session of a sender and a receiver. The sender keeps one command at a time and repeats it until
an acknowledgement arrives or it gives up; the receiver hands a command to its application, answers
it once the application is done, and answers a command with the same sequence number again. The
link loses frames in both directions and keeps their order. Commands are numbered in the order in
which they are issued; sequence numbers may come back.

`Inv` holds in every run: no command is handed over twice, and a command that has been answered is
answered again as long as no later one has been handed over. `Settled` says when an acknowledgement
is for the command that waits for it: as long as no earlier command has been repeated or given up.
-/

namespace RepeatLink

/-- What the receiver is doing: nothing yet, waiting for the application to finish with a command,
or keeping the answer to it. -/
inductive Status where
  | idle
  | processing (n : Nat)
  | answered (n : Nat)
  deriving DecidableEq

/-- The state of a session: the sequence numbers of the commands issued so far, all below `next`,
the last of them and whether it waits for its acknowledgement, the frames on the link, and what the
receiver has done. `accepted` pairs the waiting command with the command whose acknowledgement was
taken for it, `repeated` has the commands that were repeated or given up. -/
@[ext]
structure State (τ : Type*) where
  next : Nat
  seq : Nat → τ
  stored : Option Nat
  waiting : Bool
  commands : List Nat
  acks : List Nat
  status : Status
  delivered : List Nat
  answers : List Nat
  accepted : List (Nat × Nat)
  repeated : List Nat

variable {τ : Type*}

/-- The steps of a session. A frame that arrives and has no effect is a lost frame; `other` is a
command issued in another session, which uses up a number. -/
inductive Step : State τ → State τ → Prop
  | issue {a : State τ} (n : Nat) (t : τ) :
      a.waiting = false → a.next ≤ n → (∀ d, a.stored = some d → a.seq d ≠ t) →
      Step a { a with
        next := n + 1, seq := Function.update a.seq n t, stored := some n, waiting := true
        commands := a.commands ++ [n] }
  | other {a : State τ} (n : Nat) (t : τ) :
      a.next ≤ n → Step a { a with next := n + 1, seq := Function.update a.seq n t }
  | again {a : State τ} (c : Nat) :
      a.waiting = true → a.stored = some c →
      Step a { a with commands := a.commands ++ [c], repeated := a.repeated ++ [c] }
  | giveUp {a : State τ} (c : Nat) :
      a.waiting = true → a.stored = some c →
      Step a { a with waiting := false, repeated := a.repeated ++ [c] }
  | loseCommands {a : State τ} (commands : List Nat) :
      commands.Sublist a.commands → Step a { a with commands := commands }
  | loseAcks {a : State τ} (acks : List Nat) :
      acks.Sublist a.acks → Step a { a with acks := acks }
  | deliver {a : State τ} (c : Nat) (rest : List Nat) :
      a.commands = c :: rest →
      (a.status = .idle ∨ ∃ d, a.status = .answered d ∧ a.seq d ≠ a.seq c) →
      Step a { a with
        commands := rest, status := .processing c, delivered := a.delivered ++ [c] }
  | reanswer {a : State τ} (c d : Nat) (rest : List Nat) :
      a.commands = c :: rest → a.status = .answered d → a.seq d = a.seq c →
      Step a { a with commands := rest, acks := a.acks ++ [d] }
  | answer {a : State τ} (d : Nat) :
      a.status = .processing d →
      Step a { a with status := .answered d, acks := a.acks ++ [d], answers := a.answers ++ [d] }
  | accept {a : State τ} (c m : Nat) (rest : List Nat) :
      a.acks = m :: rest → a.waiting = true → a.stored = some c →
      Step a { a with acks := rest, waiting := false, accepted := a.accepted ++ [(c, m)] }

/-! ## At most once -/

/-- The command the receiver is busy with or keeps the answer of. -/
def Status.last : Status → Option Nat
  | .idle => none
  | .processing n => some n
  | .answered n => some n

/-- Commands are on the link in the order in which they were issued, none of them older than one
that was handed over; the last one handed over is the one the receiver keeps. -/
structure Inv (a : State τ) : Prop where
  ordered : a.commands.Pairwise (· ≤ ·)
  stored_lt : ∀ s, a.stored = some s → s < a.next
  commands_le : ∀ c ∈ a.commands, ∃ s, a.stored = some s ∧ c ≤ s
  delivered_stored : ∀ n ∈ a.delivered, ∃ s, a.stored = some s ∧ n ≤ s
  delivered_le : ∀ n ∈ a.delivered, ∀ c ∈ a.commands, n ≤ c
  nodup : a.delivered.Nodup
  last_none : a.status.last = none → a.delivered = []
  last_mem : ∀ d, a.status.last = some d → d ∈ a.delivered ∧ ∀ n ∈ a.delivered, n ≤ d
  answers : ∀ n ∈ a.answers, n ∈ a.delivered ∧ (a.status = .answered n ∨ ∃ d ∈ a.delivered, n < d)

/-- A session that has not been used. -/
theorem Inv.init {a : State τ} (hcommands : a.commands = []) (hstored : a.stored = none)
    (hdelivered : a.delivered = []) (hstatus : a.status = .idle) (hanswers : a.answers = []) :
    Inv a := by
  constructor <;> simp [hcommands, hstored, hdelivered, hstatus, hanswers, Status.last]

/-- A command that the receiver takes for a new one is newer than all it has handed over. -/
theorem Inv.new {a : State τ} (h : Inv a) {c : Nat} (hc : c ∈ a.commands)
    (hstatus : a.status = .idle ∨ ∃ d, a.status = .answered d ∧ a.seq d ≠ a.seq c) :
    ∀ n ∈ a.delivered, n < c := by
  rcases hstatus with hidle | ⟨d, hanswered, hseq⟩
  · rw [h.last_none (by rw [hidle]; rfl)]
    simp
  · obtain ⟨hd, hle⟩ := h.last_mem d (by rw [hanswered]; rfl)
    have hdc := h.delivered_le d hd c hc
    have hne : d ≠ c := fun heq => hseq (by rw [heq])
    intro n hn
    have := hle n hn
    omega

/-- No command goes on the link, and some may be lost. -/
theorem Inv.of_sublist {a b : State τ} (h : Inv a) (hcommands : b.commands.Sublist a.commands)
    (hnext : a.next ≤ b.next) (hstored : b.stored = a.stored)
    (hdelivered : b.delivered = a.delivered) (hstatus : b.status = a.status)
    (hanswers : b.answers = a.answers) : Inv b where
  ordered := h.ordered.sublist hcommands
  stored_lt s hs := (h.stored_lt s (hstored ▸ hs)).trans_le hnext
  commands_le c hc := hstored ▸ h.commands_le c (hcommands.subset hc)
  delivered_stored := hstored ▸ hdelivered ▸ h.delivered_stored
  delivered_le n hn c hc := h.delivered_le n (hdelivered ▸ hn) c (hcommands.subset hc)
  nodup := hdelivered ▸ h.nodup
  last_none := hstatus ▸ hdelivered ▸ h.last_none
  last_mem := hstatus ▸ hdelivered ▸ h.last_mem
  answers := hanswers ▸ hdelivered ▸ hstatus ▸ h.answers

/-- The stored command, which is not older than the one before, goes on the link. -/
theorem Inv.send {a b : State τ} (h : Inv a) {n : Nat} (hle : ∀ s, a.stored = some s → s ≤ n)
    (hcommands : b.commands = a.commands ++ [n]) (hnext : n < b.next) (hstored : b.stored = some n)
    (hdelivered : b.delivered = a.delivered) (hstatus : b.status = a.status)
    (hanswers : b.answers = a.answers) : Inv b where
  ordered := by
    rw [hcommands]
    refine List.pairwise_append.mpr ⟨h.ordered, List.pairwise_singleton _ _, fun c hc m hm => ?_⟩
    obtain ⟨s, hs, hcs⟩ := h.commands_le c hc
    rw [List.mem_singleton.mp hm]
    exact hcs.trans (hle s hs)
  stored_lt s hs := by
    rw [hstored] at hs
    cases hs
    exact hnext
  commands_le c hc := by
    rw [hcommands] at hc
    refine ⟨n, hstored, ?_⟩
    rcases List.mem_append.mp hc with hc | hc
    · obtain ⟨s, hs, hcs⟩ := h.commands_le c hc
      exact hcs.trans (hle s hs)
    · exact (List.mem_singleton.mp hc).le
  delivered_stored m hm := by
    obtain ⟨s, hs, hms⟩ := h.delivered_stored m (hdelivered ▸ hm)
    exact ⟨n, hstored, hms.trans (hle s hs)⟩
  delivered_le m hm c hc := by
    rw [hcommands] at hc
    rw [hdelivered] at hm
    rcases List.mem_append.mp hc with hc | hc
    · exact h.delivered_le m hm c hc
    · obtain ⟨s, hs, hms⟩ := h.delivered_stored m hm
      rw [List.mem_singleton.mp hc]
      exact hms.trans (hle s hs)
  nodup := hdelivered ▸ h.nodup
  last_none := hstatus ▸ hdelivered ▸ h.last_none
  last_mem := hstatus ▸ hdelivered ▸ h.last_mem
  answers := hanswers ▸ hdelivered ▸ hstatus ▸ h.answers

theorem Inv.step {a a' : State τ} (h : Inv a) (hstep : Step a a') : Inv a' := by
  cases hstep with
  | issue n t hfree hnext hseq =>
      have hle : ∀ s, a.stored = some s → s ≤ n := fun s hs => (h.stored_lt s hs).le.trans hnext
      exact h.send hle rfl (Nat.lt_succ_self n) rfl rfl rfl rfl
  | other n t hnext =>
      exact h.of_sublist (List.Sublist.refl _) (hnext.trans (Nat.le_succ n)) rfl rfl rfl rfl
  | again c hwaiting hstored =>
      have hle : ∀ s, a.stored = some s → s ≤ c := fun s hs =>
        (Option.some.inj (hs.symm.trans hstored)).le
      exact h.send hle rfl (h.stored_lt c hstored) hstored rfl rfl rfl
  | giveUp c hwaiting hstored =>
      exact h.of_sublist (List.Sublist.refl _) le_rfl rfl rfl rfl rfl
  | loseCommands commands hsub => exact h.of_sublist hsub le_rfl rfl rfl rfl rfl
  | loseAcks acks hsub => exact h.of_sublist (List.Sublist.refl _) le_rfl rfl rfl rfl rfl
  | deliver c rest hcommands hstatus =>
      have hmem : ∀ m ∈ rest, m ∈ a.commands := fun m hm => by
        rw [hcommands]
        exact List.mem_cons_of_mem c hm
      have hc : c ∈ a.commands := by rw [hcommands]; exact List.mem_cons_self
      have hnew := h.new hc hstatus
      have hordered := h.ordered
      rw [hcommands, List.pairwise_cons] at hordered
      have hdelivered : ∀ n ∈ a.delivered ++ [c], n ≤ c := fun n hn => by
        rcases List.mem_append.mp hn with hn | hn
        · exact (hnew n hn).le
        · exact (List.mem_singleton.mp hn).le
      refine ⟨hordered.2, h.stored_lt, fun m hm => h.commands_le m (hmem m hm), ?_, ?_, ?_, ?_, ?_,
        ?_⟩
      · intro n hn
        obtain ⟨s, hs, hle⟩ := h.commands_le c hc
        have := hdelivered n hn
        exact ⟨s, hs, by omega⟩
      · intro n hn m hm
        have := hdelivered n hn
        have := hordered.1 m hm
        omega
      · refine List.nodup_append.mpr ⟨h.nodup, List.nodup_singleton c, fun n hn m hm => ?_⟩
        rw [List.mem_singleton.mp hm]
        exact (hnew n hn).ne
      · intro hnone
        cases hnone
      · intro d hd
        cases hd
        exact ⟨List.mem_append_right _ List.mem_cons_self, hdelivered⟩
      · intro n hn
        have hold := (h.answers n hn).1
        exact ⟨List.mem_append_left _ hold,
          Or.inr ⟨c, List.mem_append_right _ List.mem_cons_self, hnew n hold⟩⟩
  | reanswer c d rest hcommands hstatus hseq =>
      have hsub : rest.Sublist a.commands := hcommands ▸ List.sublist_cons_self c rest
      exact h.of_sublist hsub le_rfl rfl rfl rfl rfl
  | answer d hstatus =>
      obtain ⟨hd, hle⟩ := h.last_mem d (by rw [hstatus]; rfl)
      refine ⟨h.ordered, h.stored_lt, h.commands_le, h.delivered_stored, h.delivered_le, h.nodup,
        ?_, ?_, ?_⟩
      · intro hnone
        cases hnone
      · intro d' hd'
        cases hd'
        exact ⟨hd, hle⟩
      · intro n hn
        rcases List.mem_append.mp hn with hn | hn
        · obtain ⟨hold, hcases⟩ := h.answers n hn
          refine ⟨hold, Or.inr (hcases.resolve_left ?_)⟩
          rw [hstatus]
          exact fun h => nomatch h
        · rw [List.mem_singleton.mp hn]
          exact ⟨hd, Or.inl rfl⟩
  | accept c m rest hacks hwaiting hstored =>
      exact h.of_sublist (List.Sublist.refl _) le_rfl rfl rfl rfl rfl

/-- A step or none. -/
theorem Inv.next {a a' : State τ} (h : Inv a) (hstep : a' = a ∨ Step a a') : Inv a' := by
  rcases hstep with rfl | hstep
  · exact h
  · exact h.step hstep

/-- A command that has been answered is answered again, as long as no later one has been handed
over. -/
theorem Inv.answered {a : State τ} (h : Inv a) {n : Nat} (hn : n ∈ a.answers)
    (hlast : ∀ d ∈ a.delivered, d ≤ n) : a.status = .answered n := by
  rcases (h.answers n hn).2 with hstatus | ⟨d, hd, hlt⟩
  · exact hstatus
  · have := hlast d hd
    omega

/-- The command that the application is busy with has not been answered. -/
theorem Inv.not_answered {a : State τ} (h : Inv a) {n : Nat} (hn : a.status = .processing n) :
    n ∉ a.answers := by
  intro hmem
  rcases (h.answers n hmem).2 with hstatus | ⟨d, hd, hlt⟩
  · exact nomatch hn.symm.trans hstatus
  · have := (h.last_mem n (by rw [hn]; rfl)).2 d hd
    omega

/-! ## Acknowledgements of the waiting command -/

/-- What holds as long as no command but the stored one has been repeated or given up: there is
nothing on the link but that command and acknowledgements of it, and the receiver takes it for a
new command until it has handed it over. -/
structure Calm (a : State τ) : Prop where
  commands : ∀ c ∈ a.commands, a.stored = some c
  acks : ∀ m ∈ a.acks, a.stored = some m
  processing : ∀ d, a.status = .processing d → a.stored = some d
  answered : ∀ d, a.status = .answered d →
    a.stored = some d ∨ ∀ s, a.stored = some s → a.seq d ≠ a.seq s

/-- Where the stored command is while it waits and has not been repeated: on its way, with the
application, or answered. -/
inductive Phase (a : State τ) : Prop
  | sent : a.commands.length ≤ 1 → a.acks = [] → (∀ d, a.status ≠ .processing d) →
      (∀ d, a.status = .answered d → a.stored ≠ some d) → Phase a
  | processing (d : Nat) : a.commands = [] → a.acks = [] → a.status = .processing d → Phase a
  | answered (d : Nat) : a.commands = [] → a.acks.length ≤ 1 → a.status = .answered d →
      a.stored = some d → Phase a

/-- What holds as long as nothing has been repeated or given up: the stored command is in one
place, and once its acknowledgement has arrived there is nothing on the link. -/
structure Quiet (a : State τ) : Prop where
  resting : a.waiting = false → a.commands = [] ∧ a.acks = [] ∧
    (a.status = .idle ∨ ∃ d, a.status = .answered d ∧ a.stored = some d)
  waiting : a.waiting = true → Phase a

/-- No command has been repeated or given up, or only the stored one. -/
structure Settled (a : State τ) : Prop where
  repeated_lt : ∀ n ∈ a.repeated, n < a.next
  quiet : a.repeated = [] → Quiet a
  calm : (∀ n ∈ a.repeated, a.stored = some n) → Calm a

/-- A session that has not been used. -/
theorem Settled.init {a : State τ} (hcommands : a.commands = []) (hacks : a.acks = [])
    (hwaiting : a.waiting = false) (hstatus : a.status = .idle) (hrepeated : a.repeated = []) :
    Settled a := by
  refine ⟨by simp [hrepeated], fun _ => ⟨fun _ => ⟨hcommands, hacks, Or.inl hstatus⟩, fun h => ?_⟩,
    fun _ => ?_⟩
  · rw [hwaiting] at h
    cases h
  · constructor <;> simp [hcommands, hacks, hstatus]

/-- The command the receiver keeps is one of those issued. -/
theorem Inv.last_lt {a : State τ} (h : Inv a) {d : Nat} (hd : a.status.last = some d) :
    d < a.next := by
  obtain ⟨s, hs, hle⟩ := h.delivered_stored d (h.last_mem d hd).1
  have := h.stored_lt s hs
  omega

theorem Calm.lose {a a' : State τ} (h : Calm a) (hcommands : a'.commands.Sublist a.commands)
    (hacks : a'.acks.Sublist a.acks) (hstatus : a'.status = a.status) (hseq : a'.seq = a.seq)
    (hstored : a'.stored = a.stored) : Calm a' := by
  refine ⟨fun c hc => ?_, fun m hm => ?_, fun d hd => ?_, fun d hd => ?_⟩
  · rw [hstored]
    exact h.commands c (hcommands.subset hc)
  · rw [hstored]
    exact h.acks m (hacks.subset hm)
  · rw [hstored]
    exact h.processing d (hstatus.symm.trans hd)
  · rw [hstored, hseq]
    exact h.answered d (hstatus.symm.trans hd)

/-- A command that is answered again is the stored one. -/
theorem Calm.reanswer {a : State τ} (h : Calm a) {c d : Nat} (hc : c ∈ a.commands)
    (hstatus : a.status = .answered d) (hseq : a.seq d = a.seq c) : a.stored = some d :=
  (h.answered d hstatus).resolve_right fun hne => hne c (h.commands c hc) hseq

/-- Every step keeps a session calm, until a command is issued after another was repeated. -/
theorem Settled.calm_step {a a' : State τ} (hinv : Inv a) (h : Settled a) (hstep : Step a a')
    (honly : ∀ n ∈ a'.repeated, a'.stored = some n) : Calm a' := by
  cases hstep with
  | issue n t hfree hnext hseq =>
      -- what was repeated before is older than the new command
      have hnone : a.repeated = [] := by
        refine List.eq_nil_iff_forall_not_mem.mpr fun m hm => ?_
        have hlt := h.repeated_lt m hm
        have heq : some n = some m := honly m hm
        cases heq
        omega
      obtain ⟨hc, ha, hst⟩ := (h.quiet hnone).resting hfree
      refine ⟨by simp [hc], by simp [ha], fun d hd => ?_, fun d hd => Or.inr fun s hs => ?_⟩
      · rcases hst with hidle | ⟨d', hd', -⟩
        · exact nomatch hidle.symm.trans hd
        · exact nomatch hd'.symm.trans hd
      · cases hs
        rcases hst with hidle | ⟨d', hd', hstored⟩
        · exact nomatch hidle.symm.trans hd
        · cases hd'.symm.trans hd
          have hlt := hinv.stored_lt d hstored
          dsimp only
          rw [Function.update_self, Function.update_of_ne (by omega)]
          exact hseq d hstored
  | other n t hnext =>
      have hcalm := h.calm honly
      refine ⟨hcalm.commands, hcalm.acks, hcalm.processing, fun d hd => ?_⟩
      have hlt := hinv.last_lt (d := d) (congrArg Status.last hd)
      refine (hcalm.answered d hd).imp_right fun hne s hs => ?_
      have := hinv.stored_lt s hs
      dsimp only
      rw [Function.update_of_ne (by omega), Function.update_of_ne (by omega)]
      exact hne s hs
  | again c hwaiting hstored =>
      have hcalm := h.calm fun n hn => honly n (List.mem_append_left _ hn)
      refine ⟨fun m hm => ?_, hcalm.acks, hcalm.processing, hcalm.answered⟩
      rcases List.mem_append.mp hm with hm | hm
      · exact hcalm.commands m hm
      · rw [List.mem_singleton.mp hm]
        exact hstored
  | giveUp c hwaiting hstored =>
      exact (h.calm fun n hn => honly n (List.mem_append_left _ hn)).lose (List.Sublist.refl _)
        (List.Sublist.refl _) rfl rfl rfl
  | loseCommands commands hsub => exact (h.calm honly).lose hsub (List.Sublist.refl _) rfl rfl rfl
  | loseAcks acks hsub => exact (h.calm honly).lose (List.Sublist.refl _) hsub rfl rfl rfl
  | deliver c rest hcommands hstatus =>
      have hcalm := h.calm honly
      refine ⟨fun m hm => hcalm.commands m ?_, hcalm.acks, fun d hd => ?_, fun d hd => nomatch hd⟩
      · rw [hcommands]
        exact List.mem_cons_of_mem c hm
      · cases hd
        exact hcalm.commands c (by rw [hcommands]; exact List.mem_cons_self)
  | reanswer c d rest hcommands hstatus hseq =>
      have hcalm := h.calm honly
      have hc : c ∈ a.commands := by rw [hcommands]; exact List.mem_cons_self
      refine ⟨fun m hm => hcalm.commands m ?_, fun m hm => ?_, hcalm.processing, hcalm.answered⟩
      · rw [hcommands]
        exact List.mem_cons_of_mem c hm
      · rcases List.mem_append.mp hm with hm | hm
        · exact hcalm.acks m hm
        · rw [List.mem_singleton.mp hm]
          exact hcalm.reanswer hc hstatus hseq
  | answer d hstatus =>
      have hcalm := h.calm honly
      have hstored := hcalm.processing d hstatus
      refine ⟨hcalm.commands, fun m hm => ?_, (fun n hn => nomatch hn), fun n hn => ?_⟩
      · rcases List.mem_append.mp hm with hm | hm
        · exact hcalm.acks m hm
        · rw [List.mem_singleton.mp hm]
          exact hstored
      · cases hn
        exact Or.inl hstored
  | accept c m rest hacks hwaiting hstored =>
      have hsub : rest.Sublist a.acks := hacks ▸ List.sublist_cons_self m rest
      exact (h.calm honly).lose (List.Sublist.refl _) hsub rfl rfl rfl

/-- What is at the head of the command queue of a quiet session. -/
theorem Quiet.head {a : State τ} (h : Quiet a) {c : Nat} {rest : List Nat}
    (hcommands : a.commands = c :: rest) :
    a.waiting = true ∧ rest = [] ∧ a.acks = [] ∧
      ∀ d, a.status = .answered d → a.stored ≠ some d := by
  cases hw : a.waiting with
  | false =>
      have hnil := (h.resting hw).1
      rw [hcommands] at hnil
      cases hnil
  | true =>
      cases h.waiting hw with
      | sent hlen ha _ hans =>
          rw [hcommands, List.length_cons] at hlen
          exact ⟨rfl, List.length_eq_zero_iff.mp (by omega), ha, hans⟩
      | processing d hc => rw [hcommands] at hc; cases hc
      | answered d hc => rw [hcommands] at hc; cases hc

/-- Losing frames of the stored command changes nothing. -/
theorem Quiet.lose {a a' : State τ} (h : Quiet a) (hcommands : a'.commands.Sublist a.commands)
    (hacks : a'.acks.Sublist a.acks) (hstatus : a'.status = a.status)
    (hstored : a'.stored = a.stored) (hwaiting : a'.waiting = a.waiting) : Quiet a' := by
  refine ⟨fun hw => ?_, fun hw => ?_⟩
  · obtain ⟨hc, ha, hst⟩ := h.resting (hwaiting.symm.trans hw)
    rw [hc] at hcommands
    rw [ha] at hacks
    rw [hstatus, hstored]
    exact ⟨List.sublist_nil.mp hcommands, List.sublist_nil.mp hacks, hst⟩
  · cases h.waiting (hwaiting.symm.trans hw) with
    | sent hlen ha hproc hans =>
        rw [ha] at hacks
        refine .sent (hcommands.length_le.trans hlen) (List.sublist_nil.mp hacks) ?_ ?_
        · rwa [hstatus]
        · rwa [hstatus, hstored]
    | processing d hc ha hst =>
        rw [hc] at hcommands
        rw [ha] at hacks
        exact .processing d (List.sublist_nil.mp hcommands) (List.sublist_nil.mp hacks)
          (hstatus.trans hst)
    | answered d hc hlen hst hd =>
        rw [hc] at hcommands
        exact .answered d (List.sublist_nil.mp hcommands) (hacks.length_le.trans hlen)
          (hstatus.trans hst) (hstored.trans hd)

/-- Every step that repeats nothing and gives nothing up keeps a quiet session quiet. -/
theorem Settled.quiet_step {a a' : State τ} (hinv : Inv a) (h : Settled a) (hstep : Step a a')
    (hnone : a'.repeated = []) : Quiet a' := by
  cases hstep with
  | issue n t hfree hnext hseq =>
      obtain ⟨hc, ha, hst⟩ := (h.quiet hnone).resting hfree
      refine ⟨(fun hw => nomatch hw), fun _ => .sent (by simp [hc]) ha (fun d hd => ?_)
        fun d hd => ?_⟩
      · rcases hst with hidle | ⟨d', hd', -⟩
        · exact nomatch hidle.symm.trans hd
        · exact nomatch hd'.symm.trans hd
      · rcases hst with hidle | ⟨d', hd', hstored⟩
        · exact nomatch hidle.symm.trans hd
        · cases hd'.symm.trans hd
          have hlt := hinv.stored_lt d hstored
          intro heq
          cases heq
          omega
  | other n t hnext =>
      exact (h.quiet hnone).lose (List.Sublist.refl _) (List.Sublist.refl _) rfl rfl rfl
  | again c hwaiting hstored => exact absurd hnone (by simp)
  | giveUp c hwaiting hstored => exact absurd hnone (by simp)
  | loseCommands commands hsub =>
      exact (h.quiet hnone).lose hsub (List.Sublist.refl _) rfl rfl rfl
  | loseAcks acks hsub => exact (h.quiet hnone).lose (List.Sublist.refl _) hsub rfl rfl rfl
  | deliver c rest hcommands hstatus =>
      obtain ⟨hw, hrest, ha, -⟩ := (h.quiet hnone).head hcommands
      refine ⟨fun hfree => ?_, fun _ => .processing c hrest ha rfl⟩
      exact nomatch hw.symm.trans hfree
  | reanswer c d rest hcommands hstatus hseq =>
      have hcalm := h.calm fun n hn => by
        rw [show a.repeated = [] from hnone] at hn
        cases hn
      have hc : c ∈ a.commands := by rw [hcommands]; exact List.mem_cons_self
      exact absurd (hcalm.reanswer hc hstatus hseq)
        (((h.quiet hnone).head hcommands).2.2.2 d hstatus)
  | answer d hstatus =>
      have hcalm := h.calm fun n hn => by
        rw [show a.repeated = [] from hnone] at hn
        cases hn
      have hstored := hcalm.processing d hstatus
      refine ⟨fun hfree => ?_, fun hw => ?_⟩
      · obtain ⟨-, -, hidle | ⟨d', hd', -⟩⟩ := (h.quiet hnone).resting hfree
        · exact nomatch hstatus.symm.trans hidle
        · exact nomatch hstatus.symm.trans hd'
      · cases (h.quiet hnone).waiting hw with
        | sent hlen ha hproc hans => exact absurd hstatus (hproc d)
        | processing d' hc ha hst => exact .answered d hc (by simp [ha]) rfl hstored
        | answered d' hc hlen hst hd => exact nomatch hstatus.symm.trans hst
  | accept c m rest hacks hwaiting hstored =>
      refine ⟨fun _ => ?_, fun hw => nomatch hw⟩
      cases (h.quiet hnone).waiting hwaiting with
      | sent hlen ha => rw [hacks] at ha; cases ha
      | processing d hc ha => rw [hacks] at ha; cases ha
      | answered d hc hlen hst hd =>
          rw [hacks, List.length_cons] at hlen
          have hrest : rest = [] := List.length_eq_zero_iff.mp (by omega)
          exact ⟨hc, hrest, Or.inr ⟨d, hst, hd⟩⟩

/-- The commands that were repeated are among those issued. -/
theorem Settled.repeated_step {a a' : State τ} (hinv : Inv a) (h : Settled a)
    (hstep : Step a a') : ∀ n ∈ a'.repeated, n < a'.next := by
  have hrepeat : ∀ c, a.stored = some c → ∀ n ∈ a.repeated ++ [c], n < a.next := by
    intro c hc n hn
    rcases List.mem_append.mp hn with hn | hn
    · exact h.repeated_lt n hn
    · rw [List.mem_singleton.mp hn]
      exact hinv.stored_lt c hc
  cases hstep with
  | issue n t _ hnext =>
      exact fun m hm => Nat.lt_succ_of_lt ((h.repeated_lt m hm).trans_le hnext)
  | other n t hnext =>
      exact fun m hm => Nat.lt_succ_of_lt ((h.repeated_lt m hm).trans_le hnext)
  | again c _ hstored => exact hrepeat c hstored
  | giveUp c _ hstored => exact hrepeat c hstored
  | loseCommands | loseAcks | deliver | reanswer | answer | accept => exact h.repeated_lt

/-- A step or none. -/
theorem Settled.next {a a' : State τ} (hinv : Inv a) (h : Settled a)
    (hstep : a' = a ∨ Step a a') : Settled a' := by
  rcases hstep with rfl | hstep
  · exact h
  · exact ⟨h.repeated_step hinv hstep, h.quiet_step hinv hstep, h.calm_step hinv hstep⟩

end RepeatLink
