import RoboRTS.Lib.Path
import Mathlib.Data.List.Nodup

/-!
# Best-first search with parent pointers

A search takes one node after the other from the open nodes, closes it and relaxes its edges:
a node that is not closed gets the node as its parent where that lowers its score. `Expands` says
what one such step can do, whatever the order in which nodes are taken. `Inv` holds after any
number of them, so the parents of a closed node spell out a path whose cost is its score, and a
search without open nodes has closed everything reachable.

When the node that is taken has the least score plus estimate and the estimate is consistent, its
score is final (`Inv.optimal`).
-/

namespace BestFirst

open Path

variable {α : Type*}

/-- The data of a search. `closed` lists the closed nodes in the order in which they were taken. -/
structure Frontier (α : Type*) where
  closed : List α
  opened : α → Prop
  parent : α → α
  g : α → ℤ

/-- `i` is neither relaxed nor taken by the step that takes `c`, or it is `c` itself. -/
structure Kept (s : Frontier α) (c : α) (s' : Frontier α) (i : α) : Prop where
  g : s'.g i = s.g i
  parent : s'.parent i = s.parent i
  opened : s'.opened i ↔ s.opened i ∧ i ≠ c

/-- The edge from `c` gives `i` a new parent and score. -/
structure Relaxed (E : α → α → Prop) (w : α → α → ℤ) (s : Frontier α) (c : α)
    (s' : Frontier α) (i : α) : Prop where
  edge : E c i
  notClosed : i ∉ s'.closed
  opened : s'.opened i
  parent : s'.parent i = c
  g : s'.g i = s.g c + w c i
  lower : s.opened i → s'.g i ≤ s.g i

/-- The step that takes `c`: it is closed and, but at the goal, its edges are relaxed. -/
structure Expands (E : α → α → Prop) (w : α → α → ℤ) (goal : α) (s : Frontier α) (c : α)
    (s' : Frontier α) : Prop where
  mem : s.opened c
  closed : s'.closed = s.closed ++ [c]
  node : ∀ i, Kept s c s' i ∨ Relaxed E w s c s' i
  relaxed : c ≠ goal → ∀ i, E c i → i ∈ s'.closed ∨ s'.opened i ∧ s'.g i ≤ s.g c + w c i

/-- The parent of a node is among `before`, with an edge that its score accounts for. -/
structure Hangs (E : α → α → Prop) (w : α → α → ℤ) (s : Frontier α) (before : List α) (i : α) :
    Prop where
  mem : s.parent i ∈ before
  edge : E (s.parent i) i
  g : s.g i = s.g (s.parent i) + w (s.parent i) i

/-- The invariant of a search from `start`. -/
structure Inv (E : α → α → Prop) (w : α → α → ℤ) (start goal : α) (s : Frontier α) : Prop where
  nodup : s.closed.Nodup
  apart : ∀ i, s.opened i → i ∉ s.closed
  started : s.closed = [] ∨ start ∈ s.closed
  g_start : s.g start = 0
  opened : ∀ i, s.opened i → i ≠ start → Hangs E w s s.closed i
  closed : ∀ l₁ i l₂, s.closed = l₁ ++ i :: l₂ → i ≠ start → Hangs E w s l₁ i
  frontier : ∀ c ∈ s.closed, c ≠ goal → ∀ i, E c i →
    i ∈ s.closed ∨ s.opened i ∧ s.g i ≤ s.g c + w c i

variable {E : α → α → Prop} {w : α → α → ℤ} {start goal c : α} {s s' : Frontier α}

/-- Before the first step only the start is open, with score zero. -/
theorem Inv.init (hclosed : s.closed = []) (hopened : ∀ i, s.opened i → i = start)
    (hg : s.g start = 0) : Inv E w start goal s where
  nodup := by simp [hclosed]
  apart := by simp [hclosed]
  started := Or.inl hclosed
  g_start := hg
  opened i hi hne := absurd (hopened i hi) hne
  closed := by simp [hclosed]
  frontier := by simp [hclosed]

section Step

variable (h : Expands E w goal s c s')
include h

theorem Expands.mem_closed {i : α} : i ∈ s'.closed ↔ i ∈ s.closed ∨ i = c := by
  simp [h.closed]

/-- Only nodes that are not closed are relaxed. -/
theorem Expands.kept_of_closed {i : α} (hi : i ∈ s'.closed) : Kept s c s' i := by
  cases h.node i with
  | inl hkept => exact hkept
  | inr hrelaxed => exact absurd hi hrelaxed.notClosed

/-- The parent and the score of a node stand while it and its parent are kept. -/
theorem Expands.hangs {i : α} {before before' : List α} (hi : Hangs E w s before i)
    (hkept : Kept s c s' i) (hbefore : before ⊆ s'.closed) (hsub : before ⊆ before') :
    Hangs E w s' before' i := by
  have hparent := h.kept_of_closed (hbefore hi.mem)
  constructor
  case mem => exact hkept.parent ▸ hsub hi.mem
  case edge => exact hkept.parent ▸ hi.edge
  case g =>
    rw [hkept.parent, hkept.g, hparent.g]
    exact hi.g

theorem Expands.hangs_of_relaxed {i : α} (hi : Relaxed E w s c s' i) :
    Hangs E w s' s'.closed i := by
  have hc : c ∈ s'.closed := h.mem_closed.mpr (Or.inr rfl)
  constructor
  case mem => exact hi.parent ▸ hc
  case edge => exact hi.parent ▸ hi.edge
  case g =>
    rw [hi.parent, hi.g, (h.kept_of_closed hc).g]

/-- One step of the search keeps the invariant. -/
theorem Inv.expands (hinv : Inv E w start goal s) : Inv E w start goal s' := by
  have hsub : s.closed ⊆ s'.closed := fun i hi => h.mem_closed.mpr (Or.inl hi)
  have hstart : start ∈ s'.closed := by
    cases hinv.started with
    | inl hnil =>
        -- nothing hangs from an empty list, so the node that is taken is the start
        by_cases hc : c = start
        · exact h.mem_closed.mpr (Or.inr hc.symm)
        · have hmem := (hinv.opened c h.mem hc).mem
          simp [hnil] at hmem
    | inr hmem => exact hsub hmem
  constructor
  case nodup =>
    rw [h.closed, List.nodup_append]
    refine ⟨hinv.nodup, List.nodup_singleton c, ?_⟩
    rintro i hi _ hc rfl
    obtain rfl := List.mem_singleton.mp hc
    exact hinv.apart i h.mem hi
  case apart =>
    intro i hi hmem
    have hkept := h.kept_of_closed hmem
    obtain ⟨hopen, hne⟩ := hkept.opened.mp hi
    cases h.mem_closed.mp hmem with
    | inl hold => exact hinv.apart i hopen hold
    | inr hc => exact hne hc
  case started => exact Or.inr hstart
  case g_start =>
    rw [(h.kept_of_closed hstart).g]
    exact hinv.g_start
  case opened =>
    intro i hi hne
    cases h.node i with
    | inl hkept =>
        exact h.hangs (hinv.opened i (hkept.opened.mp hi).1 hne) hkept hsub hsub
    | inr hrelaxed => exact h.hangs_of_relaxed hrelaxed
  case closed =>
    intro l₁ i l₂ hsplit hne
    have hkept := h.kept_of_closed (i := i) (by simp [hsplit])
    rw [h.closed] at hsplit
    obtain ⟨rfl, rfl, rfl⟩ | ⟨l₂', -, hold⟩ :
        (l₁ = s.closed ∧ i = c ∧ l₂ = []) ∨
          ∃ l₂', l₂ = l₂' ++ [c] ∧ s.closed = l₁ ++ i :: l₂' := by
      cases l₂ using List.reverseRecOn with
      | nil =>
          obtain ⟨hl, hi⟩ := List.append_inj' hsplit rfl
          exact Or.inl ⟨hl.symm, (List.singleton_inj.mp hi).symm, rfl⟩
      | append_singleton l₂ x =>
          have hassoc : l₁ ++ i :: (l₂ ++ [x]) = (l₁ ++ i :: l₂) ++ [x] := by simp
          rw [hassoc] at hsplit
          obtain ⟨hl, hx⟩ := List.append_inj' hsplit rfl
          exact Or.inr ⟨l₂, by rw [List.singleton_inj.mp hx], hl⟩
    · exact h.hangs (hinv.opened i h.mem hne) hkept hsub (fun _ hx => hx)
    · refine h.hangs (hinv.closed l₁ i l₂' hold hne) hkept ?_ (fun _ hx => hx)
      intro x hx
      exact hsub (by rw [hold]; exact List.mem_append_left _ hx)
  case frontier =>
    intro d hd hne i hedge
    cases h.mem_closed.mp hd with
    | inr hdc =>
        subst hdc
        rw [(h.kept_of_closed hd).g]
        exact h.relaxed hne i hedge
    | inl hold =>
        rw [(h.kept_of_closed hd).g]
        cases hinv.frontier d hold hne i hedge with
        | inl hclosed => exact Or.inl (hsub hclosed)
        | inr hopen =>
            obtain ⟨hopen, hle⟩ := hopen
            cases h.node i with
            | inr hrelaxed => exact Or.inr ⟨hrelaxed.opened, (hrelaxed.lower hopen).trans hle⟩
            | inl hkept =>
                by_cases hic : i = c
                · exact Or.inl (h.mem_closed.mpr (Or.inr hic))
                · exact Or.inr ⟨hkept.opened.mpr ⟨hopen, hic⟩, hkept.g ▸ hle⟩

end Step

/-- With no open node left and the goal not closed, everything reachable is closed. -/
theorem Inv.closed_of_reachable (hinv : Inv E w start goal s) (hstart : start ∈ s.closed)
    (hgoal : goal ∉ s.closed) (hempty : ∀ i, ¬ s.opened i) {i : α}
    (hreach : Relation.ReflTransGen E start i) : i ∈ s.closed := by
  induction hreach with
  | refl => exact hstart
  | tail _ hedge ih =>
      have hne : _ ≠ goal := fun heq => hgoal (heq ▸ ih)
      cases hinv.frontier _ ih hne _ hedge with
      | inl hclosed => exact hclosed
      | inr hopen => exact absurd hopen.1 (hempty _)

/-- The nodes that a walk along the parents visits from `i` back to `start`. -/
inductive Trace (parent : α → α) (start : α) : α → List α → Prop
  | stop : Trace parent start start [start]
  | back {i : α} {l : List α} : i ≠ start → Trace parent start (parent i) l →
      Trace parent start i (i :: l)

/-- The parents of a closed node lead back to the start along a path without repetition, whose
cost is the node's score. -/
theorem Inv.trace (hinv : Inv E w start goal s) {i : α} (hi : i ∈ s.closed) :
    ∃ l, Trace s.parent start i l.reverse ∧ IsPath E start i l ∧ pathCost w l = s.g i ∧
      l.Nodup ∧ l ⊆ s.closed := by
  -- by induction on what was closed before the node: its parent is in there
  suffices hpre : ∀ (n : Nat) (l₁ : List α) (i : α) (l₂ : List α), l₁.length < n →
      s.closed = l₁ ++ i :: l₂ →
      ∃ l, Trace s.parent start i l.reverse ∧ IsPath E start i l ∧ pathCost w l = s.g i ∧
        l.Nodup ∧ l ⊆ l₁ ++ [i] by
    obtain ⟨l₁, l₂, hsplit⟩ := List.append_of_mem hi
    obtain ⟨l, htrace, hpath, hcost, hnodup, hsub⟩ :=
      hpre (l₁.length + 1) l₁ i l₂ (Nat.lt_succ_self _) hsplit
    refine ⟨l, htrace, hpath, hcost, hnodup, fun x hx => ?_⟩
    have hx := hsub hx
    rw [hsplit]
    simp only [List.mem_append, List.mem_cons, List.not_mem_nil, or_false] at hx ⊢
    tauto
  intro n
  induction n with
  | zero => exact fun _ _ _ hlt => absurd hlt (Nat.not_lt_zero _)
  | succ n ih =>
      intro l₁ i l₂ hlt hsplit
      by_cases hne : i = start
      · subst hne
        exact ⟨[i], Trace.stop, isPath_singleton i, hinv.g_start.symm, List.nodup_singleton i,
          by simp⟩
      · have hhangs := hinv.closed l₁ i l₂ hsplit hne
        obtain ⟨m₁, m₂, hm⟩ := List.append_of_mem hhangs.mem
        have hsplit' : s.closed = m₁ ++ s.parent i :: (m₂ ++ i :: l₂) := by
          rw [hsplit, hm]
          simp
        have hshort : m₁.length < n := by
          rw [hm, List.length_append, List.length_cons] at hlt
          omega
        obtain ⟨l, htrace, hpath, hcost, hnodup, hsub⟩ := ih m₁ _ _ hshort hsplit'
        have hsub' : l ⊆ l₁ := by
          intro x hx
          have hx := hsub hx
          rw [hm]
          simp only [List.mem_append, List.mem_cons, List.not_mem_nil, or_false] at hx ⊢
          tauto
        have hfresh : i ∉ l₁ := by
          intro hmem
          have hdup := hinv.nodup
          rw [hsplit, List.nodup_append] at hdup
          exact hdup.2.2 i hmem i (by simp) rfl
        refine ⟨l ++ [i], ?_, hpath.concat hhangs.edge, ?_, ?_, ?_⟩
        · rw [List.reverse_append]
          exact Trace.back hne htrace
        · rw [pathCost_concat hpath.last, hcost]
          exact hhangs.g.symm
        · rw [List.nodup_append]
          refine ⟨hnodup, List.nodup_singleton i, ?_⟩
          rintro x hx _ hmem rfl
          obtain rfl := List.mem_singleton.mp hmem
          exact hfresh (hsub' hx)
        · intro x hx
          simp only [List.mem_append] at hx ⊢
          exact hx.imp_left (fun hx => hsub' hx)

section Optimal

/-- No walk from the start to a closed node costs less than the node's score. -/
def Optimal (E : α → α → Prop) (w : α → α → ℤ) (start : α) (s : Frontier α) : Prop :=
  ∀ i ∈ s.closed, ∀ k, Walk E w start i k → s.g i ≤ k

/-- The estimate never drops by more than the weight of an edge. -/
def Consistent (E : α → α → Prop) (w : α → α → ℤ) (h : α → ℤ) : Prop :=
  ∀ u v, E u v → h u ≤ w u v + h v

/-- A walk has left the closed nodes or not; if it has, then through an open node whose score plus
estimate is at most what the walk costs so far plus the estimate at its end. -/
theorem Inv.crossing {h : α → ℤ} (hinv : Inv E w start goal s) (hopt : Optimal E w start s)
    (hh : Consistent E w h) (hstart : start ∈ s.closed) (hgoal : goal ∉ s.closed)
    {i : α} {k : ℤ} (hwalk : Walk E w start i k) :
    i ∈ s.closed ∨ ∃ v, s.opened v ∧ s.g v + h v ≤ k + h i := by
  induction hwalk with
  | nil => exact Or.inl hstart
  | @concat u v k hwalk hedge ih =>
      have hdrop := hh u v hedge
      cases ih with
      | inl hu =>
          have hle := hopt u hu k hwalk
          have hne : u ≠ goal := fun heq => hgoal (heq ▸ hu)
          cases hinv.frontier u hu hne v hedge with
          | inl hv => exact Or.inl hv
          | inr hv => exact Or.inr ⟨v, hv.1, by have := hv.2; omega⟩
      | inr hleft =>
          obtain ⟨x, hx, hle⟩ := hleft
          exact Or.inr ⟨x, hx, by omega⟩

/-- Taking an open node with the least score plus estimate keeps the scores of closed nodes
final. -/
theorem Inv.optimal {h : α → ℤ} (hinv : Inv E w start goal s) (hopt : Optimal E w start s)
    (hh : Consistent E w h) (hw : ∀ u v, E u v → 0 ≤ w u v) (hgoal : goal ∉ s.closed)
    (hstep : Expands E w goal s c s')
    (hleast : ∀ j, s.opened j → s.g c + h c ≤ s.g j + h j) : Optimal E w start s' := by
  intro i hi k hwalk
  rw [(hstep.kept_of_closed hi).g]
  cases hstep.mem_closed.mp hi with
  | inl hold => exact hopt i hold k hwalk
  | inr hc =>
      subst hc
      by_cases hstart : i = start
      · subst hstart
        rw [hinv.g_start]
        exact hwalk.cost_nonneg hw
      · have hparent := (hinv.opened i hstep.mem hstart).mem
        have hclosed : start ∈ s.closed := by
          cases hinv.started with
          | inl hnil => simp [hnil] at hparent
          | inr hmem => exact hmem
        cases hinv.crossing hopt hh hclosed hgoal hwalk with
        | inl hmem => exact absurd hmem (hinv.apart i hstep.mem)
        | inr hleft =>
            obtain ⟨v, hv, hle⟩ := hleft
            have := hleast v hv
            omega

end Optimal

end BestFirst
