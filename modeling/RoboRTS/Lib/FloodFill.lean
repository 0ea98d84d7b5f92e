import Mathlib.Data.Finset.Card
import Mathlib.Data.Set.Card
import Mathlib.Data.Setoid.Basic
import Mathlib.Order.Interval.Finset.Nat
import Mathlib.Logic.Function.Basic
import Mathlib.Logic.Relation
import Mathlib.Tactic.Common

/-!
# Labelling components by flood fill

`fill` gives a label to what is reached from a node over nodes without a label, depth first. What is
new is reached from the node, and the neighbours of what is new have a label (`fill_spec`). Started
at the nodes of a queue, each time with the next number, the labels are the components of a
symmetric graph (`labelAll_spec`): nodes have the same label exactly when they are connected
(`Labelling.eq_iff`), and the labels are the numbers below the number of components
(`card_quotient`).
-/

namespace FloodFill

open Relation

variable {α : Type*} [DecidableEq α]

section Defs

variable (nbrs : α → List α)

/-- The label `c` goes from `a` to what is reached over nodes without a label, within a depth of
`fuel`. -/
def fill : Nat → (α → Option Nat) → α → Nat → Option (α → Option Nat)
  | 0, _, _, _ => none
  | fuel + 1, label, a, c =>
      (nbrs a).foldlM
        (fun label b =>
          if (label b).isSome then some label
          else fill fuel (Function.update label b (some c)) b c) label

/-- The nodes of a queue are filled, each with the next number if it has no label yet. -/
def labelAll (fuel : Nat) :
    List α → Nat → (α → Option Nat) → Option ((α → Option Nat) × Nat)
  | [], count, label => some (label, count)
  | a :: queue, count, label =>
      if (label a).isSome then labelAll fuel queue count label
      else
        (fill nbrs fuel (Function.update label a (some count)) a count).bind fun label =>
          labelAll fuel queue (count + 1) label

/-- There is an edge. -/
def Adj (a b : α) : Prop :=
  b ∈ nbrs a

end Defs

variable {nbrs : α → List α} {label label' label'' : α → Option Nat} {a b : α} {c count fuel : Nat}
  {nodes : Finset α}

/-! ## One label -/

/-- What is new has the label, is reached from `a`, and has no neighbour without a label. -/
structure Spreads (nbrs : α → List α) (label label' : α → Option Nat) (a : α) (c : Nat) : Prop where
  kept : ∀ x, label x ≠ none → label' x = label x
  new : ∀ x, label x = none → label' x ≠ none → label' x = some c
  reached : ∀ x, label x = none → label' x ≠ none → ReflTransGen (Adj nbrs) a x
  closed : ∀ x, label x = none → label' x ≠ none → ∀ y ∈ nbrs x, label' y ≠ none

omit [DecidableEq α] in
theorem Spreads.refl (nbrs : α → List α) (label : α → Option Nat) (a : α) (c : Nat) :
    Spreads nbrs label label a c :=
  ⟨fun _ _ => rfl, fun _ h h' => absurd h h', fun _ h h' => absurd h h', fun _ h h' => absurd h h'⟩

omit [DecidableEq α] in
theorem Spreads.kept_ne_none (h : Spreads nbrs label label' a c) {x : α} (hx : label x ≠ none) :
    label' x ≠ none := by
  rwa [h.kept x hx]

omit [DecidableEq α] in
theorem Spreads.trans (h : Spreads nbrs label label' a c) (h' : Spreads nbrs label' label'' a c) :
    Spreads nbrs label label'' a c where
  kept x hx := (h'.kept x (h.kept_ne_none hx)).trans (h.kept x hx)
  new x hx hx'' := by
    by_cases hmiddle : label' x = none
    · exact h'.new x hmiddle hx''
    · rw [h'.kept x hmiddle]
      exact h.new x hx hmiddle
  reached x hx hx'' := by
    by_cases hmiddle : label' x = none
    · exact h'.reached x hmiddle hx''
    · exact h.reached x hx hmiddle
  closed x hx hx'' y hy := by
    by_cases hmiddle : label' x = none
    · exact h'.closed x hmiddle hx'' y hy
    · exact h'.kept_ne_none (h.closed x hx hmiddle y hy)

/-- The step to a neighbour without a label. -/
theorem Spreads.step (hb : b ∈ nbrs a) (hnone : label b = none)
    (h : Spreads nbrs (Function.update label b (some c)) label' b c)
    (hnbrs : ∀ y ∈ nbrs b, label' y ≠ none) : Spreads nbrs label label' a c where
  kept x hx := by
    have hne : x ≠ b := fun heq => hx (heq ▸ hnone)
    have hold : Function.update label b (some c) x = label x := Function.update_of_ne hne _ _
    rw [← hold]
    exact h.kept x (hold ▸ hx)
  new x hx hx' := by
    by_cases heq : x = b
    · rw [heq, h.kept b (by simp), Function.update_self]
    · exact h.new x ((Function.update_of_ne heq _ _).trans hx) hx'
  reached x hx hx' := by
    by_cases heq : x = b
    · exact heq ▸ ReflTransGen.single hb
    · exact ReflTransGen.head hb (h.reached x ((Function.update_of_ne heq _ _).trans hx) hx')
  closed x hx hx' := by
    by_cases heq : x = b
    · exact heq ▸ hnbrs
    · exact h.closed x ((Function.update_of_ne heq _ _).trans hx) hx'

/-- The nodes without a label. -/
def unlabelled (nodes : Finset α) (label : α → Option Nat) : Finset α :=
  nodes.filter fun x => label x = none

theorem unlabelled_update (hb : b ∈ nodes) (hnone : label b = none) :
    (unlabelled nodes (Function.update label b (some c))).card < (unlabelled nodes label).card := by
  refine Finset.card_lt_card (Finset.ssubset_iff_of_subset ?_ |>.mpr ⟨b, ?_, ?_⟩)
  · intro x hx
    obtain ⟨hnode, hlabel⟩ := Finset.mem_filter.mp hx
    have hne : x ≠ b := by
      rintro rfl
      simp at hlabel
    exact Finset.mem_filter.mpr ⟨hnode, (Function.update_of_ne hne _ _).symm.trans hlabel⟩
  · exact Finset.mem_filter.mpr ⟨hb, hnone⟩
  · simp [unlabelled]

omit [DecidableEq α] in
theorem Spreads.unlabelled_le (h : Spreads nbrs label label' a c) (nodes : Finset α) :
    (unlabelled nodes label').card ≤ (unlabelled nodes label).card := by
  refine Finset.card_le_card fun x hx => ?_
  obtain ⟨hnode, hlabel⟩ := Finset.mem_filter.mp hx
  exact Finset.mem_filter.mpr ⟨hnode, by_contra fun hold => h.kept_ne_none hold hlabel⟩

/-- As much fuel as there are nodes without a label is enough. -/
theorem fill_spec (hnodes : ∀ x ∈ nodes, ∀ y ∈ nbrs x, y ∈ nodes) (ha : a ∈ nodes)
    (hfuel : (unlabelled nodes label).card < fuel) :
    ∃ label', fill nbrs fuel label a c = some label' ∧ Spreads nbrs label label' a c ∧
      ∀ y ∈ nbrs a, label' y ≠ none := by
  induction fuel generalizing a label with
  | zero => exact absurd hfuel (Nat.not_lt_zero _)
  | succ fuel ih =>
      -- the loop over the neighbours that are left
      have hloop : ∀ bs : List α, (∀ b ∈ bs, b ∈ nbrs a) → ∀ label,
          (unlabelled nodes label).card < fuel + 1 →
          ∃ label', bs.foldlM (fun label b => if (label b).isSome then some label
              else fill nbrs fuel (Function.update label b (some c)) b c) label = some label' ∧
            Spreads nbrs label label' a c ∧ ∀ y ∈ bs, label' y ≠ none := by
        intro bs
        induction bs with
        | nil => exact fun _ label _ => ⟨label, rfl, .refl nbrs label a c, by simp⟩
        | cons b bs ihBs =>
            intro hbs label hlabel
            have hb := hbs b List.mem_cons_self
            have hrest := fun b' hb' => hbs b' (List.mem_cons_of_mem b hb')
            rw [List.foldlM_cons]
            by_cases hsome : (label b).isSome = true
            · rw [if_pos hsome, Option.bind_eq_bind, Option.bind_some]
              obtain ⟨label', hfold, hspreads, hmem⟩ := ihBs hrest label hlabel
              refine ⟨label', hfold, hspreads, List.forall_mem_cons.mpr ⟨?_, hmem⟩⟩
              exact hspreads.kept_ne_none (Option.isSome_iff_ne_none.mp hsome)
            · have hnone : label b = none := Option.not_isSome_iff_eq_none.mp hsome
              have hnode := hnodes a ha b hb
              have hless :
                  (unlabelled nodes (Function.update label b (some c))).card < fuel :=
                Nat.lt_of_lt_of_le (unlabelled_update hnode hnone) (Nat.le_of_lt_succ hlabel)
              obtain ⟨label₁, hfill, hspreads₁, hnbrs⟩ := ih hnode hless
              have hstep := hspreads₁.step hb hnone hnbrs
              obtain ⟨label', hfold, hspreads, hmem⟩ := ihBs hrest label₁
                (Nat.lt_of_le_of_lt (hstep.unlabelled_le nodes) hlabel)
              rw [if_neg hsome, hfill, Option.bind_eq_bind, Option.bind_some]
              refine ⟨label', hfold, hstep.trans hspreads, List.forall_mem_cons.mpr ⟨?_, hmem⟩⟩
              refine hspreads.kept_ne_none ?_
              rw [hspreads₁.kept b (by simp)]
              simp
      exact hloop (nbrs a) (fun b hb => hb) label hfuel

/-- A label that is given stays. -/
theorem fill_kept (h : fill nbrs fuel label a c = some label') {x : α} (hx : label x ≠ none) :
    label' x = label x := by
  induction fuel generalizing a label label' with
  | zero => cases h
  | succ fuel ih =>
      unfold fill at h
      generalize nbrs a = bs at h
      induction bs generalizing label with
      | nil =>
          cases h
          rfl
      | cons b bs ihBs =>
          rw [List.foldlM_cons] at h
          by_cases hsome : (label b).isSome = true
          · rw [if_pos hsome] at h
            exact ihBs hx h
          · rw [if_neg hsome] at h
            obtain ⟨label₁, hfill, h⟩ := Option.bind_eq_some_iff.mp h
            have hne : x ≠ b := by
              rintro rfl
              exact hsome (Option.isSome_iff_ne_none.mpr hx)
            have hold : Function.update label b (some c) x = label x :=
              Function.update_of_ne hne _ _
            have hfirst : label₁ x = label x := by
              rw [← hold]
              exact ih hfill (hold ▸ hx)
            rw [← hfirst]
            exact ihBs (hfirst ▸ hx) h

/-! ## All labels -/

/-- The labels below `count` are given to whole components. -/
structure Labelling (nbrs : α → List α) (nodes : Finset α) (label : α → Option Nat) (count : Nat) :
    Prop where
  lt : ∀ x k, label x = some k → k < count
  inside : ∀ x, label x ≠ none → x ∈ nodes
  closed : ∀ x k, label x = some k → ∀ y ∈ nbrs x, label y = some k
  joined : ∀ x y k, label x = some k → label y = some k → ReflTransGen (Adj nbrs) x y
  used : ∀ k < count, ∃ x, label x = some k

omit [DecidableEq α] in
theorem Labelling.empty (nbrs : α → List α) (nodes : Finset α) :
    Labelling nbrs nodes (fun _ => none) 0 := by
  constructor <;> simp

omit [DecidableEq α] in
/-- What is reached over the nodes of a symmetric graph reaches back. -/
theorem reaches_back (hnodes : ∀ x ∈ nodes, ∀ y ∈ nbrs x, y ∈ nodes)
    (hsymm : ∀ x ∈ nodes, ∀ y ∈ nbrs x, x ∈ nbrs y) (ha : a ∈ nodes)
    (h : ReflTransGen (Adj nbrs) a b) : b ∈ nodes ∧ ReflTransGen (Adj nbrs) b a := by
  induction h with
  | refl => exact ⟨ha, .refl⟩
  | tail _ hstep ih => exact ⟨hnodes _ ih.1 _ hstep, .head (hsymm _ ih.1 _ hstep) ih.2⟩

/-- A node without a label starts the next component. -/
theorem Labelling.fill (hnodes : ∀ x ∈ nodes, ∀ y ∈ nbrs x, y ∈ nodes)
    (hsymm : ∀ x ∈ nodes, ∀ y ∈ nbrs x, x ∈ nbrs y) (h : Labelling nbrs nodes label count)
    (ha : a ∈ nodes) (hnone : label a = none)
    (hspreads : Spreads nbrs (Function.update label a (some count)) label' a count)
    (hnbrs : ∀ y ∈ nbrs a, label' y ≠ none) : Labelling nbrs nodes label' (count + 1) := by
  -- each node with a label had it before, or it belongs to the new component
  have hkept : ∀ x k, label x = some k → label' x = some k := by
    intro x k hx
    have hne : x ≠ a := by
      rintro rfl
      rw [hnone] at hx
      cases hx
    have hold : Function.update label a (some count) x = some k :=
      (Function.update_of_ne hne _ _).trans hx
    rw [hspreads.kept x (by rw [hold]; exact Option.some_ne_none k), hold]
  have hnew : ∀ x, label x = none → label' x ≠ none →
      label' x = some count ∧ ReflTransGen (Adj nbrs) a x ∧ ∀ y ∈ nbrs x, label' y ≠ none := by
    intro x hx hx'
    by_cases heq : x = a
    · subst heq
      refine ⟨?_, .refl, hnbrs⟩
      rw [hspreads.kept x (by simp), Function.update_self]
    · have hold := (Function.update_of_ne heq (some count) label).trans hx
      exact ⟨hspreads.new x hold hx', hspreads.reached x hold hx', hspreads.closed x hold hx'⟩
  have hcases : ∀ x k, label' x = some k → label x = some k ∨ (label x = none ∧ k = count) := by
    intro x k hx
    cases hold : label x with
    | none =>
        have hcount := (hnew x hold (by rw [hx]; exact Option.some_ne_none k)).1
        rw [hx] at hcount
        exact Or.inr ⟨rfl, Option.some.inj hcount⟩
    | some k' => exact Or.inl ((hkept x k' hold).symm.trans hx)
  constructor
  case lt =>
    intro x k hx
    rcases hcases x k hx with hold | ⟨-, rfl⟩
    · exact Nat.lt_succ_of_lt (h.lt x k hold)
    · exact Nat.lt_succ_self k
  case inside =>
    intro x hx
    by_cases hold : label x = none
    · exact (reaches_back hnodes hsymm ha (hnew x hold hx).2.1).1
    · exact h.inside x hold
  case closed =>
    intro x k hx y hy
    rcases hcases x k hx with hold | ⟨hold, rfl⟩
    · exact hkept y k (h.closed x k hold y hy)
    · obtain ⟨-, hreached, hclosed⟩ := hnew x hold (by rw [hx]; exact Option.some_ne_none k)
      have hxnode := (reaches_back hnodes hsymm ha hreached).1
      cases hy' : label y with
      | none => exact (hnew y hy' (hclosed y hy)).1
      | some k' =>
          -- an old neighbour would have given its label to `x`
          have hback := h.closed y k' hy' x (hsymm x hxnode y hy)
          rw [hold] at hback
          cases hback
  case joined =>
    intro x y k hx hy
    rcases hcases x k hx with hxold | ⟨hxold, rfl⟩
    · rcases hcases y k hy with hyold | ⟨-, rfl⟩
      · exact h.joined x y k hxold hyold
      · exact absurd (h.lt x k hxold) (Nat.lt_irrefl k)
    · rcases hcases y k hy with hyold | ⟨hyold, -⟩
      · exact absurd (h.lt y k hyold) (Nat.lt_irrefl k)
      · have hxreached := (hnew x hxold (by rw [hx]; exact Option.some_ne_none k)).2.1
        have hyreached := (hnew y hyold (by rw [hy]; exact Option.some_ne_none k)).2.1
        exact (reaches_back hnodes hsymm ha hxreached).2.trans hyreached
  case used =>
    intro k hk
    rcases Nat.lt_succ_iff_lt_or_eq.mp hk with hlt | rfl
    · obtain ⟨x, hx⟩ := h.used k hlt
      exact ⟨x, hkept x k hx⟩
    · refine ⟨a, ?_⟩
      rw [hspreads.kept a (by simp), Function.update_self]

/-- The queue is worked off, and all its nodes get a label. -/
theorem labelAll_spec (hnodes : ∀ x ∈ nodes, ∀ y ∈ nbrs x, y ∈ nodes)
    (hsymm : ∀ x ∈ nodes, ∀ y ∈ nbrs x, x ∈ nbrs y) (hfuel : nodes.card ≤ fuel) {queue : List α}
    (hqueue : ∀ x ∈ queue, x ∈ nodes) (h : Labelling nbrs nodes label count) :
    ∃ label' count', labelAll nbrs fuel queue count label = some (label', count') ∧
      Labelling nbrs nodes label' count' ∧ (∀ x, label x ≠ none → label' x ≠ none) ∧
      ∀ x ∈ queue, label' x ≠ none := by
  induction queue generalizing label count with
  | nil => exact ⟨label, count, rfl, h, fun _ hx => hx, by simp⟩
  | cons a queue ih =>
      have ha := hqueue a List.mem_cons_self
      have hrest := fun x hx => hqueue x (List.mem_cons_of_mem a hx)
      unfold labelAll
      by_cases hsome : (label a).isSome = true
      · rw [if_pos hsome]
        obtain ⟨label', count', hall, hlabelling, hkept, hmem⟩ := ih hrest h
        exact ⟨label', count', hall, hlabelling, hkept,
          List.forall_mem_cons.mpr ⟨hkept a (Option.isSome_iff_ne_none.mp hsome), hmem⟩⟩
      · have hnone : label a = none := Option.not_isSome_iff_eq_none.mp hsome
        have hcard : (unlabelled nodes (Function.update label a (some count))).card < fuel := by
          have hless := unlabelled_update (c := count) ha hnone
          have hle : (unlabelled nodes label).card ≤ nodes.card := Finset.card_filter_le _ _
          omega
        obtain ⟨label₁, hfill, hspreads, hnbrs⟩ := fill_spec (c := count) hnodes ha hcard
        have hlabelling₁ := h.fill hnodes hsymm ha hnone hspreads hnbrs
        obtain ⟨label', count', hall, hlabelling, hkept, hmem⟩ := ih hrest hlabelling₁
        have hkept₁ : ∀ x, label x ≠ none → label₁ x ≠ none := by
          intro x hx
          refine hspreads.kept_ne_none ?_
          by_cases heq : x = a
          · simp [heq]
          · rwa [Function.update_of_ne heq]
        rw [if_neg hsome, hfill, Option.bind_some]
        refine ⟨label', count', hall, hlabelling, fun x hx => hkept x (hkept₁ x hx),
          List.forall_mem_cons.mpr ⟨hkept a (hspreads.kept_ne_none (by simp)), hmem⟩⟩

omit [DecidableEq α] in
/-- Nodes with a label have the same one exactly when they are connected. -/
theorem Labelling.eq_iff (h : Labelling nbrs nodes label count) {x y : α} (hx : label x ≠ none) :
    label x = label y ↔ ReflTransGen (Adj nbrs) x y := by
  obtain ⟨k, hk⟩ := Option.ne_none_iff_exists'.mp hx
  constructor
  · intro heq
    exact h.joined x y k hk (heq ▸ hk)
  · intro hreach
    rw [hk]
    induction hreach with
    | refl => exact hk.symm
    | tail _ hstep ih => exact (h.closed _ k ih.symm _ hstep).symm

omit [DecidableEq α] in
/-- Where labels are the numbers below a bound, and equal for related elements, the bound is the
number of classes. -/
theorem card_quotient {β : Type*} (r : Setoid β) (label : β → Nat) (k : Nat)
    (hlt : ∀ b, label b < k) (hused : ∀ i < k, ∃ b, label b = i)
    (heq : ∀ b b', label b = label b' ↔ r b b') : Nat.card (Quotient r) = k := by
  have hker : r = Setoid.ker label := Setoid.ext fun b b' => (heq b b').symm
  have hrange : Set.range label = Set.Iio k :=
    Set.ext fun i => ⟨fun ⟨b, hb⟩ => hb ▸ hlt b, fun hi => hused i hi⟩
  rw [hker, Nat.card_congr (Setoid.quotientKerEquivRange label), hrange]
  simp

end FloodFill
