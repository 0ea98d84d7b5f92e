import Mathlib.Logic.Function.Basic
import Mathlib.Tactic.Common

/-!
# Exclusive ownership

Owners refer to resources and each resource in use has a value. `Exclusive` says that the
resources in use are exactly those referred to, each by one owner, and that each holds the value
its owner expects. The rules follow the three operations a program has: an owner without a
resource acquires one that was not in use, an owner releases its resource, and everything else
changes only what no owner looks at.
-/

variable {ω ρ β : Type*}

/-- The resources in use are owned, each by one owner, and hold what their owners expect. -/
structure Exclusive (refs : ω → Option ρ) (used : ρ → Prop) (value : ρ → β) (want : ω → β) :
    Prop where
  used_of_refs : ∀ {o r}, refs o = some r → used r
  unique : ∀ {o o' r}, refs o = some r → refs o' = some r → o = o'
  owned : ∀ {r}, used r → ∃ o, refs o = some r
  value_eq : ∀ {o r}, refs o = some r → value r = want o

namespace Exclusive

variable {refs refs' : ω → Option ρ} {used used' : ρ → Prop} {value value' : ρ → β}
variable {want want' : ω → β}

/-- Nothing in use. -/
theorem empty (hrefs : ∀ o, refs o = none) (hused : ∀ r, ¬ used r) :
    Exclusive refs used value want where
  used_of_refs h := by rw [hrefs] at h; cases h
  unique h := by rw [hrefs] at h; cases h
  owned h := absurd h (hused _)
  value_eq h := by rw [hrefs] at h; cases h

/-- Changes that no owner can see. -/
theorem frame (h : Exclusive refs used value want) (hrefs : ∀ o, refs' o = refs o)
    (hused : ∀ r, used' r ↔ used r) (hvalue : ∀ r, used r → value' r = value r)
    (hwant : ∀ o, refs o ≠ none → want' o = want o) : Exclusive refs' used' value' want' where
  used_of_refs ho := by rw [hrefs] at ho; exact (hused _).mpr (h.used_of_refs ho)
  unique ho ho' := by rw [hrefs] at ho ho'; exact h.unique ho ho'
  owned hr := by
    obtain ⟨o, ho⟩ := h.owned ((hused _).mp hr)
    exact ⟨o, (hrefs o).trans ho⟩
  value_eq {o r} ho := by
    rw [hrefs] at ho
    rw [hvalue r (h.used_of_refs ho), hwant o (by rw [ho]; simp), h.value_eq ho]

/-- The owner `o` gives up its resource. -/
theorem release (h : Exclusive refs used value want) {o : ω} {r : ρ} (ho : refs o = some r)
    (hself : refs' o = none) (hother : ∀ o', o' ≠ o → refs' o' = refs o')
    (hused : ∀ r', used' r' ↔ used r' ∧ r' ≠ r) (hvalue : ∀ r', used' r' → value' r' = value r')
    (hwant : ∀ o', o' ≠ o → want' o' = want o') : Exclusive refs' used' value' want' := by
  have hold : ∀ {o' r'}, refs' o' = some r' → o' ≠ o ∧ refs o' = some r' := by
    intro o' r' ho'
    have hne : o' ≠ o := fun heq => by rw [heq, hself] at ho'; cases ho'
    exact ⟨hne, (hother o' hne).symm.trans ho'⟩
  have hkept : ∀ {o' r'}, refs' o' = some r' → used' r' := by
    intro o' r' ho'
    obtain ⟨hne, ho'⟩ := hold ho'
    exact (hused r').mpr ⟨h.used_of_refs ho', fun heq => hne (h.unique ho' (heq ▸ ho))⟩
  refine ⟨hkept, fun ho' ho'' => h.unique (hold ho').2 (hold ho'').2, ?_, ?_⟩
  · intro r' hr'
    obtain ⟨hr, hne⟩ := (hused r').mp hr'
    obtain ⟨o', ho'⟩ := h.owned hr
    have hoo : o' ≠ o := fun heq => hne (by rw [heq, ho] at ho'; exact (Option.some.inj ho').symm)
    exact ⟨o', (hother o' hoo).trans ho'⟩
  · intro o' r' ho'
    obtain ⟨hne, hrefs⟩ := hold ho'
    rw [hvalue r' (hkept ho'), hwant o' hne, h.value_eq hrefs]

/-- The owner `o`, which had no resource, gets one that was not in use. -/
theorem acquire (h : Exclusive refs used value want) {o : ω} {r : ρ} (ho : refs o = none)
    (hfresh : ¬ used r) (hself : refs' o = some r) (hother : ∀ o', o' ≠ o → refs' o' = refs o')
    (hused : ∀ r', used' r' ↔ used r' ∨ r' = r) (hvalue : ∀ r', used r' → value' r' = value r')
    (hnew : value' r = want' o) (hwant : ∀ o', o' ≠ o → want' o' = want o') :
    Exclusive refs' used' value' want' := by
  have hcases : ∀ {o' r'}, refs' o' = some r' →
      (o' = o ∧ r' = r) ∨ (o' ≠ o ∧ refs o' = some r') := by
    intro o' r' ho'
    by_cases heq : o' = o
    · rw [heq, hself] at ho'
      exact Or.inl ⟨heq, (Option.some.inj ho').symm⟩
    · exact Or.inr ⟨heq, (hother o' heq).symm.trans ho'⟩
  refine ⟨?_, ?_, ?_, ?_⟩
  · intro o' r' ho'
    rcases hcases ho' with ⟨-, rfl⟩ | ⟨-, hold⟩
    · exact (hused _).mpr (Or.inr rfl)
    · exact (hused _).mpr (Or.inl (h.used_of_refs hold))
  · intro o' o'' r' ho' ho''
    rcases hcases ho' with ⟨rfl, rfl⟩ | ⟨-, hold⟩ <;>
      rcases hcases ho'' with ⟨rfl, heq⟩ | ⟨-, hold'⟩
    · rfl
    · exact absurd (h.used_of_refs hold') hfresh
    · exact absurd (heq ▸ h.used_of_refs hold) hfresh
    · exact h.unique hold hold'
  · intro r' hr'
    rcases (hused r').mp hr' with hold | rfl
    · obtain ⟨o', ho'⟩ := h.owned hold
      have hoo : o' ≠ o := fun heq => by rw [heq, ho] at ho'; cases ho'
      exact ⟨o', (hother o' hoo).trans ho'⟩
    · exact ⟨o, hself⟩
  · intro o' r' ho'
    rcases hcases ho' with ⟨rfl, rfl⟩ | ⟨hne, hold⟩
    · exact hnew
    · rw [hvalue r' (h.used_of_refs hold), hwant o' hne, h.value_eq hold]

end Exclusive
