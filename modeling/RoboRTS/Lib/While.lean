import Mathlib.Tactic.Common

/-!
# Bounded while loops

`whileUpTo cond body k a` runs at most `k` iterations of `while (cond) body` from `a`; the body
may fail. With a bound that the loop never reaches it is the whole loop, and every smaller bound
gives a state in the middle of the loop, so an invariant proved for all bounds
(`whileUpTo_total`) holds at every iteration.
-/

variable {α : Type*}

/-- At most `k` iterations of a while loop with a partial body. -/
def whileUpTo (cond : α → Bool) (body : α → Option α) : Nat → α → Option α
  | 0, a => some a
  | k + 1, a => if cond a then (body a).bind (whileUpTo cond body k) else some a

namespace While

variable {cond : α → Bool} {body : α → Option α}

theorem whileUpTo_of_not {k : Nat} {a : α} (h : cond a = false) :
    whileUpTo cond body k a = some a := by
  cases k with
  | zero => rfl
  | succ k => simp [whileUpTo, h]

theorem whileUpTo_succ_of {k : Nat} {a : α} (h : cond a = true) :
    whileUpTo cond body (k + 1) a = (body a).bind (whileUpTo cond body k) := by
  simp [whileUpTo, h]

/-- A body that succeeds and preserves an invariant makes the loop succeed and preserve it,
whatever the number of iterations. -/
theorem whileUpTo_total {P : α → Prop}
    (hbody : ∀ a, P a → cond a = true → ∃ a', body a = some a' ∧ P a')
    (k : Nat) {a : α} (ha : P a) : ∃ a', whileUpTo cond body k a = some a' ∧ P a' := by
  induction k generalizing a with
  | zero => exact ⟨a, rfl, ha⟩
  | succ k ih =>
      cases hc : cond a with
      | false => exact ⟨a, whileUpTo_of_not hc, ha⟩
      | true =>
          obtain ⟨b, hb, hinv⟩ := hbody a ha hc
          rw [whileUpTo_succ_of hc, hb]
          exact ih hinv

end While
