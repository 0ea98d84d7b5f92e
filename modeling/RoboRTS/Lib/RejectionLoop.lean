import Mathlib.Data.List.Range
import Mathlib.Tactic.Common

/-!
# Drawing until a draw is accepted

A loop draws values and leaves with the first one that it accepts. After `fuel` passes it has
returned exactly if one of so many draws is accepted (`loop_eq`), and it returns at all exactly if
some draw is (`exists_loop_iff`). A test that may be undefined is one that gives `none`.
-/

namespace RejectionLoop

variable {α : Type*}

/-- The loop in at most `fuel` passes, after `n` draws. -/
def loop (accept : α → Option Bool) (draws : Nat → α) : Nat → Nat → Option α
  | 0, _ => none
  | fuel + 1, n => (accept (draws n)).bind fun accepted =>
      if accepted then some (draws n) else loop accept draws fuel (n + 1)

variable {accept : α → Option Bool} {draws : Nat → α} {p : α → Bool}

/-- A loop whose test is defined finds the first draw that passes it. -/
theorem loop_eq (h : ∀ a, accept a = some (p a)) (fuel n : Nat) :
    loop accept draws fuel n =
      ((List.range' n fuel).find? fun k => p (draws k)).map draws := by
  induction fuel generalizing n with
  | zero => rfl
  | succ fuel ih =>
      rw [loop, h, Option.bind_some, List.range'_succ]
      cases haccept : p (draws n) with
      | true => simp only [List.find?_cons, haccept, if_true, Option.map_some]
      | false => simp only [List.find?_cons, haccept, Bool.false_eq_true, if_false, ih]

/-- The loop returns exactly if some draw is accepted. -/
theorem exists_loop_iff (h : ∀ a, accept a = some (p a)) :
    (∃ fuel a, loop accept draws fuel 0 = some a) ↔ ∃ n, p (draws n) = true := by
  constructor
  · rintro ⟨fuel, a, hloop⟩
    rw [loop_eq h] at hloop
    obtain ⟨n, hn, -⟩ := Option.map_eq_some_iff.mp hloop
    have hfound := List.find?_some hn
    exact ⟨n, hfound⟩
  · rintro ⟨n, hn⟩
    have hfound : ((List.range' 0 (n + 1)).find? fun k => p (draws k)).isSome = true := by
      rw [List.find?_isSome]
      exact ⟨n, List.mem_range'_1.mpr ⟨Nat.zero_le n, by omega⟩, hn⟩
    obtain ⟨k, hk⟩ := Option.isSome_iff_exists.mp hfound
    exact ⟨n + 1, draws k, by rw [loop_eq h, hk, Option.map_some]⟩

end RejectionLoop
