import Mathlib.Tactic.Common

/-!
# Outcomes of computations that may fail

`Returns allowed post x` says that the computation `x` either returns a value with `post`, or fails
with one of the errors that are allowed. It goes through `bind` and through a loop over a list.
-/

namespace Outcome

universe u

variable {ε : Type*} {α β : Type u}

/-- The computation returns with `post`, or its error is allowed. -/
def Returns (allowed : ε → Prop) (post : α → Prop) : Except ε α → Prop
  | .ok a => post a
  | .error e => allowed e

variable {allowed : ε → Prop} {post : α → Prop} {post' : β → Prop} {x : Except ε α}

theorem ok_bind (a : α) (f : α → Except ε β) : (.ok a : Except ε α) >>= f = f a := rfl

/-- What goes on from a value that was returned. -/
theorem bind_eq_ok {f : α → Except ε β} {b : β} (h : x >>= f = .ok b) :
    ∃ a, x = .ok a ∧ f a = .ok b := by
  cases x with
  | error e => cases h
  | ok a => exact ⟨a, rfl, h⟩

theorem Returns.bind {f : α → Except ε β} (hx : Returns allowed post x)
    (hf : ∀ a, post a → Returns allowed post' (f a)) : Returns allowed post' (x >>= f) := by
  cases x with
  | error e => exact hx
  | ok a => exact hf a hx

/-- What a loop over a list collects. -/
theorem Returns.mapM {f : α → Except ε β} (l : List α)
    (hf : ∀ a ∈ l, Returns allowed post' (f a)) :
    Returns allowed (fun bs => ∀ b ∈ bs, post' b) (l.mapM f) := by
  induction l with
  | nil => exact fun b hb => absurd hb List.not_mem_nil
  | cons a l ih =>
      rw [List.mapM_cons]
      refine (hf a List.mem_cons_self).bind fun b hb => ?_
      refine (ih fun a' ha' => hf a' (List.mem_cons_of_mem a ha')).bind fun bs hbs => ?_
      intro b' hb'
      cases List.mem_cons.mp hb' with
      | inl heq => exact heq ▸ hb
      | inr hmem => exact hbs b' hmem

/-- What a loop over a list collects, each value from its own element. -/
theorem Returns.mapM_map {γ : Type*} {f : α → Except ε β} {g : β → γ} {h : α → γ} (l : List α)
    (hf : ∀ a ∈ l, Returns allowed (fun b => g b = h a) (f a)) :
    Returns allowed (fun bs => bs.map g = l.map h) (l.mapM f) := by
  induction l with
  | nil => exact rfl
  | cons a l ih =>
      rw [List.mapM_cons]
      refine (hf a List.mem_cons_self).bind fun b hb => ?_
      refine (ih fun a' ha' => hf a' (List.mem_cons_of_mem a ha')).bind fun bs hbs => ?_
      exact List.cons_eq_cons.mpr ⟨hb, hbs⟩

theorem Returns.of_eq_ok {a : α} (h : Returns allowed post x) (hx : x = .ok a) : post a := by
  rw [hx] at h
  exact h

theorem Returns.of_eq_error {e : ε} (h : Returns allowed post x) (hx : x = .error e) :
    allowed e := by
  rw [hx] at h
  exact h

/-- A result without its error. -/
theorem eq_ok_of_toOption {a : α} (h : x.toOption = some a) : x = .ok a := by
  cases x with
  | error e => cases h
  | ok b =>
      cases h
      rfl

end Outcome
