import Mathlib.Tactic.Common

/-!
# Partial computations with a log

A logged computation may have no result, like an `Option`, and with a result it has the list of the
events on the way. `erase` forgets the events; it goes through `bind`, so a logged version of a
function is shown to compute the same by rewriting.
-/

/-- A computation that returns with a list of events, or not at all. -/
def Logged (ε α : Type*) := Option (α × List ε)

namespace Logged

variable {ε α β : Type*}

def pure (a : α) : Logged ε α := some (a, [])

/-- One event. -/
def tell (e : ε) : Logged ε Unit := some ((), [e])

/-- A computation without events. -/
def lift (x : Option α) : Logged ε α := x.map fun a => (a, [])

def bind (x : Logged ε α) (f : α → Logged ε β) : Logged ε β :=
  Option.bind x fun (a, es) => Option.map (fun (b, es') => (b, es ++ es')) (f a)

/-- The result without the events. -/
def erase (x : Logged ε α) : Option α :=
  Option.map Prod.fst x

@[simp] theorem erase_lift (x : Option α) : (lift x : Logged ε α).erase = x := by
  cases x <;> rfl

@[simp] theorem erase_bind (x : Logged ε α) (f : α → Logged ε β) :
    (x.bind f).erase = x.erase.bind fun a => (f a).erase := by
  cases x with
  | none => rfl
  | some out =>
      obtain ⟨a, es⟩ := out
      show Option.map Prod.fst (Option.map _ (f a)) = (f a).erase
      cases f a <;> rfl

@[simp] theorem erase_tell_bind (e : ε) (f : Unit → Logged ε β) :
    ((tell e).bind f).erase = (f ()).erase :=
  erase_bind _ _

/-- A computation with a result goes on with it. -/
theorem bind_some (a : α) (es : List ε) (f : α → Logged ε β) :
    bind (some (a, es)) f = Option.map (fun (b, es') => (b, es ++ es')) (f a) := rfl

theorem tell_bind (e : ε) (f : Unit → Logged ε β) :
    (tell e).bind f = Option.map (fun (b, es) => (b, e :: es)) (f ()) := rfl

theorem lift_some_bind (a : α) (f : α → Logged ε β) : (lift (some a)).bind f = f a := by
  show Option.map (fun (b, es) => (b, [] ++ es)) (f a) = f a
  cases f a <;> rfl

/-- Two computations without events. -/
theorem lift_bind_lift {x : Option α} {f : α → Option β} {b : β} {es : List ε}
    (h : (lift x).bind (fun a => lift (f a)) = some (b, es)) :
    ∃ a, x = some a ∧ f a = some b ∧ es = [] := by
  cases x with
  | none => cases h
  | some a =>
      rw [lift_some_bind] at h
      cases hb : f a with
      | none =>
          rw [hb] at h
          cases h
      | some b' =>
          rw [hb] at h
          cases h
          exact ⟨a, rfl, hb, rfl⟩

/-- A computation with a result, taken apart at a `bind`. -/
theorem bind_eq_some {x : Logged ε α} {f : α → Logged ε β} {b : β} {es : List ε}
    (h : x.bind f = some (b, es)) :
    ∃ a es₁ es₂, x = some (a, es₁) ∧ f a = some (b, es₂) ∧ es = es₁ ++ es₂ := by
  cases x with
  | none => cases h
  | some out =>
      obtain ⟨a, es₁⟩ := out
      rw [bind_some] at h
      obtain ⟨⟨b', es₂⟩, hf, heq⟩ := Option.map_eq_some_iff.mp h
      cases heq
      exact ⟨a, es₁, es₂, rfl, hf, rfl⟩

theorem pure_bind (a : α) (f : α → Logged ε β) : (pure a).bind f = f a :=
  lift_some_bind a f

end Logged
