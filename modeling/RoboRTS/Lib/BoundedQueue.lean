import Mathlib.Data.List.Basic
import Mathlib.Tactic.Common

/-!
# Bounded queues

A queue that holds at most `n` items: an item pushed onto a full queue replaces the oldest one.
An implementation is compared with it by what its callers see. `outputs_eq` is the simulation rule:
a relation under which every operation shows the same makes all runs show the same.
-/

namespace BoundedQueue

variable {T : Type*}

/-- The operations of a queue. -/
inductive Op (T : Type*) where
  | push (item : T)
  | pop
  | reset

/-- What an operation shows: the item that it popped, and whether the queue is empty, whether it
is full and how many items it holds afterwards. -/
structure Seen (T : Type*) where
  popped : Option T
  isEmpty : Bool
  isFull : Bool
  getSize : Nat

/-- The items after an operation, the oldest first, and the item that it popped. -/
def apply (n : Nat) (queue : List T) : Op T → List T × Option T
  | .push item => (if queue.length = n then queue.tail ++ [item] else queue ++ [item], none)
  | .pop => (queue.tail, queue.head?)
  | .reset => ([], none)

/-- An operation with what it shows. -/
def step (n : Nat) (queue : List T) (op : Op T) : List T × Seen T :=
  let (queue, popped) := apply n queue op
  (queue, ⟨popped, queue.isEmpty, queue.length == n, queue.length⟩)

/-- What the operations of a list show one after the other. -/
def outputs {σ : Type*} (step : σ → Op T → σ × Seen T) : σ → List (Op T) → List (Seen T)
  | _, [] => []
  | s, op :: ops => (step s op).2 :: outputs step (step s op).1 ops

/-- Related states that show the same and stay related show the same in every run. -/
theorem outputs_eq {σ τ : Type*} {step : σ → Op T → σ × Seen T} {step' : τ → Op T → τ × Seen T}
    {R : σ → τ → Prop}
    (hstep : ∀ s t op, R s t → (step s op).2 = (step' t op).2 ∧ R (step s op).1 (step' t op).1)
    {s : σ} {t : τ} (hrel : R s t) (ops : List (Op T)) : outputs step s ops = outputs step' t ops := by
  induction ops generalizing s t with
  | nil => rfl
  | cons op ops ih =>
      obtain ⟨hseen, hrel'⟩ := hstep s t op hrel
      rw [outputs, outputs, hseen, ih hrel']

end BoundedQueue
