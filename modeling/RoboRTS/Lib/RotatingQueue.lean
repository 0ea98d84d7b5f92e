import Mathlib.Data.List.Perm.Basic
import Mathlib.Tactic.Common

/-!
# A queue shared by consumers

Several consumers serve themselves from one queue: a consumer takes the front element when it
wants it, and moves it to the back otherwise. No element is lost, and what a consumer wants keeps
its order as long as no wanted element is moved behind another one.
-/

namespace RotatingQueue

variable {α : Type*}

/-- Take the front element when it is wanted, move it to the back otherwise. -/
def serve (want : α → Bool) : List α → Option α × List α
  | [] => (none, [])
  | a :: rest => if want a then (some a, rest) else (none, rest ++ [a])

variable {want p : α → Bool}

@[simp] theorem serve_nil : serve want [] = (none, []) := rfl

theorem serve_wanted {a : α} (rest : List α) (h : want a = true) :
    serve want (a :: rest) = (some a, rest) := by
  simp [serve, h]

theorem serve_unwanted {a : α} (rest : List α) (h : want a = false) :
    serve want (a :: rest) = (none, rest ++ [a]) := by
  simp [serve, h]

/-- What is served was at the front. -/
theorem serve_some {queue : List α} {a : α} (h : (serve want queue).1 = some a) :
    queue = a :: (serve want queue).2 ∧ want a = true := by
  cases queue with
  | nil => cases h
  | cons b rest =>
      cases hb : want b with
      | false =>
          rw [serve_unwanted rest hb] at h
          cases h
      | true =>
          rw [serve_wanted rest hb] at h ⊢
          obtain rfl := Option.some.inj h
          exact ⟨rfl, hb⟩

/-- Serving nothing loses nothing. -/
theorem serve_none_perm {queue : List α} (h : (serve want queue).1 = none) :
    (serve want queue).2.Perm queue := by
  cases queue with
  | nil => exact .refl _
  | cons b rest =>
      cases hb : want b with
      | false =>
          rw [serve_unwanted rest hb]
          exact List.perm_append_singleton b rest
      | true =>
          rw [serve_wanted rest hb] at h
          cases h

/-- Serving `want` moves an element with `p` behind another one. -/
def Overtakes (want p : α → Bool) : List α → Bool
  | [] => false
  | a :: rest => !want a && p a && rest.any p

/-- Serving nothing keeps the order of the elements with `p` that are not overtaken. -/
theorem serve_none_filter {queue : List α} (h : (serve want queue).1 = none)
    (hover : Overtakes want p queue = false) :
    (serve want queue).2.filter p = queue.filter p := by
  cases queue with
  | nil => rfl
  | cons b rest =>
      cases hb : want b with
      | false =>
          rw [serve_unwanted rest hb, List.filter_append]
          cases hp : p b with
          | false => simp [hp]
          | true =>
              have hrest : rest.filter p = [] := by
                simpa [Overtakes, hb, hp, List.filter_eq_nil_iff] using hover
              simp [hp, hrest]
      | true =>
          rw [serve_wanted rest hb] at h
          cases h

end RotatingQueue
