import Mathlib.Data.List.Chain
import Mathlib.Algebra.Order.Group.Int
import Mathlib.Logic.Relation
import Mathlib.Tactic.Common

/-!
# Paths with a cost

A path in a graph is the list of its nodes, and its cost the sum of the weights of its edges.
`Walk` says the same of the end node and the cost alone, one edge at a time, which is the form
that inductions over a path use.
-/

namespace Path

variable {α : Type*} (E : α → α → Prop) (w : α → α → ℤ)

/-- `l` lists the nodes of a path from `a` to `b`. -/
structure IsPath (a b : α) (l : List α) : Prop where
  head : l.head? = some a
  last : l.getLast? = some b
  chain : l.IsChain E

/-- The sum of the weights between the neighbours of a list. -/
def pathCost : List α → ℤ
  | a :: b :: l => w a b + pathCost (b :: l)
  | _ => 0

/-- Some path leads from `a` to a node with this cost. -/
inductive Walk (a : α) : α → ℤ → Prop
  | nil : Walk a a 0
  | concat {u v : α} {k : ℤ} : Walk a u k → E u v → Walk a v (k + w u v)

variable {E w} {a u v : α} {l : List α}

theorem isPath_singleton (a : α) : IsPath E a a [a] :=
  ⟨rfl, rfl, List.isChain_singleton a⟩

theorem IsPath.concat (h : IsPath E a u l) (huv : E u v) : IsPath E a v (l ++ [v]) := by
  refine ⟨?_, List.getLast?_concat, ?_⟩
  · rw [List.head?_append, h.head]
    rfl
  · rw [List.isChain_append]
    refine ⟨h.chain, List.isChain_singleton v, ?_⟩
    intro x hx y hy
    rw [h.last] at hx
    cases hx
    cases hy
    exact huv

/-- A path with a last edge ends in it after a path to the node before. -/
theorem IsPath.init (h : IsPath E a v (l ++ [u, v])) : IsPath E a u (l ++ [u]) ∧ E u v := by
  have hsplit : l ++ [u, v] = (l ++ [u]) ++ [v] := by simp
  have hchain := h.chain
  have hhead := h.head
  rw [hsplit] at hchain hhead
  obtain ⟨hinit, -, hlast⟩ := List.isChain_append.mp hchain
  refine ⟨⟨?_, List.getLast?_concat, hinit⟩, ?_⟩
  · rwa [List.head?_append_of_ne_nil _ (by simp)] at hhead
  · exact hlast u (by simp) v rfl

theorem pathCost_concat (h : l.getLast? = some u) :
    pathCost w (l ++ [v]) = pathCost w l + w u v := by
  induction l with
  | nil => simp at h
  | cons x l ih =>
      cases l with
      | nil =>
          obtain rfl : x = u := by simpa using h
          simp [pathCost]
      | cons y l =>
          have hy : (y :: l).getLast? = some u := by simpa using h
          have hrest := ih hy
          show w x y + pathCost w ((y :: l) ++ [v]) = w x y + pathCost w (y :: l) + w u v
          omega

/-- A path is a walk with the path's cost. -/
theorem IsPath.walk {b : α} (h : IsPath E a b l) : Walk E w a b (pathCost w l) := by
  induction l using List.reverseRecOn generalizing b with
  | nil =>
      have hhead := h.head
      simp at hhead
  | append_singleton l x ih =>
      obtain rfl : x = b := by simpa using h.last
      cases l using List.reverseRecOn with
      | nil =>
          obtain rfl : x = a := by simpa using h.head
          exact Walk.nil
      | append_singleton l u =>
          rw [List.append_assoc] at h
          obtain ⟨hinit, hedge⟩ := IsPath.init h
          rw [pathCost_concat List.getLast?_concat]
          exact (ih hinit).concat hedge

/-- A bound on the weights bounds the cost of a path by its length. -/
theorem pathCost_le {b : ℤ} (hw : ∀ u v, E u v → w u v ≤ b) (h : l.IsChain E) :
    pathCost w l ≤ b * (l.length - 1 : ℕ) := by
  induction l with
  | nil => simp [pathCost]
  | cons x l ih =>
      cases l with
      | nil => simp [pathCost]
      | cons y l =>
          obtain ⟨hedge, hrest⟩ := List.isChain_cons_cons.mp h
          have hle := ih hrest
          have hstep := hw x y hedge
          show w x y + pathCost w (y :: l) ≤ b * (l.length + 1 : ℕ)
          have hlength : ((y :: l).length - 1 : ℕ) = l.length := rfl
          rw [hlength] at hle
          push_cast [Int.mul_add] at hle ⊢
          omega

theorem Walk.cost_nonneg {k : ℤ} (hw : ∀ u v, E u v → 0 ≤ w u v) (h : Walk E w a v k) :
    0 ≤ k := by
  induction h with
  | nil => exact le_refl 0
  | concat _ hedge ih => exact add_nonneg ih (hw _ _ hedge)

theorem Walk.reachable {k : ℤ} (h : Walk E w a v k) : Relation.ReflTransGen E a v := by
  induction h with
  | nil => exact .refl
  | concat _ hedge ih => exact ih.tail hedge

theorem IsPath.reachable {b : α} (h : IsPath E a b l) : Relation.ReflTransGen E a b :=
  (IsPath.walk (w := fun _ _ => 0) h).reachable

end Path
