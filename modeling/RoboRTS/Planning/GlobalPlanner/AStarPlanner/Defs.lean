import RoboRTS.Common.State
import RoboRTS.Lib.StateMachine
import RoboRTS.Lib.While
import Mathlib.Algebra.Ring.Int.Defs
import Mathlib.Algebra.Ring.Nat
import Mathlib.Logic.Function.Basic

/-!
# The A* planner

`SearchPath` works on the flat index of the costmap. The scores of a cell, its parent and its
search state are arrays over that index, and the open list is a priority queue of indices that
compares them by `f_score_`. A queue returns any cell whose score is least, so an iteration of the
main loop is a step that is told which cell comes off the queue.

An iteration in which a score reaches `INT_MAX` is undefined, as the sum of two `int`s is. The
width and the height are `unsigned int`s, and `GetNineNeighbors` converts them and their product to
`int`s: in a map of more cells than there are indices the product is not the number of cells.
-/

namespace RoboRTS.GlobalPlanner

open Common

/-- `std::numeric_limits<int>::max()`. -/
def intMax : Nat := 2147483647

/-- `static_cast<int>` of an `unsigned int`. -/
def toInt (n : Nat) : Int :=
  if n % 2 ^ 32 < 2 ^ 31 then (n % 2 ^ 32 : Nat) else (n % 2 ^ 32 : Nat) - 2 ^ 32

/-- The number is an `int`. -/
def IsInt (n : Int) : Prop :=
  -2 ^ 31 ≤ n ∧ n < 2 ^ 31

instance (n : Int) : Decidable (IsInt n) :=
  inferInstanceAs (Decidable (_ ∧ _))

inductive SearchState where
  | NOT_HANDLED
  | OPEN
  | CLOSED
  deriving DecidableEq, Repr

/-- The configuration of the planner and its costmap. `heuristic d` is the `int` that
`heuristic_factor_ * 10 * d` is converted to. -/
structure AStarPlanner where
  gridmapWidth : Nat
  gridmapHeight : Nat
  cost : Nat → UInt8
  inaccessibleCost : Nat
  heuristic : Nat → Int

/-- The arrays and the local variables of `SearchPath`. `found` says that the main loop was left at
the goal. -/
structure Search where
  gScore : Nat → Int
  fScore : Nat → Int
  parent : Nat → Nat
  state : Nat → SearchState
  openlist : List Nat
  currentIndex : Nat
  moveCost : Int
  count : Nat
  found : Bool

namespace AStarPlanner

variable (p : AStarPlanner)

/-- The number of cells. -/
def cells : Nat := p.gridmapHeight * p.gridmapWidth

/-- `gridmap_height_ * gridmap_width_`, the size of every array. -/
def size : Nat := p.cells % 2 ^ 32

/-- `if (guarded) neighbors_index.push_back(index)`. -/
def pushIf (guarded : Bool) (index : Int) : List Int :=
  if guarded then [index] else []

/-- The sums that `GetNineNeighbors` compares with the ends of the map. -/
def neighborSums (currentIndex width : Int) : List Int :=
  [currentIndex - width, currentIndex - width - 1, currentIndex - 1, currentIndex + width - 1,
    currentIndex + width, currentIndex + width + 1, currentIndex + 1, currentIndex - width + 1]

/-- `GetNineNeighbors`, in the order in which the source pushes the neighbours. A sum that is no
`int` is undefined. -/
def getNineNeighbors (currentIndex : Int) : Option (List Int) :=
  let width := toInt p.gridmapWidth
  let cells := toInt (p.gridmapWidth * p.gridmapHeight)
  if ∀ index ∈ neighborSums currentIndex width, IsInt index then
    some (
      pushIf (currentIndex - width ≥ 0) (currentIndex - width) ++
      pushIf (currentIndex - width - 1 ≥ 0 && (currentIndex - width - 1 + 1).tmod width != 0)
        (currentIndex - width - 1) ++
      pushIf (currentIndex - 1 ≥ 0 && (currentIndex - 1 + 1).tmod width != 0) (currentIndex - 1) ++
      pushIf (currentIndex + width - 1 < cells && (currentIndex + width - 1 + 1).tmod width != 0)
        (currentIndex + width - 1) ++
      pushIf (currentIndex + width < cells) (currentIndex + width) ++
      pushIf (currentIndex + width + 1 < cells && (currentIndex + width + 1).tmod width != 0)
        (currentIndex + width + 1) ++
      pushIf (currentIndex + 1 < cells && (currentIndex + 1).tmod width != 0) (currentIndex + 1) ++
      pushIf (currentIndex - width + 1 ≥ 0 && (currentIndex - width + 1).tmod width != 0)
        (currentIndex - width + 1))
  else none

/-- `GetMoveCost`: what it returns, and `move_cost` after it. -/
def getMoveCost (currentIndex neighborIndex moveCost : Int) : ErrorInfo × Int :=
  let distance : Int := (neighborIndex - currentIndex).natAbs
  if distance = 1 ∨ distance = toInt p.gridmapWidth then (.OK, 10)
  else if distance = toInt (p.gridmapWidth + 1) ∨ distance = toInt (p.gridmapWidth + 2 ^ 32 - 1) then
    (.OK, 14)
  else
    (⟨.GP_MOVE_COST_ERROR,
      "Move cost can't be calculated cause current neighbor index is not accessible"⟩, moveCost)

/-- The number of rows and columns between two cells. -/
def manhattan (index1 index2 : Nat) : Nat :=
  (((index1 / p.gridmapWidth : Nat) : Int) - (index2 / p.gridmapWidth : Nat)).natAbs +
    (((index1 % p.gridmapWidth : Nat) : Int) - (index2 % p.gridmapWidth : Nat)).natAbs

/-- `GetManhattanDistance`. -/
def getManhattanDistance (index1 index2 : Nat) : Int :=
  p.heuristic (p.manhattan index1 index2)

/-- `SearchPath` before its main loop. -/
def startSearch (startIndex : Nat) : Search where
  gScore := Function.update (fun _ => intMax) startIndex 0
  fScore := fun _ => intMax
  parent := fun _ => intMax
  state := fun _ => .NOT_HANDLED
  openlist := [startIndex]
  currentIndex := 0
  moveCost := 0
  count := 0
  found := false

/-- A neighbour that was not handled gets its `f_score_` and is pushed. -/
def discover (goalIndex : Nat) (s : Search) (n : Nat) : Option Search :=
  let hScore := p.getManhattanDistance n goalIndex
  let fScore := s.gScore n + hScore
  if fScore < intMax then
    some { s with
      fScore := Function.update s.fScore n fScore
      openlist := n :: s.openlist
      state := Function.update s.state n .OPEN }
  else none

/-- The score of a neighbour is compared with the one through the current cell. -/
def relax (goalIndex : Nat) (s : Search) (n : Nat) : Option Search :=
  let gScore := s.gScore s.currentIndex + s.moveCost + (p.cost n).toNat
  if gScore < intMax then
    if s.gScore n > gScore then
      let s := { s with
        gScore := Function.update s.gScore n gScore
        parent := Function.update s.parent n s.currentIndex }
      if s.state n = .NOT_HANDLED then p.discover goalIndex s n else some s
    else some s
  else none

/-- The body of the loop over the neighbours. -/
def visit (goalIndex : Nat) (s : Search) (neighborIndex : Int) : Option Search :=
  if neighborIndex < 0 ∨ neighborIndex ≥ p.size then some s
  else
    let n := neighborIndex.toNat
    if (p.cost n).toNat ≥ p.inaccessibleCost ∨ s.state n = .CLOSED then some s
    else
      let moveCost := (p.getMoveCost s.currentIndex neighborIndex s.moveCost).2
      p.relax goalIndex { s with moveCost := moveCost } n

end AStarPlanner

namespace Search

/-- `openlist.top()` may be `i`. -/
def IsTop (s : Search) (i : Nat) : Prop :=
  i ∈ s.openlist ∧ ∀ j ∈ s.openlist, s.fScore i ≤ s.fScore j

instance (s : Search) (i : Nat) : Decidable (s.IsTop i) :=
  inferInstanceAs (Decidable (_ ∧ _))

/-- The main loop has ended, at the goal or because the open list is empty. -/
def Ended (s : Search) : Prop :=
  s.found = true ∨ s.openlist = []

instance (s : Search) : Decidable s.Ended :=
  inferInstanceAs (Decidable (_ ∨ _))

/-- `openlist.pop()`, and `i` is closed. -/
def pop (s : Search) (i : Nat) : Search :=
  { s with
    currentIndex := i
    openlist := s.openlist.erase i
    state := Function.update s.state i .CLOSED }

end Search

namespace AStarPlanner

variable (p : AStarPlanner)

/-- An iteration of the main loop in which `i` is on top of the open list. -/
def step (goalIndex : Nat) (s : Search) (i : Nat) : Option Search :=
  if s.found = false ∧ s.IsTop i then
    if i = goalIndex then some { s.pop i with found := true }
    else
      (p.getNineNeighbors i).bind fun neighborsIndex =>
        (neighborsIndex.foldlM (p.visit goalIndex) (s.pop i)).map fun s =>
          { s with count := s.count + 1 }
  else none

/-- The walk along the parents: `iter_index` and the cells that were pushed. -/
structure ParentWalk where
  iterIndex : Nat
  path : List Nat

/-- One step of the walk; `parent_.at` throws outside of the array. -/
def walkBack (parent : Nat → Nat) (t : ParentWalk) : Option ParentWalk :=
  if t.iterIndex < p.size then
    some ⟨parent t.iterIndex, t.path ++ [parent t.iterIndex]⟩
  else none

/-- `SearchPath` after its main loop: what it returns and `path` after it. There is no result when
the walk along the parents throws or is not back at the start after as many steps as there are
cells. -/
def endSearch (startIndex goalIndex : Nat) (s : Search) (path : List Nat) :
    Option (ErrorInfo × List Nat) :=
  if s.currentIndex ≠ goalIndex then
    some (⟨.GP_PATH_SEARCH_ERROR, "Valid global path not found."⟩, path)
  else
    (whileUpTo (fun t => t.iterIndex != startIndex) (p.walkBack s.parent) p.cells
      ⟨s.currentIndex, [s.currentIndex]⟩).bind fun t =>
        if t.iterIndex = startIndex then some (.OK, t.path.reverse) else none

/-- `SearchPath` when `pops` is what comes off the open list. `g_score_.at` throws for a start that
is no `int` or lies outside of the array. -/
def searchPath (startIndex goalIndex : Nat) (path : List Nat) (pops : List Nat) :
    Option (ErrorInfo × List Nat) :=
  if IsInt startIndex ∧ startIndex < p.size then
    (StateMachine.run (p.step goalIndex) (startSearch startIndex) pops).bind fun s =>
      if s.Ended then p.endSearch startIndex goalIndex s path else none
  else none

/-- What `SearchPath` returns comes after a run of the main loop that has ended. -/
theorem searchPath_eq_some {p : AStarPlanner} {startIndex goalIndex : Nat} {path pops : List Nat}
    {result : ErrorInfo × List Nat}
    (h : p.searchPath startIndex goalIndex path pops = some result) :
    ∃ s, StateMachine.run (p.step goalIndex) (startSearch startIndex) pops = some s ∧ s.Ended ∧
      p.endSearch startIndex goalIndex s path = some result := by
  unfold searchPath at h
  by_cases hstart : IsInt startIndex ∧ startIndex < p.size
  case neg => simp [hstart] at h
  rw [if_pos hstart, Option.bind_eq_some_iff] at h
  obtain ⟨s, hrun, hend⟩ := h
  by_cases hended : s.Ended
  · rw [if_pos hended] at hend
    exact ⟨s, hrun, hended, hend⟩
  · simp [hended] at hend

end AStarPlanner

end RoboRTS.GlobalPlanner
