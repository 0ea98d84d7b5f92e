import RoboRTS.Lib.NearestSite
import RoboRTS.Lib.StateMachine
import Mathlib.Data.Rat.Floor
import Mathlib.Logic.Function.Basic

/-!
# The distance map of the localisation

`UpdateCSpace` computes for each cell of the map the distance `occ_dist` to the occupied cells. The
square of `occ_dist` is kept, which is exact.

The priority queue is a list in any order. An element is on top if none is smaller; which one is
chosen among equals is left open, and a pushed element replaces the one on top only if it is
smaller. A round of the loop names the element that is on top and the one that `pop` removes.
-/

namespace RoboRTS.Localization

open NearestSite

/-- `CellData`. -/
structure CellData where
  i : Nat
  j : Nat
  srcI : Nat
  srcJ : Nat
  deriving Repr, DecidableEq

/-- The members of `AmclMap` that `UpdateCSpace` only reads, `occ_state` by the index of a cell, an
`int`. -/
structure AmclMap where
  sizeX : Nat
  sizeY : Nat
  scale : Rat
  occState : Nat → Int
  size_lt : sizeX * sizeY < 2 ^ 31

/-- What `UpdateCSpace` changes: the squares of the `occ_dist`, `mark_vec_` and the queue. -/
structure CSpace where
  sqOccDist : Nat → Rat
  mark : Nat → Bool
  queue : List CellData

/-- The choices of the priority queue in a round of the loop. -/
structure Round where
  top : CellData
  popped : CellData
  deriving Repr, DecidableEq

namespace AmclMap

variable (m : AmclMap) (maxOccDist : Rat)

/-- `ComputeCellIndexByMap`. -/
def computeCellIndexByMap (i j : Nat) : Nat :=
  i + j * m.sizeX

/-- `cell_radius_` of the cached distance map. -/
def cellRadius : Nat :=
  ⌊maxOccDist / m.scale⌋.toNat

/-- `Enqueue`. -/
def enqueue (i j srcI srcJ : Nat) (w : CSpace) : CSpace :=
  let index := m.computeCellIndexByMap i j
  if w.mark index then w
  else
    let distance := sqDist (i, j) (srcI, srcJ)
    if distance > m.cellRadius maxOccDist * m.cellRadius maxOccDist then w
    else
      { sqOccDist := Function.update w.sqOccDist index (distance * (m.scale * m.scale))
        mark := Function.update w.mark index true
        queue := ⟨i, j, srcI, srcJ⟩ :: w.queue }

/-- The cells for which the body of the loop calls `Enqueue`. -/
def neighbours (i j : Nat) : List Cell :=
  (if i > 0 then [(i - 1, j)] else []) ++ (if j > 0 then [(i, j - 1)] else []) ++
    (if i < m.sizeX - 1 then [(i + 1, j)] else []) ++
    if j < m.sizeY - 1 then [(i, j + 1)] else []

/-- The calls of `Enqueue` in the body of the loop. -/
def expand (current : CellData) (w : CSpace) : CSpace :=
  (m.neighbours current.i current.j).foldl
    (fun w (i, j) => m.enqueue maxOccDist i j current.srcI current.srcJ w) w

/-- `CompareByOccDist`. -/
def compareByOccDist (w : CSpace) (a b : CellData) : Prop :=
  w.sqOccDist (m.computeCellIndexByMap a.i a.j) > w.sqOccDist (m.computeCellIndexByMap b.i b.j)

instance (w : CSpace) (a b : CellData) : Decidable (m.compareByOccDist w a b) :=
  inferInstanceAs (Decidable (_ > _))

/-- The element may be on top of the queue. -/
def OnTop (w : CSpace) (a : CellData) : Prop :=
  a ∈ w.queue ∧ ∀ b ∈ w.queue, ¬ m.compareByOccDist w a b

instance (w : CSpace) (a : CellData) : Decidable (m.OnTop w a) :=
  inferInstanceAs (Decidable (_ ∧ _))

/-- The body of the loop. -/
def round (w : CSpace) (e : Round) : Option CSpace :=
  if m.OnTop w e.top then
    let w := m.expand maxOccDist e.top w
    if m.OnTop w e.popped ∧ (m.OnTop w e.top → e.popped = e.top) then
      some { w with queue := w.queue.erase e.popped }
    else none
  else none

/-- The cells in the order of the two loops over the map. -/
def cells : List Cell :=
  (List.range m.sizeX).flatMap fun i => (List.range m.sizeY).map fun j => (i, j)

/-- The first loop: every occupied cell is on the queue. -/
def start : CSpace where
  sqOccDist index := if m.occState index = 1 then 0 else maxOccDist * maxOccDist
  mark index := m.occState index = 1
  queue := (m.cells.filter fun (i, j) => m.occState (m.computeCellIndexByMap i j) = 1).map
    fun (i, j) => ⟨i, j, i, j⟩

end AmclMap

end RoboRTS.Localization
