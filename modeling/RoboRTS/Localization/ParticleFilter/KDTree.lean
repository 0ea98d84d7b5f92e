import RoboRTS.Lib.Literals
import Mathlib.Algebra.Order.Floor.Ring
import Mathlib.Algebra.Order.Field.Basic
import Mathlib.Data.Fin.VecNotation
import Mathlib.Data.Fintype.Pi
import Mathlib.Tactic.Common

/-!
# The histogram of a particle filter

`ParticleFilterKDTree` counts the cells of the pose space in which there are samples. A pose that
falls into a new cell splits a leaf, which takes two new nodes, and one that falls into a known
cell takes none. The number of nodes is limited by an assertion, which holds as long as there is
room for two more nodes (`KDTree.insertPose_spec`).

The cluster labels of the nodes are left out, on which only the published pose depends, and the
distances of keys are exact numbers. `ParticleFilterKDTree` has the nodes with their labels and the
cast of a distance to an `int`; its calls that return do what those of `KDTree` do.
-/

namespace RoboRTS.Localization

/-- How a call may fail: with an assertion, or with a check that the program makes of its data. -/
inductive Failure where
  | assertion
  | check
  deriving DecidableEq, Repr

/-- `Vec3d`. -/
abbrev Vec3d (K : Type*) := Fin 3 → K

/-- A cell of the pose space. -/
abbrev Key := Fin 3 → Int

/-- `ParticleFilterKDTreeNode`. -/
inductive KDNode (K : Type*) where
  | leaf (key : Key) (value : K)
  | split (key : Key) (value : K) (pivotDim : Fin 3) (pivotValue : K) (left right : KDNode K)

/-- `ParticleFilterKDTree`. -/
structure KDTree (K : Type*) where
  size : Vec3d K
  root : Option (KDNode K)
  nodeCount : Nat
  nodeMaxCount : Nat
  leafCount : Nat

variable {K : Type*}

namespace KDTree

section Defs

variable [Field K] [LinearOrder K]

/-- `InitializeByMaxSize`, with `M_PI`. -/
def initializeByMaxSize (pi : K) (maxSize : Nat) : KDTree K where
  size := ![1 / 2, 1 / 2, 10 * pi / 180]
  root := none
  nodeCount := 0
  nodeMaxCount := maxSize
  leafCount := 0

/-- `Clear`. -/
def clear (t : KDTree K) : KDTree K :=
  { t with root := none, nodeCount := 0, leafCount := 0 }

/-- The part of `InsertNode` that makes a new node. -/
def newNode (t : KDTree K) (key : Key) (value : K) : Except Failure (KDNode K × KDTree K) :=
  if t.nodeCount < t.nodeMaxCount then
    .ok (.leaf key value, { t with nodeCount := t.nodeCount + 1, leafCount := t.leafCount + 1 })
  else .error .assertion

/-- One round of the loop that looks for the pivot dimension. -/
def widen (key nodeKey : Key) (best : Nat × Option (Fin 3)) (i : Fin 3) : Nat × Option (Fin 3) :=
  let split := (key i - nodeKey i).natAbs
  if split > best.1 then (split, some i) else best

/-- The dimension in which two keys are farthest from each other, the first if there are several. -/
def pivotDim (key nodeKey : Key) : Option (Fin 3) :=
  ((List.finRange 3).foldl (widen key nodeKey) (0, none)).2

/-- `InsertNode` at a node. -/
def insertNode (key : Key) (value : K) :
    KDNode K → KDTree K → Except Failure (KDNode K × KDTree K)
  | .leaf nodeKey nodeValue, t =>
      if key = nodeKey then .ok (.leaf nodeKey (nodeValue + value), t)
      else
        match pivotDim key nodeKey with
        | none => .error .assertion
        | some dim => do
            let pivotValue : K := (key dim + nodeKey dim) / 2
            let (left, right, t) ←
              if (key dim : K) < pivotValue then do
                let (left, t) ← t.newNode key value
                let (right, t) ← t.newNode nodeKey nodeValue
                pure (left, right, t)
              else do
                let (left, t) ← t.newNode nodeKey nodeValue
                let (right, t) ← t.newNode key value
                pure (left, right, t)
            pure (.split nodeKey nodeValue dim pivotValue left right,
              { t with leafCount := t.leafCount - 1 })
  | .split nodeKey nodeValue dim pivotValue left right, t =>
      if (key dim : K) < pivotValue then do
        let (left, t) ← insertNode key value left t
        pure (.split nodeKey nodeValue dim pivotValue left right, t)
      else do
        let (right, t) ← insertNode key value right t
        pure (.split nodeKey nodeValue dim pivotValue left right, t)

variable [FloorRing K]

/-- `InsertPose`. -/
def insertPose (t : KDTree K) (pose : Vec3d K) (value : K) : Except Failure (KDTree K) := do
  let key : Key := fun i => ⌊pose i / t.size i⌋
  let (root, t) ←
    match t.root with
    | none => t.newNode key value
    | some root => insertNode key value root t
  pure { t with root := some root }

end Defs

/-! ## The number of nodes -/

theorem foldl_widen (key nodeKey : Key) (dims : List (Fin 3)) (best : Nat × Option (Fin 3))
    (hbest : 0 < best.1 → best.2 ≠ none) :
    (0 < (dims.foldl (widen key nodeKey) best).1 →
      (dims.foldl (widen key nodeKey) best).2 ≠ none) ∧
    best.1 ≤ (dims.foldl (widen key nodeKey) best).1 ∧
    ∀ i ∈ dims, (key i - nodeKey i).natAbs ≤ (dims.foldl (widen key nodeKey) best).1 := by
  induction dims generalizing best with
  | nil => exact ⟨hbest, le_rfl, by simp⟩
  | cons dim dims ih =>
      have hround : (0 < (widen key nodeKey best dim).1 → (widen key nodeKey best dim).2 ≠ none) ∧
          best.1 ≤ (widen key nodeKey best dim).1 ∧
          (key dim - nodeKey dim).natAbs ≤ (widen key nodeKey best dim).1 := by
        unfold widen
        dsimp only
        split_ifs with hsplit
        · exact ⟨fun _ => by simp, by omega, le_rfl⟩
        · exact ⟨hbest, le_rfl, by omega⟩
      obtain ⟨hsome, hle, hall⟩ := ih _ hround.1
      refine ⟨hsome, hround.2.1.trans hle, fun i hi => ?_⟩
      cases List.mem_cons.mp hi with
      | inl heq => exact heq ▸ hround.2.2.trans hle
      | inr hmem => exact hall i hmem

/-- Keys that differ, differ in some dimension. -/
theorem pivotDim_isSome {key nodeKey : Key} (hne : key ≠ nodeKey) :
    ∃ dim, pivotDim key nodeKey = some dim := by
  obtain ⟨i, hi⟩ := Function.ne_iff.mp hne
  have hpos : 0 < (key i - nodeKey i).natAbs := by omega
  obtain ⟨hsome, -, hall⟩ :=
    foldl_widen key nodeKey (List.finRange 3) (0, none) (fun h => absurd h (Nat.lt_irrefl 0))
  exact Option.ne_none_iff_exists'.mp (hsome (hpos.trans_le (hall i (List.mem_finRange i))))

/-- What an insertion does to the counters: at most two nodes are new. -/
structure Grown (t t' : KDTree K) : Prop where
  size : t'.size = t.size
  limit : t'.nodeMaxCount = t.nodeMaxCount
  count : t'.nodeCount ≤ t.nodeCount + 2

theorem newNode_eq {t : KDTree K} (hroom : t.nodeCount < t.nodeMaxCount) (key : Key) (value : K) :
    t.newNode key value = .ok (.leaf key value,
      { t with nodeCount := t.nodeCount + 1, leafCount := t.leafCount + 1 }) :=
  if_pos hroom

variable [Field K] [LinearOrder K]

theorem insertNode_spec {t : KDTree K} (key : Key) (value : K) (node : KDNode K)
    (hroom : t.nodeCount + 2 ≤ t.nodeMaxCount) :
    ∃ node' t', insertNode key value node t = .ok (node', t') ∧ t.Grown t' := by
  induction node with
  | leaf nodeKey nodeValue =>
      unfold insertNode
      by_cases hsame : key = nodeKey
      · rw [if_pos hsame]
        exact ⟨_, _, rfl, rfl, rfl, by omega⟩
      · obtain ⟨dim, hdim⟩ := pivotDim_isSome hsame
        rw [if_neg hsame, hdim]
        dsimp only
        have hfirst : t.nodeCount < t.nodeMaxCount := by omega
        have hsecond : t.nodeCount + 1 < t.nodeMaxCount := by omega
        -- both orders in which the two leaves are made
        split
        · rw [newNode_eq hfirst]
          simp only [bind, Except.bind, newNode, hsecond, if_true, pure, Except.pure]
          exact ⟨_, _, rfl, rfl, rfl, le_rfl⟩
        · rw [newNode_eq hfirst]
          simp only [bind, Except.bind, newNode, hsecond, if_true, pure, Except.pure]
          exact ⟨_, _, rfl, rfl, rfl, le_rfl⟩
  | split nodeKey nodeValue dim pivotValue left right ihLeft ihRight =>
      unfold insertNode
      split
      · obtain ⟨left', t', hinsert, hgrown⟩ := ihLeft
        rw [hinsert]
        exact ⟨_, _, rfl, hgrown⟩
      · obtain ⟨right', t', hinsert, hgrown⟩ := ihRight
        rw [hinsert]
        exact ⟨_, _, rfl, hgrown⟩

variable [FloorRing K]

theorem insertPose_spec {t : KDTree K} (pose : Vec3d K) (value : K)
    (hroom : t.nodeCount + 2 ≤ t.nodeMaxCount) :
    ∃ t', t.insertPose pose value = .ok t' ∧ t.Grown t' := by
  unfold insertPose
  cases hroot : t.root with
  | none =>
      dsimp only
      rw [newNode_eq (by omega)]
      exact ⟨_, rfl, rfl, rfl, Nat.le_succ _⟩
  | some root =>
      obtain ⟨node, t', hinsert, hgrown⟩ := insertNode_spec (fun i => ⌊pose i / t.size i⌋) value root
        hroom
      dsimp only
      rw [hinsert]
      exact ⟨_, rfl, hgrown.size, hgrown.limit, hgrown.count⟩

/-- Each pose takes two nodes at most. -/
theorem insertPoses_spec (poses : Nat → Vec3d K) (value : K) (is : List Nat) {t : KDTree K}
    (hroom : t.nodeCount + 2 * is.length ≤ t.nodeMaxCount) :
    ∃ t', is.foldlM (fun (t : KDTree K) i => t.insertPose (poses i) value) t = .ok t' ∧
      t'.nodeMaxCount = t.nodeMaxCount ∧ t'.nodeCount ≤ t.nodeCount + 2 * is.length := by
  induction is generalizing t with
  | nil => exact ⟨t, rfl, rfl, by simp⟩
  | cons i is ih =>
      rw [List.length_cons] at hroom
      obtain ⟨t₁, hinsert, hgrown⟩ := insertPose_spec (t := t) (poses i) value (by omega)
      have hlimit := hgrown.limit
      have hcount := hgrown.count
      obtain ⟨t', hrest, hlimit', hcount'⟩ := ih (t := t₁) (by omega)
      refine ⟨t', ?_, hlimit'.trans hlimit, by rw [List.length_cons]; omega⟩
      rw [List.foldlM_cons, hinsert]
      exact hrest

end KDTree

end RoboRTS.Localization
