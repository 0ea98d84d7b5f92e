import RoboRTS.Localization.ParticleFilter.KDTree
import Mathlib.Logic.Function.Basic

/-!
# The nodes of the histogram

`ParticleFilterKDTree` with its nodes in memory, the vector of pointers to them and their cluster
labels. A pointer is the number of an allocation, and `none` where the program has no valid one. A
`none` of a call is a failed assertion, an access without a node behind it, or a number that no
`int` holds. Recursions get more fuel than the tree is deep.
-/

namespace RoboRTS.Localization

/-- `ParticleFilterKDTreeNode`. -/
structure ParticleFilterKDTreeNode (K : Type) where
  leftPtr : Option Nat
  rightPtr : Option Nat
  leaf : Bool
  depth : Nat
  cluster : Int
  pivotDim : Option (Fin 3)
  pivotValue : K
  key : Key
  value : K
  deriving DecidableEq, Repr

/-- `ParticleFilterKDTree`; `allocated` nodes have been made so far. -/
structure ParticleFilterKDTree (K : Type) where
  heap : Nat → Option (ParticleFilterKDTreeNode K)
  allocated : Nat
  size : Vec3d K
  rootPtr : Option Nat
  nodeCount : Nat
  nodeMaxCount : Nat
  nodesPtrVec : List (Option Nat)
  leafCount : Nat

namespace ParticleFilterKDTree

variable {K : Type}

/-- The fields of a node are written. -/
def set (t : ParticleFilterKDTree K) (a : Nat) (node : ParticleFilterKDTreeNode K) :
    ParticleFilterKDTree K :=
  { t with heap := Function.update t.heap a (some node) }

/-- A new node is appended to the vector. -/
def push (t : ParticleFilterKDTree K) (node : ParticleFilterKDTreeNode K) :
    ParticleFilterKDTree K :=
  { t with
    heap := Function.update t.heap t.allocated (some node)
    allocated := t.allocated + 1
    nodeCount := t.nodeCount + 1
    nodesPtrVec := t.nodesPtrVec ++ [some t.allocated]
    leafCount := t.leafCount + 1 }

/-- `Clear`. The loop runs while the vector is empty, and then reads its last element. -/
def clear (t : ParticleFilterKDTree K) : Option (ParticleFilterKDTree K) :=
  if t.nodesPtrVec = [] then none
  else some { t with rootPtr := none, nodesPtrVec := [], leafCount := 0, nodeCount := 0 }

section Insert

variable [Field K] [LinearOrder K]

/-- `InitializeByMaxSize` of a new tree, with `M_PI`. -/
def initializeByMaxSize (pi : K) (maxSize : Nat) : ParticleFilterKDTree K where
  heap _ := none
  allocated := 0
  size := ![1 / 2, 1 / 2, 10 * pi / 180]
  rootPtr := none
  nodeCount := 0
  nodeMaxCount := maxSize
  nodesPtrVec := List.replicate maxSize none
  leafCount := 0

/-- The depth of a new node. -/
def childDepth (t : ParticleFilterKDTree K) : Option Nat → Option Nat
  | none => some 0
  | some parent => (t.heap parent).map fun node => node.depth + 1

/-- `InsertNode` at a null pointer. -/
def newNode (t : ParticleFilterKDTree K) (parentPtr : Option Nat) (key : Key) (value : K) :
    Option (Nat × ParticleFilterKDTree K) :=
  if t.nodeCount < t.nodeMaxCount then do
    let depth ← t.childDepth parentPtr
    some (t.allocated, t.push
      { leftPtr := none, rightPtr := none, leaf := true, depth := depth, cluster := -1
        pivotDim := some 0, pivotValue := 0, key := key, value := value })
  else none

/-- The two calls of `InsertNode` for the children of a leaf that is split. -/
def newChildren (t : ParticleFilterKDTree K) (a : Nat) (leftKey : Key) (leftValue : K)
    (rightKey : Key) (rightValue : K) : Option (Nat × Nat × ParticleFilterKDTree K) := do
  let (left, t) ← t.newNode (some a) leftKey leftValue
  let (right, t) ← t.newNode (some a) rightKey rightValue
  some (left, right, t)

/-- One round of the loop that looks for the pivot dimension. The cast of a distance to an `int` is
undefined from `2 ^ 31` on. -/
def widen (key nodeKey : Key) (best : Nat × Option (Fin 3)) (i : Fin 3) :
    Option (Nat × Option (Fin 3)) :=
  if (key i - nodeKey i).natAbs < 2 ^ 31 then some (KDTree.widen key nodeKey best i) else none

/-- The loop that looks for the pivot dimension, and the assertion that there is one. -/
def pivotDim (key nodeKey : Key) : Option (Fin 3) := do
  let best ← (List.finRange 3).foldlM (widen key nodeKey) (0, none)
  best.2

/-- `InsertNode` at a node. -/
def insertNode (key : Key) (value : K) :
    Nat → ParticleFilterKDTree K → Nat → Option (Nat × ParticleFilterKDTree K)
  | 0, _, _ => none
  | fuel + 1, t, a => do
      let node ← t.heap a
      if node.leaf then
        if key = node.key then some (a, t.set a { node with value := node.value + value })
        else
          -- the leaf becomes an inner node, and two new leaves get its key and the new one
          let dim ← pivotDim key node.key
          let pivotValue : K := (key dim + node.key dim) / 2
          let node := { node with pivotDim := some dim, pivotValue := pivotValue }
          let t := t.set a node
          let (left, right, t) ←
            -- the left child is made first, whichever of the keys it gets
            if (key dim : K) < pivotValue then t.newChildren a key value node.key node.value
            else t.newChildren a node.key node.value key value
          let node := { node with leftPtr := some left, rightPtr := some right, leaf := false }
          some (a, { t.set a node with leafCount := t.leafCount - 1 })
      else
        let left ← node.leftPtr
        let right ← node.rightPtr
        let dim ← node.pivotDim
        if (key dim : K) < node.pivotValue then do
          let (_, t) ← insertNode key value fuel t left
          some (a, t)
        else do
          let (_, t) ← insertNode key value fuel t right
          some (a, t)

variable [FloorRing K]

/-- The bin of a pose. -/
def bin (t : ParticleFilterKDTree K) (pose : Vec3d K) : Key :=
  fun i => ⌊pose i / t.size i⌋

/-- `InsertPose`. -/
def insertPose (t : ParticleFilterKDTree K) (pose : Vec3d K) (value : K) :
    Option (ParticleFilterKDTree K) := do
  let key := t.bin pose
  let (root, t) ←
    match t.rootPtr with
    | none => t.newNode none key value
    | some root => insertNode key value (t.nodeCount + 1) t root
  some { t with rootPtr := some root }

/-- Calls of `InsertPose`. -/
def insertPoses (t : ParticleFilterKDTree K) (poses : List (Vec3d K × K)) :
    Option (ParticleFilterKDTree K) :=
  poses.foldlM (fun (t : ParticleFilterKDTree K) pose => t.insertPose pose.1 pose.2) t

end Insert

section Find

variable [Field K] [LinearOrder K]

/-- `FindNode` at a node. -/
def findNodeAt (heap : Nat → Option (ParticleFilterKDTreeNode K)) (key : Key) :
    Nat → Nat → Option (Option Nat)
  | 0, _ => none
  | fuel + 1, a => do
      let node ← heap a
      -- keys are compared at a leaf only: a missing key ends at the leaf of another one
      if node.leaf then some (if key = node.key then some a else none)
      else
        let left ← node.leftPtr
        let right ← node.rightPtr
        let dim ← node.pivotDim
        if (key dim : K) < node.pivotValue then findNodeAt heap key fuel left
        else findNodeAt heap key fuel right

/-- `FindNode` at the root: the node of a key, or a null pointer. -/
def findNode (t : ParticleFilterKDTree K) (key : Key) : Option (Option Nat) := do
  let root ← t.rootPtr
  findNodeAt t.heap key (t.nodeCount + 1) root

/-- The key that `ClusterNode` looks up in round `i`. -/
def neighbourKey (key : Key) (i : Nat) : Key :=
  ![key 0 + (i / 9 : Nat) - 1, key 1 + (i % 9 / 3 : Nat) - 1, key 2 + (i % 9 % 3 : Nat) - 1]

/-- One round of the loop of `ClusterNode`, in which `next` is the call for a neighbour. -/
def clusterRound (next : ParticleFilterKDTree K → Nat → Option (ParticleFilterKDTree K)) (a : Nat)
    (t : ParticleFilterKDTree K) (i : Nat) : Option (ParticleFilterKDTree K) := do
  let node ← t.heap a
  let neighbour ← t.findNode (neighbourKey node.key i)
  match neighbour with
  | none => some t
  | some n =>
      let nNode ← t.heap n
      -- the assertion that `FindNode` returns a leaf
      if !nNode.leaf then none
      else if nNode.cluster ≥ 0 then some t
      else next (t.set n { nNode with cluster := node.cluster }) n

/-- `ClusterNode`. -/
def clusterNode : Nat → ParticleFilterKDTree K → Nat → Option (ParticleFilterKDTree K)
  | 0, _, _ => none
  | fuel + 1, t, a => (List.range (3 * 3 * 3)).foldlM (clusterRound (clusterNode fuel) a) t

/-- The loop of `Cluster` over the nodes, which takes the labels from the leaves. -/
def queueLeaves (nodeCount : Nat) :
    List Nat → ParticleFilterKDTree K × List Nat → Option (ParticleFilterKDTree K × List Nat)
  | [], found => some found
  | i :: is, (t, queue) => do
      let ptr ← t.nodesPtrVec[i]?
      let a ← ptr
      let node ← t.heap a
      if node.leaf then
        let t := t.set a { node with cluster := -1 }
        -- the assertion on the length of the queue, and its next element
        if queue.length < nodeCount then queueLeaves nodeCount is (t, a :: queue) else none
      else queueLeaves nodeCount is (t, queue)

/-- The loop of `Cluster` over the queue, from its end. -/
def clusterQueue :
    List Nat → Nat → ParticleFilterKDTree K → Option (ParticleFilterKDTree K)
  | [], _, t => some t
  | a :: queue, clusterCount, t => do
      let node ← t.heap a
      if node.cluster ≥ 0 then clusterQueue queue clusterCount t
      else
        let t ← clusterNode (t.nodeCount + 1) (t.set a { node with cluster := clusterCount }) a
        clusterQueue queue (clusterCount + 1) t

/-- `Cluster`. -/
def cluster (t : ParticleFilterKDTree K) : Option (ParticleFilterKDTree K) := do
  let (t, queue) ← queueLeaves t.nodeCount (List.range t.nodeCount) (t, [])
  clusterQueue queue 0 t

variable [FloorRing K]

/-- `GetCluster`. -/
def getCluster (t : ParticleFilterKDTree K) (pose : Vec3d K) : Option Int := do
  let found ← t.findNode (t.bin pose)
  match found with
  | none => some (-1)
  | some a =>
      let node ← t.heap a
      some node.cluster

end Find

end ParticleFilterKDTree

end RoboRTS.Localization
