import RoboRTS.Decision.BehaviorState
import RoboRTS.Lib.StateMachine
import Mathlib.Logic.Function.Basic
import Mathlib.Algebra.Group.Nat.Defs

/-!
# Behaviour trees

The nodes of a tree are fixed; what changes is kept under the path of each node, which lists the
positions among the siblings from the node up to the root. The virtual functions of a node are its
`Methods`: they are built from those of its children, as a node of the source calls its children
through their pointers. A precondition node that aborts a sibling reaches its selector through
the `ParentSelector` that `Run` is given, the model of its parent pointer.

What an action returns and whether a precondition holds is up to the environment, which may answer
every call differently. An access outside of the children gives no result.
-/

namespace RoboRTS.Decision.BehaviorTree

inductive AbortType where
  | NONE
  | SELF
  | LOW_PRIORITY
  | BOTH
  deriving DecidableEq, Repr

/-- The nodes of a tree. A precondition node has a child. -/
inductive BehaviorNode where
  | action
  | precondition (abortType : AbortType) (child : BehaviorNode)
  | selector (children : List BehaviorNode)
  | sequence (children : List BehaviorNode)
  | parallel (threshold : Nat) (children : List BehaviorNode)

/-- The position of a node among its siblings, that of its parent, and so on up to the root. -/
abbrev Path := List Nat

/-- A call of a function that the user of the tree supplies. -/
inductive Call where
  | OnInitialize
  | Update
  | OnTerminate
  | Precondition
  deriving DecidableEq, Repr

/-- The variables of a node, and the calls that it has made. -/
structure NodeData where
  behaviorState : BehaviorState
  childrenIndex : Nat
  childrenDone : List Bool
  successCount : Nat
  failureCount : Nat
  calls : List Call

/-- A node as its constructor leaves it. -/
def NodeData.new : NodeData :=
  ⟨.IDLE, 0, [], 0, 0, []⟩

/-- The variables of all nodes. -/
structure World where
  node : Path → NodeData

/-- What the supplied functions return, given the calls that the node has made before. -/
structure Environment where
  update : Path → List Call → BehaviorState
  precondition : Path → List Call → Bool

namespace World

variable (w : World) (path : Path)

def Running : Prop :=
  (w.node path).behaviorState = .RUNNING

instance : Decidable (w.Running path) :=
  inferInstanceAs (Decidable (_ = _))

/-- The variables of one node change. -/
def set (data : NodeData) : World :=
  ⟨Function.update w.node path data⟩

def setState (state : BehaviorState) : World :=
  w.set path { w.node path with behaviorState := state }

def setChildrenIndex (index : Nat) : World :=
  w.set path { w.node path with childrenIndex := index }

def called (call : Call) : World :=
  w.set path { w.node path with calls := (w.node path).calls ++ [call] }

end World

/-- The selector above a node: its path, `Reset` of its children, and the node's place in it. -/
structure ParentSelector where
  path : Path
  resets : List (World → Option World)
  index : Nat

/-- The abort measures: the child at which the selector stands is reset, and the selector moves to
the node. -/
def ParentSelector.abort (parent : ParentSelector) (w : World) : Option World :=
  (parent.resets[(w.node parent.path).childrenIndex]?).bind fun reset =>
    (reset w).map fun w => w.setChildrenIndex parent.path parent.index

/-- The virtual functions of a node, and whether its selector reevaluates it. -/
structure Methods where
  run : Option ParentSelector → World → Option (BehaviorState × World)
  reset : World → Option World
  reevaluation : Bool

namespace BehaviorNode

section Base

variable (path : Path)

/-- `BehaviorNode::Run`. -/
def Run (onInitialize : World → World) (update : World → Option (BehaviorState × World))
    (onTerminate : BehaviorState → World → Option World) (w : World) :
    Option (BehaviorState × World) :=
  let w := if w.Running path then w else onInitialize w
  (update w).bind fun (state, w) =>
    let w := w.setState path state
    if state = .RUNNING then some (state, w)
    else (onTerminate state w).map fun w => (state, w)

/-- `BehaviorNode::Reset`. -/
def Reset (onTerminate : BehaviorState → World → Option World) (w : World) : Option World :=
  if w.Running path then onTerminate .IDLE (w.setState path .IDLE) else some w

end Base

section Action

variable (env : Environment) (path : Path)

def actionOnTerminate (_ : BehaviorState) (w : World) : Option World :=
  some (w.called path .OnTerminate)

/-- An action node: the supplied functions are called, and nothing else. -/
def actionMethods : Methods where
  run _ := Run path (fun w => w.called path .OnInitialize)
    (fun w => some (env.update path (w.node path).calls, w.called path .Update))
    (actionOnTerminate path)
  reset := Reset path (actionOnTerminate path)
  reevaluation := false

end Action

section Precondition

variable (env : Environment) (abortType : AbortType) (path : Path) (child : Methods)

/-- The node looks at its siblings. -/
def lowPriority : Bool :=
  abortType = .LOW_PRIORITY || abortType = .BOTH

/-- `Precondition`. -/
def evaluate (w : World) : Bool × World :=
  (env.precondition path (w.node path).calls, w.called path .Precondition)

/-- The self reevaluation in `Reevaluation`. -/
def selfReevaluation (w : World) : Bool × World :=
  if abortType = .SELF ∨ abortType = .BOTH ∨ ¬ w.Running (0 :: path) then evaluate env path w
  else (true, w)

/-- The back reevaluation in `Reevaluation`: a precondition that holds aborts the child at which
the selector stands. -/
def backReevaluation (parent : ParentSelector) (w : World) : Option (Bool × World) :=
  let (holds, w) := evaluate env path w
  if holds then (parent.abort w).map fun w => (true, w)
  else some (false, w)

/-- `PreconditionNode::Reevaluation`. -/
def preconditionReevaluation (parent : Option ParentSelector) (w : World) : Option (Bool × World) :=
  match parent with
  | some parent =>
      if lowPriority abortType ∧ parent.index < (w.node parent.path).childrenIndex then
        backReevaluation env path parent w
      else some (selfReevaluation env abortType path w)
  | none => some (selfReevaluation env abortType path w)

/-- `PreconditionNode::Update`. -/
def preconditionUpdate (parent : Option ParentSelector) (w : World) :
    Option (BehaviorState × World) :=
  (preconditionReevaluation env abortType path parent w).bind fun (passed, w) =>
    if passed then child.run none w else some (.FAILURE, w)

/-- `PreconditionNode::OnTerminate`. -/
def preconditionOnTerminate (state : BehaviorState) (w : World) : Option World :=
  match state with
  | .IDLE => child.reset w
  | .FAILURE => child.reset w
  | _ => some w

def preconditionMethods : Methods where
  run parent := Run path id (preconditionUpdate env abortType path child parent)
    (preconditionOnTerminate child)
  reset := Reset path (preconditionOnTerminate child)
  reevaluation := lowPriority abortType

end Precondition

section Composite

variable (path : Path) (children : List Methods)

/-- `OnInitialize` of a selector and of a sequence. -/
def compositeOnInitialize (w : World) : World :=
  w.setChildrenIndex path 0

/-- The loop that runs the children one after the other while they return `next`. `parent` is what
a child gets as its parent; every iteration but the last moves on by one child. -/
def runChildren (next : BehaviorState) (parent : Nat → Option ParentSelector) :
    Nat → World → Option (BehaviorState × World)
  | 0, _ => none
  | k + 1, w =>
      let index := (w.node path).childrenIndex
      (children[index]?).bind fun child =>
        (child.run (parent index) w).bind fun (state, w) =>
          if state ≠ next then some (state, w)
          else
            let index := (w.node path).childrenIndex + 1
            let w := w.setChildrenIndex path index
            if index = children.length then some (next, w.setChildrenIndex path 0)
            else runChildren next parent k w

/-- `OnTerminate` of a selector and of a sequence. -/
def compositeOnTerminate (state : BehaviorState) (w : World) : Option World :=
  match state with
  | .IDLE => (children[(w.node path).childrenIndex]?).bind fun child => child.reset w
  | _ => some w

/-- What a child of a selector finds behind its parent pointer. -/
def parentSelector (index : Nat) : Option ParentSelector :=
  some ⟨path, children.map (·.reset), index⟩

/-- The reevaluation loop of a selector, from the child at `index` on. It returns a state if the
selector does so in the loop. -/
def reevaluateChildren : Nat → Nat → World → Option (Option BehaviorState × World)
  | 0, _, w => some (none, w)
  | k + 1, index, w =>
      if index < (w.node path).childrenIndex then
        (children[index]?).bind fun child =>
          if child.reevaluation then
            (child.run (parentSelector path children index) w).bind fun (state, w) =>
              if index = (w.node path).childrenIndex then
                if state ≠ .FAILURE then some (some state, w)
                else some (none, w.setChildrenIndex path ((w.node path).childrenIndex + 1))
              else reevaluateChildren k (index + 1) w
          else reevaluateChildren k (index + 1) w
      else some (none, w)

/-- `SelectorNode::Update`. -/
def selectorUpdate (w : World) : Option (BehaviorState × World) :=
  if children.length = 0 then some (.SUCCESS, w)
  else
    (reevaluateChildren path children children.length 0 w).bind fun (returned, w) =>
      match returned with
      | some state => some (state, w)
      | none =>
          runChildren path children .FAILURE (parentSelector path children) children.length w

/-- `SequenceNode::Update`. -/
def sequenceUpdate (w : World) : Option (BehaviorState × World) :=
  if children.length = 0 then some (.SUCCESS, w)
  else runChildren path children .SUCCESS (fun _ => none) children.length w

def selectorMethods : Methods where
  run _ := Run path (compositeOnInitialize path) (selectorUpdate path children)
    (compositeOnTerminate path children)
  reset := Reset path (compositeOnTerminate path children)
  reevaluation := false

def sequenceMethods : Methods where
  run _ := Run path (compositeOnInitialize path) (sequenceUpdate path children)
    (compositeOnTerminate path children)
  reset := Reset path (compositeOnTerminate path children)
  reevaluation := false

end Composite

section Parallel

variable (path : Path) (threshold : Nat) (children : List Methods)

/-- `ParallelNode::OnInitialize`. -/
def parallelOnInitialize (w : World) : World :=
  w.set path { w.node path with
    failureCount := 0
    successCount := 0
    childrenDone := List.replicate children.length false }

/-- The child at `index` is done with success. -/
def countSuccess (index : Nat) (w : World) : World :=
  w.set path { w.node path with
    childrenDone := (w.node path).childrenDone.set index true
    successCount := (w.node path).successCount + 1 }

/-- The child at `index` is done with failure. -/
def countFailure (index : Nat) (w : World) : World :=
  w.set path { w.node path with
    childrenDone := (w.node path).childrenDone.set index true
    failureCount := (w.node path).failureCount + 1 }

/-- `children_node_ptr_.size() - threshold_`, which wraps around as a `size_t`. -/
def failureThreshold (size threshold : Nat) : Nat :=
  (size + 2 ^ 64 - threshold) % 2 ^ 64

/-- The loop of `ParallelNode::Update` over the children from `index` on. -/
def runParallel : List Methods → Nat → World → Option (BehaviorState × World)
  | [], _, w => some (.RUNNING, w)
  | child :: rest, index, w =>
      ((w.node path).childrenDone[index]?).bind fun done =>
        if done = false then
          (child.run none w).bind fun (state, w) =>
            if state = .SUCCESS then
              let w := countSuccess path index w
              if (w.node path).successCount ≥ threshold then some (.SUCCESS, w)
              else runParallel rest (index + 1) w
            else if state = .FAILURE then
              let w := countFailure path index w
              if (w.node path).failureCount ≥ failureThreshold children.length threshold then
                some (.FAILURE, w)
              else runParallel rest (index + 1) w
            else runParallel rest (index + 1) w
        else runParallel rest (index + 1) w

/-- `ParallelNode::Update`. -/
def parallelUpdate (w : World) : Option (BehaviorState × World) :=
  if children.length = 0 then some (.SUCCESS, w)
  else runParallel path threshold children children 0 w

/-- `ParallelNode::OnTerminate`. -/
def parallelOnTerminate (_ : BehaviorState) (w : World) : Option World :=
  children.foldlM (fun w child => child.reset w) w

def parallelMethods : Methods where
  run _ := Run path (parallelOnInitialize path children)
    (parallelUpdate path threshold children) (parallelOnTerminate children)
  reset := Reset path (parallelOnTerminate children)
  reevaluation := false

end Parallel

mutual

/-- The virtual functions of the node at a path. -/
def methods (env : Environment) : BehaviorNode → Path → Methods
  | .action, path => actionMethods env path
  | .precondition abortType child, path =>
      preconditionMethods env abortType path (methods env child (0 :: path))
  | .selector children, path => selectorMethods path (childMethods env children path 0)
  | .sequence children, path => sequenceMethods path (childMethods env children path 0)
  | .parallel threshold children, path =>
      parallelMethods path threshold (childMethods env children path 0)

/-- The virtual functions of the children from the position `index` on. -/
def childMethods (env : Environment) : List BehaviorNode → Path → Nat → List Methods
  | [], _, _ => []
  | child :: rest, path, index =>
      methods env child (index :: path) :: childMethods env rest path (index + 1)

end

end BehaviorNode

/-- A call on the root. -/
inductive RootCall where
  | Run
  | Reset
  deriving DecidableEq, Repr

/-- A call on the root of a tree. -/
def rootStep (env : Environment) (root : BehaviorNode) (w : World) : RootCall → Option World
  | .Run => ((root.methods env []).run none w).map (·.2)
  | .Reset => (root.methods env []).reset w

end RoboRTS.Decision.BehaviorTree
