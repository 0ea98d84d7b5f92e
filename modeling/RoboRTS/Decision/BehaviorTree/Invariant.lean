import RoboRTS.Decision.BehaviorTree.Defs
import Mathlib.Data.List.Infix

/-!
# The running invariant of a behaviour tree

`Local` says what the variables of a node and of its children have to do with each other: who may
be running, and where in `OnInitialize`, `Update`, `OnTerminate` an action stands. `Inv` is `Local`
at every node of a subtree. It only looks at the subtree's own variables (`Inv.agree`), so what a
subtree does to itself leaves the invariant of its siblings alone.
-/

namespace RoboRTS.Decision.BehaviorTree

/-- Between which calls an action stands. -/
inductive Phase where
  | outside
  | initialized
  | updated
  deriving DecidableEq, Repr

/-- `OnInitialize`, then `Update` at least once, then `OnTerminate`. -/
def callStep : Phase → Call → Option Phase
  | .outside, .OnInitialize => some .initialized
  | .initialized, .Update => some .updated
  | .updated, .Update => some .updated
  | .updated, .OnTerminate => some .outside
  | _, _ => none

/-- The calls alternate, starting with `OnInitialize`, and end in the phase. -/
def Alternate (calls : List Call) (phase : Phase) : Prop :=
  StateMachine.run callStep .outside calls = some phase

theorem Alternate.concat {calls : List Call} {phase phase' : Phase} {call : Call}
    (h : Alternate calls phase) (hcall : callStep phase call = some phase') :
    Alternate (calls ++ [call]) phase' :=
  StateMachine.run_concat_eq_some.mpr ⟨phase, h, hcall⟩

namespace BehaviorNode

def children : BehaviorNode → List BehaviorNode
  | .action => []
  | .precondition _ child => [child]
  | .selector children => children
  | .sequence children => children
  | .parallel _ children => children

end BehaviorNode

/-- The node `s` at `q` is a node of the tree `t` whose root is at `path`. -/
inductive Within (s : BehaviorNode) (q : Path) : BehaviorNode → Path → Prop
  | root : Within s q s q
  | child {t c : BehaviorNode} {path : Path} {j : Nat} : t.children[j]? = some c →
      Within s q c (j :: path) → Within s q t path

/-- The one child that may run is the one at which the node stands. -/
structure OneRuns (size : Nat) (path : Path) (w : World) : Prop where
  index : w.Running path → (w.node path).childrenIndex < size
  child : ∀ j < size, w.Running (j :: path) ↔
    w.Running path ∧ j = (w.node path).childrenIndex

/-- Children run only while the node runs. -/
structure SomeRun (size : Nat) (path : Path) (w : World) : Prop where
  done : w.Running path → (w.node path).childrenDone.length = size
  child : ∀ j < size, w.Running (j :: path) → w.Running path

/-- What holds at a node, given its variables and those of its children. -/
def Local (w : World) (path : Path) : BehaviorNode → Prop
  | .action => Alternate (w.node path).calls (if w.Running path then .updated else .outside)
  | .precondition _ _ => w.Running (0 :: path) ↔ w.Running path
  | .selector children => OneRuns children.length path w
  | .sequence children => OneRuns children.length path w
  | .parallel _ children => SomeRun children.length path w

/-- The invariant of the tree `t` at `path`. -/
def Inv (t : BehaviorNode) (path : Path) (w : World) : Prop :=
  ∀ s q, Within s q t path → Local w q s

/-- Only variables of the subtree at `path` differ. -/
def Frame (path : Path) (w w' : World) : Prop :=
  ∀ q, ¬ path <:+ q → w'.node q = w.node q

variable {s t c : BehaviorNode} {path q : Path} {w w' w₁ : World} {j k : Nat}

theorem Within.suffix (h : Within s q t path) : path <:+ q := by
  induction h with
  | root => exact List.suffix_refl _
  | child _ _ ih => exact (List.suffix_cons _ _).trans ih

/-- The invariant of a tree is that of its root and of its children. -/
theorem inv_iff : Inv t path w ↔
    Local w path t ∧ ∀ j c, t.children[j]? = some c → Inv c (j :: path) w := by
  constructor
  · intro h
    exact ⟨h t path .root, fun j c hc s q hs => h s q (.child hc hs)⟩
  · rintro ⟨hroot, hchildren⟩ s q hs
    cases hs with
    | root => exact hroot
    | child hc hs => exact hchildren _ _ hc s q hs

theorem Local.agree (h : Local w path t) (hself : w'.node path = w.node path)
    (hchild : ∀ j, w'.node (j :: path) = w.node (j :: path)) : Local w' path t := by
  have hrunning : w'.Running path ↔ w.Running path := by rw [World.Running, hself]; rfl
  have hrunning' : ∀ j, w'.Running (j :: path) ↔ w.Running (j :: path) := by
    intro j
    rw [World.Running, hchild]
    rfl
  cases t with
  | action => simpa only [Local, hself, hrunning] using h
  | precondition => simpa only [Local, hrunning, hrunning'] using h
  | selector children | sequence children =>
      exact ⟨by rw [hrunning, hself]; exact h.index, fun j hj => by
        rw [hrunning', hrunning, hself]
        exact h.child j hj⟩
  | parallel threshold children =>
      exact ⟨by rw [hrunning, hself]; exact h.done, fun j hj => by
        rw [hrunning', hrunning]
        exact h.child j hj⟩

/-- The invariant of a tree is about the variables of its nodes. -/
theorem Inv.agree (h : Inv t path w) (hw : ∀ q, path <:+ q → w'.node q = w.node q) :
    Inv t path w' := by
  intro s q hs
  have hsuffix := hs.suffix
  exact (h s q hs).agree (hw q hsuffix) fun j => hw _ (hsuffix.trans (List.suffix_cons j q))

/-- A child runs only while its parent runs. -/
theorem Local.parent_running (h : Local w path t) (hc : t.children[j]? = some c)
    (hrunning : w.Running (j :: path)) : w.Running path := by
  have hj : j < t.children.length := (List.getElem?_eq_some_iff.mp hc).1
  cases t with
  | action => simp [BehaviorNode.children] at hj
  | precondition =>
      obtain rfl : j = 0 := by simpa [BehaviorNode.children] using hj
      exact h.mp hrunning
  | selector children | sequence children => exact ((h.child j hj).mp hrunning).1
  | parallel threshold children => exact h.child j hj hrunning

/-- While the root of a tree does not run, no node of it does. -/
theorem Inv.running_root (h : Inv t path w) (hs : Within s q t path) (hrunning : w.Running q) :
    w.Running path := by
  induction hs with
  | root => exact hrunning
  | child hc hs ih =>
      obtain ⟨hroot, hchildren⟩ := inv_iff.mp h
      exact hroot.parent_running hc (ih (hchildren _ _ hc))

theorem Frame.refl (path : Path) (w : World) : Frame path w w :=
  fun _ _ => rfl

theorem Frame.trans (h : Frame path w w₁) (h' : Frame path w₁ w') : Frame path w w' :=
  fun q hq => (h' q hq).trans (h q hq)

theorem Frame.parent (h : Frame (j :: path) w w') : Frame path w w' :=
  fun q hq => h q fun hsuffix => hq ((List.suffix_cons j path).trans hsuffix)

theorem frame_set (path : Path) (w : World) (data : NodeData) : Frame path w (w.set path data) := by
  intro q hq
  have hne : q ≠ path := by
    rintro rfl
    exact hq (List.suffix_refl q)
  exact Function.update_of_ne hne _ _

theorem not_suffix_of_cons : ¬ (j :: path) <:+ path := by
  intro h
  have hle := h.length_le
  rw [List.length_cons] at hle
  omega

/-- The subtrees of two children have no path in common. -/
theorem eq_of_suffix_cons (hj : (j :: path) <:+ q) (hk : (k :: path) <:+ q) : j = k := by
  have hle : (j :: path) <:+ (k :: path) := List.suffix_of_suffix_length_le hj hk (by simp)
  have heq := hle.eq_of_length (by simp)
  simpa using heq

/-- What one child does to its subtree leaves the variables of the node. -/
theorem Frame.self (h : Frame (j :: path) w w') : w'.node path = w.node path :=
  h path not_suffix_of_cons

/-- It leaves the variables of another child. -/
theorem Frame.sibling (h : Frame (j :: path) w w') (hne : k ≠ j) :
    w'.node (k :: path) = w.node (k :: path) :=
  h _ fun hsuffix => hne (eq_of_suffix_cons (List.suffix_refl _) hsuffix)

/-- It leaves the invariant of another child. -/
theorem Frame.inv_sibling (h : Frame (j :: path) w w') (hne : k ≠ j)
    (hinv : Inv c (k :: path) w) : Inv c (k :: path) w' :=
  hinv.agree fun q hq => h q fun hsuffix => hne (eq_of_suffix_cons hq hsuffix)

/-- The variables of a node are none of its child's. -/
theorem Inv.set_parent (hinv : Inv c (j :: path) w) (data : NodeData) :
    Inv c (j :: path) (w.set path data) := by
  refine hinv.agree fun q hq => Function.update_of_ne ?_ _ _
  rintro rfl
  exact not_suffix_of_cons hq

@[simp] theorem set_self (path : Path) (w : World) (data : NodeData) :
    (w.set path data).node path = data :=
  Function.update_self ..

@[simp] theorem set_child (j : Nat) (path : Path) (w : World) (data : NodeData) :
    (w.set path data).node (j :: path) = w.node (j :: path) :=
  Function.update_of_ne (by simp) _ _

end RoboRTS.Decision.BehaviorTree
