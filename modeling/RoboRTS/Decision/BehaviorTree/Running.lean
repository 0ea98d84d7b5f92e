import RoboRTS.Decision.BehaviorTree.Composite
import RoboRTS.Decision.BehaviorTree.Parallel

/-!
# Running nodes over a whole run

`sound_methods` is an induction over the tree with one case for each kind of node. With it every
call on the root keeps the invariant, which `run_runningInvariant` reads off in terms of the nodes
that run and the calls of the actions.
-/

namespace RoboRTS.Decision.BehaviorTree

variable {t : BehaviorNode} {path : Path} {w : World}

section Tree

open BehaviorNode

variable (env : Environment)

theorem length_childMethods (ts : List BehaviorNode) (path : Path) (k : Nat) :
    (childMethods env ts path k).length = ts.length := by
  induction ts generalizing k with
  | nil => rfl
  | cons t ts ih => simp [childMethods, ih]

mutual

/-- The methods of every node do what its parent relies on. -/
theorem sound_methods : ∀ (t : BehaviorNode) (path : Path), Sound t path (methods env t path)
  | .action, path => sound_action env path
  | .precondition _ child, path => sound_precondition (sound_methods child (0 :: path))
  | .selector children, path => sound_selector (sound_childMethods children path)
  | .sequence children, path => sound_sequence (sound_childMethods children path)
  | .parallel _ children, path => sound_parallel (sound_childMethods children path)

theorem sound_childMethods (ts : List BehaviorNode) (path : Path) :
    SoundChildren ts path (childMethods env ts path 0) where
  length := length_childMethods env ts path 0
  sound j c m hc hm := by simpa using sound_childMethods_from ts path 0 j c m hc hm

theorem sound_childMethods_from : ∀ (ts : List BehaviorNode) (path : Path) (k j : Nat)
    (c : BehaviorNode) (m : Methods), ts[j]? = some c → (childMethods env ts path k)[j]? = some m →
    Sound c ((k + j) :: path) m
  | t :: ts, path, k, 0, c, m, hc, hm => by
      cases hc
      cases hm
      exact sound_methods t (k :: path)
  | t :: ts, path, k, j + 1, c, m, hc, hm => by
      have h := sound_childMethods_from ts path (k + 1) j c m hc hm
      rwa [Nat.add_right_comm] at h

end

/-- The variables of all nodes as their constructors leave them. -/
def World.new : World :=
  ⟨fun _ => .new⟩

theorem inv_new (t : BehaviorNode) (path : Path) : Inv t path World.new := by
  intro s q _
  have hidle : ∀ q, ¬ World.new.Running q := fun q => by simp [World.Running, World.new, NodeData.new]
  cases s with
  | action =>
      show Alternate _ _
      rw [if_neg (hidle q)]
      rfl
  | precondition => exact iff_of_false (hidle _) (hidle q)
  | selector | sequence =>
      exact ⟨fun h => absurd h (hidle q), fun j _ => iff_of_false (hidle _) fun h => hidle q h.1⟩
  | parallel => exact ⟨fun h => absurd h (hidle q), fun j _ h => absurd h (hidle _)⟩

/-- A call on the root returns and keeps the invariant. -/
theorem rootStep_inv {root : BehaviorNode} (call : RootCall) (hinv : Inv root [] w) :
    ∃ w', rootStep env root w call = some w' ∧ Inv root [] w' := by
  have hsound := sound_methods env root []
  cases call with
  | Run =>
      obtain ⟨state, w', hrun, hpost⟩ := hsound.run w hinv
      exact ⟨w', by simp [rootStep, hrun], hpost.inv⟩
  | Reset =>
      obtain ⟨w', hreset, hpost⟩ := hsound.reset w hinv
      exact ⟨w', hreset, hpost.inv⟩

/-- So do any number of them. -/
theorem run_inv (root : BehaviorNode) (calls : List RootCall) (hinv : Inv root [] w) :
    ∃ w', StateMachine.run (rootStep env root) w calls = some w' ∧ Inv root [] w' := by
  induction calls generalizing w with
  | nil => exact ⟨w, rfl, hinv⟩
  | cons call calls ih =>
      obtain ⟨w₁, hstep, hinv₁⟩ := rootStep_inv env call hinv
      obtain ⟨w', hrun, hinv'⟩ := ih hinv₁
      exact ⟨w', by rw [StateMachine.run_cons, hstep, Option.bind_some, hrun], hinv'⟩

/-- Every node but the root is a child of a node of the tree. -/
theorem Within.parent {s : BehaviorNode} {q : Path} (h : Within s q t path) :
    q = path ∨ ∃ t' j, q = j :: q.tail ∧ t'.children[j]? = some s ∧ Within t' q.tail t path := by
  induction h with
  | root => exact Or.inl rfl
  | @child t c path j hc hs ih =>
      right
      cases ih with
      | inl heq =>
          subst heq
          cases hs with
          | root => exact ⟨t, j, rfl, hc, .root⟩
          | child _ hs =>
              have hle := hs.suffix.length_le
              simp only [List.length_cons] at hle
              omega
      | inr hparent =>
          obtain ⟨t', i, hq, ht', hwithin⟩ := hparent
          exact ⟨t', i, hq, ht', .child hc hwithin⟩

/-- Who runs in a tree, and what its actions have been called with. -/
structure RunningInvariant (root : BehaviorNode) (w : World) : Prop where
  parent : ∀ s q, Within s q root [] → q ≠ [] → w.Running q → w.Running q.tail
  composite : ∀ children q,
    Within (.selector children) q root [] ∨ Within (.sequence children) q root [] → w.Running q →
    (w.node q).childrenIndex < children.length ∧
      ∀ j < children.length, w.Running (j :: q) ↔ j = (w.node q).childrenIndex
  precondition : ∀ abortType child q, Within (.precondition abortType child) q root [] →
    w.Running q → w.Running (0 :: q)
  stopped : ¬ w.Running [] → ∀ s q, Within s q root [] → ¬ w.Running q
  action : ∀ q, Within .action q root [] → ∃ phase, Alternate (w.node q).calls phase

theorem Inv.runningInvariant {root : BehaviorNode} (hinv : Inv root [] w) :
    RunningInvariant root w := by
  constructor
  case parent =>
    intro s q hs hne hrunning
    obtain ⟨t', j, hq, ht', hwithin⟩ := hs.parent.resolve_left hne
    rw [hq] at hrunning
    exact (hinv t' q.tail hwithin).parent_running ht' hrunning
  case composite =>
    intro children q hs hrunning
    have hone : OneRuns children.length q w := by
      cases hs with
      | inl hselector => exact hinv _ q hselector
      | inr hsequence => exact hinv _ q hsequence
    refine ⟨hone.index hrunning, fun j hj => ?_⟩
    rw [hone.child j hj]
    exact and_iff_right hrunning
  case precondition =>
    intro abortType child q hs hrunning
    have hlocal : w.Running (0 :: q) ↔ w.Running q := hinv _ q hs
    exact hlocal.mpr hrunning
  case stopped => exact fun hnot s q hs hrunning => hnot (hinv.running_root hs hrunning)
  case action => exact fun q hs => ⟨_, hinv _ q hs⟩

/-- After any calls on the root of a new tree, whatever its actions return and whichever
preconditions hold, no call has accessed a child that does not exist, and the running nodes and the
calls of the actions are as `RunningInvariant` says. -/
theorem run_runningInvariant (env : Environment) (root : BehaviorNode) (calls : List RootCall) :
    ∃ w, StateMachine.run (rootStep env root) World.new calls = some w ∧
      RunningInvariant root w := by
  obtain ⟨w, hrun, hinv⟩ := run_inv env root calls (inv_new root [])
  exact ⟨w, hrun, hinv.runningInvariant⟩

end Tree

end RoboRTS.Decision.BehaviorTree
