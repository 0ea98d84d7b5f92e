import RoboRTS.Decision.ExampleBehavior.ChaseLine
import RoboRTS.Decision.ExampleBehavior.EscapeBehavior
import RoboRTS.Decision.ExampleBehavior.PatrolBehavior
import RoboRTS.Decision.ExampleBehavior.SearchBehavior
import RoboRTS.Decision.GoalsInTurn

/-!
# The behaviours on one executor

The node of `behavior_test.cpp`: six behaviours share one chassis executor, and each pass of its
loop runs the one that the last command chose, after the callbacks that have come in. All but the
goal behaviour look at `Update` first and do nothing while it answers that the executor is running
(`Waits`).

If every pass finds all goals answered, and the goal behaviour has no new goal while the executor is
running, a goal is sent only when the ones before have ended or been cancelled (`run_oneGoal`), and
the `Cancel` of a chase finds nothing to stop (`run_calls_idle`). The other side of this patience is
that a goal whose rejection leaves the executor without a handle, or the whirl of an escape,
silences the node until somebody sets a new goal (`run_halted`).
-/

namespace RoboRTS.Decision

/-- The members of `BackBootAreaBehavior`. -/
structure BackBootAreaBehavior where
  bootPosition : PoseStamped

namespace BackBootAreaBehavior

/-- The constructor, given what `LoadParam` finds in the file. -/
def create (tf : Tf2) (config : Option DecisionConfig) : BackBootAreaBehavior where
  bootPosition := (config.map fun c => c.masterBotStartPosition.toPose tf).getD originPose

/-- `Run`. -/
def run (lib : Cmath) (tf : Tf2) (executorState : BehaviorState) (robotMapPose : PoseStamped)
    (b : BackBootAreaBehavior) : List ChassisCall :=
  if executorState ≠ .RUNNING then
    let dx := b.bootPosition.position.1 - robotMapPose.position.1
    let dy := b.bootPosition.position.2.1 - robotMapPose.position.2.1
    let dYaw := tf.angleShortestPath b.bootPosition.orientation robotMapPose.orientation
    if lib.sqrt (dx ^ 2 + dy ^ 2) > 1 / 5 ∨ dYaw > 1 / 2 then [.executeGoal b.bootPosition] else []
  else []

end BackBootAreaBehavior

/-- The calls of a chase. -/
def ChassisCommand.toCall : ChassisCommand → ChassisCall
  | .execute goal => .executeGoal goal
  | .cancel => .cancel

/-- A call as an event of the executor. -/
def ChassisCall.toEvent : ChassisCall → ExecutorEvent PoseStamped LinearAngular TwistAccel
  | .executeGoal goal => .executeGoal goal
  | .executeTwistAccel twistAccel => .executeTwistAccel twistAccel
  | .cancel => .cancel

/-- The commands that choose a behaviour, by the keys that stand for them. -/
inductive TestCommand where
  | backBootArea
  | patrol
  | chase
  | search
  | escape
  | goal
  deriving DecidableEq, Repr

/-- What the blackboard holds in a pass of the loop, and what the distributions of an escape return
in it, with the number of draws that it makes at most. -/
structure TestInput where
  robotMapPose : PoseStamped
  isEnemyDetected : Bool
  enemy : PoseStamped
  now : Nat
  map : CostMap2D
  xUniDis : Rat → Rat → Nat → Rat
  yUniDis : Rat → Rat → Nat → Rat
  fuel : Nat

/-- The world of the executor that the behaviours share. -/
abbrev ChassisWorld := World PoseStamped LinearAngular TwistAccel

/-- The node: the executor with its goals, the behaviours, and the new goal of the blackboard. -/
structure BehaviorTest where
  world : ChassisWorld
  backBootAreaBehavior : BackBootAreaBehavior
  patrolBehavior : PatrolBehavior
  chaseBehavior : ChaseBehavior
  searchBehavior : SearchBehavior
  escapeBehavior : EscapeBehavior
  goal : PoseStamped
  newGoal : Bool

/-- A pass of the loop with the current command, or a callback. -/
inductive TestEvent where
  | pass (command : TestCommand) (input : TestInput)
  | goalCallback (goal : PoseStamped)
  | response (goal : Nat) (accepted : Bool)
  | status (goal : Nat) (status : GoalStatus)
  | feedback (feedback : Option (List PoseStamped))

namespace BehaviorTest

variable (lib : Cmath) (tf : Tf2)

/-- `Run` of the behaviour that the command stands for: the node with its new members, and the calls
of the executor. -/
def runBehavior (node : BehaviorTest) (executorState : BehaviorState) (input : TestInput) :
    TestCommand → Option (BehaviorTest × List ChassisCall)
  | .backBootArea =>
      some (node, node.backBootAreaBehavior.run lib tf executorState input.robotMapPose)
  | .patrol =>
      let (patrolBehavior, calls) := node.patrolBehavior.run executorState
      some ({ node with patrolBehavior := patrolBehavior }, calls)
  | .chase => do
      let r ← ChaseBehavior.run lib
        { executorState := executorState, robotMapPose := input.robotMapPose, enemy := input.enemy
          now := input.now, map := input.map } node.chaseBehavior
      some ({ node with chaseBehavior := r.behavior }, r.commands.map ChassisCommand.toCall)
  | .search => do
      let (searchBehavior, calls) ← SearchBehavior.run lib tf
        { executorState := executorState, robotMapPose := input.robotMapPose, now := input.now }
        node.searchBehavior
      some ({ node with searchBehavior := searchBehavior }, calls)
  | .escape => do
      let calls ← EscapeBehavior.run lib tf input.xUniDis input.yUniDis
        { executorState := executorState, isEnemyDetected := input.isEnemyDetected
          enemy := input.enemy, robotMapPose := input.robotMapPose, now := input.now
          map := input.map } input.fuel node.escapeBehavior
      some (node, calls)
  | .goal =>
      if node.newGoal then some ({ node with newGoal := false }, [.executeGoal node.goal])
      else some (node, [])

/-- A pass of the loop or a callback. The goal behaviour does not call `Update`. -/
def step (node : BehaviorTest) : TestEvent → Option BehaviorTest
  | .pass command input => do
      let (executor, executorState) := node.world.executor.update node.world.status
      let (node', calls) ← runBehavior lib tf node executorState input command
      let world : ChassisWorld :=
        if command = .goal then node.world else { node.world with executor := executor }
      let world ← StateMachine.run World.step world (calls.map ChassisCall.toEvent)
      some { node' with world := world }
  | .goalCallback goal => some { node with goal := goal, newGoal := true }
  | .response goal accepted => do
      let world ← node.world.step (.response goal accepted)
      some { node with world := world }
  | .status goal status => do
      let world ← node.world.step (.status goal status)
      some { node with world := world }
  | .feedback feedback => do
      let world ← node.world.step (.feedback feedback)
      some { node with world := world }

end BehaviorTest

/-! ## Behaviours that wait -/

/-- A behaviour that makes no call while the executor is running, and at most one otherwise. -/
structure Waits (executorState : BehaviorState) (calls : List ChassisCall) : Prop where
  length_le : calls.length ≤ 1
  running : executorState = .RUNNING → calls = []

theorem waits_nil (executorState : BehaviorState) : Waits executorState [] :=
  ⟨Nat.zero_le 1, fun _ => rfl⟩

theorem waits_of_ne {executorState : BehaviorState} (h : executorState ≠ .RUNNING)
    {calls : List ChassisCall} (hcalls : calls.length ≤ 1) : Waits executorState calls :=
  ⟨hcalls, fun hrunning => absurd hrunning h⟩

section

variable {lib : Cmath} {tf : Tf2} {state : BehaviorState}

theorem BackBootAreaBehavior.run_waits (b : BackBootAreaBehavior) (robotMapPose : PoseStamped) :
    Waits state (b.run lib tf state robotMapPose) := by
  unfold BackBootAreaBehavior.run
  by_cases hstate : state ≠ .RUNNING
  · rw [if_pos hstate]
    refine waits_of_ne hstate ?_
    dsimp only
    split
    · exact Nat.le_refl 1
    · exact Nat.zero_le 1
  · rw [if_neg hstate]
    exact waits_nil state

theorem PatrolBehavior.run_waits (b : PatrolBehavior) : Waits state (b.run state).2 := by
  unfold PatrolBehavior.run
  by_cases hstate : state ≠ .RUNNING
  · rw [if_pos hstate]
    refine waits_of_ne hstate ?_
    split
    · exact Nat.zero_le 1
    · exact Nat.le_refl 1
  · rw [if_neg hstate]
    exact waits_nil state

theorem ChaseBehavior.cancelOnce_length (b : ChaseBehavior) : b.cancelOnce.2.length ≤ 1 := by
  unfold ChaseBehavior.cancelOnce
  split
  · exact Nat.le_refl 1
  · exact Nat.zero_le 1

theorem ChaseBehavior.pursue_length {map : CostMap2D} {robotMapPose goal : PoseStamped}
    {b : ChaseBehavior} {r : ChaseRun} (h : pursue map robotMapPose goal b = some r) :
    r.commands.length ≤ 1 := by
  unfold pursue at h
  simp only [Option.bind_eq_bind] at h
  split at h
  · cases h
    exact Nat.zero_le 1
  · obtain ⟨goalCell, -, h⟩ := Option.bind_eq_some_iff.mp h
    obtain ⟨cost, -, h⟩ := Option.bind_eq_some_iff.mp h
    split at h
    · obtain ⟨robotCell, -, h⟩ := Option.bind_eq_some_iff.mp h
      obtain ⟨line, -, h⟩ := Option.bind_eq_some_iff.mp h
      obtain ⟨search, -, h⟩ := Option.bind_eq_some_iff.mp h
      cases hfound : search.found with
      | some cell =>
          rw [hfound] at h
          cases h
          exact Nat.le_refl 1
      | none =>
          rw [hfound] at h
          cases h
          exact b.cancelOnce_length
    · cases h
      exact Nat.le_refl 1

theorem ChaseBehavior.run_waits {input : ChaseInput} {b : ChaseBehavior} {r : ChaseRun}
    (h : ChaseBehavior.run lib input b = some r) :
    Waits input.executorState (r.commands.map ChassisCommand.toCall) := by
  unfold ChaseBehavior.run at h
  by_cases hstate : input.executorState ≠ .RUNNING
  · rw [if_pos hstate] at h
    refine waits_of_ne hstate ?_
    rw [List.length_map]
    dsimp only at h
    split at h
    · cases h
      exact cancelOnce_length _
    · exact pursue_length h
  · rw [if_neg hstate] at h
    cases h
    exact waits_nil input.executorState

theorem SearchBehavior.run_waits {input : SearchInput} {b b' : SearchBehavior}
    {calls : List ChassisCall} (h : SearchBehavior.run lib tf input b = some (b', calls)) :
    Waits input.executorState calls := by
  unfold SearchBehavior.run at h
  by_cases hstate : input.executorState ≠ .RUNNING
  · rw [if_pos hstate] at h
    refine waits_of_ne hstate ?_
    split at h
    · cases h
      exact Nat.le_refl 1
    · split at h
      · obtain ⟨goal, -, h⟩ := Option.bind_eq_some_iff.mp h
        cases h
        exact Nat.le_refl 1
      · cases h
        exact Nat.zero_le 1
  · rw [if_neg hstate] at h
    cases h
    exact waits_nil input.executorState

theorem EscapeBehavior.run_waits {xUniDis yUniDis : Rat → Rat → Nat → Rat} {input : EscapeInput}
    {fuel : Nat} {b : EscapeBehavior} {calls : List ChassisCall}
    (h : EscapeBehavior.run lib tf xUniDis yUniDis input fuel b = some calls) :
    Waits input.executorState calls := by
  unfold EscapeBehavior.run at h
  by_cases hstate : input.executorState ≠ .RUNNING
  · rw [if_pos hstate] at h
    refine waits_of_ne hstate ?_
    split at h
    · dsimp only at h
      split at h
      · cases h
        exact Nat.le_refl 1
      · obtain ⟨enemyCell, -, h⟩ := Option.bind_eq_some_iff.mp h
        obtain ⟨goal, -, h⟩ := Option.bind_eq_some_iff.mp h
        cases h
        exact Nat.le_refl 1
    · cases h
      exact Nat.le_refl 1
  · rw [if_neg hstate] at h
    cases h
    exact waits_nil input.executorState

end

namespace BehaviorTest

variable {lib : Cmath} {tf : Tf2} {node node' : BehaviorTest} {state : BehaviorState}
  {input : TestInput} {command : TestCommand} {calls : List ChassisCall} {event : TestEvent}

/-! ## Passes -/

/-- What the `Run` of a pass does: at most one call, none while the executor is running, and none of
the goal behaviour without a new goal. -/
structure Ran (node : BehaviorTest) (state : BehaviorState) (command : TestCommand)
    (node' : BehaviorTest) (calls : List ChassisCall) : Prop where
  newGoal : node.newGoal = false → node'.newGoal = false
  length_le : calls.length ≤ 1
  running : command ≠ .goal → state = .RUNNING → calls = []
  noGoal : command = .goal → node.newGoal = false → calls = []

theorem ran_of_waits (hcommand : command ≠ .goal) (hnewGoal : node'.newGoal = node.newGoal)
    (h : Waits state calls) : Ran node state command node' calls :=
  ⟨hnewGoal.trans, h.length_le, fun _ => h.running, fun hgoal => absurd hgoal hcommand⟩

theorem runBehavior_ran (h : runBehavior lib tf node state input command = some (node', calls)) :
    Ran node state command node' calls := by
  cases command with
  | backBootArea =>
      cases h
      exact ran_of_waits (by decide) rfl (BackBootAreaBehavior.run_waits _ _)
  | patrol =>
      cases h
      exact ran_of_waits (by decide) rfl (PatrolBehavior.run_waits _)
  | chase =>
      obtain ⟨r, hr, h⟩ := Option.bind_eq_some_iff.mp h
      cases h
      exact ran_of_waits (by decide) rfl (ChaseBehavior.run_waits hr)
  | search =>
      obtain ⟨⟨searchBehavior, calls⟩, hr, h⟩ := Option.bind_eq_some_iff.mp h
      cases h
      exact ran_of_waits (by decide) rfl (SearchBehavior.run_waits hr)
  | escape =>
      obtain ⟨calls, hr, h⟩ := Option.bind_eq_some_iff.mp h
      cases h
      exact ran_of_waits (by decide) rfl (EscapeBehavior.run_waits hr)
  | goal =>
      unfold runBehavior at h
      by_cases hnewGoal : node.newGoal = true
      · rw [if_pos hnewGoal] at h
        cases h
        exact ⟨fun _ => rfl, Nat.le_refl 1, fun hne => absurd rfl hne,
          fun _ hnone => absurd hnewGoal (Bool.eq_false_iff.mp hnone)⟩
      · rw [if_neg hnewGoal] at h
        cases h
        exact ⟨id, Nat.zero_le 1, fun _ _ => rfl, fun _ _ => rfl⟩

/-- The world in which the calls of a pass are made. -/
def looked (node : BehaviorTest) (command : TestCommand) : ChassisWorld :=
  if command = .goal then node.world
  else { node.world with executor := (node.world.executor.update node.world.status).1 }

/-- A pass makes no call, or one that its behaviour may make. -/
theorem step_pass (h : step lib tf node (.pass command input) = some node') :
    (node.newGoal = false → node'.newGoal = false) ∧
      (node'.world = node.looked command ∨
        (command ≠ .goal → (node.world.executor.update node.world.status).2 ≠ .RUNNING) ∧
          (command = .goal → node.newGoal = true) ∧
          ∃ call : ChassisCall, (node.looked command).step call.toEvent = some node'.world) := by
  obtain ⟨⟨ran, calls⟩, hran, h⟩ := Option.bind_eq_some_iff.mp h
  obtain ⟨world, hworld, h⟩ := Option.bind_eq_some_iff.mp h
  have hworld : StateMachine.run World.step (node.looked command)
      (calls.map ChassisCall.toEvent) = some world := hworld
  cases h
  obtain ⟨hnewGoal, hlength, hrunning, hnone⟩ := runBehavior_ran hran
  refine ⟨hnewGoal, ?_⟩
  cases calls with
  | nil =>
      cases hworld
      exact Or.inl rfl
  | cons call calls =>
      obtain rfl : calls = [] := List.eq_nil_of_length_eq_zero (Nat.le_zero.mp
        (Nat.le_of_succ_le_succ hlength))
      refine Or.inr ⟨fun hcommand hstate => ?_, fun hcommand => ?_, call, ?_⟩
      · cases hrunning hcommand hstate
      · by_contra hold
        cases hnone hcommand (Bool.eq_false_of_not_eq_true hold)
      · obtain ⟨w, hw, hlast⟩ := Option.bind_eq_some_iff.mp hworld
        cases hlast
        exact hw

/-- A step is a pass, a new goal, or a callback of the executor. -/
theorem step_cases (h : step lib tf node event = some node') :
    (∃ command input, event = .pass command input) ∨
      (∃ goal, event = .goalCallback goal ∧ node'.world = node.world) ∨
      ∃ callback, World.IsCallback callback ∧ node.world.step callback = some node'.world ∧
        node'.newGoal = node.newGoal := by
  cases event with
  | pass command input => exact Or.inl ⟨command, input, rfl⟩
  | goalCallback goal =>
      cases h
      exact Or.inr (Or.inl ⟨goal, rfl, rfl⟩)
  | response goal accepted =>
      obtain ⟨world, hworld, h⟩ := Option.bind_eq_some_iff.mp h
      cases h
      exact Or.inr (Or.inr ⟨.response goal accepted, trivial, hworld, rfl⟩)
  | status goal status =>
      obtain ⟨world, hworld, h⟩ := Option.bind_eq_some_iff.mp h
      cases h
      exact Or.inr (Or.inr ⟨.status goal status, trivial, hworld, rfl⟩)
  | feedback path =>
      cases h
      exact Or.inr (Or.inr ⟨.feedback path, trivial, rfl, rfl⟩)

/-! ## Goals in turn -/

/-- The step condition: a pass finds all goals answered, and the goal behaviour has no new goal
while the executor is running. -/
def Orderly (node : BehaviorTest) : TestEvent → Prop
  | .pass command _ => node.world.Answered ∧ (command = .goal → node.newGoal = true →
      (node.world.executor.update node.world.status).2 ≠ .RUNNING)
  | _ => True

instance : ∀ (node : BehaviorTest) (event : TestEvent), Decidable (node.Orderly event)
  | node, .pass command _ => inferInstanceAs (Decidable (node.world.Answered ∧
      (command = .goal → node.newGoal = true →
        (node.world.executor.update node.world.status).2 ≠ .RUNNING)))
  | _, .goalCallback _ => inferInstanceAs (Decidable True)
  | _, .response _ _ => inferInstanceAs (Decidable True)
  | _, .status _ _ => inferInstanceAs (Decidable True)
  | _, .feedback _ => inferInstanceAs (Decidable True)

theorem looked_inTurn (h : node.world.InTurn) (command : TestCommand) :
    (node.looked command).InTurn := by
  unfold looked
  split
  · exact h
  · exact h.keep rfl rfl

/-- A pass sends a goal only when the world of the executor lets it. -/
theorem looked_patient (hanswered : node.world.Answered)
    (hstate : (node.world.executor.update node.world.status).2 ≠ .RUNNING) (command : TestCommand)
    (call : ChassisCall) : (node.looked command).Patient call.toEvent := by
  cases call with
  | executeGoal goal =>
      unfold looked
      split
      · exact ⟨hanswered, hstate⟩
      · exact ⟨hanswered, hstate⟩
  | executeTwistAccel twistAccel => trivial
  | cancel => trivial

theorem step_inTurn (hw : node.world.InTurn) (hok : node.Orderly event)
    (hstep : step lib tf node event = some node') : node'.world.InTurn := by
  rcases step_cases hstep with
    ⟨command, input, rfl⟩ | ⟨goal, -, hworld⟩ | ⟨callback, hcallback, hworld, -⟩
  · obtain ⟨hanswered, hgoal⟩ := hok
    rcases (step_pass hstep).2 with hworld | ⟨hidle, hnewGoal, call, hcall⟩
    · rw [hworld]
      exact looked_inTurn hw command
    · have hstate : (node.world.executor.update node.world.status).2 ≠ .RUNNING := by
        by_cases hcommand : command = .goal
        · exact hgoal hcommand (hnewGoal hcommand)
        · exact hidle hcommand
      exact World.step_inTurn (looked_inTurn hw command)
        (looked_patient hanswered hstate command call) hcall
  · exact hworld ▸ hw
  · exact World.step_inTurn hw (World.patient_of_isCallback hcallback) hworld

theorem run_inTurn {zeroTwist : LinearAngular} {zeroTwistAccel : TwistAccel}
    (hstart : node.world = .start zeroTwist zeroTwistAccel) {events : List TestEvent}
    (hok : StateMachine.Along (step lib tf) Orderly node events)
    (hrun : StateMachine.run (step lib tf) node events = some node') : node'.world.InTurn :=
  StateMachine.run_invariant_of (fun _ _ _ hw hok hstep => step_inTurn hw hok hstep)
    (hstart ▸ World.start_inTurn zeroTwist zeroTwistAccel) hok hrun

/-- Whatever commands are given, in every orderly run only the last goal is in progress: a goal is
sent once the ones before have ended or been cancelled. -/
theorem run_oneGoal (lib : Cmath) (tf : Tf2) {node node' : BehaviorTest} {zeroTwist : LinearAngular}
    {zeroTwistAccel : TwistAccel} (hstart : node.world = .start zeroTwist zeroTwistAccel)
    {events : List TestEvent} (hok : StateMachine.Along (step lib tf) Orderly node events)
    (hrun : StateMachine.run (step lib tf) node events = some node') {n : Nat}
    (hn : node'.world.InProgress n) : n + 1 = node'.world.goals.length :=
  (run_inTurn hstart hok hrun).of_inProgress hn

/-- Whenever a behaviour calls the executor in an orderly run, no goal is in progress: there is
nothing that the `Cancel` of a chase could stop. -/
theorem run_calls_idle (lib : Cmath) (tf : Tf2) {node node' : BehaviorTest}
    {zeroTwist : LinearAngular} {zeroTwistAccel : TwistAccel}
    (hstart : node.world = .start zeroTwist zeroTwistAccel) {events : List TestEvent}
    (hok : StateMachine.Along (step lib tf) Orderly node events)
    (hrun : StateMachine.run (step lib tf) node events = some node')
    {command : TestCommand} {input : TestInput} (hpass : node'.Orderly (.pass command input))
    {after : BehaviorTest} {calls : List ChassisCall}
    (hcalls : runBehavior lib tf node' (node'.world.executor.update node'.world.status).2 input
      command = some (after, calls)) (hne : calls ≠ []) (n : Nat) : ¬node'.world.InProgress n := by
  have hinTurn := run_inTurn hstart hok hrun
  obtain ⟨hanswered, hgoal⟩ := hpass
  obtain ⟨-, -, hrunning, hnone⟩ := runBehavior_ran hcalls
  refine hinTurn.not_inProgress hanswered ?_ n
  by_cases hcommand : command = .goal
  · refine hgoal hcommand ?_
    by_contra hold
    exact hne (hnone hcommand (Bool.eq_false_of_not_eq_true hold))
  · exact fun hstate => hne (hrunning hcommand hstate)

/-- A node with two points to patrol. -/
def twoGoals : BehaviorTest where
  world := .start ⟨(0, 0, 0), (0, 0, 0)⟩ ⟨⟨(0, 0, 0), (0, 0, 0)⟩, ⟨(0, 0, 0), (0, 0, 0)⟩⟩
  backBootAreaBehavior := ⟨originPose⟩
  patrolBehavior := ⟨[originPose, { originPose with position := (1, 0, 0) }], 0, 2, rfl, by decide⟩
  chaseBehavior := ⟨fun _ => originPose, 0, true⟩
  searchBehavior := ⟨⟨[], [], [], []⟩, originPose, [], 0, 0⟩
  escapeBehavior :=
    ⟨⟨0, 0, 0, 0, 0, 0, 0⟩, ⟨⟨(0, 0, 0), (0, 0, 1)⟩, ⟨(0, 0, 0), (0, 0, 0)⟩⟩⟩
  goal := originPose
  newGoal := false

/-- A pass with the robot at the origin and no enemy. -/
def quiet (command : TestCommand) : TestEvent :=
  .pass command ⟨originPose, false, originPose, 0, EscapeBehavior.row, fun _ _ _ => 0,
    fun _ _ _ => 0, 0⟩

/-- The second point is sent when the robot has got to the first one, and not while it is on its
way. -/
theorem run_oneGoal_twoGoals :
    let lib : Cmath :=
      { sqrt := fun q => q, cos := fun _ => 1, sin := fun _ => 0, atan2 := fun _ _ => 0 }
    let tf : Tf2 :=
      { quaternionFromRollPitchYaw := fun _ _ _ => (0, 0, 0, 1), angleShortestPath := fun _ _ => 0 }
    ∃ node, StateMachine.run (step lib tf) twoGoals
        [quiet .patrol, .response 0 true, quiet .patrol, .status 0 .STATUS_SUCCEEDED,
          quiet .patrol, .response 1 true] = some node ∧
      node.world.InProgress 1 ∧ ∀ n, node.world.InProgress n → n + 1 = 2 := by
  intro lib tf
  obtain ⟨node, hnode⟩ := Option.isSome_iff_exists.mp
    (show (StateMachine.run (step lib tf) twoGoals
      [quiet .patrol, .response 0 true, quiet .patrol, .status 0 .STATUS_SUCCEEDED,
        quiet .patrol, .response 1 true]).isSome = true by decide +kernel)
  have hlast := fun n => run_oneGoal lib tf (n := n) rfl (by decide +kernel) hnode
  refine ⟨node, hnode, ?_, fun n hn => ?_⟩
  · cases hnode
    exact ⟨by decide, by decide, by decide⟩
  · have hn := hlast n hn
    cases hnode
    exact hn

/-- A pass that comes before the answer to the second goal finds the handle of the first one, and
sends a third goal. -/
theorem run_overtakes :
    let lib : Cmath :=
      { sqrt := fun q => q, cos := fun _ => 1, sin := fun _ => 0, atan2 := fun _ _ => 0 }
    let tf : Tf2 :=
      { quaternionFromRollPitchYaw := fun _ _ _ => (0, 0, 0, 1), angleShortestPath := fun _ _ => 0 }
    ∃ node, StateMachine.run (step lib tf) twoGoals
        [quiet .patrol, .response 0 true, .status 0 .STATUS_SUCCEEDED, quiet .patrol,
          quiet .patrol] = some node ∧ node.world.InProgress 1 ∧ node.world.InProgress 2 := by
  intro lib tf
  obtain ⟨node, hnode⟩ := Option.isSome_iff_exists.mp
    (show (StateMachine.run (step lib tf) twoGoals
      [quiet .patrol, .response 0 true, .status 0 .STATUS_SUCCEEDED, quiet .patrol,
        quiet .patrol]).isSome = true by decide +kernel)
  refine ⟨node, hnode, ?_⟩
  cases hnode
  exact ⟨⟨by decide, by decide, by decide⟩, by decide, by decide, by decide⟩

/-- The first point is reached, and an enemy is near the robot: the chase cancels nothing. -/
theorem run_calls_idle_cancel :
    let lib : Cmath :=
      { sqrt := fun q => q, cos := fun _ => 1, sin := fun _ => 0, atan2 := fun _ _ => 0 }
    let tf : Tf2 :=
      { quaternionFromRollPitchYaw := fun _ _ _ => (0, 0, 0, 1), angleShortestPath := fun _ _ => 0 }
    let near : TestInput :=
      ⟨originPose, true, { originPose with position := (1, 0, 0) }, 0, EscapeBehavior.row,
        fun _ _ _ => 0, fun _ _ _ => 0, 0⟩
    ∃ node after, StateMachine.run (step lib tf) twoGoals
        [quiet .patrol, .response 0 true, .status 0 .STATUS_SUCCEEDED] = some node ∧
      runBehavior lib tf node (node.world.executor.update node.world.status).2 near .chase =
        some (after, [.cancel]) ∧ ¬node.world.InProgress 0 := by
  intro lib tf near
  obtain ⟨node, hnode⟩ := Option.isSome_iff_exists.mp
    (show (StateMachine.run (step lib tf) twoGoals
      [quiet .patrol, .response 0 true, .status 0 .STATUS_SUCCEEDED]).isSome = true by
        decide +kernel)
  have hcancel : (runBehavior lib tf node (node.world.executor.update node.world.status).2 near
      .chase).map Prod.snd = some [.cancel] ∧ node.Orderly (.pass .chase near) := by
    cases hnode
    exact ⟨by decide +kernel, by decide +kernel⟩
  obtain ⟨hcalls, hpass⟩ := hcancel
  obtain ⟨⟨after, calls⟩, hran, rfl⟩ := Option.map_eq_some_iff.mp hcalls
  exact ⟨node, after, hnode, hran, run_calls_idle lib tf rfl (by decide +kernel) hnode hpass hran
    (List.cons_ne_nil _ _) 0⟩

/-! ## Silence -/

/-- Nobody sets a goal. -/
def NoGoal : TestEvent → Prop
  | .goalCallback _ => False
  | _ => True

/-- The executor waits for ever, and no goal is set. -/
structure Stuck (node : BehaviorTest) : Prop where
  halted : node.world.Halted
  newGoal : node.newGoal = false

theorem looked_silent (h : node.world.Halted) (command : TestCommand) :
    (node.looked command).Halted ∧ World.Silent node.world (node.looked command) := by
  unfold looked
  split
  · exact ⟨h, World.silent_of_eq rfl rfl rfl⟩
  · have hupdate : World.IsCallback
        (.update : ExecutorEvent PoseStamped LinearAngular TwistAccel) := trivial
    exact h.callback hupdate rfl

theorem step_stuck (h : node.Stuck) (hevent : NoGoal event)
    (hstep : step lib tf node event = some node') :
    node'.Stuck ∧ World.Silent node.world node'.world := by
  obtain ⟨hhalted, hnewGoal⟩ := h
  rcases step_cases hstep with
    ⟨command, input, rfl⟩ | ⟨goal, rfl, -⟩ | ⟨callback, hcallback, hworld, hkept⟩
  · obtain ⟨hnew, hworld | ⟨hidle, hgoal, -⟩⟩ := step_pass hstep
    · obtain ⟨hhalted', hsilent⟩ := looked_silent hhalted command
      rw [← hworld] at hhalted' hsilent
      exact ⟨⟨hhalted', hnew hnewGoal⟩, hsilent⟩
    · by_cases hcommand : command = .goal
      · cases hnewGoal.symm.trans (hgoal hcommand)
      · exact absurd hhalted.update (hidle hcommand)
  · cases hevent
  · obtain ⟨hhalted', hsilent⟩ := hhalted.callback hcallback hworld
    exact ⟨⟨hhalted', hkept.trans hnewGoal⟩, hsilent⟩

/-- Once the executor whirls, or is in goal mode without a handle although all goals have been
answered, and no new goal is set, no command makes the node send a goal or a velocity or cancel
anything, until somebody sets a goal. -/
theorem run_halted (lib : Cmath) (tf : Tf2) {node node' : BehaviorTest}
    (hhalted : node.world.Halted) (hnewGoal : node.newGoal = false) {events : List TestEvent}
    (hevents : ∀ event ∈ events, NoGoal event)
    (hrun : StateMachine.run (step lib tf) node events = some node') :
    World.Silent node.world node'.world := by
  induction events generalizing node with
  | nil =>
      cases hrun
      exact World.silent_of_eq rfl rfl rfl
  | cons event events ih =>
      rw [StateMachine.run_cons, Option.bind_eq_some_iff] at hrun
      obtain ⟨next, hstep, hrest⟩ := hrun
      obtain ⟨hstuck, hsilent⟩ :=
        step_stuck ⟨hhalted, hnewGoal⟩ (hevents event List.mem_cons_self) hstep
      exact hsilent.trans (ih hstuck.halted hstuck.newGoal
        (fun event hevent => hevents event (List.mem_cons_of_mem _ hevent)) hrest)

/-- The first goal is rejected, and the patrol does not go on. -/
theorem run_halted_twoGoals :
    let lib : Cmath :=
      { sqrt := fun q => q, cos := fun _ => 1, sin := fun _ => 0, atan2 := fun _ _ => 0 }
    let tf : Tf2 :=
      { quaternionFromRollPitchYaw := fun _ _ _ => (0, 0, 0, 1), angleShortestPath := fun _ _ => 0 }
    ∃ node node', StateMachine.run (step lib tf) twoGoals
        [quiet .patrol, .response 0 false] = some node ∧
      StateMachine.run (step lib tf) node
        [quiet .patrol, quiet .backBootArea, quiet .goal, quiet .patrol] = some node' ∧
      node'.world.goals = [originPose] := by
  intro lib tf
  obtain ⟨node, hnode⟩ := Option.isSome_iff_exists.mp
    (show (StateMachine.run (step lib tf) twoGoals
      [quiet .patrol, .response 0 false]).isSome = true by decide +kernel)
  obtain ⟨node', hnode'⟩ := Option.isSome_iff_exists.mp
    (show (StateMachine.run (step lib tf) node
      [quiet .patrol, quiet .backBootArea, quiet .goal, quiet .patrol]).isSome = true by
        cases hnode
        decide +kernel)
  have hhalted : node.world.Halted ∧ node.newGoal = false ∧ node.world.goals = [originPose] := by
    cases hnode
    exact ⟨.rejected rfl rfl (by decide), rfl, rfl⟩
  obtain ⟨hhalted, hnewGoal, hgoals⟩ := hhalted
  have hsilent := run_halted lib tf hhalted hnewGoal (by simp [NoGoal, quiet]) hnode'
  exact ⟨node, node', hnode, hnode', hsilent.goals.trans hgoals⟩

end BehaviorTest

end RoboRTS.Decision
