import RoboRTS.Decision.ExampleBehavior.Defs
import RoboRTS.Lib.Laps

/-!
# Patrols

`PatrolBehavior::Run` sends the next point of the configuration whenever the executor is not
running. The counter stays a position of the list (`PatrolBehavior.count_lt`), and the goals go
round the list (`runs_create`).
-/

namespace RoboRTS.Decision

open Laps

/-- The members of `PatrolBehavior`. -/
structure PatrolBehavior where
  patrolGoals : List PoseStamped
  patrolCount : Nat
  pointSize : Nat
  size_eq : pointSize = patrolGoals.length
  count_lt : patrolGoals ≠ [] → patrolCount < patrolGoals.length

namespace PatrolBehavior

/-- The constructor, given what `LoadParam` finds in the file. -/
def create (tf : Tf2) (config : Option DecisionConfig) : PatrolBehavior :=
  let points := (config.map DecisionConfig.point).getD []
  { patrolGoals := points.map (Point.toPose tf)
    patrolCount := 0
    pointSize := points.length
    size_eq := (List.length_map (Point.toPose tf)).symm
    count_lt := List.length_pos_of_ne_nil }

/-- `Run`. -/
def run (executorState : BehaviorState) (b : PatrolBehavior) : PatrolBehavior × List ChassisCall :=
  if executorState ≠ .RUNNING then
    if h : b.patrolGoals = [] then (b, [])
    else
      have := b.count_lt h
      let b' : PatrolBehavior :=
        { b with
          patrolCount := (b.patrolCount + 1) % b.pointSize
          count_lt := fun _ => b.size_eq ▸ Nat.mod_lt _ (Nat.zero_lt_of_lt (b.size_eq ▸ this)) }
      (b', [.executeGoal b.patrolGoals[b.patrolCount]])
  else (b, [])

/-- The goals that a sequence of calls sends, given what the executor answers to each. -/
def runs : List BehaviorState → PatrolBehavior → List PoseStamped
  | [], _ => []
  | state :: states, b => goalsOf (b.run state).2 ++ runs states (b.run state).1

/-- A call that the executor lets through sends the goal at the counter. -/
theorem run_of_ne_nil {b : PatrolBehavior} (h : b.patrolGoals ≠ []) {state : BehaviorState}
    (hstate : state ≠ .RUNNING) :
    ∃ goal, b.patrolGoals[b.patrolCount]? = some goal ∧ (b.run state).2 = [.executeGoal goal] ∧
      (b.run state).1.patrolGoals = b.patrolGoals ∧
      (b.run state).1.patrolCount = (b.patrolCount + 1) % b.patrolGoals.length := by
  have hlt := b.count_lt h
  refine ⟨b.patrolGoals[b.patrolCount], List.getElem?_eq_getElem hlt, ?_⟩
  unfold run
  rw [if_pos hstate, dif_neg h]
  exact ⟨rfl, rfl, congrArg ((b.patrolCount + 1) % ·) b.size_eq⟩

/-- The goals go round the list, one for each call that finds the executor not running. -/
theorem runs_eq (states : List BehaviorState) {b : PatrolBehavior} (h : b.patrolGoals ≠ []) :
    runs states b = laps (b.patrolGoals.rotate b.patrolCount)
      (states.countP fun state => state ≠ .RUNNING) := by
  induction states generalizing b with
  | nil => exact (laps_zero _).symm
  | cons state states ih =>
      rw [List.countP_cons]
      by_cases hstate : state = .RUNNING
      · have hrun : b.run state = (b, []) := by
          unfold run
          rw [if_neg (not_not.mpr hstate)]
        rw [runs, hrun, ih h, if_neg (by simpa using hstate)]
        rfl
      · obtain ⟨goal, hgoal, hcalls, hgoals, hcount⟩ := run_of_ne_nil h hstate
        have hlt := b.count_lt h
        rw [runs, hcalls, ih (hgoals.symm ▸ h), hgoals, hcount, if_pos (by simpa using hstate),
          laps_rotate hlt]
        rw [List.getElem?_eq_getElem hlt] at hgoal
        cases hgoal
        rfl

/-- A patrol from the start sends one goal for each call that finds the executor not running, and
the goals are the points of the configuration, one after the other and from the first one again. -/
theorem runs_create (tf : Tf2) {config : DecisionConfig} (h : config.point ≠ [])
    (states : List BehaviorState) :
    (runs states (create tf (some config))).length =
        states.countP (fun state => state ≠ .RUNNING) ∧
      ∀ k < states.countP (fun state => state ≠ .RUNNING),
        (runs states (create tf (some config)))[k]? =
          (config.point[k % config.point.length]?).map (Point.toPose tf) := by
  have hgoals : (create tf (some config)).patrolGoals ≠ [] := by
    intro hnone
    exact h (List.map_eq_nil_iff.mp hnone)
  have hstart : (create tf (some config)).patrolGoals.rotate
      (create tf (some config)).patrolCount = config.point.map (Point.toPose tf) :=
    List.rotate_zero _
  have hmap : config.point.map (Point.toPose tf) ≠ [] := hgoals
  rw [runs_eq states hgoals, hstart]
  refine ⟨length_laps hmap _, fun k hk => ?_⟩
  rw [getElem?_laps hmap hk, List.length_map, List.getElem?_map]

/-- Two points, of which the first one is sent again. -/
theorem runs_create_twoPoints :
    let tf : Tf2 :=
      { quaternionFromRollPitchYaw := fun _ _ _ => (0, 0, 0, 1), angleShortestPath := fun _ _ => 0 }
    let points : List Point := [⟨1, 1, 0, 0, 0, 0⟩, ⟨3, 1, 0, 0, 0, 0⟩]
    let config : DecisionConfig := ⟨points, ⟨0, 0, 0, 0, 0, 0, 0⟩, (0, 0, 0), ⟨0, 0, 0, 0, 0, 0⟩,
      [], [], [], []⟩
    (runs [.IDLE, .RUNNING, .SUCCESS, .FAILURE] (create tf (some config)))[2]? =
      some (Point.toPose tf ⟨1, 1, 0, 0, 0, 0⟩) := by
  intro tf points config
  have hpoints : config.point ≠ [] := List.cons_ne_nil _ _
  have hruns := (runs_create tf hpoints [.IDLE, .RUNNING, .SUCCESS, .FAILURE]).2 2 (by decide)
  have hfirst : 2 % config.point.length = 0 := by decide
  rw [hfirst] at hruns
  exact hruns

end PatrolBehavior

end RoboRTS.Decision
