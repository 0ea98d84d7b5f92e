import RoboRTS.Decision.ExampleBehavior.Defs
import RoboRTS.Lib.FirstLeast
import RoboRTS.Lib.Laps
import RoboRTS.Lib.StateMachine

/-!
# Searches

`SearchBehavior` looks for an enemy where it was last seen: `SetLastPosition` starts a search of
five goals, the position itself and four points of the region that it lies in. Each `Run` that finds
the executor not running sends the next goal. The counter and the index of the behaviour follow a
plan (`SearchPlan`), the goals that are still to be sent: every run of the behaviour is defined and
sends what the plan says (`run_follows_plan`), from the nearest point on round the region.
-/

namespace RoboRTS.Decision

open Laps FirstLeast

/-- The regions of the configuration. -/
structure SearchRegions where
  searchRegion1 : List PoseStamped
  searchRegion2 : List PoseStamped
  searchRegion3 : List PoseStamped
  searchRegion4 : List PoseStamped

/-- The members of `SearchBehavior`. -/
structure SearchBehavior extends SearchRegions where
  lastPosition : PoseStamped
  searchRegion : List PoseStamped
  searchCount : Nat
  searchIndex : Nat

/-- What a call of `Run` reads from the executor and the blackboard. -/
structure SearchInput where
  executorState : BehaviorState
  robotMapPose : PoseStamped
  now : Nat

inductive SearchEvent where
  | setLastPosition (lastPosition : PoseStamped)
  | run (input : SearchInput)

namespace SearchRegions

/-- The region that a position lies in. -/
def regionOf (r : SearchRegions) (last : PoseStamped) : List PoseStamped :=
  let lastX := last.position.1
  let lastY := last.position.2.1
  if lastX < 21 / 5 ∧ lastY < 11 / 4 then r.searchRegion1
  else if lastX > 21 / 5 ∧ lastY < 11 / 4 then r.searchRegion2
  else if lastX < 21 / 5 ∧ lastY > 11 / 4 then r.searchRegion3
  else r.searchRegion4

end SearchRegions

namespace SearchBehavior

/-- The constructor, given what `LoadParam` finds in the file. -/
def create (tf : Tf2) (config : Option DecisionConfig) : SearchBehavior :=
  let region (points : DecisionConfig → List Point) : List PoseStamped :=
    ((config.map points).getD []).map (Point.toPose tf)
  { lastPosition := originPose
    searchRegion1 := region DecisionConfig.searchRegion1
    searchRegion2 := region DecisionConfig.searchRegion2
    searchRegion3 := region DecisionConfig.searchRegion3
    searchRegion4 := region DecisionConfig.searchRegion4
    searchRegion := []
    searchCount := 0
    searchIndex := 0 }

/-- `SetLastPosition`. -/
def setLastPosition (lastPosition : PoseStamped) (b : SearchBehavior) : SearchBehavior :=
  { b with lastPosition := lastPosition, searchCount := 5 }

/-- The square of the distance of a point from the position. -/
def distSq (last point : PoseStamped) : Rat :=
  (point.position.1 - last.position.1) ^ 2 + (point.position.2.1 - last.position.2.1) ^ 2

/-- The points of a region with their distances. -/
def distances (region : List PoseStamped) (last : PoseStamped) : List (Rat × Nat) :=
  region.mapIdx fun i point => (distSq last point, i)

/-- The loop over a region: the index of the nearest point, or what it was before when none is near
enough. -/
def nearest (region : List PoseStamped) (last : PoseStamped) (searchIndex : Nat) : Nat :=
  ((distances region last).foldl keepFirst (99999, none)).2.getD searchIndex

/-- The goal at the position, in the direction from the robot. -/
def arrivalGoal (lib : Cmath) (tf : Tf2) (last : PoseStamped) (input : SearchInput) : PoseStamped :=
  let xDiff := last.position.1 - input.robotMapPose.position.1
  let yDiff := last.position.2.1 - input.robotMapPose.position.2.1
  { frameId := "map"
    stamp := input.now
    position := last.position
    orientation := tf.quaternionFromYaw (lib.atan2 yDiff xDiff) }

/-- `Run`, undefined where it reads behind the end of a region. -/
def run (lib : Cmath) (tf : Tf2) (input : SearchInput) (b : SearchBehavior) :
    Option (SearchBehavior × List ChassisCall) :=
  if input.executorState ≠ .RUNNING then
    if b.searchCount = 5 then
      let searchRegion := b.regionOf b.lastPosition
      some ({ b with
          searchRegion := searchRegion
          searchIndex := nearest searchRegion b.lastPosition b.searchIndex
          searchCount := b.searchCount - 1 },
        [.executeGoal (arrivalGoal lib tf b.lastPosition input)])
    else if b.searchCount > 0 then do
      let searchGoal ← b.searchRegion[b.searchIndex]?
      some ({ b with
          searchIndex := (b.searchIndex + 1) % b.searchRegion.length
          searchCount := b.searchCount - 1 },
        [.executeGoal searchGoal])
    else some (b, [])
  else some (b, [])

/-- The behaviour and the goals that it has sent. -/
structure Progress where
  behavior : SearchBehavior
  sent : List PoseStamped

/-- One call. -/
def step (lib : Cmath) (tf : Tf2) (s : Progress) : SearchEvent → Option Progress
  | .setLastPosition lastPosition =>
      some { s with behavior := s.behavior.setLastPosition lastPosition }
  | .run input => do
      let (behavior, calls) ← run lib tf input s.behavior
      some { behavior := behavior, sent := s.sent ++ goalsOf calls }

end SearchBehavior

/-! ## Plans -/

/-- The goals that are still to be sent. A goal may depend on when it is sent. -/
abbrev SearchPlan := List (SearchInput → PoseStamped)

namespace SearchPlan

open SearchBehavior

variable (lib : Cmath) (tf : Tf2) (r : SearchRegions)

/-- The index of the first point of the region such that no other point is nearer. -/
def nearestPoint (region : List PoseStamped) (last : PoseStamped) : Nat :=
  region.findIdx fun point => region.all fun other => distSq last point ≤ distSq last other

/-- The plan for a position: the position, and four points of its region, from the nearest one on
round the region. -/
def forPosition (last : PoseStamped) : SearchPlan :=
  let region := r.regionOf last
  arrivalGoal lib tf last ::
    (laps (region.rotate (nearestPoint region last)) 4).map fun goal _ => goal

/-- The goals that a sequence of calls sends. -/
def follow : SearchPlan → List SearchEvent → List PoseStamped
  | _, [] => []
  | _, .setLastPosition last :: events => follow (forPosition lib tf r last) events
  | [], .run _ :: events => follow [] events
  | goal :: plan, .run input :: events =>
      if input.executorState ≠ .RUNNING then goal input :: follow plan events
      else follow (goal :: plan) events

end SearchPlan

namespace SearchBehavior

open SearchPlan

variable {lib : Cmath} {tf : Tf2} {r : SearchRegions} {region : List PoseStamped}
  {last : PoseStamped} {b : SearchBehavior} {plan : SearchPlan}

/-- Some point of the region of the position is nearer than the bound that the loop starts with. -/
def Searchable (r : SearchRegions) (last : PoseStamped) : Prop :=
  ∃ point ∈ r.regionOf last, distSq last point < 99999

/-! ## The nearest point -/

theorem sorted_distances (region : List PoseStamped) (last : PoseStamped) :
    (distances region last).Pairwise fun x y => x.2 < y.2 := by
  unfold distances
  rw [List.pairwise_iff_getElem]
  intro i j hi hj hij
  rw [List.getElem_mapIdx, List.getElem_mapIdx]
  exact hij

theorem mem_below_distances {bound k : Rat} {i : Nat} :
    toLex (k, i) ∈ below bound (distances region last) ↔
      ∃ h : i < region.length, distSq last region[i] = k ∧ k < bound := by
  show (k, i) ∈ distances region last ∧ k < bound ↔ _
  unfold distances
  rw [List.mem_mapIdx]
  constructor
  · rintro ⟨⟨j, hj, hjk⟩, hlt⟩
    cases hjk
    exact ⟨hj, rfl, hlt⟩
  · rintro ⟨hi, hk, hlt⟩
    exact ⟨⟨i, hi, by rw [hk]⟩, hlt⟩

/-- The loop finds the first of the nearest points. -/
theorem nearest_eq (h : ∃ point ∈ region, distSq last point < 99999) (searchIndex : Nat) :
    nearest region last searchIndex = nearestPoint region last ∧
      nearestPoint region last < region.length := by
  obtain ⟨point, hpoint, hnear⟩ := h
  obtain ⟨j, hj, rfl⟩ := List.mem_iff_getElem.mp hpoint
  rcases foldl_keepFirst 99999 (sorted_distances region last) with
    ⟨-, hempty⟩ | ⟨k, i, hfold, hmem, hleast⟩
  · have hj : toLex (distSq last region[j], j) ∈ below 99999 (distances region last) :=
      mem_below_distances.mpr ⟨hj, rfl, hnear⟩
    exact absurd (hempty ▸ hj) (Set.notMem_empty _)
  · obtain ⟨hi, rfl, hlt⟩ := mem_below_distances.mp hmem
    have hle : ∀ m (hm : m < region.length),
        toLex (distSq last region[i], i) ≤ toLex (distSq last region[m], m) := by
      intro m hm
      by_cases hbound : distSq last region[m] < 99999
      · exact hleast (mem_below_distances.mpr ⟨hm, rfl, hbound⟩)
      · exact (Prod.Lex.toLex_lt_toLex.mpr (Or.inl (hlt.trans_le (not_lt.mp hbound)))).le
    have hfirst : nearestPoint region last = i := by
      refine (List.findIdx_eq hi).mpr ⟨?_, fun m hm => ?_⟩
      · rw [List.all_eq_true]
        intro other hother
        obtain ⟨m, hm, rfl⟩ := List.mem_iff_getElem.mp hother
        rw [decide_eq_true_eq]
        rcases Prod.Lex.toLex_le_toLex.mp (hle m hm) with hcloser | ⟨hequal, -⟩
        · exact hcloser.le
        · exact hequal.le
      · -- an earlier point is farther away
        rw [List.all_eq_false]
        refine ⟨region[i], List.getElem_mem hi, ?_⟩
        rw [decide_eq_true_eq, not_le]
        rcases Prod.Lex.toLex_le_toLex.mp (hle m (hm.trans hi)) with hcloser | ⟨-, hlater⟩
        · exact hcloser
        · exact absurd hm hlater.not_gt
    refine ⟨?_, hfirst.symm ▸ hi⟩
    unfold nearest
    rw [hfold, hfirst]
    rfl

/-! ## Runs -/

/-- The members of the behaviour stand for the plan. -/
inductive Follows (lib : Cmath) (tf : Tf2) (r : SearchRegions) :
    SearchBehavior → SearchPlan → Prop where
  | arriving {b : SearchBehavior} (hregions : b.toSearchRegions = r) (hcount : b.searchCount = 5)
      (hlast : Searchable r b.lastPosition) :
      Follows lib tf r b (forPosition lib tf r b.lastPosition)
  | searching {b : SearchBehavior} (hregions : b.toSearchRegions = r) (hcount : b.searchCount ≤ 4)
      (hindex : 0 < b.searchCount → b.searchIndex < b.searchRegion.length) :
      Follows lib tf r b
        ((laps (b.searchRegion.rotate b.searchIndex) b.searchCount).map fun goal _ => goal)

theorem create_follows (lib : Cmath) (tf : Tf2) (config : Option DecisionConfig) :
    Follows lib tf (create tf config).toSearchRegions (create tf config) [] :=
  .searching rfl (Nat.zero_le 4) fun h => absurd h (Nat.lt_irrefl 0)

theorem Follows.regions (h : Follows lib tf r b plan) : b.toSearchRegions = r := by
  cases h with
  | arriving hregions => exact hregions
  | searching hregions => exact hregions

theorem Follows.setLastPosition (h : Follows lib tf r b plan) (hlast : Searchable r last) :
    Follows lib tf r (b.setLastPosition last) (forPosition lib tf r last) :=
  .arriving (b := b.setLastPosition last) h.regions rfl hlast

/-- A call that the executor does not let through changes nothing. -/
theorem run_of_running {input : SearchInput} (h : input.executorState = .RUNNING) :
    run lib tf input b = some (b, []) := by
  unfold run
  rw [if_neg (not_not.mpr h)]

/-- A call that the executor lets through sends the first goal of the plan. -/
theorem Follows.run_cons {goal : SearchInput → PoseStamped} {input : SearchInput}
    (h : Follows lib tf r b (goal :: plan)) (hstate : input.executorState ≠ .RUNNING) :
    ∃ b', run lib tf input b = some (b', [.executeGoal (goal input)]) ∧
      Follows lib tf r b' plan := by
  generalize hplan : goal :: plan = current at h
  unfold run
  rw [if_pos hstate]
  cases h with
  | arriving hregions hcount hlast =>
      obtain ⟨rfl, rfl⟩ := List.cons.inj hplan
      rw [if_pos hcount]
      refine ⟨_, rfl, ?_⟩
      obtain ⟨hnearest, hlt⟩ := nearest_eq hlast b.searchIndex
      have hregion : b.regionOf b.lastPosition = r.regionOf b.lastPosition := by
        rw [hregions]
      rw [← hnearest] at hlt ⊢
      rw [← hregion] at hlt ⊢
      have hnext : Follows lib tf r _ _ := .searching (b := { b with
        searchRegion := b.regionOf b.lastPosition
        searchIndex := nearest (b.regionOf b.lastPosition) b.lastPosition b.searchIndex
        searchCount := b.searchCount - 1 }) hregions (by simp [hcount]) fun _ => hlt
      rwa [hcount] at hnext ⊢
  | searching hregions hcount hindex =>
      have hpos : b.searchCount ≠ 0 := by
        intro hzero
        rw [hzero, laps_zero] at hplan
        cases hplan
      have hlt := hindex (Nat.pos_of_ne_zero hpos)
      obtain ⟨n, hn⟩ := Nat.exists_eq_succ_of_ne_zero hpos
      rw [hn, laps_rotate hlt, List.map_cons] at hplan
      obtain ⟨rfl, rfl⟩ := List.cons.inj hplan
      rw [if_neg (by omega), if_pos (Nat.pos_of_ne_zero hpos), List.getElem?_eq_getElem hlt]
      refine ⟨_, rfl, ?_⟩
      have hnext : Follows lib tf r _ _ := .searching (b := { b with
        searchIndex := (b.searchIndex + 1) % b.searchRegion.length
        searchCount := b.searchCount - 1 }) hregions (Nat.le_trans (Nat.sub_le _ 1) hcount)
        fun _ => Nat.mod_lt _ (Nat.zero_lt_of_lt hlt)
      rwa [hn] at hnext ⊢

/-- Without a plan nothing is sent. -/
theorem Follows.run_nil {input : SearchInput} (h : Follows lib tf r b []) :
    run lib tf input b = some (b, []) := by
  generalize hplan : [] = current at h
  cases h with
  | arriving => cases hplan
  | searching hregions hcount hindex =>
      have hzero : b.searchCount = 0 := by
        by_contra hpos
        have hlt := hindex (Nat.pos_of_ne_zero hpos)
        obtain ⟨n, hn⟩ := Nat.exists_eq_succ_of_ne_zero hpos
        rw [hn, laps_rotate hlt, List.map_cons] at hplan
        cases hplan
      unfold run
      rw [hzero]
      split <;> rfl

theorem step_run {s : Progress} {input : SearchInput} {calls : List ChassisCall}
    (h : run lib tf input s.behavior = some (b, calls)) :
    step lib tf s (.run input) = some ⟨b, s.sent ++ goalsOf calls⟩ := by
  simp only [step, h, Option.bind_eq_bind, Option.bind_some]

/-- A call that changes and sends nothing. -/
theorem step_of_nothing {s : Progress} {input : SearchInput}
    (h : run lib tf input s.behavior = some (s.behavior, [])) :
    step lib tf s (.run input) = some s := by
  rw [step_run h]
  show some (Progress.mk s.behavior (s.sent ++ [])) = _
  rw [List.append_nil]

theorem follow_of_running {input : SearchInput} (h : input.executorState = .RUNNING)
    (events : List SearchEvent) :
    follow lib tf r plan (.run input :: events) = follow lib tf r plan events := by
  cases plan with
  | nil => rfl
  | cons goal plan => exact if_neg (not_not.mpr h)

/-- A run that starts with a plan. -/
theorem Follows.run {events : List SearchEvent} {s : Progress}
    (hs : Follows lib tf r s.behavior plan)
    (h : ∀ last, .setLastPosition last ∈ events → Searchable r last) :
    ∃ b, StateMachine.run (step lib tf) s events =
      some ⟨b, s.sent ++ follow lib tf r plan events⟩ := by
  induction events generalizing s plan with
  | nil => exact ⟨s.behavior, by rw [follow, List.append_nil, StateMachine.run_nil]⟩
  | cons event events ih =>
      have hrest := fun last hlast => h last (List.mem_cons_of_mem event hlast)
      rw [StateMachine.run_cons]
      cases event with
      | setLastPosition last =>
          rw [follow]
          exact ih (hs.setLastPosition (h last List.mem_cons_self)) hrest
      | run input =>
          by_cases hstate : input.executorState = .RUNNING
          · rw [step_of_nothing (run_of_running hstate), Option.bind_some, follow_of_running hstate]
            exact ih hs hrest
          · cases plan with
            | nil =>
                rw [step_of_nothing hs.run_nil, Option.bind_some, follow]
                exact ih hs hrest
            | cons goal plan =>
                obtain ⟨b, hrun, hb⟩ := hs.run_cons hstate
                rw [step_run hrun, Option.bind_some, follow, if_pos hstate]
                obtain ⟨b', hnext⟩ := ih (s := ⟨b, s.sent ++ [goal input]⟩) hb hrest
                rw [List.append_assoc, List.singleton_append] at hnext
                exact ⟨b', hnext⟩

/-- Every run of the behaviour is defined, and sends the goals of the plans for the positions that
it is told. -/
theorem run_follows_plan (lib : Cmath) (tf : Tf2) (config : Option DecisionConfig)
    (events : List SearchEvent)
    (h : ∀ last, .setLastPosition last ∈ events →
      Searchable (create tf config).toSearchRegions last) :
    ∃ b, StateMachine.run (step lib tf) ⟨create tf config, []⟩ events =
      some ⟨b, follow lib tf (create tf config).toSearchRegions [] events⟩ :=
  (create_follows lib tf config).run (s := ⟨create tf config, []⟩) h

/-- A configuration with two points in the first region. -/
def twoPoints : DecisionConfig where
  point := []
  escape := ⟨0, 0, 0, 0, 0, 0, 0⟩
  whirlVel := (0, 0, 0)
  masterBotStartPosition := ⟨0, 0, 0, 0, 0, 0⟩
  searchRegion1 := [⟨1, 1, 0, 0, 0, 0⟩, ⟨3, 1, 0, 0, 0, 0⟩]
  searchRegion2 := []
  searchRegion3 := []
  searchRegion4 := []

/-- The robot goes to the position straight ahead, then to the nearer point, then to the other one;
one call comes while it is on its way. -/
theorem run_follows_plan_twoPoints :
    let lib : Cmath :=
      { sqrt := fun q => q, cos := fun _ => 1, sin := fun _ => 0, atan2 := fun _ _ => 0 }
    let tf : Tf2 :=
      { quaternionFromRollPitchYaw := fun _ _ _ => (0, 0, 0, 1), angleShortestPath := fun _ _ => 0 }
    let pose (x : Rat) : PoseStamped := { originPose with position := (x, 1, 0) }
    let call (state : BehaviorState) : SearchEvent := .run ⟨state, pose 0, 0⟩
    ∃ b, StateMachine.run (step lib tf) ⟨create tf (some twoPoints), []⟩
      [.setLastPosition (pose (5 / 2)), call .IDLE, call .RUNNING, call .SUCCESS, call .FAILURE] =
        some ⟨b, [pose (5 / 2), pose 3, pose 1]⟩ := by
  intro lib tf pose call
  obtain ⟨b, hb⟩ := run_follows_plan lib tf (some twoPoints)
    [.setLastPosition (pose (5 / 2)), call .IDLE, call .RUNNING, call .SUCCESS, call .FAILURE]
    (by
      intro last hlast
      rcases List.mem_cons.mp hlast with hlast | hlast
      · cases hlast
        exact ⟨pose 1, by decide +kernel, by decide +kernel⟩
      · simp [call] at hlast)
  have hsent : follow lib tf (create tf (some twoPoints)).toSearchRegions []
      [.setLastPosition (pose (5 / 2)), call .IDLE, call .RUNNING, call .SUCCESS, call .FAILURE] =
        [pose (5 / 2), pose 3, pose 1] := by
    decide +kernel
  exact ⟨b, hsent ▸ hb⟩

end SearchBehavior

end RoboRTS.Decision
