import RoboRTS.Lib.StateMachine
import RoboRTS.Planning.LocalPlanner.TebLocalPlanner.Segment
import RoboRTS.Planning.LocalPlanner.TimedElasticBand.OptimizedBand
import Mathlib.Tactic.Linarith

/-!
# The commands of the planner

What `ComputeVelocityCommands` returns in every run of a planner. A solver that moves free vertices
only is enough for every index of the plan, the graph, the band and the costmap to be in range
(`run_commands`), and a command that is returned without an error comes from a band that starts at
the robot, ends at a pose of the plan and has passed the check against the costmap: it is the
velocity on the first piece of that band, brought within the limits.
-/

namespace RoboRTS.Planning

open Costmap (Geometry LETHAL_OBSTACLE)

/-- The parameters leave the solver enough samples and at least one round, and the limits are not
negative. -/
structure TebConfig.Sane (config : TebConfig) : Prop where
  minSamples : 3 ≤ config.minSamples
  noOuterIterations : 0 < config.noOuterIterations
  maxVelX : 0 ≤ config.maxVelX
  maxVelY : 0 ≤ config.maxVelY
  maxVelTheta : 0 ≤ config.maxVelTheta

/-- The velocity keeps the limits. The limit backwards is only one when it is positive. -/
structure TebConfig.Allows (config : TebConfig) (v : Velocity) : Prop where
  forwards : v.x ≤ config.maxVelX
  backwards : 0 < config.maxVelXBackwards → -config.maxVelXBackwards ≤ v.x
  sideways : |v.y| ≤ config.maxVelY
  turning : |v.theta| ≤ config.maxVelTheta

/-- The velocity within the limits that is nearest to a velocity. -/
def TebConfig.nearest (config : TebConfig) (v : Velocity) : Velocity where
  x :=
    if 0 < config.maxVelXBackwards then max (-config.maxVelXBackwards) (min v.x config.maxVelX)
    else min v.x config.maxVelX
  y := max (-config.maxVelY) (min v.y config.maxVelY)
  theta := max (-config.maxVelTheta) (min v.theta config.maxVelTheta)

namespace TebLocalPlanner

open TebVertexConsole

variable {m : TebLibrary} {config : TebConfig} {p p' : TebLocalPlanner} {c : Cycle}

/-! ## The plan -/

theorem pruneFrom_suffix {ox oy : Rat} {plan rest : List PlanPose}
    (h : pruneFrom m ox oy plan = some rest) : rest <:+ plan ∧ rest ≠ [] := by
  induction plan with
  | nil => cases h
  | cons pose poses ih =>
      rw [pruneFrom] at h
      split at h
      · obtain rfl := Option.some.inj h
        exact ⟨List.suffix_refl _, List.cons_ne_nil _ _⟩
      · exact ⟨(ih h).1.trans (List.suffix_cons _ _), (ih h).2⟩

/-- Pruning leaves the end of the plan. -/
theorem pruneGlobalPlan_suffix (m : TebLibrary) (p : TebLocalPlanner)
    (robotPlan : Option (Rat × Rat)) (hplan : p.globalPlan ≠ []) :
    (p.pruneGlobalPlan m robotPlan).globalPlan <:+ p.globalPlan ∧
      (p.pruneGlobalPlan m robotPlan).globalPlan ≠ [] := by
  cases robotPlan with
  | none => exact ⟨List.suffix_refl _, hplan⟩
  | some o =>
      show (pruneFrom m o.1 o.2 p.globalPlan).getD p.globalPlan <:+ p.globalPlan ∧
        (pruneFrom m o.1 o.2 p.globalPlan).getD p.globalPlan ≠ []
      cases hprune : pruneFrom m o.1 o.2 p.globalPlan with
      | none => exact ⟨List.suffix_refl _, hplan⟩
      | some rest => exact pruneFrom_suffix hprune

theorem pruneGlobalPlan_band (robotPlan : Option (Rat × Rat)) :
    (p.pruneGlobalPlan m robotPlan).band = p.band := by
  cases robotPlan <;> rfl

theorem updateGlobalToPlanTranform_globalPlan (lookup : Option (PlanPose → DataBase)) :
    (p.updateGlobalToPlanTranform lookup).globalPlan = p.globalPlan := by
  unfold updateGlobalToPlanTranform
  split <;> rfl

theorem updateGlobalToPlanTranform_band (lookup : Option (PlanPose → DataBase)) :
    (p.updateGlobalToPlanTranform lookup).band = p.band := by
  unfold updateGlobalToPlanTranform
  split <;> rfl

theorem getPlan_band (locked : Bool) : (p.getPlan locked).band = p.band := by
  cases locked <;> rfl

/-- The last element of a part of a list. -/
theorem getLast?_take_drop {α : Type*} {l : List α} {a b : Nat} (hab : a < b) (hb : b ≤ l.length) :
    ((l.drop a).take (b - a)).getLast? = l[b - 1]? := by
  have hlength : ((l.drop a).take (b - a)).length = b - a := by
    rw [List.length_take, List.length_drop]
    omega
  rw [List.getLast?_eq_getElem?, hlength, List.getElem?_take_of_lt (by omega), List.getElem?_drop,
    show a + (b - a - 1) = b - 1 by omega]

/-- What `TransformGlobalPlan` leaves: nothing, or a part of the plan that is not empty. -/
theorem transformGlobalPlan_cases (m : TebLibrary) (config : TebConfig) (p : TebLocalPlanner)
    (c : Cycle) (hplan : p.globalPlan ≠ []) :
    ∃ p', p'.globalPlan = p.globalPlan ∧ p'.band = p.band ∧
      (p.transformGlobalPlan m config c = (p', none) ∨
        ∃ a b pose, p.transformGlobalPlan m config c = (p', some (b - 1)) ∧ a < b ∧
          p'.globalPlan[b - 1]? = some pose ∧
          p'.transformedPlan.getLast? = some (p'.planToGlobal pose)) := by
  unfold transformGlobalPlan updateGlobalToPlanTranform
  dsimp only
  rw [if_neg hplan, if_neg hplan]
  cases c.robotPlanAgain with
  | none => exact ⟨_, by rfl, by rfl, Or.inl rfl⟩
  | some robot =>
      obtain ⟨a, b, hab, hb, hselect, -⟩ :=
        selectSegment_cases m config robot (distThreshold c.geometry) hplan
      dsimp only
      rw [hselect]
      have hlast : b - 1 < p.globalPlan.length := by omega
      have hget : p.globalPlan[b - 1]? = some p.globalPlan[b - 1] := List.getElem?_eq_getElem hlast
      refine ⟨_, by rfl, by rfl, Or.inr ⟨a, b, _, rfl, hab, hget, ?_⟩⟩
      dsimp only
      rw [List.getLast?_map, getLast?_take_drop hab hb, hget]
      rfl

/-! ## The local goal -/

theorem stepAngles_isSome (m : TebLibrary) (p : TebLocalPlanner) (count : Nat) :
    ∀ (current : DataBase) (i : Nat), i + count < p.globalPlan.length →
      ∃ angles, p.stepAngles m current count i = some angles := by
  induction count with
  | zero => exact fun _ _ _ => ⟨[], rfl⟩
  | succ count ih =>
      intro current i hi
      have hnext : i + 1 < p.globalPlan.length := by omega
      have hget : p.globalPlan[i + 1]? = some p.globalPlan[i + 1] := List.getElem?_eq_getElem hnext
      obtain ⟨angles, hangles⟩ := ih (p.planToGlobal p.globalPlan[i + 1]) (i + 1) (by omega)
      rw [stepAngles, hget, Option.map_some, Option.bind_eq_bind, Option.bind_some, hangles]
      exact ⟨_, rfl⟩

/-- The orientation of a local goal on the plan is estimated from poses of the plan. -/
theorem localGoalTheta_isSome (m : TebLibrary) (config : TebConfig) (p : TebLocalPlanner)
    (back : DataBase) {goalIdx : Nat} (hgoal : goalIdx < p.globalPlan.length) :
    ∃ theta, p.localGoalTheta m config back goalIdx = some theta := by
  unfold localGoalTheta
  split
  · unfold estimateLocalGoalOrientation
    dsimp only
    split
    · split
      · exact ⟨_, rfl⟩
      · have hne : p.globalPlan ≠ [] := List.ne_nil_of_length_pos (by omega)
        rw [List.getLast?_eq_some_getLast hne]
        exact ⟨_, rfl⟩
    · next hfar =>
        obtain ⟨angles, hangles⟩ := stepAngles_isSome m p
          (min 3 ((p.globalPlan.length : Int) - goalIdx - 1)).toNat
          (p.planToGlobal p.globalPlan[goalIdx]) goalIdx (by omega)
        rw [List.getElem?_eq_getElem hgoal, Option.map_some, Option.bind_eq_bind, Option.bind_some,
          hangles]
        exact ⟨_, rfl⟩
  · exact ⟨_, rfl⟩

/-- The plan of the band starts at the robot and ends at the local goal. -/
theorem withRobotPose_ends (robotPose goal : DataBase) (poses : List DataBase) :
    ∃ inner, withRobotPose robotPose (poses ++ [goal]) = robotPose :: (inner ++ [goal]) := by
  cases poses with
  | nil => exact ⟨[], rfl⟩
  | cons pose poses =>
      cases poses with
      | nil => exact ⟨[], rfl⟩
      | cons next poses => exact ⟨next :: poses, rfl⟩

/-! ## Obstacles -/

/-- The centre of a lethal cell of the costmap. -/
def IsObstacle (c : Cycle) (obs : Rat × Rat) : Prop :=
  ∃ i < c.geometry.sizeX, ∃ j < c.geometry.sizeY,
    getCost c i j = some LETHAL_OBSTACLE ∧ obs = c.geometry.map2World i j

/-- The cells of the costmap can be read. -/
theorem getCost_isSome (c : Cycle) {i j : Nat} (hi : i < c.geometry.sizeX)
    (hj : j < c.geometry.sizeY) : ∃ cost, getCost c i j = some cost := by
  have hrow := Buffer.row_le c.geometry.sizeX hj
  have hindex : c.geometry.getIndex i j < c.geometry.sizeX * c.geometry.sizeY := by
    rw [Geometry.getIndex, Nat.mul_comm c.geometry.sizeX]
    omega
  have hlt := c.size_lt
  have hsize := c.allocated
  rw [getCost, Nat.mod_eq_of_lt (by omega)]
  exact ⟨_, Buffer.get?_of_lt (by omega)⟩

theorem obstaclesAt_spec (m : TebLibrary) (config : TebConfig) (c : Cycle) (localGoal : DataBase)
    {i j : Nat} (hi : i < c.geometry.sizeX) (hj : j < c.geometry.sizeY) :
    ∃ found, obstaclesAt m config c localGoal i j = some found ∧ ∀ obs ∈ found, IsObstacle c obs := by
  obtain ⟨cost, hcost⟩ := getCost_isSome c hi hj
  unfold obstaclesAt
  rw [hcost, Option.bind_eq_bind, Option.bind_some]
  split
  · next hlethal =>
      dsimp only
      split
      · exact ⟨[], rfl, by simp⟩
      · refine ⟨_, rfl, fun obs hobs => ⟨i, hi, j, hj, ?_, List.mem_singleton.mp hobs⟩⟩
        rw [hcost, hlethal]
  · exact ⟨[], rfl, by simp⟩

/-- `UpdateObstacleWithCostmap` reads cells of the costmap only, and finds centres of lethal ones. -/
theorem updateObstacleWithCostmap_spec (m : TebLibrary) (config : TebConfig) (c : Cycle)
    (localGoal : DataBase) : ∃ found, updateObstacleWithCostmap m config c localGoal = some found ∧
      ∀ obs ∈ found, IsObstacle c obs := by
  have hX := c.sizeX_pos
  have hY := c.sizeY_pos
  have hlt := c.size_lt
  have hXlt : c.geometry.sizeX < 2 ^ 32 := (Nat.le_mul_of_pos_right _ hY).trans_lt hlt
  have hYlt : c.geometry.sizeY < 2 ^ 32 := (Nat.le_mul_of_pos_left _ hX).trans_lt hlt
  -- with cells in the costmap the `unsigned int`s do not wrap
  have hlast : ∀ n : Nat, 0 < n → n < 2 ^ 32 → (n + 2 ^ 32 - 1) % 2 ^ 32 < n := by omega
  obtain ⟨columns, hcolumns, hspec⟩ := mapM_collects (P := IsObstacle c)
    (f := fun i => ((List.range ((c.geometry.sizeY + 2 ^ 32 - 1) % 2 ^ 32)).mapM
      (obstaclesAt m config c localGoal i)).map List.flatten)
    (List.range ((c.geometry.sizeX + 2 ^ 32 - 1) % 2 ^ 32)) (by
      intro i hi
      have hi : i < c.geometry.sizeX := (List.mem_range.mp hi).trans (hlast _ hX hXlt)
      obtain ⟨column, hcolumn, hspec⟩ := mapM_collects (P := IsObstacle c)
        (List.range ((c.geometry.sizeY + 2 ^ 32 - 1) % 2 ^ 32)) fun j hj =>
          obstaclesAt_spec m config c localGoal hi
            ((List.mem_range.mp hj).trans (hlast _ hY hYlt))
      exact ⟨column.flatten, by rw [hcolumn]; rfl, hspec⟩)
  unfold updateObstacleWithCostmap
  dsimp only
  rw [hcolumns]
  exact ⟨_, rfl, hspec⟩

/-! ## Via points -/

/-- Two positions are at least as far apart as via points are to be. -/
def Separate (m : TebLibrary) (config : TebConfig) (v w : Rat × Rat) : Prop :=
  ¬ m.norm (w.1 - v.1) (w.2 - v.2) < config.globalPlanViapointSep

theorem viaPointsFrom_separate (m : TebLibrary) (config : TebConfig) (poses : List DataBase) :
    ∀ before : DataBase, List.IsChain (Separate m config)
      ((before.x, before.y) :: viaPointsFrom m config.globalPlanViapointSep before poses) := by
  induction poses with
  | nil => exact fun before => .singleton _
  | cons pose poses ih =>
      intro before
      rw [viaPointsFrom]
      split
      · exact ih before
      · next hfar => exact .cons_cons hfar (ih pose)

/-- Via points are apart from the robot and from each other. -/
theorem updateViaPointsContainer_separate (m : TebLibrary) (config : TebConfig)
    (robotPose : DataBase) (poses : List DataBase) :
    List.IsChain (Separate m config)
      ((robotPose.x, robotPose.y) :: updateViaPointsContainer m config (robotPose :: poses)) := by
  unfold updateViaPointsContainer
  dsimp only
  split
  · exact .singleton _
  · exact viaPointsFrom_separate m config poses robotPose

/-! ## The limits -/

theorem saturateVelocity_allows (hconfig : config.Sane) (v : Velocity) :
    config.Allows (saturateVelocity config v) := by
  have hx := hconfig.maxVelX
  have hy := hconfig.maxVelY
  have htheta := hconfig.maxVelTheta
  constructor
  · unfold saturateVelocity
    dsimp only
    split_ifs <;> linarith
  · intro hback
    unfold saturateVelocity
    dsimp only
    split_ifs <;> linarith
  · unfold saturateVelocity
    dsimp only
    rw [abs_le]
    split_ifs <;> constructor <;> linarith
  · unfold saturateVelocity
    dsimp only
    rw [abs_le]
    split_ifs <;> constructor <;> linarith

theorem saturateVelocity_eq (hconfig : config.Sane) (v : Velocity) :
    saturateVelocity config v = config.nearest v := by
  have hclamp : ∀ limit w : Rat, 0 ≤ limit →
      (if w > limit then limit else if w < -limit then -limit else w) =
        max (-limit) (min w limit) := by
    intro limit w hlimit
    rcases lt_or_ge limit w with hhigh | hhigh
    · rw [if_pos hhigh, min_eq_right hhigh.le, max_eq_right (by linarith)]
    · rw [if_neg (not_lt.mpr hhigh), min_eq_left hhigh]
      split_ifs with hlow
      · rw [max_eq_left hlow.le]
      · rw [max_eq_right (not_lt.mp hlow)]
  have hfront : (if v.x > config.maxVelX then config.maxVelX else v.x) = min v.x config.maxVelX := by
    split_ifs with hhigh
    · rw [min_eq_right hhigh.le]
    · rw [min_eq_left (not_lt.mp hhigh)]
  unfold saturateVelocity TebConfig.nearest
  rw [hclamp _ _ hconfig.maxVelY, hclamp _ _ hconfig.maxVelTheta]
  dsimp only
  rw [hfront]
  congr 1
  rcases lt_or_ge 0 config.maxVelXBackwards with hback | hback
  · rw [if_neg (not_le.mpr hback), if_pos hback]
    split_ifs with hlow
    · rw [max_eq_left hlow.le]
    · rw [max_eq_right (not_lt.mp hlow)]
  · rw [if_pos hback, if_neg (not_lt.mpr hback)]

/-! ## One call -/

/-- A call that finds the robot at the goal of the plan and commands it to stop. -/
structure Reached (m : TebLibrary) (config : TebConfig) (c : Cycle) (out : Computed) : Prop where
  stops : out.cmdVel = .zero
  near : ∃ goal, out.planner.globalPlan.getLast?.map out.planner.planToGlobal = some goal ∧
    m.norm (goal.x - c.robotPose.x) (goal.y - c.robotPose.y) < config.xyGoalTolerance ∧
    |m.normalizeTheta (goal.theta - c.robotPose.theta)| < config.yawGoalTolerance

/-- A call that commands the robot along a band: the band leads from the robot to a pose of the
plan, with enough samples and free of obstacles as far as it is checked, the obstacles are cells of
the costmap, the via points are apart, and the command is the velocity of the band, brought within
the limits. -/
structure Followed (m : TebLibrary) (config : TebConfig) (c : Cycle) (out : Computed) : Prop where
  band : ∃ e : ElasticBand, out.planner.band = e.toConsole ∧ e.first = c.robotPose ∧
    ∃ (i : Nat) (pose : PlanPose), out.planner.globalPlan[i]? = some pose ∧
      e.last.x = (out.planner.planToGlobal pose).x ∧ e.last.y = (out.planner.planToGlobal pose).y
  samples : config.minSamples ≤ out.planner.band.sizePoses
  free : ∀ i : Nat, (i : Int) ≤ out.planner.band.lookAheadIdx config.feasibilityCheckNoPoses →
    out.planner.band.FreeAt m c.footprintCost c.inscribedRadius
      (out.planner.band.lookAheadIdx config.feasibilityCheckNoPoses).toNat i
  obstacles : ∀ obs ∈ out.planner.obstVector, IsObstacle c obs
  viaPoints : List.IsChain (Separate m config)
    ((c.robotPose.x, c.robotPose.y) :: out.planner.viaPoints)
  velocity : ∃ v, out.planner.band.getVelocity m config .zero = some (v, true) ∧
    out.cmdVel = { v with twist := config.nearest v.twist }
  limits : config.Allows out.cmdVel.twist

/-- What a call leaves: the end of the plan that it read, a band, and with a result that is no error
a command to stop at the goal or to follow the band. -/
structure Sound (m : TebLibrary) (config : TebConfig) (p : TebLocalPlanner) (c : Cycle)
    (out : Computed) : Prop where
  plan : out.planner.globalPlan <:+ (p.getPlan c.locked).globalPlan
  plan_ne : out.planner.globalPlan ≠ []
  band : out.planner.band.Banded
  command : out.result.IsOK = true → Reached m config c out ∨ Followed m config c out

/-- The part of a call behind the choice of the local goal. -/
theorem followPlan_sound (hconfig : config.Sane) (hfree : MovesFree c.solver)
    (hband : p.band.Banded) {goal : DataBase} {inner : List DataBase} {i : Nat} {pose : PlanPose}
    (htransformed : p.transformedPlan = c.robotPose :: (inner ++ [goal]))
    (hpose : p.globalPlan[i]? = some pose) (hx : goal.x = (p.planToGlobal pose).x)
    (hy : goal.y = (p.planToGlobal pose).y) (hobstacles : ∀ obs ∈ p.obstVector, IsObstacle c obs)
    (hvia : List.IsChain (Separate m config) ((c.robotPose.x, c.robotPose.y) :: p.viaPoints))
    (microControl : Bool) :
    ∃ out, p.followPlan m config c microControl = some out ∧
      out.planner.globalPlan = p.globalPlan ∧ out.planner.band.Banded ∧
      (out.result.IsOK = true → Followed m config c out) := by
  have hne : p.transformedPlan ≠ [] := by
    rw [htransformed]
    exact List.cons_ne_nil _ _
  obtain ⟨e, success, hoptimal, hfirst, hlast, hsamples⟩ :=
    hband.optimal m ⟨p.obstVector, c.near p.obstVector, p.preferRotdir⟩ hfree
      (by have := hconfig.minSamples; omega) hconfig.noOuterIterations hne microControl
  rw [htransformed] at hfirst hlast
  have hrobot : e.first = c.robotPose := (Option.some.inj hfirst).symm
  have hgoal : goal = e.last := by
    rw [← List.cons_append, List.getLast?_concat] at hlast
    exact Option.some.inj hlast
  subst hgoal
  unfold followPlan
  dsimp only
  rw [hoptimal, Option.bind_eq_bind, Option.bind_some]
  dsimp only
  cases success with
  | false => exact ⟨_, rfl, rfl, Or.inr ⟨e, rfl⟩, fun h => absurd h Bool.false_ne_true⟩
  | true =>
      obtain ⟨feasible, hfeasible, hiff⟩ := isTrajectoryFeasible_toConsole m c.footprintCost
        c.inscribedRadius config.feasibilityCheckNoPoses e
      rw [if_neg (by decide), hfeasible, Option.bind_eq_bind, Option.bind_some]
      cases feasible with
      | false => exact ⟨_, rfl, rfl, Or.inr ⟨e, rfl⟩, fun h => absurd h Bool.false_ne_true⟩
      | true =>
          have hthree : 3 ≤ e.toConsole.sizePoses := by
            have := hconfig.minSamples
            have := hsamples rfl
            omega
          obtain ⟨⟨cmdVel, success⟩, hvelocity⟩ := getVelocity_toConsole m config .zero hthree
          rw [if_neg (by decide), hvelocity, Option.bind_eq_bind, Option.bind_some]
          dsimp only
          cases success with
          | false => exact ⟨_, rfl, rfl, Or.inr ⟨e, rfl⟩, fun h => absurd h Bool.false_ne_true⟩
          | true =>
              refine ⟨_, rfl, rfl, Or.inr ⟨e, rfl⟩, fun _ =>
                ⟨⟨e, rfl, hrobot, i, pose, hpose, hx, hy⟩, hsamples rfl, hiff.mp rfl, hobstacles, hvia,
                  ⟨cmdVel, hvelocity, ?_⟩, saturateVelocity_allows hconfig _⟩⟩
              rw [← saturateVelocity_eq hconfig]

/-- One call on a planner with a band and the plan that it has read. -/
theorem computeOnPlan_sound (hconfig : config.Sane) (hfree : MovesFree c.solver)
    (hband : p.band.Banded) (hplan : p.globalPlan ≠ []) :
    ∃ out, p.computeOnPlan m config c = some out ∧ out.planner.globalPlan <:+ p.globalPlan ∧
      out.planner.globalPlan ≠ [] ∧ out.planner.band.Banded ∧
      (out.result.IsOK = true → Reached m config c out ∨ Followed m config c out) := by
  have hlast := List.getLast?_eq_some_getLast hplan
  unfold computeOnPlan isGoalReached
  rw [hlast, Option.map_some, Option.bind_eq_bind, Option.bind_some]
  split
  · next hreached =>
      rw [decide_eq_true_eq] at hreached
      refine ⟨_, rfl, List.suffix_refl _, hplan, hband, fun _ => Or.inl ⟨rfl, _, ?_, hreached⟩⟩
      dsimp only
      rw [hlast]
      rfl
  · obtain ⟨hsuffix, hne⟩ := pruneGlobalPlan_suffix m p c.robotPlan hplan
    obtain ⟨p', hplan', hband', hcases⟩ :=
      transformGlobalPlan_cases m config (p.pruneGlobalPlan m c.robotPlan) c hne
    rw [pruneGlobalPlan_band] at hband'
    rw [← hplan'] at hsuffix hne
    rw [← hband'] at hband
    rcases hcases with hfail | ⟨a, b, pose, htransform, hab, hpose, hback⟩
    · rw [hfail]
      exact ⟨_, rfl, hsuffix, hne, hband, fun h => absurd h Bool.false_ne_true⟩
    · obtain ⟨hlt, -⟩ := List.getElem?_eq_some_iff.mp hpose
      obtain ⟨theta, htheta⟩ := localGoalTheta_isSome m config p' (p'.planToGlobal pose) hlt
      rw [htransform]
      dsimp only
      rw [hback]
      dsimp only
      obtain ⟨obstVector, hobstVector, hobstacles⟩ := updateObstacleWithCostmap_spec m config c
        { p'.planToGlobal pose with theta := theta }
      rw [htheta, Option.bind_eq_bind, Option.bind_some, hobstVector, Option.bind_eq_bind,
        Option.bind_some, List.getLast?_eq_some_getLast hne, Option.bind_eq_bind, Option.bind_some]
      obtain ⟨inner, hends⟩ := withRobotPose_ends c.robotPose
        { p'.planToGlobal pose with theta := theta } p'.transformedPlan.dropLast
      rw [hends]
      obtain ⟨out, hout, hglobal, hbanded, hfollowed⟩ := followPlan_sound (m := m)
        (p := { p' with
          transformedPlan :=
            c.robotPose :: (inner ++ [{ p'.planToGlobal pose with theta := theta }])
          obstVector := obstVector
          viaPoints := updateViaPointsContainer m config
            (c.robotPose :: (inner ++ [{ p'.planToGlobal pose with theta := theta }])) })
        hconfig hfree hband rfl hpose rfl rfl hobstacles
        (updateViaPointsContainer_separate m config c.robotPose _) (decide ((p'.globalPlan.getLast hne).z = 1))
      exact ⟨out, hout, hglobal ▸ hsuffix, hglobal ▸ hne, hbanded, fun h => Or.inr (hfollowed h)⟩

/-- One call on a planner with a band. -/
theorem computeVelocityCommands_sound (hconfig : config.Sane) (hfree : MovesFree c.solver)
    (hband : p.band.Banded) (hplan : (p.getPlan c.locked).globalPlan ≠ []) :
    ∃ out, p.computeVelocityCommands m config c = some out ∧ Sound m config p c out := by
  rw [← updateGlobalToPlanTranform_globalPlan c.lookup] at hplan
  rw [← getPlan_band c.locked, ← updateGlobalToPlanTranform_band c.lookup] at hband
  obtain ⟨out, hout, hsuffix, hne, hbanded, hcommand⟩ :=
    computeOnPlan_sound hconfig hfree hband hplan
  rw [updateGlobalToPlanTranform_globalPlan] at hsuffix
  exact ⟨out, hout, hsuffix, hne, hbanded, hcommand⟩

/-- Without a plan the goal that `IsGoalReached` asks for is not there. -/
theorem computeVelocityCommands_eq_none (m : TebLibrary) (config : TebConfig)
    (hplan : (p.getPlan c.locked).globalPlan = []) :
    p.computeVelocityCommands m config c = none := by
  rw [← updateGlobalToPlanTranform_globalPlan c.lookup] at hplan
  unfold computeVelocityCommands computeOnPlan isGoalReached
  rw [hplan]
  rfl

/-! ## Runs -/

/-- Every solver that a list of calls meets moves free vertices only. -/
def CallsFree (calls : List PlannerCall) : Prop :=
  ∀ c, .computeVelocityCommands c ∈ calls → MovesFree c.solver

/-- The band of a planner keeps its shape. -/
theorem run_banded (hconfig : config.Sane) (calls : List PlannerCall) :
    ∀ {p p' : TebLocalPlanner}, CallsFree calls → p.band.Banded →
      StateMachine.run (call m config) p calls = some p' → p'.band.Banded := by
  induction calls with
  | nil =>
      intro p p' hfree hband hrun
      obtain rfl := Option.some.inj hrun
      exact hband
  | cons e calls ih =>
      intro p p' hfree hband hrun
      rw [StateMachine.run_cons, Option.bind_eq_some_iff] at hrun
      obtain ⟨p₁, hcall, hrun⟩ := hrun
      refine ih (fun c hc => hfree c (List.mem_cons_of_mem _ hc)) ?_ hrun
      cases e with
      | setPlan locked plan goal =>
          obtain rfl := Option.some.inj hcall
          unfold setPlan
          split <;> exact hband
      | computeVelocityCommands c =>
          obtain ⟨out, hout, rfl⟩ := Option.map_eq_some_iff.mp hcall
          have hplan : (p.getPlan c.locked).globalPlan ≠ [] := by
            intro hnil
            rw [computeVelocityCommands_eq_none m config hnil] at hout
            cases hout
          obtain ⟨out', hout', hsound⟩ := computeVelocityCommands_sound (m := m) hconfig
            (hfree c (List.mem_cons_self ..)) hband hplan
          rw [hout, Option.some.injEq] at hout'
          subst hout'
          exact hsound.band

/-- In every run of a planner with a sane configuration and solvers that move free vertices only, a
call of `ComputeVelocityCommands` is defined exactly when there is a plan to read, whatever it finds
in its surroundings; and then what it leaves and commands is sound. -/
theorem run_commands (m : TebLibrary) (config : TebConfig) (hconfig : config.Sane)
    (planToGlobal : PlanPose → DataBase) (preferRotdir : RotType) (calls : List PlannerCall)
    (hcalls : CallsFree calls) (p : TebLocalPlanner)
    (hrun : StateMachine.run (call m config) (start planToGlobal preferRotdir) calls = some p)
    (c : Cycle) (hfree : MovesFree c.solver) :
    ((p.computeVelocityCommands m config c).isSome = true ↔ (p.getPlan c.locked).globalPlan ≠ []) ∧
      ∀ out, p.computeVelocityCommands m config c = some out → Sound m config p c out := by
  have hband : p.band.Banded := run_banded hconfig calls hcalls (Or.inl rfl) hrun
  by_cases hplan : (p.getPlan c.locked).globalPlan = []
  · have hnone := computeVelocityCommands_eq_none m config (c := c) hplan
    rw [hnone]
    exact ⟨iff_of_false Bool.false_ne_true fun h => h hplan, fun out hout => by cases hout⟩
  · obtain ⟨out, hout, hsound⟩ := computeVelocityCommands_sound (m := m) hconfig hfree hband hplan
    rw [hout]
    refine ⟨iff_of_true rfl hplan, fun out' hout' => ?_⟩
    obtain rfl := Option.some.inj hout'
    exact hsound

/-- A robot at the start of a plan along the axis is commanded to follow it. -/
theorem run_commands_axis :
    ∃ p out, StateMachine.run (call axisLibrary axisConfig) (start axisPose .NONE)
        [.setPlan true axisPlan ⟨3, 0, 0, 0⟩] = some p ∧
      p.computeVelocityCommands axisLibrary axisConfig axisCycle = some out ∧
      out.result.IsOK = true ∧ Sound axisLibrary axisConfig p axisCycle out := by
  have hok : (((start axisPose .NONE).setPlan true axisPlan ⟨3, 0, 0, 0⟩).computeVelocityCommands
      axisLibrary axisConfig axisCycle).map (fun out => out.result.IsOK) = some true := by
    decide +kernel
  obtain ⟨out, hout, hresult⟩ := Option.map_eq_some_iff.mp hok
  have hfree : MovesFree axisCycle.solver := fun _ _ e => ⟨e, rfl, rfl, rfl, rfl⟩
  have hsane : axisConfig.Sane := by constructor <;> decide
  have hcalls : CallsFree [.setPlan true axisPlan ⟨3, 0, 0, 0⟩] := by
    intro c hc
    cases List.mem_singleton.mp hc
  exact ⟨_, out, rfl, hout, hresult, (run_commands axisLibrary axisConfig hsane axisPose .NONE _ hcalls _
    rfl axisCycle hfree).2 out hout⟩

end TebLocalPlanner

end RoboRTS.Planning
