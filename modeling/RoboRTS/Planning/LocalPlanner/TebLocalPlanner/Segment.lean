import RoboRTS.Planning.LocalPlanner.TebLocalPlanner.Defs
import RoboRTS.Planning.LocalPlanner.TimedElasticBand.Shape

/-!
# The part of the plan that is followed

The two loops of `TransformGlobalPlan`. The first one stops where the plan turns away from the robot
for the first time inside the window (`Turns`), the second one follows the plan from there while it
stays in the window and is not too long (`Continues`). `selectSegment_spec` says what they select:
the longest such part of the plan, or its last pose alone when the plan does not turn in the window.
-/

namespace RoboRTS.Planning

namespace TebLocalPlanner

variable (m : TebLibrary) (config : TebConfig) (robot : Rat × Rat) (threshold : Rat)
variable (plan : List PlanPose)

/-- The square of the distance of pose number `i` from the robot. -/
def sqDistAt (i : Nat) : Rat :=
  (plan[i]?.map (sqDist robot)).getD 0

/-- The distance that the first loop compares pose number `i` with. -/
def sqDistBefore (i : Nat) : Rat :=
  if i = 0 then 10000000000 else sqDistAt robot plan (i - 1)

/-- Pose number `i` is farther away than the pose before it, which is inside the window. -/
def Turns (i : Nat) : Prop :=
  i < plan.length ∧ sqDistBefore robot plan i < sqDistAt robot plan i ∧
    sqDistBefore robot plan i < threshold * threshold

/-- The length of the plan from the pose before number `a` to number `b - 1`. -/
def travelled (a b : Nat) : Rat :=
  ((List.range' a (b - a)).map fun i =>
    (plan[i]?.map (stepLength m config.maxGlobalPlanLookaheadDist
      (if i = 0 then none else plan[i - 1]?))).getD 0).sum

/-- The plan is followed to pose number `i`: the pose before it is inside the window, and the part
up to that pose is not too long. -/
def Continues (a i : Nat) : Prop :=
  sqDistAt robot plan (i - 1) ≤ threshold * threshold ∧
    (config.maxGlobalPlanLookaheadDist ≤ 0 ∨
      travelled m config plan a i ≤ config.maxGlobalPlanLookaheadDist)

variable {m config robot threshold plan}

theorem sqDistAt_of_getElem? {i : Nat} {pose : PlanPose} (h : plan[i]? = some pose) :
    sqDistAt robot plan i = sqDist robot pose := by
  rw [sqDistAt, h]
  rfl

theorem travelled_self (a : Nat) : travelled m config plan a a = 0 := by
  rw [travelled, Nat.sub_self]
  rfl

theorem travelled_succ {a i : Nat} {pose : PlanPose} (hai : a ≤ i) (h : plan[i]? = some pose) :
    travelled m config plan a (i + 1) = travelled m config plan a i +
      stepLength m config.maxGlobalPlanLookaheadDist
        (if i = 0 then none else plan[i - 1]?) pose := by
  rw [travelled, travelled, show i + 1 - a = i - a + 1 by omega, List.range'_concat,
    List.map_append, List.sum_append, Nat.one_mul, show a + (i - a) = i by omega,
    List.map_singleton, List.sum_singleton, h]
  rfl

/-! ## The first loop -/

variable (robot threshold) in
/-- The first loop from number `i` on ends at the first turn, or behind the plan. -/
theorem skipFrom_spec (poses : List PlanPose) : ∀ {i : Nat}, plan.drop i = poses →
    i ≤ plan.length →
    ∃ k sq, skipFrom robot (threshold * threshold) poses i (sqDistBefore robot plan i) =
        (k, sq) ∧ i ≤ k ∧ k ≤ plan.length ∧
      (∀ j, i ≤ j → j < k → ¬ Turns robot threshold plan j) ∧
      (k < plan.length → Turns robot threshold plan k ∧ sq = sqDistAt robot plan k) := by
  induction poses with
  | nil =>
      intro i hdrop hi
      have hlen : plan.length ≤ i := List.drop_eq_nil_iff.mp hdrop
      exact ⟨i, _, rfl, Nat.le_refl i, hi, fun j hij hj => absurd hj (Nat.not_lt.mpr hij),
        fun hlt => absurd hlt (Nat.not_lt.mpr hlen)⟩
  | cons pose poses ih =>
      intro i hdrop hi
      have hget : plan[i]? = some pose := by
        rw [← List.head?_drop, hdrop]
        rfl
      obtain ⟨hlt, -⟩ := List.getElem?_eq_some_iff.mp hget
      have hat : sqDistAt robot plan i = sqDist robot pose := sqDistAt_of_getElem? hget
      rw [skipFrom]
      split
      · next hturn =>
          rw [← hat] at hturn
          exact ⟨i, _, rfl, Nat.le_refl i, hi, fun j hij hj => absurd hj (Nat.not_lt.mpr hij),
            fun _ => ⟨⟨hlt, hturn.1, hturn.2⟩, hat.symm⟩⟩
      · next hturn =>
          rw [← hat] at hturn ⊢
          have hnext : plan.drop (i + 1) = poses := by
            rw [← List.tail_drop, hdrop]
            rfl
          obtain ⟨k, sq, hskip, hik, hk, hnone, hturns⟩ := ih hnext hlt
          rw [sqDistBefore, if_neg (Nat.succ_ne_zero i), Nat.add_sub_cancel] at hskip
          refine ⟨k, sq, hskip, by omega, hk, fun j hij hj => ?_, hturns⟩
          rcases Nat.lt_or_eq_of_le hij with hlater | rfl
          · exact hnone j hlater hj
          · exact fun h => hturn ⟨h.2.1, h.2.2⟩

/-! ## The second loop -/

variable (m config robot threshold) in
/-- The second loop, at number `i` of a part that starts at number `a`, takes the poses up to the
first one to which the plan is not followed. -/
theorem takeFrom_spec {a : Nat} (poses : List PlanPose) : ∀ {i : Nat} (sq : Rat),
    plan.drop i = poses → a ≤ i → i ≤ plan.length →
    ∃ b, i ≤ b ∧ b ≤ plan.length ∧
      takeFrom m robot (threshold * threshold) config.maxGlobalPlanLookaheadDist
          (if i = 0 then none else plan[i - 1]?) poses sq (travelled m config plan a i) =
        poses.take (b - i) ∧
      (∀ j, i < j → j < b → Continues m config robot threshold plan a j) ∧
      (i < b → b < plan.length → ¬ Continues m config robot threshold plan a b) ∧
      (i < plan.length → (i < b ↔ sq ≤ threshold * threshold ∧
        (config.maxGlobalPlanLookaheadDist ≤ 0 ∨
          travelled m config plan a i ≤ config.maxGlobalPlanLookaheadDist))) := by
  induction poses with
  | nil =>
      intro i sq hdrop hai hi
      have hlen : plan.length ≤ i := List.drop_eq_nil_iff.mp hdrop
      refine ⟨i, Nat.le_refl i, hi, by simp [takeFrom], fun j hij hj => ?_, fun h => ?_,
        fun h => ?_⟩
      · omega
      · omega
      · omega
  | cons pose poses ih =>
      intro i sq hdrop hai hi
      have hget : plan[i]? = some pose := by
        rw [← List.head?_drop, hdrop]
        rfl
      obtain ⟨hlt, -⟩ := List.getElem?_eq_some_iff.mp hget
      rw [takeFrom]
      split
      · next hcond =>
          have hnext : plan.drop (i + 1) = poses := by
            rw [← List.tail_drop, hdrop]
            rfl
          obtain ⟨b, hib, hb, htake, hall, hstop, hiff⟩ :=
            ih (sqDist robot pose) hnext (Nat.le_succ_of_le hai) hlt
          rw [if_neg (Nat.succ_ne_zero i), Nat.add_sub_cancel, hget,
            travelled_succ hai hget] at htake
          -- the condition of the next round is that the plan is followed to the next number
          have hnextCond : (i + 1 < plan.length →
              (i + 1 < b ↔ Continues m config robot threshold plan a (i + 1))) := by
            rw [Continues, Nat.add_sub_cancel, sqDistAt_of_getElem? hget]
            exact hiff
          refine ⟨b, by omega, hb, ?_, fun j hij hj => ?_, fun _ hblt => ?_, fun _ => ?_⟩
          · rw [htake, show b - i = b - (i + 1) + 1 by omega, List.take_succ_cons]
          · rcases Nat.lt_or_eq_of_le (Nat.succ_le_of_lt hij) with hlater | heq
            · exact hall j hlater hj
            · subst heq
              exact (hnextCond (by omega)).mp hj
          · rcases Nat.lt_or_eq_of_le hib with hlater | heq
            · exact hstop hlater hblt
            · subst heq
              exact fun h => absurd ((hnextCond hblt).mpr h) (Nat.lt_irrefl _)
          · exact iff_of_true (by omega) hcond
      · next hcond =>
          refine ⟨i, Nat.le_refl i, hi, by rw [Nat.sub_self, List.take_zero], fun j hij hj => ?_,
            fun h => ?_, fun _ => iff_of_false (Nat.lt_irrefl i) hcond⟩
          · omega
          · exact absurd h (Nat.lt_irrefl i)

/-! ## Both loops -/

/-- `a` is where the plan turns in the window for the first time, and is in the window itself. -/
structure FirstTurn (robot : Rat × Rat) (threshold : Rat) (plan : List PlanPose) (a : Nat) :
    Prop where
  turns : Turns robot threshold plan a
  first : ∀ j < a, ¬ Turns robot threshold plan j
  near : sqDistAt robot plan a ≤ threshold * threshold

/-- What the loops select of a plan: a part of it from number `a` to the local goal `b - 1`. -/
theorem selectSegment_cases (m : TebLibrary) (config : TebConfig) (robot : Rat × Rat)
    (threshold : Rat) (hplan : plan ≠ []) :
    ∃ a b, a < b ∧ b ≤ plan.length ∧
      selectSegment m config robot threshold plan = ((plan.drop a).take (b - a), b - 1) ∧
      ((FirstTurn robot threshold plan a ∧
          (∀ j, a < j → j < b → Continues m config robot threshold plan a j) ∧
          (b < plan.length → ¬ Continues m config robot threshold plan a b)) ∨
        ((∀ i, ¬ FirstTurn robot threshold plan i) ∧ a + 1 = plan.length ∧
          b = plan.length)) := by
  obtain ⟨k, sq, hskip, -, hk, hnone, hturn⟩ :=
    skipFrom_spec robot threshold plan rfl (Nat.zero_le _)
  obtain ⟨b, hkb, hb, htake, hall, hstop, hiff⟩ :=
    takeFrom_spec m config robot threshold (plan.drop k) sq rfl (Nat.le_refl k) hk
  have hpos : 0 < plan.length := List.length_pos_iff.mpr hplan
  rw [sqDistBefore, if_pos rfl] at hskip
  rw [travelled_self] at htake hiff
  rw [selectSegment, hskip]
  dsimp only
  rw [htake]
  by_cases hnear : k < plan.length ∧ sqDistAt robot plan k ≤ threshold * threshold
  · obtain ⟨hlt, hle⟩ := hnear
    obtain ⟨hturns, hsq⟩ := hturn hlt
    have hkb : k < b := (hiff hlt).mpr
      ⟨hsq ▸ hle, (le_total config.maxGlobalPlanLookaheadDist 0).imp_right id⟩
    have hlength : ((plan.drop k).take (b - k)).length = b - k := by
      rw [List.length_take, List.length_drop]
      omega
    have hne : (plan.drop k).take (b - k) ≠ [] := by
      rw [← List.length_pos_iff, hlength]
      omega
    refine ⟨k, b, hkb, hb, ?_, Or.inl ⟨⟨hturns, fun j hj => hnone j (Nat.zero_le j) hj, hle⟩, hall,
      hstop hkb⟩⟩
    rw [if_neg hne, hlength, show k + (b - k) - 1 = b - 1 by omega]
  · -- nothing is taken
    have hempty : b - k = 0 := by
      by_cases hlt : k < plan.length
      · have hfar : ¬ k < b := fun h =>
          hnear ⟨hlt, (hturn hlt).2 ▸ ((hiff hlt).mp h).1⟩
        omega
      · omega
    refine ⟨plan.length - 1, plan.length, by omega, Nat.le_refl _, ?_,
      Or.inr ⟨fun i hi => hnear ?_, by omega, rfl⟩⟩
    · rw [hempty, List.take_zero, if_pos rfl, List.drop_length_sub_one hplan,
        List.getLast?_eq_some_getLast hplan, List.take_of_length_le]
      · rfl
      · rw [List.length_singleton]
        omega
    · -- the first turn is where the first loop ended
      rcases Nat.lt_trichotomy i k with hlt | rfl | hgt
      · exact absurd hi.turns (hnone i (Nat.zero_le i) hlt)
      · exact ⟨hi.turns.1, hi.near⟩
      · have hlen := hi.turns.1
        exact absurd (hturn (by omega)).1 (hi.first k hgt)

/-- Where the robot's position can be looked up, `TransformGlobalPlan` hands on one part of the plan
and the number of its last pose. It starts where the plan first turns away from the robot inside the
window and is the longest one whose poses but the last lie in the window and whose length up to the
last but one is at most the lookahead distance; where the plan never turns inside the window it is
the last pose alone. -/
theorem transformGlobalPlan_follows (m : TebLibrary) (config : TebConfig) (p : TebLocalPlanner)
    (c : Cycle) (robot : Rat × Rat) (hplan : p.globalPlan ≠ [])
    (hrobot : c.robotPlanAgain = some robot) :
    ∃ p' a b, p.transformGlobalPlan m config c = (p', some (b - 1)) ∧
      p'.globalPlan = p.globalPlan ∧ a < b ∧ b ≤ p.globalPlan.length ∧
      p'.transformedPlan = ((p.globalPlan.drop a).take (b - a)).map p'.planToGlobal ∧
      ((FirstTurn robot (distThreshold c.geometry) p.globalPlan a ∧
          (∀ j, a < j → j < b →
            Continues m config robot (distThreshold c.geometry) p.globalPlan a j) ∧
          (b < p.globalPlan.length →
            ¬ Continues m config robot (distThreshold c.geometry) p.globalPlan a b)) ∨
        ((∀ i, ¬ FirstTurn robot (distThreshold c.geometry) p.globalPlan i) ∧
          a + 1 = p.globalPlan.length ∧ b = p.globalPlan.length)) := by
  obtain ⟨a, b, hab, hb, hselect, hcases⟩ :=
    selectSegment_cases m config robot (distThreshold c.geometry) hplan
  unfold transformGlobalPlan updateGlobalToPlanTranform
  dsimp only
  rw [if_neg hplan, if_neg hplan, hrobot]
  dsimp only
  rw [hselect]
  exact ⟨_, a, b, rfl, rfl, hab, hb, rfl, hcases⟩

/-- The functions for poses on the x axis. -/
def axisLibrary : TebLibrary :=
  { TebVertexConsole.alongAxis with normalizeTheta := id }

/-- A configuration like that of the package, with one round and without resizing. -/
def axisConfig : TebConfig where
  tebAutosize := false
  dtRef := 1 / 2
  dtHysteresis := 1 / 100
  globalPlanOverwriteOrientation := true
  globalPlanViapointSep := 3 / 2
  maxGlobalPlanLookaheadDist := 2
  forceReinitNewGoalDist := 1
  feasibilityCheckNoPoses := 5
  minSamples := 3
  maxSamples := 200
  maxVelX := 1
  maxVelXBackwards := 1
  maxVelY := 1
  maxVelTheta := 1
  accLimY := 1
  minTurningRadius := 0
  xyGoalTolerance := 1 / 10
  yawGoalTolerance := 1 / 10
  freeGoalVel := false
  costmapObstaclesBehindRobotDist := 1
  noInnerIterations := 5
  noOuterIterations := 1
  optimizationActivate := true
  weightMaxVelX := 1
  weightMaxVelY := 1
  weightMaxVelTheta := 1
  weightAccLimX := 1
  weightAccLimTheta := 1
  weightKinematicsNh := 1
  weightKinematicsForwardDrive := 1
  weightKinematicsTurningRadius := 0
  weightOptimaltime := 1
  weightObstacle := 1
  weightAdaptFactor := 2
  weightPreferRotdir := 0
  legacyObstacleAssociation := false
  obstaclePosesAffected := 30

/-- The pose of a plan along the axis in the frame of the map. -/
def axisPose (pose : PlanPose) : DataBase :=
  ⟨pose.x, pose.y, pose.yaw⟩

/-- A robot at the origin of a free map, with a solver that leaves the band as it is. -/
def axisCycle : Cycle where
  locked := true
  robotPose := ⟨0, 0, 0⟩
  lookup := none
  lookupAgain := none
  robotPlan := some (0, 0)
  robotPlanAgain := some (0, 0)
  geometry := ⟨4, 4, 1, 0, 0, Costmap.unitResolution_pos⟩
  costmap := ⟨16, fun _ => 0⟩
  sizeX_pos := by decide
  sizeY_pos := by decide
  allocated := rfl
  size_lt := by decide
  near _ _ := 0
  solver _ _ b := (b, 1)
  footprintCost _ := 0
  inscribedRadius := 1

def axisPlan : List PlanPose :=
  [⟨0, 0, 0, 0⟩, ⟨1, 0, 0, 0⟩, ⟨2, 0, 0, 0⟩, ⟨3, 0, 0, 0⟩]

/-- The plan along the axis turns at its second pose, and is followed from there to the end of the
window. -/
theorem transformGlobalPlan_follows_axis :
    ∃ p' a b, { start axisPose .NONE with globalPlan := axisPlan }.transformGlobalPlan axisLibrary
        axisConfig axisCycle = (p', some (b - 1)) ∧
      p'.globalPlan = axisPlan ∧ a < b ∧ b ≤ axisPlan.length ∧
      p'.transformedPlan = ((axisPlan.drop a).take (b - a)).map p'.planToGlobal ∧
      ((FirstTurn (0, 0) (distThreshold axisCycle.geometry) axisPlan a ∧
          (∀ j, a < j → j < b →
            Continues axisLibrary axisConfig (0, 0) (distThreshold axisCycle.geometry) axisPlan a j) ∧
          (b < axisPlan.length → ¬ Continues axisLibrary axisConfig (0, 0)
            (distThreshold axisCycle.geometry) axisPlan a b)) ∨
        ((∀ i, ¬ FirstTurn (0, 0) (distThreshold axisCycle.geometry) axisPlan i) ∧
          a + 1 = axisPlan.length ∧ b = axisPlan.length)) :=
  transformGlobalPlan_follows axisLibrary axisConfig
    { start axisPose .NONE with globalPlan := axisPlan } axisCycle (0, 0) (List.cons_ne_nil _ _) rfl

end TebLocalPlanner

end RoboRTS.Planning
