import RoboRTS.Decision.ExampleBehavior.Defs
import RoboRTS.Lib.RejectionLoop

/-!
# Escapes

`EscapeBehavior::Run` looks for a place that the enemy does not see: it draws points on the other
side of the field until one of them is a free cell of the map with more than five obstacles on the
line to the enemy. It sends the first draw that hides the robot (`run_escapes`), and never returns
on a map with so few obstacles that no line can have enough of them (`run_never_returns`). A robot
that sees no enemy in the map whirls.

The two distributions are functions of their bounds: what they return in each pass of the loop.
-/

namespace RoboRTS.Decision

open Costmap Planning FastLineIterator

/-- The members of `EscapeBehavior`. -/
structure EscapeBehavior extends EscapeConstraint where
  whirlVel : TwistAccel

/-- What a call of `Run` reads from the executor and the blackboard. -/
structure EscapeInput where
  executorState : BehaviorState
  isEnemyDetected : Bool
  enemy : PoseStamped
  robotMapPose : PoseStamped
  now : Nat
  map : CostMap2D

namespace EscapeBehavior

open ChaseBehavior

/-- The constructor, given what `LoadParam` finds in the file. -/
def create (config : DecisionConfig) : EscapeBehavior :=
  { config.escape with
    whirlVel :=
      { twist := { linear := (0, 0, 0), angular := config.whirlVel }
        accel := { linear := (0, 0, 0), angular := (0, 0, 0) } } }

/-- `x_min` and `x_max`. -/
def xRange (input : EscapeInput) (b : EscapeBehavior) : Rat × Rat :=
  if input.enemy.position.1 < b.leftXLimit then (b.rightRandomMinX, b.rightRandomMaxX)
  else if input.enemy.position.1 > b.rightXLimit then (b.leftRandomMinX, b.leftRandomMaxX)
  else if b.robotXLimit - input.robotMapPose.position.1 ≥ 0 then
    (b.leftRandomMinX, b.leftRandomMaxX)
  else (b.rightRandomMinX, b.rightRandomMaxX)

/-- The loop over the line, in at most `fuel` tests of its condition. -/
def countObstacles (map : CostMap2D) : Nat → FastLineIterator → Nat → Option Nat
  | 0, _, _ => none
  | fuel + 1, line, obstacleCount =>
      if line.isValid then do
        let pointCost ← map.getCost line.x.toNat line.y.toNat
        let next ← line.advance
        countObstacles map fuel next
          (if pointCost > 253 then obstacleCount + 1 else obstacleCount)
      else some obstacleCount

/-- Whether the loop ends with this draw, undefined where it reads behind the end of the map. -/
def tryGoal (map : CostMap2D) (enemyCell : Nat × Nat) (goal : Rat × Rat) : Option Bool :=
  let (getGoalCell, goalCell) := map.world2MapCell goal.1 goal.2
  if !getGoalCell then some false
  else do
    let (goalCellX, goalCellY) ← goalCell
    let cost ← map.getCost goalCellX goalCellY
    if cost ≥ 253 then some false
    else do
      let line ← FastLineIterator.create goalCellX goalCellY enemyCell.1 enemyCell.2
      let obstacleCount ← countObstacles map line.visitBound line 0
      some (obstacleCount > 5)

/-- The goal at a point, with a view of the enemy. -/
def escapeGoal (lib : Cmath) (tf : Tf2) (input : EscapeInput) (goal : Rat × Rat) : PoseStamped :=
  let poseToEnemyX := input.enemy.position.1 - input.robotMapPose.position.1
  let poseToEnemyY := input.enemy.position.2.1 - input.robotMapPose.position.2.1
  { frameId := "map"
    stamp := input.now
    position := (goal.1, goal.2, 0)
    orientation := tf.quaternionFromRollPitchYaw 0 0 (lib.atan2 poseToEnemyY poseToEnemyX) }

/-- `Run` in at most `fuel` passes of the loop. -/
def run (lib : Cmath) (tf : Tf2) (xUniDis yUniDis : Rat → Rat → Nat → Rat) (input : EscapeInput)
    (fuel : Nat) (b : EscapeBehavior) : Option (List ChassisCall) :=
  if input.executorState ≠ .RUNNING then
    if input.isEnemyDetected then
      let (xMin, xMax) := xRange input b
      let draws (n : Nat) : Rat × Rat := (xUniDis xMin xMax n, yUniDis 0 5 n)
      let (getEnemyCell, enemyCell) :=
        input.map.world2MapCell input.enemy.position.1 input.enemy.position.2.1
      if !getEnemyCell then some [.executeTwistAccel b.whirlVel]
      else do
        let enemyCell ← enemyCell
        let goal ← RejectionLoop.loop (tryGoal input.map enemyCell) draws fuel 0
        some [.executeGoal (escapeGoal lib tf input goal)]
    else some [.executeTwistAccel b.whirlVel]
  else some []

/-! ## Lines -/

variable {map : CostMap2D} {enemyCell : Nat × Nat} {goal : Rat × Rat}

/-- A cell that the loop counts. -/
def Obstacle (map : CostMap2D) (cell : Int × Int) : Prop :=
  cellCost map cell > 253

instance (map : CostMap2D) (cell : Int × Int) : Decidable (Obstacle map cell) :=
  inferInstanceAs (Decidable (_ > _))

/-- The obstacles on the line from a goal to the enemy. -/
def obstacles (map : CostMap2D) (goalCell enemyCell : Nat × Nat) : Nat :=
  ((lineCells goalCell.1 goalCell.2 enemyCell.1 enemyCell.2).getD []).countP
    fun cell => Obstacle map cell

/-- The loop over a line in the map counts the obstacles. -/
theorem countObstacles_eq {fuel : Nat} {line : FastLineIterator} {cells : List (Int × Int)}
    (hcells : line.visited fuel = some cells) (hin : ∀ c ∈ cells, InMap map c)
    (obstacleCount : Nat) : countObstacles map fuel line obstacleCount =
      some (obstacleCount + cells.countP fun cell => Obstacle map cell) := by
  induction fuel generalizing line cells obstacleCount with
  | zero => cases hcells
  | succ fuel ih =>
      unfold visited at hcells
      unfold countObstacles
      by_cases hvalid : line.isValid = true
      case neg =>
        rw [if_neg hvalid] at hcells ⊢
        cases hcells
        rfl
      rw [if_pos hvalid] at hcells ⊢
      obtain ⟨rest, hrest, rfl⟩ := Option.map_eq_some_iff.mp hcells
      obtain ⟨next, hnext, hrest⟩ := Option.bind_eq_some_iff.mp hrest
      have hfirst : InMap map (line.x, line.y) := hin _ List.mem_cons_self
      have hcost : map.getCost line.x.toNat line.y.toNat = some (cellCost map (line.x, line.y)) :=
        hfirst.getCost_eq
      rw [hcost, Option.bind_eq_bind, Option.bind_some, hnext, Option.bind_eq_bind, Option.bind_some,
        ih hrest fun c hc => hin c (List.mem_cons_of_mem _ hc), List.countP_cons]
      by_cases hobstacle : cellCost map (line.x, line.y) > 253
      · rw [if_pos hobstacle, if_pos (by simpa [Obstacle] using hobstacle)]
        congr 1
        omega
      · rw [if_neg hobstacle, if_neg (by simpa [Obstacle] using hobstacle)]
        rfl

/-- The draw hides the robot from the enemy: it is a free cell of the map with more than five
obstacles on the line to the enemy. -/
def Hides (map : CostMap2D) (enemyCell : Nat × Nat) (goal : Rat × Rat) : Prop :=
  ∃ goalCell ∈ map.world2Map goal.1 goal.2,
    map.costmap (map.getIndex goalCell.1 goalCell.2) < 253 ∧ 5 < obstacles map goalCell enemyCell

instance (map : CostMap2D) (enemyCell : Nat × Nat) (goal : Rat × Rat) :
    Decidable (Hides map enemyCell goal) :=
  inferInstanceAs (Decidable (∃ goalCell ∈ map.world2Map goal.1 goal.2, _))

theorem not_hides (h : map.world2Map goal.1 goal.2 = none) : ¬Hides map enemyCell goal := by
  rintro ⟨goalCell, hcell, -⟩
  rw [h] at hcell
  cases hcell

theorem hides_iff {c : Nat × Nat} (h : map.world2Map goal.1 goal.2 = some c) :
    Hides map enemyCell goal ↔
      map.costmap (map.getIndex c.1 c.2) < 253 ∧ 5 < obstacles map c enemyCell := by
  constructor
  · rintro ⟨goalCell, hcell, hhides⟩
    rw [h] at hcell
    cases hcell
    exact hhides
  · intro hhides
    exact ⟨c, h, hhides⟩

/-- The loop ends with a draw that hides the robot; no pass of it reads outside of the map. -/
theorem tryGoal_eq (henemy : enemyCell.1 < map.sizeX ∧ enemyCell.2 < map.sizeY)
    (goal : Rat × Rat) : tryGoal map enemyCell goal = some (decide (Hides map enemyCell goal)) := by
  unfold tryGoal
  cases hgoal : map.world2Map goal.1 goal.2 with
  | none =>
      have hout := world2MapCell_of_none hgoal
      generalize map.world2MapCell goal.1 goal.2 = found at hout
      obtain ⟨getGoalCell, goalCell⟩ := found
      cases hout
      rw [decide_eq_false (not_hides hgoal)]
      rfl
  | some c =>
      obtain ⟨⟨-, -, hx⟩, -, -, hy⟩ := world2Map_eq_some hgoal
      have hfits := map.fits hx hy henemy.1 (Or.inr henemy.2)
      obtain ⟨line, hline, -, -, -, -, hbox⟩ := lineCells_line hfits
      have hin : ∀ cell ∈ line, InMap map cell :=
        fun cell hcell => inMap_of_inBox ⟨hx, hy⟩ henemy (hbox cell hcell)
      have hcount := countObstacles_eq (visited_start hfits hline) hin 0
      have hobstacles : (0 + line.countP fun cell => Obstacle map cell) =
          obstacles map c enemyCell := by
        unfold obstacles
        rw [hline, Nat.zero_add]
        rfl
      rw [hobstacles] at hcount
      rw [decide_eq_decide.mpr (hides_iff hgoal), world2MapCell_of_some hgoal]
      show (do
        let cost ← map.getCost c.1 c.2
        _) = _
      rw [getCost_of_lt hx hy, Option.bind_eq_bind, Option.bind_some]
      by_cases hfree : map.costmap (map.getIndex c.1 c.2) ≥ 253
      · rw [if_pos hfree, decide_eq_false fun h => UInt8.not_lt.mpr hfree h.1]
      · rw [if_neg hfree]
        rw [create_eq hfits, Option.bind_eq_bind, Option.bind_some, hcount, Option.bind_eq_bind,
          Option.bind_some]
        have hlt := UInt8.not_le.mp hfree
        rw [decide_eq_decide.mpr (and_iff_right hlt)]

/-! ## Runs -/

variable {lib : Cmath} {tf : Tf2} {xUniDis yUniDis : Rat → Rat → Nat → Rat} {input : EscapeInput}
  {b : EscapeBehavior}

/-- The points that the loop draws. -/
def draws (xUniDis yUniDis : Rat → Rat → Nat → Rat) (input : EscapeInput) (b : EscapeBehavior)
    (n : Nat) : Rat × Rat :=
  (xUniDis (xRange input b).1 (xRange input b).2 n, yUniDis 0 5 n)

/-- `Run` gets to the loop: the executor is idle, and an enemy is seen in the map. -/
structure Escapes (input : EscapeInput) (cell : Nat × Nat) : Prop where
  state : input.executorState ≠ .RUNNING
  detected : input.isEnemyDetected = true
  enemy : input.map.world2Map input.enemy.position.1 input.enemy.position.2.1 = some cell

/-- A run that gets to the loop sends what the loop finds. -/
theorem Escapes.run_eq_loop {cell : Nat × Nat} (h : Escapes input cell) (fuel : Nat) :
    run lib tf xUniDis yUniDis input fuel b =
      (RejectionLoop.loop (tryGoal input.map cell) (draws xUniDis yUniDis input b) fuel 0).map
        fun goal => [.executeGoal (escapeGoal lib tf input goal)] := by
  unfold run
  rw [if_pos h.state, if_pos h.detected, world2MapCell_of_some h.enemy]
  show (do
    let goal ← RejectionLoop.loop (tryGoal input.map cell) (draws xUniDis yUniDis input b) fuel 0
    _) = _
  cases RejectionLoop.loop (tryGoal input.map cell) (draws xUniDis yUniDis input b) fuel 0 with
  | none => rfl
  | some goal => rfl

theorem Escapes.tryGoal_eq {cell : Nat × Nat} (h : Escapes input cell) (goal : Rat × Rat) :
    tryGoal input.map cell goal = some (decide (Hides input.map cell goal)) := by
  obtain ⟨⟨-, -, hx⟩, -, -, hy⟩ := world2Map_eq_some h.enemy
  exact EscapeBehavior.tryGoal_eq ⟨hx, hy⟩ goal

/-- What a run that gets to the loop does. -/
theorem Escapes.run_eq {cell : Nat × Nat} (h : Escapes input cell) (fuel : Nat) :
    run lib tf xUniDis yUniDis input fuel b =
      ((List.range' 0 fuel).find? fun n =>
          Hides input.map cell (draws xUniDis yUniDis input b n)).map fun n =>
        [.executeGoal (escapeGoal lib tf input (draws xUniDis yUniDis input b n))] := by
  rw [h.run_eq_loop, RejectionLoop.loop_eq h.tryGoal_eq, Option.map_map]
  rfl

/-- A run that gets to the loop returns exactly if some draw hides the robot. -/
theorem Escapes.returns_iff {cell : Nat × Nat} (h : Escapes input cell) :
    (∃ fuel calls, run lib tf xUniDis yUniDis input fuel b = some calls) ↔
      ∃ n, Hides input.map cell (draws xUniDis yUniDis input b n) := by
  have hloop : (∃ fuel goal, RejectionLoop.loop (tryGoal input.map cell)
        (draws xUniDis yUniDis input b) fuel 0 = some goal) ↔
      ∃ n, decide (Hides input.map cell (draws xUniDis yUniDis input b n)) = true :=
    RejectionLoop.exists_loop_iff h.tryGoal_eq
  simp only [decide_eq_true_eq] at hloop
  rw [← hloop]
  constructor
  · rintro ⟨fuel, calls, hcalls⟩
    rw [h.run_eq_loop] at hcalls
    obtain ⟨goal, hgoal, -⟩ := Option.map_eq_some_iff.mp hcalls
    exact ⟨fuel, goal, hgoal⟩
  · rintro ⟨fuel, goal, hgoal⟩
    exact ⟨fuel, _, by rw [h.run_eq_loop, hgoal, Option.map_some]⟩

/-- A run that gets to the loop returns after the first draw that hides the robot from the enemy,
and sends this one. No draw leads it outside of the map. -/
theorem run_escapes (lib : Cmath) (tf : Tf2) (xUniDis yUniDis : Rat → Rat → Nat → Rat)
    (input : EscapeInput) (b : EscapeBehavior) {cell : Nat × Nat} (h : Escapes input cell)
    (fuel : Nat) (calls : List ChassisCall) :
    run lib tf xUniDis yUniDis input fuel b = some calls ↔
      ∃ n < fuel, Hides input.map cell (draws xUniDis yUniDis input b n) ∧
        (∀ k < n, ¬Hides input.map cell (draws xUniDis yUniDis input b k)) ∧
        calls = [.executeGoal (escapeGoal lib tf input (draws xUniDis yUniDis input b n))] := by
  rw [h.run_eq, Option.map_eq_some_iff]
  simp only [List.find?_range'_eq_some, List.mem_range'_1, decide_eq_true_eq, Nat.zero_le,
    Nat.zero_add, true_and, Bool.not_eq_true', decide_eq_false_iff_not, forall_const]
  constructor
  · rintro ⟨n, ⟨hhides, hn, hbefore⟩, rfl⟩
    exact ⟨n, hn, hhides, hbefore, rfl⟩
  · rintro ⟨n, hn, hhides, hbefore, rfl⟩
    exact ⟨n, ⟨hhides, hn, hbefore⟩, rfl⟩

/-- A row of eight cells, free at both ends. -/
def row : CostMap2D where
  sizeX := 8
  sizeY := 1
  resolution := 1
  originX := 0
  originY := 0
  resolution_pos := unitResolution_pos
  costmap := fun index => if index = 0 ∨ index = 7 then 0 else 254
  sizes_small := by decide

/-- The first point is next to the enemy, and the second one behind the obstacles. -/
theorem run_escapes_row :
    let lib : Cmath :=
      { sqrt := fun q => q, cos := fun _ => 1, sin := fun _ => 0, atan2 := fun _ _ => 0 }
    let tf : Tf2 :=
      { quaternionFromRollPitchYaw := fun _ _ _ => (0, 0, 0, 1), angleShortestPath := fun _ _ => 0 }
    let pose (x : Rat) : PoseStamped := { originPose with position := (x, 1 / 2, 0) }
    let input : EscapeInput := ⟨.IDLE, true, pose (15 / 2), pose 3, 0, row⟩
    let b : EscapeBehavior :=
      { leftXLimit := 2, rightXLimit := 6, robotXLimit := 4, leftRandomMinX := 0
        leftRandomMaxX := 8, rightRandomMinX := 0, rightRandomMaxX := 8
        whirlVel := ⟨⟨(0, 0, 0), (0, 0, 1)⟩, ⟨(0, 0, 0), (0, 0, 0)⟩⟩ }
    run lib tf (fun _ _ n => if n = 0 then 29 / 4 else 1 / 2) (fun _ _ _ => 1 / 2) input 2 b =
      some [.executeGoal (pose (1 / 2))] := by
  intro lib tf pose input b
  have h : Escapes input (7, 0) := ⟨by decide, rfl, by decide +kernel⟩
  exact (run_escapes lib tf _ _ input b h 2 _).mpr ⟨1, by decide, by decide +kernel,
    by decide +kernel, rfl⟩

/-! ## Maps with few obstacles -/

/-- The number of obstacles on the map. -/
def obstaclesOnMap (map : CostMap2D) : Nat :=
  (window 0 0 map.sizeX map.sizeY).countP fun cell => map.costmap (map.getIndex cell.1 cell.2) > 253

/-- A line counts each obstacle once. -/
theorem obstacles_le {c : Nat × Nat} (hc : c.1 < map.sizeX ∧ c.2 < map.sizeY)
    (henemy : enemyCell.1 < map.sizeX ∧ enemyCell.2 < map.sizeY) :
    obstacles map c enemyCell ≤ obstaclesOnMap map := by
  have hfits := map.fits hc.1 hc.2 henemy.1 (Or.inr henemy.2)
  obtain ⟨line, hline, -, -, -, -, hbox⟩ := lineCells_line hfits
  have hin : ∀ cell ∈ line, InMap map cell :=
    fun cell hcell => inMap_of_inBox hc henemy (hbox cell hcell)
  have hnodup : ((line.filter fun cell => Obstacle map cell).map
      fun cell => (cell.1.toNat, cell.2.toNat)).Nodup := by
    refine List.Nodup.map_on ?_ ((lineCells_nodup hfits hline).filter _)
    intro a ha b hb hab
    obtain ⟨⟨hax, -⟩, hay, -⟩ := hin a (List.mem_of_mem_filter ha)
    obtain ⟨⟨hbx, -⟩, hby, -⟩ := hin b (List.mem_of_mem_filter hb)
    obtain ⟨hx, hy⟩ := Prod.mk.inj hab
    exact Prod.ext (by omega) (by omega)
  have hsubset : ((line.filter fun cell => Obstacle map cell).map
      fun cell => (cell.1.toNat, cell.2.toNat)) ⊆ (window 0 0 map.sizeX map.sizeY).filter
        fun cell => map.costmap (map.getIndex cell.1 cell.2) > 253 := by
    intro d hd
    obtain ⟨cell, hcell, rfl⟩ := List.mem_map.mp hd
    obtain ⟨hcell, hobstacle⟩ := List.mem_filter.mp hcell
    obtain ⟨⟨hx, hx'⟩, hy, hy'⟩ := hin cell hcell
    exact List.mem_filter.mpr ⟨mem_window.mpr ⟨⟨by omega, by omega⟩, by omega, by omega⟩, hobstacle⟩
  have hle := (List.subperm_of_subset hnodup hsubset).length_le
  unfold obstacles obstaclesOnMap
  rw [hline, Option.getD_some, List.countP_eq_length_filter, List.countP_eq_length_filter]
  rwa [List.length_map] at hle

/-- On a map with at most five obstacles no draw hides the robot, and `Run` does not return. -/
theorem run_never_returns (lib : Cmath) (tf : Tf2) (xUniDis yUniDis : Rat → Rat → Nat → Rat)
    (input : EscapeInput) (b : EscapeBehavior) {cell : Nat × Nat} (h : Escapes input cell)
    (hfew : obstaclesOnMap input.map ≤ 5) (fuel : Nat) :
    run lib tf xUniDis yUniDis input fuel b = none := by
  by_contra hreturns
  obtain ⟨calls, hcalls⟩ := Option.ne_none_iff_exists'.mp hreturns
  obtain ⟨n, goalCell, hcell, -, hmany⟩ := h.returns_iff.mp ⟨fuel, calls, hcalls⟩
  obtain ⟨⟨-, -, hx⟩, -, -, hy⟩ := world2Map_eq_some h.enemy
  obtain ⟨⟨-, -, hgx⟩, -, -, hgy⟩ := world2Map_eq_some hcell
  have hle : obstacles input.map goalCell cell ≤ _ := obstacles_le ⟨hgx, hgy⟩ ⟨hx, hy⟩
  omega

/-- One obstacle on a map of two cells. -/
theorem run_never_returns_twoCells :
    let lib : Cmath :=
      { sqrt := fun q => q, cos := fun _ => 1, sin := fun _ => 0, atan2 := fun _ _ => 0 }
    let tf : Tf2 :=
      { quaternionFromRollPitchYaw := fun _ _ _ => (0, 0, 0, 1), angleShortestPath := fun _ _ => 0 }
    let pose (x : Rat) : PoseStamped := { originPose with position := (x, 1 / 2, 0) }
    let b : EscapeBehavior :=
      { leftXLimit := 2, rightXLimit := 6, robotXLimit := 4, leftRandomMinX := 0
        leftRandomMaxX := 4, rightRandomMinX := 4, rightRandomMaxX := 8
        whirlVel := ⟨⟨(0, 0, 0), (0, 0, 1)⟩, ⟨(0, 0, 0), (0, 0, 0)⟩⟩ }
    run lib tf (fun _ _ _ => 3 / 2) (fun _ _ _ => 1 / 2)
      ⟨.IDLE, true, pose (3 / 2), pose 1, 0, twoCells⟩ 100 b = none := by
  intro lib tf pose b
  have h : Escapes ⟨.IDLE, true, pose (3 / 2), pose 1, 0, twoCells⟩ (1, 0) :=
    ⟨by decide, rfl, by decide +kernel⟩
  exact run_never_returns lib tf _ _ _ b h (by decide +kernel) 100

end EscapeBehavior

end RoboRTS.Decision
