import RoboRTS.Localization.Amcl.SensorLaser

/-!
# The localisation

`Amcl` with the calls that change its particles. A call of `Update` weighs the samples of the
current set, if the robot has moved, and resamples them every second time. The noise of the
odometry and of the positioning system are arguments, and `std::sort` is any function that sorts.

What is only published is left out: the flags of `UpdateFilter` and the pose that it reads from the
cluster statistics.
-/

namespace RoboRTS.Localization

/-- A function that sorts samples by their weight, those of equal weight in any order. -/
structure Sorter (K : Type*) [LT K] where
  sort : List (Sample K) → List (Sample K)
  perm : ∀ l, (sort l).Perm l
  sorted : ∀ l, (sort l).Pairwise fun a b => ¬ b.weight < a.weight

/-- `LaserScan`: the ranges, none where the reading is no number or infinite. -/
structure LaserScan (K : Type*) where
  rangeMin : K
  rangeMax : K
  ranges : List (Option K)

/-- The parameters that the calls read. -/
structure AmclConfig (K : Type*) where
  minParticles : Int
  maxParticles : Nat
  recoveryAlphaSlow : K
  recoveryAlphaFast : K
  kldErr : K
  kldZ : K
  odomAlpha : Fin 5 → K
  updateMinD : K
  updateMinA : K
  maxUwbParticles : Int
  resampleUwbFactor : K
  uwbCovX : K
  uwbCovY : K
  laserMinRange : K
  laserMaxRange : K

/-- `Amcl`. -/
structure Amcl (K : Type*) where
  config : AmclConfig K
  uwbCovX : K
  uwbCovY : K
  resampleCount : Nat
  pfOdomPose : Vec3d K
  pf : ParticleFilter K
  pfInit : Bool
  laser : SensorLaser K
  laserUpdate : Bool

/-- The arguments of `Update`, the noise of the odometry for each sample, the contents of the new
array `obs_count`, and what `UpdateResample` draws. -/
structure UpdateInput (K : Type*) [Zero K] [One K] [LE K] [LT K] where
  pose : Vec3d K
  scan : LaserScan K
  angleMin : K
  angleIncrement : K
  noise : Nat → Vec3d K
  contents : Nat → Int
  draws : ResampleDraws K

/-- The arguments of `UpdateUwb`, how it sorts, and its noise: for the samples that are far away and
for those of the least weight. -/
structure UwbInput (K : Type*) [LT K] where
  uwbPose : Vec3d K
  sorter : Sorter K
  farNoise : Nat → Vec3d K
  leastNoise : Nat → Vec3d K

/-- A call, with what is generated for an initialisation. -/
inductive AmclCall (K : Type*) [Zero K] [One K] [LE K] [LT K] where
  | HandleInitialPoseMessage (generated : Nat → Vec3d K)
  | GlobalLocalization (initFn : Nat → Vec3d K)
  | RandomHeadingGlobalLocalization (generated : Nat → Vec3d K) (drand48 : Nat → Drand48 K)
  | SetLaserSensorPose (laserPose : Vec3d K)
  | UpdateUwb (input : UwbInput K) (uwbCov : Option (Vec3d K))
  | Update (input : UpdateInput K)

variable {K : Type*} [Field K] [LinearOrder K]

/-- `Normalize`. -/
def normalize (lib : Libm K) (z : K) : K :=
  lib.atan2 (lib.sin z) (lib.cos z)

/-- `AngleDiff`. -/
def angleDiff (lib : Libm K) (a b : K) : K :=
  let d1 := normalize lib a - normalize lib b
  let d2 := 2 * lib.pi - |d1|
  let d2 := if d1 > 0 then -d2 else d2
  if |d1| < |d2| then d1 else d2

/-- `EuclideanDistance`. -/
def euclideanDistance (lib : Libm K) (x1 y1 x2 y2 : K) : K :=
  lib.sqrt ((x1 - x2) ^ 2 + (y1 - y2) ^ 2)

/-- `SensorOdom::UpdateAction` on the pose of a sample. -/
def updateAction (lib : Libm K) (alpha : Fin 5 → K) (odomPose delta noise pose : Vec3d K) :
    Vec3d K :=
  let oldYaw := odomPose 2 - delta 2
  let deltaTrans := lib.sqrt (delta 0 * delta 0 + delta 1 * delta 1)
  let deltaRot := delta 2
  let transHatStddev :=
    lib.sqrt (alpha 2 * (deltaTrans * deltaTrans) + alpha 0 * (deltaRot * deltaRot))
  let rotHatStddev :=
    lib.sqrt (alpha 3 * (deltaRot * deltaRot) + alpha 1 * (deltaTrans * deltaTrans))
  let strafeHatStddev :=
    lib.sqrt (alpha 0 * (deltaRot * deltaRot) + alpha 4 * (deltaTrans * deltaTrans))
  let deltaBearing := angleDiff lib (lib.atan2 (delta 1) (delta 0)) oldYaw + pose 2
  let csBearing := lib.cos deltaBearing
  let snBearing := lib.sin deltaBearing
  let deltaTransHat := deltaTrans + transHatStddev * noise 0
  let deltaRotHat := deltaRot + rotHatStddev * noise 1
  let deltaStrafeHat := strafeHatStddev * noise 2
  ![pose 0 + (deltaTransHat * csBearing + deltaStrafeHat * snBearing),
    pose 1 + (deltaTransHat * snBearing - deltaStrafeHat * csBearing),
    pose 2 + deltaRotHat]

namespace SampleSet

/-- The poses change, each by a function of its position. -/
def mapPoses {K : Type*} (set : SampleSet K) (f : Nat → Vec3d K → Vec3d K) : SampleSet K :=
  { set with samples := set.samples.mapIdx fun i sample => { sample with pose := f i sample.pose } }

end SampleSet

namespace Amcl

/-- `resample_interval_`, which nothing changes. -/
def resampleInterval : Nat := 2

/-- The current set changes. -/
def setCurrentSet {K : Type*} (w : Amcl K) (set : SampleSet K) : Amcl K :=
  { w with pf := w.pf.setSampleSet w.pf.currentSet set }

section Defs

variable (lib : Libm K) (w : Amcl K)

/-- The part of `UpdateUwb` that moves a sample that is far away. -/
def moveFar (input : UwbInput K) (i : Nat) (pose : Vec3d K) : Vec3d K :=
  let distance := euclideanDistance lib (input.uwbPose 0) (input.uwbPose 1) (pose 0) (pose 1)
  if (Ratio.div w.laser.map.diagDistance w.config.resampleUwbFactor).below distance then
    ![input.uwbPose 0 + w.uwbCovX * input.farNoise i 0,
      input.uwbPose 1 + w.uwbCovY * input.farNoise i 1,
      input.uwbPose 2 + lib.pi / 3 * (lib.pi / 3) * input.farNoise i 2]
  else pose

/-- The part of `UpdateUwb` that moves the samples of the least weight. -/
def moveLeast (input : UwbInput K) (i : Nat) (pose : Vec3d K) : Vec3d K :=
  let leastWeightParticleNum := if w.config.maxUwbParticles ≤ 0 then 1 else w.config.maxUwbParticles
  if i < leastWeightParticleNum then
    ![input.uwbPose 0 + w.uwbCovX * input.leastNoise i 0,
      input.uwbPose 1 + w.uwbCovY * input.leastNoise i 1,
      pose 2 + lib.pi / 12 * (lib.pi / 12) * input.leastNoise i 2]
  else pose

/-- The distances of the samples from the pose of the positioning system. -/
def uwbDistances (input : UwbInput K) (set : SampleSet K) : List K :=
  set.samples.map fun sample =>
    euclideanDistance lib (input.uwbPose 0) (input.uwbPose 1) (sample.pose 0) (sample.pose 1)

/-- `UpdateUwb`. -/
def updateUwb (input : UwbInput K) : Except Failure (Amcl K) :=
  let moved := w.pf.getCurrentSampleSet.mapPoses (w.moveFar lib input)
  let distance := uwbDistances lib input moved
  let total := distance.sum
  if total > 0 then
    let weighed := moved.mapWeights fun j weight =>
      weight * ((total - distance.getD j 0) / total)
    let sorted := { weighed with samples := input.sorter.sort weighed.samples }
    .ok (w.setCurrentSet (sorted.mapPoses (w.moveLeast lib input)))
  else .error .check

/-- `UpdateOdomPoseData`. -/
def updateOdomPoseData (input : UpdateInput K) : Amcl K :=
  if ¬ w.pfInit then
    { w with pfOdomPose := input.pose, pfInit := true, laserUpdate := true, resampleCount := 0 }
  else
    let delta : Vec3d K := ![input.pose 0 - w.pfOdomPose 0, input.pose 1 - w.pfOdomPose 1,
      angleDiff lib (input.pose 2) (w.pfOdomPose 2)]
    let update := |delta 0| > w.config.updateMinD ∨ |delta 1| > w.config.updateMinD ∨
      |delta 2| > w.config.updateMinA
    let w := if update then { w with laserUpdate := true } else w
    if w.laserUpdate then
      w.setCurrentSet (w.pf.getCurrentSampleSet.mapPoses fun i pose =>
        updateAction lib w.config.odomAlpha input.pose delta (input.noise i) pose)
    else w

/-- The `laser_data` of `UpdateLaser`. -/
def laserData (input : UpdateInput K) : SensorLaserData K :=
  let scan := input.scan
  let rangeMax :=
    if w.config.laserMaxRange > 0 then min scan.rangeMax w.config.laserMaxRange else scan.rangeMax
  let rangeMin :=
    if w.config.laserMinRange > 0 then max scan.rangeMin w.config.laserMinRange else scan.rangeMin
  { rangeMax := rangeMax
    ranges := scan.ranges.mapIdx fun i range =>
      (range.map fun r => if r ≤ rangeMin then rangeMax else r,
        input.angleMin + i * input.angleIncrement) }

variable [FloorRing K]

/-- `UpdateLaser` up to `UpdateOmega`. -/
def weigh (input : UpdateInput K) : Except Failure (Amcl K) := do
  let (totalWeight, set, laser) ←
    w.laser.updateSensor lib (w.laserData input) input.contents w.pf.getCurrentSampleSet
  let pf := (w.pf.setSampleSet w.pf.currentSet set).updateOmega totalWeight
  pure { w with pf := pf, laser := laser, laserUpdate := false, pfOdomPose := input.pose }

/-- `ResampleParticles`. -/
def resampleParticles (draws : ResampleDraws K) : Except Failure (Amcl K) := do
  let w := { w with resampleCount := w.resampleCount + 1 }
  if w.resampleCount % resampleInterval = 0 then do
    let pf ← w.pf.updateResample lib draws
    pure { w with pf := pf }
  else pure w

/-- `Update`. -/
def update (input : UpdateInput K) : Except Failure (Amcl K) := do
  let w := w.updateOdomPoseData lib input
  if w.laserUpdate then do
    let w ← w.weigh lib input
    w.resampleParticles lib input.draws
  else pure w

/-- An initialisation of the filter. -/
def restart (initBy : ParticleFilter K → Except Failure (ParticleFilter K)) :
    Except Failure (Amcl K) := do
  let pf ← initBy w.pf
  pure { w with pf := pf, pfInit := false }

/-- A call. -/
def call : AmclCall K → Except Failure (Amcl K)
  | .HandleInitialPoseMessage generated => w.restart (·.initByGuassian generated)
  | .GlobalLocalization initFn => w.restart (·.initByModel initFn)
  | .RandomHeadingGlobalLocalization generated drand48 =>
      w.restart (·.initByGuassianWithRandomHeading lib generated drand48)
  | .SetLaserSensorPose laserPose =>
      .ok { w with laser := { w.laser with laserPose := laserPose }, laserUpdate := true }
  | .UpdateUwb input none => w.updateUwb lib input
  | .UpdateUwb input (some uwbCov) =>
      { w with uwbCovX := uwbCov 0, uwbCovY := uwbCov 1 }.updateUwb lib input
  | .Update input => w.update lib input

/-- Calls one after the other. -/
def run (calls : List (AmclCall K)) : Except Failure (Amcl K) :=
  calls.foldlM (fun w call => w.call lib call) w

end Defs

section Start

variable [FloorRing K]

/-- The filter that `HandleMapMessage` makes, with the poses of its first initialisation. The ones
that follow in `HandleMapMessage` are calls of their own. -/
def handleMapMessage (lib : Libm K) (config : AmclConfig K) (laser : SensorLaser K)
    (generated : Nat → Vec3d K) : Except Failure (Amcl K) := do
  let pf := ParticleFilter.new lib config.minParticles config.maxParticles config.recoveryAlphaSlow
    config.recoveryAlphaFast
  let pf ← (pf.setKldParam config.kldErr config.kldZ).initByGuassian generated
  pure
    { config := config
      uwbCovX := config.uwbCovX
      uwbCovY := config.uwbCovY
      resampleCount := 0
      pfOdomPose := 0
      pf := pf
      pfInit := false
      laser := { laser with tempObs := fun _ _ => 0, maxSamples := 0, maxObs := 0 }
      laserUpdate := true }

end Start

end Amcl

end RoboRTS.Localization
