import RoboRTS.Lib.Outcome
import RoboRTS.Localization.ParticleFilter.Resample
import Mathlib.Algebra.Order.BigOperators.GroupWithZero.List

/-!
# The laser model

`LikelihoodFieldModelProb` multiplies the weight of every sample by the probabilities of its beams.
The sum of the logarithms that it takes the exponential of is a product here. With beam skipping
the probabilities go through `temp_obs_`, which keeps those of earlier scans for the beams that are
ignored in this one. The weights stay what they should be, and the total that is returned is
theirs (`updateSensor_spec`).
-/

namespace RoboRTS.Localization

open Outcome

/-- What the sensors read of `AmclMap`, `occ_dist` by the index of a cell. -/
structure DistanceMap (K : Type*) where
  sizeX : Nat
  sizeY : Nat
  scale : K
  originX : K
  originY : K
  maxOccDist : K
  diagDistance : K
  occDist : Nat → K

/-- `SensorLaserData`: the ranges, none where the reading is no number or infinite, and bearings. -/
structure SensorLaserData (K : Type*) where
  rangeMax : K
  ranges : List (Option K × K)

/-- `SensorLaser`, with what is in `temp_obs_` or would be with a larger size, and the sizes that it
was given. -/
structure SensorLaser (K : Type*) where
  map : DistanceMap K
  laserPose : Vec3d K
  maxBeams : Int
  doBeamskip : Bool
  beamSkipDistance : K
  beamSkipThreshold : K
  beamSkipErrorThreshold : K
  zHit : K
  zRand : K
  sigmaHit : K
  tempObs : Nat → Nat → K
  maxSamples : Int
  maxObs : Int

/-- A beam that is not ignored: its index, its probability, and whether it ends near an obstacle. -/
structure Beam (K : Type*) where
  ind : Nat
  pz : K
  near : Bool

variable {K : Type*} [Field K] [LinearOrder K] [FloorRing K]

/-- `CoordAdd`. -/
def coordAdd (lib : Libm K) (a b : Vec3d K) : Vec3d K :=
  let yaw := b 2 + a 2
  ![b 0 + a 0 * lib.cos (b 2) - a 1 * lib.sin (b 2),
    b 1 + a 0 * lib.sin (b 2) + a 1 * lib.cos (b 2),
    lib.atan2 (lib.sin yaw) (lib.cos yaw)]

namespace DistanceMap

/-- `ConvertWorldCoordsToMapCoords`. -/
def convertWorldCoordsToMapCoords (m : DistanceMap K) (x y : K) : Int × Int :=
  (⌊(x - m.originX) / m.scale + 1 / 2⌋ + (m.sizeX / 2 : Nat),
    ⌊(y - m.originY) / m.scale + 1 / 2⌋ + (m.sizeY / 2 : Nat))

/-- `CheckMapCoordsValid`. -/
def checkMapCoordsValid (m : DistanceMap K) (i j : Int) : Bool :=
  i ≥ 0 ∧ i < m.sizeX ∧ j ≥ 0 ∧ j < m.sizeY

end DistanceMap

namespace SensorLaser

section Defs

variable (lib : Libm K) (laser : SensorLaser K) (data : SensorLaserData K)

/-- `std::exp(-(z * z) / z_hit_denom)`: over zero the exponent is infinite or not a number. -/
def hitProb (z : K) : Option K :=
  let zHitDenom := 2 * laser.sigmaHit * laser.sigmaHit
  if zHitDenom ≠ 0 then some (lib.exp (-(z * z) / zHitDenom))
  else if z ≠ 0 then some 0
  else none

/-- `z_rand_mult`, if it is a number. -/
def zRandMult : Option K :=
  if data.rangeMax ≠ 0 then some (1 / data.rangeMax) else none

/-- The probability of a beam, and whether it counts in `obs_count`. -/
def beamProb (pose : Vec3d K) (obsRange obsBearing : K) : Except Failure (K × Bool) :=
  let (mi, mj) := laser.map.convertWorldCoordsToMapCoords
    (pose 0 + obsRange * lib.cos (pose 2 + obsBearing))
    (pose 1 + obsRange * lib.sin (pose 2 + obsBearing))
  let valid := laser.map.checkMapCoordsValid mi mj
  let z := if valid then laser.map.occDist (mi + mj * laser.map.sizeX).toNat
    else laser.map.maxOccDist
  match laser.hitProb lib z, zRandMult data with
  | some prob, some mult =>
      let pz := laser.zHit * prob + laser.zRand * mult
      if 0 ≤ pz ∧ pz ≤ 1 then .ok (pz, valid ∧ z < laser.beamSkipDistance) else .error .check
  | _, _ => .error .check

/-- `step`. -/
def beamStep : Nat :=
  max 1 ⌈(data.ranges.length : K) / laser.maxBeams⌉.toNat

/-- The beams of the loop over the ranges that are not ignored, with their index. -/
def usedRanges : List (Nat × K × K) :=
  let step := laser.beamStep data
  (List.range ((data.ranges.length + step - 1) / step)).filterMap fun beamInd => do
    let (range, bearing) ← data.ranges[beamInd * step]?
    let obsRange ← range
    if obsRange ≥ data.rangeMax then none else some (beamInd, obsRange, bearing)

/-- The beams of a sample. -/
def sampleBeams (pose : Vec3d K) : Except Failure (List (Beam K)) :=
  (laser.usedRanges data).mapM fun (beamInd, obsRange, obsBearing) => do
    let (pz, near) ← laser.beamProb lib data (coordAdd lib laser.laserPose pose) obsRange obsBearing
    pure ⟨beamInd, pz, near⟩

/-- `temp_obs_` after the beams of all samples. -/
def updateTempObs (beams : List (List (Beam K))) (j beamInd : Nat) : K :=
  match (beams.getD j []).find? (·.ind = beamInd) with
  | some beam => beam.pz
  | none => laser.tempObs j beamInd

/-- `obs_count`, which starts with what the new array contains. -/
def obsCount (contents : Nat → Int) (beams : List (List (Beam K))) (beamInd : Nat) : Int :=
  contents beamInd + beams.flatten.countP fun beam => beam.ind = beamInd ∧ beam.near

/-- The beams that beam skipping leaves. -/
def keptBeams (obsCount : Nat → Int) (sampleCount : Nat) : List Nat :=
  let beamInds := List.range laser.maxBeams.toNat
  let obsMask := fun beamInd => decide ((obsCount beamInd : K) / sampleCount > laser.beamSkipThreshold)
  let skippedBeamCount := beamInds.countP fun beamInd => ¬ obsMask beamInd
  if (skippedBeamCount : K) ≥ laser.maxBeams * laser.beamSkipErrorThreshold then beamInds
  else beamInds.filter obsMask

/-- `ResetTempData`. -/
def resetTempData (newMaxSamples newMaxObs : Int) : Except Failure (SensorLaser K) :=
  let maxSamples := max laser.maxSamples newMaxSamples
  if maxSamples > 0 ∧ newMaxObs > 0 then
    .ok { laser with maxSamples := maxSamples, maxObs := newMaxObs }
  else .error .check

/-- The part of `LikelihoodFieldModelProb` that makes room in `temp_obs_`. -/
def makeRoom (set : SampleSet K) : Except Failure (SensorLaser K) :=
  if (laser.doBeamskip ∧ set.converged) ∧
      (laser.maxObs < laser.maxBeams ∨ laser.maxSamples < set.samples.length) then
    laser.resetTempData set.samples.length laser.maxBeams
  else .ok laser

/-- `LikelihoodFieldModelProb`: the total weight, the samples, and the laser with `temp_obs_`. -/
def likelihoodFieldModelProb (contents : Nat → Int) (set : SampleSet K) :
    Except Failure (K × SampleSet K × SensorLaser K) := do
  let laser ← laser.makeRoom set
  let beams ← set.samples.mapM fun sample => laser.sampleBeams lib data sample.pose
  if laser.doBeamskip ∧ set.converged then
    let tempObs := laser.updateTempObs beams
    let kept := laser.keptBeams (obsCount contents beams) set.samples.length
    let reweighted := set.mapWeights fun j weight => weight * (kept.map (tempObs j)).prod
    pure (reweighted.weights.sum, reweighted, { laser with tempObs := tempObs })
  else
    let reweighted := set.mapWeights fun j weight =>
      weight * ((beams.getD j []).map (·.pz)).prod
    pure (reweighted.weights.sum, reweighted, laser)

/-- `UpdateSensor`. -/
def updateSensor (contents : Nat → Int) (set : SampleSet K) :
    Except Failure (K × SampleSet K × SensorLaser K) :=
  if laser.maxBeams < 2 then .ok (0, set, laser)
  else laser.likelihoodFieldModelProb lib data contents set

end Defs

/-! ## The weights -/

/-- No probability that is kept from an earlier scan is negative. -/
def LaserInv (laser : SensorLaser K) : Prop :=
  ∀ j beamInd, 0 ≤ laser.tempObs j beamInd

variable {lib : Libm K} {laser : SensorLaser K} {data : SensorLaserData K} {maxSamples : Nat}
  {set : SampleSet K}

theorem beamProb_spec (pose : Vec3d K) (obsRange obsBearing : K) :
    Returns (· ≠ .assertion) (fun out => 0 ≤ out.1)
      (laser.beamProb lib data pose obsRange obsBearing) := by
  unfold beamProb
  dsimp only
  split
  · split
    · next hchecked => exact hchecked.1
    · exact fun h => nomatch h
  · exact fun h => nomatch h

theorem sampleBeams_spec (pose : Vec3d K) :
    Returns (· ≠ .assertion) (fun beams => ∀ beam ∈ beams, 0 ≤ beam.pz)
      (laser.sampleBeams lib data pose) := by
  refine Returns.mapM _ fun range _ => ?_
  exact (beamProb_spec _ _ _).bind fun out hout => hout

omit [FloorRing K] in
theorem nonneg_of_getD {beams : List (List (Beam K))}
    (h : ∀ sample ∈ beams, ∀ beam ∈ sample, 0 ≤ beam.pz) (j : Nat) :
    ∀ beam ∈ beams.getD j [], 0 ≤ beam.pz := by
  rw [List.getD_eq_getElem?_getD]
  cases hj : beams[j]? with
  | none => exact fun beam hbeam => absurd hbeam List.not_mem_nil
  | some sample => exact h sample (List.mem_of_getElem? hj)

omit [FloorRing K] in
theorem updateTempObs_nonneg {beams : List (List (Beam K))} (hlaser : LaserInv laser)
    (h : ∀ sample ∈ beams, ∀ beam ∈ sample, 0 ≤ beam.pz) (j beamInd : Nat) :
    0 ≤ laser.updateTempObs beams j beamInd := by
  unfold updateTempObs
  split
  · next beam hfind => exact nonneg_of_getD h j beam (List.mem_of_find?_eq_some hfind)
  · exact hlaser j beamInd

omit [Field K] [LinearOrder K] [FloorRing K] in
/-- Only the sizes change when room is made. -/
theorem makeRoom_cases (laser : SensorLaser K) (set : SampleSet K) :
    laser.makeRoom set = .error .check ∨ ∃ maxSamples maxObs,
      laser.makeRoom set = .ok { laser with maxSamples := maxSamples, maxObs := maxObs } := by
  unfold makeRoom resetTempData
  dsimp only
  split
  · split
    · exact Or.inr ⟨_, _, rfl⟩
    · exact Or.inl rfl
  · exact Or.inr ⟨_, _, rfl⟩

variable [IsStrictOrderedRing K]

/-- What `UpdateSensor` leaves: the total is that of the weights, or the model is not used. -/
structure Weighed (maxSamples : Nat) (total : K) (set : SampleSet K) (laser : SensorLaser K) :
    Prop where
  setInv : SetInv maxSamples set
  laserInv : LaserInv laser
  total : total > 0 → total = set.weights.sum

theorem updateSensor_spec (contents : Nat → Int) (hlaser : LaserInv laser)
    (hset : SetInv maxSamples set) :
    Returns (· ≠ .assertion) (fun (total, set', laser') => Weighed maxSamples total set' laser')
      (laser.updateSensor lib data contents set) := by
  unfold updateSensor
  split
  · exact ⟨hset, hlaser, fun h => absurd h (lt_irrefl 0)⟩
  · unfold likelihoodFieldModelProb
    rcases laser.makeRoom_cases set with hfails | ⟨maxSamples, maxObs, hroom⟩
    · rw [hfails]
      exact fun h => nomatch h
    rw [hroom]
    refine (Returns.mapM _ fun sample _ => sampleBeams_spec sample.pose).bind fun beams hbeams => ?_
    split
    · refine ⟨hset.mapWeights fun j w hw => mul_nonneg hw (List.prod_nonneg fun pz hpz => ?_),
        fun j beamInd => updateTempObs_nonneg hlaser hbeams j beamInd, fun _ => rfl⟩
      obtain ⟨beamInd, -, rfl⟩ := List.mem_map.mp hpz
      exact updateTempObs_nonneg hlaser hbeams j beamInd
    · refine ⟨hset.mapWeights fun j w hw => mul_nonneg hw (List.prod_nonneg fun pz hpz => ?_),
        hlaser, fun _ => rfl⟩
      obtain ⟨beam, hbeam, rfl⟩ := List.mem_map.mp hpz
      exact nonneg_of_getD hbeams j beam hbeam

end SensorLaser

end RoboRTS.Localization
