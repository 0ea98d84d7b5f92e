import RoboRTS.Lib.CumulativeTable
import RoboRTS.Localization.ParticleFilter.KDTree

/-!
# The particle filter

`ParticleFilter` with its two sets of samples, in exact arithmetic over an ordered field. A set is
the list of its first `sample_count` samples; what the vector holds behind them is written before it
is read. Random numbers and random poses are arguments, numbered by the sample they are drawn for.

The cluster statistics are left out, of which nothing that is modelled here depends.
-/

namespace RoboRTS.Localization

open CumulativeTable

/-- The functions of the mathematical library, and `M_PI`. -/
structure Libm (K : Type*) where
  pi : K
  sqrt : K → K
  sin : K → K
  cos : K → K
  exp : K → K
  atan2 : K → K → K

/-- The value of a quotient of numbers: over zero it is infinite, or not a number. -/
inductive Ratio (K : Type*) where
  | number (x : K)
  | infinite (negative : Bool)
  | nan

/-- `ParticleFilterSample`. -/
structure Sample (K : Type*) where
  pose : Vec3d K
  weight : K

/-- `ParticleFilterSampleSet`. -/
structure SampleSet (K : Type*) where
  samples : List (Sample K)
  kdTree : KDTree K
  converged : Bool

/-- `ParticleFilter`. -/
structure ParticleFilter (K : Type*) where
  minSamples : Int
  maxSamples : Nat
  popErr : K
  popZ : K
  distThreshold : K
  alphaSlow : K
  alphaFast : K
  sampleSets : Fin 2 → SampleSet K
  currentSet : Fin 2
  wSlow : K
  wFast : K

variable {K : Type*}

section Ratio

variable [Field K] [LinearOrder K]

namespace Ratio

def div (a b : K) : Ratio K :=
  if b ≠ 0 then .number (a / b)
  else if a = 0 then .nan
  else .infinite (a < 0)

/-- `1.0 - q`. -/
def oneSub : Ratio K → Ratio K
  | .number x => .number (1 - x)
  | .infinite negative => .infinite !negative
  | .nan => .nan

/-- `x < q`. -/
def above (x : K) : Ratio K → Bool
  | .number y => x < y
  | .infinite negative => !negative
  | .nan => false

/-- `q < x`. -/
def below (x : K) : Ratio K → Bool
  | .number y => y < x
  | .infinite negative => negative
  | .nan => false

end Ratio

end Ratio

/-- What `drand48` returns. -/
def Drand48 (K : Type*) [Zero K] [One K] [LE K] [LT K] :=
  { r : K // 0 ≤ r ∧ r < 1 }

/-- What is drawn for the samples of a new set: the number that is compared with `w_diff`, the one
that is looked up in the cumulative table, and the pose of `random_pose_func_`. -/
structure ResampleDraws (K : Type*) [Zero K] [One K] [LE K] [LT K] where
  coin : Nat → Drand48 K
  pick : Nat → Drand48 K
  randomPose : Nat → Vec3d K

namespace SampleSet

def weights (set : SampleSet K) : List K :=
  set.samples.map (·.weight)

/-- The weights change, each by a function of its position. -/
def mapWeights (set : SampleSet K) (f : Nat → K → K) : SampleSet K :=
  { set with
    samples := set.samples.mapIdx fun i sample => { sample with weight := f i sample.weight } }

variable [Field K] [LinearOrder K]

/-- The pose of the sample that a number draws. -/
def draw (set : SampleSet K) (r : K) : Except Failure (Vec3d K) :=
  match set.samples[bucket set.weights r]? with
  | none => .error .assertion
  | some sample => if sample.weight > 0 then .ok sample.pose else .error .assertion

/-- `UpdateConverged`. -/
def updateConverged (set : SampleSet K) (distThreshold : K) : SampleSet K :=
  let meanX := (set.samples.map fun sample => sample.pose 0).sum / set.samples.length
  let meanY := (set.samples.map fun sample => sample.pose 1).sum / set.samples.length
  { set with
    converged := set.samples.all fun sample =>
      ¬ (|sample.pose 0 - meanX| > distThreshold ∨ |sample.pose 1 - meanY| > distThreshold) }

end SampleSet

namespace ParticleFilter

section Defs

variable [Field K] [LinearOrder K]

/-- The constructor. -/
def new (lib : Libm K) (minSamples : Int) (maxSamples : Nat) (alphaSlow alphaFast : K) :
    ParticleFilter K where
  minSamples := minSamples
  maxSamples := maxSamples
  popErr := 1 / 100
  popZ := 3
  distThreshold := 1 / 2
  alphaSlow := alphaSlow
  alphaFast := alphaFast
  sampleSets _ :=
    { samples := List.replicate maxSamples ⟨0, 1 / maxSamples⟩
      kdTree := .initializeByMaxSize lib.pi (3 * maxSamples)
      converged := false }
  currentSet := 0
  wSlow := 0
  wFast := 0

/-- `SetKldParam`. -/
def setKldParam (pf : ParticleFilter K) (popErr popZ : K) : ParticleFilter K :=
  { pf with popErr := popErr, popZ := popZ }

/-- `GetCurrentSampleSetPtr`. -/
def getCurrentSampleSet (pf : ParticleFilter K) : SampleSet K :=
  pf.sampleSets pf.currentSet

/-- A set of samples changes. -/
def setSampleSet (pf : ParticleFilter K) (i : Fin 2) (set : SampleSet K) : ParticleFilter K :=
  { pf with sampleSets := Function.update pf.sampleSets i set }

/-- `UpdateOmega`. -/
def updateOmega (pf : ParticleFilter K) (totalWeight : K) : ParticleFilter K :=
  let set := pf.getCurrentSampleSet
  if totalWeight > 0 then
    let wAvg := set.weights.sum / set.samples.length
    { pf.setSampleSet pf.currentSet (set.mapWeights fun _ weight => weight / totalWeight) with
      wSlow := if pf.wSlow = 0 then wAvg else pf.wSlow + pf.alphaSlow * (wAvg - pf.wSlow)
      wFast := if pf.wFast = 0 then wAvg else pf.wFast + pf.alphaFast * (wAvg - pf.wFast) }
  else pf.setSampleSet pf.currentSet (set.mapWeights fun _ _ => 1 / set.samples.length)

variable [FloorRing K]

/-- The loops of the initialisations, with the poses that they generate. -/
def initSamples (pf : ParticleFilter K) (poses : Nat → Vec3d K) :
    Except Failure (ParticleFilter K) := do
  let set := pf.getCurrentSampleSet
  let kdTree ← (List.range pf.maxSamples).foldlM
    (fun (t : KDTree K) i => t.insertPose (poses i) (1 / pf.maxSamples)) set.kdTree.clear
  let initialized :=
    { samples := (List.range pf.maxSamples).map fun i => ⟨poses i, 1 / pf.maxSamples⟩
      kdTree := kdTree
      converged := false }
  pure { pf.setSampleSet pf.currentSet initialized with wSlow := 0, wFast := 0 }

/-- `InitByGuassian`, with the poses that `GenerateSample` returns. -/
def initByGuassian (pf : ParticleFilter K) (generated : Nat → Vec3d K) :
    Except Failure (ParticleFilter K) :=
  pf.initSamples generated

/-- `InitByModel`, with the poses that the function returns. -/
def initByModel (pf : ParticleFilter K) (initFn : Nat → Vec3d K) :
    Except Failure (ParticleFilter K) :=
  pf.initSamples initFn

/-- `InitByGuassianWithRandomHeading`. -/
def initByGuassianWithRandomHeading (lib : Libm K) (pf : ParticleFilter K)
    (generated : Nat → Vec3d K) (drand48 : Nat → Drand48 K) : Except Failure (ParticleFilter K) :=
  pf.initSamples fun i => Function.update (generated i) 2 ((drand48 i).1 * 2 * lib.pi - lib.pi)

/-- `ResampleLimit`. -/
def resampleLimit (lib : Libm K) (pf : ParticleFilter K) (k : Nat) : Int :=
  if k ≤ 1 then pf.maxSamples
  else
    let b := 2 / (9 * ((k : K) - 1))
    let c := lib.sqrt (2 / (9 * ((k : K) - 1))) * pf.popZ
    let x := 1 - b + c
    let n := ⌈((k : K) - 1) / (2 * pf.popErr) * x * x * x⌉
    if n < pf.minSamples then pf.minSamples
    else if n > pf.maxSamples then pf.maxSamples
    else n

/-- `w_diff` of `UpdateResample`. -/
def wDiff (pf : ParticleFilter K) : Ratio K :=
  let diff := (Ratio.div pf.wFast pf.wSlow).oneSub
  if diff.below 0 then .number 0 else diff

/-- The pose of the sample at `n`: a random pose, or the pose of a sample of the current set. -/
def newPose (pf : ParticleFilter K) (draws : ResampleDraws K) (n : Nat) :
    Except Failure (Vec3d K) :=
  if pf.wDiff.above (draws.coin n).1 then .ok (draws.randomPose n)
  else pf.getCurrentSampleSet.draw (draws.pick n).1

/-- The loop of `UpdateResample`, with the number of samples that there is still room for: the new
set and the total of its weights. -/
def drawSamples (lib : Libm K) (pf : ParticleFilter K) (draws : ResampleDraws K) :
    Nat → SampleSet K × K → Except Failure (SampleSet K × K)
  | 0, drawn => .ok drawn
  | room + 1, (setB, total) => do
      let n := setB.samples.length
      let pose ← pf.newPose draws n
      let kdTree ← setB.kdTree.insertPose pose 1
      let setB := { setB with samples := setB.samples ++ [⟨pose, 1⟩], kdTree := kdTree }
      if (setB.samples.length : Int) > pf.resampleLimit lib kdTree.leafCount then
        pure (setB, total + 1)
      else drawSamples lib pf draws room (setB, total + 1)

/-- `UpdateResample`. -/
def updateResample (lib : Libm K) (pf : ParticleFilter K) (draws : ResampleDraws K) :
    Except Failure (ParticleFilter K) := do
  let other := pf.currentSet + 1
  let cleared : SampleSet K :=
    { pf.sampleSets other with samples := [], kdTree := (pf.sampleSets other).kdTree.clear }
  let (drawn, total) ← pf.drawSamples lib draws pf.maxSamples (cleared, 0)
  let setB := drawn.mapWeights fun _ weight => weight / total
  let reset := pf.wDiff.above 0
  pure { pf.setSampleSet other (setB.updateConverged pf.distThreshold) with
    currentSet := other
    wSlow := if reset then 0 else pf.wSlow
    wFast := if reset then 0 else pf.wFast }

end Defs

end ParticleFilter

end RoboRTS.Localization
