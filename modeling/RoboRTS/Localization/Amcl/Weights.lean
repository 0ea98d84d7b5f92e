import RoboRTS.Localization.Amcl.Defs
import Mathlib.Data.List.Perm.Basic
import Mathlib.Data.List.Sort
import Mathlib.Data.Rat.Floor

/-!
# The weights over a run of the localisation

`AmclInv` holds after any calls: no weight is negative, no probability kept by the laser model is,
and the trees are within their limits. It does not say that the weights sum to one, which
`UpdateUwb` breaks. Whenever `UpdateResample` is called, `UpdateOmega` has just been (`weigh_spec`),
so the weights are a distribution then, and the new set has equal weights (`run_resamples`).
-/

namespace RoboRTS.Localization

open CumulativeTable Outcome

variable {K : Type*} [Field K] [LinearOrder K]

/-- What holds after any calls. -/
structure AmclInv (config : AmclConfig K) (w : Amcl K) : Prop where
  maxSamples : w.pf.maxSamples = config.maxParticles
  filter : FilterInv w.pf
  laser : w.laser.LaserInv

variable {config : AmclConfig K} {lib : Libm K} {w : Amcl K} {set : SampleSet K} {maxSamples : Nat}

/-- The poses do not matter. -/
theorem SetInv.mapPoses (h : SetInv maxSamples set) (f : Nat → Vec3d K → Vec3d K) :
    SetInv maxSamples (set.mapPoses f) := by
  have hlength : (set.mapPoses f).samples.length = set.samples.length := List.length_mapIdx
  have hweights : (set.mapPoses f).weights = set.weights := by
    refine List.ext_getElem? fun i => ?_
    simp only [SampleSet.weights, SampleSet.mapPoses, List.getElem?_map, List.getElem?_mapIdx,
      Option.map_map]
    rfl
  exact ⟨hlength ▸ h.pos, hlength ▸ h.size, hweights ▸ h.nonneg, h.limit, h.nodes⟩

/-- Nor does the order of the samples. -/
theorem SetInv.perm (h : SetInv maxSamples set) {samples : List (Sample K)}
    (hperm : samples.Perm set.samples) : SetInv maxSamples { set with samples := samples } := by
  have hlength := hperm.length_eq
  refine ⟨hlength ▸ h.pos, hlength ▸ h.size, fun w hw => ?_, h.limit, h.nodes⟩
  exact h.nonneg w ((hperm.map _).mem_iff.mp hw)

theorem AmclInv.setCurrentSet (h : AmclInv config w) (hset : SetInv w.pf.maxSamples set) :
    AmclInv config (w.setCurrentSet set) :=
  ⟨h.maxSamples, h.filter.setSampleSet _ hset, h.laser⟩

/-! ## The steps of the calls -/

theorem updateOdomPoseData_inv (lib : Libm K) (h : AmclInv config w) (input : UpdateInput K) :
    AmclInv config (w.updateOdomPoseData lib input) := by
  unfold Amcl.updateOdomPoseData
  split
  · exact ⟨h.maxSamples, h.filter, h.laser⟩
  · dsimp only
    split_ifs
    · exact ⟨h.maxSamples, h.filter.setSampleSet _ (h.filter.current.mapPoses _), h.laser⟩
    · exact ⟨h.maxSamples, h.filter, h.laser⟩
    · exact h.setCurrentSet (h.filter.current.mapPoses _)
    · exact h

variable [IsStrictOrderedRing K]

/-- Distances are not negative. -/
theorem euclideanDistance_nonneg (hsqrt : ∀ x, 0 ≤ x → 0 ≤ lib.sqrt x) (x1 y1 x2 y2 : K) :
    0 ≤ euclideanDistance lib x1 y1 x2 y2 :=
  hsqrt _ (add_nonneg (sq_nonneg _) (sq_nonneg _))

theorem uwbDistances_nonneg (hsqrt : ∀ x, 0 ≤ x → 0 ≤ lib.sqrt x) (input : UwbInput K)
    (set : SampleSet K) : ∀ d ∈ Amcl.uwbDistances lib input set, 0 ≤ d := by
  intro d hd
  obtain ⟨sample, -, rfl⟩ := List.mem_map.mp hd
  exact euclideanDistance_nonneg hsqrt _ _ _ _

/-- One of several distances is at most their sum. -/
theorem getD_le_sum {distance : List K} (h : ∀ d ∈ distance, 0 ≤ d) (j : Nat) :
    distance.getD j 0 ≤ distance.sum := by
  rw [List.getD_eq_getElem?_getD]
  cases hj : distance[j]? with
  | none => exact List.sum_nonneg h
  | some d => exact List.single_le_sum h d (List.mem_of_getElem? hj)

/-- `UpdateUwb` scales the weights by numbers between zero and one. -/
theorem updateUwb_spec (hsqrt : ∀ x, 0 ≤ x → 0 ≤ lib.sqrt x) (h : AmclInv config w)
    (input : UwbInput K) : Returns (· ≠ .assertion) (AmclInv config) (w.updateUwb lib input) := by
  unfold Amcl.updateUwb
  dsimp only
  split
  · next htotal =>
      have hmoved := h.filter.current.mapPoses (w.moveFar lib input)
      have hdistance := uwbDistances_nonneg hsqrt input
        (w.pf.getCurrentSampleSet.mapPoses (w.moveFar lib input))
      generalize Amcl.uwbDistances lib input _ = distance at htotal hdistance ⊢
      have hfactor : ∀ j weight, 0 ≤ weight →
          0 ≤ weight * ((distance.sum - distance.getD j 0) / distance.sum) :=
        fun j weight hweight =>
          mul_nonneg hweight (div_nonneg (sub_nonneg.mpr (getD_le_sum hdistance j)) htotal.le)
      exact h.setCurrentSet (((hmoved.mapWeights hfactor).perm (input.sorter.perm _)).mapPoses _)
  · exact fun h => nomatch h

variable [FloorRing K]

/-- After `UpdateOmega` the weights are a distribution. -/
theorem weigh_spec (h : AmclInv config w) (input : UpdateInput K) :
    Returns (· ≠ .assertion)
      (fun w' => AmclInv config w' ∧ Distribution w'.pf.getCurrentSampleSet.weights)
      (w.weigh lib input) := by
  unfold Amcl.weigh
  refine (SensorLaser.updateSensor_spec input.contents h.laser h.filter.current).bind ?_
  rintro ⟨total, set, laser⟩ ⟨hset, hlaser, htotal⟩
  have hfilter : FilterInv (w.pf.setSampleSet w.pf.currentSet set) :=
    h.filter.setSampleSet _ hset
  have hmax : ((w.pf.setSampleSet w.pf.currentSet set).updateOmega total).maxSamples =
      w.pf.maxSamples := by
    unfold ParticleFilter.updateOmega
    dsimp only
    split <;> rfl
  refine ⟨⟨hmax.trans h.maxSamples, updateOmega_inv hfilter total, hlaser⟩,
    updateOmega_distribution hfilter total fun hpos => ?_⟩
  exact (htotal hpos).trans (congrArg _ (congrArg _ getCurrentSampleSet_setSampleSet.symm))

/-- `ResampleParticles` on a distribution. -/
theorem resampleParticles_spec (lib : Libm K) (hmax : 1 ≤ config.maxParticles) (h : AmclInv config w)
    (hdistribution : Distribution w.pf.getCurrentSampleSet.weights) (draws : ResampleDraws K) :
    ∃ w', w.resampleParticles lib draws = .ok w' ∧ AmclInv config w' := by
  unfold Amcl.resampleParticles
  dsimp only
  split
  · obtain ⟨pf, hresample, hfilter, hsame, -⟩ :=
      updateResample_spec lib draws h.filter (h.maxSamples ▸ hmax) hdistribution
    rw [hresample]
    exact ⟨_, rfl, hsame.trans h.maxSamples, hfilter, h.laser⟩
  · exact ⟨_, rfl, h.maxSamples, h.filter, h.laser⟩

theorem update_spec (hmax : 1 ≤ config.maxParticles) (h : AmclInv config w)
    (input : UpdateInput K) : Returns (· ≠ .assertion) (AmclInv config) (w.update lib input) := by
  have hodom := updateOdomPoseData_inv lib h input
  unfold Amcl.update
  dsimp only
  split
  · refine (weigh_spec hodom input).bind fun w₁ hw₁ => ?_
    obtain ⟨w', hresample, hinv⟩ :=
      resampleParticles_spec lib hmax hw₁.1 hw₁.2 input.draws
    rw [hresample]
    exact hinv
  · exact hodom

/-- An initialisation. -/
theorem restart_spec (hmax : 1 ≤ config.maxParticles) (h : AmclInv config w)
    (poses : Nat → Vec3d K) :
    Returns (· ≠ .assertion) (AmclInv config) (w.restart (·.initSamples poses)) := by
  obtain ⟨pf, hinit, hfilter, hsame⟩ := initSamples_spec h.filter (h.maxSamples ▸ hmax) poses
  unfold Amcl.restart
  dsimp only
  rw [hinit]
  exact ⟨hsame.trans h.maxSamples, hfilter, h.laser⟩

/-- Every call keeps the invariant. -/
theorem call_spec (hsqrt : ∀ x, 0 ≤ x → 0 ≤ lib.sqrt x) (hmax : 1 ≤ config.maxParticles)
    (h : AmclInv config w) (call : AmclCall K) :
    Returns (· ≠ .assertion) (AmclInv config) (w.call lib call) := by
  cases call with
  | HandleInitialPoseMessage generated => exact restart_spec hmax h generated
  | GlobalLocalization initFn => exact restart_spec hmax h initFn
  | RandomHeadingGlobalLocalization generated drand48 => exact restart_spec hmax h _
  | SetLaserSensorPose laserPose => exact ⟨h.maxSamples, h.filter, h.laser⟩
  | UpdateUwb input uwbCov =>
      cases uwbCov with
      | none => exact updateUwb_spec hsqrt h input
      | some cov =>
          have hcov : AmclInv config { w with uwbCovX := cov 0, uwbCovY := cov 1 } :=
            ⟨h.maxSamples, h.filter, h.laser⟩
          exact updateUwb_spec hsqrt hcov input
  | Update input => exact update_spec hmax h input

/-- So do any number of them. -/
theorem run_spec (hsqrt : ∀ x, 0 ≤ x → 0 ≤ lib.sqrt x) (hmax : 1 ≤ config.maxParticles)
    (calls : List (AmclCall K)) (h : AmclInv config w) :
    Returns (· ≠ .assertion) (AmclInv config) (w.run lib calls) := by
  induction calls generalizing w with
  | nil => exact h
  | cons call calls ih =>
      unfold Amcl.run
      rw [List.foldlM_cons]
      exact (call_spec hsqrt hmax h call).bind fun w₁ hw₁ => ih hw₁

theorem handleMapMessage_inv (lib : Libm K) (hmax : 1 ≤ config.maxParticles) (laser : SensorLaser K)
    (generated : Nat → Vec3d K) :
    ∃ w, Amcl.handleMapMessage lib config laser generated = .ok w ∧ AmclInv config w := by
  have hnew : FilterInv ((ParticleFilter.new lib config.minParticles config.maxParticles
      config.recoveryAlphaSlow config.recoveryAlphaFast).setKldParam config.kldErr config.kldZ) :=
    new_inv lib config.minParticles hmax config.recoveryAlphaSlow config.recoveryAlphaFast
  obtain ⟨pf, hinit, hfilter, hsame⟩ := initSamples_spec hnew hmax generated
  unfold Amcl.handleMapMessage ParticleFilter.initByGuassian
  dsimp only
  rw [hinit]
  exact ⟨_, rfl, hsame, hfilter, fun _ _ => le_rfl⟩

/-! ## Over a run -/

/-- `UpdateResample` is called on the filter when `Update` is. -/
def CallsUpdateResample (lib : Libm K) (w : Amcl K) (input : UpdateInput K) (pf : ParticleFilter K) :
    Prop :=
  ∃ w₁, (w.updateOdomPoseData lib input).laserUpdate = true ∧
    (w.updateOdomPoseData lib input).weigh lib input = .ok w₁ ∧
    (w₁.resampleCount + 1) % Amcl.resampleInterval = 0 ∧ pf = w₁.pf

/-- What a call of `UpdateResample` starts from and what it leaves. -/
structure Resamples (lib : Libm K) (maxSamples : Nat) (pf : ParticleFilter K)
    (draws : ResampleDraws K) : Prop where
  distribution : Distribution pf.getCurrentSampleSet.weights
  drawn : ∀ r, 0 ≤ r → r < 1 → ∃! i, i < pf.getCurrentSampleSet.samples.length ∧
    InBucket pf.getCurrentSampleSet.weights r i
  positive : ∀ r i, InBucket pf.getCurrentSampleSet.weights r i →
    0 < pf.getCurrentSampleSet.weights.getD i 0
  resampled : ∃ pf', pf.updateResample lib draws = .ok pf' ∧
    Resampled maxSamples pf'.getCurrentSampleSet

/-- The trees of both sets are within their limit. -/
def WithinLimit (pf : ParticleFilter K) : Prop :=
  ∀ i, (pf.sampleSets i).kdTree.nodeCount ≤ (pf.sampleSets i).kdTree.nodeMaxCount

theorem resamples_of_distribution (hmax : 1 ≤ config.maxParticles) (h : AmclInv config w)
    (hdistribution : Distribution w.pf.getCurrentSampleSet.weights) (draws : ResampleDraws K) :
    Resamples lib config.maxParticles w.pf draws := by
  constructor
  case distribution => exact hdistribution
  case drawn =>
    intro r hr hlt
    rw [← length_weights]
    exact existsUnique_bucket hdistribution.nonneg hr (hdistribution.sum ▸ hlt)
  case positive => exact fun r i hbucket => hbucket.pos
  case resampled =>
    obtain ⟨pf', hresample, -, -, hresampled⟩ :=
      updateResample_spec lib draws h.filter (h.maxSamples ▸ hmax) hdistribution
    exact ⟨pf', hresample, h.maxSamples ▸ hresampled⟩

/-- After any calls on a new filter: no call fails with an assertion, the trees are within their
limits, and whenever `UpdateResample` is called, it draws from a distribution and leaves a set of
equal weights. -/
theorem run_resamples (lib : Libm K) (hsqrt : ∀ x, 0 ≤ x → 0 ≤ lib.sqrt x) (config : AmclConfig K)
    (hmax : 1 ≤ config.maxParticles) (laser : SensorLaser K) (generated : Nat → Vec3d K)
    (calls : List (AmclCall K)) :
    Returns (· ≠ .assertion)
      (fun w => WithinLimit w.pf ∧
        (∀ call, w.call lib call ≠ .error .assertion) ∧
        ∀ input pf, CallsUpdateResample lib w input pf →
          Resamples lib config.maxParticles pf input.draws)
      (do let w ← Amcl.handleMapMessage lib config laser generated
          w.run lib calls) := by
  obtain ⟨w₀, hstart, hinv₀⟩ := handleMapMessage_inv lib hmax laser generated
  rw [hstart]
  have hrun := run_spec hsqrt hmax calls hinv₀
  show Returns _ _ (w₀.run lib calls)
  cases hw : w₀.run lib calls with
  | error e => exact hrun.of_eq_error hw
  | ok w =>
      have hinv := hrun.of_eq_ok hw
      refine ⟨fun i => (hinv.filter i).nodes, fun call hfails => ?_, ?_⟩
      · exact (call_spec hsqrt hmax hinv call).of_eq_error hfails rfl
      · rintro input _ ⟨w₁, -, hweigh, -, rfl⟩
        have hodom := updateOdomPoseData_inv lib hinv input
        obtain ⟨hinv₁, hdistribution⟩ := (weigh_spec hodom input).of_eq_ok hweigh
        exact resamples_of_distribution hmax hinv₁ hdistribution input.draws

/-! ### A run with two particles -/

/-- The functions of the library at zero, and the root at zero and one. -/
def libmAtOrigin : Libm ℚ where
  pi := 22 / 7
  sqrt := id
  sin _ := 0
  cos _ := 1
  exp _ := 1
  atan2 _ _ := 0

/-- A filter with one sample. -/
def oneParticle : AmclConfig ℚ where
  minParticles := 1
  maxParticles := 1
  recoveryAlphaSlow := 0
  recoveryAlphaFast := 0
  kldErr := 1 / 10
  kldZ := 1
  odomAlpha _ := 0
  updateMinD := 1
  updateMinA := 1
  maxUwbParticles := 0
  resampleUwbFactor := 4
  uwbCovX := 0
  uwbCovY := 0
  laserMinRange := 0
  laserMaxRange := 0

def laserAtOrigin : SensorLaser ℚ where
  map := ⟨1, 1, 1, 0, 0, 1, 1, fun _ => 0⟩
  laserPose := 0
  maxBeams := 2
  doBeamskip := false
  beamSkipDistance := 0
  beamSkipThreshold := 0
  beamSkipErrorThreshold := 0
  zHit := 1 / 2
  zRand := 1 / 2
  sigmaHit := 1
  tempObs _ _ := 0
  maxSamples := 0
  maxObs := 0

/-- An `Update` with a scan without ranges. -/
def updateAtOrigin : UpdateInput ℚ where
  pose := 0
  scan := ⟨0, 1, []⟩
  angleMin := 0
  angleIncrement := 0
  noise _ := 0
  contents _ := 0
  draws := ⟨fun _ => ⟨0, by decide, by decide⟩, fun _ => ⟨0, by decide, by decide⟩, fun _ => 0⟩

/-- `std::sort` may be an insertion sort. -/
def weightSorter : Sorter ℚ where
  sort l := l.insertionSort fun a b => a.weight ≤ b.weight
  perm l := List.perm_insertionSort _ l
  sorted l := by
    have htotal : Std.Total fun a b : Sample ℚ => a.weight ≤ b.weight := ⟨fun a b => le_total _ _⟩
    have htrans : IsTrans (Sample ℚ) fun a b => a.weight ≤ b.weight := ⟨fun a b c => le_trans⟩
    exact (List.pairwise_insertionSort _ l).imp fun h => not_lt.mpr h

/-- A laser on a map with occupied cells at (1, 0) and (2, 0). -/
def laserAtWall : SensorLaser ℚ :=
  { laserAtOrigin with map := ⟨5, 12, 1, 0, 0, 1, 13, fun k => if k = 33 ∨ k = 34 then 0 else 1⟩ }

/-- An `Update` with two ranges of one meter. -/
def updateAtWall : UpdateInput ℚ :=
  { updateAtOrigin with scan := ⟨0, 2, [some 1, some 1]⟩ }

/-- Calls on particles at (0, 0) and (1, 0), of which `UpdateUwb` leaves the first no weight. -/
def callsAtWall : List (AmclCall ℚ) :=
  [.Update updateAtWall, .UpdateUwb ⟨![1, 0, 0], weightSorter, fun _ => 0, fun _ => 0⟩ none,
    .SetLaserSensorPose 0]

/-- The run up to its second `Update`. -/
def runAtWall : Except Failure (Amcl ℚ) := do
  let w ← Amcl.handleMapMessage libmAtOrigin { oneParticle with maxParticles := 2 } laserAtWall
    fun i => ![i, 0, 0]
  w.run libmAtOrigin callsAtWall

/-- The weights that an `Update` resamples from, if it does. -/
def resampledAtWall (w : Amcl ℚ) : Option (List ℚ) :=
  let w := w.updateOdomPoseData libmAtOrigin updateAtWall
  match w.weigh libmAtOrigin updateAtWall with
  | .ok w₁ =>
      if w.laserUpdate && (w₁.resampleCount + 1) % Amcl.resampleInterval = 0 then
        some w₁.pf.getCurrentSampleSet.weights
      else none
  | .error _ => none

/-- The second `Update` resamples, from the second particle only. -/
theorem run_resamples_wall :
    ∃ w pf, runAtWall = .ok w ∧ CallsUpdateResample libmAtOrigin w updateAtWall pf ∧
      pf.getCurrentSampleSet.weights = [0, 1] ∧
      Resamples libmAtOrigin 2 pf updateAtWall.draws := by
  have hreturns : Returns _ _ runAtWall :=
    run_resamples libmAtOrigin (fun _ hx => hx) { oneParticle with maxParticles := 2 } (by decide)
      laserAtWall (fun i => ![i, 0, 0]) callsAtWall
  have hready : runAtWall.toOption.bind resampledAtWall = some [0, 1] := by decide +kernel
  cases hrun : runAtWall with
  | error e =>
      rw [hrun] at hready
      cases hready
  | ok w =>
      rw [hrun] at hready hreturns
      have hready : resampledAtWall w = some [0, 1] := hready
      unfold resampledAtWall at hready
      dsimp only at hready
      split at hready
      · next w₁ hweigh =>
          split at hready
          · next hresample =>
              rw [Bool.and_eq_true, decide_eq_true_eq] at hresample
              have hcalls : CallsUpdateResample libmAtOrigin w updateAtWall w₁.pf :=
                ⟨w₁, hresample.1, hweigh, hresample.2, rfl⟩
              exact ⟨w, w₁.pf, rfl, hcalls, Option.some.inj hready,
                hreturns.2.2 updateAtWall w₁.pf hcalls⟩
          · cases hready
      · cases hready

end RoboRTS.Localization
