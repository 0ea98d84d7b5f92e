import RoboRTS.Lib.StateMachine
import RoboRTS.Lib.Logged
import RoboRTS.Localization.Amcl.Weights
import RoboRTS.Localization.ParticleFilter.ClusterStatistics.Moments
import Mathlib.Data.List.Sort
import Mathlib.Data.List.TakeWhile

/-!
# The published hypothesis

`Amcl` with the cluster statistics of its two sets, and the pose that `UpdateFilter` publishes. The
calls act on the filter as before (`run_amcl`). `ClusterStatistics()` is of the set 0, but the
hypotheses are read from the current set, and it returns early where a sample has left the bins of
the histogram: what is published describes the samples where an `Update` that follows an
initialisation happens with the set 0 and the samples are in their bins (`run_describes`).
-/

namespace RoboRTS.Localization

/-- `AmclHyp`. -/
structure AmclHyp (K : Type) where
  weight : K
  pfPoseMean : Vec3d K
  pfPoseCov : Mat3d K

/-- `HypPose`. -/
structure HypPose (K : Type) where
  poseMean : Vec3d K
  poseSetCov : Mat3d K

/-- What `UpdateFilter` reads and writes: the hypotheses, if it reads them, the pose, if it is
written, and the flags. -/
structure Publication (K : Type) where
  hyps : Option (List (AmclHyp K))
  hypPose : Option (HypPose K)
  publishPose : Bool
  updateTf : Bool

/-- `Amcl` with the statistics of its sets. -/
structure PublishingAmcl (K : Type) where
  amcl : Amcl K
  statistics : Fin 2 → SetStatistics K

/-- An event of a run: `UpdateFilter` returns, with the samples and the statistics of the current
set. -/
structure Published (K : Type) where
  samples : List (Sample K)
  statistics : SetStatistics K
  publication : Publication K

namespace PublishingAmcl

open Outcome

variable {K : Type} [Field K] [LinearOrder K]

section Publish

/-- The loop that reads the hypotheses, up to a cluster that `GetClusterStatistics` lacks. -/
def readHyps (stats : SetStatistics K) (sampleCount : Nat) : List (AmclHyp K) :=
  ((List.range stats.clusterCount).takeWhile (· < sampleCount)).map fun clabel =>
    let cluster := stats.clusters clabel
    { weight := cluster.weight, pfPoseMean := cluster.mean, pfPoseCov := cluster.cov }

/-- The greatest weight, and the hypothesis that has it. -/
def maxWeightHyp (hyps : List (AmclHyp K)) : K × Option (AmclHyp K) :=
  hyps.foldl (fun best hyp => if hyp.weight > best.1 then (hyp.weight, some hyp) else best)
    (0, none)

/-- The part of `UpdateFilter` that publishes what it reads from the current set. -/
def publish (stats : SetStatistics K) (sampleCount : Nat) : Publication K :=
  let hyps := readHyps stats sampleCount
  match maxWeightHyp hyps with
  -- no hypothesis has a positive weight: `UpdateFilter` leaves the pose as it was
  | (_, none) => { hyps := some hyps, hypPose := none, publishPose := false, updateTf := false }
  | (_, some hyp) =>
      { hyps := some hyps
        hypPose := some { poseMean := hyp.pfPoseMean, poseSetCov := stats.covariant }
        publishPose := true
        updateTf := true }

end Publish

variable [FloorRing K] (lib : StatisticsLibm K) (s : PublishingAmcl K)

/-- `ClusterStatistics` of a set. -/
def clusterStatistics (i : Fin 2) : Option (PublishingAmcl K) := do
  let stats ← SetStatistics.clusterStatistics lib (s.amcl.pf.sampleSets i).samples (s.statistics i)
  some { s with statistics := Function.update s.statistics i stats }

/-- The histogram of the current set is cleared and filled with its poses, each with a value, before
`ClusterStatistics` of the set. -/
def rebuildStatistics (value : Sample K → K) : Option (PublishingAmcl K) := do
  let i := s.amcl.pf.currentSet
  let stats ← (s.statistics i).fillHistogram
    ((s.amcl.pf.sampleSets i).samples.map fun sample => (sample.pose, value sample))
  clusterStatistics lib { s with statistics := Function.update s.statistics i stats } i

/-- `ResampleParticles`, and `resampled_`. `UpdateResample` inserts the poses with the weight that
they have before it is divided by the total. -/
def resampleParticles (draws : ResampleDraws K) : Option (PublishingAmcl K × Bool) := do
  let amcl ← (s.amcl.resampleParticles lib.toLibm draws).toOption
  if amcl.resampleCount % Amcl.resampleInterval = 0 then do
    let s ← rebuildStatistics lib { s with amcl := amcl } fun _ => 1
    some (s, true)
  else some ({ s with amcl := amcl }, false)

/-- `UpdateFilter`. -/
def updateFilter (resampled forcePublication : Bool) :
    Logged (Published K) (PublishingAmcl K) :=
  if resampled || forcePublication then
    -- `ClusterStatistics()` takes the set 0, whichever is the current one
    (Logged.lift (if !resampled then clusterStatistics lib s 0 else some s)).bind fun s =>
      let samples := s.amcl.pf.getCurrentSampleSet.samples
      let stats := s.statistics s.amcl.pf.currentSet
      (Logged.tell ⟨samples, stats, publish stats samples.length⟩).bind fun _ => Logged.pure s
  else
    (Logged.tell ⟨s.amcl.pf.getCurrentSampleSet.samples, s.statistics s.amcl.pf.currentSet,
      { hyps := none, hypPose := none, publishPose := true, updateTf := false }⟩).bind
        fun _ => Logged.pure s

/-- `Update`. -/
def update (input : UpdateInput K) : Logged (Published K) (PublishingAmcl K) :=
  let forcePublication := !s.amcl.pfInit
  let amcl := s.amcl.updateOdomPoseData lib.toLibm input
  if amcl.laserUpdate then
    (Logged.lift (amcl.weigh lib.toLibm input).toOption).bind fun amcl =>
      (Logged.lift (resampleParticles lib { s with amcl := amcl } input.draws)).bind
        fun (s, resampled) => updateFilter lib s resampled forcePublication
  else updateFilter lib { s with amcl := amcl } false forcePublication

/-- A call, with the statistics where the filter is initialised. -/
def call (call : AmclCall K) : Logged (Published K) (PublishingAmcl K) :=
  match call with
  | .Update input => update lib s input
  | .UpdateUwb .. | .SetLaserSensorPose _ =>
      (Logged.lift (s.amcl.call lib.toLibm call).toOption).bind fun amcl =>
        Logged.pure { s with amcl := amcl }
  | .HandleInitialPoseMessage _ | .GlobalLocalization _ | .RandomHeadingGlobalLocalization .. =>
      (Logged.lift (s.amcl.call lib.toLibm call).toOption).bind fun amcl =>
        Logged.lift (rebuildStatistics lib { s with amcl := amcl } (·.weight))

/-- Calls one after the other. -/
def run : List (AmclCall K) → PublishingAmcl K → Logged (Published K) (PublishingAmcl K)
  | [], s => Logged.pure s
  | c :: calls, s => (call lib s c).bind fun s => run calls s

/-- The state behind a call. -/
def step (c : AmclCall K) : Option (PublishingAmcl K) :=
  (call lib s c).erase

/-- The filter that `HandleMapMessage` makes. -/
def handleMapMessage (config : AmclConfig K) (laser : SensorLaser K) (generated : Nat → Vec3d K) :
    Option (PublishingAmcl K) := do
  let amcl ← (Amcl.handleMapMessage lib.toLibm config laser generated).toOption
  rebuildStatistics lib
    { amcl := amcl, statistics := fun _ => .new lib.toLibm config.maxParticles } (·.weight)

/-! ## The statistics of the current set -/

/-- The node of the bin of a pose is found. -/
def HasLeaf (t : ParticleFilterKDTree K) (pose : Vec3d K) : Prop :=
  (t.findNode (t.bin pose)).join.isSome = true

instance (t : ParticleFilterKDTree K) : DecidablePred (HasLeaf t) :=
  fun _ => inferInstanceAs (Decidable (_ = true))

theorem hasLeaf_iff {t : ParticleFilterKDTree K} {pose : Vec3d K} :
    HasLeaf t pose ↔ ∃ a, t.findNode (t.bin pose) = some (some a) := by
  unfold HasLeaf
  rcases t.findNode (t.bin pose) with _ | _ | a <;> simp

/-- The histogram of the set 0 counts something that was inserted. -/
def Filled (s : PublishingAmcl K) : Prop :=
  ∃ entries, (s.statistics 0).kdTree.Counts entries

/-- `ClusterStatistics` made the statistics of the current set of its samples, all of them. -/
def Current (lib : StatisticsLibm K) (s : PublishingAmcl K) : Prop :=
  ∃ before, SetStatistics.Completes lib s.amcl.pf.getCurrentSampleSet.samples before
    (s.statistics s.amcl.pf.currentSet)

/-- What is published is read from the statistics of the current set, and `ClusterStatistics` made
them of the samples, all of them. -/
structure Describes (lib : StatisticsLibm K) (p : Published K) : Prop where
  computed : ∃ before, SetStatistics.Completes lib p.samples before p.statistics
  read : p.publication = publish p.statistics p.samples.length

/-- The current set stays, and so do the poses of its samples. -/
structure KeepsPoses (pf pf' : ParticleFilter K) : Prop where
  currentSet : pf'.currentSet = pf.currentSet
  poses : pf'.getCurrentSampleSet.samples.map (·.pose) = pf.getCurrentSampleSet.samples.map (·.pose)

/-! ### The steps of the filter -/

section Poses

variable {set : SampleSet K} {pf : ParticleFilter K} {lib : Libm K} {w w' : Amcl K}

omit [Field K] [LinearOrder K] [FloorRing K] in
theorem poses_mapWeights (f : Nat → K → K) :
    (set.mapWeights f).samples.map (·.pose) = set.samples.map (·.pose) := by
  refine List.ext_getElem? fun i => ?_
  simp only [SampleSet.mapWeights, List.getElem?_map, List.getElem?_mapIdx, Option.map_map]
  rfl

theorem updateSensor_poses {laser laser' : SensorLaser K} {data : SensorLaserData K}
    {contents : Nat → Int} {total : K} {set' : SampleSet K}
    (h : laser.updateSensor lib data contents set = .ok (total, set', laser')) :
    set'.samples.map (·.pose) = set.samples.map (·.pose) := by
  unfold SensorLaser.updateSensor at h
  split at h
  · cases h
    rfl
  · unfold SensorLaser.likelihoodFieldModelProb at h
    rcases laser.makeRoom_cases set with hfails | ⟨maxSamples, maxObs, hroom⟩
    · rw [hfails] at h
      cases h
    · rw [hroom, ok_bind] at h
      cases hbeams : set.samples.mapM fun sample =>
          { laser with maxSamples := maxSamples, maxObs := maxObs }.sampleBeams lib data
            sample.pose with
      | error e =>
          rw [hbeams] at h
          cases h
      | ok beams =>
          rw [hbeams, ok_bind] at h
          split at h
          all_goals
            cases h
            exact poses_mapWeights _

omit [FloorRing K] in
theorem KeepsPoses.updateOmega (total : K) : KeepsPoses pf (pf.updateOmega total) := by
  unfold ParticleFilter.updateOmega
  dsimp only
  split
  · refine ⟨rfl, ?_⟩
    show (ParticleFilter.getCurrentSampleSet (pf.setSampleSet pf.currentSet _)).samples.map _ = _
    rw [getCurrentSampleSet_setSampleSet, poses_mapWeights]
  · refine ⟨rfl, ?_⟩
    rw [getCurrentSampleSet_setSampleSet, poses_mapWeights]

theorem keepsPoses_weigh {input : UpdateInput K} (h : w.weigh lib input = .ok w') :
    KeepsPoses w.pf w'.pf := by
  unfold Amcl.weigh at h
  cases hsensor : w.laser.updateSensor lib (w.laserData input) input.contents
      w.pf.getCurrentSampleSet with
  | error e =>
      rw [hsensor] at h
      cases h
  | ok weighed =>
      obtain ⟨total, set, laser⟩ := weighed
      rw [hsensor] at h
      cases h
      have homega : KeepsPoses (w.pf.setSampleSet w.pf.currentSet set) _ := .updateOmega total
      refine ⟨homega.currentSet, homega.poses.trans ?_⟩
      rw [getCurrentSampleSet_setSampleSet]
      exact updateSensor_poses hsensor

/-- The filter stays where it is not resampled. -/
theorem resampleParticles_pf {draws : ResampleDraws K} (h : w.resampleParticles lib draws = .ok w')
    (hcount : w'.resampleCount % Amcl.resampleInterval ≠ 0) : w'.pf = w.pf := by
  unfold Amcl.resampleParticles at h
  dsimp only at h
  split at h
  case isTrue hresample =>
    cases hpf : w.pf.updateResample lib draws with
    | error e =>
        rw [hpf] at h
        cases h
    | ok pf =>
        rw [hpf] at h
        cases h
        exact absurd hresample hcount
  case isFalse =>
    cases h
    rfl

end Poses

/-! ### The steps of the calls -/

section Steps

variable {lib : StatisticsLibm K} {s s' : PublishingAmcl K} {events : List (Published K)}
  {input : UpdateInput K}

theorem clusterStatistics_amcl {i : Fin 2} (h : s.clusterStatistics lib i = some s') :
    s'.amcl = s.amcl := by
  obtain ⟨stats, -, h⟩ := Option.bind_eq_some_iff.mp h
  cases h
  rfl

theorem clusterStatistics_filled {i : Fin 2} (h : s.clusterStatistics lib i = some s')
    (hfilled : Filled s) : Filled s' := by
  obtain ⟨stats, hstats, h⟩ := Option.bind_eq_some_iff.mp h
  cases h
  obtain ⟨entries, hcounts⟩ := hfilled
  refine ⟨entries, ?_⟩
  show (Function.update s.statistics i stats 0).kdTree.Counts entries
  by_cases hi : i = 0
  · subst hi
    rw [Function.update_self]
    exact SetStatistics.counts_clusterStatistics hcounts hstats
  · rw [Function.update_of_ne (Ne.symm hi)]
    exact hcounts

/-- `ClusterStatistics` of a set whose histogram holds its bins. -/
theorem clusterStatistics_current {entries : List (Key × K)}
    (h : s.clusterStatistics lib s.amcl.pf.currentSet = some s')
    (hcounts : (s.statistics s.amcl.pf.currentSet).kdTree.Counts entries)
    (hbins : ∀ sample ∈ s.amcl.pf.getCurrentSampleSet.samples,
      (s.statistics s.amcl.pf.currentSet).kdTree.bin sample.pose ∈ entries.map Prod.fst) :
    Current lib s' := by
  obtain ⟨stats, hstats, h⟩ := Option.bind_eq_some_iff.mp h
  cases h
  refine ⟨s.statistics s.amcl.pf.currentSet, ?_⟩
  show SetStatistics.Completes lib s.amcl.pf.getCurrentSampleSet.samples _
    (Function.update s.statistics s.amcl.pf.currentSet stats s.amcl.pf.currentSet)
  rw [Function.update_self]
  exact SetStatistics.completes_of_counts hcounts hbins hstats

variable [IsStrictOrderedRing K]

/-- The statistics that are rebuilt are of the samples, and the histogram is filled. -/
theorem rebuildStatistics_spec {value : Sample K → K}
    (h : s.rebuildStatistics lib value = some s') :
    s'.amcl = s.amcl ∧ Current lib s' ∧ (s.amcl.pf.currentSet = 0 ∨ Filled s → Filled s') := by
  obtain ⟨stats, hfill, h⟩ := Option.bind_eq_some_iff.mp h
  have hcounts := (SetStatistics.counts_fillHistogram hfill).1
  have hstats : Function.update s.statistics s.amcl.pf.currentSet stats s.amcl.pf.currentSet =
      stats := Function.update_self ..
  rw [← hstats] at hcounts
  refine ⟨(clusterStatistics_amcl h).trans rfl, clusterStatistics_current h hcounts ?_,
    fun hset => clusterStatistics_filled h ?_⟩
  · intro sample hsample
    dsimp only
    rw [hstats]
    refine SetStatistics.bins_fillHistogram hfill ?_
    rw [List.map_map]
    exact List.mem_map.mpr ⟨sample, hsample, rfl⟩
  · by_cases hzero : s.amcl.pf.currentSet = 0
    · unfold Filled
      rw [← hzero]
      exact ⟨_, hcounts⟩
    · obtain ⟨entries, hentries⟩ := hset.resolve_left hzero
      refine ⟨entries, ?_⟩
      show (Function.update s.statistics s.amcl.pf.currentSet stats 0).kdTree.Counts entries
      rw [Function.update_of_ne (Ne.symm hzero)]
      exact hentries

/-- After resampling the statistics are those of the new set; otherwise they stay, and so does the
filter. -/
theorem resampleParticles_spec {draws : ResampleDraws K} {resampled : Bool}
    (h : s.resampleParticles lib draws = some (s', resampled)) :
    s.amcl.resampleParticles lib.toLibm draws = .ok s'.amcl ∧ (Filled s → Filled s') ∧
      (resampled = true → Current lib s') ∧
      (resampled = false → s'.amcl.pf = s.amcl.pf ∧ s'.statistics = s.statistics) := by
  obtain ⟨amcl, hamcl, h⟩ := Option.bind_eq_some_iff.mp h
  have hamcl := eq_ok_of_toOption hamcl
  split at h
  case isTrue =>
    obtain ⟨rebuilt, hrebuilt, h⟩ := Option.bind_eq_some_iff.mp h
    cases h
    obtain ⟨hsame, hcurrent, hfilled⟩ := rebuildStatistics_spec hrebuilt
    exact ⟨hsame ▸ hamcl, fun h => hfilled (Or.inr h), fun _ => hcurrent,
      fun hfalse => nomatch hfalse⟩
  case isFalse hcount =>
    cases h
    exact ⟨hamcl, id, fun htrue => absurd htrue Bool.false_ne_true,
      fun _ => ⟨resampleParticles_pf hamcl hcount, rfl⟩⟩

omit [IsStrictOrderedRing K] in
/-- What `UpdateFilter` does to the filter and the histograms, and what it publishes: if it was
resampled, or if the current set is the set 0 and its histogram holds its bins, that describes the
samples. -/
theorem updateFilter_spec {resampled forcePublication : Bool}
    (h : s.updateFilter lib resampled forcePublication = some (s', events)) :
    s'.amcl = s.amcl ∧ (Filled s → Filled s') ∧
      ((resampled = true → Current lib s) →
        (resampled = false → forcePublication = true → Filled s ∧ s.amcl.pf.currentSet = 0 ∧
          ∀ pose ∈ s.amcl.pf.getCurrentSampleSet.samples.map (·.pose),
            HasLeaf (s.statistics 0).kdTree pose) →
        ∀ p ∈ events, p.publication.hyps ≠ none → Describes lib p) := by
  unfold updateFilter at h
  split at h
  case isTrue hpublishes =>
    cases hstats : (if !resampled then clusterStatistics lib s 0 else some s) with
    | none =>
        rw [hstats] at h
        cases h
    | some s₁ =>
        rw [hstats, Logged.lift_some_bind, Logged.tell_bind] at h
        cases h
        cases resampled with
        | true =>
            cases hstats
            refine ⟨rfl, id, fun hcurrent _ p hp _ => ?_⟩
            rw [List.mem_singleton.mp hp]
            exact ⟨hcurrent rfl, rfl⟩
        | false =>
            have hstats : clusterStatistics lib s 0 = some s' := hstats
            refine ⟨clusterStatistics_amcl hstats, clusterStatistics_filled hstats,
              fun _ hforce p hp _ => ?_⟩
            obtain ⟨⟨entries, hcounts⟩, hzero, hleaves⟩ := hforce rfl hpublishes
            rw [List.mem_singleton.mp hp]
            refine ⟨clusterStatistics_current (s := s) (by rwa [hzero]) (hzero ▸ hcounts) ?_, rfl⟩
            intro sample hsample
            rw [hzero]
            have hleaf := hleaves _ (List.mem_map_of_mem hsample)
            exact hcounts.found_iff.mp (hasLeaf_iff.mp hleaf)
  case isFalse =>
    rw [Logged.tell_bind] at h
    cases h
    refine ⟨rfl, id, fun _ _ p hp hhyps => ?_⟩
    rw [List.mem_singleton.mp hp] at hhyps
    exact absurd rfl hhyps

/-- The steps of an `Update`. -/
theorem update_cases (h : s.update lib input = some (s', events)) :
    ∃ s₁ resampled, s₁.updateFilter lib resampled (!s.amcl.pfInit) = some (s', events) ∧
      s.amcl.update lib.toLibm input = .ok s₁.amcl ∧ (Filled s → Filled s₁) ∧
      (resampled = true → Current lib s₁) ∧
      (resampled = false → s.amcl.pfInit = false →
        KeepsPoses s.amcl.pf s₁.amcl.pf ∧ s₁.statistics = s.statistics) := by
  -- the first `Update` does not move the samples
  have hodom : s.amcl.pfInit = false →
      (s.amcl.updateOdomPoseData lib.toLibm input).pf = s.amcl.pf := by
    intro hinit
    unfold Amcl.updateOdomPoseData
    rw [hinit]
    rfl
  unfold update at h
  unfold Amcl.update
  dsimp only at h ⊢
  split at h
  case isTrue hupdate =>
    rw [if_pos hupdate]
    cases hweigh : (s.amcl.updateOdomPoseData lib.toLibm input).weigh lib.toLibm input with
    | error e =>
        rw [hweigh] at h
        cases h
    | ok weighed =>
        rw [hweigh, Except.toOption, Logged.lift_some_bind] at h
        cases hresample : resampleParticles lib { s with amcl := weighed } input.draws with
        | none =>
            rw [hresample] at h
            cases h
        | some result =>
            obtain ⟨s₁, resampled⟩ := result
            rw [hresample, Logged.lift_some_bind] at h
            obtain ⟨hamcl, hfilled, hcurrent, hstays⟩ := resampleParticles_spec hresample
            refine ⟨s₁, resampled, h, hamcl, hfilled, hcurrent, fun hfalse hinit => ?_⟩
            obtain ⟨hpf, hstatistics⟩ := hstays hfalse
            have hkeeps := keepsPoses_weigh hweigh
            rw [hodom hinit] at hkeeps
            exact ⟨hpf ▸ hkeeps, hstatistics⟩
  case isFalse hupdate =>
    rw [if_neg hupdate]
    refine ⟨_, false, h, rfl, id, fun htrue => absurd htrue Bool.false_ne_true, fun _ hinit => ?_⟩
    rw [hodom hinit]
    exact ⟨⟨rfl, rfl⟩, rfl⟩

/-- `Update` describes the samples, unless it follows an initialisation of the other set, or the
histogram lacks a bin. -/
theorem update_describes (h : s.update lib input = some (s', events)) (hfilled : Filled s)
    (hset : s.amcl.pfInit = true ∨ s.amcl.pf.currentSet = 0 ∧
      ∀ pose ∈ s.amcl.pf.getCurrentSampleSet.samples.map (·.pose),
        HasLeaf (s.statistics 0).kdTree pose) :
    ∀ p ∈ events, p.publication.hyps ≠ none → Describes lib p := by
  obtain ⟨s₁, resampled, hfilter, -, hfilled₁, hcurrent, hstays⟩ := update_cases h
  refine (updateFilter_spec hfilter).2.2 hcurrent fun hfalse hforce => ?_
  have hinit : s.amcl.pfInit = false := by simpa using hforce
  obtain ⟨hzero, hleaves⟩ := hset.resolve_left (by simp [hinit])
  obtain ⟨hkeeps, hstatistics⟩ := hstays hfalse hinit
  rw [hkeeps.poses, hkeeps.currentSet, hstatistics]
  exact ⟨hfilled₁ hfilled, hzero, hleaves⟩

/-- A call is an `Update`, or it publishes nothing. -/
theorem call_cases {c : AmclCall K} (h : s.call lib c = some (s', events)) :
    (∃ input, c = .Update input ∧ s.update lib input = some (s', events)) ∨
      (s.amcl.call lib.toLibm c = .ok s'.amcl ∧ (Filled s → Filled s') ∧ events = []) := by
  -- the calls that initialise the filter rebuild the statistics
  have hinit : ∀ x : Except Failure (Amcl K),
      (Logged.lift x.toOption).bind (fun amcl => Logged.lift
        (rebuildStatistics lib { s with amcl := amcl } (·.weight))) = some (s', events) →
      x = .ok s'.amcl ∧ (Filled s → Filled s') ∧ events = [] := by
    intro x hx
    obtain ⟨amcl, hamcl, hrebuild, hevents⟩ := Logged.lift_bind_lift hx
    obtain ⟨hsame, -, hfilled⟩ := rebuildStatistics_spec hrebuild
    rw [eq_ok_of_toOption hamcl, hsame]
    exact ⟨rfl, fun h => hfilled (Or.inr h), hevents⟩
  -- the other calls leave the statistics as they are
  have hplain : ∀ x : Except Failure (Amcl K),
      (Logged.lift x.toOption).bind (fun amcl => Logged.lift (some { s with amcl := amcl })) =
        some (s', events) → x = .ok s'.amcl ∧ (Filled s → Filled s') ∧ events = [] := by
    intro x hx
    obtain ⟨amcl, hamcl, hsame, hevents⟩ := Logged.lift_bind_lift hx
    cases hsame
    exact ⟨eq_ok_of_toOption hamcl, id, hevents⟩
  cases c with
  | Update input => exact Or.inl ⟨input, rfl, h⟩
  | UpdateUwb input uwbCov => exact Or.inr (hplain _ h)
  | SetLaserSensorPose laserPose => exact Or.inr (hplain _ h)
  | HandleInitialPoseMessage generated => exact Or.inr (hinit _ h)
  | GlobalLocalization initFn => exact Or.inr (hinit _ h)
  | RandomHeadingGlobalLocalization generated drand48 => exact Or.inr (hinit _ h)

/-- The calls act on the filter as they do without the statistics, and the histogram of the set 0
stays filled. -/
theorem call_spec {c : AmclCall K} (h : s.call lib c = some (s', events)) :
    s.amcl.call lib.toLibm c = .ok s'.amcl ∧ (Filled s → Filled s') := by
  rcases call_cases h with ⟨input, rfl, hupdate⟩ | ⟨hcall, hfilled, -⟩
  · obtain ⟨s₁, resampled, hfilter, hamcl, hfilled, -⟩ := update_cases hupdate
    obtain ⟨hsame, hfilter, -⟩ := updateFilter_spec hfilter
    rw [hsame]
    exact ⟨hamcl, fun h => hfilter (hfilled h)⟩
  · exact ⟨hcall, hfilled⟩

/-- An `Update` that follows an initialisation happens with the set 0, and no sample has left the
bins of its histogram. -/
def ForcedInBins (s : PublishingAmcl K) : AmclCall K → Prop
  | .Update _ => s.amcl.pfInit = true ∨ s.amcl.pf.currentSet = 0 ∧
      ∀ pose ∈ s.amcl.pf.getCurrentSampleSet.samples.map (·.pose),
        HasLeaf (s.statistics 0).kdTree pose
  | _ => True

theorem run_describes_of_filled {calls : List (AmclCall K)} (hfilled : Filled s)
    (hok : StateMachine.Along (step lib) ForcedInBins s calls)
    (hrun : run lib calls s = some (s', events)) :
    ∀ p ∈ events, p.publication.hyps ≠ none → Describes lib p := by
  induction calls generalizing s events with
  | nil =>
      cases hrun
      exact fun p hp => absurd hp List.not_mem_nil
  | cons c calls ih =>
      obtain ⟨hfirst, hrest⟩ := hok
      obtain ⟨s₁, events₁, events₂, hcall, hcalls, rfl⟩ := Logged.bind_eq_some hrun
      have hstep : step lib s c = some s₁ := by
        rw [step, hcall]
        rfl
      rw [hstep] at hrest
      intro p hp
      rcases List.mem_append.mp hp with hp | hp
      · rcases call_cases hcall with ⟨input, rfl, hupdate⟩ | ⟨-, -, rfl⟩
        · exact update_describes hupdate hfilled hfirst p hp
        · exact absurd hp List.not_mem_nil
      · exact ih ((call_spec hcall).2 hfilled) hrest hcalls p hp

/-- The first initialisation fills the histogram of the set 0. -/
theorem filled_handleMapMessage {config : AmclConfig K} {laser : SensorLaser K}
    {generated : Nat → Vec3d K} (h : handleMapMessage lib config laser generated = some s) :
    Filled s := by
  obtain ⟨amcl, hamcl, h⟩ := Option.bind_eq_some_iff.mp h
  have hamcl := eq_ok_of_toOption hamcl
  refine (rebuildStatistics_spec h).2.2 (Or.inl ?_)
  unfold Amcl.handleMapMessage ParticleFilter.initByGuassian ParticleFilter.initSamples at hamcl
  dsimp only at hamcl
  obtain ⟨pf, hpf, hamcl⟩ := bind_eq_ok hamcl
  obtain ⟨kdTree, -, hpf⟩ := bind_eq_ok hpf
  cases hpf
  cases hamcl
  rfl

/-- From `HandleMapMessage` on, in a run in which every `Update` that follows an initialisation
happens with the set 0 and with samples in the bins of its histogram, what is published describes
the samples of the current set. -/
theorem run_describes {config : AmclConfig K} {laser : SensorLaser K} {generated : Nat → Vec3d K}
    {calls : List (AmclCall K)} (hstart : handleMapMessage lib config laser generated = some s)
    (hok : StateMachine.Along (step lib) ForcedInBins s calls)
    (hrun : run lib calls s = some (s', events)) :
    ∀ p ∈ events, p.publication.hyps ≠ none → Describes lib p :=
  run_describes_of_filled (filled_handleMapMessage hstart) hok hrun

/-- So do runs. -/
theorem run_amcl {calls : List (AmclCall K)} (h : run lib calls s = some (s', events)) :
    s.amcl.run lib.toLibm calls = .ok s'.amcl := by
  induction calls generalizing s events with
  | nil =>
      cases h
      rfl
  | cons c calls ih =>
      obtain ⟨s₁, events₁, events₂, hcall, hcalls, -⟩ := Logged.bind_eq_some h
      unfold Amcl.run
      rw [List.foldlM_cons, (call_spec hcall).1]
      exact ih hcalls

omit [FloorRing K] [IsStrictOrderedRing K] in
theorem publish_hyps (stats : SetStatistics K) (sampleCount : Nat) :
    (publish stats sampleCount).hyps = some (readHyps stats sampleCount) := by
  unfold publish
  dsimp only
  split <;> rfl

omit [IsStrictOrderedRing K] in
/-- What is read of a set with one sample: it is in the cluster, or the cluster is empty. -/
theorem readHyps_one {sample : Sample K} {before stats : SetStatistics K}
    (h : SetStatistics.clusterStatistics lib [sample] before = some stats) :
    ∀ hyp ∈ readHyps stats 1, hyp.weight = 0 ∨
      (hyp.weight = sample.weight ∧
        hyp.pfPoseMean 0 = sample.weight * sample.pose 0 / sample.weight) := by
  intro hyp hhyp
  obtain ⟨clabel, hclabel, rfl⟩ := List.mem_map.mp hhyp
  have hone : clabel < 1 := by simpa using List.mem_takeWhile_imp hclabel
  have hcount : clabel < stats.clusterCount :=
    List.mem_range.mp ((List.takeWhile_sublist _).subset hclabel)
  obtain rfl : clabel = 0 := by omega
  obtain ⟨kdTree, -, h⟩ := Option.bind_eq_some_iff.mp h
  obtain ⟨⟨sums, found⟩, hsums, h⟩ := Option.bind_eq_some_iff.mp h
  unfold SetStatistics.sumSamples at hsums
  obtain ⟨label, -, hsums⟩ := Option.bind_eq_some_iff.mp hsums
  split_ifs at hsums with hmissing hmax
  · cases hsums
    cases h
    exact absurd hcount (Nat.not_lt_zero 0)
  · cases hsums
    cases h
    exact absurd hcount (Nat.not_lt_zero 0)
  · cases hsums
    cases h
    -- the sample is in its cluster, and every other cluster is reset
    have hmax : ¬label ≥ (before.clusterMaxCount : Int) := hmax
    have hlabel : label.toNat < before.clusterMaxCount := by omega
    have hreset : ∀ c < before.clusterMaxCount,
        (SetStatistics.start before kdTree).stats.clusters c = .reset := fun c hc => if_pos hc
    have hread : (SetStatistics.normalize lib (SetStatistics.addSample lib
        (SetStatistics.start before kdTree) sample label.toNat)).clusters 0 =
          SetStatistics.normalizeCluster lib (Function.update
            (SetStatistics.start before kdTree).stats.clusters label.toNat
              (SetStatistics.addToCluster lib .reset sample) 0) := by
      rw [← hreset _ hlabel]
      exact SetStatistics.normalize_clusters hcount
    dsimp only
    rw [hread]
    by_cases hzero : label.toNat = 0
    · rw [hzero, Function.update_self]
      refine Or.inr ⟨zero_add _, ?_⟩
      show (0 + sample.weight * sample.pose 0) / (0 + sample.weight) = _
      rw [zero_add, zero_add]
    · rw [Function.update_of_ne (Ne.symm hzero), hreset 0 (by omega)]
      exact Or.inl rfl

end Steps

instance (s : PublishingAmcl ℚ) : DecidablePred s.ForcedInBins
  | .Update _ => inferInstanceAs (Decidable (_ ∨ _ ∧ _))
  | .UpdateUwb .. => .isTrue trivial
  | .SetLaserSensorPose _ => .isTrue trivial
  | .HandleInitialPoseMessage _ => .isTrue trivial
  | .GlobalLocalization _ => .isTrue trivial
  | .RandomHeadingGlobalLocalization .. => .isTrue trivial

/-! ### A run on the axis -/

open SetStatistics

/-- A filter with one sample, which is made at the origin. -/
def axisStart : Option (PublishingAmcl ℚ) :=
  handleMapMessage axisLibm { oneParticle with updateMinD := 1 / 2, resampleUwbFactor := 1 / 4 }
    laserAtOrigin fun _ => 0

/-- The robot moves to (1, 0), where the filter is resampled. -/
def axisMoves : List (AmclCall ℚ) :=
  [.Update updateAtOrigin, .Update { updateAtOrigin with pose := ![1, 0, 0] }]

/-- Then the current set, now the set 1, is initialised at the origin, and its sample is moved to
(1, 0) before the next `Update`. -/
def axisCalls : List (AmclCall ℚ) :=
  axisMoves ++ [.GlobalLocalization fun _ => 0,
    .UpdateUwb ⟨![1, 0, 0], weightSorter, fun _ => 0, fun _ => 0⟩ none, .Update updateAtOrigin]

/-- The weights and x components of the samples, and those of the hypotheses. -/
def axisSummary (p : Published ℚ) : List (ℚ × ℚ) × Option (List (ℚ × ℚ)) :=
  (p.samples.map fun sample => (sample.weight, sample.pose 0),
    p.publication.hyps.map fun hyps => hyps.map fun hyp => (hyp.weight, hyp.pfPoseMean 0))

/-- The hypothesis of the last `Update` is that the robot is at the origin, where no sample is. -/
theorem run_publishes_stale : ∃ s₀ s events, axisStart = some s₀ ∧
    run axisLibm axisCalls s₀ = some (s, events) ∧
      ∃ p ∈ events, p.publication.hyps ≠ none ∧ ¬ Describes axisLibm p := by
  have hsummary : (axisStart.bind fun s₀ =>
      Option.map (fun out => out.2.map axisSummary) (run axisLibm axisCalls s₀)) =
        some [([(1, 0)], some [(1, 0)]), ([(1, 1)], some [(1, 1)]), ([(1, 1)], some [(1, 0)])] := by
    decide +kernel
  obtain ⟨s₀, hstart, hsummary⟩ := Option.bind_eq_some_iff.mp hsummary
  obtain ⟨⟨s, events⟩, hrun, hevents⟩ := Option.map_eq_some_iff.mp hsummary
  -- the sample is at (1, 0), and the only hypothesis at the origin, with weight 1
  have hlast : ([(1, 1)], some [(1, 0)]) ∈ events.map axisSummary := by
    rw [hevents]
    simp
  obtain ⟨p, hp, hpublished⟩ := List.mem_map.mp hlast
  obtain ⟨hsamples, hhyps⟩ := Prod.mk.inj hpublished
  obtain ⟨sample, hone, hsample⟩ := List.map_eq_singleton_iff.mp hsamples
  obtain ⟨hyps, hread, hvalues⟩ := Option.map_eq_some_iff.mp hhyps
  obtain ⟨hyp, rfl, hvalue⟩ := List.map_eq_singleton_iff.mp hvalues
  obtain ⟨hweight, hpose⟩ := Prod.mk.inj hsample
  obtain ⟨hhypWeight, hhypMean⟩ := Prod.mk.inj hvalue
  refine ⟨s₀, s, events, hstart, hrun, p, hp, by simp [hread], ?_⟩
  rintro ⟨⟨before, hstats⟩, hpublish⟩
  rw [hpublish, publish_hyps, hone] at hread
  rw [hone] at hstats
  have hstats := hstats.result
  have hmem : hyp ∈ readHyps p.statistics 1 := by
    have hread : readHyps p.statistics 1 = [hyp] := Option.some.inj hread
    rw [hread]
    exact List.mem_singleton_self hyp
  rcases readHyps_one hstats hyp hmem with hzero | ⟨-, hmean⟩
  · rw [hhypWeight] at hzero
    exact absurd hzero one_ne_zero
  · rw [hhypMean, hweight, hpose] at hmean
    exact absurd hmean (by decide +kernel)

/-- Up to there, what is published describes the samples. -/
theorem run_describes_moves : ∃ s₀ s events, axisStart = some s₀ ∧
    run axisLibm axisMoves s₀ = some (s, events) ∧
      ∀ p ∈ events, p.publication.hyps ≠ none → Describes axisLibm p := by
  have hruns : (axisStart.bind fun s₀ => Option.map (fun _ =>
      decide (StateMachine.Along (step axisLibm) ForcedInBins s₀ axisMoves))
        (run axisLibm axisMoves s₀)) = some true := by
    decide +kernel
  obtain ⟨s₀, hstart, hruns⟩ := Option.bind_eq_some_iff.mp hruns
  obtain ⟨⟨s, events⟩, hrun, hok⟩ := Option.map_eq_some_iff.mp hruns
  exact ⟨s₀, s, events, hstart, hrun, run_describes hstart (of_decide_eq_true hok) hrun⟩

end PublishingAmcl

end RoboRTS.Localization
