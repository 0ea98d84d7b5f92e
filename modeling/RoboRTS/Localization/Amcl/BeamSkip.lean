import RoboRTS.Localization.Amcl.Weights
import Mathlib.Data.List.Sort

/-!
# Beam skipping

With beam skipping the weights are multiplied by the entries of `temp_obs_` at the indices that
`keptBeams` leaves, and `temp_obs_` is only written at the beams that are used. Up to what the new
`obs_count` contains, the two agree if every index that is kept is that of a used beam
(`skip_agrees_iff`).
-/

namespace RoboRTS.Localization

open Outcome

/-- The calls on a laser. The map of `SetModelLikelihoodFieldProb` is what `UpdateCSpace` leaves. -/
inductive SensorLaserCall (K : Type*) where
  | SetModelLikelihoodFieldProb (zHit zRand sigmaHit : K) (map : DistanceMap K) (doBeamskip : Bool)
      (beamSkipDistance beamSkipThreshold beamSkipErrorThreshold : K)
  | SetLaserPose (laserPose : Vec3d K)
  | LikelihoodFieldModelProb (data : SensorLaserData K) (contents : Nat → Int) (set : SampleSet K)

namespace SensorLaser

variable {K : Type*} [Field K] [LinearOrder K] [FloorRing K]

section Defs

variable (lib : Libm K) (laser : SensorLaser K) (data : SensorLaserData K)

/-- The laser after a call. -/
def call : SensorLaserCall K → Except Failure (SensorLaser K)
  | .SetModelLikelihoodFieldProb zHit zRand sigmaHit map doBeamskip beamSkipDistance
      beamSkipThreshold beamSkipErrorThreshold =>
      .ok { laser with
        zHit := zHit, zRand := zRand, sigmaHit := sigmaHit, map := map, doBeamskip := doBeamskip
        beamSkipDistance := beamSkipDistance, beamSkipThreshold := beamSkipThreshold
        beamSkipErrorThreshold := beamSkipErrorThreshold }
  | .SetLaserPose laserPose => .ok { laser with laserPose := laserPose }
  | .LikelihoodFieldModelProb data contents set => do
      let (_, _, laser') ← laser.likelihoodFieldModelProb lib data contents set
      pure laser'

/-- The laser after any calls. -/
def run (calls : List (SensorLaserCall K)) : Except Failure (SensorLaser K) :=
  calls.foldlM (fun laser call => laser.call lib call) laser

end Defs

variable {lib : Libm K} {laser laser' : SensorLaser K} {data : SensorLaserData K}
  {contents : Nat → Int} {set set' : SampleSet K} {total : K} {beams : List (List (Beam K))}
  {used : Nat × K × K}

theorem likelihoodFieldModelProb_skip {room : SensorLaser K} (hroom : laser.makeRoom set = .ok room)
    (hskip : laser.doBeamskip ∧ set.converged)
    (h : (set.samples.mapM fun sample => laser.sampleBeams lib data sample.pose) = .ok beams) :
    laser.likelihoodFieldModelProb lib data contents set =
      .ok (let reweighted := set.mapWeights fun j weight =>
          weight * ((laser.keptBeams (obsCount contents beams) set.samples.length).map
            (laser.updateTempObs beams j)).prod
        (reweighted.weights.sum, reweighted,
          { room with tempObs := laser.updateTempObs beams })) := by
  obtain hfails | ⟨maxSamples, maxObs, hsizes⟩ := laser.makeRoom_cases set
  · rw [hfails] at hroom
    cases hroom
  rw [hroom] at hsizes
  cases hsizes
  have hmap : (set.samples.mapM fun sample =>
      { laser with maxSamples := maxSamples, maxObs := maxObs }.sampleBeams lib data sample.pose) =
        .ok beams := h
  unfold likelihoodFieldModelProb
  rw [hroom, Outcome.ok_bind, hmap]
  exact if_pos hskip

theorem likelihoodFieldModelProb_plain (hplain : ¬ (laser.doBeamskip ∧ set.converged))
    (h : (set.samples.mapM fun sample => laser.sampleBeams lib data sample.pose) = .ok beams) :
    laser.likelihoodFieldModelProb lib data contents set =
      .ok (let reweighted := set.mapWeights fun j weight =>
          weight * ((beams.getD j []).map (·.pz)).prod
        (reweighted.weights.sum, reweighted, laser)) := by
  have hroom : laser.makeRoom set = .ok laser := if_neg fun hroom => hplain hroom.1
  unfold likelihoodFieldModelProb
  rw [hroom, Outcome.ok_bind, h]
  exact if_neg hplain

/-- If no check fails, there is room in `temp_obs_`, and there are the beams of all samples. -/
theorem exists_beams {out : K × SampleSet K × SensorLaser K}
    (h : laser.likelihoodFieldModelProb lib data contents set = .ok out) :
    ∃ maxSamples maxObs beams,
      laser.makeRoom set = .ok { laser with maxSamples := maxSamples, maxObs := maxObs } ∧
      (set.samples.mapM fun sample => laser.sampleBeams lib data sample.pose) = .ok beams := by
  unfold likelihoodFieldModelProb at h
  obtain hfails | ⟨maxSamples, maxObs, hroom⟩ := laser.makeRoom_cases set
  · rw [hfails] at h
    cases h
  rw [hroom, Outcome.ok_bind] at h
  cases hbeams : set.samples.mapM fun sample => laser.sampleBeams lib data sample.pose with
  | error e =>
      have hbeams : (set.samples.mapM fun sample =>
          { laser with maxSamples := maxSamples, maxObs := maxObs }.sampleBeams lib data
            sample.pose) = .error e := hbeams
      rw [hbeams] at h
      cases h
  | ok beams => exact ⟨maxSamples, maxObs, beams, hroom, rfl⟩

/-! ## The indices of the used beams -/

theorem maxBeams_call {call : SensorLaserCall K} (h : laser.call lib call = .ok laser') :
    laser'.maxBeams = laser.maxBeams := by
  cases call with
  | SetModelLikelihoodFieldProb =>
      cases h
      rfl
  | SetLaserPose =>
      cases h
      rfl
  | LikelihoodFieldModelProb data contents set =>
      cases hout : laser.likelihoodFieldModelProb lib data contents set with
      | error e =>
          rw [call, hout] at h
          cases h
      | ok out =>
          rw [call, hout] at h
          cases h
          obtain ⟨maxSamples, maxObs, beams, hroom, hbeams⟩ := exists_beams hout
          by_cases hskip : laser.doBeamskip = true ∧ set.converged = true
          · cases hout.symm.trans (likelihoodFieldModelProb_skip hroom hskip hbeams)
            rfl
          · cases hout.symm.trans (likelihoodFieldModelProb_plain hskip hbeams)
            rfl

theorem maxBeams_run {calls : List (SensorLaserCall K)} (h : laser.run lib calls = .ok laser') :
    laser'.maxBeams = laser.maxBeams := by
  induction calls generalizing laser with
  | nil =>
      cases h
      rfl
  | cons call calls ih =>
      unfold run at h
      rw [List.foldlM_cons] at h
      cases hcall : laser.call lib call with
      | error e =>
          rw [hcall] at h
          cases h
      | ok laser₁ =>
          rw [hcall] at h
          exact (ih h).trans (maxBeams_call hcall)

omit [Field K] [FloorRing K] in
theorem ind_of_usedRange {beamInd : Nat} {entry : Option (Option K × K)}
    (h : (do
      let (range, bearing) ← entry
      let obsRange ← range
      if obsRange ≥ data.rangeMax then none else some (beamInd, obsRange, bearing)) = some used) :
    used.1 = beamInd := by
  obtain ⟨⟨range, bearing⟩, -, h⟩ := Option.bind_eq_some_iff.mp h
  obtain ⟨obsRange, -, h⟩ := Option.bind_eq_some_iff.mp h
  split at h
  · cases h
  · cases h
    rfl

/-- A used beam has a range of the scan. -/
theorem lt_of_mem_usedRanges (h : used ∈ laser.usedRanges data) :
    used.1 * laser.beamStep data < data.ranges.length := by
  obtain ⟨beamInd, -, hused⟩ := List.mem_filterMap.mp h
  rw [ind_of_usedRange hused]
  obtain ⟨range, hrange, -⟩ := Option.bind_eq_some_iff.mp hused
  exact (List.getElem?_eq_some_iff.mp hrange).1

theorem pairwise_usedRanges : (laser.usedRanges data).Pairwise (·.1 < ·.1) := by
  refine List.pairwise_filterMap.mpr (List.pairwise_lt_range.imp fun hlt u hu u' hu' => ?_)
  rw [ind_of_usedRange hu, ind_of_usedRange hu']
  exact hlt

theorem lt_maxBeams_of_mem_usedRanges [IsStrictOrderedRing K] (hbeams : 0 < laser.maxBeams)
    (h : used ∈ laser.usedRanges data) : used.1 < laser.maxBeams.toNat := by
  have hpos : (0 : K) < laser.maxBeams := Int.cast_pos.mpr hbeams
  have hceil : ((data.ranges.length : K) / laser.maxBeams) ≤ laser.beamStep data := by
    refine (Int.le_ceil _).trans ?_
    have hstep : ⌈(data.ranges.length : K) / laser.maxBeams⌉ ≤ (laser.beamStep data : Int) := by
      unfold beamStep
      omega
    exact_mod_cast hstep
  have hcount : (data.ranges.length : Int) ≤ laser.beamStep data * laser.maxBeams := by
    rw [div_le_iff₀ hpos] at hceil
    exact_mod_cast hceil
  have hlt : (used.1 * laser.beamStep data : Int) < laser.beamStep data * laser.maxBeams :=
    lt_of_lt_of_le (by exact_mod_cast lt_of_mem_usedRanges h) hcount
  rw [mul_comm] at hlt
  have := lt_of_mul_lt_mul_left hlt (Int.natCast_nonneg _)
  omega

theorem inds_of_sampleBeams {pose : Vec3d K} {sample : List (Beam K)}
    (h : laser.sampleBeams lib data pose = .ok sample) :
    sample.map (·.ind) = (laser.usedRanges data).map (·.1) := by
  have hinds : Returns (· ≠ .assertion)
      (fun sample => sample.map (·.ind) = (laser.usedRanges data).map (·.1))
      (laser.sampleBeams lib data pose) := by
    refine Returns.mapM_map _ fun used _ => ?_
    exact (beamProb_spec _ _ _).bind fun out _ => rfl
  exact hinds.of_eq_ok h

/-! ## The masked beams -/

section Masked

variable (laser : SensorLaser K) (data : SensorLaserData K)

/-- The number of samples with a distance below `beam_skip_distance_` at a beam. -/
def agreeing (beams : List (List (Beam K))) (beamInd : Nat) : Int :=
  (beams.countP fun sample => sample.any fun beam => beam.ind = beamInd ∧ beam.near : Nat)

/-- The error fallback, by counts of samples. -/
def ErrorFallback (count : Nat → Int) (sampleCount : Nat) : Prop :=
  ((List.range laser.maxBeams.toNat).countP fun beamInd =>
      (count beamInd : K) / sampleCount ≤ laser.beamSkipThreshold : Nat) ≥
    laser.maxBeams * laser.beamSkipErrorThreshold

/-- A masked beam, by counts of samples. -/
def Masked (count : Nat → Int) (sampleCount beamInd : Nat) : Prop :=
  (count beamInd : K) / sampleCount ≤ laser.beamSkipThreshold ∧
    ¬ laser.ErrorFallback count sampleCount

instance (count : Nat → Int) (sampleCount beamInd : Nat) :
    Decidable (laser.Masked count sampleCount beamInd) :=
  inferInstanceAs (Decidable (_ ≤ _ ∧ ¬ _ ≤ _))

/-- The beams of a sample that are not masked. -/
def unmaskedBeams (beams : List (List (Beam K))) (j : Nat) : List (Beam K) :=
  (beams.getD j []).filter fun beam => ¬ laser.Masked (agreeing beams) beams.length beam.ind

/-- What `obs_count` contained does not change which of the used beams are masked, and with it the
indices without a used beam are. -/
structure Settled (contents : Nat → Int) (beams : List (List (Beam K))) : Prop where
  used : ∀ used ∈ laser.usedRanges data,
    laser.Masked (contents + agreeing beams) beams.length used.1 ↔
      laser.Masked (agreeing beams) beams.length used.1
  unused : ∀ beamInd < laser.maxBeams.toNat, beamInd ∉ (laser.usedRanges data).map (·.1) →
    laser.Masked (contents + agreeing beams) beams.length beamInd

end Masked

variable {count : Nat → Int} {sampleCount beamInd : Nat}

omit [FloorRing K] in
theorem mem_keptBeams : beamInd ∈ laser.keptBeams count sampleCount ↔
    beamInd < laser.maxBeams.toNat ∧ ¬ laser.Masked count sampleCount beamInd := by
  have hcount : ((List.range laser.maxBeams.toNat).countP fun beamInd =>
        ¬ decide ((count beamInd : K) / sampleCount > laser.beamSkipThreshold)) =
      (List.range laser.maxBeams.toNat).countP fun beamInd =>
        (count beamInd : K) / sampleCount ≤ laser.beamSkipThreshold := by
    refine List.countP_congr fun beamInd _ => ?_
    simp only [decide_eq_true_eq, not_lt]
  unfold keptBeams Masked
  dsimp only
  rw [hcount]
  split
  · next hfallback => exact ⟨fun h => ⟨List.mem_range.mp h, fun hmasked => hmasked.2 hfallback⟩,
      fun h => List.mem_range.mpr h.1⟩
  · next hfallback =>
      rw [List.mem_filter, List.mem_range, decide_eq_true_eq]
      exact and_congr_right fun _ =>
        not_le.symm.trans (not_congr ⟨fun h => ⟨h, hfallback⟩, And.left⟩)

omit [FloorRing K] in
theorem pairwise_keptBeams : (laser.keptBeams count sampleCount).Pairwise (· < ·) := by
  unfold keptBeams
  dsimp only
  split
  · exact List.pairwise_lt_range
  · exact List.pairwise_lt_range.filter _

/-! ## The entries -/

/-- Every sample has the beams that are used. -/
def Scanned (laser : SensorLaser K) (data : SensorLaserData K) (beams : List (List (Beam K))) :
    Prop :=
  ∀ sample ∈ beams, sample.map (·.ind) = (laser.usedRanges data).map (·.1)

theorem scanned_of_mapM
    (h : (set.samples.mapM fun sample => laser.sampleBeams lib data sample.pose) = .ok beams) :
    laser.Scanned data beams := by
  have hscanned : Returns (fun _ => True)
      (fun beams => laser.Scanned data beams)
      (set.samples.mapM fun sample => laser.sampleBeams lib data sample.pose) := by
    refine Returns.mapM _ fun sample _ => ?_
    cases hbeams : laser.sampleBeams lib data sample.pose with
    | error e => trivial
    | ok sampleBeams => exact inds_of_sampleBeams hbeams
  exact hscanned.of_eq_ok h

theorem length_of_mapM
    (h : (set.samples.mapM fun sample => laser.sampleBeams lib data sample.pose) = .ok beams) :
    beams.length = set.samples.length := by
  have hunits : Returns (· ≠ .assertion)
      (fun beams => beams.map (fun _ => ()) = set.samples.map fun _ => ())
      (set.samples.mapM fun sample => laser.sampleBeams lib data sample.pose) := by
    refine Returns.mapM_map _ fun sample _ => ?_
    cases hbeams : laser.sampleBeams lib data sample.pose with
    | error e => exact (sampleBeams_spec sample.pose).of_eq_error hbeams
    | ok sampleBeams => exact rfl
  simpa only [List.length_map] using congrArg List.length (hunits.of_eq_ok h)

theorem Scanned.pairwise (h : laser.Scanned data beams) {sample : List (Beam K)}
    (hsample : sample ∈ beams) : (sample.map (·.ind)).Pairwise (· < ·) := by
  rw [h sample hsample]
  exact List.pairwise_map.mpr pairwise_usedRanges

omit [Field K] [LinearOrder K] [FloorRing K] in
/-- A sample has at most one beam of an index. -/
theorem countP_sample {sample : List (Beam K)} (h : (sample.map (·.ind)).Nodup) :
    (sample.countP fun beam => beam.ind = beamInd ∧ beam.near) =
      if sample.any fun beam => beam.ind = beamInd ∧ beam.near then 1 else 0 := by
  have hle : (sample.countP fun beam => beam.ind = beamInd ∧ beam.near) ≤ 1 := by
    have hcount := List.nodup_iff_count_le_one.mp h beamInd
    rw [List.count, List.countP_map] at hcount
    refine (List.countP_mono_left fun beam _ hbeam => ?_).trans hcount
    simp only [decide_eq_true_eq, Function.comp_apply, beq_iff_eq] at hbeam ⊢
    exact hbeam.1
  split
  · next hany =>
      have hpos := List.countP_pos_iff.mpr (List.any_eq_true.mp hany)
      omega
  · next hany =>
      have hpos := mt (fun hpos => List.any_eq_true.mpr (List.countP_pos_iff.mp hpos)) hany
      omega

theorem obsCount_eq (h : laser.Scanned data beams) :
    obsCount contents beams = contents + agreeing beams := by
  funext beamInd
  unfold obsCount agreeing
  rw [Pi.add_apply]
  congr 2
  have hnodup : ∀ sample ∈ beams, (sample.map (·.ind)).Nodup :=
    fun sample hsample => (h.pairwise hsample).nodup
  clear h
  induction beams with
  | nil => rfl
  | cons sample beams ih =>
      rw [List.flatten_cons, List.countP_append, List.countP_cons, add_comm,
        countP_sample (hnodup sample List.mem_cons_self),
        ih fun sample' hsample' => hnodup sample' (List.mem_cons_of_mem sample hsample')]

omit [Field K] [LinearOrder K] [FloorRing K] in
theorem getD_mem {j : Nat} (hj : j < beams.length) : beams.getD j [] ∈ beams := by
  rw [List.getD_eq_getElem?_getD, List.getElem?_eq_getElem hj]
  exact List.getElem_mem hj

theorem updateTempObs_of_mem {j : Nat} {beam : Beam K} (h : laser.Scanned data beams)
    (hj : j < beams.length) (hbeam : beam ∈ beams.getD j []) :
    laser.updateTempObs beams j beam.ind = beam.pz := by
  have hnodup : ((beams.getD j []).map (·.ind)).Nodup := (h.pairwise (getD_mem hj)).nodup
  unfold updateTempObs
  cases hfind : (beams.getD j []).find? (·.ind = beam.ind) with
  | none =>
      have hne := List.find?_eq_none.mp hfind beam hbeam
      exact absurd (decide_eq_true rfl) hne
  | some beam' =>
      have hind := List.find?_some hfind
      have heq := List.inj_on_of_nodup_map hnodup (List.mem_of_find?_eq_some hfind) hbeam
        (of_decide_eq_true hind)
      exact congrArg Beam.pz heq

/-! ## Agreement with the plain path -/

/-- What a call that skips beams should do: the entries that the weight of a sample is multiplied by
are those of the used beams that are not masked. -/
structure Agrees (lib : Libm K) (laser : SensorLaser K) (data : SensorLaserData K)
    (contents : Nat → Int) (set : SampleSet K) (beams : List (List (Beam K))) (total : K)
    (set' : SampleSet K) : Prop where
  entries : ∀ j < beams.length,
    ((laser.keptBeams (obsCount contents beams) beams.length).map fun beamInd =>
        (beamInd, laser.updateTempObs beams j beamInd)) =
      (laser.unmaskedBeams beams j).map fun beam => (beam.ind, beam.pz)
  weights : set' = set.mapWeights fun j weight =>
    weight * ((laser.unmaskedBeams beams j).map (·.pz)).prod
  sum : total = set'.weights.sum
  plain : (∀ used ∈ laser.usedRanges data,
      ¬ laser.Masked (agreeing beams) beams.length used.1) →
    { laser with doBeamskip := false }.likelihoodFieldModelProb lib data contents set =
      .ok (total, set', { laser with doBeamskip := false })

theorem mem_unmaskedBeams_iff {j : Nat} (h : laser.Scanned data beams) (hj : j < beams.length) :
    beamInd ∈ (laser.unmaskedBeams beams j).map (·.ind) ↔
      beamInd ∈ (laser.usedRanges data).map (·.1) ∧
        ¬ laser.Masked (agreeing beams) beams.length beamInd := by
  rw [← h _ (getD_mem hj)]
  unfold unmaskedBeams
  constructor
  · intro hmem
    obtain ⟨beam, hbeam, rfl⟩ := List.mem_map.mp hmem
    obtain ⟨hbeam, hmasked⟩ := List.mem_filter.mp hbeam
    exact ⟨List.mem_map_of_mem hbeam, of_decide_eq_true hmasked⟩
  · intro ⟨hmem, hmasked⟩
    obtain ⟨beam, hbeam, rfl⟩ := List.mem_map.mp hmem
    exact List.mem_map_of_mem (List.mem_filter.mpr ⟨hbeam, decide_eq_true hmasked⟩)

theorem entries_eq_iff {j : Nat} (h : laser.Scanned data beams) (hj : j < beams.length) :
    ((laser.keptBeams count sampleCount).map fun beamInd =>
        (beamInd, laser.updateTempObs beams j beamInd)) =
      ((laser.unmaskedBeams beams j).map fun beam => (beam.ind, beam.pz)) ↔
      laser.keptBeams count sampleCount = (laser.unmaskedBeams beams j).map (·.ind) := by
  constructor
  · intro heq
    have hinds := congrArg (List.map Prod.fst) heq
    rwa [List.map_map, List.map_map, Function.comp_def, List.map_id'] at hinds
  · intro heq
    rw [heq, List.map_map]
    refine List.map_congr_left fun beam hbeam => ?_
    exact Prod.ext rfl (updateTempObs_of_mem h hj (List.mem_of_mem_filter hbeam))

theorem pairwise_unmaskedBeams {j : Nat} (h : laser.Scanned data beams) (hj : j < beams.length) :
    ((laser.unmaskedBeams beams j).map (·.ind)).Pairwise (· < ·) :=
  (h.pairwise (getD_mem hj)).sublist (List.filter_sublist.map _)

theorem keptBeams_eq_iff [IsStrictOrderedRing K] {j : Nat} (hbeams : 0 < laser.maxBeams)
    (h : laser.Scanned data beams) (hj : j < beams.length) :
    laser.keptBeams (obsCount contents beams) beams.length =
        (laser.unmaskedBeams beams j).map (·.ind) ↔
      laser.Settled data contents beams := by
  rw [obsCount_eq h]
  have hlt : ∀ beamInd ∈ (laser.usedRanges data).map (·.1), beamInd < laser.maxBeams.toNat := by
    intro beamInd hused
    obtain ⟨used, hmem, rfl⟩ := List.mem_map.mp hused
    exact lt_maxBeams_of_mem_usedRanges hbeams hmem
  constructor
  · intro heq
    have hmem : ∀ beamInd, beamInd < laser.maxBeams.toNat →
        (¬ laser.Masked (contents + agreeing beams) beams.length beamInd ↔
          beamInd ∈ (laser.usedRanges data).map (·.1) ∧
            ¬ laser.Masked (agreeing beams) beams.length beamInd) := by
      intro beamInd hind
      rw [← mem_unmaskedBeams_iff h hj, ← heq, mem_keptBeams]
      exact (and_iff_right hind).symm
    constructor
    case used =>
      intro used hused
      have hused := List.mem_map_of_mem (f := (·.1)) hused
      have hkept := hmem used.1 (hlt used.1 hused)
      exact not_iff_not.mp (hkept.trans (and_iff_right hused))
    case unused =>
      intro beamInd hind hunused
      exact not_not.mp fun hmasked => hunused ((hmem beamInd hind).mp hmasked).1
  · intro hsettled
    refine pairwise_keptBeams.eq_of_mem_iff (pairwise_unmaskedBeams h hj) fun {beamInd} => ?_
    rw [mem_keptBeams, mem_unmaskedBeams_iff h hj]
    constructor
    · intro ⟨hind, hkept⟩
      have hused : beamInd ∈ (laser.usedRanges data).map (·.1) :=
        not_not.mp fun hunused => hkept (hsettled.unused beamInd hind hunused)
      obtain ⟨used, hmem, rfl⟩ := List.mem_map.mp hused
      exact ⟨hused, fun hmasked => hkept ((hsettled.used used hmem).mpr hmasked)⟩
    · intro ⟨hused, hunmasked⟩
      refine ⟨hlt beamInd hused, fun hmasked => hunmasked ?_⟩
      obtain ⟨used, hmem, rfl⟩ := List.mem_map.mp hused
      exact (hsettled.used used hmem).mp hmasked

theorem unmaskedBeams_eq_self {j : Nat} (h : laser.Scanned data beams) (hj : j < beams.length)
    (hplain : ∀ used ∈ laser.usedRanges data,
      ¬ laser.Masked (agreeing beams) beams.length used.1) :
    laser.unmaskedBeams beams j = beams.getD j [] := by
  refine List.filter_eq_self.mpr fun beam hbeam => decide_eq_true ?_
  have hind : beam.ind ∈ (laser.usedRanges data).map (·.1) :=
    h _ (getD_mem hj) ▸ List.mem_map_of_mem hbeam
  obtain ⟨used, hused, heq⟩ := List.mem_map.mp hind
  exact heq ▸ hplain used hused

omit [Field K] [LinearOrder K] [FloorRing K] in
theorem mapWeights_congr {f g : Nat → K → K}
    (h : ∀ j < set.samples.length, ∀ weight, f j weight = g j weight) :
    set.mapWeights f = set.mapWeights g := by
  unfold SampleSet.mapWeights
  congr 1
  refine List.ext_getElem (by simp only [List.length_mapIdx]) fun j hj _ => ?_
  rw [List.length_mapIdx] at hj
  simp only [List.getElem_mapIdx, h j hj]

/-- A call with the entries of the unmasked beams agrees. -/
theorem agrees_of_entries
    (hmap : (set.samples.mapM fun sample => laser.sampleBeams lib data sample.pose) = .ok beams)
    (hset : set' = set.mapWeights fun j weight =>
      weight * ((laser.keptBeams (obsCount contents beams) set.samples.length).map
        (laser.updateTempObs beams j)).prod)
    (htotal : total = set'.weights.sum)
    (hentries : ∀ j < beams.length,
      ((laser.keptBeams (obsCount contents beams) beams.length).map fun beamInd =>
          (beamInd, laser.updateTempObs beams j beamInd)) =
        (laser.unmaskedBeams beams j).map fun beam => (beam.ind, beam.pz)) :
    Agrees lib laser data contents set beams total set' := by
  have hlength := length_of_mapM hmap
  have hweights : set' = set.mapWeights fun j weight =>
      weight * ((laser.unmaskedBeams beams j).map (·.pz)).prod := by
    rw [hset]
    refine mapWeights_congr fun j hj weight => ?_
    have hvalues := congrArg (List.map Prod.snd) (hentries j (hlength ▸ hj))
    rw [List.map_map, List.map_map] at hvalues
    rw [← hlength]
    exact congrArg (weight * ·.prod) hvalues
  refine ⟨hentries, hweights, htotal, fun hunmasked => ?_⟩
  have hall : (set.mapWeights fun j weight =>
      weight * ((laser.unmaskedBeams beams j).map (·.pz)).prod) =
      set.mapWeights fun j weight => weight * ((beams.getD j []).map (·.pz)).prod := by
    refine mapWeights_congr fun j hj weight => ?_
    rw [unmaskedBeams_eq_self (scanned_of_mapM hmap) (hlength ▸ hj) hunmasked]
  have hplain : (set.samples.mapM fun sample =>
      { laser with doBeamskip := false }.sampleBeams lib data sample.pose) = .ok beams := hmap
  rw [likelihoodFieldModelProb_plain (fun hskip => Bool.noConfusion hskip.1) hplain, ← hall,
    ← hweights, htotal]

/-- After any calls and whatever `obs_count` contains, the used beams have an index below
`max_beams_`, and a call that skips beams does what it should exactly if it is settled. -/
theorem skip_agrees_iff [IsStrictOrderedRing K] {laser₀ : SensorLaser K}
    (hbeams : 0 < laser₀.maxBeams) {calls : List (SensorLaserCall K)}
    (hrun : laser₀.run lib calls = .ok laser) (hskip : laser.doBeamskip ∧ set.converged)
    (hcall : laser.likelihoodFieldModelProb lib data contents set = .ok (total, set', laser')) :
    ∃ beams, (set.samples.mapM fun sample => laser.sampleBeams lib data sample.pose) = .ok beams ∧
      (∀ used ∈ laser.usedRanges data, used.1 < laser.maxBeams.toNat) ∧
      (∀ beamInd ∈ laser.keptBeams (obsCount contents beams) beams.length,
        beamInd < laser.maxBeams.toNat) ∧
      (Agrees lib laser data contents set beams total set' ↔
        (beams ≠ [] → laser.Settled data contents beams)) := by
  have hbeams : 0 < laser.maxBeams := maxBeams_run hrun ▸ hbeams
  obtain ⟨maxSamples, maxObs, beams, hroom, hmap⟩ := exists_beams hcall
  cases hcall.symm.trans (likelihoodFieldModelProb_skip hroom hskip hmap)
  have hscanned := scanned_of_mapM hmap
  refine ⟨beams, hmap, fun used hused => lt_maxBeams_of_mem_usedRanges hbeams hused,
    fun beamInd hkept => (mem_keptBeams.mp hkept).1, ?_, ?_⟩
  · intro hagrees hne
    have hpos := List.length_pos_iff.mpr hne
    exact (keptBeams_eq_iff hbeams hscanned hpos).mp
      ((entries_eq_iff hscanned hpos).mp (hagrees.entries 0 hpos))
  · intro hsettled
    refine agrees_of_entries hmap rfl rfl fun j hj => ?_
    have hsettled := hsettled (List.ne_nil_of_length_pos (Nat.zero_lt_of_lt hj))
    exact (entries_eq_iff hscanned hj).mpr ((keptBeams_eq_iff hbeams hscanned hj).mpr hsettled)

/-! ### A maximal range -/

deriving instance DecidableEq for Beam

/-- A laser that skips beams, before its first scan. -/
def skippingLaser : SensorLaser ℚ :=
  { laserAtOrigin with
    doBeamskip := true
    beamSkipDistance := 1
    beamSkipThreshold := 1 / 2
    beamSkipErrorThreshold := 1 / 2 }

/-- A converged set of one sample, on an obstacle. -/
def oneSample : SampleSet ℚ where
  samples := [⟨0, 1⟩]
  kdTree := .initializeByMaxSize 3 3
  converged := true

/-- The second range is the maximal one, which is ignored. -/
def scanWithMax : SensorLaserData ℚ := ⟨1, [(some (1 / 4), 0), (some 1, 0)]⟩

def scanWithoutMax : SensorLaserData ℚ := ⟨1, [(some (1 / 4), 0), (some (1 / 4), 0)]⟩

/-- One of two beams has no probability, the fallback keeps both, and the weight becomes zero. -/
theorem zero_entry_multiplied :
    ∃ beams total set' laser',
      (oneSample.samples.mapM fun sample =>
        skippingLaser.sampleBeams libmAtOrigin scanWithMax sample.pose) = .ok beams ∧
      skippingLaser.likelihoodFieldModelProb libmAtOrigin scanWithMax 0 oneSample =
        .ok (total, set', laser') ∧
      set'.weights = [0] ∧
      (oneSample.mapWeights fun j weight =>
        weight * ((skippingLaser.unmaskedBeams beams j).map (·.pz)).prod).weights = [1] ∧
      ¬ Agrees libmAtOrigin skippingLaser scanWithMax 0 oneSample beams total set' := by
  have hmap : (oneSample.samples.mapM fun sample =>
      skippingLaser.sampleBeams libmAtOrigin scanWithMax sample.pose) = .ok [[⟨0, 1, true⟩]] :=
    eq_ok_of_toOption (by decide +kernel)
  have hskipped : (oneSample.mapWeights fun j weight =>
      weight * ((skippingLaser.keptBeams (obsCount 0 [[⟨0, 1, true⟩]]) 1).map
        (skippingLaser.updateTempObs [[⟨0, 1, true⟩]] j)).prod).weights = [0] := by
    decide +kernel
  have hunmasked : (oneSample.mapWeights fun j weight =>
      weight * ((skippingLaser.unmaskedBeams [[⟨0, 1, true⟩]] j).map (·.pz)).prod).weights =
        [1] := by
    decide +kernel
  refine ⟨_, _, _, _, hmap, likelihoodFieldModelProb_skip rfl ⟨rfl, rfl⟩ hmap, hskipped, hunmasked,
    fun hagrees => ?_⟩
  have hweights := congrArg SampleSet.weights hagrees.weights
  rw [hunmasked] at hweights
  exact absurd (hskipped.symm.trans hweights) (by decide)

/-- Without a maximal range the call agrees. -/
theorem skip_agrees_iff_scanWithoutMax :
    ∃ beams total set',
      Agrees libmAtOrigin skippingLaser scanWithoutMax 0 oneSample beams total set' := by
  have hmap : (oneSample.samples.mapM fun sample =>
      skippingLaser.sampleBeams libmAtOrigin scanWithoutMax sample.pose) =
        .ok [[⟨0, 1, true⟩, ⟨1, 1, true⟩]] :=
    eq_ok_of_toOption (by decide +kernel)
  have hsettled : skippingLaser.Settled scanWithoutMax 0 [[⟨0, 1, true⟩, ⟨1, 1, true⟩]] := by
    constructor
    case used =>
      intro used hused
      rw [zero_add]
    case unused =>
      decide +kernel
  have hrun : skippingLaser.run libmAtOrigin [.SetLaserPose 0] = .ok skippingLaser := rfl
  have hcall : skippingLaser.likelihoodFieldModelProb libmAtOrigin scanWithoutMax 0 oneSample =
      .ok _ :=
    likelihoodFieldModelProb_skip rfl ⟨rfl, rfl⟩ hmap
  obtain ⟨beams, hbeams, -, -, hiff⟩ := skip_agrees_iff (by decide) hrun ⟨rfl, rfl⟩ hcall
  cases hmap.symm.trans hbeams
  exact ⟨_, _, _, hiff.mpr fun _ => hsettled⟩

end SensorLaser

end RoboRTS.Localization
