import RoboRTS.Localization.ParticleFilter.Defs
import Mathlib.Algebra.BigOperators.Ring.List
import Mathlib.Algebra.Order.BigOperators.Group.List
import Mathlib.Tactic.FieldSimp

/-!
# Weights and nodes through the operations of the filter

`FilterInv` holds of every filter: the sets have between one and `max_samples_` samples, no weight
is negative, and the trees are within their limit. After `UpdateOmega` with the total of the
weights, the weights of the current set are a distribution (`updateOmega_distribution`). From a
distribution `UpdateResample` draws a set with equal weights, and no assertion fails
(`updateResample_spec`).
-/

namespace RoboRTS.Localization

open CumulativeTable

section Lists

variable {α β : Type*}

/-- A function that does not look at the position. -/
theorem mapIdx_const (f : α → β) (l : List α) : l.mapIdx (fun _ => f) = l.map f := by
  induction l with
  | nil => rfl
  | cons a l ih => rw [List.mapIdx_cons, List.map_cons, ih]

variable {K : Type*} [DivisionRing K]

theorem sum_map_div (ws : List K) (total : K) : (ws.map (· / total)).sum = ws.sum / total := by
  induction ws with
  | nil => simp
  | cons w ws ih => rw [List.map_cons, List.sum_cons, List.sum_cons, ih, add_div]

/-- Equal weights of one over their number. -/
theorem sum_equal [CharZero K] {ws : List K} {n : Nat} (hlength : ws.length = n) (hpos : 1 ≤ n)
    (hequal : ∀ w ∈ ws, w = 1 / (n : K)) : ws.sum = 1 := by
  have hne : (n : K) ≠ 0 := Nat.cast_ne_zero.mpr (by omega)
  rw [List.eq_replicate_of_mem hequal, List.sum_replicate, hlength, nsmul_eq_mul]
  exact mul_one_div_cancel hne

end Lists

section Weights

variable {K : Type*} {set : SampleSet K} {f : Nat → K → K}

@[simp] theorem length_weights : set.weights.length = set.samples.length :=
  List.length_map _

@[simp] theorem length_mapWeights : (set.mapWeights f).samples.length = set.samples.length :=
  List.length_mapIdx

theorem weights_mapWeights : (set.mapWeights f).weights = set.weights.mapIdx f := by
  refine List.ext_getElem? fun i => ?_
  simp only [SampleSet.weights, SampleSet.mapWeights, List.getElem?_map, List.getElem?_mapIdx,
    Option.map_map]
  rfl

@[simp] theorem getCurrentSampleSet_setSampleSet {pf : ParticleFilter K} :
    (pf.setSampleSet pf.currentSet set).getCurrentSampleSet = set :=
  Function.update_self ..

/-- What holds of a new set while samples are drawn. -/
structure Drawing [Field K] (maxSamples : Nat) (set : SampleSet K) (total : K) : Prop where
  ones : ∀ sample ∈ set.samples, sample.weight = 1
  total : total = set.samples.length
  size : set.samples.length ≤ maxSamples
  limit : set.kdTree.nodeMaxCount = 3 * maxSamples
  nodes : set.kdTree.nodeCount ≤ 2 * set.samples.length

/-- One sample more. -/
theorem Drawing.add [Field K] {total : K} {t : KDTree K} {maxSamples : Nat}
    (h : Drawing maxSamples set total)
    (hroom : set.samples.length < maxSamples) (hgrown : set.kdTree.Grown t) (pose : Vec3d K) :
    Drawing maxSamples { set with samples := set.samples ++ [⟨pose, 1⟩], kdTree := t }
      (total + 1) := by
  have hcount := hgrown.count
  have hnodes := h.nodes
  constructor
  case ones =>
    intro sample hsample
    cases List.mem_append.mp hsample with
    | inl hold => exact h.ones sample hold
    | inr hnew => rw [List.mem_singleton.mp hnew]
  case total => rw [h.total, List.length_append, Nat.cast_add, List.length_singleton, Nat.cast_one]
  case size =>
    rw [List.length_append]
    exact hroom
  case limit => exact hgrown.limit.trans h.limit
  case nodes =>
    rw [List.length_append, List.length_singleton]
    dsimp only
    omega

end Weights

variable {K : Type*} [Field K] [LinearOrder K]

/-- Weights to draw from. -/
structure Distribution (ws : List K) : Prop where
  nonneg : ∀ w ∈ ws, 0 ≤ w
  sum : ws.sum = 1

/-- What holds of a set of samples. -/
structure SetInv (maxSamples : Nat) (set : SampleSet K) : Prop where
  pos : 1 ≤ set.samples.length
  size : set.samples.length ≤ maxSamples
  nonneg : ∀ w ∈ set.weights, 0 ≤ w
  limit : set.kdTree.nodeMaxCount = 3 * maxSamples
  nodes : set.kdTree.nodeCount ≤ set.kdTree.nodeMaxCount

/-- What holds of a filter. -/
def FilterInv (pf : ParticleFilter K) : Prop :=
  ∀ i, SetInv pf.maxSamples (pf.sampleSets i)

/-- A set that has just been resampled. -/
structure Resampled (maxSamples : Nat) (set : SampleSet K) : Prop where
  pos : 1 ≤ set.samples.length
  size : set.samples.length ≤ maxSamples
  equal : ∀ w ∈ set.weights, w = 1 / set.samples.length
  sum : set.weights.sum = 1

variable {pf pf' : ParticleFilter K} {set : SampleSet K} {f : Nat → K → K} {maxSamples : Nat}

theorem SetInv.mapWeights (h : SetInv maxSamples set) (hf : ∀ i w, 0 ≤ w → 0 ≤ f i w) :
    SetInv maxSamples (set.mapWeights f) := by
  refine ⟨?_, ?_, fun w hw => ?_, h.limit, h.nodes⟩
  · rw [length_mapWeights]
    exact h.pos
  · rw [length_mapWeights]
    exact h.size
  · rw [weights_mapWeights] at hw
    obtain ⟨i, hi, rfl⟩ := List.mem_mapIdx.mp hw
    exact hf i _ (h.nonneg _ (List.getElem_mem hi))

theorem SetInv.updateConverged (h : SetInv maxSamples set) {distThreshold : K} :
    SetInv maxSamples (set.updateConverged distThreshold) :=
  ⟨h.pos, h.size, h.nonneg, h.limit, h.nodes⟩

theorem Resampled.updateConverged (h : Resampled maxSamples set) {distThreshold : K} :
    Resampled maxSamples (set.updateConverged distThreshold) :=
  ⟨h.pos, h.size, h.equal, h.sum⟩

/-- One set of a filter changes. -/
theorem FilterInv.setSampleSet (h : FilterInv pf) (i : Fin 2) (hset : SetInv pf.maxSamples set) :
    FilterInv (pf.setSampleSet i set) := by
  intro j
  show SetInv pf.maxSamples (Function.update pf.sampleSets i set j)
  by_cases hij : j = i
  · subst hij
    rw [Function.update_self]
    exact hset
  · rw [Function.update_of_ne hij]
    exact h j

theorem FilterInv.current (h : FilterInv pf) : SetInv pf.maxSamples pf.getCurrentSampleSet :=
  h pf.currentSet

variable [IsStrictOrderedRing K]

theorem nonneg_of_equal {ws : List K} {n : Nat} (hequal : ∀ w ∈ ws, w = 1 / (n : K)) :
    ∀ w ∈ ws, 0 ≤ w := by
  intro w hw
  rw [hequal w hw]
  exact one_div_nonneg.mpr (Nat.cast_nonneg n)

theorem new_inv (lib : Libm K) (minSamples : Int) (hmax : 1 ≤ maxSamples) (alphaSlow alphaFast : K) :
    FilterInv (.new lib minSamples maxSamples alphaSlow alphaFast) := by
  intro i
  have hequal : ∀ w ∈ ((ParticleFilter.new lib minSamples maxSamples alphaSlow alphaFast).sampleSets
      i).weights, w = 1 / (maxSamples : K) := by
    intro w hw
    obtain ⟨sample, hsample, rfl⟩ := List.mem_map.mp hw
    rw [List.eq_of_mem_replicate hsample]
  refine ⟨?_, ?_, nonneg_of_equal hequal, rfl, Nat.zero_le _⟩
  · exact hmax.trans_eq (List.length_replicate).symm
  · exact (List.length_replicate).le

/-! ## `UpdateOmega` -/

/-- The weights become a distribution, if the total is theirs or not positive. -/
theorem updateOmega_distribution (h : FilterInv pf) (totalWeight : K)
    (htotal : totalWeight > 0 → totalWeight = pf.getCurrentSampleSet.weights.sum) :
    Distribution (pf.updateOmega totalWeight).getCurrentSampleSet.weights := by
  have hset := h.current
  unfold ParticleFilter.updateOmega
  dsimp only
  by_cases hpos : totalWeight > 0
  · rw [if_pos hpos]
    show Distribution (pf.setSampleSet pf.currentSet _).getCurrentSampleSet.weights
    rw [getCurrentSampleSet_setSampleSet, weights_mapWeights, mapIdx_const]
    constructor
    · intro w hw
      obtain ⟨v, hv, rfl⟩ := List.mem_map.mp hw
      exact div_nonneg (hset.nonneg v hv) hpos.le
    · rw [sum_map_div, ← htotal hpos]
      exact div_self hpos.ne'
  · rw [if_neg hpos, getCurrentSampleSet_setSampleSet, weights_mapWeights, mapIdx_const]
    have hequal : ∀ w ∈ pf.getCurrentSampleSet.weights.map fun _ =>
        1 / (pf.getCurrentSampleSet.samples.length : K),
        w = 1 / (pf.getCurrentSampleSet.samples.length : K) := by
      intro w hw
      obtain ⟨v, -, rfl⟩ := List.mem_map.mp hw
      rfl
    exact ⟨nonneg_of_equal hequal, sum_equal (by simp) hset.pos hequal⟩

theorem updateOmega_inv (h : FilterInv pf) (totalWeight : K) :
    FilterInv (pf.updateOmega totalWeight) := by
  unfold ParticleFilter.updateOmega
  dsimp only
  by_cases hpos : totalWeight > 0
  · rw [if_pos hpos]
    exact h.setSampleSet pf.currentSet
      (h.current.mapWeights fun _ w hw => div_nonneg hw hpos.le)
  · rw [if_neg hpos]
    exact h.setSampleSet pf.currentSet
      (h.current.mapWeights fun _ _ _ => one_div_nonneg.mpr (Nat.cast_nonneg _))

/-! ## Draws -/

/-- A number draws a sample of positive weight. -/
theorem draw_spec (h : Distribution set.weights) {r : K} (hnonneg : 0 ≤ r) (hlt : r < 1) :
    ∃ pose, set.draw r = .ok pose := by
  rw [← h.sum] at hlt
  obtain ⟨hindex, hbucket⟩ := bucket_spec hnonneg hlt
  have hpos := hbucket.pos
  rw [length_weights] at hindex
  have hsome : set.samples[bucket set.weights r]? = some set.samples[bucket set.weights r] :=
    List.getElem?_eq_getElem hindex
  rw [List.getD_eq_getElem?_getD, SampleSet.weights, List.getElem?_map, ← SampleSet.weights,
    hsome] at hpos
  refine ⟨set.samples[bucket set.weights r].pose, ?_⟩
  unfold SampleSet.draw
  rw [hsome]
  exact if_pos hpos

theorem newPose_spec (draws : ResampleDraws K)
    (hdistribution : Distribution pf.getCurrentSampleSet.weights) (n : Nat) :
    ∃ pose, pf.newPose draws n = .ok pose := by
  unfold ParticleFilter.newPose
  split
  · exact ⟨_, rfl⟩
  · exact draw_spec hdistribution (draws.pick n).2.1 (draws.pick n).2.2

/-! ## The initialisations -/

variable [FloorRing K]

/-- The initialisations succeed. -/
theorem initSamples_spec (h : FilterInv pf) (hmax : 1 ≤ pf.maxSamples) (poses : Nat → Vec3d K) :
    ∃ pf', pf.initSamples poses = .ok pf' ∧ FilterInv pf' ∧ pf'.maxSamples = pf.maxSamples := by
  have hlimit := h.current.limit
  obtain ⟨t, hinsert, hlimit', hcount⟩ := KDTree.insertPoses_spec poses (1 / (pf.maxSamples : K))
    (List.range pf.maxSamples) (t := pf.getCurrentSampleSet.kdTree.clear) (by
      rw [List.length_range]
      show 0 + 2 * pf.maxSamples ≤ pf.getCurrentSampleSet.kdTree.nodeMaxCount
      omega)
  have hlimit' : t.nodeMaxCount = pf.getCurrentSampleSet.kdTree.nodeMaxCount := hlimit'
  have hcount : t.nodeCount ≤ 0 + 2 * (List.range pf.maxSamples).length := hcount
  rw [List.length_range] at hcount
  unfold ParticleFilter.initSamples
  dsimp only
  rw [hinsert]
  refine ⟨_, rfl, fun i => h.setSampleSet pf.currentSet ⟨?_, ?_, ?_, ?_, ?_⟩ i, rfl⟩
  · simpa using hmax
  · simp
  · intro w hw
    obtain ⟨sample, hsample, rfl⟩ := List.mem_map.mp hw
    obtain ⟨j, -, rfl⟩ := List.mem_map.mp hsample
    exact one_div_nonneg.mpr (Nat.cast_nonneg _)
  · rw [hlimit', hlimit]
  · dsimp only
    omega

/-! ## `UpdateResample` -/

/-- From a distribution the loop draws a set without a failed assertion. -/
theorem drawSamples_spec (lib : Libm K) (draws : ResampleDraws K)
    (hdistribution : Distribution pf.getCurrentSampleSet.weights) (room : Nat) {total : K}
    (h : Drawing pf.maxSamples set total) (hroom : set.samples.length + room = pf.maxSamples) :
    ∃ set' total', pf.drawSamples lib draws room (set, total) = .ok (set', total') ∧
      Drawing pf.maxSamples set' total' ∧ set.samples.length ≤ set'.samples.length ∧
      (0 < room → 0 < set'.samples.length) := by
  induction room generalizing set total with
  | zero => exact ⟨set, total, rfl, h, le_rfl, fun hpos => absurd hpos (Nat.lt_irrefl 0)⟩
  | succ room ih =>
      have hlimit := h.limit
      have hnodes := h.nodes
      obtain ⟨pose, hpose⟩ := newPose_spec draws hdistribution set.samples.length
      obtain ⟨t, hinsert, hgrown⟩ := KDTree.insertPose_spec (t := set.kdTree) pose (1 : K) (by omega)
      have hadd := h.add (by omega) hgrown pose
      unfold ParticleFilter.drawSamples
      dsimp only
      rw [hpose]
      dsimp only [bind, Except.bind]
      rw [hinsert]
      dsimp only
      split
      · refine ⟨_, _, rfl, hadd, ?_, fun _ => ?_⟩ <;> simp
      · obtain ⟨set', total', hloop, hdrawing, hle, -⟩ := ih hadd (by
          rw [List.length_append, List.length_singleton]
          omega)
        rw [List.length_append, List.length_singleton] at hle
        exact ⟨set', total', hloop, hdrawing, by omega, fun _ => by omega⟩

/-- The weights of the new set are normalized. -/
theorem Drawing.normalized {total : K} (h : Drawing maxSamples set total)
    (hpos : 0 < set.samples.length) :
    SetInv maxSamples (set.mapWeights fun _ weight => weight / total) ∧
      Resampled maxSamples (set.mapWeights fun _ weight => weight / total) := by
  have hlength : (set.mapWeights fun _ weight => weight / total).samples.length =
      set.samples.length := length_mapWeights
  have hequal : ∀ w ∈ (set.mapWeights fun _ weight => weight / total).weights,
      w = 1 / (set.samples.length : K) := by
    intro w hw
    rw [weights_mapWeights, mapIdx_const] at hw
    obtain ⟨v, hv, rfl⟩ := List.mem_map.mp hw
    obtain ⟨sample, hsample, rfl⟩ := List.mem_map.mp hv
    rw [h.ones sample hsample, h.total]
  have hnodes := h.nodes
  have hsize := h.size
  constructor
  · refine ⟨hlength ▸ hpos, hlength ▸ hsize, nonneg_of_equal hequal, h.limit, ?_⟩
    show set.kdTree.nodeCount ≤ set.kdTree.nodeMaxCount
    rw [h.limit]
    omega
  · refine ⟨hlength ▸ hpos, hlength ▸ hsize, fun w hw => ?_, sum_equal (by simp) hpos hequal⟩
    rw [hlength]
    exact hequal w hw

/-- `UpdateResample` on a distribution: no assertion fails, and the new current set has equal
weights. -/
theorem updateResample_spec (lib : Libm K) (draws : ResampleDraws K) (h : FilterInv pf)
    (hmax : 1 ≤ pf.maxSamples) (hdistribution : Distribution pf.getCurrentSampleSet.weights) :
    ∃ pf', pf.updateResample lib draws = .ok pf' ∧ FilterInv pf' ∧
      pf'.maxSamples = pf.maxSamples ∧ Resampled pf.maxSamples pf'.getCurrentSampleSet := by
  have hother := h (pf.currentSet + 1)
  have hstart : Drawing pf.maxSamples
      { pf.sampleSets (pf.currentSet + 1) with
        samples := [], kdTree := (pf.sampleSets (pf.currentSet + 1)).kdTree.clear } (0 : K) :=
    ⟨fun _ hmem => absurd hmem List.not_mem_nil, by simp, Nat.zero_le _, hother.limit, le_rfl⟩
  obtain ⟨drawn, total, hloop, hdrawing, -, hpos⟩ :=
    drawSamples_spec lib draws hdistribution pf.maxSamples hstart (Nat.zero_add _)
  obtain ⟨hset, hresampled⟩ := hdrawing.normalized (hpos hmax)
  unfold ParticleFilter.updateResample
  dsimp only
  rw [hloop]
  refine ⟨_, rfl, h.setSampleSet _ hset.updateConverged, rfl, ?_⟩
  show Resampled pf.maxSamples (Function.update pf.sampleSets (pf.currentSet + 1) _
    (pf.currentSet + 1))
  rw [Function.update_self]
  exact hresampled.updateConverged

end RoboRTS.Localization
