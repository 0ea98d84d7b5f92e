import RoboRTS.Lib.WeightedAverage
import RoboRTS.Localization.ParticleFilter.ClusterStatistics.Defs
import RoboRTS.Localization.ParticleFilter.KDTreeNodes.Clusters
import Mathlib.Algebra.BigOperators.Fin

/-!
# The moments of the statistics

What `ClusterStatistics` computes of a set whose histogram holds the bins of its samples
(`clusterStatistics_eq`). The means of the clusters are the averages of their samples, but the set
is given the sum of the running sums of the clusters (`clusterStatistics_mean_iff`), and the second
moments are never summed up (`clusterStatistics_covariance_iff`).
-/

namespace RoboRTS.Localization

open ParticleFilterKDTree WeightedAverage

namespace SetStatistics

/-! ## The loop over the samples -/

section Loop

variable {K : Type} [Field K] {lib : StatisticsLibm K} {label : Sample K → Nat}
  {samples : List (Sample K)} {sums : Sums K} {c : Nat}

/-- A linear component of the pose of a sample. -/
def linear (d : Fin 2) (sample : Sample K) : K :=
  sample.pose d.castSucc

/-- The index of a linear component in a workspace vector. -/
def wsIndex (d : Fin 2) : Fin 4 :=
  d.castLE (by decide)

/-- The rounds of samples with labels. -/
def addSamples (lib : StatisticsLibm K) (label : Sample K → Nat) (samples : List (Sample K))
    (sums : Sums K) : Sums K :=
  samples.foldl (fun sums sample => addSample lib sums sample (label sample)) sums

theorem wsTerm_linear (lib : StatisticsLibm K) (sample : Sample K) (xy : Fin 2 → K) (d : Fin 2) :
    wsTerm lib sample xy (wsIndex d) = sample.weight * xy d := by
  match d with
  | 0 => rfl
  | 1 => rfl

theorem addToCluster_ws (lib : StatisticsLibm K) (cluster : ParticleFilterCluster K)
    (sample : Sample K) (d : Fin 2) :
    (addToCluster lib cluster sample).wsVec (wsIndex d) =
      cluster.wsVec (wsIndex d) + sample.weight * sample.pose d.castSucc := by
  have hxy : (![sample.pose 0, sample.pose 1] : Fin 2 → K) d = sample.pose d.castSucc := by
    match d with
    | 0 => rfl
    | 1 => rfl
  rw [← hxy, ← wsTerm_linear]
  rfl

/-- What is added to the total is the running sum of the cluster. -/
theorem addSample_tmpWsVec (sample : Sample K) (c : Nat) (d : Fin 2) :
    (addSample lib sums sample c).tmpWsVec (wsIndex d) =
      sums.tmpWsVec (wsIndex d) + sample.weight *
        ((sums.stats.clusters c).wsVec (wsIndex d) + sample.weight * sample.pose d.castSucc) := by
  rw [← addToCluster_ws lib]
  generalize hws : (addToCluster lib (sums.stats.clusters c) sample).wsVec = ws
  have hxy : ws (wsIndex d) = (![ws 0, ws 1] : Fin 2 → K) d := by
    match d with
    | 0 => rfl
    | 1 => rfl
  rw [hxy, ← wsTerm_linear lib, ← hws]
  rfl

theorem addSamples_kdTree :
    (addSamples lib label samples sums).stats.kdTree = sums.stats.kdTree := by
  induction samples generalizing sums with
  | nil => rfl
  | cons sample samples ih => exact ih

theorem addSamples_weight :
    (addSamples lib label samples sums).weight =
      sums.weight + (samples.map Sample.weight).sum := by
  induction samples generalizing sums with
  | nil => exact (add_zero _).symm
  | cons sample samples ih =>
      rw [List.map_cons, List.sum_cons, ← add_assoc]
      exact ih

/-- The weight of a cluster is that of its samples. -/
theorem addSamples_clusterWeight (lib : StatisticsLibm K) (label : Sample K → Nat)
    (samples : List (Sample K)) (sums : Sums K) (c : Nat) :
    ((addSamples lib label samples sums).stats.clusters c).weight =
      (sums.stats.clusters c).weight +
        ((samples.filter fun sample => label sample = c).map Sample.weight).sum := by
  induction samples generalizing sums with
  | nil => exact (add_zero _).symm
  | cons sample samples ih =>
      refine (ih _).trans ?_
      show (Function.update sums.stats.clusters (label sample) _ c).weight + _ = _
      by_cases heq : label sample = c
      · subst heq
        rw [Function.update_self, List.filter_cons_of_pos (by simp), List.map_cons, List.sum_cons,
          ← add_assoc]
        rfl
      · rw [Function.update_of_ne (Ne.symm heq), List.filter_cons_of_neg (by simpa using heq)]

/-- Nothing is summed up in the workspace matrices. -/
theorem addSamples_wsMat :
    ((addSamples lib label samples sums).stats.clusters c).wsMat =
      (sums.stats.clusters c).wsMat := by
  induction samples generalizing sums with
  | nil => rfl
  | cons sample samples ih =>
      refine ih.trans ?_
      show (Function.update sums.stats.clusters (label sample) _ c).wsMat = _
      by_cases heq : c = label sample
      · subst heq
        rw [Function.update_self]
        rfl
      · rw [Function.update_of_ne heq]

/-- The linear components of the workspace vectors: the sums of the clusters, and their running sums
in the total. -/
theorem addSamples_ws (lib : StatisticsLibm K) (label : Sample K → Nat)
    (samples : List (Sample K)) (sums : Sums K) (d : Fin 2) :
    ((fun c => ((addSamples lib label samples sums).stats.clusters c).wsVec (wsIndex d)),
      (addSamples lib label samples sums).tmpWsVec (wsIndex d)) =
    accumulate label Sample.weight (linear d) samples
      (fun c => (sums.stats.clusters c).wsVec (wsIndex d), sums.tmpWsVec (wsIndex d)) := by
  induction samples generalizing sums with
  | nil => rfl
  | cons sample samples ih =>
      have hgroup : (fun c => ((addSample lib sums sample (label sample)).stats.clusters c).wsVec
          (wsIndex d)) =
          Function.update (fun c => (sums.stats.clusters c).wsVec (wsIndex d)) (label sample)
            ((sums.stats.clusters (label sample)).wsVec (wsIndex d) +
              sample.weight * sample.pose d.castSucc) := by
        funext c
        show (Function.update sums.stats.clusters (label sample) _ c).wsVec (wsIndex d) = _
        by_cases heq : c = label sample
        · subst heq
          rw [Function.update_self, Function.update_self, addToCluster_ws]
        · rw [Function.update_of_ne heq, Function.update_of_ne heq]
      refine (ih _).trans ?_
      rw [hgroup, addSample_tmpWsVec]
      rfl

/-- The labels of the samples are counted. -/
theorem lt_clusterCount :
    sums.stats.clusterCount ≤ (addSamples lib label samples sums).stats.clusterCount ∧
    ∀ sample ∈ samples, label sample < (addSamples lib label samples sums).stats.clusterCount := by
  induction samples generalizing sums with
  | nil => exact ⟨le_rfl, by simp⟩
  | cons sample samples ih =>
      obtain ⟨hle, hmem⟩ := @ih (addSample lib sums sample (label sample))
      have hcount : (addSample lib sums sample (label sample)).stats.clusterCount =
          if label sample + 1 > sums.stats.clusterCount then label sample + 1
          else sums.stats.clusterCount := rfl
      have hfirst : sums.stats.clusterCount ≤
          (addSample lib sums sample (label sample)).stats.clusterCount ∧
            label sample < (addSample lib sums sample (label sample)).stats.clusterCount := by
        rw [hcount]
        split <;> omega
      exact ⟨hfirst.1.trans hle, List.forall_mem_cons.mpr ⟨hfirst.2.trans_le hle, hmem⟩⟩

variable [LinearOrder K] [FloorRing K]

/-- Where each sample has a label, the loop goes through all of them. -/
theorem sumSamples_eq
    (hlabel : ∀ sample ∈ samples,
      sums.stats.kdTree.getCluster sample.pose = some (label sample : Int))
    (hmax : ∀ sample ∈ samples, label sample < sums.stats.clusterMaxCount) :
    sumSamples lib samples sums = some (addSamples lib label samples sums, true) := by
  induction samples generalizing sums with
  | nil => rfl
  | cons sample samples ih =>
      have hlt := hmax sample List.mem_cons_self
      unfold sumSamples
      rw [hlabel sample List.mem_cons_self, Option.bind_eq_bind, Option.bind_some,
        if_neg (by omega), if_neg (by omega), Int.toNat_natCast]
      exact ih (fun sample' h => hlabel sample' (List.mem_cons_of_mem sample h))
        fun sample' h => hmax sample' (List.mem_cons_of_mem sample h)

end Loop

/-! ## Normalisation -/

section Normalize

variable {K : Type} [Field K]

/-- The clusters that are counted are normalised. -/
theorem normalize_clusters {lib : StatisticsLibm K} {sums : Sums K} {c : Nat}
    (hc : c < sums.stats.clusterCount) :
    (normalize lib sums).clusters c = normalizeCluster lib (sums.stats.clusters c) :=
  if_pos hc

theorem setLinear_linear (cov : Mat3d K) (wsMat : Fin 2 → Fin 2 → K) (weight : K) (mean : Vec3d K)
    (d e : Fin 2) :
    setLinear cov wsMat weight mean d.castSucc e.castSucc =
      wsMat d e / weight - mean d.castSucc * mean e.castSucc :=
  dif_pos ⟨d.2, e.2⟩

theorem setAngular_linear (lib : StatisticsLibm K) (cov : Mat3d K) (ws : Fin 4 → K) (d e : Fin 2) :
    setAngular lib cov ws d.castSucc e.castSucc = cov d.castSucc e.castSucc := by
  have hne : d.castSucc ≠ 2 := (Fin.castSucc_lt_last d).ne
  rw [setAngular, Function.update_of_ne hne]

/-- Without second moments, what is left of a covariance is the product of the means. -/
theorem covariance_linear (lib : StatisticsLibm K) (cov : Mat3d K) (weight : K) (mean : Vec3d K)
    (ws : Fin 4 → K) (d e : Fin 2) :
    setAngular lib (setLinear cov 0 weight mean) ws d.castSucc e.castSucc =
      -(mean d.castSucc * mean e.castSucc) := by
  rw [setAngular_linear, setLinear_linear]
  show 0 / weight - _ = _
  rw [zero_div, zero_sub]

theorem mean_linear (z weight : K) (ws : Fin 4 → K) (d : Fin 2) :
    (![ws 0 / weight, ws 1 / weight, z] : Vec3d K) d.castSucc = ws (wsIndex d) / weight := by
  match d with
  | 0 => rfl
  | 1 => rfl

end Normalize

/-! ## The statistics of a set -/

section Spec

variable {K : Type} [Field K] [LinearOrder K] [FloorRing K]

/-- The samples with a label. -/
def clusterSamples (stats : SetStatistics K) (samples : List (Sample K)) (c : Nat) :
    List (Sample K) :=
  samples.filter fun sample => stats.kdTree.getCluster sample.pose = some (c : Int)

/-- The histogram counts what was inserted, in at most as many bins as there may be clusters, and
the bins of the samples are among them. -/
structure HoldsBins (stats : SetStatistics K) (samples : List (Sample K))
    (entries : List (Key × K)) : Prop where
  counts : stats.kdTree.Counts entries
  bins : ∀ sample ∈ samples, stats.kdTree.bin sample.pose ∈ entries.map Prod.fst
  room : distinct entries ≤ stats.clusterMaxCount

/-- The bins of two samples are joined by a chain of bins. -/
def SameCluster (t : ParticleFilterKDTree K) (bins : List Key) (a b : Sample K) : Prop :=
  ∃ ha hb, components bins ⟨t.bin a.pose, ha⟩ ⟨t.bin b.pose, hb⟩

noncomputable instance (t : ParticleFilterKDTree K) (bins : List Key) :
    DecidableRel (SameCluster t bins) :=
  Classical.decRel _

/-- What `ClusterStatistics` makes of the linear components. -/
structure Moments (stats : SetStatistics K) (samples : List (Sample K))
    (same : Sample K → Sample K → Prop) [DecidableRel same] : Prop where
  labelled : ∀ sample ∈ samples, ∃ c, sample ∈ stats.clusterSamples samples c
  mean : ∀ d : Fin 2, stats.mean d.castSucc =
    compounded Sample.weight (linear d) same samples / (samples.map Sample.weight).sum
  covariant : ∀ d e : Fin 2, stats.covariant d.castSucc e.castSucc =
    -(stats.mean d.castSucc * stats.mean e.castSucc)
  clusterMean : ∀ c, stats.clusterSamples samples c ≠ [] → ∀ d : Fin 2,
    (stats.clusters c).mean d.castSucc =
      WeightedAverage.mean Sample.weight (linear d) (stats.clusterSamples samples c)
  clusterCov : ∀ c, stats.clusterSamples samples c ≠ [] → ∀ d e : Fin 2,
    (stats.clusters c).cov d.castSucc e.castSucc =
      -((stats.clusters c).mean d.castSucc * (stats.clusters c).mean e.castSucc)

variable {lib : StatisticsLibm K} {stats stats' : SetStatistics K} {samples : List (Sample K)}
  {entries : List (Key × K)}

/-- The result of `ClusterStatistics`, with the labels of the samples. -/
theorem clusterStatistics_eq (lib : StatisticsLibm K) (h : HoldsBins stats samples entries)
    (hne : samples ≠ []) :
    ∃ kdTree label,
      (∀ sample ∈ samples, kdTree.getCluster sample.pose = some (label sample : Int)) ∧
      (∀ a ∈ samples, ∀ b ∈ samples,
        label b = label a ↔ SameCluster stats.kdTree (entries.map Prod.fst) a b) ∧
      (∀ sample ∈ samples, label sample < stats.clusterMaxCount) ∧
      clusterStatistics lib samples stats =
        some (normalize lib (addSamples lib label samples (start stats kdTree))) := by
  obtain ⟨first, hfirst⟩ := List.exists_mem_of_ne_nil samples hne
  have hentries : entries ≠ [] := by
    rintro rfl
    exact absurd (h.bins first hfirst) List.not_mem_nil
  obtain ⟨kdTree, label, hcluster, hclustering, -, hsize⟩ := h.counts.cluster_eq hentries
  have hbin := bin_congr hsize
  classical
  -- a label for each sample, whether or not the tree knows its bin
  let labelOf : Sample K → Nat := fun sample =>
    if hkey : kdTree.bin sample.pose ∈ entries.map Prod.fst then label ⟨_, hkey⟩ else 0
  have hkeys : ∀ sample ∈ samples, kdTree.bin sample.pose ∈ entries.map Prod.fst :=
    fun sample hsample => hbin ▸ h.bins sample hsample
  have hlabelOf : ∀ sample (hsample : sample ∈ samples),
      labelOf sample = label ⟨kdTree.bin sample.pose, hkeys sample hsample⟩ :=
    fun sample hsample => dif_pos (hkeys sample hsample)
  have hget : ∀ sample ∈ samples, kdTree.getCluster sample.pose = some (labelOf sample : Int) := by
    intro sample hsample
    rw [hlabelOf sample hsample]
    exact hclustering.getCluster_eq (hkeys sample hsample)
  have hlt : ∀ sample ∈ samples, labelOf sample < stats.clusterMaxCount := by
    intro sample hsample
    rw [hlabelOf sample hsample]
    exact (hclustering.label_lt _).trans_le h.room
  refine ⟨kdTree, labelOf, hget, ?_, hlt, ?_⟩
  · intro a ha b hb
    rw [hlabelOf a ha, hlabelOf b hb, eq_comm, hclustering.eq_iff]
    unfold SameCluster
    rw [← hbin]
    exact ⟨fun hjoined => ⟨_, _, hjoined⟩, fun ⟨_, _, hjoined⟩ => hjoined⟩
  · unfold clusterStatistics
    rw [hcluster, Option.bind_eq_bind, Option.bind_some, sumSamples_eq hget hlt]
    rfl

/-- `ClusterStatistics` finds the cluster of each sample, and normalises what it has summed up. -/
def Completes (lib : StatisticsLibm K) (samples : List (Sample K))
    (stats stats' : SetStatistics K) : Prop :=
  ∃ kdTree sums, stats.kdTree.cluster = some kdTree ∧
    sumSamples lib samples (start stats kdTree) = some (sums, true) ∧ stats' = normalize lib sums

theorem Completes.result (h : Completes lib samples stats stats') :
    clusterStatistics lib samples stats = some stats' := by
  obtain ⟨kdTree, sums, hcluster, hsums, rfl⟩ := h
  unfold clusterStatistics
  rw [hcluster, Option.bind_eq_bind, Option.bind_some, hsums]
  rfl

theorem sumSamples_kdTree {sums sums' : Sums K} {found : Bool}
    (h : sumSamples lib samples sums = some (sums', found)) :
    sums'.stats.kdTree = sums.stats.kdTree := by
  induction samples generalizing sums with
  | nil =>
      cases h
      rfl
  | cons sample samples ih =>
      obtain ⟨clusterIndex, -, h⟩ := Option.bind_eq_some_iff.mp h
      split_ifs at h
      · cases h
        rfl
      · exact ih h
      · exact (ih h).trans rfl

/-- The loop goes through all samples that have a cluster. -/
theorem sumSamples_found (lib : StatisticsLibm K) {sums : Sums K}
    (h : ∀ sample ∈ samples, ∃ c : Nat, sums.stats.kdTree.getCluster sample.pose = some (c : Int)) :
    ∃ sums', sumSamples lib samples sums = some (sums', true) := by
  induction samples generalizing sums with
  | nil => exact ⟨sums, rfl⟩
  | cons sample samples ih =>
      obtain ⟨hfirst, hrest⟩ := List.forall_mem_cons.mp h
      obtain ⟨c, hc⟩ := hfirst
      unfold sumSamples
      rw [hc, Option.bind_eq_bind, Option.bind_some, if_neg (by omega)]
      split
      · exact ih hrest
      · exact ih hrest

/-- `ClusterStatistics` does not change what the histogram counts. -/
theorem counts_clusterStatistics (h : stats.kdTree.Counts entries)
    (hresult : clusterStatistics lib samples stats = some stats') :
    stats'.kdTree.Counts entries := by
  obtain ⟨kdTree, hcluster, hresult⟩ := Option.bind_eq_some_iff.mp hresult
  obtain ⟨⟨sums, found⟩, hsums, hresult⟩ := Option.bind_eq_some_iff.mp hresult
  have htree : sums.stats.kdTree = kdTree := sumSamples_kdTree hsums
  have hcounts := htree ▸ h.of_cluster hcluster
  cases found with
  | true =>
      cases hresult
      exact hcounts
  | false =>
      cases hresult
      exact hcounts

/-- If the histogram holds the bins of the samples, `ClusterStatistics` goes to its end. -/
theorem completes_of_counts (h : stats.kdTree.Counts entries)
    (hbins : ∀ sample ∈ samples, stats.kdTree.bin sample.pose ∈ entries.map Prod.fst)
    (hresult : clusterStatistics lib samples stats = some stats') :
    Completes lib samples stats stats' := by
  obtain ⟨kdTree, hcluster, hrest⟩ := Option.bind_eq_some_iff.mp hresult
  have hget : ∀ sample ∈ samples, ∃ c : Nat,
      (start stats kdTree).stats.kdTree.getCluster sample.pose = some (c : Int) := by
    intro sample hsample
    have hentries : entries ≠ [] := by
      rintro rfl
      exact absurd (hbins sample hsample) List.not_mem_nil
    obtain ⟨t, label, ht, hclustering, -, hsize⟩ := h.cluster_eq hentries
    cases hcluster.symm.trans ht
    have hbin : kdTree.bin sample.pose ∈ entries.map Prod.fst :=
      bin_congr hsize ▸ hbins sample hsample
    exact ⟨_, hclustering.getCluster_eq hbin⟩
  obtain ⟨sums, hsums⟩ := sumSamples_found lib hget
  refine ⟨kdTree, sums, hcluster, hsums, ?_⟩
  dsimp only at hrest
  rw [hsums] at hrest
  cases hrest
  rfl

omit [LinearOrder K] [FloorRing K] in
/-- The cluster of a label below the limit starts with nothing. -/
theorem start_cluster {kdTree : ParticleFilterKDTree K} {c : Nat} (hc : c < stats.clusterMaxCount) :
    (start stats kdTree).stats.clusters c = .reset :=
  if_pos hc

/-! The sums of the loop, from the start on. -/

section Start

variable {kdTree : ParticleFilterKDTree K} {label : Sample K → Nat} {c : Nat}

omit [LinearOrder K] [FloorRing K]

theorem start_clusterWeight (lib : StatisticsLibm K) (hc : c < stats.clusterMaxCount) :
    ((addSamples lib label samples (start stats kdTree)).stats.clusters c).weight =
      ((samples.filter fun sample => label sample = c).map Sample.weight).sum := by
  rw [addSamples_clusterWeight, start_cluster hc]
  exact zero_add _

theorem start_clusterWs (lib : StatisticsLibm K) (hc : c < stats.clusterMaxCount) (d : Fin 2) :
    ((addSamples lib label samples (start stats kdTree)).stats.clusters c).wsVec (wsIndex d) =
      ((samples.filter fun sample => label sample = c).map fun sample =>
        sample.weight * linear d sample).sum := by
  have hws := congrFun (congrArg Prod.fst (addSamples_ws lib label samples (start stats kdTree) d)) c
  rw [accumulate_group, start_cluster hc] at hws
  exact hws.trans (zero_add _)

theorem start_clusterWsMat (lib : StatisticsLibm K) (hc : c < stats.clusterMaxCount) :
    ((addSamples lib label samples (start stats kdTree)).stats.clusters c).wsMat = 0 := by
  rw [addSamples_wsMat, start_cluster hc]
  rfl

/-- The total is made of the running sums of the clusters. -/
theorem start_tmpWsVec (lib : StatisticsLibm K)
    (hlt : ∀ sample ∈ samples, label sample < stats.clusterMaxCount) (d : Fin 2) :
    (addSamples lib label samples (start stats kdTree)).tmpWsVec (wsIndex d) =
      compounded Sample.weight (linear d) (fun a b => label b = label a) samples := by
  -- the sums of the clusters start at zero
  have hzero : (samples.map fun sample => sample.weight *
      ((start stats kdTree).stats.clusters (label sample)).wsVec (wsIndex d)).sum = 0 := by
    refine List.sum_eq_zero fun x hx => ?_
    obtain ⟨sample, hsample, rfl⟩ := List.mem_map.mp hx
    rw [start_cluster (hlt sample hsample)]
    exact mul_zero _
  have hws := congrArg Prod.snd (addSamples_ws lib label samples (start stats kdTree) d)
  rw [accumulate_total, hzero] at hws
  exact hws.trans (by simp [start])

end Start

/-- `ClusterStatistics` of a set whose histogram holds the bins of its samples. -/
theorem clusterStatistics_moments (lib : StatisticsLibm K) (h : HoldsBins stats samples entries)
    (hne : samples ≠ []) :
    ∃ stats', clusterStatistics lib samples stats = some stats' ∧
      Moments stats' samples (SameCluster stats.kdTree (entries.map Prod.fst)) := by
  obtain ⟨kdTree, label, hget, hsame, hlt, hresult⟩ := clusterStatistics_eq lib h hne
  refine ⟨_, hresult, ?_⟩
  generalize hsums : addSamples lib label samples (start stats kdTree) = sums
  have htree : sums.stats.kdTree = kdTree := hsums ▸ addSamples_kdTree
  have hsamples : ∀ c, (normalize lib sums).clusterSamples samples c =
      samples.filter fun sample => label sample = c := by
    intro c
    refine List.filter_congr fun sample hsample => ?_
    show decide (sums.stats.kdTree.getCluster sample.pose = some (c : Int)) = _
    rw [htree, hget sample hsample]
    simp
  -- a label that is used is below the limit, and its cluster is normalised
  have hused : ∀ c, (normalize lib sums).clusterSamples samples c ≠ [] →
      c < stats.clusterMaxCount ∧
        (normalize lib sums).clusters c = normalizeCluster lib (sums.stats.clusters c) := by
    intro c hc
    rw [hsamples] at hc
    obtain ⟨sample, hsample⟩ := List.exists_mem_of_ne_nil _ hc
    obtain ⟨hmem, hlabel⟩ := List.mem_filter.mp hsample
    obtain rfl := of_decide_eq_true hlabel
    have hcount : label sample < sums.stats.clusterCount := hsums ▸ lt_clusterCount.2 sample hmem
    exact ⟨hlt sample hmem, normalize_clusters hcount⟩
  constructor
  case labelled =>
    intro sample hsample
    exact ⟨label sample, by rw [hsamples, List.mem_filter]; exact ⟨hsample, by simp⟩⟩
  case mean =>
    intro d
    have hweight : sums.weight = (samples.map Sample.weight).sum := by
      rw [← hsums, addSamples_weight]
      exact zero_add _
    rw [compounded_congr fun a ha b hb => (hsame a ha b hb).symm, ← start_tmpWsVec lib hlt d,
      hsums, ← hweight]
    exact mean_linear _ _ _ d
  case covariant => exact fun d e => covariance_linear ..
  case clusterMean =>
    intro c hc d
    obtain ⟨hmax, hcluster⟩ := hused c hc
    rw [hcluster, hsamples]
    refine (mean_linear _ _ _ d).trans ?_
    rw [WeightedAverage.mean, Multiset.map_coe, Multiset.sum_coe, Multiset.map_coe,
      Multiset.sum_coe, ← start_clusterWs lib hmax, ← start_clusterWeight lib hmax, hsums]
  case clusterCov =>
    intro c hc d e
    obtain ⟨hmax, hcluster⟩ := hused c hc
    have hmat : (sums.stats.clusters c).wsMat = 0 := hsums ▸ start_clusterWsMat lib hmax
    rw [hcluster]
    unfold normalizeCluster
    rw [hmat]
    exact covariance_linear ..

end Spec

/-! ## Averages and covariances -/

section Averages

variable {K : Type} [Field K] [LinearOrder K] [FloorRing K] {stats stats' : SetStatistics K}
  {samples : List (Sample K)} {entries : List (Key × K)}

/-- The linear components of the means are weighted averages. -/
structure MeansAreAverages (stats : SetStatistics K) (samples : List (Sample K)) : Prop where
  set : ∀ d : Fin 2, stats.mean d.castSucc = WeightedAverage.mean Sample.weight (linear d) samples
  cluster : ∀ c, stats.clusterSamples samples c ≠ [] → ∀ d : Fin 2,
    (stats.clusters c).mean d.castSucc =
      WeightedAverage.mean Sample.weight (linear d) (stats.clusterSamples samples c)

/-- A block that is symmetric and positive semidefinite. -/
structure PosSemidef (block : Fin 2 → Fin 2 → K) : Prop where
  symm : ∀ d e, block d e = block e d
  nonneg : ∀ u : Fin 2 → K, 0 ≤ ∑ d, ∑ e, u d * block d e * u e

/-- The linear components of the covariances are weighted covariances. -/
structure CovariancesAreCovariances (stats : SetStatistics K) (samples : List (Sample K)) :
    Prop where
  set : ∀ d e : Fin 2, stats.covariant d.castSucc e.castSucc =
    covariance Sample.weight (linear d) (linear e) samples
  cluster : ∀ c, stats.clusterSamples samples c ≠ [] → ∀ d e : Fin 2,
    (stats.clusters c).cov d.castSucc e.castSucc =
      covariance Sample.weight (linear d) (linear e) (stats.clusterSamples samples c)
  setPos : PosSemidef fun d e => stats.covariant d.castSucc e.castSucc
  clusterPos : ∀ c, stats.clusterSamples samples c ≠ [] →
    PosSemidef fun d e => (stats.clusters c).cov d.castSucc e.castSucc

omit [FloorRing K] in
theorem posSemidef_zero {block : Fin 2 → Fin 2 → K} (h : ∀ d e, block d e = 0) :
    PosSemidef block where
  symm d e := by rw [h, h]
  nonneg u := by simp [h]

variable [IsStrictOrderedRing K]

/-- A histogram that is filled counts the poses. -/
theorem counts_fillHistogram {poses : List (Vec3d K × K)}
    (h : stats.fillHistogram poses = some stats') :
    stats'.kdTree.Counts (poses.map fun pose => (stats.kdTree.bin pose.1, pose.2)) ∧
      stats'.kdTree.bin = stats.kdTree.bin ∧ stats'.clusterMaxCount = stats.clusterMaxCount := by
  obtain ⟨t₀, hclear, h⟩ := Option.bind_eq_some_iff.mp h
  obtain ⟨t₁, hinsert, h⟩ := Option.bind_eq_some_iff.mp h
  cases h
  obtain ⟨hvacant, hsize, -⟩ := vacant_clear hclear
  have hstart : Counts t₀ [] := Or.inl ⟨rfl, hvacant⟩
  obtain ⟨hcounts, hsize'⟩ := hstart.of_insertPoses hinsert
  rw [List.nil_append, bin_congr hsize] at hcounts
  exact ⟨hcounts, bin_congr (hsize'.trans hsize), rfl⟩

/-- The bins of the poses are among those that the histogram counts. -/
theorem bins_fillHistogram {poses : List (Vec3d K × K)}
    (h : stats.fillHistogram poses = some stats') {pose : Vec3d K}
    (hpose : pose ∈ poses.map Prod.fst) : stats'.kdTree.bin pose ∈
      (poses.map fun pose => (stats.kdTree.bin pose.1, pose.2)).map Prod.fst := by
  obtain ⟨inserted, hinserted, rfl⟩ := List.mem_map.mp hpose
  rw [(counts_fillHistogram h).2.1, List.map_map]
  exact List.mem_map.mpr ⟨inserted, hinserted, rfl⟩

/-- The histogram that was filled with the poses of a set holds its bins. -/
theorem holdsBins_fillHistogram {poses : List (Vec3d K × K)} (samples : List (Sample K))
    (h : stats.fillHistogram poses = some stats') (hlength : poses.length ≤ stats.clusterMaxCount)
    (hposes : ∀ sample ∈ samples, sample.pose ∈ poses.map Prod.fst) :
    HoldsBins stats' samples (poses.map fun pose => (stats.kdTree.bin pose.1, pose.2)) := by
  obtain ⟨hcounts, -, hmax⟩ := counts_fillHistogram h
  refine ⟨hcounts, fun sample hsample => bins_fillHistogram h (hposes sample hsample), ?_⟩
  rw [hmax]
  refine (List.toFinset_card_le _).trans ?_
  rw [List.length_map, List.length_map]
  exact hlength

end Averages

/-! ## Samples on the axis -/

/-- The functions of the library where they are used for samples on the axis with heading zero. -/
def axisLibm : StatisticsLibm ℚ where
  pi := 22 / 7
  sqrt := id
  sin _ := 0
  cos _ := 1
  exp _ := 1
  atan2 _ _ := 0
  log _ := 0

/-- Samples on the x axis, of the same weight. -/
def axisSamples (xs : List ℚ) : List (Sample ℚ) :=
  xs.map fun x => ⟨![x, 0, 0], 1 / xs.length⟩

/-- The histogram of the samples. -/
def axisStatistics (xs : List ℚ) : Option (SetStatistics ℚ) :=
  (new axisLibm.toLibm xs.length).fillHistogram
    ((axisSamples xs).map fun sample => (sample.pose, sample.weight))

/-- What it counts. -/
def axisEntries (xs : List ℚ) : List (Key × ℚ) :=
  (axisSamples xs).map fun sample =>
    ((new axisLibm.toLibm xs.length).kdTree.bin sample.pose, sample.weight)

theorem holdsBins_axis {xs : List ℚ} {stats : SetStatistics ℚ}
    (h : axisStatistics xs = some stats) :
    HoldsBins stats (axisSamples xs) (axisEntries xs) := by
  have hholds := holdsBins_fillHistogram (axisSamples xs) h
    (by rw [List.length_map]; exact (List.length_map ..).le) fun sample hsample => by
      rw [List.map_map]
      exact List.mem_map.mpr ⟨sample, hsample, rfl⟩
  rw [List.map_map] at hholds
  exact hholds

/-! ## Means -/

section Means

variable {K : Type} [Field K] [LinearOrder K] [IsStrictOrderedRing K] [FloorRing K]
  {stats : SetStatistics K} {samples : List (Sample K)} {entries : List (Key × K)}

/-- The means are averages exactly when, in each linear component, the sum in which every sample is
weighted once more with the samples of its cluster from it on is the sum of the samples. -/
theorem clusterStatistics_mean_iff (lib : StatisticsLibm K) (h : HoldsBins stats samples entries)
    (hne : samples ≠ []) (hpos : ∀ sample ∈ samples, 0 < sample.weight) :
    ∃ stats', clusterStatistics lib samples stats = some stats' ∧
      (MeansAreAverages stats' samples ↔ ∀ d : Fin 2,
        compounded Sample.weight (linear d) (SameCluster stats.kdTree (entries.map Prod.fst))
            samples =
          (samples.map fun sample => sample.weight * linear d sample).sum) := by
  obtain ⟨stats', hresult, hmoments⟩ := clusterStatistics_moments lib h hne
  have htotal : 0 < (samples.map Sample.weight).sum :=
    sum_weight_pos (s := (samples : Multiset (Sample K))) hpos (by simpa using hne)
  have hset : ∀ d : Fin 2, stats'.mean d.castSucc =
      WeightedAverage.mean Sample.weight (linear d) samples ↔
        compounded Sample.weight (linear d) (SameCluster stats.kdTree (entries.map Prod.fst))
            samples =
          (samples.map fun sample => sample.weight * linear d sample).sum := by
    intro d
    rw [hmoments.mean, WeightedAverage.mean, Multiset.map_coe, Multiset.sum_coe, Multiset.map_coe,
      Multiset.sum_coe, div_left_inj' htotal.ne']
  refine ⟨stats', hresult, fun hmeans d => (hset d).mp (hmeans.set d), fun hcounted => ?_⟩
  exact ⟨fun d => (hset d).mpr (hcounted d), hmoments.clusterMean⟩

end Means

/-- Two samples at the same place: the running sums of their cluster are 1/2 and 1, and the mean of
the set is 3/4. -/
theorem clusterStatistics_mean_two : ∃ stats stats' : SetStatistics ℚ,
    HoldsBins stats (axisSamples [1, 1]) (axisEntries [1, 1]) ∧
      (∀ sample ∈ axisSamples [1, 1], 0 < sample.weight) ∧
      clusterStatistics axisLibm (axisSamples [1, 1]) stats = some stats' ∧
      ¬ MeansAreAverages stats' (axisSamples [1, 1]) := by
  have hmade : (axisStatistics [1, 1]).isSome = true := by decide +kernel
  obtain ⟨stats, hstats⟩ := Option.isSome_iff_exists.mp hmade
  have hmean : ((axisStatistics [1, 1]).bind fun stats =>
      (clusterStatistics axisLibm (axisSamples [1, 1]) stats).map (·.mean 0)) = some (3 / 4) := by
    decide +kernel
  rw [hstats] at hmean
  obtain ⟨stats', hresult, hvalue⟩ := Option.map_eq_some_iff.mp hmean
  refine ⟨stats, stats', holdsBins_axis hstats, by decide +kernel, hresult, fun hmeans => ?_⟩
  have haverage : WeightedAverage.mean Sample.weight (linear 0) (axisSamples [1, 1]) = (1 : ℚ) := by
    decide +kernel
  have hset : stats'.mean 0 = _ := hmeans.set 0
  rw [hvalue, haverage] at hset
  exact absurd hset (by decide +kernel)

/-- Two clusters of two samples, at 1 and -1: what is added twice cancels out. -/
theorem clusterStatistics_mean_opposite : ∃ stats stats' : SetStatistics ℚ,
    axisStatistics [1, 1, -1, -1] = some stats ∧
      clusterStatistics axisLibm (axisSamples [1, 1, -1, -1]) stats = some stats' ∧
      stats'.clusterCount = 2 ∧ MeansAreAverages stats' (axisSamples [1, 1, -1, -1]) := by
  have hcomputed : ((axisStatistics [1, 1, -1, -1]).bind fun stats =>
      (clusterStatistics axisLibm (axisSamples [1, 1, -1, -1]) stats).map fun stats' =>
        (stats'.clusterCount, stats'.mean 0, stats'.mean 1)) = some (2, 0, 0) := by
    decide +kernel
  obtain ⟨stats, hstats, hcomputed⟩ := Option.bind_eq_some_iff.mp hcomputed
  obtain ⟨stats', hresult, hvalues⟩ := Option.map_eq_some_iff.mp hcomputed
  obtain ⟨hclusters, hvalues⟩ := Prod.mk.inj hvalues
  obtain ⟨hmean₀, hmean₁⟩ := Prod.mk.inj hvalues
  obtain ⟨_, hresult', hmoments⟩ := clusterStatistics_moments axisLibm (holdsBins_axis hstats)
    (by decide)
  cases hresult.symm.trans hresult'
  obtain ⟨_, hresult', hiff⟩ := clusterStatistics_mean_iff axisLibm (holdsBins_axis hstats)
    (by decide) (by decide +kernel)
  cases hresult.symm.trans hresult'
  refine ⟨stats, stats', hstats, hresult, hclusters, hiff.mpr fun d => ?_⟩
  -- the mean of the set is the compounded sum, as the weights add up to one
  have htotal : ((axisSamples [1, 1, -1, -1]).map Sample.weight).sum = 1 := by decide +kernel
  have hmean := hmoments.mean d
  rw [htotal, div_one] at hmean
  rw [← hmean]
  match d with
  | 0 => exact hmean₀.trans (by decide +kernel)
  | 1 => exact hmean₁.trans (by decide +kernel)

/-! ## Covariances -/

section Covariances

variable {K : Type} [Field K] [LinearOrder K] [IsStrictOrderedRing K] [FloorRing K]
  {stats : SetStatistics K} {samples : List (Sample K)} {entries : List (Key × K)}

/-- The covariances are right exactly when all samples are at the origin. -/
theorem clusterStatistics_covariance_iff (lib : StatisticsLibm K)
    (h : HoldsBins stats samples entries) (hne : samples ≠ [])
    (hpos : ∀ sample ∈ samples, 0 < sample.weight) :
    ∃ stats', clusterStatistics lib samples stats = some stats' ∧
      (CovariancesAreCovariances stats' samples ↔
        ∀ sample ∈ samples, sample.pose 0 = 0 ∧ sample.pose 1 = 0) := by
  obtain ⟨stats', hresult, hmoments⟩ := clusterStatistics_moments lib h hne
  refine ⟨stats', hresult, fun hcov sample hsample => ?_, fun hzero => ?_⟩
  · obtain ⟨c, hc⟩ := hmoments.labelled sample hsample
    have hused := List.ne_nil_of_mem hc
    have horigin : ∀ d : Fin 2, linear d sample = 0 := by
      intro d
      refine eq_zero_of_covariance_eq (s := (stats'.clusterSamples samples c : Multiset (Sample K)))
        (fun a ha => hpos a (List.mem_of_mem_filter ha)) ?_ sample hc
      rw [← hcov.cluster c hused, hmoments.clusterCov c hused, hmoments.clusterMean c hused]
    exact ⟨horigin 0, horigin 1⟩
  · have horigin : ∀ d : Fin 2, ∀ sample ∈ samples, linear d sample = 0 := by
      intro d sample hsample
      match d with
      | 0 => exact (hzero sample hsample).1
      | 1 => exact (hzero sample hsample).2
    have hcluster : ∀ (d : Fin 2) c,
        ∀ sample ∈ (stats'.clusterSamples samples c : Multiset (Sample K)), linear d sample = 0 :=
      fun d c sample hsample => horigin d sample (List.mem_of_mem_filter hsample)
    have hmean : ∀ d : Fin 2, stats'.mean d.castSucc = 0 := by
      intro d
      rw [hmoments.mean, compounded_eq_zero (horigin d), zero_div]
    have hset : ∀ d e : Fin 2, stats'.covariant d.castSucc e.castSucc = 0 := by
      intro d e
      rw [hmoments.covariant, hmean, zero_mul, neg_zero]
    have hclusters : ∀ c, stats'.clusterSamples samples c ≠ [] → ∀ d e : Fin 2,
        (stats'.clusters c).cov d.castSucc e.castSucc = 0 := by
      intro c hc d e
      rw [hmoments.clusterCov c hc, hmoments.clusterMean c hc, mean_eq_zero (hcluster d c),
        zero_mul, neg_zero]
    constructor
    case set => exact fun d e => (hset d e).trans (covariance_eq_zero (horigin d)).symm
    case cluster =>
      exact fun c hc d e => (hclusters c hc d e).trans (covariance_eq_zero (hcluster d c)).symm
    case setPos => exact posSemidef_zero hset
    case clusterPos => exact fun c hc => posSemidef_zero (hclusters c hc)

end Covariances

/-- One sample: the variance in the covariance of the set is -1. -/
theorem clusterStatistics_covariance_one : ∃ stats stats' : SetStatistics ℚ,
    HoldsBins stats (axisSamples [1]) (axisEntries [1]) ∧
      (∀ sample ∈ axisSamples [1], 0 < sample.weight) ∧
      clusterStatistics axisLibm (axisSamples [1]) stats = some stats' ∧
      ¬ CovariancesAreCovariances stats' (axisSamples [1]) := by
  have hmade : (axisStatistics [1]).isSome = true := by decide +kernel
  obtain ⟨stats, hstats⟩ := Option.isSome_iff_exists.mp hmade
  have hcov : ((axisStatistics [1]).bind fun stats =>
      (clusterStatistics axisLibm (axisSamples [1]) stats).map (·.covariant 0 0)) = some (-1) := by
    decide +kernel
  rw [hstats] at hcov
  obtain ⟨stats', hresult, hvalue⟩ := Option.map_eq_some_iff.mp hcov
  refine ⟨stats, stats', holdsBins_axis hstats, by decide +kernel, hresult, fun hcovs => ?_⟩
  have hcovariance : covariance Sample.weight (linear 0) (linear 0) (axisSamples [1]) = (0 : ℚ) := by
    decide +kernel
  have hset : stats'.covariant 0 0 = _ := hcovs.set 0 0
  rw [hvalue, hcovariance] at hset
  exact absurd hset (by decide +kernel)

/-- Two samples. -/
theorem clusterStatistics_covariance_two : ∃ stats stats' : SetStatistics ℚ,
    axisStatistics [1, 1] = some stats ∧ clusterStatistics axisLibm (axisSamples [1, 1]) stats = some stats' ∧
      (CovariancesAreCovariances stats' (axisSamples [1, 1]) ↔
        ∀ sample ∈ axisSamples [1, 1], sample.pose 0 = 0 ∧ sample.pose 1 = 0) := by
  have hmade : (axisStatistics [1, 1]).isSome = true := by decide +kernel
  obtain ⟨stats, hstats⟩ := Option.isSome_iff_exists.mp hmade
  obtain ⟨stats', hresult, hiff⟩ :=
    clusterStatistics_covariance_iff axisLibm (holdsBins_axis hstats) (by decide)
      (by decide +kernel)
  exact ⟨stats, stats', hstats, hresult, hiff⟩

end SetStatistics

end RoboRTS.Localization
