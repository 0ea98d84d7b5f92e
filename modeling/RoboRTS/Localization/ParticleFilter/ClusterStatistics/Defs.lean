import RoboRTS.Localization.ParticleFilter.Defs
import RoboRTS.Localization.ParticleFilter.KDTreeNodes.Defs

/-!
# The cluster statistics

`ClusterStatistics` of a set of samples, in exact arithmetic over an ordered field, where a quotient
over zero is zero. The members of the set that it reads and writes next to the samples are a record
of their own.
-/

namespace RoboRTS.Localization

/-- `Mat3d`. -/
abbrev Mat3d (K : Type*) := Fin 3 → Fin 3 → K

/-- `ParticleFilterCluster`. -/
structure ParticleFilterCluster (K : Type*) where
  count : Nat
  weight : K
  mean : Vec3d K
  cov : Mat3d K
  wsVec : Fin 4 → K
  wsMat : Fin 2 → Fin 2 → K

/-- The members of `ParticleFilterSampleSet` that belong to the histogram and the statistics. The
vector of clusters has `cluster_max_count` elements, and its elements are read below that. -/
structure SetStatistics (K : Type) where
  kdTree : ParticleFilterKDTree K
  clusterCount : Nat
  clusterMaxCount : Nat
  clusters : Nat → ParticleFilterCluster K
  mean : Vec3d K
  covariant : Mat3d K

/-- A function of the mathematical library that only the statistics use, next to the others. -/
structure StatisticsLibm (K : Type) extends Libm K where
  log : K → K

namespace ParticleFilterCluster

variable {K : Type*} [Field K]

/-- `Reset`. -/
def reset : ParticleFilterCluster K where
  count := 0
  weight := 0
  mean := 0
  cov := 0
  wsVec := 0
  wsMat := 0

end ParticleFilterCluster

section Covariance

variable {K : Type} [Field K]

/-- The loops over the linear components of a covariance. -/
def setLinear (cov : Mat3d K) (wsMat : Fin 2 → Fin 2 → K) (weight : K) (mean : Vec3d K) : Mat3d K :=
  fun j k =>
    if h : j.1 < 2 ∧ k.1 < 2 then wsMat ⟨j, h.1⟩ ⟨k, h.2⟩ / weight - mean j * mean k else cov j k

/-- The angular component of a covariance. -/
def setAngular (lib : StatisticsLibm K) (cov : Mat3d K) (ws : Fin 4 → K) : Mat3d K :=
  Function.update cov 2
    (Function.update (cov 2) 2 (-2 * lib.log (lib.sqrt (ws 2 * ws 2 + ws 3 * ws 3))))

end Covariance

namespace SetStatistics

/-- The locals of `ClusterStatistics` that are summed up, next to the members; `tmp_ws_mat` stays
zero. -/
structure Sums (K : Type) where
  stats : SetStatistics K
  weight : K
  tmpWsVec : Fin 4 → K

variable {K : Type} [Field K]

section Histogram

/-- What the constructor of `ParticleFilter` makes. -/
def new (lib : Libm K) [LinearOrder K] (maxSamples : Nat) : SetStatistics K where
  kdTree := .initializeByMaxSize lib.pi (3 * maxSamples)
  clusterCount := 0
  clusterMaxCount := maxSamples
  clusters _ := .reset
  mean := 0
  covariant := 0

/-- The histogram is cleared and filled with poses. -/
def fillHistogram [LinearOrder K] [FloorRing K] (stats : SetStatistics K)
    (poses : List (Vec3d K × K)) : Option (SetStatistics K) := do
  let kdTree ← stats.kdTree.clear
  let kdTree ← kdTree.insertPoses poses
  some { stats with kdTree := kdTree }

end Histogram

section Defs

variable (lib : StatisticsLibm K)

/-- What a weighted pose adds to a workspace vector, where `xy` is added for its coordinates. -/
def wsTerm (sample : Sample K) (xy : Fin 2 → K) : Fin 4 → K :=
  ![sample.weight * xy 0, sample.weight * xy 1, sample.weight * lib.cos (sample.pose 2),
    sample.weight * lib.sin (sample.pose 2)]

/-- A sample in the loop that sums up its cluster. -/
def addToCluster (cluster : ParticleFilterCluster K) (sample : Sample K) :
    ParticleFilterCluster K :=
  let cluster :=
    { cluster with
      count := cluster.count + 1
      weight := cluster.weight + sample.weight
      wsVec := cluster.wsVec + wsTerm lib sample ![sample.pose 0, sample.pose 1] }
  -- `ws_mat` is read here, but nothing has been added to it
  { cluster with cov := setLinear cluster.cov cluster.wsMat cluster.weight cluster.mean }

/-- A round of the loop over the samples, with the label of the sample. -/
def addSample (sums : Sums K) (sample : Sample K) (clusterIndex : Nat) : Sums K :=
  let stats := sums.stats
  let cluster := addToCluster lib (stats.clusters clusterIndex) sample
  { stats :=
      { stats with
        clusterCount :=
          if clusterIndex + 1 > stats.clusterCount then clusterIndex + 1 else stats.clusterCount
        clusters := Function.update stats.clusters clusterIndex cluster }
    weight := sums.weight + sample.weight
    -- the coordinates are those of the cluster's sum, not those of the sample
    tmpWsVec := sums.tmpWsVec + wsTerm lib sample ![cluster.wsVec 0, cluster.wsVec 1] }

/-- The loop that normalises a cluster. -/
def normalizeCluster (cluster : ParticleFilterCluster K) : ParticleFilterCluster K :=
  let ws := cluster.wsVec
  let mean : Vec3d K :=
    ![ws 0 / cluster.weight, ws 1 / cluster.weight, lib.atan2 (ws 3) (ws 2)]
  { cluster with
    mean := mean
    cov := setAngular lib (setLinear 0 cluster.wsMat cluster.weight mean) ws }

/-- The part of `ClusterStatistics` behind the loop over the samples. -/
def normalize (sums : Sums K) : SetStatistics K :=
  let stats := sums.stats
  let ws := sums.tmpWsVec
  let mean : Vec3d K := ![ws 0 / sums.weight, ws 1 / sums.weight, lib.atan2 (ws 3) (ws 2)]
  { stats with
    clusters := fun i =>
      if i < stats.clusterCount then normalizeCluster lib (stats.clusters i) else stats.clusters i
    mean := mean
    covariant := setAngular lib (setLinear stats.covariant 0 sums.weight mean) ws }

/-- The part of `ClusterStatistics` in front of the loop, behind the call of `Cluster`. -/
def start (stats : SetStatistics K) (kdTree : ParticleFilterKDTree K) : Sums K where
  stats :=
    { stats with
      kdTree := kdTree
      clusterCount := 0
      clusters := fun i => if i < stats.clusterMaxCount then .reset else stats.clusters i
      mean := 0
      covariant := 0 }
  weight := 0
  tmpWsVec := 0

variable [LinearOrder K] [FloorRing K]

/-- The loop over the samples, and whether it goes through all of them. -/
def sumSamples : List (Sample K) → Sums K → Option (Sums K × Bool)
  | [], sums => some (sums, true)
  | sample :: samples, sums => do
      let clusterIndex ← sums.stats.kdTree.getCluster sample.pose
      -- a pose without a leaf ends the function in front of the normalisation
      if clusterIndex < 0 then some (sums, false)
      -- a sample of a cluster beyond the vector counts nowhere
      else if clusterIndex ≥ sums.stats.clusterMaxCount then sumSamples samples sums
      else sumSamples samples (addSample lib sums sample clusterIndex.toNat)

/-- `ClusterStatistics`. -/
def clusterStatistics (samples : List (Sample K)) (stats : SetStatistics K) :
    Option (SetStatistics K) := do
  let kdTree ← stats.kdTree.cluster
  let (sums, found) ← sumSamples lib samples (start stats kdTree)
  if found then some (normalize lib sums) else some sums.stats

end Defs

end SetStatistics

end RoboRTS.Localization
