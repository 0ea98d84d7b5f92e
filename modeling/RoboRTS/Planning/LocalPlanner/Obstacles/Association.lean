import RoboRTS.Lib.FirstLeast
import RoboRTS.Planning.LocalPlanner.Obstacles.Translation
import Mathlib.Analysis.Complex.Trigonometric

/-!
# Associating obstacles with poses

`AddObstacleEdges`: each inner pose of the band gets edges to the obstacles that are very near, and
to the nearest one on its left and on its right. The side is that of the centroid as seen from the
origin of the map, not from the pose, so that it may change when the whole scene is moved. The
associations stay the same exactly if no obstacle that changes sides is, or becomes, the nearest one
of a side (`associations_translate_iff`).
-/

namespace RoboRTS.Planning

open PlaneDistance FirstLeast

variable {K : Type*} [Field K] [LinearOrder K]

/-- The libraries: `std::cos` and `std::sin`, the scale of lengths, and the largest `double`. -/
structure BandLibrary (K : Type*) [Field K] [LinearOrder K] where
  cos : K → K
  sin : K → K
  ruler : Ruler K
  dblMax : K

/-- What `AddObstacleEdges` reads of the configuration. -/
structure ObstaclesInfo (K : Type*) where
  weightObstacle : K
  weightInflation : K
  minObstacleDist : K
  inflationDist : K
  obstacleAssociationForceInclusionFactor : K
  obstacleAssociationCutoffFactor : K

/-- A pose of the band, `DataBase`. -/
structure BandPose (K : Type*) where
  position : K × K
  theta : K

def cross2D (v1 v2 : K × K) : K :=
  v1.1 * v2.2 - v2.1 * v1.2

/-- The variables of the loop over the obstacles, which are known by their index. -/
structure ObstacleSearch (K : Type*) where
  leftMinDist : ExactDouble K
  rightMinDist : ExactDouble K
  leftObstacle : Option Nat
  rightObstacle : Option Nat
  relevantObstacles : List Nat

/-- The obstacles that a pose is associated with. -/
structure Association where
  leftObstacle : Option Nat
  rightObstacle : Option Nat
  relevantObstacles : List Nat
  deriving DecidableEq

/-- An edge between a pose and an obstacle: `ObstacleEdge` with its information, or
`InflatedObstacleEdge` with the diagonal of its information. -/
inductive BandEdge (K : Type*) where
  | obstacle (pose obstacle : Nat) (information : K)
  | inflatedObstacle (pose obstacle : Nat) (information : K × K)

section AddObstacleEdges

variable (lib : BandLibrary K) (info : ObstaclesInfo K)

def BandPose.orientationUnitVec (pose : BandPose K) : K × K :=
  (lib.cos pose.theta, lib.sin pose.theta)

/-- `Cross2D(pose_orient, obst->GetCentroid()) > 0`, which is false if the centroid is not a
number. -/
def onLeft (pose : BandPose K) (obst : Obstacle K) : Bool :=
  match obst.getCentroid lib.ruler lib.dblMax with
  | some centroid => cross2D (pose.orientationUnitVec lib) centroid > 0
  | none => false

/-- One round of the loop over the obstacles. -/
def visit (pose : BandPose K) (s : ObstacleSearch K) (item : Obstacle K × Nat) :
    ObstacleSearch K :=
  let (obst, i) := item
  let dist := obst.getMinimumDistance lib.ruler pose.position
  if dist.lt (.number (info.minObstacleDist * info.obstacleAssociationForceInclusionFactor)) then
    { s with relevantObstacles := s.relevantObstacles ++ [i] }
  else if (ExactDouble.number (info.minObstacleDist *
      info.obstacleAssociationCutoffFactor)).lt dist then s
  else if onLeft lib pose obst then
    if dist.lt s.leftMinDist then { s with leftMinDist := dist, leftObstacle := some i } else s
  else
    if dist.lt s.rightMinDist then { s with rightMinDist := dist, rightObstacle := some i } else s

/-- The loop over the obstacles, for one pose. -/
def associate (obstacles : List (Obstacle K)) (pose : BandPose K) : Association :=
  let s := obstacles.zipIdx.foldl (visit lib info pose)
    ⟨.number lib.dblMax, .number lib.dblMax, none, none, []⟩
  ⟨s.leftObstacle, s.rightObstacle, s.relevantObstacles⟩

/-- All poses but the first and the last. -/
def innerPoses (poses : List (BandPose K)) : List (BandPose K) :=
  (poses.drop 1).dropLast

/-- The associations of the inner poses; `obstacles` may be a null pointer. -/
def associations (weightMultiplier : K) (obstacles : Option (List (Obstacle K)))
    (poses : List (BandPose K)) : List Association :=
  if info.weightObstacle = 0 ∨ weightMultiplier = 0 then []
  else
    match obstacles with
    | none => []
    | some obstacles => (innerPoses poses).map (associate lib info obstacles)

def addObstacleEdges (weightMultiplier : K) (obstacles : Option (List (Obstacle K)))
    (poses : List (BandPose K)) : List (BandEdge K) :=
  let weight := info.weightObstacle * weightMultiplier
  let edge (pose obst : Nat) : BandEdge K :=
    if info.inflationDist > info.minObstacleDist then
      .inflatedObstacle pose obst (weight, info.weightInflation)
    else .obstacle pose obst weight
  (associations lib info weightMultiplier obstacles poses).zipIdx.flatMap fun (a, i) =>
    (a.leftObstacle.toList ++ a.rightObstacle.toList ++ a.relevantObstacles).map (edge (i + 1))

end AddObstacleEdges

def BandPose.translate (t : K × K) (pose : BandPose K) : BandPose K :=
  { pose with position := pose.position + t }

/-! ## What the loop finds -/

section Search

variable (lib : BandLibrary K) (info : ObstaclesInfo K) (obstacles : List (Obstacle K))
  (pose : BandPose K)

/-- An obstacle that is neither associated at once nor too far away. -/
structure Candidate (i : Nat) (obst : Obstacle K) (d : K) : Prop where
  getElem? : obstacles[i]? = some obst
  distance : obst.getMinimumDistance lib.ruler pose.position = .number d
  not_forced : info.minObstacleDist * info.obstacleAssociationForceInclusionFactor ≤ d
  not_cut_off : d ≤ info.minObstacleDist * info.obstacleAssociationCutoffFactor
  lt_max : d < lib.dblMax

/-- What the loop compares with the nearest obstacle of a side, if `side` is a test for it. -/
def sideItem (side : Obstacle K → Bool) (item : Obstacle K × Nat) : Option (K × Nat) :=
  match item.1.getMinimumDistance lib.ruler pose.position with
  | .number d =>
      if info.minObstacleDist * info.obstacleAssociationForceInclusionFactor ≤ d ∧
        d ≤ info.minObstacleDist * info.obstacleAssociationCutoffFactor ∧ side item.1 then
        some (d, item.2)
      else none
  | _ => none

/-- The obstacle is associated at once. -/
def forced (item : Obstacle K × Nat) : Bool :=
  (item.1.getMinimumDistance lib.ruler pose.position).lt
    (.number (info.minObstacleDist * info.obstacleAssociationForceInclusionFactor))

/-- The variables of the loop, with the nearest obstacle of each side as a pair. -/
def searchState (left right : K × Option Nat) (relevant : List Nat) : ObstacleSearch K :=
  ⟨.number left.1, .number right.1, left.2, right.2, relevant⟩

variable {lib info obstacles pose}

theorem visit_searchState (left right : K × Option Nat) (relevant : List Nat)
    (item : Obstacle K × Nat) :
    visit lib info pose (searchState left right relevant) item =
      searchState
        (match sideItem lib info pose (onLeft lib pose) item with
          | some x => keepFirst left x
          | none => left)
        (match sideItem lib info pose (fun obst => ¬ onLeft lib pose obst) item with
          | some x => keepFirst right x
          | none => right)
        (relevant ++ if forced lib info pose item then [item.2] else []) := by
  obtain ⟨obst, i⟩ := item
  rw [visit, sideItem, sideItem, forced]
  dsimp only
  cases obst.getMinimumDistance lib.ruler pose.position with
  | number d =>
      by_cases hforced : d < info.minObstacleDist * info.obstacleAssociationForceInclusionFactor
      · simp [ExactDouble.lt, searchState, hforced, hforced.not_ge]
      · by_cases hcut : info.minObstacleDist * info.obstacleAssociationCutoffFactor < d
        · simp [ExactDouble.lt, searchState, hforced, hcut, hcut.not_ge]
        · have hbounds := And.intro (not_lt.mp hforced) (not_lt.mp hcut)
          cases onLeft lib pose obst
          · simp [ExactDouble.lt, searchState, hforced, hcut, keepFirst, hbounds]
            split <;> rfl
          · simp [ExactDouble.lt, searchState, hforced, hcut, keepFirst, hbounds]
            split <;> rfl
  | inf => simp [ExactDouble.lt]
  | nan => simp [ExactDouble.lt, searchState]

variable (lib info pose) in
theorem foldl_visit (items : List (Obstacle K × Nat)) (left right : K × Option Nat)
    (relevant : List Nat) :
    items.foldl (visit lib info pose) (searchState left right relevant) =
      searchState
        ((items.filterMap (sideItem lib info pose (onLeft lib pose))).foldl keepFirst left)
        ((items.filterMap (sideItem lib info pose fun obst => ¬ onLeft lib pose obst)).foldl
          keepFirst right)
        (relevant ++ (items.filter (forced lib info pose)).map Prod.snd) := by
  induction items generalizing left right relevant with
  | nil => simp
  | cons item items ih =>
      rw [List.foldl_cons, visit_searchState, ih, List.filterMap_cons, List.filterMap_cons,
        List.filter_cons]
      congr 1
      · cases sideItem lib info pose (onLeft lib pose) item <;> rfl
      · cases sideItem lib info pose (fun obst => ¬ onLeft lib pose obst) item <;> rfl
      · split <;> simp

variable (lib info obstacles pose)

/-- The candidates of a side, with their distances. -/
def sideItems (side : Obstacle K → Bool) : List (K × Nat) :=
  obstacles.zipIdx.filterMap (sideItem lib info pose side)

/-- The nearest obstacle of a side. -/
def nearest (side : Obstacle K → Bool) : Option Nat :=
  ((sideItems lib info obstacles pose side).foldl keepFirst (lib.dblMax, none)).2

/-- The obstacles that are associated at once. -/
def forcedObstacles : List Nat :=
  (obstacles.zipIdx.filter (forced lib info pose)).map Prod.snd

theorem associate_eq :
    associate lib info obstacles pose =
      ⟨nearest lib info obstacles pose (onLeft lib pose),
        nearest lib info obstacles pose fun obst => ¬ onLeft lib pose obst,
        forcedObstacles lib info obstacles pose⟩ := by
  have hloop := foldl_visit lib info pose obstacles.zipIdx (lib.dblMax, none) (lib.dblMax, none) []
  rw [List.nil_append] at hloop
  exact congrArg (fun s : ObstacleSearch K =>
    Association.mk s.leftObstacle s.rightObstacle s.relevantObstacles) hloop

/-- The obstacles that change sides settle among themselves: in front of each is one that was on
its old side, and one that is now on its new side. -/
def SidesSettled (before after : Obstacle K → Bool) : Prop :=
  ∀ i obst d, Candidate lib info obstacles pose i obst d → after obst ≠ before obst →
    (∃ j obst' d', Candidate lib info obstacles pose j obst' d' ∧ (d' < d ∨ d' = d ∧ j < i) ∧
      before obst' = before obst) ∧
    ∃ j obst' d', Candidate lib info obstacles pose j obst' d' ∧ (d' < d ∨ d' = d ∧ j < i) ∧
      after obst' = after obst

variable {lib info obstacles pose} {side side' : Obstacle K → Bool}

theorem mem_sideItems {x : K × Nat} :
    x ∈ sideItems lib info obstacles pose side ↔ ∃ obst, obstacles[x.2]? = some obst ∧
      obst.getMinimumDistance lib.ruler pose.position = .number x.1 ∧
      info.minObstacleDist * info.obstacleAssociationForceInclusionFactor ≤ x.1 ∧
      x.1 ≤ info.minObstacleDist * info.obstacleAssociationCutoffFactor ∧ side obst := by
  obtain ⟨d, i⟩ := x
  simp only [sideItems, List.mem_filterMap, sideItem, Prod.exists, List.mk_mem_zipIdx_iff_getElem?]
  constructor
  · rintro ⟨obst, j, hj, hitem⟩
    split at hitem
    case h_1 d' hdist =>
      split at hitem
      case isTrue hbounds =>
        simp only [Option.some.injEq, Prod.mk.injEq] at hitem
        obtain ⟨rfl, rfl⟩ := hitem
        exact ⟨obst, hj, hdist, hbounds⟩
      case isFalse => cases hitem
    case h_2 => cases hitem
  · rintro ⟨obst, hi, hdist, hbounds⟩
    refine ⟨obst, i, hi, ?_⟩
    rw [hdist]
    exact if_pos hbounds

theorem mem_below_sideItems {d : K} {i : Nat} :
    toLex (d, i) ∈ below lib.dblMax (sideItems lib info obstacles pose side) ↔
      ∃ obst, Candidate lib info obstacles pose i obst d ∧ side obst := by
  constructor
  · rintro ⟨hmem, hlt⟩
    obtain ⟨obst, hi, hdist, hforce, hcut, hside⟩ := mem_sideItems.mp hmem
    exact ⟨obst, ⟨hi, hdist, hforce, hcut, hlt⟩, hside⟩
  · rintro ⟨obst, hcandidate, hside⟩
    exact ⟨mem_sideItems.mpr ⟨obst, hcandidate.getElem?, hcandidate.distance,
      hcandidate.not_forced, hcandidate.not_cut_off, hside⟩, hcandidate.lt_max⟩

theorem sideItem_snd {item : Obstacle K × Nat} {x : K × Nat}
    (h : sideItem lib info pose side item = some x) : x.2 = item.2 := by
  rw [sideItem] at h
  split at h
  · split at h
    · cases h
      rfl
    · cases h
  · cases h

theorem sorted_sideItems :
    (sideItems lib info obstacles pose side).Pairwise fun x y => x.2 < y.2 := by
  have hindex : obstacles.zipIdx.Pairwise fun x y => x.2 < y.2 := by
    rw [List.pairwise_iff_getElem]
    intro i j hi hj hij
    simpa using hij
  refine hindex.filterMap _ fun x y hlt x' hx y' hy => ?_
  rw [sideItem_snd hx, sideItem_snd hy]
  exact hlt

/-- The distance of a candidate belongs to its index. -/
theorem eq_of_snd_eq {x y : K × Nat} (hx : x ∈ sideItems lib info obstacles pose side)
    (hy : y ∈ sideItems lib info obstacles pose side') (heq : x.2 = y.2) : x = y := by
  obtain ⟨obst, hi, hdist, -⟩ := mem_sideItems.mp hx
  obtain ⟨obst', hi', hdist', -⟩ := mem_sideItems.mp hy
  rw [heq, hi', Option.some.injEq] at hi
  rw [← hi, hdist', ExactDouble.number.injEq] at hdist
  exact Prod.ext hdist.symm heq

/-! ### The candidates as a set -/

variable (lib info obstacles pose) in
/-- The candidates, ordered by their distances and then by their indices. -/
def candidates : Set (K ×ₗ Nat) :=
  {x | ∃ obst, Candidate lib info obstacles pose (ofLex x).2 obst (ofLex x).1}

variable (obstacles) in
/-- The obstacle with the index of the pair is on a side. -/
def OnSide (side : Obstacle K → Bool) (x : K ×ₗ Nat) : Prop :=
  ∃ obst, obstacles[(ofLex x).2]? = some obst ∧ side obst

theorem Candidate.onSide_iff {x : K ×ₗ Nat} {obst : Obstacle K}
    (h : Candidate lib info obstacles pose (ofLex x).2 obst (ofLex x).1) :
    OnSide obstacles side x ↔ side obst := by
  constructor
  · rintro ⟨obst', hget, hside⟩
    rw [h.getElem?, Option.some.injEq] at hget
    exact hget ▸ hside
  · exact fun hside => ⟨obst, h.getElem?, hside⟩

theorem finite_candidates : (candidates lib info obstacles pose).Finite := by
  refine (finite_below lib.dblMax (sideItems lib info obstacles pose fun _ => true)).subset ?_
  rintro x ⟨obst, hcandidate⟩
  exact mem_below_sideItems.mpr ⟨obst, hcandidate, rfl⟩

theorem below_sideItems :
    below lib.dblMax (sideItems lib info obstacles pose side) =
      {x ∈ candidates lib info obstacles pose | OnSide obstacles side x} := by
  ext x
  constructor
  · intro hx
    obtain ⟨obst, hcandidate, hside⟩ := mem_below_sideItems.mp hx
    exact ⟨⟨obst, hcandidate⟩, hcandidate.onSide_iff.mpr hside⟩
  · rintro ⟨⟨obst, hcandidate⟩, hside⟩
    exact mem_below_sideItems.mpr ⟨obst, hcandidate, hcandidate.onSide_iff.mp hside⟩

theorem below_sideItems_not :
    below lib.dblMax (sideItems lib info obstacles pose fun obst => ¬ side obst) =
      {x ∈ candidates lib info obstacles pose | ¬ OnSide obstacles side x} := by
  rw [below_sideItems]
  ext x
  refine and_congr_right fun ⟨obst, hcandidate⟩ => ?_
  rw [hcandidate.onSide_iff, hcandidate.onSide_iff, decide_eq_true_eq]

/-- A candidate in front of another one, on the same side. -/
theorem exists_lt_iff {x : K ×ₗ Nat} {obst : Obstacle K} :
    (∃ y ∈ candidates lib info obstacles pose, y < x ∧ (OnSide obstacles side y ↔ side obst)) ↔
      ∃ j obst' d', Candidate lib info obstacles pose j obst' d' ∧
        (d' < (ofLex x).1 ∨ d' = (ofLex x).1 ∧ j < (ofLex x).2) ∧ side obst' = side obst := by
  constructor
  · rintro ⟨y, ⟨obst', hcandidate⟩, hlt, hside⟩
    exact ⟨_, obst', _, hcandidate, Prod.Lex.lt_iff.mp hlt,
      Bool.eq_iff_iff.mpr (hcandidate.onSide_iff.symm.trans hside)⟩
  · rintro ⟨j, obst', d', hcandidate, hlt, hside⟩
    have hcandidate' : Candidate lib info obstacles pose (ofLex (toLex (d', j))).2 obst'
      (ofLex (toLex (d', j))).1 := hcandidate
    exact ⟨toLex (d', j), ⟨obst', hcandidate⟩, Prod.Lex.lt_iff.mpr hlt,
      hcandidate'.onSide_iff.trans (Bool.eq_iff_iff.mp hside)⟩

/-- The nearest obstacles of both sides are the same exactly if the sides are settled. -/
theorem nearest_eq_iff :
    nearest lib info obstacles pose side = nearest lib info obstacles pose side' ∧
      nearest lib info obstacles pose (fun obst => ¬ side obst) =
        nearest lib info obstacles pose (fun obst => ¬ side' obst) ↔
      SidesSettled lib info obstacles pose side side' := by
  rw [nearest, nearest, nearest, nearest,
    foldl_keepFirst_eq_iff sorted_sideItems sorted_sideItems fun x hx y hy => eq_of_snd_eq hx hy,
    foldl_keepFirst_eq_iff sorted_sideItems sorted_sideItems fun x hx y hy => eq_of_snd_eq hx hy,
    below_sideItems, below_sideItems, below_sideItems_not, below_sideItems_not,
    same_least_iff finite_candidates]
  constructor
  · intro h i obst d hcandidate hchange
    have hcandidate' : Candidate lib info obstacles pose (ofLex (toLex (d, i))).2 obst
      (ofLex (toLex (d, i))).1 := hcandidate
    have hfront := h (toLex (d, i)) ⟨obst, hcandidate⟩
    rw [hcandidate'.onSide_iff, hcandidate'.onSide_iff, exists_lt_iff, exists_lt_iff] at hfront
    exact hfront fun hiff => hchange (Bool.eq_iff_iff.mpr hiff).symm
  · rintro h x ⟨obst, hcandidate⟩ hchange
    rw [hcandidate.onSide_iff, hcandidate.onSide_iff] at hchange
    rw [hcandidate.onSide_iff, hcandidate.onSide_iff, exists_lt_iff, exists_lt_iff]
    exact h _ obst _ hcandidate fun heq => hchange (Bool.eq_iff_iff.mp heq.symm)

end Search

/-! ## Moving the scene -/

variable {lib : BandLibrary K} {info : ObstaclesInfo K} {obstacles : List (Obstacle K)}
  {pose : BandPose K} (t : K × K)

variable (lib) in
/-- The side test with the centroid moved by `t`. -/
def onLeftMoved (pose : BandPose K) (obst : Obstacle K) : Bool :=
  match obst.getCentroid lib.ruler lib.dblMax with
  | some centroid => cross2D (pose.orientationUnitVec lib) (centroid + t) > 0
  | none => false

theorem sideItems_translate (side : Obstacle K → Bool) :
    sideItems lib info (obstacles.map (·.translate t)) (pose.translate t) side =
      sideItems lib info obstacles pose fun obst => side (obst.translate t) := by
  rw [sideItems, List.zipIdx_map, List.filterMap_map]
  refine congrArg (fun f => obstacles.zipIdx.filterMap f) (funext fun item => ?_)
  simp only [Function.comp_apply, sideItem, Prod.map_fst, Prod.map_snd, id, BandPose.translate,
    Obstacle.getMinimumDistance_translate]

theorem forcedObstacles_translate :
    forcedObstacles lib info (obstacles.map (·.translate t)) (pose.translate t) =
      forcedObstacles lib info obstacles pose := by
  rw [forcedObstacles, List.zipIdx_map, List.filter_map, List.map_map, forcedObstacles]
  have hforced : (forced lib info (pose.translate t) ∘ Prod.map (·.translate t) id) =
      forced lib info pose := by
    funext item
    simp only [Function.comp_apply, forced, Prod.map_fst, BandPose.translate,
      Obstacle.getMinimumDistance_translate]
  rw [hforced]
  rfl

variable [IsStrictOrderedRing K]

theorem onLeft_translate (pose : BandPose K) (obst : Obstacle K) :
    onLeft lib (pose.translate t) (obst.translate t) = onLeftMoved lib t pose obst := by
  rw [onLeft, Obstacle.getCentroid_translate, onLeftMoved]
  cases obst.getCentroid lib.ruler lib.dblMax <;> rfl

theorem associate_translate_iff :
    associate lib info (obstacles.map (·.translate t)) (pose.translate t) =
        associate lib info obstacles pose ↔
      SidesSettled lib info obstacles pose (onLeft lib pose) (onLeftMoved lib t pose) := by
  rw [← nearest_eq_iff, associate_eq, associate_eq, Association.mk.injEq,
    forcedObstacles_translate]
  simp only [nearest, sideItems_translate, onLeft_translate, and_true]
  exact and_congr eq_comm eq_comm

omit [LinearOrder K] [IsStrictOrderedRing K] in
theorem innerPoses_translate (poses : List (BandPose K)) :
    innerPoses (poses.map (·.translate t)) = (innerPoses poses).map (·.translate t) := by
  rw [innerPoses, innerPoses, ← List.map_drop, List.map_dropLast]

/-- Moving the whole scene leaves the associations as they are exactly if none are made, or the
sides are settled for each inner pose. -/
theorem associations_translate_iff {weightMultiplier : K} {obstacles : Option (List (Obstacle K))}
    {poses : List (BandPose K)} :
    associations lib info weightMultiplier (obstacles.map (List.map (·.translate t)))
        (poses.map (·.translate t)) =
      associations lib info weightMultiplier obstacles poses ↔
      info.weightObstacle = 0 ∨ weightMultiplier = 0 ∨ ∀ obsts, obstacles = some obsts →
        ∀ pose ∈ innerPoses poses,
          SidesSettled lib info obsts pose (onLeft lib pose) (onLeftMoved lib t pose) := by
  rw [← or_assoc]
  by_cases hskip : info.weightObstacle = 0 ∨ weightMultiplier = 0
  · simp [associations, hskip]
  · cases obstacles with
    | none => simp [associations]
    | some obsts =>
        simp only [associations, hskip, if_false, false_or, Option.map_some, Option.some.injEq,
          forall_eq', innerPoses_translate, List.map_map, List.map_inj_left]
        exact forall₂_congr fun pose _ => associate_translate_iff t

/-! ## A scene -/

/-- The real functions, with a bound that no distance of the scene reaches. -/
noncomputable def realLibrary : BandLibrary ℝ :=
  ⟨Real.cos, Real.sin, Ruler.euclidean, 10 ^ 100⟩

/-- Obstacles nearer than 1 are associated at once, those farther than 5 not at all. -/
def sceneInfo : ObstaclesInfo ℝ :=
  ⟨50, 1, 1, 1, 1, 5⟩

/-- The first obstacle is on the left of the inner pose, the second one on its right. -/
def sceneObstacles : List (Obstacle ℝ) :=
  [.point (0, 12), .point (0, 7)]

def scenePoses : List (BandPose ℝ) :=
  [⟨(0, 9), 0⟩, ⟨(0, 10), 0⟩, ⟨(0, 11), 0⟩]

theorem associations_translate_iff_scene :
    associations realLibrary sceneInfo 1
        ((some sceneObstacles).map (List.map (·.translate (0, -10))))
        (scenePoses.map (·.translate (0, -10))) =
      associations realLibrary sceneInfo 1 (some sceneObstacles) scenePoses ↔
      sceneInfo.weightObstacle = 0 ∨ (1 : ℝ) = 0 ∨ ∀ obsts, some sceneObstacles = some obsts →
        ∀ pose ∈ innerPoses scenePoses, SidesSettled realLibrary sceneInfo obsts pose
          (onLeft realLibrary pose) (onLeftMoved realLibrary (0, -10) pose) :=
  associations_translate_iff ((0, -10) : ℝ × ℝ)

/-- Before the scene is moved to the origin, both obstacles are on the left. -/
theorem associations_moved :
    associations realLibrary sceneInfo 1
        ((some sceneObstacles).map (List.map (·.translate (0, -10))))
        (scenePoses.map (·.translate (0, -10))) ≠
      associations realLibrary sceneInfo 1 (some sceneObstacles) scenePoses := by
  have hroot : ∀ n : ℝ, 0 ≤ n → Real.sqrt (n ^ 2) = n := fun n hn => Real.sqrt_sq hn
  have htwo : Real.sqrt 4 = 2 := by
    rw [← hroot 2 zero_le_two]
    norm_num
  have hthree : Real.sqrt 9 = 3 := by
    rw [← hroot 3 zero_le_three]
    norm_num
  have hbefore : associations realLibrary sceneInfo 1 (some sceneObstacles) scenePoses =
      [⟨some 0, none, []⟩] := by
    norm_num [associations, innerPoses, scenePoses, sceneObstacles, sceneInfo, associate, visit,
      Obstacle.getMinimumDistance, Obstacle.getCentroid, onLeft, cross2D,
      BandPose.orientationUnitVec, realLibrary, Ruler.norm, Ruler.euclidean, lengthSq, dot,
      ExactDouble.lt, htwo, hthree]
  have hafter : associations realLibrary sceneInfo 1
      ((some sceneObstacles).map (List.map (·.translate (0, -10))))
      (scenePoses.map (·.translate (0, -10))) = [⟨some 0, some 1, []⟩] := by
    norm_num [associations, innerPoses, scenePoses, sceneObstacles, sceneInfo, associate, visit,
      Obstacle.translate, BandPose.translate,
      Obstacle.getMinimumDistance, Obstacle.getCentroid, onLeft, cross2D,
      BandPose.orientationUnitVec, realLibrary, Ruler.norm, Ruler.euclidean, lengthSq, dot,
      ExactDouble.lt, htwo, hthree]
  rw [hbefore, hafter]
  decide

end RoboRTS.Planning
