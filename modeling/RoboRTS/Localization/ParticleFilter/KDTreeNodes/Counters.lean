import RoboRTS.Localization.ParticleFilter.KDTreeNodes.Histogram

/-!
# The counters of the histogram

A `KDTree` with the counters of a `ParticleFilterKDTree` and the tree that its nodes hold
(`Counters`) keeps up with it: a call of `InsertPose` that returns does the same to both
(`Counters.insertPose`), and so do any number of them after `Clear` (`insertPoses_counters`).
-/

namespace RoboRTS.Localization

open SplitTree ParticleFilterKDTree

variable {K : Type}

/-- The tree without the keys and the values that a split leaf keeps. -/
def KDNode.toTree : KDNode K → KeyTree K
  | .leaf key value => .leaf key value
  | .split _ _ dim pivotValue left right => .split (dim, pivotValue) left.toTree right.toTree

variable [Field K] [LinearOrder K] {c : KDTree K} {key : Key} {value : K}

namespace KDTree

/-- What an insertion below a node does to the counters. -/
structure Counted (c c' : KDTree K) (node node' : KDNode K) : Prop where
  size : c'.size = c.size
  limit : c'.nodeMaxCount = c.nodeMaxCount
  nodeCount : c'.nodeCount + node.toTree.size = c.nodeCount + node'.toTree.size
  leafCount : c'.leafCount + node.toTree.leaves.length = c.leafCount + node'.toTree.leaves.length

/-- `InsertNode` inserts into the tree. -/
theorem insertNode_toTree (value : K) (node : KDNode K)
    (hroom : node.toTree.find? goesLeft key = none → c.nodeCount + 2 ≤ c.nodeMaxCount) :
    ∃ node' c', insertNode key value node c = .ok (node', c') ∧
      node'.toTree = node.toTree.insert goesLeft pivot (· + ·) key value ∧
      Counted c c' node node' := by
  induction node with
  | leaf nodeKey nodeValue =>
      unfold insertNode KDNode.toTree SplitTree.insert
      by_cases hsame : key = nodeKey
      · rw [if_pos hsame, if_pos hsame]
        exact ⟨_, _, rfl, rfl, rfl, rfl, rfl, rfl⟩
      · obtain ⟨dim, hdim⟩ := pivotDim_isSome hsame
        have hpivot : (pivot key nodeKey : Fin 3 × K) =
            (dim, ((key dim : K) + nodeKey dim) / 2) := by
          unfold pivot
          rw [hdim]
          rfl
        have hroom := hroom (if_neg hsame)
        have hsecond : c.nodeCount + 1 < c.nodeMaxCount := by omega
        rw [if_neg hsame, if_neg hsame, hdim, hpivot]
        dsimp only
        by_cases htest : (key dim : K) < ((key dim : K) + nodeKey dim) / 2
        · have hside : goesLeft (dim, ((key dim : K) + nodeKey dim) / 2) key = true :=
            decide_eq_true htest
          rw [if_pos htest, if_pos hside, newNode_eq (by omega)]
          simp only [bind, Except.bind, newNode, hsecond, if_true, pure, Except.pure]
          exact ⟨_, _, rfl, rfl, rfl, rfl, rfl, rfl⟩
        · have hside : ¬ goesLeft (dim, ((key dim : K) + nodeKey dim) / 2) key = true :=
            fun h => htest (of_decide_eq_true h)
          rw [if_neg htest, if_neg hside, newNode_eq (by omega)]
          simp only [bind, Except.bind, newNode, hsecond, if_true, pure, Except.pure]
          exact ⟨_, _, rfl, rfl, rfl, rfl, rfl, rfl⟩
  | split nodeKey nodeValue dim pivotValue left right ihLeft ihRight =>
      unfold KDNode.toTree find? at hroom
      unfold insertNode
      rw [KDNode.toTree, SplitTree.insert]
      by_cases htest : (key dim : K) < pivotValue
      · have hside : goesLeft (dim, pivotValue) key = true := decide_eq_true htest
        rw [if_pos hside] at hroom ⊢
        obtain ⟨left', c', hinsert, htree, hcounted⟩ := ihLeft hroom
        rw [if_pos htest, hinsert]
        refine ⟨_, _, rfl, by rw [KDNode.toTree, htree], hcounted.size, hcounted.limit, ?_, ?_⟩
        · have hcount := hcounted.nodeCount
          simp only [KDNode.toTree, SplitTree.size]
          omega
        · have hcount := hcounted.leafCount
          simp only [KDNode.toTree, leaves, List.length_append]
          omega
      · have hside : ¬ goesLeft (dim, pivotValue) key = true := fun h =>
          htest (of_decide_eq_true h)
        rw [if_neg hside] at hroom ⊢
        obtain ⟨right', c', hinsert, htree, hcounted⟩ := ihRight hroom
        rw [if_neg htest, hinsert]
        refine ⟨_, _, rfl, by rw [KDNode.toTree, htree], hcounted.size, hcounted.limit, ?_, ?_⟩
        · have hcount := hcounted.nodeCount
          simp only [KDNode.toTree, SplitTree.size]
          omega
        · have hcount := hcounted.leafCount
          simp only [KDNode.toTree, leaves, List.length_append]
          omega

end KDTree

/-- A `KDTree` with the counters of a `ParticleFilterKDTree` and the tree that its nodes hold. -/
structure Counters (t : ParticleFilterKDTree K) (c : KDTree K) : Prop where
  size : c.size = t.size
  limit : c.nodeMaxCount = t.nodeMaxCount
  nodeCount : c.nodeCount = t.nodeCount
  leafCount : c.leafCount = t.leafCount
  represents : Represents t (c.root.map KDNode.toTree)

variable {t t₀ t' : ParticleFilterKDTree K}

/-- `Clear` empties both. -/
theorem counters_clear (hsize : c.size = t.size) (hlimit : c.nodeMaxCount = t.nodeMaxCount)
    (hclear : t.clear = some t₀) : Counters t₀ c.clear := by
  obtain ⟨hvacant, hsize', hlimit'⟩ := vacant_clear hclear
  exact ⟨hsize.trans hsize'.symm, hlimit.trans hlimit'.symm, hvacant.nodeCount.symm,
    hvacant.leafCount.symm, hvacant⟩

variable [IsStrictOrderedRing K] [FloorRing K]

/-- A call of `InsertPose` that returns does the same to both. -/
theorem Counters.insertPose (h : Counters t c) {pose : Vec3d K}
    (hinsert : t.insertPose pose value = some t') :
    ∃ c', c.insertPose pose value = .ok c' ∧ Counters t' c' := by
  have hbin : (fun i => ⌊pose i / c.size i⌋) = t.bin pose := by
    rw [h.size]
    rfl
  have hrepresents := h.represents
  unfold KDTree.insertPose
  dsimp only
  rw [hbin]
  cases hroot : c.root with
  | none =>
      rw [hroot] at hrepresents
      have hvacant : Vacant t := hrepresents
      have hcounts : CountsIn t none ([] : List (Key × K)) := ⟨hvacant, fun _ => rfl⟩
      have hroom : t.nodeCount < t.nodeMaxCount := (hcounts.of_insertPose hinsert).2.first rfl
      obtain ⟨t₁, hinsert', hstores, hsize, hlimit⟩ := hvacant.insertPose pose value hroom
      rw [hinsert] at hinsert'
      cases hinsert'
      obtain ⟨root, as, hstores⟩ := hstores
      dsimp only
      rw [KDTree.newNode_eq (by rw [h.nodeCount, h.limit]; exact hroom)]
      refine ⟨_, rfl, h.size.trans hsize.symm, h.limit.trans hlimit.symm, ?_, ?_, root, as, hstores⟩
      · show c.nodeCount + 1 = t'.nodeCount
        rw [h.nodeCount, hvacant.nodeCount, hstores.nodeCount]
        rfl
      · show c.leafCount + 1 = t'.leafCount
        rw [h.leafCount, hvacant.leafCount, hstores.leafCount]
        rfl
  | some node =>
      rw [hroot] at hrepresents
      obtain ⟨root, as, hstores⟩ := hrepresents
      unfold ParticleFilterKDTree.insertPose at hinsert
      rw [hstores.rootPtr] at hinsert
      obtain ⟨made, hmade, hdone⟩ := Option.bind_eq_some_iff.mp hinsert
      obtain ⟨hnear, hroom⟩ := near_of_insertNode hstores.holds hmade
      obtain ⟨t₁, as', hmade', hstores', hsize, hlimit⟩ := hstores.insertNode value hnear hroom
      rw [hmade] at hmade'
      cases hmade'
      cases hdone
      rw [← h.nodeCount, ← h.limit] at hroom
      obtain ⟨node', c', hinsert', htree, hcounted⟩ := KDTree.insertNode_toTree value node hroom
      dsimp only
      rw [hinsert']
      have hnodes := hcounted.nodeCount
      have hleaves := hcounted.leafCount
      rw [htree] at hnodes hleaves
      refine ⟨_, rfl, hcounted.size.trans (h.size.trans hsize.symm),
        hcounted.limit.trans (h.limit.trans hlimit.symm), ?_, ?_, root, as', ?_⟩
      · have hold := hstores.nodeCount
        have hnew := hstores'.nodeCount
        have hsame := h.nodeCount
        show c'.nodeCount = t₁.nodeCount
        dsimp only at hnew
        omega
      · have hold := hstores.leafCount
        have hnew := hstores'.leafCount
        have hsame := h.leafCount
        show c'.leafCount = t₁.leafCount
        dsimp only at hnew
        omega
      · rw [htree]
        exact hstores'

/-- So do any number of calls. -/
theorem Counters.insertPoses (h : Counters t c) {poses : List (Vec3d K × K)}
    (hinsert : t.insertPoses poses = some t') :
    ∃ c', poses.foldlM (fun (c : KDTree K) pose => c.insertPose pose.1 pose.2) c = .ok c' ∧
      Counters t' c' := by
  induction poses generalizing t c with
  | nil =>
      cases hinsert
      exact ⟨c, rfl, h⟩
  | cons pose poses ih =>
      unfold ParticleFilterKDTree.insertPoses at hinsert
      rw [List.foldlM_cons] at hinsert
      obtain ⟨t₁, hfirst, hrest⟩ := Option.bind_eq_some_iff.mp hinsert
      obtain ⟨c₁, hfirst', hcounters⟩ := h.insertPose hfirst
      obtain ⟨c', hrest', hcounters'⟩ := ih hcounters hrest
      exact ⟨c', by rw [List.foldlM_cons, hfirst']; exact hrest', hcounters'⟩

/-- After `Clear`, poses that are inserted into a `ParticleFilterKDTree` are counted by a `KDTree`
with the same limit. -/
theorem insertPoses_counters (hsize : c.size = t.size) (hlimit : c.nodeMaxCount = t.nodeMaxCount)
    (hclear : t.clear = some t₀) {poses : List (Vec3d K × K)}
    (hinsert : t₀.insertPoses poses = some t') :
    ∃ c', poses.foldlM (fun (c : KDTree K) pose => c.insertPose pose.1 pose.2) c.clear = .ok c' ∧
      Counters t' c' :=
  (counters_clear hsize hlimit hclear).insertPoses hinsert

end RoboRTS.Localization
