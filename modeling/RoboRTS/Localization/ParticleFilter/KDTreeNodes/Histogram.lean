import RoboRTS.Localization.ParticleFilter.KDTreeNodes.Memory
import Mathlib.Data.Finset.Dedup
import Mathlib.Data.Rat.Floor

/-!
# The bins of the histogram

`InsertPose` inserts the bin of a pose into the tree that is stored with its counters and the vector
of its nodes (`Stores`), and `FindNode` looks it up there. After `Clear` the tree is the histogram
of what is inserted, if something is, as long as there is room for the nodes and an `int` holds the
distances that are compared (`insertPoses_histogram_iff`).
-/

namespace RoboRTS.Localization

open SplitTree

namespace ParticleFilterKDTree

section Histogram

variable {K : Type} [Field K] [LinearOrder K] {t t' : ParticleFilterKDTree K} {tree : KeyTree K}
  {root : Nat} {as : List Nat} {entries : List (Key × K)} {key key' : Key} {value : K}

/-- A tree that is stored with its counters and its vector. -/
structure Stores (t : ParticleFilterKDTree K) (tree : KeyTree K) (root : Nat) (as : List Nat) :
    Prop where
  rootPtr : t.rootPtr = some root
  holds : Holds t.heap tree root as
  nodup : as.Nodup
  allocated : ∀ b ∈ as, b < t.allocated
  vec : t.nodesPtrVec.Perm (as.map some)
  nodeCount : t.nodeCount = tree.size
  leafCount : t.leafCount = tree.leaves.length
  ordered : tree.Ordered goesLeft

/-- A tree without nodes. -/
structure Vacant (t : ParticleFilterKDTree K) : Prop where
  rootPtr : t.rootPtr = none
  vec : t.nodesPtrVec = []
  nodeCount : t.nodeCount = 0
  leafCount : t.leafCount = 0

/-- The nodes hold a tree, or there are none. -/
def Represents (t : ParticleFilterKDTree K) : Option (KeyTree K) → Prop
  | none => Vacant t
  | some tree => ∃ root as, Stores t tree root as

/-- The tree with a key more. -/
def insertKey (key : Key) (value : K) : Option (KeyTree K) → KeyTree K
  | none => .leaf key value
  | some tree => tree.insert goesLeft pivot (· + ·) key value

/-- The key is near that of the leaf that it reaches. -/
def ReachesNear (key : Key) : Option (KeyTree K) → Prop
  | none => True
  | some tree => Near key (tree.reach goesLeft key)

/-- Each key is near that of the leaf that it reaches when it is inserted. -/
def InsertsNear : Option (KeyTree K) → List (Key × K) → Prop
  | _, [] => True
  | tree, entry :: entries =>
      ReachesNear entry.1 tree ∧ InsertsNear (some (insertKey entry.1 entry.2 tree)) entries

/-- The sum of the values that were inserted with a key. -/
def total (entries : List (Key × K)) (key : Key) : Option K :=
  if key ∈ entries.map Prod.fst then some ((entries.filter (·.1 = key)).map Prod.snd).sum else none

/-- The tree counts the entries. -/
def Counts (t : ParticleFilterKDTree K) (entries : List (Key × K)) : Prop :=
  (entries = [] ∧ Vacant t) ∨
    ∃ tree root as, Stores t tree root as ∧ ∀ key, tree.find? goesLeft key = total entries key

/-- The tree that is held counts the entries. -/
structure CountsIn (t : ParticleFilterKDTree K) (tree : Option (KeyTree K))
    (entries : List (Key × K)) : Prop where
  represents : Represents t tree
  find : ∀ key, (tree.bind fun tree => tree.find? goesLeft key) = total entries key

omit [LinearOrder K] in
theorem total_append :
    total (entries ++ [(key, value)]) key' =
      if key' = key then some ((total entries key).elim value (· + value))
        else total entries key' := by
  unfold total
  by_cases heq : key' = key
  · subst heq
    rw [if_pos rfl, if_pos (by simp)]
    by_cases hmem : key' ∈ entries.map Prod.fst
    · rw [if_pos hmem]
      simp
    · have hnone : entries.filter (·.1 = key') = [] := by
        refine List.filter_eq_nil_iff.mpr fun entry hentry => ?_
        simpa using fun h => hmem (List.mem_map.mpr ⟨entry, hentry, h⟩)
      rw [if_neg hmem, List.filter_append, hnone]
      simp
  · have hkeys : key' ∈ (entries ++ [(key, value)]).map Prod.fst ↔ key' ∈ entries.map Prod.fst := by
      rw [List.map_append, List.mem_append]
      exact or_iff_left fun h => heq (List.mem_singleton.mp h)
    have hfilter : (entries ++ [(key, value)]).filter (·.1 = key') =
        entries.filter (·.1 = key') := by
      rw [List.filter_append, List.filter_cons_of_neg (by simpa using Ne.symm heq), List.filter_nil,
        List.append_nil]
    rw [if_neg heq, hfilter]
    exact if_congr hkeys rfl rfl

theorem Stores.depth_le (h : Stores t tree root as) : tree.depth ≤ t.nodeCount + 1 := by
  have hle := tree.depth_le_size
  have hcount := h.nodeCount
  omega

/-- `InsertNode` at the root inserts into the stored tree. -/
theorem Stores.insertNode [IsStrictOrderedRing K] (h : Stores t tree root as) (value : K)
    (hnear : Near key (tree.reach goesLeft key))
    (hroom : tree.find? goesLeft key = none → t.nodeCount + 2 ≤ t.nodeMaxCount) :
    ∃ t' as', insertNode key value (t.nodeCount + 1) t root = some (root, t') ∧
      Stores { t' with rootPtr := some root } (tree.insert goesLeft pivot (· + ·) key value) root
        as' ∧
      t'.size = t.size ∧ t'.nodeMaxCount = t.nodeMaxCount := by
  obtain ⟨t', as', hinsert, hins⟩ := insertNode_insertion value h.holds h.nodup h.allocated
    h.depth_le hnear hroom
  obtain ⟨n, hperm, hallocated, hvec, hcount⟩ := hins.new
  have hlength := hperm.length_eq
  rw [List.length_append, List.length_range', hins.holds.length_eq, h.holds.length_eq] at hlength
  -- the new nodes are those allocated since, at the end of the vector
  refine ⟨t', as', hinsert, ⟨rfl, hins.holds, ?_, ?_, ?_, ?_, ?_, h.ordered.insert separates_pivot⟩,
    hins.size, hins.limit⟩
  · refine hperm.nodup_iff.mpr (List.nodup_append'.mpr ⟨h.nodup, List.nodup_range', ?_⟩)
    intro b hb hb'
    have hold := h.allocated b hb
    have hnew := List.mem_range'_1.mp hb'
    omega
  · intro b hb
    show b < t'.allocated
    rcases List.mem_append.mp (hperm.mem_iff.mp hb) with hb | hb
    · have hold := h.allocated b hb
      omega
    · have hnew := List.mem_range'_1.mp hb
      omega
  · show t'.nodesPtrVec.Perm (as'.map some)
    rw [hvec]
    refine (h.vec.append_right _).trans ?_
    rw [← List.map_append]
    exact (hperm.map some).symm
  · show t'.nodeCount = _
    have hold := h.nodeCount
    omega
  · show t'.leafCount = _
    have hleaves := hins.leafCount
    have hold := h.leafCount
    omega

/-- `FindNode` looks a key up in the stored tree. -/
theorem Stores.findNode_eq (h : Stores t tree root as) (key : Key) :
    (tree.find? goesLeft key = none ∧ t.findNode key = some none) ∨
      ∃ value b node, tree.find? goesLeft key = some value ∧ b ∈ as ∧ t.heap b = some node ∧
        node.leaf = true ∧ node.key = key ∧ node.value = value ∧
        t.findNode key = some (some b) := by
  unfold findNode
  rw [h.rootPtr, Option.bind_eq_bind, Option.bind_some]
  exact h.holds.findNodeAt_eq h.depth_le

/-- What `FindNode` returns is the leaf of the key. -/
theorem Stores.of_findNode (h : Stores t tree root as) {b : Nat}
    (hfound : t.findNode key = some (some b)) :
    b ∈ as ∧ ∃ node, t.heap b = some node ∧ node.leaf = true ∧ node.key = key := by
  rcases h.findNode_eq key with ⟨-, hnone⟩ | ⟨_, b', node, -, hb, hnode, hleaf, hkey, -, hsome⟩
  · rw [hnone] at hfound
    cases hfound
  · rw [hsome] at hfound
    cases hfound
    exact ⟨hb, node, hnode, hleaf, hkey⟩

/-- The node of the key of a leaf is that leaf. -/
theorem Stores.findNode_leaf (h : Stores t tree root as) {b : Nat}
    {node : ParticleFilterKDTreeNode K} (hb : b ∈ as) (hnode : t.heap b = some node)
    (hleaf : node.leaf = true) : t.findNode node.key = some (some b) := by
  unfold findNode
  rw [h.rootPtr, Option.bind_eq_bind, Option.bind_some]
  exact h.holds.findNodeAt_leaf h.ordered hb hnode hleaf h.depth_le

/-- The number of distinct keys. -/
def distinct (entries : List (Key × K)) : Nat :=
  (entries.map Prod.fst).toFinset.card

omit [Field K] [LinearOrder K] in
theorem distinct_le {more : List (Key × K)} : distinct entries ≤ distinct (entries ++ more) := by
  refine Finset.card_le_card fun key hkey => ?_
  rw [List.mem_toFinset] at hkey ⊢
  rw [List.map_append]
  exact List.mem_append_left _ hkey

omit [LinearOrder K] in
theorem total_ne_none : total entries key ≠ none ↔ key ∈ entries.map Prod.fst := by
  unfold total
  split <;> simp_all

/-- The leaves hold the distinct keys. -/
theorem Stores.distinct_eq (h : Stores t tree root as)
    (hfind : ∀ key, tree.find? goesLeft key = total entries key) :
    tree.leaves.length = distinct entries := by
  have hkeys : tree.keys.toFinset = (entries.map Prod.fst).toFinset := by
    ext key
    rw [List.mem_toFinset, List.mem_toFinset, mem_keys_iff h.ordered, ← total_ne_none, hfind,
      Option.ne_none_iff_exists']
  rw [distinct, ← hkeys, List.toFinset_card_of_nodup h.ordered.nodup_keys, length_keys]

theorem Stores.entries_ne_nil (h : Stores t tree root as)
    (hfind : ∀ key, tree.find? goesLeft key = total entries key) : entries ≠ [] := by
  rintro rfl
  have hleaves := h.distinct_eq hfind
  have hsize := tree.size_add_one
  have hzero : distinct ([] : List (Key × K)) = 0 := rfl
  omega

/-- Without nodes there are no entries. -/
theorem CountsIn.entries_eq_nil (h : CountsIn t none entries) : entries = [] := by
  cases entries with
  | nil => rfl
  | cons entry entries => exact absurd (h.find entry.1).symm (total_ne_none.mpr (by simp))

theorem counts_iff : Counts t entries ↔ ∃ tree, CountsIn t tree entries := by
  constructor
  · rintro (⟨rfl, hvacant⟩ | ⟨tree, root, as, hstores, hfind⟩)
    · exact ⟨none, hvacant, fun _ => rfl⟩
    · exact ⟨some tree, ⟨root, as, hstores⟩, hfind⟩
  · rintro ⟨tree, hcounts⟩
    cases tree with
    | none => exact Or.inl ⟨hcounts.entries_eq_nil, hcounts.represents⟩
    | some tree =>
        obtain ⟨⟨root, as, hstores⟩, hfind⟩ := hcounts
        exact Or.inr ⟨tree, root, as, hstores, hfind⟩

/-- There is room for the nodes of a key: one for the first key, two for another new one. -/
structure HasRoom (t : ParticleFilterKDTree K) (entries : List (Key × K)) (key : Key) : Prop where
  first : entries = [] → t.nodeCount < t.nodeMaxCount
  new : entries ≠ [] → key ∉ entries.map Prod.fst → t.nodeCount + 2 ≤ t.nodeMaxCount

/-- Room for twice as many nodes as keys is enough. -/
theorem Counts.hasRoom (h : Counts t entries)
    (hbins : 2 * distinct (entries ++ [(key, value)]) ≤ t.nodeMaxCount) :
    HasRoom t entries key := by
  rcases h with ⟨rfl, hvacant⟩ | ⟨tree, root, as, hstores, hfind⟩
  case inl =>
    have hone : distinct ([] ++ [(key, value)]) = 1 := rfl
    have hcount := hvacant.nodeCount
    exact ⟨fun _ => by omega, fun hne => absurd rfl hne⟩
  case inr =>
    refine ⟨fun heq => absurd heq (hstores.entries_ne_nil hfind), fun _ hnew => ?_⟩
    -- a tree has twice as many nodes as leaves, less one, and a leaf for each key
    have hmore : distinct (entries ++ [(key, value)]) = distinct entries + 1 := by
      unfold distinct
      rw [List.map_append, List.toFinset_append, List.map_singleton, List.toFinset_cons,
        List.toFinset_nil, Finset.union_insert, Finset.union_empty,
        Finset.card_insert_of_notMem fun hmem => hnew (List.mem_toFinset.mp hmem)]
    have hleaves := hstores.distinct_eq hfind
    have hsize := tree.size_add_one
    have hcount := hstores.nodeCount
    omega

variable [FloorRing K] {node : Option (KeyTree K)}

/-- `InsertPose` fails without room, and where the key is far from the leaf that it reaches. -/
theorem CountsIn.of_insertPose (h : CountsIn t node entries) {pose : Vec3d K}
    (hinsert : t.insertPose pose value = some t') :
    ReachesNear (t.bin pose) node ∧ HasRoom t entries (t.bin pose) := by
  unfold ParticleFilterKDTree.insertPose at hinsert
  cases node with
  | none =>
      rw [h.represents.rootPtr] at hinsert
      obtain ⟨made, hmade, -⟩ := Option.bind_eq_some_iff.mp hinsert
      exact ⟨trivial, fun _ => (newNode_room hmade).1, fun hne => absurd h.entries_eq_nil hne⟩
  | some tree =>
      obtain ⟨⟨root, as, hstores⟩, hfind⟩ := h
      rw [hstores.rootPtr] at hinsert
      obtain ⟨made, hmade, -⟩ := Option.bind_eq_some_iff.mp hinsert
      obtain ⟨hnear, hroom⟩ := near_of_insertNode hstores.holds hmade
      refine ⟨hnear, fun heq => absurd heq (hstores.entries_ne_nil hfind), fun _ hnew => hroom ?_⟩
      exact (hfind _).trans (not_ne_iff.mp (mt total_ne_none.mp hnew))

/-- The first pose is the root. -/
theorem Vacant.insertPose (h : Vacant t) (pose : Vec3d K) (value : K)
    (hroom : t.nodeCount < t.nodeMaxCount) :
    ∃ t', t.insertPose pose value = some t' ∧
      Represents t' (some (.leaf (t.bin pose) value)) ∧ t'.size = t.size ∧
      t'.nodeMaxCount = t.nodeMaxCount := by
  unfold ParticleFilterKDTree.insertPose
  rw [h.rootPtr]
  dsimp only
  unfold newNode childDepth
  rw [if_pos hroom]
  refine ⟨_, rfl, ⟨t.allocated, [t.allocated], ?_⟩, rfl, rfl⟩
  constructor
  case rootPtr => rfl
  case holds => exact ⟨rfl, _, Function.update_self .., rfl, rfl, rfl⟩
  case nodup => exact List.nodup_singleton _
  case allocated =>
    intro b hb
    rw [List.mem_singleton.mp hb]
    exact Nat.lt_succ_self _
  case vec =>
    show (t.nodesPtrVec ++ [some t.allocated]).Perm [some t.allocated]
    rw [h.vec]
    exact .refl _
  case nodeCount => exact congrArg (· + 1) h.nodeCount
  case leafCount => exact congrArg (· + 1) h.leafCount
  case ordered => trivial

variable [IsStrictOrderedRing K]

/-- `InsertPose` counts a pose. -/
theorem CountsIn.insertPose (h : CountsIn t node entries) (pose : Vec3d K) (value : K)
    (hnear : ReachesNear (t.bin pose) node) (hroom : HasRoom t entries (t.bin pose)) :
    ∃ t', t.insertPose pose value = some t' ∧
      CountsIn t' (some (insertKey (t.bin pose) value node)) (entries ++ [(t.bin pose, value)]) ∧
      t'.size = t.size ∧ t'.nodeMaxCount = t.nodeMaxCount := by
  cases node with
  | none =>
      have hvacant : Vacant t := h.represents
      obtain rfl := h.entries_eq_nil
      obtain ⟨t', hinsert, hstores, hsize, hlimit⟩ :=
        hvacant.insertPose pose value (hroom.first rfl)
      refine ⟨t', hinsert, ⟨hstores, fun key => ?_⟩, hsize, hlimit⟩
      rw [total_append]
      rfl
  | some tree =>
      obtain ⟨⟨root, as, hstores⟩, hfind⟩ := h
      have hfind : ∀ key, tree.find? goesLeft key = total entries key := hfind
      have hnew : tree.find? goesLeft (t.bin pose) = none →
          t.nodeCount + 2 ≤ t.nodeMaxCount := by
        intro hnone
        rw [hfind] at hnone
        exact hroom.new (hstores.entries_ne_nil hfind) fun hmem => total_ne_none.mpr hmem hnone
      obtain ⟨t', as', hinsert, hstores', hsize', hlimit⟩ := hstores.insertNode value hnear hnew
      refine ⟨{ t' with rootPtr := some root }, ?_, ⟨⟨root, as', hstores'⟩, fun key => ?_⟩, hsize',
        hlimit⟩
      · unfold ParticleFilterKDTree.insertPose
        rw [hstores.rootPtr]
        dsimp only
        rw [hinsert]
        rfl
      · show (tree.insert goesLeft pivot (· + ·) (t.bin pose) value).find? goesLeft key = _
        rw [find?_insert separates_pivot, hfind, hfind, total_append]

omit [LinearOrder K] [IsStrictOrderedRing K] in
theorem bin_congr [LinearOrder K] [FloorRing K] (h : t'.size = t.size) : t'.bin = t.bin := by
  unfold bin
  rw [h]

/-- Calls of `InsertPose` count the poses. -/
theorem CountsIn.insertPoses (h : CountsIn t node entries) (poses : List (Vec3d K × K))
    (hnear : InsertsNear node (poses.map fun pose => (t.bin pose.1, pose.2)))
    (hbins : 2 * distinct (entries ++ poses.map fun pose => (t.bin pose.1, pose.2)) ≤
      t.nodeMaxCount) :
    ∃ t', t.insertPoses poses = some t' ∧
      Counts t' (entries ++ poses.map fun pose => (t.bin pose.1, pose.2)) := by
  induction poses generalizing t node entries with
  | nil => exact ⟨t, rfl, counts_iff.mpr ⟨node, by rwa [List.map_nil, List.append_nil]⟩⟩
  | cons pose poses ih =>
      rw [List.map_cons, List.append_cons] at hbins ⊢
      obtain ⟨hreaches, hnear⟩ := hnear
      have hfirst := (counts_iff.mpr ⟨node, h⟩).hasRoom
        ((Nat.mul_le_mul_left 2 distinct_le).trans hbins)
      obtain ⟨t₁, hinsert, hcounts, hsize, hlimit⟩ := h.insertPose pose.1 pose.2 hreaches hfirst
      have hbin := bin_congr hsize
      obtain ⟨t', hrest, hcounts'⟩ := ih hcounts (by rwa [hbin]) (by rwa [hbin, hlimit])
      rw [hbin] at hcounts'
      refine ⟨t', ?_, hcounts'⟩
      unfold ParticleFilterKDTree.insertPoses
      rw [List.foldlM_cons, hinsert]
      exact hrest

/-- Calls of `InsertPose` that do not fail count the poses. -/
theorem CountsIn.of_insertPoses (h : CountsIn t node entries) {poses : List (Vec3d K × K)}
    (hinsert : t.insertPoses poses = some t') :
    InsertsNear node (poses.map fun pose => (t.bin pose.1, pose.2)) ∧
      Counts t' (entries ++ poses.map fun pose => (t.bin pose.1, pose.2)) ∧ t'.size = t.size := by
  induction poses generalizing t node entries with
  | nil =>
      cases hinsert
      exact ⟨trivial, counts_iff.mpr ⟨node, by rwa [List.map_nil, List.append_nil]⟩, rfl⟩
  | cons pose poses ih =>
      unfold ParticleFilterKDTree.insertPoses at hinsert
      rw [List.foldlM_cons] at hinsert
      obtain ⟨t₁, hfirst, hrest⟩ := Option.bind_eq_some_iff.mp hinsert
      obtain ⟨hreaches, hroom⟩ := h.of_insertPose hfirst
      obtain ⟨t₁', hfirst', hcounts, hsize, -⟩ := h.insertPose pose.1 pose.2 hreaches hroom
      rw [hfirst] at hfirst'
      cases hfirst'
      obtain ⟨hnear, hcounts', hsize'⟩ := ih hcounts hrest
      rw [bin_congr hsize] at hnear hcounts'
      rw [List.map_cons, List.append_cons]
      exact ⟨⟨hreaches, hnear⟩, hcounts', hsize'.trans hsize⟩

theorem Counts.of_insertPoses (h : Counts t entries) {poses : List (Vec3d K × K)}
    (hinsert : t.insertPoses poses = some t') :
    Counts t' (entries ++ poses.map fun pose => (t.bin pose.1, pose.2)) ∧ t'.size = t.size := by
  obtain ⟨node, hcounts⟩ := counts_iff.mp h
  exact (hcounts.of_insertPoses hinsert).2

/-- What a tree that counts the entries holds: `FindNode` returns the leaf of a key that was
inserted, with the sum of its values, and no other one; the counters are the numbers of distinct
keys and of nodes, and the vector lists the nodes that are reached from the root. -/
structure IsHistogram (t : ParticleFilterKDTree K) (entries : List (Key × K)) : Prop where
  defined : ∀ key, t.findNode key ≠ none
  found : ∀ key, (∃ a, t.findNode key = some (some a)) ↔ key ∈ entries.map Prod.fst
  node : ∀ key a, t.findNode key = some (some a) → ∃ node, t.heap a = some node ∧
    node.leaf = true ∧ node.key = key ∧
      node.value = ((entries.filter (·.1 = key)).map Prod.snd).sum
  leafCount : t.leafCount = distinct entries
  nodeCount : t.nodeCount = if entries = [] then 0 else 2 * t.leafCount - 1
  nodup : t.nodesPtrVec.Nodup
  vec : ∀ p, p ∈ t.nodesPtrVec ↔ ∃ a, p = some a ∧ t.Reachable a

omit [IsStrictOrderedRing K] [FloorRing K] in
theorem Stores.isHistogram (h : Stores t tree root as)
    (hfind : ∀ key, tree.find? goesLeft key = total entries key) : IsHistogram t entries := by
  have hleafCount : t.leafCount = distinct entries :=
    h.leafCount.trans (h.distinct_eq hfind)
  have hne := h.entries_ne_nil hfind
  constructor
  case defined =>
    intro key
    rcases h.findNode_eq key with ⟨-, hfound⟩ | ⟨_, _, _, -, -, -, -, -, -, hfound⟩
    · simp [hfound]
    · simp [hfound]
  case found =>
    intro key
    rw [← total_ne_none, ← hfind]
    rcases h.findNode_eq key with ⟨hnone, hfound⟩ | ⟨_, b, _, hsome, -, -, -, -, -, hfound⟩
    · simp [hfound, hnone]
    · simp [hfound, hsome]
  case node =>
    intro key a ha
    rcases h.findNode_eq key with
      ⟨-, hfound⟩ | ⟨value, b, node, hsome, -, hnode, hleaf, hkey, hvalue, hfound⟩
    · rw [hfound] at ha
      cases ha
    · rw [hfound] at ha
      cases ha
      rw [hfind, total] at hsome
      split at hsome
      case isTrue =>
        cases hsome
        exact ⟨node, hnode, hleaf, hkey, hvalue⟩
      case isFalse => cases hsome
  case leafCount => exact hleafCount
  case nodeCount =>
    have hsize := tree.size_add_one
    rw [if_neg hne, h.nodeCount, h.leafCount]
    omega
  case nodup => exact h.vec.nodup_iff.mpr (h.nodup.map (Option.some_injective Nat))
  case vec =>
    intro p
    rw [h.vec.mem_iff, List.mem_map]
    constructor
    · rintro ⟨a, ha, rfl⟩
      exact ⟨a, rfl, root, h.rootPtr, h.holds.reachable_iff.mpr ha⟩
    · rintro ⟨a, rfl, root', hroot, hreach⟩
      rw [h.rootPtr] at hroot
      cases hroot
      exact ⟨a, h.holds.reachable_iff.mp hreach, rfl⟩

omit [IsStrictOrderedRing K] [FloorRing K] in
/-- A tree that counts entries is their histogram, except that `FindNode` reads the root of a tree
without nodes. -/
theorem Counts.isHistogram_iff (h : Counts t entries) : IsHistogram t entries ↔ entries ≠ [] := by
  rcases h with ⟨rfl, hvacant⟩ | ⟨tree, root, as, hstores, hfind⟩
  · refine iff_of_false (fun hhistogram => hhistogram.defined 0 ?_) fun hne => hne rfl
    unfold findNode
    rw [hvacant.rootPtr]
    rfl
  · exact iff_of_true (hstores.isHistogram hfind) (hstores.entries_ne_nil hfind)

omit [IsStrictOrderedRing K] [FloorRing K] in
/-- The keys that `FindNode` finds are those of the entries. -/
theorem Counts.found_iff (h : Counts t entries) :
    (∃ a, t.findNode key = some (some a)) ↔ key ∈ entries.map Prod.fst := by
  rcases h with ⟨rfl, hvacant⟩ | ⟨tree, root, as, hstores, hfind⟩
  · refine iff_of_false ?_ List.not_mem_nil
    rintro ⟨a, ha⟩
    unfold findNode at ha
    rw [hvacant.rootPtr] at ha
    cases ha
  · exact (hstores.isHistogram hfind).found key

omit [Field K] [LinearOrder K] [IsStrictOrderedRing K] [FloorRing K] in
/-- `Clear` leaves no nodes. -/
theorem vacant_clear (h : t.clear = some t') :
    Vacant t' ∧ t'.size = t.size ∧ t'.nodeMaxCount = t.nodeMaxCount := by
  unfold clear at h
  split at h
  case isTrue => cases h
  case isFalse =>
    cases h
    exact ⟨⟨rfl, rfl, rfl, rfl⟩, rfl, rfl⟩

omit [IsStrictOrderedRing K] [FloorRing K] in
/-- Keys that are near each other are inserted near the leaves that they reach. -/
theorem insertsNear_of_pairwise {node : Option (KeyTree K)}
    (hpairs : ∀ key ∈ entries.map Prod.fst, ∀ key' ∈ entries.map Prod.fst, Near key key')
    (hkeys : ∀ tree ∈ node, ∀ key ∈ entries.map Prod.fst, ∀ key' ∈ tree.keys, Near key key') :
    InsertsNear node entries := by
  induction entries generalizing node with
  | nil => trivial
  | cons entry entries ih =>
      rw [List.map_cons] at hpairs hkeys
      constructor
      · cases node with
        | none => trivial
        | some tree => exact hkeys tree rfl _ List.mem_cons_self _ reach_mem
      · refine ih (fun key hkey key' hkey' => hpairs key (List.mem_cons_of_mem _ hkey) key'
          (List.mem_cons_of_mem _ hkey')) ?_
        rintro _ ⟨⟩ key hkey key' hkey'
        have hmore := List.mem_cons_of_mem entry.1 hkey
        cases node with
        | none =>
            rw [List.mem_singleton.mp hkey']
            exact hpairs key hmore _ List.mem_cons_self
        | some tree =>
            rcases mem_keys_insert.mp hkey' with rfl | hkey'
            · exact hpairs key hmore _ List.mem_cons_self
            · exact hkeys tree rfl key hmore key' hkey'

/-- After `Clear`, poses in at most half as many bins as there may be nodes are inserted without a
failed assertion, and the tree is their histogram, exactly when there is a pose, and each bin is
near that of the leaf that it reaches. -/
theorem insertPoses_histogram_iff {t₀ : ParticleFilterKDTree K} (hclear : t.clear = some t₀)
    (poses : List (Vec3d K × K))
    (hbins : 2 * distinct (poses.map fun pose => (t.bin pose.1, pose.2)) ≤ t.nodeMaxCount) :
    (∃ t', t₀.insertPoses poses = some t' ∧
        IsHistogram t' (poses.map fun pose => (t.bin pose.1, pose.2))) ↔
      poses ≠ [] ∧ InsertsNear (none : Option (KeyTree K))
        (poses.map fun pose => (t.bin pose.1, pose.2)) := by
  obtain ⟨hvacant, hsize, hlimit⟩ := vacant_clear hclear
  have hbin := bin_congr hsize
  have hstart : CountsIn t₀ none [] := ⟨hvacant, fun _ => rfl⟩
  have hempty : (poses.map fun pose => (t.bin pose.1, pose.2)) ≠ [] ↔ poses ≠ [] :=
    not_congr List.map_eq_nil_iff
  constructor
  · rintro ⟨t', hinsert, hhistogram⟩
    obtain ⟨hnear, hcounts, -⟩ := hstart.of_insertPoses hinsert
    rw [hbin] at hnear hcounts
    exact ⟨hempty.mp (hcounts.isHistogram_iff.mp hhistogram), hnear⟩
  · rintro ⟨hne, hnear⟩
    obtain ⟨t', hinsert, hcounts⟩ :=
      hstart.insertPoses poses (by rwa [hbin]) (by rwa [hbin, hlimit, List.nil_append])
    rw [hbin, List.nil_append] at hcounts
    exact ⟨t', hinsert, hcounts.isHistogram_iff.mpr (hempty.mpr hne)⟩

end Histogram

/-- Two poses in one bin and one in another, in a tree with room for four nodes. -/
theorem insertPoses_histogram_two : ∃ t' : ParticleFilterKDTree ℚ,
    ((initializeByMaxSize 3 4).clear.bind fun t => t.insertPoses
      [(![0, 0, 0], 1), (![0, 1 / 4, 0], 2), (![1, 0, -1], 3)]) = some t' ∧
      IsHistogram t' [(![0, 0, 0], 1), (![0, 0, 0], 2), (![2, 0, -6], 3)] := by
  have hclear : (initializeByMaxSize 3 4 : ParticleFilterKDTree ℚ).clear =
      some { (initializeByMaxSize 3 4 : ParticleFilterKDTree ℚ) with nodesPtrVec := [] } := rfl
  have hentries : [((![0, 0, 0] : Vec3d ℚ), (1 : ℚ)), (![0, 1 / 4, 0], 2), (![1, 0, -1], 3)].map
      (fun pose => ((initializeByMaxSize 3 4 : ParticleFilterKDTree ℚ).bin pose.1, pose.2)) =
        [(![0, 0, 0], 1), (![0, 0, 0], 2), (![2, 0, -6], 3)] := by
    decide +kernel
  obtain ⟨t', hinsert, hhistogram⟩ := (insertPoses_histogram_iff hclear
    [(![0, 0, 0], 1), (![0, 1 / 4, 0], 2), (![1, 0, -1], 3)] (by decide +kernel)).mpr
      ⟨List.cons_ne_nil _ _, insertsNear_of_pairwise (by rw [hentries]; decide) (by simp)⟩
  rw [hentries] at hhistogram
  exact ⟨t', by rw [hclear]; exact hinsert, hhistogram⟩

/-- Without a pose, `FindNode` reads a null pointer; of two bins that are `2 ^ 31` apart, the second
cannot be inserted. -/
theorem insertPoses_fails :
    (¬ ∃ t' : ParticleFilterKDTree ℚ,
      ((initializeByMaxSize 3 4).clear.bind fun t => t.insertPoses []) = some t' ∧
        IsHistogram t' []) ∧
    ¬ ∃ t' : ParticleFilterKDTree ℚ,
      ((initializeByMaxSize 3 4).clear.bind fun t => t.insertPoses
        [(![0, 0, 0], 1), (![1073741824, 0, 0], 2)]) = some t' ∧
        IsHistogram t' [(![0, 0, 0], 1), (![2147483648, 0, 0], 2)] := by
  constructor
  · rintro ⟨t', hinsert, hhistogram⟩
    cases hinsert
    exact hhistogram.defined 0 rfl
  · rintro ⟨t', hinsert, -⟩
    have hnone : ((initializeByMaxSize (3 : ℚ) 4).clear.bind fun t => t.insertPoses
        [(![0, 0, 0], 1), (![1073741824, 0, 0], 2)]).isNone = true := by
      decide +kernel
    rw [hinsert] at hnone
    cases hnone

end ParticleFilterKDTree

end RoboRTS.Localization
