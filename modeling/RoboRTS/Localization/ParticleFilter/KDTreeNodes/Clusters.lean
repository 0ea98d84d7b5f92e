import RoboRTS.Lib.FloodFill
import RoboRTS.Localization.ParticleFilter.KDTreeNodes.Histogram
import Mathlib.Data.Set.List

/-!
# Clusters of bins

`ClusterNode` is a flood fill of the leaves, with the leaves of the surrounding keys as neighbours
(`clusterNode_eq_fill`), and `Cluster` starts it at the leaves of the vector (`cluster_eq`). After
it, two bins have the same label exactly when a chain of occupied bins joins them
(`cluster_components`).
-/

namespace RoboRTS.Localization

namespace ParticleFilterKDTree

/-! ## Labels in memory -/

section Labels

variable {K : Type} {t : ParticleFilterKDTree K} {as bs : List Nat}
  {label label' : Nat → Option Nat} {a b : Nat} {node : ParticleFilterKDTreeNode K}

/-- The cluster of a node with a label, or -1. -/
def clusterOf : Option Nat → Int
  | none => -1
  | some c => c

theorem clusterOf_nonneg {c : Option Nat} : clusterOf c ≥ 0 ↔ c.isSome = true := by
  cases c with
  | none => exact iff_of_false (by decide) Bool.false_ne_true
  | some c => exact iff_of_true (Int.natCast_nonneg c) rfl

/-- A leaf with another label. -/
def labelled (node : ParticleFilterKDTreeNode K) (label : Option Nat) :
    ParticleFilterKDTreeNode K :=
  if node.leaf then { node with cluster := clusterOf label } else node

/-- The leaves among the addresses get labels. -/
def relabel (t : ParticleFilterKDTree K) (as : List Nat) (label : Nat → Option Nat) :
    ParticleFilterKDTree K :=
  { t with
    heap := fun a => if a ∈ as then (t.heap a).map (labelled · (label a)) else t.heap a }

theorem relabel_heap (ha : a ∈ as) (hnode : t.heap a = some node) (hleaf : node.leaf = true) :
    (t.relabel as label).heap a = some { node with cluster := clusterOf (label a) } := by
  show (if a ∈ as then (t.heap a).map (labelled · (label a)) else t.heap a) = _
  rw [if_pos ha, hnode, Option.map_some, labelled, if_pos hleaf]

/-- Labels change nothing but the clusters. -/
theorem relabel_heap_some (as : List Nat) (label : Nat → Option Nat)
    (hnode : t.heap a = some node) :
    ∃ c, (t.relabel as label).heap a = some { node with cluster := c } := by
  show ∃ c, (if a ∈ as then (t.heap a).map (labelled · (label a)) else t.heap a) = _
  rw [hnode]
  by_cases ha : a ∈ as
  · rw [if_pos ha, Option.map_some, labelled]
    by_cases hleaf : node.leaf = true
    · exact ⟨clusterOf (label a), by rw [if_pos hleaf]⟩
    · exact ⟨node.cluster, by rw [if_neg hleaf]⟩
  · exact ⟨node.cluster, by rw [if_neg ha]⟩

theorem relabel_heap_none (hnone : t.heap a = none) : (t.relabel as label).heap a = none := by
  show (if a ∈ as then (t.heap a).map (labelled · (label a)) else t.heap a) = none
  rw [hnone]
  exact ite_self none

theorem relabel_congr (hmem : ∀ a, a ∈ as ↔ a ∈ bs) : t.relabel as label = t.relabel bs label := by
  have hheap : (t.relabel as label).heap = (t.relabel bs label).heap :=
    funext fun a => if_congr (hmem a) rfl rfl
  exact congrArg (fun heap => { t with heap := heap }) hheap

/-- A node gets a label. -/
theorem relabel_set (label : Nat → Option Nat) (ha : a ∈ as) (hnode : t.heap a = some node)
    (hleaf : node.leaf = true) (c : Nat) : (t.relabel as label).set a { node with cluster := c } =
      t.relabel as (Function.update label a (some c)) := by
  have hheap : ((t.relabel as label).set a { node with cluster := c }).heap =
      (t.relabel as (Function.update label a (some c))).heap := by
    funext b
    show Function.update (t.relabel as label).heap a _ b = _
    by_cases heq : b = a
    · subst heq
      rw [Function.update_self, relabel_heap ha hnode hleaf, Function.update_self]
      rfl
    · rw [Function.update_of_ne heq]
      show (if b ∈ as then (t.heap b).map (labelled · (label b)) else t.heap b) =
        if b ∈ as then (t.heap b).map (labelled · (Function.update label a (some c) b))
          else t.heap b
      rw [Function.update_of_ne heq]
  exact congrArg (fun heap => { t with heap := heap }) hheap

/-- A leaf loses its label. -/
theorem relabel_cons_leaf (as : List Nat) (hnode : t.heap a = some node)
    (hleaf : node.leaf = true) :
    (t.relabel as fun _ => none).set a { node with cluster := -1 } =
      t.relabel (a :: as) fun _ => none := by
  have hheap : ((t.relabel as fun _ => none).set a { node with cluster := -1 }).heap =
      (t.relabel (a :: as) fun _ => none).heap := by
    funext b
    show Function.update (t.relabel as fun _ => none).heap a _ b = _
    by_cases heq : b = a
    · subst heq
      rw [Function.update_self, relabel_heap List.mem_cons_self hnode hleaf]
      rfl
    · rw [Function.update_of_ne heq]
      exact if_congr (List.mem_cons.trans (or_iff_right heq)).symm rfl rfl
  exact congrArg (fun heap => { t with heap := heap }) hheap

/-- A node that is no leaf has no label. -/
theorem relabel_cons_inner (hnode : t.heap a = some node) (hleaf : node.leaf = false) :
    t.relabel (a :: as) label = t.relabel as label := by
  have hheap : (t.relabel (a :: as) label).heap = (t.relabel as label).heap := by
    funext b
    by_cases heq : b = a
    · subst heq
      show (if b ∈ b :: as then (t.heap b).map (labelled · (label b)) else t.heap b) =
        if b ∈ as then (t.heap b).map (labelled · (label b)) else t.heap b
      have hsame : (t.heap b).map (labelled · (label b)) = t.heap b := by
        rw [hnode, Option.map_some, labelled, if_neg (Bool.eq_false_iff.mp hleaf)]
      rw [hsame, ite_self, ite_self]
    · exact if_congr (List.mem_cons.trans (or_iff_right heq)) rfl rfl
  exact congrArg (fun heap => { t with heap := heap }) hheap

theorem relabel_nil : t.relabel [] label = t := by
  have hheap : (t.relabel [] label).heap = t.heap := by
    funext a
    show (if a ∈ [] then (t.heap a).map (labelled · (label a)) else t.heap a) = t.heap a
    exact if_neg List.not_mem_nil
  exact congrArg (fun heap => { t with heap := heap }) hheap

/-- `FindNode` does not read the clusters. -/
theorem findNodeAt_relabel [Field K] [LinearOrder K] (key : Key) (fuel : Nat) (a : Nat) :
    findNodeAt (t.relabel as label).heap key fuel a = findNodeAt t.heap key fuel a := by
  induction fuel generalizing a with
  | zero => rfl
  | succ fuel ih =>
      unfold findNodeAt
      cases hnode : t.heap a with
      | none =>
          rw [relabel_heap_none hnode]
          rfl
      | some node =>
          obtain ⟨c, hc⟩ := relabel_heap_some as label hnode
          rw [hc]
          simp only [Option.bind_eq_bind, Option.bind_some, ih]

/-- The tree is still there. -/
theorem Holds.relabel {tree : KeyTree K} {root : Nat} (h : Holds t.heap tree root bs) :
    Holds (t.relabel as label).heap tree root bs := by
  induction tree generalizing root bs with
  | leaf key value =>
      obtain ⟨rfl, node, hnode, hfields⟩ := h
      obtain ⟨c, hc⟩ := relabel_heap_some as label hnode
      exact ⟨rfl, _, hc, hfields⟩
  | split test left right ihLeft ihRight =>
      obtain ⟨l, r, ls, rs, ⟨node, hnode, hfields⟩, hleft, hright, rfl⟩ := h
      obtain ⟨c, hc⟩ := relabel_heap_some as label hnode
      exact ⟨l, r, ls, rs, ⟨_, hc, hfields⟩, ihLeft hleft, ihRight hright, rfl⟩

theorem findNode_relabel [Field K] [LinearOrder K] (key : Key) :
    (t.relabel as label).findNode key = t.findNode key := by
  show t.rootPtr.bind (findNodeAt (t.relabel as label).heap key (t.nodeCount + 1)) =
    t.rootPtr.bind (findNodeAt t.heap key (t.nodeCount + 1))
  exact congrArg _ (funext fun root => findNodeAt_relabel key _ root)

end Labels

/-! ## The flood fill -/

section Fill

open SplitTree

variable {K : Type} [Field K] [LinearOrder K] {t : ParticleFilterKDTree K} {tree : KeyTree K}
  {root a fuel c : Nat} {as : List Nat} {label : Nat → Option Nat}
  {node : ParticleFilterKDTreeNode K}

/-- The leaf that is found in a round. -/
def neighbour (t : ParticleFilterKDTree K) (key : Key) (i : Nat) : Option Nat :=
  (t.findNode (neighbourKey key i)).join

/-- The leaves of the keys around the key of a node. -/
def neighbours (t : ParticleFilterKDTree K) (a : Nat) : List Nat :=
  match t.heap a with
  | none => []
  | some node => (List.range (3 * 3 * 3)).filterMap (t.neighbour node.key)

/-- What is found is a leaf. -/
theorem Stores.neighbour_some (h : Stores t tree root as) {key : Key} {i b : Nat}
    (hb : t.neighbour key i = some b) :
    b ∈ as ∧ ∃ node, t.heap b = some node ∧ node.leaf = true ∧ node.key = neighbourKey key i :=
  h.of_findNode (Option.join_eq_some_iff.mp hb)

/-- A round goes on at the leaf of its key, if there is one without a label. -/
theorem clusterRound_eq {next : ParticleFilterKDTree K → Nat → Option (ParticleFilterKDTree K)}
    (h : Stores t tree root as) (ha : a ∈ as) (hnode : t.heap a = some node)
    (hleaf : node.leaf = true) (hlabel : label a = some c) (i : Nat) :
    clusterRound next a (t.relabel as label) i =
      match t.neighbour node.key i with
      | none => some (t.relabel as label)
      | some b =>
          if (label b).isSome then some (t.relabel as label)
          else next (t.relabel as (Function.update label b (some c))) b := by
  unfold clusterRound neighbour
  rw [relabel_heap ha hnode hleaf, Option.bind_eq_bind, Option.bind_some, findNode_relabel, hlabel]
  rcases h.findNode_eq (neighbourKey node.key i) with
    ⟨-, hfound⟩ | ⟨_, b, nNode, -, hb, hnNode, hnLeaf, -, -, hfound⟩
  · rw [hfound]
    rfl
  · rw [hfound, Option.bind_eq_bind, Option.bind_some, Option.join_some]
    dsimp only
    rw [relabel_heap hb hnNode hnLeaf, Option.bind_some, hnLeaf, if_neg (by decide)]
    dsimp only
    rw [← relabel_set label hb hnNode hnLeaf]
    exact if_congr clusterOf_nonneg rfl (by rw [hnLeaf]; rfl)

/-- `ClusterNode` fills the leaves that are reached. -/
theorem clusterNode_eq_fill (fuel : Nat) (h : Stores t tree root as) (ha : a ∈ as)
    (hnode : t.heap a = some node) (hleaf : node.leaf = true) (hlabel : label a = some c) :
    clusterNode fuel (t.relabel as label) a =
      (FloodFill.fill t.neighbours fuel label a c).map (t.relabel as) := by
  induction fuel generalizing label a node with
  | zero => rfl
  | succ fuel ih =>
      have hnbrs : t.neighbours a = (List.range (3 * 3 * 3)).filterMap (t.neighbour node.key) := by
        unfold neighbours
        rw [hnode]
      unfold clusterNode FloodFill.fill
      rw [hnbrs]
      -- an induction on the rounds inside the one on the depth of the recursion
      generalize List.range (3 * 3 * 3) = is
      induction is generalizing label with
      | nil => rfl
      | cons i is ihRounds =>
          rw [List.foldlM_cons, clusterRound_eq h ha hnode hleaf hlabel]
          cases hfound : t.neighbour node.key i with
          | none =>
              rw [List.filterMap_cons_none hfound]
              exact ihRounds hlabel
          | some b =>
              rw [List.filterMap_cons_some hfound, List.foldlM_cons]
              dsimp only
              by_cases hsome : (label b).isSome = true
              · rw [if_pos hsome, if_pos hsome]
                exact ihRounds hlabel
              · obtain ⟨hb, nNode, hnNode, hnLeaf, -⟩ := h.neighbour_some hfound
                rw [if_neg hsome, if_neg hsome, ih hb hnNode hnLeaf (Function.update_self ..)]
                cases hfill :
                  FloodFill.fill t.neighbours fuel (Function.update label b (some c)) b c with
                | none => rfl
                | some label' =>
                    -- the label of the node itself stays
                    have hne : a ≠ b := by
                      rintro rfl
                      exact hsome (by rw [hlabel]; rfl)
                    have hold : Function.update label b (some c) a = some c :=
                      (Function.update_of_ne hne _ _).trans hlabel
                    have hkept : label' a = some c := by
                      rw [← hold]
                      exact FloodFill.fill_kept hfill (by rw [hold]; exact Option.some_ne_none c)
                    exact ihRounds hkept

/-! ## The queue -/

/-- The address is that of a leaf. -/
def isLeaf (t : ParticleFilterKDTree K) (a : Nat) : Bool :=
  (t.heap a).any (·.leaf)

omit [Field K] [LinearOrder K] in
theorem exists_of_isLeaf (h : t.isLeaf a = true) :
    ∃ node, t.heap a = some node ∧ node.leaf = true := by
  unfold isLeaf at h
  cases hnode : t.heap a with
  | none =>
      rw [hnode] at h
      cases h
  | some node =>
      rw [hnode] at h
      exact ⟨node, rfl, h⟩

omit [Field K] [LinearOrder K] in
/-- The loop over the vector takes the labels from the leaves. -/
theorem queueLeaves_eq {nodeCount : Nat} (done : List Nat) {bs : List Nat} (queue : List Nat)
    (hvec : t.nodesPtrVec = (done.reverse ++ bs).map some)
    (hheap : ∀ b ∈ bs, ∃ node, t.heap b = some node)
    (hcount : queue.length + bs.length ≤ nodeCount) :
    queueLeaves nodeCount (List.range' done.length bs.length)
        (t.relabel done fun _ => none, queue) =
      some (t.relabel (bs.reverse ++ done) fun _ => none,
        (bs.filter t.isLeaf).reverse ++ queue) := by
  -- `done` are the nodes before the current one, and `queue` their leaves
  induction bs generalizing done queue with
  | nil => rfl
  | cons b bs ih =>
      obtain ⟨node, hnode⟩ := hheap b List.mem_cons_self
      obtain ⟨cluster, hcluster⟩ := relabel_heap_some done (fun _ => none) hnode
      have hptr : (t.relabel done fun _ => none).nodesPtrVec[done.length]? = some (some b) := by
        show t.nodesPtrVec[done.length]? = _
        rw [hvec, List.getElem?_map, List.getElem?_append_right (by simp)]
        simp
      rw [List.length_cons] at hcount
      have hvec' : t.nodesPtrVec = ((b :: done).reverse ++ bs).map some := by simpa using hvec
      have hheap' := fun b' hb' => hheap b' (List.mem_cons_of_mem b hb')
      rw [List.length_cons, List.range'_succ, List.reverse_cons, List.append_assoc]
      unfold queueLeaves
      rw [hptr, Option.bind_eq_bind, Option.bind_some, Option.bind_eq_bind, Option.bind_some,
        hcluster, Option.bind_eq_bind, Option.bind_some]
      dsimp only
      cases hleaf : node.leaf with
      | true =>
          have hmem : t.isLeaf b = true := by rw [isLeaf, hnode]; exact hleaf
          have hset := relabel_cons_leaf done hnode hleaf
          rw [hleaf] at hset
          rw [if_pos rfl, if_pos (by omega), List.filter_cons_of_pos hmem, List.reverse_cons,
            List.append_assoc, hset]
          exact ih (b :: done) (b :: queue) hvec' hheap' (by rw [List.length_cons]; omega)
      | false =>
          have hmem : ¬t.isLeaf b = true := by
            rw [isLeaf, hnode, Option.any_some, hleaf]
            exact Bool.false_ne_true
          rw [if_neg Bool.false_ne_true, List.filter_cons_of_neg hmem,
            ← relabel_cons_inner hnode hleaf]
          exact ih (b :: done) queue hvec' hheap' (by omega)

/-- The loop over the queue gives the labels. -/
theorem clusterQueue_eq_labelAll (h : Stores t tree root as) {queue : List Nat}
    (hqueue : ∀ a ∈ queue, a ∈ as ∧ t.isLeaf a = true) (count : Nat) :
    clusterQueue queue count (t.relabel as label) =
      (FloodFill.labelAll t.neighbours (t.nodeCount + 1) queue count label).map
        fun found => t.relabel as found.1 := by
  induction queue generalizing count label with
  | nil => rfl
  | cons a queue ih =>
      obtain ⟨ha, hleaf⟩ := hqueue a List.mem_cons_self
      obtain ⟨node, hnode, hleaf⟩ := exists_of_isLeaf hleaf
      have hrest := fun b hb => hqueue b (List.mem_cons_of_mem a hb)
      unfold clusterQueue FloodFill.labelAll
      rw [relabel_heap ha hnode hleaf, Option.bind_eq_bind, Option.bind_some]
      dsimp only
      by_cases hsome : (label a).isSome = true
      · rw [if_pos (clusterOf_nonneg.mpr hsome), if_pos hsome]
        exact ih hrest count
      · have hfill := clusterNode_eq_fill (t.nodeCount + 1) h ha hnode hleaf
          (Function.update_self a (some count) label)
        have hset := relabel_set label ha hnode hleaf count
        rw [if_neg (mt clusterOf_nonneg.mp hsome), if_neg hsome]
        show (clusterNode (t.nodeCount + 1) ((t.relabel as label).set a _) a).bind _ = _
        rw [hset, hfill]
        cases FloodFill.fill t.neighbours (t.nodeCount + 1)
          (Function.update label a (some count)) a count with
        | none => rfl
        | some label' => exact ih hrest (count + 1)

end Fill

/-! ## Components -/

section Components

open Relation SplitTree

/-- The keys differ by at most 1 in every coordinate. -/
def Touches (key key' : Key) : Prop :=
  ∀ d, |key d - key' d| ≤ 1

theorem Touches.symm {key key' : Key} (h : Touches key key') : Touches key' key :=
  fun d => (abs_sub_comm _ _).trans_le (h d)

/-- The rounds of `ClusterNode` go through the keys that touch the one of the node. -/
theorem touches_iff {key key' : Key} :
    Touches key key' ↔ ∃ i < 3 * 3 * 3, neighbourKey key i = key' := by
  unfold Touches neighbourKey
  constructor
  · intro h
    -- the round of a key has its differences, plus one, as digits in base 3
    have hdigit : ∀ d, ∃ n : Nat, n < 3 ∧ key' d = key d + n - 1 := by
      intro d
      have hd := abs_le.mp (h d)
      exact ⟨(key' d - key d + 1).toNat, by omega, by omega⟩
    obtain ⟨x, hx, hx'⟩ := hdigit 0
    obtain ⟨y, hy, hy'⟩ := hdigit 1
    obtain ⟨z, hz, hz'⟩ := hdigit 2
    refine ⟨9 * x + 3 * y + z, by omega, ?_⟩
    rw [show (9 * x + 3 * y + z) / 9 = x by omega, show (9 * x + 3 * y + z) % 9 / 3 = y by omega,
      show (9 * x + 3 * y + z) % 9 % 3 = z by omega, ← hx', ← hy', ← hz']
    funext d
    match d with
    | 0 => rfl
    | 1 => rfl
    | 2 => rfl
  · rintro ⟨i, hi, rfl⟩ d
    rw [abs_le]
    match d with
    | 0 =>
        show -1 ≤ key 0 - (key 0 + (i / 9 : Nat) - 1) ∧ key 0 - (key 0 + (i / 9 : Nat) - 1) ≤ 1
        omega
    | 1 =>
        show -1 ≤ key 1 - (key 1 + (i % 9 / 3 : Nat) - 1) ∧
          key 1 - (key 1 + (i % 9 / 3 : Nat) - 1) ≤ 1
        omega
    | 2 =>
        show -1 ≤ key 2 - (key 2 + (i % 9 % 3 : Nat) - 1) ∧
          key 2 - (key 2 + (i % 9 % 3 : Nat) - 1) ≤ 1
        omega

/-- The bins that are joined by a chain of bins, each of which touches the next. -/
def components (bins : List Key) : Setoid {key // key ∈ bins} where
  r := ReflTransGen fun bin bin' => Touches bin.1 bin'.1
  iseqv := by
    have hsymm : Std.Symm fun bin bin' : {key // key ∈ bins} => Touches bin.1 bin'.1 :=
      ⟨fun _ _ => Touches.symm⟩
    exact ⟨fun _ => .refl, fun h => ReflTransGen.stdSymm.symm _ _ h, .trans⟩

variable {K : Type} [Field K] [LinearOrder K] {t t' : ParticleFilterKDTree K} {tree : KeyTree K}
  {root a b c : Nat} {as : List Nat} {entries : List (Key × K)}
  {node node' : ParticleFilterKDTreeNode K}

theorem Stores.mem_neighbours (h : Stores t tree root as) (hnode : t.heap a = some node)
    (hb : b ∈ as) (hnode' : t.heap b = some node') (hleaf' : node'.leaf = true) :
    b ∈ t.neighbours a ↔ Touches node.key node'.key := by
  unfold neighbours
  rw [hnode, touches_iff]
  simp only [List.mem_filterMap, List.mem_range]
  refine exists_congr fun i => and_congr_right fun _ => ?_
  constructor
  · intro hfound
    obtain ⟨-, node'', hnode'', -, hkey⟩ := h.neighbour_some hfound
    rw [hnode'] at hnode''
    cases hnode''
    exact hkey.symm
  · intro hkey
    rw [neighbour, hkey, h.findNode_leaf hb hnode' hleaf']
    rfl

theorem Stores.neighbours_leaf (h : Stores t tree root as) (hb : b ∈ t.neighbours a) :
    b ∈ as ∧ ∃ node, t.heap b = some node ∧ node.leaf = true := by
  unfold neighbours at hb
  split at hb
  · cases hb
  · obtain ⟨i, -, hfound⟩ := List.mem_filterMap.mp hb
    obtain ⟨hmem, node, hnode, hleaf, -⟩ := h.neighbour_some hfound
    exact ⟨hmem, node, hnode, hleaf⟩

/-- What `Cluster` leaves behind: the leaf of each bin has its label, two bins have the same label
exactly when a chain of bins joins them, and the labels are the numbers below the number of
components. -/
structure IsClustering (t : ParticleFilterKDTree K) (bins : List Key)
    (label : {key // key ∈ bins} → Nat) : Prop where
  node : ∀ bin : {key // key ∈ bins}, ∃ a node, t.findNode bin = some (some a) ∧
    t.heap a = some node ∧ node.leaf = true ∧ node.key = bin ∧ node.cluster = label bin
  eq_iff : ∀ bin bin', label bin = label bin' ↔ components bins bin bin'
  range : Set.range label = Set.Iio (Nat.card (Quotient (components bins)))

/-- The leaves of a stored tree. -/
def leafNodes (t : ParticleFilterKDTree K) (as : List Nat) : Finset Nat :=
  (as.filter t.isLeaf).toFinset

omit [Field K] [LinearOrder K] in
theorem mem_leafNodes :
    a ∈ t.leafNodes as ↔ a ∈ as ∧ ∃ node, t.heap a = some node ∧ node.leaf = true := by
  unfold leafNodes
  rw [List.mem_toFinset, List.mem_filter]
  refine and_congr_right fun _ => ⟨exists_of_isLeaf, ?_⟩
  rintro ⟨node, hnode, hleaf⟩
  rw [isLeaf, hnode]
  exact hleaf

/-- `Cluster` labels the components of the leaves. -/
theorem Stores.cluster_eq (h : Stores t tree root as) :
    ∃ label count, t.cluster = some (t.relabel as label) ∧
      FloodFill.Labelling t.neighbours (t.leafNodes as) label count ∧
      ∀ a ∈ t.leafNodes as, label a ≠ none := by
  obtain ⟨bs, hvec⟩ : t.nodesPtrVec ∈ Set.range (List.map (some : Nat → Option Nat)) := by
    rw [Set.range_list_map]
    intro p hp
    obtain ⟨a, -, ha⟩ := List.mem_map.mp (h.vec.mem_iff.mp hp)
    exact ⟨a, ha⟩
  have hperm : bs.Perm as := by
    have hmap := h.vec
    rw [← hvec] at hmap
    exact (List.map_perm_map_iff (Option.some_injective Nat)).mp hmap
  have hcount : t.nodeCount = bs.length := by
    rw [h.nodeCount, hperm.length_eq, h.holds.length_eq]
  have hqueue : queueLeaves t.nodeCount (List.range' 0 bs.length) (t.relabel [] fun _ => none, []) =
      some (t.relabel (bs.reverse ++ []) fun _ => none, (bs.filter t.isLeaf).reverse ++ []) := by
    apply queueLeaves_eq [] [] hvec.symm fun b hb => h.holds.exists_node (hperm.mem_iff.mp hb)
    rw [hcount]
    exact (Nat.zero_add bs.length).le
  rw [relabel_nil, List.append_nil, List.append_nil, ← hcount, ← List.range_eq_range',
    relabel_congr fun a => List.mem_reverse.trans hperm.mem_iff] at hqueue
  have hleaves : ∀ a, a ∈ (bs.filter t.isLeaf).reverse ↔ a ∈ t.leafNodes as := by
    intro a
    rw [List.mem_reverse, List.mem_filter, hperm.mem_iff, leafNodes, List.mem_toFinset,
      List.mem_filter]
  have hnodes : ∀ x ∈ t.leafNodes as, ∀ y ∈ t.neighbours x, y ∈ t.leafNodes as :=
    fun x _ y hy => mem_leafNodes.mpr (h.neighbours_leaf hy)
  -- each of two keys that touch is among the keys around the other
  have hsymm : ∀ x ∈ t.leafNodes as, ∀ y ∈ t.neighbours x, x ∈ t.neighbours y := by
    intro x hx y hy
    obtain ⟨hx, node, hnode, hleaf⟩ := mem_leafNodes.mp hx
    obtain ⟨hy', node', hnode', hleaf'⟩ := h.neighbours_leaf hy
    rw [h.mem_neighbours hnode hy' hnode' hleaf'] at hy
    rw [h.mem_neighbours hnode' hx hnode hleaf]
    exact hy.symm
  -- the recursion is not deeper than there are leaves
  have hcard : (t.leafNodes as).card ≤ t.nodeCount + 1 := by
    have hle : (t.leafNodes as).card ≤ as.length :=
      (List.toFinset_card_le _).trans (List.length_filter_le _ _)
    rw [h.holds.length_eq, ← h.nodeCount] at hle
    omega
  obtain ⟨label, count, hall, hlabelling, -, hqueued⟩ :=
    FloodFill.labelAll_spec hnodes hsymm hcard (fun a ha => (hleaves a).mp ha) (.empty _ _)
  refine ⟨label, count, ?_, hlabelling, fun a ha => hqueued a ((hleaves a).mpr ha)⟩
  unfold cluster
  rw [hqueue, Option.bind_eq_bind, Option.bind_some]
  dsimp only
  rw [clusterQueue_eq_labelAll h, hall]
  · rfl
  · intro a ha
    rw [List.mem_reverse, List.mem_filter] at ha
    exact ⟨hperm.mem_iff.mp ha.1, ha.2⟩

/-- Two leaves are connected exactly when a chain of keys of the tree joins theirs. -/
theorem Stores.connected_iff (h : Stores t tree root as) {bins : List Key}
    (hbins : ∀ key, key ∈ tree.keys → key ∈ bins) {leafOf : {key // key ∈ bins} → Nat}
    (hfound : ∀ bin : {key // key ∈ bins}, t.findNode bin = some (some (leafOf bin)))
    {bin bin' : {key // key ∈ bins}} :
    ReflTransGen (FloodFill.Adj t.neighbours) (leafOf bin) (leafOf bin') ↔
      components bins bin bin' := by
  have hadj : ∀ x y, FloodFill.Adj t.neighbours (leafOf x) (leafOf y) ↔ Touches x.1 y.1 := by
    intro x y
    obtain ⟨-, node, hnode, -, hkey⟩ := h.of_findNode (hfound x)
    obtain ⟨hy, node', hnode', hleaf', hkey'⟩ := h.of_findNode (hfound y)
    rw [← hkey, ← hkey']
    exact h.mem_neighbours hnode hy hnode' hleaf'
  constructor
  · -- what is reached is the leaf of a bin
    have hreached : ∀ b, ReflTransGen (FloodFill.Adj t.neighbours) (leafOf bin) b →
        ∃ x, leafOf x = b ∧ components bins bin x := by
      intro b hreach
      induction hreach with
      | refl => exact ⟨bin, rfl, .refl⟩
      | @tail _ c _ hstep ih =>
          obtain ⟨x, rfl, hx⟩ := ih
          obtain ⟨hc, node, hnode, hleaf⟩ := h.neighbours_leaf hstep
          let y : {key // key ∈ bins} := ⟨node.key, hbins _ (h.holds.key_mem hc hnode hleaf)⟩
          have hy : leafOf y = c := by
            have hleafOf := hfound y
            rw [h.findNode_leaf hc hnode hleaf] at hleafOf
            exact (Option.some.inj (Option.some.inj hleafOf)).symm
          exact ⟨y, hy, hx.tail ((hadj x y).mp (hy ▸ hstep))⟩
    intro hreach
    obtain ⟨x, hx, hjoined⟩ := hreached _ hreach
    -- a leaf has one key, so it is the leaf of one bin
    have heq : x = bin' := by
      obtain ⟨-, node, hnode, -, hkey⟩ := h.of_findNode (hfound x)
      obtain ⟨-, node', hnode', -, hkey'⟩ := h.of_findNode (hfound bin')
      rw [hx, hnode'] at hnode
      cases hnode
      exact Subtype.ext (hkey.symm.trans hkey')
    exact heq ▸ hjoined
  · intro hjoined
    induction hjoined with
    | refl => exact .refl
    | tail _ htouches ih => exact ih.tail ((hadj _ _).mpr htouches)

theorem Stores.relabel (h : Stores t tree root as) (bs : List Nat) (label : Nat → Option Nat) :
    Stores (t.relabel bs label) tree root as where
  rootPtr := h.rootPtr
  holds := h.holds.relabel
  nodup := h.nodup
  allocated := h.allocated
  vec := h.vec
  nodeCount := h.nodeCount
  leafCount := h.leafCount
  ordered := h.ordered

/-- `Cluster` labels the components of the bins, and the tree still counts the entries. -/
theorem Counts.cluster_eq (h : Counts t entries) (hne : entries ≠ []) :
    ∃ t' label, t.cluster = some t' ∧ IsClustering t' (entries.map Prod.fst) label ∧
      Counts t' entries ∧ t'.size = t.size := by
  rcases h with ⟨rfl, -⟩ | ⟨tree, root, as, hstores, hfind⟩
  case inl => exact absurd rfl hne
  case inr =>
    obtain ⟨label, count, hcluster, hlabelling, hall⟩ := hstores.cluster_eq
    have hkeys : ∀ key, key ∈ tree.keys ↔ key ∈ entries.map Prod.fst := by
      intro key
      rw [mem_keys_iff hstores.ordered, ← total_ne_none, hfind, Option.ne_none_iff_exists']
    have hleaves : ∀ bin : {key // key ∈ entries.map Prod.fst}, ∃ a,
        t.findNode bin = some (some a) := by
      intro bin
      rcases hstores.findNode_eq bin.1 with ⟨hnone, -⟩ | ⟨_, a, _, -, -, -, -, -, -, hfound⟩
      · rw [hfind] at hnone
        exact absurd hnone (total_ne_none.mpr bin.2)
      · exact ⟨a, hfound⟩
    choose leafOf hfound using hleaves
    have hsome : ∀ bin, ∃ c, label (leafOf bin) = some c := by
      intro bin
      obtain ⟨hmem, node, hnode, hleaf, -⟩ := hstores.of_findNode (hfound bin)
      exact Option.ne_none_iff_exists'.mp (hall _ (mem_leafNodes.mpr ⟨hmem, node, hnode, hleaf⟩))
    choose clusterLabel hlabel using hsome
    have heq : ∀ bin bin', clusterLabel bin = clusterLabel bin' ↔
        components (entries.map Prod.fst) bin bin' := by
      intro bin bin'
      rw [← hstores.connected_iff (fun key => (hkeys key).mp) hfound,
        ← hlabelling.eq_iff (by rw [hlabel]; exact Option.some_ne_none _), hlabel, hlabel,
        Option.some.injEq]
    -- a label that is used is used at a leaf, and the key of the leaf is a bin
    have hused : ∀ c < count, ∃ bin, clusterLabel bin = c := by
      intro c hc
      obtain ⟨a, ha⟩ := hlabelling.used c hc
      obtain ⟨hmem, node, hnode, hleaf⟩ :=
        mem_leafNodes.mp (hlabelling.inside a (by rw [ha]; exact Option.some_ne_none c))
      refine ⟨⟨node.key, (hkeys _).mp (hstores.holds.key_mem hmem hnode hleaf)⟩, ?_⟩
      have hleafOf := hfound ⟨node.key, (hkeys _).mp (hstores.holds.key_mem hmem hnode hleaf)⟩
      rw [hstores.findNode_leaf hmem hnode hleaf] at hleafOf
      rw [← Option.some.injEq, ← hlabel, ← Option.some.inj (Option.some.inj hleafOf), ha]
    have hlt : ∀ bin, clusterLabel bin < count := fun bin => hlabelling.lt _ _ (hlabel bin)
    refine ⟨t.relabel as label, clusterLabel, hcluster, ⟨?_, heq, ?_⟩,
      Or.inr ⟨tree, root, as, hstores.relabel as label, hfind⟩, rfl⟩
    · intro bin
      obtain ⟨hmem, node, hnode, hleaf, hkey⟩ := hstores.of_findNode (hfound bin)
      refine ⟨leafOf bin, _, (findNode_relabel _).trans (hfound bin),
        relabel_heap hmem hnode hleaf, hleaf, hkey, ?_⟩
      rw [hlabel]
      rfl
    · rw [FloodFill.card_quotient _ clusterLabel count hlt hused heq]
      exact Set.ext fun c => ⟨fun ⟨bin, hbin⟩ => hbin ▸ hlt bin, hused c⟩

/-- `Cluster` does not change what the tree counts. -/
theorem Counts.of_cluster (h : Counts t entries) {t' : ParticleFilterKDTree K}
    (hcluster : t.cluster = some t') : Counts t' entries := by
  by_cases hne : entries = []
  · subst hne
    rcases h with ⟨-, hvacant⟩ | ⟨tree, root, as, hstores, hfind⟩
    · -- there is no leaf to label
      unfold cluster at hcluster
      rw [hvacant.nodeCount] at hcluster
      cases hcluster
      exact Or.inl ⟨rfl, hvacant⟩
    · exact absurd rfl (hstores.entries_ne_nil hfind)
  · obtain ⟨t₁, -, hcluster₁, -, hcounts, -⟩ := h.cluster_eq hne
    cases hcluster.symm.trans hcluster₁
    exact hcounts

/-- There are no more labels than bins. -/
theorem IsClustering.label_lt {label : {key // key ∈ entries.map Prod.fst} → Nat}
    (h : IsClustering t (entries.map Prod.fst) label) (bin : {key // key ∈ entries.map Prod.fst}) :
    label bin < distinct entries := by
  have hlt : label bin < Nat.card (Quotient (components (entries.map Prod.fst))) := by
    have hmem : label bin ∈ Set.range label := ⟨bin, rfl⟩
    rwa [h.range] at hmem
  have hcard : Nat.card {key // key ∈ entries.map Prod.fst} = distinct entries :=
    Nat.subtype_card _ fun key => List.mem_toFinset
  refine hlt.trans_le (hcard ▸ ?_)
  exact Nat.card_le_card_of_surjective _ Quotient.mk_surjective

variable [FloorRing K]

/-- `GetCluster` returns the label of the bin of a pose. -/
theorem IsClustering.getCluster_eq {bins : List Key} {label : {key // key ∈ bins} → Nat}
    (h : IsClustering t bins label) {pose : Vec3d K} (hbin : t.bin pose ∈ bins) :
    t.getCluster pose = some (label ⟨t.bin pose, hbin⟩ : Int) := by
  obtain ⟨a, node, hfound, hnode, -, -, hcluster⟩ := h.node ⟨t.bin pose, hbin⟩
  unfold getCluster
  rw [hfound, Option.bind_eq_bind, Option.bind_some]
  dsimp only
  rw [hnode, Option.bind_eq_bind, Option.bind_some, hcluster]

/-- After `Clear` and calls of `InsertPose`, `Cluster` labels the components of the bins of the
poses. -/
theorem cluster_components [IsStrictOrderedRing K] {t₀ t₁ : ParticleFilterKDTree K}
    (hclear : t.clear = some t₀) {poses : List (Vec3d K × K)} (hne : poses ≠ [])
    (hinsert : t₀.insertPoses poses = some t₁) :
    ∃ t' label, t₁.cluster = some t' ∧
      IsClustering t' (poses.map fun pose => t.bin pose.1) label := by
  obtain ⟨hvacant, hsize, -⟩ := vacant_clear hclear
  have hstart : Counts t₀ [] := Or.inl ⟨rfl, hvacant⟩
  obtain ⟨hcounts, -⟩ := hstart.of_insertPoses hinsert
  have hkeys :
      (([] : List (Key × K)) ++ poses.map fun pose => (t₀.bin pose.1, pose.2)).map Prod.fst =
        poses.map fun pose => t.bin pose.1 := by
    rw [List.nil_append, List.map_map, bin_congr hsize]
    rfl
  have hresult := hcounts.cluster_eq (by simpa using hne)
  rw [hkeys] at hresult
  obtain ⟨t', label, hcluster, hclustering, -⟩ := hresult
  exact ⟨t', label, hcluster, hclustering⟩

end Components

/-- Two bins that touch and one on its own. -/
theorem cluster_components_three : ∃ t₁ t' : ParticleFilterKDTree ℚ, ∃ label,
    ((initializeByMaxSize 3 9).clear.bind fun t => t.insertPoses
      [(![0, 0, 0], 1), (![0, 3 / 4, 0], 2), (![2, 0, 0], 3)]) = some t₁ ∧ t₁.cluster = some t' ∧
      IsClustering t' [![0, 0, 0], ![0, 1, 0], ![4, 0, 0]] label := by
  have hclear : (initializeByMaxSize 3 9 : ParticleFilterKDTree ℚ).clear =
      some { (initializeByMaxSize 3 9 : ParticleFilterKDTree ℚ) with nodesPtrVec := [] } := rfl
  obtain ⟨hvacant, -, -⟩ := vacant_clear hclear
  have hstart : CountsIn _ none ([] : List (Key × ℚ)) := ⟨hvacant, fun _ => rfl⟩
  obtain ⟨t₁, hinsert, -⟩ := hstart.insertPoses
    [(![0, 0, 0], 1), (![0, 3 / 4, 0], 2), (![2, 0, 0], 3)]
    (insertsNear_of_pairwise (by decide +kernel) (by simp)) (by decide +kernel)
  have hresult := cluster_components hclear (List.cons_ne_nil _ _) hinsert
  have hbins : [((![0, 0, 0] : Vec3d ℚ), (1 : ℚ)), (![0, 3 / 4, 0], 2), (![2, 0, 0], 3)].map
      (fun pose => (initializeByMaxSize 3 9 : ParticleFilterKDTree ℚ).bin pose.1) =
        [![0, 0, 0], ![0, 1, 0], ![4, 0, 0]] := by
    decide +kernel
  rw [hbins] at hresult
  obtain ⟨t', label, hcluster, hclustering⟩ := hresult
  exact ⟨t₁, t', label, by rw [hclear]; exact hinsert, hcluster, hclustering⟩

end ParticleFilterKDTree

end RoboRTS.Localization
