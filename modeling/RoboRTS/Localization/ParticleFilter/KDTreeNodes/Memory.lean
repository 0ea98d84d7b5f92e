import RoboRTS.Lib.SplitTree
import RoboRTS.Localization.ParticleFilter.KDTreeNodes.Defs
import Mathlib.Data.List.Perm.Basic

/-!
# The tree in memory

The nodes that are reached from a node of a `ParticleFilterKDTree` hold a tree that splits its keys
(`Holds`, `Holds.reachable_iff`). `FindNode` looks a key up in that tree (`Holds.findNodeAt_eq`),
and `InsertNode` inserts into it and leaves the other nodes alone (`insertNode_insertion`).
-/

namespace RoboRTS.Localization

open SplitTree

namespace KDTree

/-- The dimension of a pivot is one in which the keys differ. -/
theorem pivotDim_ne {key nodeKey : Key} {dim : Fin 3} (h : pivotDim key nodeKey = some dim) :
    key dim ≠ nodeKey dim := by
  have hfold : ∀ (dims : List (Fin 3)) (best : Nat × Option (Fin 3)),
      (∀ d, best.2 = some d → key d ≠ nodeKey d) →
        ∀ d, (dims.foldl (widen key nodeKey) best).2 = some d → key d ≠ nodeKey d := by
    intro dims
    induction dims with
    | nil => exact fun best hbest => hbest
    | cons i dims ih =>
        intro best hbest
        refine ih _ fun d hd => ?_
        unfold widen at hd
        dsimp only at hd
        split_ifs at hd with hsplit
        · cases hd
          omega
        · exact hbest d hd
  exact hfold _ (0, none) (fun d hd => nomatch hd) dim h

end KDTree

namespace ParticleFilterKDTree

section Distances

variable {key nodeKey : Key}

/-- An `int` holds the distances of the coordinates of two keys. -/
def Near (key nodeKey : Key) : Prop :=
  ∀ i, (key i - nodeKey i).natAbs < 2 ^ 31

instance (key nodeKey : Key) : Decidable (Near key nodeKey) :=
  inferInstanceAs (Decidable (∀ _, _))

theorem near_self (key : Key) : Near key key := by
  intro i
  rw [Int.sub_self]
  decide

theorem foldlM_widen (dims : List (Fin 3)) (best : Nat × Option (Fin 3)) :
    dims.foldlM (widen key nodeKey) best =
      if ∀ i ∈ dims, (key i - nodeKey i).natAbs < 2 ^ 31 then
        some (dims.foldl (KDTree.widen key nodeKey) best)
      else none := by
  induction dims generalizing best with
  | nil => simp
  | cons dim dims ih =>
      rw [List.foldlM_cons, List.foldl_cons, widen]
      by_cases hdim : (key dim - nodeKey dim).natAbs < 2 ^ 31
      · rw [if_pos hdim, Option.bind_eq_bind, Option.bind_some, ih]
        simp only [List.forall_mem_cons, hdim, true_and]
      · rw [if_neg hdim, if_neg fun h => hdim (h dim List.mem_cons_self)]
        rfl

/-- The loop finds a pivot dimension where the casts are defined. -/
theorem pivotDim_eq_some_iff {dim : Fin 3} :
    pivotDim key nodeKey = some dim ↔
      Near key nodeKey ∧ KDTree.pivotDim key nodeKey = some dim := by
  unfold pivotDim
  rw [foldlM_widen]
  by_cases hnear : Near key nodeKey
  · rw [if_pos fun i _ => hnear i]
    exact (and_iff_right hnear).symm
  · rw [if_neg fun h => hnear fun i => h i (List.mem_finRange i)]
    exact iff_of_false (fun h => nomatch h) fun h => hnear h.1

end Distances

/-- The tree that the nodes hold: a test compares the coordinate of a dimension with a pivot. -/
abbrev KeyTree (K : Type) := SplitTree Key (Fin 3 × K) K

section Tests

variable {K : Type} [Field K] [LinearOrder K]

/-- The test of a node. -/
def goesLeft (test : Fin 3 × K) (key : Key) : Bool :=
  (key test.1 : K) < test.2

/-- The test that splits a leaf. -/
def pivot (key nodeKey : Key) : Fin 3 × K :=
  let dim := (KDTree.pivotDim key nodeKey).getD 0
  (dim, ((key dim : K) + nodeKey dim) / 2)

/-- The pivot is between the coordinates of the two keys. -/
theorem separates_pivot [IsStrictOrderedRing K] :
    Separates (goesLeft (K := K)) pivot := by
  intro key nodeKey hne
  obtain ⟨dim, hdim⟩ := KDTree.pivotDim_isSome hne
  have hcoord := KDTree.pivotDim_ne hdim
  unfold goesLeft pivot
  rw [hdim, Option.getD_some]
  show decide ((nodeKey dim : K) < (key dim + nodeKey dim) / 2) =
    !decide ((key dim : K) < (key dim + nodeKey dim) / 2)
  rcases Int.lt_or_gt_of_ne hcoord with hlt | hgt
  · have hlt : (key dim : K) < nodeKey dim := Int.cast_lt.mpr hlt
    rw [decide_eq_true (left_lt_add_div_two.mpr hlt),
      decide_eq_false (add_div_two_lt_right.mpr hlt).not_gt]
    rfl
  · have hgt : (nodeKey dim : K) < key dim := Int.cast_lt.mpr hgt
    rw [add_comm (key dim : K), decide_eq_true (left_lt_add_div_two.mpr hgt),
      decide_eq_false (add_div_two_lt_right.mpr hgt).not_gt]
    rfl

end Tests

/-! ## The tree in memory -/

section Holds

variable {K : Type}

/-- The node at `a` has a test and two children. -/
structure SplitAt (heap : Nat → Option (ParticleFilterKDTreeNode K)) (a : Nat) (test : Fin 3 × K)
    (l r : Nat) : Prop where
  node : ∃ node, heap a = some node ∧ node.leaf = false ∧ node.pivotDim = some test.1 ∧
    node.pivotValue = test.2 ∧ node.leftPtr = some l ∧ node.rightPtr = some r

/-- The nodes from pointer `a` on hold the tree, at the addresses of the list. -/
def Holds (heap : Nat → Option (ParticleFilterKDTreeNode K)) : KeyTree K → Nat → List Nat → Prop
  | .leaf key value, a, as =>
      as = [a] ∧ ∃ node, heap a = some node ∧ node.leaf = true ∧ node.key = key ∧ node.value = value
  | .split test left right, a, as =>
      ∃ l r ls rs, SplitAt heap a test l r ∧ Holds heap left l ls ∧ Holds heap right r rs ∧
        as = a :: (ls ++ rs)

variable {heap heap' : Nat → Option (ParticleFilterKDTreeNode K)} {tree : KeyTree K} {a : Nat}
  {as : List Nat} {key : Key} {value : K} {fuel : Nat} {t : ParticleFilterKDTree K}

/-- A tree is held as long as its nodes are not written. -/
theorem Holds.congr (h : Holds heap tree a as) (hsame : ∀ b ∈ as, heap' b = heap b) :
    Holds heap' tree a as := by
  induction tree generalizing a as with
  | leaf key value =>
      obtain ⟨rfl, node, hnode, hleaf⟩ := h
      exact ⟨rfl, node, (hsame a (List.mem_singleton_self a)).trans hnode, hleaf⟩
  | split test left right ihLeft ihRight =>
      obtain ⟨l, r, ls, rs, ⟨node, hnode, hfields⟩, hleft, hright, rfl⟩ := h
      exact ⟨l, r, ls, rs, ⟨node, (hsame a List.mem_cons_self).trans hnode, hfields⟩,
        ihLeft hleft fun b hb => hsame b (List.mem_cons_of_mem a (List.mem_append_left rs hb)),
        ihRight hright fun b hb => hsame b (List.mem_cons_of_mem a (List.mem_append_right ls hb)),
        rfl⟩

theorem Holds.mem (h : Holds heap tree a as) : a ∈ as := by
  cases tree with
  | leaf key value =>
      obtain ⟨rfl, -⟩ := h
      exact List.mem_singleton_self a
  | split test left right =>
      obtain ⟨l, r, ls, rs, -, -, -, rfl⟩ := h
      exact List.mem_cons_self

/-- There is a node for each address. -/
theorem Holds.length_eq (h : Holds heap tree a as) : as.length = tree.size := by
  induction tree generalizing a as with
  | leaf key value =>
      obtain ⟨rfl, -⟩ := h
      rfl
  | split test left right ihLeft ihRight =>
      obtain ⟨l, r, ls, rs, -, hleft, hright, rfl⟩ := h
      show (ls ++ rs).length + 1 = left.size + right.size + 1
      rw [List.length_append, ihLeft hleft, ihRight hright]

theorem findNodeAt_split [Field K] [LinearOrder K] {test : Fin 3 × K} {l r : Nat}
    (h : SplitAt heap a test l r) : findNodeAt heap key (fuel + 1) a =
      if goesLeft test key then findNodeAt heap key fuel l else findNodeAt heap key fuel r := by
  obtain ⟨node, hnode, hleaf, hdim, hvalue, hl, hr⟩ := h
  conv_lhs => unfold findNodeAt
  rw [hnode, Option.bind_eq_bind, Option.bind_some, hleaf, if_neg Bool.false_ne_true, hl, hr, hdim]
  simp only [Option.bind_eq_bind, Option.bind_some, hvalue, goesLeft, decide_eq_true_eq]

/-- The node of a key is reached by the tests of the key. -/
theorem Holds.findNodeAt_eq [Field K] [LinearOrder K] (h : Holds heap tree a as)
    (hfuel : tree.depth ≤ fuel) :
    (tree.find? goesLeft key = none ∧ findNodeAt heap key fuel a = some none) ∨
      ∃ value b node, tree.find? goesLeft key = some value ∧ b ∈ as ∧ heap b = some node ∧
        node.leaf = true ∧ node.key = key ∧ node.value = value ∧
        findNodeAt heap key fuel a = some (some b) := by
  induction tree generalizing a as fuel with
  | leaf nodeKey nodeValue =>
      obtain ⟨rfl, node, hnode, hleaf, rfl, rfl⟩ := h
      obtain ⟨fuel, rfl⟩ := Nat.exists_eq_succ_of_ne_zero (Nat.pos_iff_ne_zero.mp hfuel)
      unfold findNodeAt
      rw [hnode, Option.bind_eq_bind, Option.bind_some, if_pos hleaf]
      by_cases heq : key = node.key
      · refine Or.inr ⟨node.value, a, node, if_pos heq, List.mem_singleton_self a, hnode, hleaf,
          heq.symm, rfl, ?_⟩
        rw [if_pos heq]
      · refine Or.inl ⟨if_neg heq, ?_⟩
        rw [if_neg heq]
  | split test left right ihLeft ihRight =>
      obtain ⟨l, r, ls, rs, hsplit, hleft, hright, rfl⟩ := h
      have hfuel : max left.depth right.depth + 1 ≤ fuel := hfuel
      obtain ⟨fuel, rfl⟩ := Nat.exists_eq_succ_of_ne_zero (show fuel ≠ 0 by omega)
      rw [findNodeAt_split hsplit]
      unfold find?
      by_cases htest : goesLeft test key = true
      · rw [if_pos htest, if_pos htest]
        refine (ihLeft hleft (by omega)).imp_right ?_
        rintro ⟨value, b, node, hfind, hb, hrest⟩
        exact ⟨value, b, node, hfind, List.mem_cons_of_mem a (List.mem_append_left rs hb), hrest⟩
      · rw [if_neg htest, if_neg htest]
        refine (ihRight hright (by omega)).imp_right ?_
        rintro ⟨value, b, node, hfind, hb, hrest⟩
        exact ⟨value, b, node, hfind, List.mem_cons_of_mem a (List.mem_append_right ls hb), hrest⟩

variable {b : Nat} {node : ParticleFilterKDTreeNode K}

theorem Holds.exists_node (h : Holds heap tree a as) (hb : b ∈ as) :
    ∃ node, heap b = some node := by
  induction tree generalizing a as with
  | leaf key value =>
      obtain ⟨rfl, node, hnode, -⟩ := h
      rw [List.mem_singleton.mp hb]
      exact ⟨node, hnode⟩
  | split test left right ihLeft ihRight =>
      obtain ⟨l, r, ls, rs, ⟨node, hnode, -⟩, hleft, hright, rfl⟩ := h
      rcases List.mem_cons.mp hb with rfl | hb
      · exact ⟨node, hnode⟩
      · exact (List.mem_append.mp hb).elim (ihLeft hleft) (ihRight hright)

/-- A node that is a leaf belongs to one of the subtrees. -/
theorem SplitAt.mem_below {test : Fin 3 × K} {l r : Nat} {ls rs : List Nat}
    (h : SplitAt heap a test l r) (hb : b ∈ a :: (ls ++ rs)) (hnode : heap b = some node)
    (hleaf : node.leaf = true) : b ∈ ls ∨ b ∈ rs := by
  rcases List.mem_cons.mp hb with rfl | hb
  · obtain ⟨node', hnode', hleaf', -⟩ := h
    rw [hnode] at hnode'
    cases hnode'
    rw [hleaf] at hleaf'
    cases hleaf'
  · exact List.mem_append.mp hb

theorem Holds.key_mem (h : Holds heap tree a as) (hb : b ∈ as) (hnode : heap b = some node)
    (hleaf : node.leaf = true) : node.key ∈ tree.keys := by
  induction tree generalizing a as with
  | leaf key value =>
      obtain ⟨rfl, node', hnode', -, rfl, -⟩ := h
      rw [List.mem_singleton.mp hb, hnode'] at hnode
      cases hnode
      exact List.mem_singleton_self _
  | split test left right ihLeft ihRight =>
      obtain ⟨l, r, ls, rs, hsplit, hleft, hright, rfl⟩ := h
      rw [keys_split, List.mem_append]
      exact (hsplit.mem_below hb hnode hleaf).imp (ihLeft hleft) (ihRight hright)

/-- In an ordered tree, the tests of the key of a leaf lead to that leaf. -/
theorem Holds.findNodeAt_leaf [Field K] [LinearOrder K] (h : Holds heap tree a as)
    (hordered : tree.Ordered goesLeft) (hb : b ∈ as) (hnode : heap b = some node)
    (hleaf : node.leaf = true) (hfuel : tree.depth ≤ fuel) :
    findNodeAt heap node.key fuel a = some (some b) := by
  induction tree generalizing a as fuel with
  | leaf key value =>
      obtain ⟨rfl, -⟩ := h
      obtain rfl := List.mem_singleton.mp hb
      obtain ⟨fuel, rfl⟩ := Nat.exists_eq_succ_of_ne_zero (Nat.pos_iff_ne_zero.mp hfuel)
      unfold findNodeAt
      rw [hnode, Option.bind_eq_bind, Option.bind_some, if_pos hleaf, if_pos rfl]
  | split test left right ihLeft ihRight =>
      obtain ⟨l, r, ls, rs, hsplit, hleft, hright, rfl⟩ := h
      obtain ⟨hgoesLeft, hgoesRight, hordered, hordered'⟩ := hordered
      have hfuel : max left.depth right.depth + 1 ≤ fuel := hfuel
      obtain ⟨fuel, rfl⟩ := Nat.exists_eq_succ_of_ne_zero (show fuel ≠ 0 by omega)
      rw [findNodeAt_split hsplit]
      rcases hsplit.mem_below hb hnode hleaf with hb | hb
      · rw [if_pos (hgoesLeft _ (hleft.key_mem hb hnode hleaf))]
        exact ihLeft hleft hordered hb (by omega)
      · rw [if_neg (Bool.eq_false_iff.mp (hgoesRight _ (hright.key_mem hb hnode hleaf)))]
        exact ihRight hright hordered' hb (by omega)

end Holds

/-! ## Insertion -/

section Insertion

variable {K : Type} {tree tree' child child' : KeyTree K} {a c : Nat} {as as' cs cs' : List Nat}
  {t t' : ParticleFilterKDTree K}

/-- What an insertion does to a tree in memory: the other nodes stay as they are, and the new ones
go to the end of the vector. -/
structure Insertion (t t' : ParticleFilterKDTree K) (tree tree' : KeyTree K) (a : Nat)
    (as as' : List Nat) : Prop where
  holds : Holds t'.heap tree' a as'
  same : ∀ b, b ∉ as → b < t.allocated → t'.heap b = t.heap b
  new : ∃ n, as'.Perm (as ++ List.range' t.allocated n) ∧ t'.allocated = t.allocated + n ∧
    t'.nodesPtrVec = t.nodesPtrVec ++ (List.range' t.allocated n).map some ∧
    t'.nodeCount = t.nodeCount + n
  leafCount : t'.leafCount + tree.leaves.length = t.leafCount + tree'.leaves.length
  size : t'.size = t.size
  limit : t'.nodeMaxCount = t.nodeMaxCount

/-- The value of a known key. -/
theorem Insertion.update (node : ParticleFilterKDTreeNode K) (hleaf : node.leaf = true) (key : Key)
    (value : K) :
    Insertion t (t.set a node) (.leaf key value) (.leaf node.key node.value) a [a] [a] where
  holds := ⟨rfl, node, Function.update_self .., hleaf, rfl, rfl⟩
  same b hb _ := Function.update_of_ne (fun h => hb (List.mem_singleton.mpr h)) _ _
  new := ⟨0, by simp, rfl, by simp [set], rfl⟩
  leafCount := rfl
  size := rfl
  limit := rfl

/-- A leaf is split: two new ones are below it. -/
theorem Insertion.splitLeaf (node : ParticleFilterKDTreeNode K) (test : Fin 3 × K)
    {left right : ParticleFilterKDTreeNode K} (key : Key) (value : K) (ha : a < t.allocated)
    (hleft : left.leaf = true) (hright : right.leaf = true) :
    Insertion t
      { (((t.set a node).push left).push right).set a
          { node with
            pivotDim := some test.1, pivotValue := test.2, leaf := false
            leftPtr := some t.allocated, rightPtr := some (t.allocated + 1) } with
        leafCount := t.leafCount + 1 }
      (.leaf key value)
      (.split test (.leaf left.key left.value) (.leaf right.key right.value)) a [a]
      [a, t.allocated, t.allocated + 1] where
  holds := by
    refine ⟨t.allocated, t.allocated + 1, [t.allocated], [t.allocated + 1],
      ⟨_, Function.update_self .., rfl, rfl, rfl, rfl, rfl⟩, ⟨rfl, left, ?_, hleft, rfl, rfl⟩,
      ⟨rfl, right, ?_, hright, rfl, rfl⟩, rfl⟩
    · show Function.update (Function.update (Function.update (Function.update t.heap a _)
        t.allocated (some left)) (t.allocated + 1) (some right)) a _ t.allocated = some left
      rw [Function.update_of_ne (by omega), Function.update_of_ne (by omega), Function.update_self]
    · show Function.update (Function.update (Function.update (Function.update t.heap a _)
        t.allocated (some left)) (t.allocated + 1) (some right)) a _ (t.allocated + 1) = some right
      rw [Function.update_of_ne (by omega), Function.update_self]
  same := by
    intro b hb hlt
    have hne : b ≠ a := fun h => hb (List.mem_singleton.mpr h)
    show Function.update (Function.update (Function.update (Function.update t.heap a _)
      t.allocated (some left)) (t.allocated + 1) (some right)) a _ b = t.heap b
    rw [Function.update_of_ne hne, Function.update_of_ne (by omega),
      Function.update_of_ne (by omega), Function.update_of_ne hne]
  new := ⟨2, .refl _, rfl, by simp [set, push, List.range'], rfl⟩
  leafCount := rfl
  size := rfl
  limit := rfl

/-- An insertion into a subtree. -/
theorem Insertion.frame (front back : List Nat) (h : Insertion t t' child child' c cs cs')
    (hholds : Holds t'.heap tree' a (front ++ cs' ++ back))
    (hleaves : tree'.leaves.length + child.leaves.length =
      tree.leaves.length + child'.leaves.length) :
    Insertion t t' tree tree' a (front ++ cs ++ back) (front ++ cs' ++ back) where
  holds := hholds
  same b hb hlt :=
    h.same b (fun hmem => hb (List.mem_append_left _ (List.mem_append_right _ hmem))) hlt
  new := by
    obtain ⟨n, hperm, hrest⟩ := h.new
    refine ⟨n, ?_, hrest⟩
    have hfront : (front ++ cs').Perm (front ++ cs ++ List.range' t.allocated n) := by
      rw [List.append_assoc]
      exact hperm.append_left front
    refine (hfront.append_right back).trans ?_
    simp only [List.append_assoc]
    exact (List.perm_append_comm.append_left cs).append_left front
  leafCount := by
    have hcount := h.leafCount
    omega
  size := h.size
  limit := h.limit

/-- The nodes outside of a subtree still hold what they held. -/
theorem Insertion.keeps (h : Insertion t t' child child' c cs cs') {other : KeyTree K} {o : Nat}
    {os : List Nat} (hother : Holds t.heap other o os) (hdisjoint : List.Disjoint cs os)
    (hlt : ∀ b ∈ os, b < t.allocated) : Holds t'.heap other o os :=
  hother.congr fun b hb => h.same b (fun hmem => hdisjoint hmem hb) (hlt b hb)

variable [Field K] [LinearOrder K] {key : Key} {value : K} {fuel : Nat}

omit [LinearOrder K] in
/-- A child of a node is made. -/
theorem newNode_child {parent : Nat} {node : ParticleFilterKDTreeNode K} (key : Key) (value : K)
    (hroom : t.nodeCount < t.nodeMaxCount) (hparent : t.heap parent = some node) :
    ∃ node' : ParticleFilterKDTreeNode K,
      node'.leaf = true ∧ node'.key = key ∧ node'.value = value ∧
        t.newNode (some parent) key value = some (t.allocated, t.push node') := by
  have hdepth : t.childDepth (some parent) = some (node.depth + 1) := by
    show (t.heap parent).map (fun node => node.depth + 1) = _
    rw [hparent]
    rfl
  unfold newNode
  rw [if_pos hroom, hdepth]
  exact ⟨_, rfl, rfl, rfl, rfl⟩

omit [LinearOrder K] in
/-- Two children of a node are made. -/
theorem newChildren_eq {node : ParticleFilterKDTreeNode K} (ha : a < t.allocated)
    (hnode : t.heap a = some node) (hroom : t.nodeCount + 2 ≤ t.nodeMaxCount) (key₁ : Key)
    (value₁ : K) (key₂ : Key) (value₂ : K) :
    ∃ left right : ParticleFilterKDTreeNode K,
      (left.leaf = true ∧ left.key = key₁ ∧ left.value = value₁) ∧
      (right.leaf = true ∧ right.key = key₂ ∧ right.value = value₂) ∧
      t.newChildren a key₁ value₁ key₂ value₂ =
        some (t.allocated, t.allocated + 1, (t.push left).push right) := by
  obtain ⟨left, hleft, hleftKey, hleftValue, hnewLeft⟩ :=
    newNode_child key₁ value₁ (show t.nodeCount < t.nodeMaxCount by omega) hnode
  have hnode' : (t.push left).heap a = some node := (Function.update_of_ne ha.ne _ _).trans hnode
  have hroom' : (t.push left).nodeCount < (t.push left).nodeMaxCount := hroom
  obtain ⟨right, hright, hrightKey, hrightValue, hnewRight⟩ :=
    newNode_child key₂ value₂ hroom' hnode'
  refine ⟨left, right, ⟨hleft, hleftKey, hleftValue⟩, ⟨hright, hrightKey, hrightValue⟩, ?_⟩
  unfold newChildren
  rw [hnewLeft, Option.bind_eq_bind, Option.bind_some]
  show ((t.push left).newNode (some a) key₂ value₂).bind _ = _
  rw [hnewRight]
  rfl

/-- `InsertNode` splits the leaf of another key. -/
theorem insertNode_leaf {node : ParticleFilterKDTreeNode K} (hnode : t.heap a = some node)
    (hleaf : node.leaf = true) (ha : a < t.allocated) (hne : key ≠ node.key)
    (hnear : Near key node.key) (hroom : t.nodeCount + 2 ≤ t.nodeMaxCount) :
    ∃ t' as', insertNode key value (fuel + 1) t a = some (a, t') ∧
      Insertion t t' (.leaf node.key node.value)
        ((SplitTree.leaf node.key node.value).insert goesLeft pivot (· + ·) key value) a [a]
        as' := by
  obtain ⟨dim, hdim⟩ := KDTree.pivotDim_isSome hne
  have hpivot : (pivot key node.key : Fin 3 × K) =
      (dim, ((key dim : K) + node.key dim) / 2) := by
    unfold pivot
    rw [hdim]
    rfl
  let node' : ParticleFilterKDTreeNode K :=
    { node with pivotDim := some dim, pivotValue := ((key dim : K) + node.key dim) / 2 }
  -- the pivot is written before the children are made
  have hchildren := newChildren_eq (t := t.set a node') ha (Function.update_self ..) hroom
  unfold insertNode SplitTree.insert
  rw [hnode, Option.bind_eq_bind, Option.bind_some, if_pos hleaf, if_neg hne, if_neg hne,
    pivotDim_eq_some_iff.mpr ⟨hnear, hdim⟩, Option.bind_eq_bind, Option.bind_some, hpivot]
  dsimp only
  by_cases htest : (key dim : K) < ((key dim : K) + node.key dim) / 2
  · obtain ⟨left, right, ⟨hleft, rfl, rfl⟩, ⟨hright, hkey, hvalue⟩, hnew⟩ :=
      hchildren key value node.key node.value
    have hside : goesLeft (dim, ((left.key dim : K) + node.key dim) / 2) left.key = true :=
      decide_eq_true htest
    rw [if_pos htest, if_pos hside, hnew]
    refine ⟨_, [a, t.allocated, t.allocated + 1], rfl, ?_⟩
    have hins := Insertion.splitLeaf (t := t) node' (dim, ((left.key dim : K) + node.key dim) / 2)
      node.key node.value ha hleft hright
    rw [hkey, hvalue] at hins
    exact hins
  · obtain ⟨left, right, ⟨hleft, hkey, hvalue⟩, ⟨hright, rfl, rfl⟩, hnew⟩ :=
      hchildren node.key node.value key value
    have hside : ¬goesLeft (dim, ((right.key dim : K) + node.key dim) / 2) right.key = true :=
      fun h => htest (of_decide_eq_true h)
    rw [if_neg htest, if_neg hside, hnew]
    refine ⟨_, [a, t.allocated, t.allocated + 1], rfl, ?_⟩
    have hins := Insertion.splitLeaf (t := t) node' (dim, ((right.key dim : K) + node.key dim) / 2)
      node.key node.value ha hleft hright
    rw [hkey, hvalue] at hins
    exact hins

theorem insertNode_split {test : Fin 3 × K} {l r : Nat} (h : SplitAt t.heap a test l r) :
    insertNode key value (fuel + 1) t a =
      if goesLeft test key then (insertNode key value fuel t l).map fun x => (a, x.2)
      else (insertNode key value fuel t r).map fun x => (a, x.2) := by
  obtain ⟨node, hnode, hleaf, hdim, hvalue, hl, hr⟩ := h
  conv_lhs => unfold insertNode
  rw [hnode, Option.bind_eq_bind, Option.bind_some, hleaf, if_neg Bool.false_ne_true, hl, hr, hdim]
  simp only [Option.bind_eq_bind, Option.bind_some, hvalue, goesLeft, decide_eq_true_eq]
  split <;> exact Option.map_eq_bind.symm

/-- `InsertNode` inserts into the tree below a node. A new key needs room for two nodes, and has to
be near the key of the leaf that it splits. -/
theorem insertNode_insertion (value : K) (h : Holds t.heap tree a as) (hnodup : as.Nodup)
    (hlt : ∀ b ∈ as, b < t.allocated) (hfuel : tree.depth ≤ fuel)
    (hnear : Near key (tree.reach goesLeft key))
    (hroom : tree.find? goesLeft key = none → t.nodeCount + 2 ≤ t.nodeMaxCount) :
    ∃ t' as', insertNode key value fuel t a = some (a, t') ∧
      Insertion t t' tree (tree.insert goesLeft pivot (· + ·) key value) a as as' := by
  induction tree generalizing a as fuel with
  | leaf nodeKey nodeValue =>
      obtain ⟨rfl, node, hnode, hleaf, rfl, rfl⟩ := h
      obtain ⟨fuel, rfl⟩ := Nat.exists_eq_succ_of_ne_zero (Nat.pos_iff_ne_zero.mp hfuel)
      by_cases heq : key = node.key
      · unfold insertNode SplitTree.insert
        rw [hnode, Option.bind_eq_bind, Option.bind_some, if_pos hleaf, if_pos heq]
        rw [if_pos heq]
        exact ⟨_, [a], rfl, .update { node with value := node.value + value } hleaf _ _⟩
      · have hnone : (SplitTree.leaf node.key node.value : KeyTree K).find? goesLeft key = none :=
          if_neg heq
        exact insertNode_leaf hnode hleaf (hlt a (List.mem_singleton_self a)) heq hnear
          (hroom hnone)
  | split test left right ihLeft ihRight =>
      obtain ⟨l, r, ls, rs, hsplit, hleft, hright, rfl⟩ := h
      have hfuel : max left.depth right.depth + 1 ≤ fuel := hfuel
      obtain ⟨fuel, rfl⟩ := Nat.exists_eq_succ_of_ne_zero (show fuel ≠ 0 by omega)
      -- the nodes of the two subtrees are different ones, and none is the node itself
      obtain ⟨ha, hnodup⟩ := List.nodup_cons.mp hnodup
      obtain ⟨hls, hrs, hdisjoint⟩ := List.nodup_append'.mp hnodup
      have hltLeft : ∀ b ∈ ls, b < t.allocated :=
        fun b hb => hlt b (List.mem_cons_of_mem a (List.mem_append_left rs hb))
      have hltRight : ∀ b ∈ rs, b < t.allocated :=
        fun b hb => hlt b (List.mem_cons_of_mem a (List.mem_append_right ls hb))
      -- the node itself is not written
      have hkeep : ∀ {t' : ParticleFilterKDTree K} {child child' c cs cs'},
          Insertion t t' child child' c cs cs' → a ∉ cs → SplitAt t'.heap a test l r := by
        intro t' child child' c cs cs' h hout
        obtain ⟨node, hnode, hfields⟩ := hsplit
        exact ⟨node, (h.same a hout (hlt a List.mem_cons_self)).trans hnode, hfields⟩
      rw [insertNode_split hsplit]
      unfold find? at hroom
      unfold reach at hnear
      unfold SplitTree.insert
      -- the subtree on the side of the key changes, the other one is not written
      by_cases htest : goesLeft test key = true
      · rw [if_pos htest] at hroom hnear ⊢
        rw [if_pos htest]
        obtain ⟨t', ls', hinsert, hins⟩ :=
          ihLeft hleft hls hltLeft (show left.depth ≤ fuel by omega) hnear hroom
        have hsplit' := hkeep hins fun hmem => ha (List.mem_append_left rs hmem)
        refine ⟨t', [a] ++ ls' ++ rs, by rw [hinsert]; rfl, ?_⟩
        refine hins.frame [a] rs
          ⟨l, r, ls', rs, hsplit', hins.holds, hins.keeps hright hdisjoint hltRight, rfl⟩ ?_
        simp only [leaves, List.length_append]
        omega
      · rw [if_neg htest] at hroom hnear ⊢
        rw [if_neg htest]
        obtain ⟨t', rs', hinsert, hins⟩ :=
          ihRight hright hrs hltRight (show right.depth ≤ fuel by omega) hnear hroom
        have hsplit' := hkeep hins fun hmem => ha (List.mem_append_right ls hmem)
        refine ⟨t', (a :: ls) ++ rs' ++ [], by rw [hinsert]; rfl, ?_⟩
        have hframe : Insertion t t' (.split test left right)
            (.split test left (right.insert goesLeft pivot (· + ·) key value)) a
            (a :: ls ++ rs ++ []) (a :: ls ++ rs' ++ []) := hins.frame (a :: ls) []
          ⟨l, r, ls, rs', hsplit', hins.keeps hleft hdisjoint.symm hltLeft, hins.holds, by simp⟩
          (by simp only [leaves, List.length_append]; omega)
        simpa using hframe

omit [LinearOrder K] in
theorem newNode_room {parent : Option Nat} {made : Nat × ParticleFilterKDTree K}
    (h : t.newNode parent key value = some made) :
    t.nodeCount < t.nodeMaxCount ∧ made.2.nodeCount = t.nodeCount + 1 ∧
      made.2.nodeMaxCount = t.nodeMaxCount := by
  unfold newNode at h
  split at h
  case isTrue hroom =>
    obtain ⟨depth, -, hmade⟩ := Option.bind_eq_some_iff.mp h
    cases hmade
    exact ⟨hroom, rfl, rfl⟩
  case isFalse => cases h

omit [LinearOrder K] in
theorem newChildren_room {key₁ key₂ : Key} {value₁ value₂ : K}
    {made : Nat × Nat × ParticleFilterKDTree K}
    (h : t.newChildren a key₁ value₁ key₂ value₂ = some made) :
    t.nodeCount + 2 ≤ t.nodeMaxCount := by
  obtain ⟨left, hleft, h⟩ := Option.bind_eq_some_iff.mp h
  obtain ⟨right, hright, -⟩ := Option.bind_eq_some_iff.mp h
  have hfirst := newNode_room hleft
  have hsecond := newNode_room hright
  omega

/-- A key is only inserted if it is near the key of the leaf that it reaches, and a new one only
where there is room for two nodes. -/
theorem near_of_insertNode (h : Holds t.heap tree a as)
    {inserted : Nat × ParticleFilterKDTree K}
    (hinsert : insertNode key value fuel t a = some inserted) :
    Near key (tree.reach goesLeft key) ∧
      (tree.find? goesLeft key = none → t.nodeCount + 2 ≤ t.nodeMaxCount) := by
  induction tree generalizing a as fuel inserted with
  | leaf nodeKey nodeValue =>
      obtain ⟨rfl, node, hnode, hleaf, rfl, rfl⟩ := h
      by_cases heq : key = node.key
      · rw [heq]
        exact ⟨near_self node.key, fun hnone => by simp [find?] at hnone⟩
      cases fuel with
      | zero => cases hinsert
      | succ fuel =>
          unfold insertNode at hinsert
          rw [hnode, Option.bind_eq_bind, Option.bind_some, if_pos hleaf, if_neg heq] at hinsert
          obtain ⟨dim, hdim, hinsert⟩ := Option.bind_eq_some_iff.mp hinsert
          refine ⟨(pivotDim_eq_some_iff.mp hdim).1, fun _ => ?_⟩
          dsimp only at hinsert
          split at hinsert
          all_goals
            obtain ⟨children, hchildren, -⟩ := Option.bind_eq_some_iff.mp hinsert
            have hroom := newChildren_room hchildren
            exact hroom
  | split test left right ihLeft ihRight =>
      obtain ⟨l, r, ls, rs, hsplit, hleft, hright, rfl⟩ := h
      cases fuel with
      | zero => cases hinsert
      | succ fuel =>
          rw [insertNode_split hsplit] at hinsert
          unfold find? reach
          by_cases htest : goesLeft test key = true
          · rw [if_pos htest] at hinsert
            rw [if_pos htest, if_pos htest]
            obtain ⟨below, hbelow, -⟩ := Option.map_eq_some_iff.mp hinsert
            exact ihLeft hleft hbelow
          · rw [if_neg htest] at hinsert
            rw [if_neg htest, if_neg htest]
            obtain ⟨below, hbelow, -⟩ := Option.map_eq_some_iff.mp hinsert
            exact ihRight hright hbelow

end Insertion

/-! ## Reachable nodes -/

section Reachable

variable {K : Type} {heap : Nat → Option (ParticleFilterKDTreeNode K)} {tree : KeyTree K}
  {a b : Nat} {as : List Nat} {node : ParticleFilterKDTreeNode K}

/-- A node that is reached along the pointers of nodes that are no leaves. -/
inductive ReachableFrom (heap : Nat → Option (ParticleFilterKDTreeNode K)) (b : Nat) : Nat → Prop
  | self : ReachableFrom heap b b
  | left {a l : Nat} {node : ParticleFilterKDTreeNode K} (hnode : heap a = some node)
      (hleaf : node.leaf = false) (hl : node.leftPtr = some l) (h : ReachableFrom heap b l) :
      ReachableFrom heap b a
  | right {a r : Nat} {node : ParticleFilterKDTreeNode K} (hnode : heap a = some node)
      (hleaf : node.leaf = false) (hr : node.rightPtr = some r) (h : ReachableFrom heap b r) :
      ReachableFrom heap b a

/-- The node is reached from the root. -/
def Reachable (t : ParticleFilterKDTree K) (b : Nat) : Prop :=
  ∃ root, t.rootPtr = some root ∧ ReachableFrom t.heap b root

/-- A node that is no leaf holds a split of the trees below it. -/
theorem Holds.below (h : Holds heap tree a as) (hnode : heap a = some node)
    (hleaf : node.leaf = false) :
    ∃ left right l r ls rs, node.leftPtr = some l ∧ node.rightPtr = some r ∧
      Holds heap left l ls ∧ Holds heap right r rs ∧ as = a :: (ls ++ rs) := by
  cases tree with
  | leaf key value =>
      obtain ⟨-, node', hnode', hleaf', -⟩ := h
      rw [hnode] at hnode'
      cases hnode'
      rw [hleaf] at hleaf'
      cases hleaf'
  | split test left right =>
      obtain ⟨l, r, ls, rs, ⟨node', hnode', -, -, -, hl, hr⟩, hleft, hright, heq⟩ := h
      rw [hnode] at hnode'
      cases hnode'
      exact ⟨left, right, l, r, ls, rs, hl, hr, hleft, hright, heq⟩

/-- The nodes of a tree are those that are reached from its root. -/
theorem Holds.reachable_iff (h : Holds heap tree a as) : ReachableFrom heap b a ↔ b ∈ as := by
  constructor
  case mp =>
    intro hreach
    induction hreach generalizing tree as with
    | self => exact h.mem
    | left hnode hleaf hl _ ih =>
        obtain ⟨left, -, l', -, ls, rs, hl', -, hleft, -, rfl⟩ := h.below hnode hleaf
        obtain rfl := Option.some.inj (hl.symm.trans hl')
        exact List.mem_cons_of_mem _ (List.mem_append_left rs (ih hleft))
    | right hnode hleaf hr _ ih =>
        obtain ⟨-, right, -, r', ls, rs, -, hr', -, hright, rfl⟩ := h.below hnode hleaf
        obtain rfl := Option.some.inj (hr.symm.trans hr')
        exact List.mem_cons_of_mem _ (List.mem_append_right ls (ih hright))
  case mpr =>
    intro hb
    induction tree generalizing a as with
    | leaf key value =>
        obtain ⟨rfl, -⟩ := h
        rw [List.mem_singleton.mp hb]
        exact .self
    | split test left right ihLeft ihRight =>
        obtain ⟨l, r, ls, rs, ⟨node, hnode, hleaf, -, -, hl, hr⟩, hleft, hright, rfl⟩ := h
        rcases List.mem_cons.mp hb with rfl | hb
        · exact .self
        · rcases List.mem_append.mp hb with hb | hb
          · exact .left hnode hleaf hl (ihLeft hleft hb)
          · exact .right hnode hleaf hr (ihRight hright hb)

end Reachable

end ParticleFilterKDTree

end RoboRTS.Localization
