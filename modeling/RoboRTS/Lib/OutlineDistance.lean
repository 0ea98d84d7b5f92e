import RoboRTS.Lib.PlaneDistance
import Mathlib.Analysis.Real.Sqrt
import Mathlib.Data.List.Zip

/-!
# Distances to outlines

A program computes the least distance to the edges of an outline by a loop that keeps the least one
so far. The lengths are on a scale that keeps the order of the squares (`Ruler`); what is computed
`Measures` two sets. The outline of a list of corners consists of the edges from each corner to the
next one and of the closing edge.
-/

namespace PlaneDistance

/-- The scale of lengths: an increasing function of the square. -/
structure Ruler (K : Type*) [Field K] [LinearOrder K] where
  ofSq : K → K
  zero : ofSq 0 = 0
  lt_iff : ∀ {a b : K}, 0 ≤ a → 0 ≤ b → (ofSq a < ofSq b ↔ a < b)

variable {K : Type*} [Field K] [LinearOrder K]

namespace Ruler

/-- Squares instead of lengths. -/
def squared : Ruler K :=
  ⟨id, rfl, fun _ _ => Iff.rfl⟩

/-- The Euclidean length. -/
noncomputable def euclidean : Ruler ℝ :=
  ⟨Real.sqrt, Real.sqrt_zero, fun ha _ => Real.sqrt_lt_sqrt_iff ha⟩

variable (r : Ruler K)

/-- The length of a vector. -/
def norm (v : K × K) : ExactDouble K :=
  .number (r.ofSq (lengthSq v))

/-- The length by its square. -/
def length : WithTop K → ExactDouble K
  | none => .inf
  | some d => .number (r.ofSq d)

@[simp] theorem length_top : r.length ⊤ = .inf := rfl

@[simp] theorem length_coe (d : K) : r.length d = .number (r.ofSq d) := rfl

variable {r} {m n : WithTop K}

theorem lt_length (hm : 0 ≤ m) (hn : 0 ≤ n) : (r.length m).lt (r.length n) = true ↔ m < n := by
  induction m using WithTop.recTopCoe with
  | top => simp [ExactDouble.lt]
  | coe a =>
      induction n using WithTop.recTopCoe with
      | top => simp [ExactDouble.lt, WithTop.coe_lt_top]
      | coe b =>
          rw [length_coe, length_coe, ExactDouble.lt, decide_eq_true_eq, WithTop.coe_lt_coe]
          exact r.lt_iff (WithTop.coe_nonneg.mp hm) (WithTop.coe_nonneg.mp hn)

theorem closer_length (hm : 0 ≤ m) (hn : 0 ≤ n) :
    (r.length m).closer (r.length n) = r.length (min m n) := by
  rw [ExactDouble.closer]
  by_cases hlt : n < m
  · rw [if_pos ((lt_length hn hm).mpr hlt), min_eq_right hlt.le]
  · rw [if_neg fun h => hlt ((lt_length hn hm).mp h), min_eq_left (not_lt.mp hlt)]

theorem length_inj (hm : 0 ≤ m) (hn : 0 ≤ n) (h : r.length m = r.length n) : m = n := by
  have hlt := lt_length (r := r) hm hn
  have hgt := lt_length (r := r) hn hm
  rw [← h] at hlt hgt
  exact le_antisymm (not_lt.mp fun h' => lt_asymm h' (hlt.mp (hgt.mpr h')))
    (not_lt.mp fun h' => lt_asymm h' (hgt.mp (hlt.mpr h')))

end Ruler

/-! ## What is measured -/

/-- `x` is the least distance of a point of `S` and one of `T`. -/
def Measures (r : Ruler K) (S T : Set (K × K)) (x : ExactDouble K) : Prop :=
  ∃ d : WithTop K, IsDist S T d ∧ x = r.length d

variable {r : Ruler K} {S S' T T' : Set (K × K)} {x y : ExactDouble K}

/-- `x` is the distance of two points of `S` and `T`, and no two are nearer to each other. -/
def IsLeastDistance (r : Ruler K) (S T : Set (K × K)) (x : ExactDouble K) : Prop :=
  ∃ p ∈ S, ∃ q ∈ T, x = r.norm (p - q) ∧
    ∀ p' ∈ S, ∀ q' ∈ T, lengthSq (p - q) ≤ lengthSq (p' - q')

/-- The distance of sets that are not empty is that of two points. -/
theorem measures_iff (hS : S.Nonempty) (hT : T.Nonempty) :
    Measures r S T x ↔ IsLeastDistance r S T x := by
  constructor
  · rintro ⟨d, hd, rfl⟩
    obtain ⟨p', hp'⟩ := hS
    obtain ⟨q', hq'⟩ := hT
    rcases hd.attained with rfl | ⟨p, hp, q, hq, rfl⟩
    · exact absurd (hd.le p' hp' q' hq') (not_le.mpr (WithTop.coe_lt_top _))
    · exact ⟨p, hp, q, hq, rfl, fun p' hp' q' hq' => WithTop.coe_le_coe.mp (hd.le p' hp' q' hq')⟩
  · rintro ⟨p, hp, q, hq, rfl, hleast⟩
    exact ⟨(lengthSq (p - q) : K), ⟨fun p' hp' q' hq' => WithTop.coe_le_coe.mpr
      (hleast p' hp' q' hq'), Or.inr ⟨p, hp, q, hq, rfl⟩⟩, rfl⟩

theorem Measures.unique (h : Measures r S T x) (h' : Measures r S T y) : x = y := by
  obtain ⟨d, hd, rfl⟩ := h
  obtain ⟨d', hd', rfl⟩ := h'
  rw [hd.unique hd']

theorem Measures.symm (h : Measures r S T x) : Measures r T S x := by
  obtain ⟨d, hd, rfl⟩ := h
  exact ⟨d, hd.symm, rfl⟩

theorem measures_empty : Measures r S ∅ .inf :=
  ⟨⊤, isDist_empty S, rfl⟩

theorem measures_singleton (p q : K × K) : Measures r {p} {q} (r.norm (p - q)) :=
  ⟨_, isDist_singleton p q, rfl⟩

theorem measures_nearestOnSegment [IsStrictOrderedRing K] (p a b : K × K) :
    Measures r {p} (segment K a b) (r.norm (p - nearestOnSegment p a b)) :=
  ⟨_, isDist_nearestOnSegment p a b, rfl⟩

theorem norm_sub_comm (p q : K × K) : r.norm (p - q) = r.norm (q - p) := by
  rw [Ruler.norm, lengthSq_sub_comm, Ruler.norm]

variable [IsStrictOrderedRing K]

/-- The lesser of two distances is that to the union. -/
theorem Measures.union (h : Measures r S T x) (h' : Measures r S T' y) :
    Measures r S (T ∪ T') (x.closer y) := by
  obtain ⟨d, hd, rfl⟩ := h
  obtain ⟨d', hd', rfl⟩ := h'
  exact ⟨min d d', hd.union hd', Ruler.closer_length hd.nonneg hd'.nonneg⟩

/-- The distance is that of larger sets exactly if the rest of these is not nearer. -/
theorem Measures.eq_iff (h : Measures r S T x) (h' : Measures r S' T' y) (hS : S ⊆ S')
    (hT : T ⊆ T') : x = y ↔ AsNear S T S' T' := by
  obtain ⟨d, hd, rfl⟩ := h
  obtain ⟨d', hd', rfl⟩ := h'
  rw [← hd.eq_iff hd' hS hT]
  exact ⟨Ruler.length_inj hd.nonneg hd'.nonneg, fun heq => heq ▸ rfl⟩

/-- A loop over pieces that keeps the least distance so far. -/
theorem Measures.foldl {ε : Type*} {piece : ε → Set (K × K)} {dist : ε → ExactDouble K}
    {pieces : List ε} (hpieces : ∀ e ∈ pieces, Measures r S (piece e) (dist e))
    (h : Measures r S T x) :
    Measures r S (T ∪ {p | ∃ e ∈ pieces, p ∈ piece e})
      (pieces.foldl (fun least e => least.closer (dist e)) x) := by
  induction pieces generalizing T x with
  | nil =>
      have hset : T ∪ {p | ∃ e ∈ ([] : List ε), p ∈ piece e} = T := by simp
      rw [hset]
      exact h
  | cons e pieces ih =>
      rw [List.forall_mem_cons] at hpieces
      have hset : T ∪ {p | ∃ e' ∈ e :: pieces, p ∈ piece e'} =
          T ∪ piece e ∪ {p | ∃ e' ∈ pieces, p ∈ piece e'} := by
        ext p
        simp [or_assoc]
      rw [hset]
      exact ih hpieces.2 (h.union hpieces.1)

/-! ## Outlines -/

/-- The corners of a list, and the edges from each to the next one. -/
def openOutline (corners : List (K × K)) : Set (K × K) :=
  {p | p ∈ corners} ∪ {p | ∃ e ∈ corners.zip corners.tail, p ∈ segment K e.1 e.2}

/-- The edge from the last corner to the first one. -/
def closingEdge (corners : List (K × K)) : Set (K × K) :=
  {p | ∃ a b, corners.getLast? = some a ∧ corners.head? = some b ∧ p ∈ segment K a b}

/-- The outline of a polygon. -/
def outline (corners : List (K × K)) : Set (K × K) :=
  openOutline corners ∪ closingEdge corners

variable {a b p : K × K} {corners : List (K × K)}

/-- The edges between corners that follow each other. -/
theorem mem_zip_tail {α : Type*} {l : List α} {e : α × α} :
    e ∈ l.zip l.tail ↔ ∃ i, ∃ h : i + 1 < l.length, e = (l[i], l[i + 1]) := by
  rw [List.mem_iff_getElem]
  constructor
  · rintro ⟨i, hi, rfl⟩
    have hlt : i + 1 < l.length := by
      rw [List.length_zip, List.length_tail] at hi
      omega
    exact ⟨i, hlt, by rw [List.getElem_zip, List.getElem_tail]⟩
  · rintro ⟨i, hi, rfl⟩
    have hlt : i < (l.zip l.tail).length := by
      rw [List.length_zip, List.length_tail]
      omega
    exact ⟨i, hlt, by rw [List.getElem_zip, List.getElem_tail]⟩

theorem ne_of_mem_zip_tail {α : Type*} {l : List α} (hdistinct : l.IsChain (· ≠ ·)) {e : α × α}
    (he : e ∈ l.zip l.tail) : e.1 ≠ e.2 := by
  obtain ⟨i, hi, rfl⟩ := mem_zip_tail.mp he
  exact List.isChain_iff_getElem.mp hdistinct i hi

omit [IsStrictOrderedRing K] in
theorem closingEdge_eq (ha : corners.getLast? = some a) (hb : corners.head? = some b) :
    closingEdge corners = segment K a b := by
  ext p
  simp only [closingEdge, ha, hb, Option.some.injEq]
  exact ⟨fun ⟨_, _, rfl, rfl, hp⟩ => hp, fun hp => ⟨a, b, rfl, rfl, hp⟩⟩

omit [IsStrictOrderedRing K] in
theorem openOutline_singleton (a : K × K) : openOutline [a] = {a} := by
  ext p
  simp [openOutline]

omit [IsStrictOrderedRing K] in
theorem openOutline_nonempty (hne : corners ≠ []) : (openOutline corners).Nonempty :=
  ⟨corners.head hne, Or.inl (List.head_mem hne)⟩

/-- The corners of at least one edge are on the edges. -/
theorem openOutline_eq (h : 2 ≤ corners.length) :
    openOutline corners = {p | ∃ e ∈ corners.zip corners.tail, p ∈ segment K e.1 e.2} := by
  refine Set.union_eq_right.mpr fun p hp => ?_
  obtain ⟨i, hi, rfl⟩ := List.mem_iff_getElem.mp hp
  by_cases hnext : i + 1 < corners.length
  · exact ⟨_, mem_zip_tail.mpr ⟨i, hnext, rfl⟩, left_mem_segment K _ _⟩
  · -- the last corner ends an edge
    obtain ⟨j, rfl⟩ : ∃ j, i = j + 1 := ⟨i - 1, by omega⟩
    exact ⟨_, mem_zip_tail.mpr ⟨j, hi, rfl⟩, right_mem_segment K _ _⟩

/-- The edge of two corners closes the outline as well. -/
theorem outline_eq_openOutline (h : corners.length ≤ 2) :
    outline corners = openOutline corners := by
  refine Set.union_eq_left.mpr ?_
  rintro p ⟨a, b, ha, hb, hp⟩
  match corners, h with
  | [c], _ =>
      obtain rfl : c = a := by simpa using ha
      obtain rfl : c = b := by simpa using hb
      rw [segment_same, Set.mem_singleton_iff] at hp
      exact Or.inl (by simp [hp])
  | [c, d], _ =>
      obtain rfl : d = a := by simpa using ha
      obtain rfl : c = b := by simpa using hb
      exact Or.inr ⟨(c, d), by simp, segment_symm K d c ▸ hp⟩

omit [IsStrictOrderedRing K] in
theorem openOutline_reverse_subset (corners : List (K × K)) :
    openOutline corners.reverse ⊆ openOutline corners := by
  rintro p (hp | ⟨e, he, hp⟩)
  · exact Or.inl (List.mem_reverse.mp hp)
  · obtain ⟨i, hi, rfl⟩ := mem_zip_tail.mp he
    have hlt : i + 1 < corners.length := by rwa [List.length_reverse] at hi
    refine Or.inr ⟨_, mem_zip_tail.mpr ⟨corners.length - 2 - i, by omega, rfl⟩, ?_⟩
    rw [List.getElem_reverse, List.getElem_reverse, segment_symm] at hp
    have hstart : corners.length - 2 - i = corners.length - 1 - (i + 1) := by omega
    have hstop : corners.length - 1 - (i + 1) + 1 = corners.length - 1 - i := by omega
    simp only [hstart, hstop]
    exact hp

omit [IsStrictOrderedRing K] in
/-- The edges do not depend on the direction. -/
theorem openOutline_reverse (corners : List (K × K)) :
    openOutline corners.reverse = openOutline corners := by
  refine (openOutline_reverse_subset corners).antisymm ?_
  have hback := openOutline_reverse_subset corners.reverse
  rwa [List.reverse_reverse] at hback

end PlaneDistance
