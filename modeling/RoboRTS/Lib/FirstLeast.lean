import Mathlib.Data.Prod.Lex
import Mathlib.Data.Set.Finite.Lemmas
import Mathlib.Order.Bounds.Basic

/-!
# The first of the least

A loop that keeps a candidate until a strictly lesser key comes finds the first one with the least
key, which is the least pair of a key and an index (`foldl_keepFirst_iff`). When the candidates are
split in two parts, another split has the same least candidates exactly if whoever changes sides
leaves behind a lesser one on the old side and finds a lesser one on the new side
(`same_least_iff`).
-/

namespace FirstLeast

variable {κ ι : Type*} [LinearOrder κ] [LinearOrder ι]

/-- `if (key < best) { best = key; found = index; }`. -/
def keepFirst (best : κ × Option ι) (item : κ × ι) : κ × Option ι :=
  if item.1 < best.1 then (item.1, some item.2) else best

/-- The items with a key below the bound. -/
def below (bound : κ) (items : List (κ × ι)) : Set (κ ×ₗ ι) :=
  {x | ofLex x ∈ items ∧ (ofLex x).1 < bound}

variable {bound k : κ} {i : ι} {items : List (κ × ι)}

omit [LinearOrder ι] in
theorem mem_below_append {x : κ ×ₗ ι} {item : κ × ι} :
    x ∈ below bound (items ++ [item]) ↔
      x ∈ below bound items ∨ x = toLex item ∧ item.1 < bound := by
  change (_ ∈ items ++ [item] ∧ _) ↔ _
  rw [List.mem_append, List.mem_singleton]
  constructor
  · rintro ⟨hmem | heq, hlt⟩
    · exact Or.inl ⟨hmem, hlt⟩
    · exact Or.inr ⟨heq, heq ▸ hlt⟩
  · rintro (⟨hmem, hlt⟩ | ⟨rfl, hlt⟩)
    · exact ⟨Or.inl hmem, hlt⟩
    · exact ⟨Or.inr rfl, hlt⟩

/-- The loop finds nothing, or the least item. -/
theorem foldl_keepFirst (bound : κ) (hsorted : items.Pairwise fun x y => x.2 < y.2) :
    items.foldl keepFirst (bound, none) = (bound, none) ∧ below bound items = ∅ ∨
      ∃ k i, items.foldl keepFirst (bound, none) = (k, some i) ∧
        IsLeast (below bound items) (toLex (k, i)) := by
  induction items using List.reverseRecOn with
  | nil => exact Or.inl ⟨rfl, Set.eq_empty_of_forall_notMem fun x hx => by simp [below] at hx⟩
  | append_singleton items item ih =>
      rw [List.pairwise_append] at hsorted
      rw [List.foldl_append]
      rcases ih hsorted.1 with ⟨hfold, hempty⟩ | ⟨k, i, hfold, hmem, hleast⟩
      · rw [hfold]
        by_cases hlt : item.1 < bound
        · refine Or.inr ⟨item.1, item.2, if_pos hlt, mem_below_append.mpr (Or.inr ⟨rfl, hlt⟩), ?_⟩
          intro x hx
          rcases mem_below_append.mp hx with hx | ⟨rfl, -⟩
          · exact absurd (hempty ▸ hx) (Set.notMem_empty x)
          · exact le_rfl
        · refine Or.inl ⟨if_neg hlt, Set.eq_empty_of_forall_notMem fun x hx => ?_⟩
          rcases mem_below_append.mp hx with hx | ⟨-, hlt'⟩
          · exact absurd (hempty ▸ hx) (Set.notMem_empty x)
          · exact hlt hlt'
      · rw [hfold]
        by_cases hlt : item.1 < k
        · refine Or.inr ⟨item.1, item.2, if_pos hlt,
            mem_below_append.mpr (Or.inr ⟨rfl, hlt.trans hmem.2⟩), ?_⟩
          intro x hx
          rcases mem_below_append.mp hx with hx | ⟨rfl, -⟩
          · exact (Prod.Lex.toLex_lt_toLex.mpr (Or.inl hlt)).le.trans (hleast hx)
          · exact le_rfl
        · refine Or.inr ⟨k, i, if_neg hlt, mem_below_append.mpr (Or.inl hmem), ?_⟩
          intro x hx
          rcases mem_below_append.mp hx with hx | ⟨heq, -⟩
          · exact hleast hx
          · -- an equal key comes later
            rw [heq]
            have hindex : i < item.2 := hsorted.2.2 _ hmem.1 _ (List.mem_singleton_self _)
            refine (Prod.Lex.toLex_lt_toLex.mpr ?_).le
            exact (lt_or_eq_of_le (not_lt.mp hlt)).imp_right fun heq => ⟨heq, hindex⟩

/-- What the loop finds is the index of the least item. -/
theorem foldl_keepFirst_iff (hsorted : items.Pairwise fun x y => x.2 < y.2) :
    (items.foldl keepFirst (bound, none)).2 = some i ↔
      ∃ k, IsLeast (below bound items) (toLex (k, i)) := by
  rcases foldl_keepFirst bound hsorted with ⟨hfold, hempty⟩ | ⟨k, j, hfold, hleast⟩
  · rw [hfold, hempty]
    exact iff_of_false nofun fun ⟨k, hk⟩ => Set.notMem_empty _ hk.1
  · rw [hfold, Option.some.injEq]
    constructor
    · rintro rfl
      exact ⟨k, hleast⟩
    · rintro ⟨k', hleast'⟩
      exact congrArg (fun x => (ofLex x).2) (hleast.unique hleast')

omit [LinearOrder ι] in
theorem finite_below (bound : κ) (items : List (κ × ι)) : (below bound items).Finite :=
  (List.finite_toSet items).subset fun _ hx => hx.1

/-! ## Two splits -/

/-- Two parts have the same least candidates. -/
def SameLeast {α : Type*} [LinearOrder α] (s t : Set α) : Prop :=
  ∀ x, IsLeast s x ↔ IsLeast t x

/-- Two loops over items whose keys belong to the indices find the same one exactly if the least
items are the same. -/
theorem foldl_keepFirst_eq_iff {items' : List (κ × ι)}
    (hsorted : items.Pairwise fun x y => x.2 < y.2)
    (hsorted' : items'.Pairwise fun x y => x.2 < y.2)
    (hkey : ∀ x ∈ items, ∀ y ∈ items', x.2 = y.2 → x = y) :
    (items.foldl keepFirst (bound, none)).2 = (items'.foldl keepFirst (bound, none)).2 ↔
      SameLeast (below bound items) (below bound items') := by
  constructor
  · intro heq x
    constructor
    · intro hx
      obtain ⟨k, hk⟩ := (foldl_keepFirst_iff hsorted').mp
        (heq ▸ (foldl_keepFirst_iff hsorted).mpr ⟨_, hx⟩)
      have hsame : x = toLex (k, (ofLex x).2) := hkey _ hx.1.1 _ hk.1.1 rfl
      exact hsame ▸ hk
    · intro hx
      obtain ⟨k, hk⟩ := (foldl_keepFirst_iff hsorted).mp
        (heq ▸ (foldl_keepFirst_iff hsorted').mpr ⟨_, hx⟩)
      have hsame : x = toLex (k, (ofLex x).2) := (hkey _ hk.1.1 _ hx.1.1 rfl).symm
      exact hsame ▸ hk
  · intro hsame
    refine Option.ext fun i => ?_
    rw [foldl_keepFirst_iff hsorted, foldl_keepFirst_iff hsorted']
    exact exists_congr fun k => hsame _

section Splits

variable {α : Type*} [LinearOrder α] {E : Set α} {P Q : α → Prop}

theorem exists_isLeast (hE : E.Finite) {x : α} (hx : x ∈ E) (hP : P x) :
    ∃ y, IsLeast {y ∈ E | P y} y := by
  obtain ⟨y, hy, hleast⟩ := Set.exists_min_image _ id (hE.subset (Set.sep_subset E P)) ⟨x, hx, hP⟩
  exact ⟨y, hy, hleast⟩

/-- Whoever leaves a part with the same least candidate is not this candidate. -/
theorem exists_lt_of_sameLeast (hE : E.Finite) (h : SameLeast {y ∈ E | P y} {y ∈ E | Q y}) {x : α}
    (hx : x ∈ E) (hP : P x) (hQ : ¬ Q x) : ∃ y ∈ E, y < x ∧ P y := by
  obtain ⟨y, hy⟩ := exists_isLeast hE hx hP
  have hne : y ≠ x := by
    rintro rfl
    exact hQ ((h y).mp hy).1.2
  exact ⟨y, hy.1.1, lt_of_le_of_ne (hy.2 ⟨hx, hP⟩) hne, hy.1.2⟩

/-- The least candidate stays if nobody leaves or joins the part in front of the others. -/
theorem isLeast_of_settled (hE : E.Finite)
    (hleave : ∀ x ∈ E, P x → ¬ Q x → ∃ y ∈ E, y < x ∧ P y)
    (hjoin : ∀ x ∈ E, Q x → ¬ P x → ∃ y ∈ E, y < x ∧ Q y) {x : α}
    (h : IsLeast {y ∈ E | P y} x) : IsLeast {y ∈ E | Q y} x := by
  have hstays : Q x := by
    by_contra hQ
    obtain ⟨y, hy, hlt, hP⟩ := hleave x h.1.1 h.1.2 hQ
    exact (h.2 ⟨hy, hP⟩).not_gt hlt
  refine ⟨⟨h.1.1, hstays⟩, fun z hz => ?_⟩
  obtain ⟨w, hw⟩ := exists_isLeast hE h.1.1 hstays
  have hP : P w := by
    by_contra hnot
    obtain ⟨y, hy, hlt, hQ⟩ := hjoin w hw.1.1 hw.1.2 hnot
    exact (hw.2 ⟨hy, hQ⟩).not_gt hlt
  exact (h.2 ⟨hw.1.1, hP⟩).trans (hw.2 hz)

/-- Two splits have the same least candidates exactly if whoever changes sides has a lesser one on
the old side before, and a lesser one on the new side after. -/
theorem same_least_iff (hE : E.Finite) :
    SameLeast {y ∈ E | P y} {y ∈ E | Q y} ∧ SameLeast {y ∈ E | ¬ P y} {y ∈ E | ¬ Q y} ↔
      ∀ x ∈ E, ¬ (P x ↔ Q x) →
        (∃ y ∈ E, y < x ∧ (P y ↔ P x)) ∧ ∃ y ∈ E, y < x ∧ (Q y ↔ Q x) := by
  constructor
  · rintro ⟨hsame, hother⟩ x hx hchange
    by_cases hP : P x
    · have hQ : ¬ Q x := fun hQ => hchange (iff_of_true hP hQ)
      obtain ⟨y, hy, hlt, hold⟩ := exists_lt_of_sameLeast hE hsame hx hP hQ
      obtain ⟨z, hz, hlt', hnew⟩ := exists_lt_of_sameLeast hE (P := fun y => ¬ Q y)
        (Q := fun y => ¬ P y) (fun y => (hother y).symm) hx hQ (not_not.mpr hP)
      exact ⟨⟨y, hy, hlt, iff_of_true hold hP⟩, z, hz, hlt', iff_of_false hnew hQ⟩
    · have hQ : Q x := by
        by_contra hQ
        exact hchange (iff_of_false hP hQ)
      obtain ⟨y, hy, hlt, hold⟩ := exists_lt_of_sameLeast hE hother hx hP (not_not.mpr hQ)
      obtain ⟨z, hz, hlt', hnew⟩ := exists_lt_of_sameLeast hE (fun y => (hsame y).symm) hx hQ hP
      exact ⟨⟨y, hy, hlt, iff_of_false hold hP⟩, z, hz, hlt', iff_of_true hnew hQ⟩
  · intro h
    have hP : ∀ x ∈ E, P x → ¬ Q x → (∃ y ∈ E, y < x ∧ P y) ∧ ∃ y ∈ E, y < x ∧ ¬ Q y := by
      intro x hx hP hQ
      obtain ⟨⟨y, hy, hlt, hold⟩, z, hz, hlt', hnew⟩ := h x hx fun hiff => hQ (hiff.mp hP)
      exact ⟨⟨y, hy, hlt, hold.mpr hP⟩, z, hz, hlt', fun h => hQ (hnew.mp h)⟩
    have hQ : ∀ x ∈ E, Q x → ¬ P x → (∃ y ∈ E, y < x ∧ Q y) ∧ ∃ y ∈ E, y < x ∧ ¬ P y := by
      intro x hx hQ hP
      obtain ⟨⟨y, hy, hlt, hold⟩, z, hz, hlt', hnew⟩ := h x hx fun hiff => hP (hiff.mpr hQ)
      exact ⟨⟨z, hz, hlt', hnew.mpr hQ⟩, y, hy, hlt, fun h => hP (hold.mp h)⟩
    refine ⟨fun x => ⟨isLeast_of_settled hE (fun x hx h h' => (hP x hx h h').1)
        fun x hx h h' => (hQ x hx h h').1, isLeast_of_settled hE
        (fun x hx h h' => (hQ x hx h h').1) fun x hx h h' => (hP x hx h h').1⟩,
      fun x => ⟨isLeast_of_settled hE (fun x hx h h' => (hQ x hx (not_not.mp h') h).2)
        fun x hx h h' => (hP x hx (not_not.mp h') h).2, isLeast_of_settled hE
        (fun x hx h h' => (hP x hx (not_not.mp h') h).2)
        fun x hx h h' => (hQ x hx (not_not.mp h') h).2⟩⟩

end Splits

end FirstLeast
