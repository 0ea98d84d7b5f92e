import RoboRTS.Costmap.Outline
import RoboRTS.Lib.GnomeSort
import Mathlib.Tactic.Linarith

/-!
# Filling a polygon

`FillConvexCells` sorts the outline by columns and scans it column by column, while it appends the
cells between the ends of a column to the vector it is reading. The scan stays in step as the
appended cells belong to columns it has passed, and as each column has two cells of the outline at
least (`fillColumns_spec`). The vector then holds, in each column of the outline, the cells between
its lowest and its highest one (`fillConvexCells_columns`).
-/

namespace RoboRTS.Costmap

open NearestSite

variable {g : Geometry} {hypot : Rat → Rat → Rat} {a b c lo hi : Cell} {cells polygon : List Cell}
  {n x i : Nat}

/-- The filling loop, undefined where it reads behind the end of the vector. -/
def fillColumnsChecked : Nat → Nat → Nat → List Cell → Option (List Cell)
  | 0, _, _, cells => some cells
  | n + 1, x, i, cells =>
      if i ≥ cells.length - 1 then some cells
      else do
        let a ← cells[i]?
        let b ← cells[i + 1]?
        let ends := if a.2 < b.2 then (a, b) else (b, a)
        let column := columnEnds x (cells.drop (i + 2)) (i + 2) ends.1 ends.2
        let minPt := column.2.1
        let maxPt := column.2.2
        fillColumnsChecked n (x + 1) column.1
          (cells ++ (List.range' minPt.2 (maxPt.2 - minPt.2)).map fun y => (x, y))

/-- `FillConvexCells`, undefined where it reads behind the end of the vector and when `fuel` tests
do not end its sorting loop. -/
def Geometry.fillConvexCellsChecked (g : Geometry) (fuel : Nat) (hypot : Rat → Rat → Rat)
    (polygon : List Cell) : Option (List Cell) :=
  if polygon.length < 3 then some []
  else
    let cells := g.getConvexEdge hypot polygon
    -- `polygon_cells.size() - 1` of an empty vector is the greatest number
    if cells = [] then none
    else do
      let cells ← GnomeSort.loop Prod.fst fuel 0 cells
      let first ← cells.head?
      let last ← cells.getLast?
      fillColumnsChecked (last.1 + 1 - first.1) first.1 0 cells

/-! ## Accesses -/

theorem fillColumnsChecked_eq (h : cells ≠ []) :
    fillColumnsChecked n x i cells = some (fillColumns n x i cells) := by
  induction n generalizing x i cells with
  | zero => rfl
  | succ n ih =>
      have hpos := List.length_pos_iff.mpr h
      unfold fillColumnsChecked fillColumns
      by_cases hend : i ≥ cells.length - 1
      · rw [if_pos hend, List.getElem?_eq_none (show cells.length ≤ i + 1 by omega)]
        cases cells[i]? <;> rfl
      · rw [if_neg hend, List.getElem?_eq_getElem (show i < cells.length by omega),
          List.getElem?_eq_getElem (show i + 1 < cells.length by omega)]
        exact ih (List.append_ne_nil_of_left_ne_nil h _)

/-- The sorting loop, where it ends. -/
theorem sortCells_eq {fuel : Nat} {sorted : List Cell}
    (h : GnomeSort.loop Prod.fst fuel i cells = some sorted) : sortCells fuel i cells = sorted := by
  induction fuel generalizing i cells with
  | zero => cases h
  | succ fuel ih =>
      unfold GnomeSort.loop at h
      unfold sortCells
      split at h
      case h_1 a b ha hb =>
        rw [ha, hb]
        dsimp only
        by_cases hswap : a.1 > b.1
        · rw [if_pos hswap] at h ⊢
          exact ih h
        · rw [if_neg hswap] at h ⊢
          exact ih h
      case h_2 hnone =>
        cases h
        split
        case h_1 a b ha hb => exact absurd hb (hnone a b ha)
        case h_2 => rfl

/-! ## Columns -/

/-- The cells of a column move its ends to the lowest and the highest of them. -/
theorem columnEnds_spec (i : Nat) {column rest : List Cell} (hcolumn : ∀ d ∈ column, d.1 = x)
    (hrest : ∀ d ∈ rest, d.1 ≠ x) (horder : lo.2 ≤ hi.2) :
    ∃ lo' hi', columnEnds x (column ++ rest) i lo hi = (i + column.length, lo', hi') ∧
      (lo' ∈ lo :: hi :: column ∧ hi' ∈ lo :: hi :: column) ∧
      ∀ d ∈ lo :: hi :: column, lo'.2 ≤ d.2 ∧ d.2 ≤ hi'.2 := by
  induction column generalizing i lo hi with
  | nil =>
      refine ⟨lo, hi, ?_, by simp, by simp [horder]⟩
      cases rest with
      | nil => rfl
      | cons d rest => exact if_neg (hrest d List.mem_cons_self)
  | cons d column ih =>
      have hfirst := hcolumn d List.mem_cons_self
      have htail := fun e he => hcolumn e (List.mem_cons_of_mem d he)
      rw [List.cons_append, columnEnds, if_pos hfirst, List.length_cons, Nat.add_comm column.length,
        ← Nat.add_assoc]
      by_cases hbelow : d.2 < lo.2
      · obtain ⟨lo', hi', heq, hmem, hbounds⟩ := ih (i + 1) htail
          (show d.2 ≤ hi.2 by omega)
        rw [if_pos hbelow]
        refine ⟨lo', hi', heq, by grind, fun e he => ?_⟩
        have hd := hbounds d (by simp)
        have hhi := hbounds hi (by simp)
        grind
      · by_cases habove : d.2 > hi.2
        · obtain ⟨lo', hi', heq, hmem, hbounds⟩ := ih (i + 1) htail
            (show lo.2 ≤ d.2 by omega)
          rw [if_neg hbelow, if_pos habove]
          refine ⟨lo', hi', heq, by grind, fun e he => ?_⟩
          have hd := hbounds d (by simp)
          have hlo := hbounds lo (by simp)
          grind
        · obtain ⟨lo', hi', heq, hmem, hbounds⟩ := ih (i + 1) htail horder
          rw [if_neg hbelow, if_neg habove]
          refine ⟨lo', hi', heq, by grind, fun e he => ?_⟩
          have hlo := hbounds lo (by simp)
          have hhi := hbounds hi (by simp)
          grind

/-- An ordered list begins with the cells of its first column. -/
theorem exists_column_append (hsorted : cells.Pairwise fun a b => a.1 ≤ b.1)
    (hlow : ∀ d ∈ cells, x ≤ d.1) :
    ∃ column rest, cells = column ++ rest ∧ (∀ d ∈ column, d.1 = x) ∧ ∀ d ∈ rest, x < d.1 := by
  induction cells with
  | nil => exact ⟨[], [], rfl, by simp, by simp⟩
  | cons c cells ih =>
      obtain ⟨hfirst, htail⟩ := List.pairwise_cons.mp hsorted
      by_cases hc : c.1 = x
      · obtain ⟨column, rest, rfl, hcolumn, hrest⟩ :=
          ih htail fun d hd => hlow d (List.mem_cons_of_mem c hd)
        exact ⟨c :: column, rest, rfl, List.forall_mem_cons.mpr ⟨hc, hcolumn⟩, hrest⟩
      · have hlt : x < c.1 := Nat.lt_of_le_of_ne (hlow c List.mem_cons_self) (Ne.symm hc)
        refine ⟨[], c :: cells, rfl, by simp, List.forall_mem_cons.mpr ⟨hlt, fun d hd => ?_⟩⟩
        exact Nat.lt_of_lt_of_le hlt (hfirst d hd)

/-- The scan of a column adds the cells between its lowest and its highest one, and ends at the
next column. -/
theorem fillColumns_step {front column rest back : List Cell} (hindex : front.length = i)
    (hcolumn : ∀ d ∈ column, d.1 = x) (htwo : 2 ≤ column.length)
    (hbehind : ∀ d ∈ rest ++ back, d.1 ≠ x) :
    ∃ added, fillColumns (n + 1) x i (front ++ (column ++ rest ++ back)) =
        fillColumns n (x + 1) (i + column.length) (front ++ (column ++ rest ++ back) ++ added) ∧
      ∀ c, c ∈ added ↔ c.1 = x ∧ ∃ lo ∈ column, ∃ hi ∈ column, lo.2 ≤ c.2 ∧ c.2 < hi.2 := by
  obtain ⟨a, b, tail, rfl⟩ : ∃ a b tail, column = a :: b :: tail := by
    match column with
    | [] | [_] => exact absurd htwo (by simp)
    | a :: b :: tail => exact ⟨a, b, tail, rfl⟩
  have hfirst : (front ++ (a :: b :: tail ++ rest ++ back))[i]? = some a := by
    rw [← hindex]
    simp
  have hsecond : (front ++ (a :: b :: tail ++ rest ++ back))[i + 1]? = some b := by
    rw [← hindex, List.getElem?_append_right (by omega), Nat.add_sub_cancel_left]
    rfl
  have hdrop : (front ++ (a :: b :: tail ++ rest ++ back)).drop (i + 2) =
      tail ++ (rest ++ back) := by
    rw [← hindex, List.drop_append, List.drop_of_length_le (by omega), Nat.add_sub_cancel_left,
      List.nil_append, List.append_assoc]
    rfl
  -- the first two cells give the ends of the column in the right order
  obtain ⟨lo, hi, hends, horder, hsame⟩ : ∃ lo hi : Cell,
      (if a.2 < b.2 then (a, b) else (b, a)) = (lo, hi) ∧ lo.2 ≤ hi.2 ∧
        ∀ d, d ∈ lo :: hi :: tail ↔ d ∈ a :: b :: tail := by
    by_cases hlt : a.2 < b.2
    · exact ⟨a, b, if_pos hlt, Nat.le_of_lt hlt, fun d => Iff.rfl⟩
    · exact ⟨b, a, if_neg hlt, Nat.not_lt.mp hlt, fun d => (List.Perm.swap a b tail).mem_iff⟩
  obtain ⟨lo', hi', hcolumnEnds, hmem, hbounds⟩ := columnEnds_spec (i + 2)
    (fun d hd => hcolumn d (List.mem_cons_of_mem a (List.mem_cons_of_mem b hd))) hbehind horder
  simp only [hsame] at hmem hbounds
  refine ⟨(List.range' lo'.2 (hi'.2 - lo'.2)).map fun y => (x, y), ?_, ?_⟩
  · rw [fillColumns, hfirst, hsecond, hdrop]
    dsimp only
    rw [hends, hcolumnEnds, List.length_cons, List.length_cons, Nat.add_assoc, Nat.add_comm 2]
  · rintro ⟨cx, cy⟩
    have hle : lo'.2 ≤ hi'.2 := (hbounds lo' hmem.1).2
    simp only [List.mem_map, List.mem_range'_1, Prod.mk.injEq]
    constructor
    · rintro ⟨y, hy, rfl, rfl⟩
      exact ⟨rfl, lo', hmem.1, hi', hmem.2, hy.1, by omega⟩
    · rintro ⟨rfl, d, hd, e, he, hlow, hhigh⟩
      have hd := (hbounds d hd).1
      have he := (hbounds e he).2
      exact ⟨cy, by omega, rfl, rfl⟩

/-- What the filling loop adds from column `x` on: the cells between those of a column. -/
theorem fillColumns_spec {front back : List Cell} (hindex : front.length = i)
    (hsorted : cells.Pairwise fun a b => a.1 ≤ b.1) (hlow : ∀ d ∈ cells, x ≤ d.1)
    (hhigh : ∀ d ∈ cells, d.1 < x + n) (hback : ∀ d ∈ back, d.1 < x)
    (htwo : ∀ y, x ≤ y → y < x + n → 2 ≤ cells.countP fun d => d.1 = y) :
    ∃ filled, fillColumns n x i (front ++ (cells ++ back)) = front ++ (cells ++ back) ++ filled ∧
      ∀ c, c ∈ filled ↔
        ∃ lo ∈ cells, ∃ hi ∈ cells, lo.1 = c.1 ∧ hi.1 = c.1 ∧ lo.2 ≤ c.2 ∧ c.2 < hi.2 := by
  induction n generalizing x i cells front back with
  | zero =>
      refine ⟨[], (List.append_nil _).symm, fun c => iff_of_false List.not_mem_nil ?_⟩
      rintro ⟨lo, hlo, -⟩
      exact absurd (hhigh lo hlo) (Nat.not_lt.mpr (hlow lo hlo))
  | succ n ih =>
      obtain ⟨column, rest, rfl, hcolumn, hrest⟩ := exists_column_append hsorted hlow
      have hlength : 2 ≤ column.length := by
        have hnone : (rest.countP fun d => d.1 = x) = 0 :=
          List.countP_eq_zero.mpr fun d hd => by simpa using (hrest d hd).ne'
        have htwo := htwo x (by omega) (by omega)
        rw [List.countP_append, hnone] at htwo
        exact htwo.trans List.countP_le_length
      have hbehind : ∀ d ∈ rest ++ back, d.1 ≠ x := by
        intro d hd
        rcases List.mem_append.mp hd with hd | hd
        · exact (hrest d hd).ne'
        · exact (hback d hd).ne
      obtain ⟨added, hstep, hadded⟩ := fillColumns_step (n := n) hindex hcolumn hlength hbehind
      -- the added cells are behind the scan
      have hback' : ∀ d ∈ back ++ added, d.1 < x + 1 := by
        intro d hd
        rcases List.mem_append.mp hd with hd | hd
        · exact Nat.lt_succ_of_lt (hback d hd)
        · exact Nat.lt_succ_of_le ((hadded d).mp hd).1.le
      have htwo' : ∀ y, x + 1 ≤ y → y < x + 1 + n → 2 ≤ rest.countP fun d => d.1 = y := by
        intro y hy hyn
        have hnone : (column.countP fun d => d.1 = y) = 0 :=
          List.countP_eq_zero.mpr fun d hd => by have := hcolumn d hd; simp; omega
        have htwo := htwo y (by omega) (by omega)
        rwa [List.countP_append, hnone, Nat.zero_add] at htwo
      have hindex' : (front ++ column).length = i + column.length := by
        rw [List.length_append, hindex]
      have hrest' : ∀ d ∈ rest, x + 1 ≤ d.1 := hrest
      obtain ⟨filled, hfilled, hspec⟩ := ih hindex' (List.pairwise_append.mp hsorted).2.1 hrest'
        (fun d hd => by have := hhigh d (List.mem_append_right _ hd); omega) hback' htwo'
      refine ⟨added ++ filled, ?_, fun c => ?_⟩
      · rw [hstep]
        simp only [List.append_assoc] at hfilled ⊢
        exact hfilled
      · rw [List.mem_append, hadded, hspec]
        constructor
        · rintro (⟨hx, d, hd, e, he, hrows⟩ | ⟨d, hd, e, he, hcells⟩)
          · exact ⟨d, List.mem_append_left _ hd, e, List.mem_append_left _ he,
              (hcolumn d hd).trans hx.symm, (hcolumn e he).trans hx.symm, hrows⟩
          · exact ⟨d, List.mem_append_right _ hd, e, List.mem_append_right _ he, hcells⟩
        · rintro ⟨d, hd, e, he, hdx, hex, hrows⟩
          rcases List.mem_append.mp hd with hd | hd
          · have hx : c.1 = x := hdx.symm.trans (hcolumn d hd)
            rcases List.mem_append.mp he with he | he
            · exact Or.inl ⟨hx, d, hd, e, he, hrows⟩
            · exact absurd (hex.trans hx) (hrest e he).ne'
          · have hx : x < c.1 := hdx ▸ hrest d hd
            rcases List.mem_append.mp he with he | he
            · exact absurd (hex.symm.trans (hcolumn e he)) hx.ne'
            · exact Or.inr ⟨d, hd, e, he, hdx, hex, hrows⟩

/-! ## The filled polygon -/

/-- The sorted outline, scanned from its first column to its last one. -/
theorem fillSorted_spec (hsorted : cells.Pairwise fun a b => a.1 ≤ b.1)
    (htwo : ∀ y, (∃ d ∈ cells, d.1 ≤ y) → (∃ d ∈ cells, y ≤ d.1) →
      2 ≤ cells.countP fun d => d.1 = y) {first last : Cell} (hfirst : cells.head? = some first)
    (hlast : cells.getLast? = some last) :
    c ∈ fillColumns (last.1 + 1 - first.1) first.1 0 cells ↔
      ∃ lo ∈ cells, ∃ hi ∈ cells, lo.1 = c.1 ∧ hi.1 = c.1 ∧ lo.2 ≤ c.2 ∧ c.2 ≤ hi.2 := by
  have hlow : ∀ d ∈ cells, first.1 ≤ d.1 := by
    obtain ⟨tail, rfl⟩ := List.head?_eq_some_iff.mp hfirst
    exact List.forall_mem_cons.mpr ⟨Nat.le_refl _, (List.pairwise_cons.mp hsorted).1⟩
  have hhigh : ∀ d ∈ cells, d.1 ≤ last.1 := by
    obtain ⟨init, rfl⟩ := List.getLast?_eq_some_iff.mp hlast
    intro d hd
    rcases List.mem_append.mp hd with hd | hd
    · exact (List.pairwise_append.mp hsorted).2.2 d hd last (List.mem_singleton_self last)
    · rw [List.mem_singleton.mp hd]
  have hfirstMem := List.mem_of_head? hfirst
  have hlastMem := List.mem_of_getLast? hlast
  -- nothing is in front of the first column, and nothing behind the outline
  obtain ⟨filled, hfilled, hspec⟩ := fillColumns_spec (show ([] : List Cell).length = 0 from rfl)
    hsorted hlow
    (fun d hd => show d.1 < first.1 + (last.1 + 1 - first.1) by
      have := hlow d hd; have := hhigh d hd; omega)
    (show ∀ d ∈ ([] : List Cell), d.1 < first.1 by simp)
    (fun y hy hyn => htwo y ⟨first, hfirstMem, hy⟩ ⟨last, hlastMem, by omega⟩)
  rw [List.nil_append, List.append_nil] at hfilled
  rw [hfilled, List.mem_append, hspec]
  constructor
  · rintro (hc | ⟨d, hd, e, he, hdx, hex, hle, hlt⟩)
    · exact ⟨c, hc, c, hc, rfl, rfl, Nat.le_refl _, Nat.le_refl _⟩
    · exact ⟨d, hd, e, he, hdx, hex, hle, hlt.le⟩
  · rintro ⟨d, hd, e, he, hdx, hex, hle, hle'⟩
    -- the highest cell of a column is not added, it is one of the outline
    rcases Nat.lt_or_eq_of_le hle' with hlt | heq
    · exact Or.inr ⟨d, hd, e, he, hdx, hex, hle, hlt⟩
    · exact Or.inl (Prod.ext hex heq.symm ▸ he)

/-- Filling a polygon of at least three cells of a map ends with all accesses in the vector. Each
column between two of the outline has a cell of the outline, and the filled cells of a column are
those between two cells that the outline has there. -/
theorem fillConvexCells_columns (hhypot : ∀ x y, 0 ≤ hypot x y ∧ hypot x y ≤ |x| + |y|)
    (hsizeX : g.sizeX ≤ 2 ^ 31) (hsizeY : g.sizeY ≤ 2 ^ 31) (hlength : 3 ≤ polygon.length)
    (hpolygon : ∀ v ∈ polygon, v.1 < g.sizeX ∧ v.2 < g.sizeY) :
    (∃ fuel, g.fillConvexCellsChecked fuel hypot polygon =
      some (g.fillConvexCells hypot polygon)) ∧
    (∀ x, (∃ a, g.Outline hypot polygon a ∧ a.1 ≤ x) →
      (∃ b, g.Outline hypot polygon b ∧ x ≤ b.1) → ∃ c, g.Outline hypot polygon c ∧ c.1 = x) ∧
    ∀ c, c ∈ g.fillConvexCells hypot polygon ↔
      ∃ lo hi, g.Outline hypot polygon lo ∧ g.Outline hypot polygon hi ∧
        lo.1 = c.1 ∧ hi.1 = c.1 ∧ lo.2 ≤ c.2 ∧ c.2 ≤ hi.2 := by
  have hne : polygon ≠ [] := List.length_pos_iff.mp (by omega)
  have htwo : ∀ y, (∃ d ∈ g.getConvexEdge hypot polygon, d.1 ≤ y) →
      (∃ d ∈ g.getConvexEdge hypot polygon, y ≤ d.1) →
        2 ≤ (g.getConvexEdge hypot polygon).countP fun d => d.1 = y :=
    fun y hlow hhigh => two_le_countP hhypot hsizeX hsizeY (by omega) hpolygon hlow hhigh
  have hcells : g.getConvexEdge hypot polygon ≠ [] := by
    obtain ⟨c, hc, -⟩ := exists_column hhypot hsizeX hsizeY (hpolygon _ (vertex_mem hne 0))
      (hpolygon _ (vertex_mem hne (0 + 1))) (min_le_left _ _) (le_max_left _ _)
    exact List.ne_nil_of_mem ((mem_getConvexEdge hne).mpr ⟨0, by omega, hc⟩)
  obtain ⟨sorted, hloop, hperm, hsorted⟩ := GnomeSort.loop_total Prod.fst hcells
  have hsortedNe : sorted ≠ [] := by
    rintro rfl
    exact hcells hperm.nil_eq.symm
  obtain ⟨first, hfirst⟩ : ∃ first, sorted.head? = some first :=
    ⟨_, List.head?_eq_some_head hsortedNe⟩
  obtain ⟨last, hlast⟩ : ∃ last, sorted.getLast? = some last :=
    ⟨_, List.getLast?_eq_some_getLast hsortedNe⟩
  have hfill : g.fillConvexCells hypot polygon =
      fillColumns (last.1 + 1 - first.1) first.1 0 sorted := by
    unfold Geometry.fillConvexCells
    dsimp only
    rw [if_neg (by omega), sortCells_eq hloop, hfirst, hlast]
  obtain ⟨fuel, hends⟩ : ∃ fuel,
      GnomeSort.loop Prod.fst fuel 0 (g.getConvexEdge hypot polygon) = some sorted := ⟨_, hloop⟩
  refine ⟨⟨fuel, ?_⟩, ?_, fun c => ?_⟩
  · rw [hfill, Geometry.fillConvexCellsChecked, if_neg (by omega), if_neg hcells, hends]
    show (do
      let first ← sorted.head?
      let last ← sorted.getLast?
      fillColumnsChecked (last.1 + 1 - first.1) first.1 0 sorted) = _
    rw [hfirst, hlast]
    exact fillColumnsChecked_eq hsortedNe
  · rintro x ⟨a, ha, hle⟩ ⟨b, hb, hle'⟩
    have hcount := htwo x ⟨a, (mem_getConvexEdge hne).mpr ha, hle⟩
      ⟨b, (mem_getConvexEdge hne).mpr hb, hle'⟩
    obtain ⟨c, hc, hcx⟩ := List.countP_pos_iff.mp (Nat.lt_of_lt_of_le Nat.zero_lt_two hcount)
    exact ⟨c, (mem_getConvexEdge hne).mp hc, of_decide_eq_true hcx⟩
  · have hspec := fillSorted_spec (c := c) hsorted (fun y hlow hhigh => by
      simp only [hperm.mem_iff] at hlow hhigh
      rw [hperm.countP_eq]
      exact htwo y hlow hhigh) hfirst hlast
    simp only [hperm.mem_iff, mem_getConvexEdge hne] at hspec
    rw [hfill, hspec]
    constructor
    · rintro ⟨lo, hlo, hi, hhi, hrows⟩
      exact ⟨lo, hi, hlo, hhi, hrows⟩
    · rintro ⟨lo, hi, hlo, hhi, hrows⟩
      exact ⟨lo, hlo, hi, hhi, hrows⟩

/-- The length of the edges of a triangle with sides of three, four and five cells. -/
def triangleHypot (x y : Rat) : Rat :=
  max |x| |y| + min |x| |y| / 3

theorem triangleHypot_bounds (x y : Rat) :
    0 ≤ triangleHypot x y ∧ triangleHypot x y ≤ |x| + |y| := by
  have hmin : 0 ≤ min |x| |y| := le_min (abs_nonneg x) (abs_nonneg y)
  have hmax : 0 ≤ max |x| |y| := le_max_of_le_left (abs_nonneg x)
  rw [triangleHypot, ← max_add_min |x| |y|]
  exact ⟨by linarith, by linarith⟩

/-- The cell inside a triangle with sides of three, four and five cells is filled. -/
theorem fillConvexCells_triangle : triangleHypot (-4) (-3) = 5 ∧
    (3, 1) ∈ Geometry.fillConvexCells ⟨5, 4, 1, 0, 0, by decide⟩ triangleHypot
      [(0, 0), (4, 0), (4, 3)] :=
  ⟨by decide +kernel, ((fillConvexCells_columns (g := ⟨5, 4, 1, 0, 0, by decide⟩)
    triangleHypot_bounds (by decide) (by decide) (by decide) (by decide)).2.2 (3, 1)).mpr
      ⟨(3, 0), (3, 2), ⟨0, by decide, by decide +kernel⟩, ⟨2, by decide, by decide +kernel⟩,
        by decide⟩⟩

end RoboRTS.Costmap
