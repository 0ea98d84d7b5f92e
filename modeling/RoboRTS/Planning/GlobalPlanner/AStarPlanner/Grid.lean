import RoboRTS.Planning.GlobalPlanner.AStarPlanner.Defs
import Mathlib.Algebra.Order.Group.Int
import Mathlib.Tactic.Ring

/-!
# The grid under the flat index

A cell is in row `i / gridmapWidth` and column `i % gridmapWidth`. `mem_getNineNeighbors` says that
the tests of `GetNineNeighbors` against the ends of the map and of the rows keep exactly the cells
around the current one, and `getMoveCost_of_adjacent` that `GetMoveCost` knows each of them. Both
hold where the indices and their sums are `int`s; `getNineNeighbors_eq` says what is returned where
the number of cells is none.
-/

namespace RoboRTS.GlobalPlanner.AStarPlanner

open Common

variable (p : AStarPlanner)

/-- The cells and those a row further have `int` indices. -/
def Fits : Prop :=
  p.cells + p.gridmapWidth < 2 ^ 31

instance : Decidable p.Fits :=
  inferInstanceAs (Decidable (_ < _))

/-- Two cells touch: they differ, and their rows and columns differ by at most one. -/
def Adjacent (i j : Nat) : Prop :=
  i ≠ j ∧
  (i / p.gridmapWidth ≤ j / p.gridmapWidth + 1 ∧ j / p.gridmapWidth ≤ i / p.gridmapWidth + 1) ∧
  (i % p.gridmapWidth ≤ j % p.gridmapWidth + 1 ∧ j % p.gridmapWidth ≤ i % p.gridmapWidth + 1)

/-- The index is that of a cell of the map that touches the cell `i`. -/
def Touches (i : Nat) (n : Int) : Prop :=
  ∃ j : Nat, n = j ∧ j < p.cells ∧ p.Adjacent i j

/-- A search may enter the cell. -/
def Accessible (i : Nat) : Prop :=
  (p.cost i).toNat < p.inaccessibleCost

instance (i : Nat) : Decidable (p.Accessible i) :=
  inferInstanceAs (Decidable (_ < _))

/-- A move within the map from a cell to an accessible one that touches it. -/
structure Move (i j : Nat) : Prop where
  source : i < p.cells
  target : j < p.cells
  adjacent : p.Adjacent i j
  accessible : p.Accessible j

instance (i j : Nat) : Decidable (p.Adjacent i j) :=
  inferInstanceAs (Decidable (_ ∧ _ ∧ _))

instance (i j : Nat) : Decidable (p.Move i j) :=
  decidable_of_iff (i < p.cells ∧ j < p.cells ∧ p.Adjacent i j ∧ p.Accessible j)
    ⟨fun h => ⟨h.1, h.2.1, h.2.2.1, h.2.2.2⟩,
      fun h => ⟨h.source, h.target, h.adjacent, h.accessible⟩⟩

variable {p}

/-! ## Conversions to `int` -/

theorem toInt_of_lt {n : Nat} (h : n < 2 ^ 31) : toInt n = n := by
  rw [toInt, Nat.mod_eq_of_lt (by omega), if_pos h]

theorem toInt_le (n : Nat) : toInt n ≤ n := by
  unfold toInt
  split_ifs <;> omega

/-- The sums of a cell in a map whose width is an `int`. -/
theorem neighborSums_isInt {i : Int} {width : Nat} (hi : 0 ≤ i) (hwidth : width < 2 ^ 31)
    (hnext : i + width + 1 < 2 ^ 31) : ∀ index ∈ neighborSums i width, IsInt index := by
  simp only [neighborSums, List.mem_cons, List.not_mem_nil, or_false, forall_eq_or_imp, forall_eq,
    IsInt]
  omega

/-! ## The tests of `GetNineNeighbors` -/

@[simp] theorem mem_pushIf {guarded : Bool} {index n : Int} :
    n ∈ pushIf guarded index ↔ guarded = true ∧ n = index := by
  cases guarded <;> simp [pushIf]

/-- The column of a cell, as the `%` of the source computes it. -/
theorem tmod_cell {width x y : Nat} {n : Int} (hx : x < width) (hn : n = (width : Int) * y + x) :
    n.tmod width = x := by
  have hy : (0 : Int) ≤ (width : Int) * y := Int.mul_nonneg (by omega) (by omega)
  rw [hn, Int.tmod_eq_emod_of_nonneg (by omega), Int.add_comm, Int.add_mul_emod_self_left]
  exact Int.emod_eq_of_lt (by omega) (by omega)

/-- The column to the right of a cell is that of another row's start at the end of a row. -/
theorem tmod_cell_succ {width x y : Nat} {n : Int} (hx : x < width)
    (hn : n = (width : Int) * y + x + 1) : n.tmod width ≠ 0 ↔ x + 1 < width := by
  by_cases hend : x + 1 < width
  · have h := tmod_cell (y := y) (n := n) hend (by omega)
    omega
  · have hnext : n = (width : Int) * (y + 1 : Nat) + (0 : Nat) := by
      have hwidth : (width : Int) = x + 1 := by omega
      rw [hn]
      push_cast
      rw [Int.mul_add]
      omega
    have h := tmod_cell (by omega) hnext
    omega

/-- The first cell of a row, and those of the rows before and after. -/
theorem row_start {width y : Nat} {a : Int} (ha : a = (width : Int) * y) :
    a + width = (width : Int) * (y + 1 : Nat) ∧
    (y = 0 ∧ a = 0 ∨ 1 ≤ y ∧ width ≤ a ∧ a - width = (width : Int) * (y - 1 : Nat)) := by
  constructor
  · rw [ha]
    push_cast
    ring
  · cases y with
    | zero => exact Or.inl ⟨rfl, by simp [ha]⟩
    | succ y =>
        have hprev : a - width = (width : Int) * y := by
          rw [ha]
          push_cast
          ring
        have hpos : (0 : Int) ≤ (width : Int) * y := Int.mul_nonneg (by omega) (by omega)
        exact Or.inr ⟨by omega, by omega, by simpa using hprev⟩

/-- The end of the map seen from the first cell of a row. -/
theorem row_end {width height y : Nat} {a : Int} (ha : a = (width : Int) * y) (hy : y < height) :
    y + 1 = height ∧ a + width = (width : Int) * height ∨
      y + 1 < height ∧ a + 2 * width ≤ (width : Int) * height := by
  obtain ⟨rest, rfl⟩ := Nat.exists_eq_add_of_lt hy
  have hsum : (width : Int) * (y + rest + 1 : Nat) = a + width + (width : Int) * rest := by
    rw [ha]
    push_cast
    ring
  rw [hsum]
  cases rest with
  | zero => exact Or.inl ⟨by omega, by simp⟩
  | succ rest =>
      have hpos : (0 : Int) ≤ (width : Int) * rest := Int.mul_nonneg (by omega) (by omega)
      refine Or.inr ⟨by omega, ?_⟩
      push_cast
      rw [Int.mul_add]
      omega

/-- `if (guarded) neighbors_index.push_back(index)`, one after the other. -/
def pushes (candidates : List (Bool × Int)) : List Int :=
  candidates.flatMap fun candidate => pushIf candidate.1 candidate.2

theorem mem_pushes {candidates : List (Bool × Int)} {n : Int} :
    n ∈ pushes candidates ↔ (true, n) ∈ candidates := by
  simp only [pushes, List.mem_flatMap, mem_pushIf, Prod.exists]
  constructor
  · rintro ⟨guarded, index, hmem, rfl, rfl⟩
    exact hmem
  · exact fun hmem => ⟨true, n, hmem, rfl, rfl⟩

/-- The cells around the one in row `y` and column `x`, `a` being the first cell of the row, in the
order in which they are pushed. -/
def around (p : AStarPlanner) (x y : Nat) (a : Int) : List (Bool × Int) :=
  [(decide (1 ≤ y), a + x - p.gridmapWidth),
    (decide (1 ≤ y ∧ 1 ≤ x), a + x - p.gridmapWidth - 1),
    (decide (1 ≤ x), a + x - 1),
    (decide (y + 1 < p.gridmapHeight ∧ 1 ≤ x), a + x + p.gridmapWidth - 1),
    (decide (y + 1 < p.gridmapHeight), a + x + p.gridmapWidth),
    (decide (y + 1 < p.gridmapHeight ∧ x + 1 < p.gridmapWidth), a + x + p.gridmapWidth + 1),
    (decide (x + 1 < p.gridmapWidth), a + x + 1),
    (decide (1 ≤ y ∧ x + 1 < p.gridmapWidth), a + x - p.gridmapWidth + 1)]

theorem filter_pushes (candidates : List (Bool × Int)) (test : Int → Bool) :
    (pushes candidates).filter test =
      pushes (candidates.map fun candidate => (candidate.1 && test candidate.2, candidate.2)) := by
  induction candidates with
  | nil => rfl
  | cons candidate candidates ih =>
      obtain ⟨guarded, index⟩ := candidate
      simp only [pushes, List.flatMap_cons, List.map_cons, List.filter_append] at ih ⊢
      rw [ih]
      cases guarded <;> cases hindex : test index <;> simp [pushIf, hindex]

/-- The guards of `GetNineNeighbors` in terms of the row and the column, where the width and the
sums are `int`s: a cell to the right or below is also compared with the number of cells. -/
theorem getNineNeighbors_cell {x y : Nat} {a : Int} (hx : x < p.gridmapWidth)
    (hy : y < p.gridmapHeight) (ha : a = (p.gridmapWidth : Int) * y)
    (hwidth : p.gridmapWidth < 2 ^ 31) (hsum : a + x + p.gridmapWidth + 1 < 2 ^ 31) :
    p.getNineNeighbors (a + x) = some ((pushes (p.around x y a)).filter fun n =>
      n < a + x ∨ n < toInt (p.gridmapWidth * p.gridmapHeight)) := by
  obtain ⟨hnext, hrow⟩ := row_start ha
  have hend := row_end ha hy
  have hcells := toInt_le (p.gridmapWidth * p.gridmapHeight)
  have hfirst : 0 ≤ a := ha ▸ Int.mul_nonneg (by omega) (by omega)
  rw [getNineNeighbors, toInt_of_lt hwidth, if_pos (neighborSums_isInt (by omega) hwidth hsum),
    filter_pushes]
  simp only [pushes, around, List.map_cons, List.map_nil, List.flatMap_cons, List.flatMap_nil,
    List.append_nil, List.append_assoc, Option.some.injEq]
  push_cast at hcells
  generalize toInt (p.gridmapWidth * p.gridmapHeight) = c at *
  generalize (p.gridmapWidth : Int) * p.gridmapHeight = number at *
  generalize hw : p.gridmapWidth = width at *
  -- each guard says which rows and columns its neighbour needs
  have gup : a + x - width ≥ 0 ↔ 1 ≤ y ∧ (a + x - width < a + x ∨ a + x - width < c) := by omega
  have gupLeft : a + x - width - 1 ≥ 0 ∧ (a + x - width - 1 + 1).tmod width ≠ 0 ↔
      (1 ≤ y ∧ 1 ≤ x) ∧ (a + x - width - 1 < a + x ∨ a + x - width - 1 < c) := by
    obtain ⟨hy0, ha0⟩ | ⟨hy1, hle, hprev⟩ := hrow
    · omega
    · rw [tmod_cell (y := y - 1) hx (by omega)]
      omega
  have gleft : a + x - 1 ≥ 0 ∧ (a + x - 1 + 1).tmod width ≠ 0 ↔
      1 ≤ x ∧ (a + x - 1 < a + x ∨ a + x - 1 < c) := by
    rw [tmod_cell (y := y) hx (by omega)]
    omega
  have gdownLeft : a + x + width - 1 < c ∧ (a + x + width - 1 + 1).tmod width ≠ 0 ↔
      (y + 1 < p.gridmapHeight ∧ 1 ≤ x) ∧ (a + x + width - 1 < a + x ∨ a + x + width - 1 < c) := by
    rw [tmod_cell (y := y + 1) hx (by omega)]
    omega
  have gdown : a + x + width < c ↔
      y + 1 < p.gridmapHeight ∧ (a + x + width < a + x ∨ a + x + width < c) := by omega
  have gdownRight : a + x + width + 1 < c ∧ (a + x + width + 1).tmod width ≠ 0 ↔
      (y + 1 < p.gridmapHeight ∧ x + 1 < width) ∧
        (a + x + width + 1 < a + x ∨ a + x + width + 1 < c) := by
    rw [tmod_cell_succ (y := y + 1) hx (by omega)]
    omega
  have gright : a + x + 1 < c ∧ (a + x + 1).tmod width ≠ 0 ↔
      x + 1 < width ∧ (a + x + 1 < a + x ∨ a + x + 1 < c) := by
    rw [tmod_cell_succ (y := y) hx (by omega)]
    omega
  have gupRight : a + x - width + 1 ≥ 0 ∧ (a + x - width + 1).tmod width ≠ 0 ↔
      (1 ≤ y ∧ x + 1 < width) ∧ (a + x - width + 1 < a + x ∨ a + x - width + 1 < c) := by
    obtain ⟨hy0, ha0⟩ | ⟨hy1, hle, hprev⟩ := hrow
    · by_cases hfit : x + 1 < width
      · omega
      · -- in the first row the cell before the end of the row is guarded by its column alone
        have hzero : a + x - width + 1 = (width : Int) * 0 + 0 := by
          rw [Int.mul_zero]
          omega
        simp only [hzero, Int.mul_zero, Int.add_zero, Int.zero_tmod]
        omega
    · rw [tmod_cell_succ (y := y - 1) hx (by omega)]
      omega
  have hguard : ∀ (q : Int) (b : Prop) [Decidable b],
      (decide b && q.tmod width != 0) = decide (b ∧ q.tmod width ≠ 0) := by
    intro q b _
    rw [Bool.decide_and, decide_not, bne]
    rfl
  simp only [hguard, gup, gupLeft, gleft, gdownLeft, gdownRight, gright, gupRight, ← Bool.decide_and]
  rw [decide_eq_decide.mpr gdown]

/-- The cells around a cell in terms of its row and its column. -/
theorem mem_around {x y : Nat} {a n : Int} :
    n ∈ pushes (p.around x y a) ↔
      1 ≤ y ∧ n = a + x - p.gridmapWidth ∨
      (1 ≤ y ∧ 1 ≤ x) ∧ n = a + x - p.gridmapWidth - 1 ∨
      1 ≤ x ∧ n = a + x - 1 ∨
      (y + 1 < p.gridmapHeight ∧ 1 ≤ x) ∧ n = a + x + p.gridmapWidth - 1 ∨
      y + 1 < p.gridmapHeight ∧ n = a + x + p.gridmapWidth ∨
      (y + 1 < p.gridmapHeight ∧ x + 1 < p.gridmapWidth) ∧ n = a + x + p.gridmapWidth + 1 ∨
      x + 1 < p.gridmapWidth ∧ n = a + x + 1 ∨
      (1 ≤ y ∧ x + 1 < p.gridmapWidth) ∧ n = a + x - p.gridmapWidth + 1 := by
  rw [mem_pushes]
  simp only [around, List.mem_cons, List.not_mem_nil, or_false, Prod.mk.injEq, eq_comm (a := true),
    decide_eq_true_eq]

/-- A cell from its row and column. -/
theorem cell_coords {width x y : Nat} (hx : x < width) :
    (width * y + x) / width = y ∧ (width * y + x) % width = x := by
  have hpos : 0 < width := by omega
  constructor
  · rw [Nat.mul_add_div hpos, Nat.div_eq_of_lt hx, Nat.add_zero]
  · rw [Nat.mul_add_mod, Nat.mod_eq_of_lt hx]

theorem cell_inMap {x y : Nat} (hx : x < p.gridmapWidth) (hy : y < p.gridmapHeight) :
    p.gridmapWidth * y + x < p.cells := by
  have hle := Nat.mul_le_mul_left p.gridmapWidth (Nat.succ_le_of_lt hy)
  rw [Nat.mul_succ] at hle
  rw [cells, Nat.mul_comm p.gridmapHeight]
  omega

theorem adjacent_cell {x y x₁ y₁ : Nat} (hx : x < p.gridmapWidth) (hx₁ : x₁ < p.gridmapWidth) :
    p.Adjacent (p.gridmapWidth * y + x) (p.gridmapWidth * y₁ + x₁) ↔
      (x ≠ x₁ ∨ y ≠ y₁) ∧ (y ≤ y₁ + 1 ∧ y₁ ≤ y + 1) ∧ (x ≤ x₁ + 1 ∧ x₁ ≤ x + 1) := by
  obtain ⟨hdiv, hmod⟩ := cell_coords (y := y) hx
  obtain ⟨hdiv₁, hmod₁⟩ := cell_coords (y := y₁) hx₁
  unfold Adjacent
  rw [hdiv, hmod, hdiv₁, hmod₁]
  refine and_congr_left fun _ => ⟨fun hne => ?_, fun hne heq => ?_⟩
  · by_cases hxx : x = x₁
    · subst hxx
      exact Or.inr fun hyy => hne (by rw [hyy])
    · exact Or.inl hxx
  · rw [heq] at hdiv hmod
    omega

/-- The row and the column of a cell of the map. -/
theorem exists_coords {i : Nat} (hi : i < p.cells) :
    ∃ x y, x < p.gridmapWidth ∧ y < p.gridmapHeight ∧ i = p.gridmapWidth * y + x := by
  rw [cells] at hi
  have hpos : 0 < p.gridmapWidth := by
    apply Nat.pos_of_ne_zero
    intro hzero
    simp [hzero] at hi
  exact ⟨i % p.gridmapWidth, i / p.gridmapWidth, Nat.mod_lt _ hpos,
    Nat.div_lt_of_lt_mul (by rwa [Nat.mul_comm]), (Nat.div_add_mod _ _).symm⟩

/-- The cells around the one in row `y` and column `x` are those of the map that touch it. -/
theorem mem_around_iff {x y : Nat} {a n : Int} (hx : x < p.gridmapWidth) (hy : y < p.gridmapHeight)
    (ha : (p.gridmapWidth : Int) * y = a) :
    n ∈ pushes (p.around x y a) ↔ p.Touches (p.gridmapWidth * y + x) n := by
  obtain ⟨hnext, hrow⟩ := row_start ha.symm
  rw [mem_around]
  constructor
  · -- the neighbour in column `x₁` of row `y₁`
    have hcell : ∀ (x₁ y₁ : Nat), x₁ < p.gridmapWidth → y₁ < p.gridmapHeight →
        n = (p.gridmapWidth : Int) * y₁ + x₁ → (x ≠ x₁ ∨ y ≠ y₁) →
        (y ≤ y₁ + 1 ∧ y₁ ≤ y + 1) ∧ (x ≤ x₁ + 1 ∧ x₁ ≤ x + 1) →
        ∃ j : Nat, n = j ∧ j < p.cells ∧ p.Adjacent (p.gridmapWidth * y + x) j := by
      intro x₁ y₁ hx₁ hy₁ hn hne hnear
      exact ⟨p.gridmapWidth * y₁ + x₁, by push_cast; exact hn, cell_inMap hx₁ hy₁,
        (adjacent_cell hx hx₁).mpr ⟨hne, hnear⟩⟩
    rintro (⟨hy1, hn⟩ | ⟨⟨hy1, hx1⟩, hn⟩ | ⟨hx1, hn⟩ | ⟨⟨hy1, hx1⟩, hn⟩ | ⟨hy1, hn⟩ |
      ⟨⟨hy1, hx1⟩, hn⟩ | ⟨hx1, hn⟩ | ⟨⟨hy1, hx1⟩, hn⟩)
    · exact hcell x (y - 1) hx (by omega) (by omega) (by omega) (by omega)
    · exact hcell (x - 1) (y - 1) (by omega) (by omega) (by omega) (by omega) (by omega)
    · exact hcell (x - 1) y (by omega) hy (by omega) (by omega) (by omega)
    · exact hcell (x - 1) (y + 1) (by omega) hy1 (by omega) (by omega) (by omega)
    · exact hcell x (y + 1) hx hy1 (by omega) (by omega) (by omega)
    · exact hcell (x + 1) (y + 1) hx1 hy1 (by omega) (by omega) (by omega)
    · exact hcell (x + 1) y hx1 hy (by omega) (by omega) (by omega)
    · exact hcell (x + 1) (y - 1) hx1 (by omega) (by omega) (by omega) (by omega)
  · rintro ⟨j, rfl, hj, hadj⟩
    obtain ⟨x₁, y₁, hx₁, hy₁, rfl⟩ := exists_coords hj
    obtain ⟨hne, ⟨hup, hdown⟩, hleft, hright⟩ := (adjacent_cell hx hx₁).mp hadj
    push_cast
    have hcol : x₁ = x ∨ x₁ = x + 1 ∨ x₁ = x - 1 ∧ 1 ≤ x := by omega
    obtain rfl | rfl | ⟨rfl, hy1⟩ : y₁ = y ∨ y₁ = y + 1 ∨ y₁ = y - 1 ∧ 1 ≤ y := by omega
    · rw [ha]
      obtain rfl | rfl | ⟨rfl, hx1⟩ := hcol
      · simp at hne
      · exact .inr (.inr (.inr (.inr (.inr (.inr (.inl ⟨hx₁, by omega⟩))))))
      · exact .inr (.inr (.inl ⟨hx1, by omega⟩))
    · rw [← hnext]
      obtain rfl | rfl | ⟨rfl, hx1⟩ := hcol
      · exact .inr (.inr (.inr (.inr (.inl ⟨hy₁, by omega⟩))))
      · exact .inr (.inr (.inr (.inr (.inr (.inl ⟨⟨hy₁, hx₁⟩, by omega⟩)))))
      · exact .inr (.inr (.inr (.inl ⟨⟨hy₁, hx1⟩, by omega⟩)))
    · have hprev : (p.gridmapWidth : Int) * (y - 1 : Nat) = a - p.gridmapWidth := by
        obtain ⟨hy0, -⟩ | ⟨-, -, hprev⟩ := hrow
        · omega
        · exact hprev.symm
      rw [hprev]
      obtain rfl | rfl | ⟨rfl, hx1⟩ := hcol
      · exact .inl ⟨hy1, by omega⟩
      · exact .inr (.inr (.inr (.inr (.inr (.inr (.inr ⟨⟨hy1, hx₁⟩, by omega⟩))))))
      · exact .inr (.inl ⟨⟨hy1, hx1⟩, by omega⟩)

theorem nodup_pushes {candidates : List (Bool × Int)}
    (h : candidates.Pairwise fun s t => s.1 = true → t.1 = true → s.2 ≠ t.2) :
    (pushes candidates).Nodup := by
  induction candidates with
  | nil => exact List.nodup_nil
  | cons candidate candidates ih =>
      obtain ⟨hfirst, hrest⟩ := List.pairwise_cons.mp h
      obtain ⟨guarded, index⟩ := candidate
      rw [pushes, List.flatMap_cons]
      refine List.nodup_append.mpr ⟨?_, ih hrest, ?_⟩
      · cases guarded
        · exact List.nodup_nil
        · exact List.pairwise_singleton _ index
      · intro n hn n' hn'
        obtain ⟨hguarded, rfl⟩ := mem_pushIf.mp hn
        exact hfirst _ (mem_pushes.mp hn') hguarded rfl

/-- No two candidates of a cell that pass their guards have the same index. -/
theorem around_pairwise {x : Nat} (hx : x < p.gridmapWidth) (y : Nat) (a : Int) :
    (p.around x y a).Pairwise fun s t => s.1 = true → t.1 = true → s.2 ≠ t.2 := by
  simp only [around, List.pairwise_cons, List.mem_cons, List.not_mem_nil, or_false,
    forall_eq_or_imp, forall_eq, decide_eq_true_eq, List.Pairwise.nil, false_imp_iff, implies_true,
    and_true]
  omega

/-- The cells of the map that touch the current one, once each. `GetNineNeighbors` returns those of
them that come before the current one or before the number of cells. -/
theorem getNineNeighbors_eq {i : Nat} (hi : i < p.cells) (hwidth : p.gridmapWidth < 2 ^ 31)
    (hsum : i + p.gridmapWidth + 1 < 2 ^ 31) :
    ∃ touching : List Int, (∀ n, n ∈ touching ↔ p.Touches i n) ∧ touching.Nodup ∧
      p.getNineNeighbors i = some (touching.filter fun n : Int =>
        n < i ∨ n < toInt (p.gridmapWidth * p.gridmapHeight)) := by
  obtain ⟨x, y, hx, hy, rfl⟩ := exists_coords hi
  generalize ha : (p.gridmapWidth : Int) * y = a
  have hcast : ((p.gridmapWidth * y + x : Nat) : Int) = a + x := by
    push_cast
    rw [ha]
  refine ⟨pushes (p.around x y a), fun n => mem_around_iff hx hy ha,
    nodup_pushes (around_pairwise hx y a), ?_⟩
  rw [hcast]
  exact getNineNeighbors_cell hx hy ha.symm hwidth (by omega)

/-- Where the cells have `int` indices, `GetNineNeighbors` returns exactly the cells of the map that
touch the current one. -/
theorem getNineNeighbors_of_fits {i : Nat} (hfits : p.Fits) (hi : i < p.cells) :
    ∃ neighborsIndex, p.getNineNeighbors i = some neighborsIndex ∧
      ∀ n, n ∈ neighborsIndex ↔ p.Touches i n := by
  unfold Fits at hfits
  obtain ⟨touching, hmem, -, hneighbors⟩ := getNineNeighbors_eq hi (by omega) (by omega)
  refine ⟨_, hneighbors, fun n => ?_⟩
  rw [List.mem_filter, hmem]
  refine and_iff_left_of_imp fun hcell => ?_
  obtain ⟨j, rfl, hj, -⟩ := hcell
  have hcells : p.gridmapWidth * p.gridmapHeight = p.cells := Nat.mul_comm _ _
  rw [hcells, toInt_of_lt (by omega)]
  exact decide_eq_true (Or.inr (by omega))

theorem gridmapWidth_pos {i : Nat} (hi : i < p.cells) : 0 < p.gridmapWidth := by
  obtain ⟨x, y, hx, -, -⟩ := exists_coords hi
  exact Nat.zero_lt_of_lt hx

/-- The cells are in one row or in one column. -/
def Straight (p : AStarPlanner) (i j : Nat) : Prop :=
  i / p.gridmapWidth = j / p.gridmapWidth ∨ i % p.gridmapWidth = j % p.gridmapWidth

instance (i j : Nat) : Decidable (p.Straight i j) :=
  inferInstanceAs (Decidable (_ ∨ _))

/-- The distance of the indices of two cells that touch. -/
theorem natAbs_of_adjacent {i j : Nat} (hi : i < p.cells) (hj : j < p.cells)
    (hadj : p.Adjacent i j) :
    p.Straight i j ∧ (((j : Int) - i).natAbs = 1 ∨ ((j : Int) - i).natAbs = p.gridmapWidth) ∨
    ¬ p.Straight i j ∧ (((j : Int) - i).natAbs = p.gridmapWidth + 1 ∨
      ((j : Int) - i).natAbs = p.gridmapWidth - 1) := by
  obtain ⟨x, y, hx, hy, rfl⟩ := exists_coords hi
  obtain ⟨x₁, y₁, hx₁, hy₁, rfl⟩ := exists_coords hj
  obtain ⟨hne, ⟨hup, hdown⟩, hleft, hright⟩ := (adjacent_cell hx hx₁).mp hadj
  have hstraight : p.Straight (p.gridmapWidth * y + x) (p.gridmapWidth * y₁ + x₁) ↔
      y = y₁ ∨ x = x₁ := by
    unfold Straight
    rw [(cell_coords hx).1, (cell_coords hx).2, (cell_coords hx₁).1, (cell_coords hx₁).2]
  rw [hstraight]
  obtain rfl | rfl | rfl : y₁ = y ∨ y₁ = y + 1 ∨ y = y₁ + 1 := by omega
  · omega
  · rw [Nat.mul_succ]
    omega
  · rw [Nat.mul_succ]
    omega

/-- The distances that `GetMoveCost` tells apart, where they are `int`s. -/
theorem getMoveCost_eq (hpos : 0 < p.gridmapWidth) (hwidth : p.gridmapWidth + 1 < 2 ^ 31)
    (currentIndex neighborIndex moveCost : Int) :
    p.getMoveCost currentIndex neighborIndex moveCost =
      if (neighborIndex - currentIndex).natAbs = 1 ∨
          (neighborIndex - currentIndex).natAbs = p.gridmapWidth then (.OK, 10)
      else if (neighborIndex - currentIndex).natAbs = p.gridmapWidth + 1 ∨
          (neighborIndex - currentIndex).natAbs = p.gridmapWidth - 1 then (.OK, 14)
      else (⟨.GP_MOVE_COST_ERROR,
        "Move cost can't be calculated cause current neighbor index is not accessible"⟩,
        moveCost) := by
  have hbefore : toInt (p.gridmapWidth + 2 ^ 32 - 1) = (p.gridmapWidth - 1 : Nat) := by
    unfold toInt
    split_ifs <;> omega
  rw [getMoveCost, toInt_of_lt (by omega), toInt_of_lt hwidth, hbefore]
  simp only [Int.natCast_inj, Nat.cast_eq_one]

/-- `GetMoveCost` has a cost for each neighbour, whatever `move_cost` was. -/
theorem getMoveCost_of_adjacent {i j : Nat} (hwidth : p.gridmapWidth + 1 < 2 ^ 31)
    (hi : i < p.cells) (hj : j < p.cells) (hadj : p.Adjacent i j) :
    ∃ c : Int, (c = 10 ∨ c = 14) ∧ ∀ moveCost, p.getMoveCost i j moveCost = (.OK, c) := by
  simp only [getMoveCost_eq (gridmapWidth_pos hi) hwidth]
  by_cases hstraight : ((j : Int) - i).natAbs = 1 ∨ ((j : Int) - i).natAbs = p.gridmapWidth
  · exact ⟨10, Or.inl rfl, fun _ => by rw [if_pos hstraight]⟩
  · have hdiagonal : ((j : Int) - i).natAbs = p.gridmapWidth + 1 ∨
        ((j : Int) - i).natAbs = p.gridmapWidth - 1 := by
      cases natAbs_of_adjacent hi hj hadj with
      | inl h => exact absurd h.2 hstraight
      | inr h => exact h.2
    exact ⟨14, Or.inr rfl, fun _ => by rw [if_neg hstraight, if_pos hdiagonal]⟩

end RoboRTS.GlobalPlanner.AStarPlanner
