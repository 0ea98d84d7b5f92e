import RoboRTS.Planning.GlobalPlanner.AStarPlanner.Grid

/-!
# The neighbours and the costs of the moves

`GetNineNeighbors` compares a cell to the right or below with the number of cells converted to an
`int`, so it enumerates the cells around the current one exactly where all of them come before that
number (`Counted`). `GetMoveCost` tells the moves apart by the distance of the indices. In a map of
two columns a diagonal move to the next column of the row above, or to the one before of the row
below, changes the index by one, as a move along the row does (`priced_iff`).
-/

namespace RoboRTS.GlobalPlanner.AStarPlanner

open Common

variable {p : AStarPlanner} {i j : Nat}

/-- The cells around a cell are enumerated once each, and nothing else is; the move to each of them
has the cost of a straight or of a diagonal move. -/
structure Priced (p : AStarPlanner) (i : Nat) : Prop where
  neighbors : ∃ neighborsIndex, p.getNineNeighbors i = some neighborsIndex ∧
    neighborsIndex.Nodup ∧ ∀ n, n ∈ neighborsIndex ↔ p.Touches i n
  moveCost : ∀ j < p.cells, p.Adjacent i j → ∀ moveCost,
    p.getMoveCost i j moveCost = (.OK, if p.Straight i j then 10 else 14)

/-! ## Enumeration -/

/-- The largest sum is an `int`, and the cells around that come after the current one come before
the number of cells that `GetNineNeighbors` compares them with. -/
structure Counted (p : AStarPlanner) (i : Nat) : Prop where
  sum : i + p.gridmapWidth + 1 < 2 ^ 31
  below : ∀ j < p.cells, p.Adjacent i j → i < j →
    (j : Int) < toInt (p.gridmapWidth * p.gridmapHeight)

/-- Every cell is counted in a map that has an `int` index for each cell and one row more. -/
theorem counted_of_fits (hfits : p.Fits) (hi : i < p.cells) : Counted p i := by
  unfold Fits at hfits
  have hcells : p.gridmapWidth * p.gridmapHeight = p.cells := Nat.mul_comm _ _
  refine ⟨by omega, fun j hj _ _ => ?_⟩
  rw [hcells, toInt_of_lt (by omega)]
  omega

/-- The sums exist where `GetNineNeighbors` returns, and so do the neighbours. -/
theorem isInt_of_getNineNeighbors {i : Int} {neighborsIndex : List Int}
    (h : p.getNineNeighbors i = some neighborsIndex) :
    (∀ index ∈ neighborSums i (toInt p.gridmapWidth), IsInt index) ∧
      ∀ n ∈ neighborsIndex, IsInt n := by
  unfold getNineNeighbors at h
  dsimp only at h
  split_ifs at h with hsums
  cases h
  refine ⟨hsums, fun n hn => hsums n ?_⟩
  simp only [List.mem_append, mem_pushIf] at hn
  simp only [neighborSums, List.mem_cons, List.not_mem_nil, or_false]
  tauto

/-- Where the width is an `int`, the enumeration is right for the counted cells only. -/
theorem counted_iff (hi : i < p.cells) (hwidth : p.gridmapWidth < 2 ^ 31) :
    (∃ neighborsIndex, p.getNineNeighbors i = some neighborsIndex ∧
      neighborsIndex.Nodup ∧ ∀ n, n ∈ neighborsIndex ↔ p.Touches i n) ↔ Counted p i := by
  constructor
  · rintro ⟨neighborsIndex, hneighbors, -, hmem⟩
    have hsums := (isInt_of_getNineNeighbors hneighbors).1
    rw [toInt_of_lt hwidth] at hsums
    have hsum : IsInt (i + p.gridmapWidth + 1) := hsums _ (by simp [neighborSums])
    have hsum : i + p.gridmapWidth + 1 < 2 ^ 31 := by
      have hlt := hsum.2
      omega
    refine ⟨hsum, fun j hj hadj hlater => ?_⟩
    obtain ⟨touching, -, -, htouching⟩ := getNineNeighbors_eq hi hwidth hsum
    rw [hneighbors] at htouching
    cases htouching
    have hreturned := (hmem j).mpr ⟨j, rfl, hj, hadj⟩
    have hpass := of_decide_eq_true (List.mem_filter.mp hreturned).2
    exact hpass.resolve_left (by omega)
  · intro h
    obtain ⟨touching, hmem, hnodup, hneighbors⟩ := getNineNeighbors_eq hi hwidth h.sum
    refine ⟨_, hneighbors, hnodup.filter _, fun n => ?_⟩
    rw [List.mem_filter, hmem]
    refine and_iff_left_of_imp fun htouches => decide_eq_true ?_
    obtain ⟨j, rfl, hj, hadj⟩ := htouches
    rcases Nat.lt_or_ge i j with hlater | hearlier
    · exact Or.inr (h.below j hj hadj hlater)
    · have hne := hadj.1
      exact Or.inl (by omega)

/-- A width of `UINT_MAX` is converted to -1. In a single row the cell after the first is then found
as the one above it. -/
theorem neighbors_of_widest (hwidth : p.gridmapWidth = 2 ^ 32 - 1) (hheight : p.gridmapHeight = 1)
    (n : Int) (hi : 0 ≤ n) : p.getNineNeighbors n = none ∨ p.getNineNeighbors n = some [n + 1] := by
  have hminus : toInt (2 ^ 32 - 1) = -1 := by decide
  rw [getNineNeighbors, hwidth, hheight, Nat.mul_one, hminus]
  split_ifs
  · right
    have hguards : ¬ n + -1 < -1 := by omega
    have hup : 0 ≤ n + 1 := by omega
    simp [pushIf, hguards, hup]
  · exact Or.inl rfl

/-- The first test of `GetNineNeighbors`. -/
theorem up_mem {n : Int} {neighborsIndex : List Int}
    (h : p.getNineNeighbors n = some neighborsIndex) (hup : 0 ≤ n - toInt p.gridmapWidth) :
    n - toInt p.gridmapWidth ∈ neighborsIndex := by
  unfold getNineNeighbors at h
  dsimp only at h
  split_ifs at h
  cases h
  have hguard : decide (n - toInt p.gridmapWidth ≥ 0) = true := decide_eq_true hup
  simp only [List.mem_append, mem_pushIf, hguard, true_and, true_or]

/-- Where the width is no `int`, the enumeration is right for the first cell of the widest row
only. -/
theorem wide_neighbors_iff (hi : i < p.cells) (hwide : 2 ^ 31 ≤ p.gridmapWidth)
    (hwidth : p.gridmapWidth < 2 ^ 32) :
    (∃ neighborsIndex, p.getNineNeighbors i = some neighborsIndex ∧
      neighborsIndex.Nodup ∧ ∀ n, n ∈ neighborsIndex ↔ p.Touches i n) ↔
      p.gridmapWidth = 2 ^ 32 - 1 ∧ p.gridmapHeight = 1 ∧ i = 0 := by
  constructor
  · rintro ⟨neighborsIndex, hneighbors, -, hmem⟩
    have hint := (isInt_of_getNineNeighbors hneighbors).2
    have hminus : toInt p.gridmapWidth = p.gridmapWidth - 2 ^ 32 := by
      unfold toInt
      split_ifs <;> omega
    -- the cell above comes after the current one, so it has to be the next of the same row
    have hup := up_mem hneighbors (by omega)
    obtain ⟨-, hlt⟩ := hint _ hup
    obtain ⟨j, hj, -, hadj⟩ := (hmem _).mp hup
    have hsame : i / p.gridmapWidth = 0 ∧ i % p.gridmapWidth = i :=
      ⟨Nat.div_eq_of_lt (by omega), Nat.mod_eq_of_lt (by omega)⟩
    have hnext : j % p.gridmapWidth = j := Nat.mod_eq_of_lt (by omega)
    have hclose := hadj.2.2.2
    rw [hnext, hsame.2] at hclose
    have hwidest : p.gridmapWidth = 2 ^ 32 - 1 := by omega
    -- the cell below has no `int` index
    have hrow : p.gridmapHeight = 1 := by
      by_contra hrows
      have hheight : 0 < p.gridmapHeight := by
        apply Nat.pos_of_ne_zero
        intro hzero
        simp [cells, hzero] at hi
      have hcells : 2 * p.gridmapWidth ≤ p.cells :=
        Nat.mul_le_mul_right _ (by omega : 2 ≤ p.gridmapHeight)
      have hbelow : p.Touches i ((i + p.gridmapWidth : Nat) : Int) := by
        refine ⟨_, rfl, by omega, by omega, ?_, ?_⟩
        · rw [Nat.add_div_right i (by omega)]
          omega
        · rw [Nat.add_mod_right]
          omega
      have hlarge := (hint _ ((hmem _).mpr hbelow)).2
      omega
    refine ⟨hwidest, hrow, ?_⟩
    by_contra hfirst
    -- nor is the cell to the left returned
    have hleft : p.Touches i ((i - 1 : Nat) : Int) := by
      refine ⟨_, rfl, by omega, by omega, ?_, ?_⟩
      · rw [hsame.1, Nat.div_eq_of_lt (by omega)]
        omega
      · rw [hsame.2, Nat.mod_eq_of_lt (by omega)]
        omega
    have hreturned := (hmem _).mpr hleft
    rcases neighbors_of_widest hwidest hrow i (by omega) with hnone | hone
    · rw [hnone] at hneighbors
      cases hneighbors
    · rw [hone] at hneighbors
      cases hneighbors
      have heq := List.mem_singleton.mp hreturned
      omega
  · rintro ⟨hwidest, hrow, rfl⟩
    have hcells : p.cells = 2 ^ 32 - 1 := by rw [cells, hwidest, hrow, Nat.one_mul]
    have hneighbors : p.getNineNeighbors (0 : Nat) = some [1] := by
      rw [getNineNeighbors, hwidest, hrow]
      decide
    refine ⟨[1], hneighbors, List.pairwise_singleton _ 1, fun n => ?_⟩
    rw [List.mem_singleton]
    constructor
    · rintro rfl
      refine ⟨1, rfl, by omega, by omega, ?_⟩
      rw [hwidest]
      decide
    · rintro ⟨j, rfl, hj, hadj⟩
      have hclose := hadj.2.2.2
      rw [hwidest, Nat.zero_mod, Nat.mod_eq_of_lt (by omega)] at hclose
      have hne := hadj.1
      omega

/-! ## Costs -/

/-- A straight move is always recognised. -/
theorem getMoveCost_straight (hwidth : p.gridmapWidth + 1 < 2 ^ 31) (hi : i < p.cells) (hj : j < p.cells) (hadj : p.Adjacent i j)
    (hstraight : p.Straight i j) (moveCost : Int) : p.getMoveCost i j moveCost = (.OK, 10) := by
  cases natAbs_of_adjacent hi hj hadj with
  | inl h => rw [getMoveCost_eq (gridmapWidth_pos hi) hwidth, if_pos h.2]
  | inr h => exact absurd hstraight h.1

/-- A diagonal move is recognised unless it changes the index by one. -/
theorem getMoveCost_diagonal (hwidth : p.gridmapWidth + 1 < 2 ^ 31) (hi : i < p.cells) (hj : j < p.cells) (hadj : p.Adjacent i j)
    (hdiagonal : ¬ p.Straight i j) (hne : ((j : Int) - i).natAbs ≠ 1) (moveCost : Int) :
    p.getMoveCost i j moveCost = (.OK, 14) := by
  cases natAbs_of_adjacent hi hj hadj with
  | inl h => exact absurd h.1 hdiagonal
  | inr h =>
      have hpos := gridmapWidth_pos hi
      have hrow : ((j : Int) - i).natAbs ≠ p.gridmapWidth := by omega
      rw [getMoveCost_eq hpos hwidth, if_neg (not_or.mpr ⟨hne, hrow⟩), if_pos h.2]

theorem getMoveCost_one (h : ((j : Int) - i).natAbs = 1) (moveCost : Int) :
    p.getMoveCost i j moveCost = (.OK, 10) := by
  rw [getMoveCost, if_pos (Or.inl (by rw [h]; rfl))]

/-- In two columns, the cells next to each other in the order of the indices are diagonal neighbours
where a row ends between them. -/
theorem exists_close_diagonal (hwidth : p.gridmapWidth = 2) (hi : i < p.cells) (hfirst : i ≠ 0)
    (hlast : i + 1 ≠ p.cells) :
    ∃ j < p.cells, p.Adjacent i j ∧ ¬ p.Straight i j ∧ ((j : Int) - i).natAbs = 1 := by
  have hcells : p.cells = p.gridmapHeight * 2 := by rw [cells, hwidth]
  rcases Nat.mod_two_eq_zero_or_one i with heven | hodd
  · refine ⟨i - 1, by omega, ?_, ?_, by omega⟩
    · unfold Adjacent
      rw [hwidth]
      omega
    · unfold Straight
      rw [hwidth]
      omega
  · refine ⟨i + 1, by omega, ?_, ?_, by omega⟩
    · unfold Adjacent
      rw [hwidth]
      omega
    · unfold Straight
      rw [hwidth]
      omega

/-- The moves from a cell have their costs, except in a map of two columns, where only those from
its first and its last cell do. -/
theorem moveCost_iff (hi : i < p.cells) (hwidth : p.gridmapWidth + 1 < 2 ^ 31) :
    (∀ j < p.cells, p.Adjacent i j → ∀ moveCost,
      p.getMoveCost i j moveCost = (.OK, if p.Straight i j then 10 else 14)) ↔
      p.gridmapWidth ≠ 2 ∨ i = 0 ∨ i + 1 = p.cells := by
  constructor
  · intro h
    by_contra hnarrow
    simp only [not_or, not_not] at hnarrow
    obtain ⟨hwidth, hfirst, hlast⟩ := hnarrow
    obtain ⟨j, hj, hadj, hdiagonal, hone⟩ := exists_close_diagonal hwidth hi hfirst hlast
    have hcost := h j hj hadj 0
    rw [getMoveCost_one hone, if_neg hdiagonal] at hcost
    exact absurd (congrArg Prod.snd hcost) (by decide)
  · intro hwide j hj hadj moveCost
    by_cases hstraight : p.Straight i j
    · rw [if_pos hstraight, getMoveCost_straight hwidth hi hj hadj hstraight]
    · rw [if_neg hstraight]
      refine getMoveCost_diagonal hwidth hi hj hadj hstraight (fun hone => ?_) moveCost
      have hwidth : p.gridmapWidth = 2 := by
        cases natAbs_of_adjacent hi hj hadj with
        | inl h => exact absurd h.1 hstraight
        | inr h =>
            have hpos := gridmapWidth_pos hi
            omega
      have hcells : p.cells = p.gridmapHeight * 2 := by rw [cells, hwidth]
      refine hstraight (Or.inl ?_)
      rw [hwidth]
      omega

/-- The neighbours of a cell and the costs of the moves to them are right where the cells around it
are counted and the map has not two columns or the cell is its first or its last one; and for the
first cell of a single row of `UINT_MAX` columns. -/
theorem priced_iff (hi : i < p.cells) (hwidth : p.gridmapWidth < 2 ^ 32) :
    Priced p i ↔
      Counted p i ∧ (p.gridmapWidth ≠ 2 ∨ i = 0 ∨ i + 1 = p.cells) ∨
      p.gridmapWidth = 2 ^ 32 - 1 ∧ p.gridmapHeight = 1 ∧ i = 0 := by
  rcases Nat.lt_or_ge p.gridmapWidth (2 ^ 31) with hsmall | hwide
  · have hnot : ¬(p.gridmapWidth = 2 ^ 32 - 1 ∧ p.gridmapHeight = 1 ∧ i = 0) := by omega
    rw [or_iff_left hnot]
    constructor
    · intro h
      have hcounted := (counted_iff hi hsmall).mp h.neighbors
      have hsum := hcounted.sum
      exact ⟨hcounted, (moveCost_iff hi (by omega)).mp h.moveCost⟩
    · rintro ⟨hcounted, hcolumns⟩
      have hsum := hcounted.sum
      exact ⟨(counted_iff hi hsmall).mpr hcounted, (moveCost_iff hi (by omega)).mpr hcolumns⟩
  · have hnot : ¬(Counted p i ∧ (p.gridmapWidth ≠ 2 ∨ i = 0 ∨ i + 1 = p.cells)) := by
      rintro ⟨hcounted, -⟩
      have hsum := hcounted.sum
      omega
    rw [or_iff_right hnot]
    refine ⟨fun h => (wide_neighbors_iff hi hwide hwidth).mp h.neighbors, fun hfirst =>
      ⟨(wide_neighbors_iff hi hwide hwidth).mpr hfirst, fun j hj hadj moveCost => ?_⟩⟩
    obtain ⟨hwidest, hrow, rfl⟩ := hfirst
    have hcells : p.cells = 2 ^ 32 - 1 := by rw [cells, hwidest, hrow, Nat.one_mul]
    have hclose := hadj.2.2.2
    rw [hwidest, Nat.zero_mod, Nat.mod_eq_of_lt (by omega)] at hclose
    have hne := hadj.1
    have hstraight : p.Straight 0 j := by
      refine Or.inl ?_
      rw [Nat.div_eq_of_lt (by omega), Nat.div_eq_of_lt (by omega)]
    rw [if_pos hstraight, getMoveCost_one (by omega)]

/-- The maps to which the next two theorems apply `GetMoveCost`. -/
def plain (width height : Nat) : AStarPlanner where
  gridmapWidth := width
  gridmapHeight := height
  cost := fun _ => 0
  inaccessibleCost := 254
  heuristic := fun d => 10 * d

theorem priced_three_columns : Priced (plain 3 2) 1 :=
  (priced_iff (by decide) (by decide)).mpr
    (Or.inl ⟨counted_of_fits (by decide) (by decide), Or.inl (by decide)⟩)

/-- The move from the upper right cell of four to the lower left one costs as much as a straight
one. -/
theorem two_columns_not_priced :
    ¬ ∀ (p : AStarPlanner) (i : Nat), i < p.cells → Priced p i := by
  intro h
  have hcost := (h (plain 2 2) 1 (by decide)).moveCost 2 (by decide) (by decide) 0
  exact absurd hcost (by decide)

end RoboRTS.GlobalPlanner.AStarPlanner
