import RoboRTS.Lib.DigitalLine
import Mathlib.Data.List.Chain
import Mathlib.Tactic.Ring

/-!
# The line iterator

`FastLineIterator`: the cells of a line from one cell to another, by an accumulator. It visits one
cell more than the longer of the two distances, starts at the first cell and ends at the last one,
and each step goes to one of the eight neighbours (`lineCells_eq`, `lineCells_line`). The
accumulator is an `int`, which holds four times the longer distance where `Fits` says so; beyond
that a step may be undefined.
-/

namespace RoboRTS.Planning

open DigitalLine

/-- The members of `FastLineIterator` that are read after its construction. -/
structure FastLineIterator where
  x : Int
  y : Int
  curpixel : Int
  xinc1 : Int
  xinc2 : Int
  yinc1 : Int
  yinc2 : Int
  den : Int
  num : Int
  numadd : Int
  numpixels : Int
  deriving DecidableEq, Repr

namespace FastLineIterator

/-- The direction from `a` to `b`. -/
def direction (a b : Int) : Int :=
  if b - a > 0 then 1 else -1

/-- What the constructor sets. -/
def start (x0 y0 x1 y1 : Int) : FastLineIterator :=
  let deltax : Int := (x1 - x0).natAbs
  let deltay : Int := (y1 - y0).natAbs
  if deltax ≥ deltay then
    { x := x0, y := y0, curpixel := 0
      xinc1 := 0, xinc2 := direction x0 x1, yinc1 := direction y0 y1, yinc2 := 0
      den := 2 * deltax, num := deltax, numadd := 2 * deltay, numpixels := deltax }
  else
    { x := x0, y := y0, curpixel := 0
      xinc1 := direction x0 x1, xinc2 := 0, yinc1 := 0, yinc2 := direction y0 y1
      den := 2 * deltay, num := deltay, numadd := 2 * deltax, numpixels := deltay }

/-- The constructor, undefined where twice a distance is no `int`. -/
def create (x0 y0 x1 y1 : Int) : Option FastLineIterator :=
  let line := start x0 y0 x1 y1
  if line.den < 2 ^ 31 then some line else none

/-- `IsValid`. -/
def isValid (line : FastLineIterator) : Bool :=
  line.curpixel ≤ line.numpixels

/-- What `Advance` sets. -/
def next (line : FastLineIterator) : FastLineIterator :=
  let line := { line with num := line.num + line.numadd }
  let line :=
    if line.num ≥ line.den then
      { line with
        num := line.num - line.den
        x := line.x + line.xinc1
        y := line.y + line.yinc1 }
    else line
  { line with
    x := line.x + line.xinc2
    y := line.y + line.yinc2
    curpixel := line.curpixel + 1 }

/-- `Advance`, undefined where the accumulator is no `int`. -/
def advance (line : FastLineIterator) : Option FastLineIterator :=
  if line.num + line.numadd < 2 ^ 31 then some line.next else none

/-- The cells that a loop over the iterator visits, in at most `fuel` tests of its condition. -/
def visited : Nat → FastLineIterator → Option (List (Int × Int))
  | 0, _ => none
  | fuel + 1, line =>
      if line.isValid then
        (line.advance.bind (visited fuel)).map fun cells => (line.x, line.y) :: cells
      else some []

/-- More tests than a loop makes. -/
def visitBound (line : FastLineIterator) : Nat :=
  line.numpixels.toNat + 2

/-- The cells that are visited from one cell to another. -/
def lineCells (x0 y0 x1 y1 : Int) : Option (List (Int × Int)) :=
  (create x0 y0 x1 y1).bind fun line => line.visited line.visitBound

/-! ## The line -/

variable {x0 y0 x1 y1 : Int}

/-- The number of steps. -/
def steps (x0 y0 x1 y1 : Int) : Nat :=
  max (x1 - x0).natAbs (y1 - y0).natAbs

/-- Four times the longer distance is an `int`. -/
def Fits (x0 y0 x1 y1 : Int) : Prop :=
  4 * steps x0 y0 x1 y1 < 2 ^ 31

instance (x0 y0 x1 y1 : Int) : Decidable (Fits x0 y0 x1 y1) :=
  inferInstanceAs (Decidable (_ < _))

/-- The cell after `k` steps. -/
def cellAt (x0 y0 x1 y1 : Int) (k : Nat) : Int × Int :=
  let deltax := (x1 - x0).natAbs
  let deltay := (y1 - y0).natAbs
  if deltax ≥ deltay then
    (x0 + direction x0 x1 * k, y0 + direction y0 y1 * rise deltax deltay k)
  else (x0 + direction x0 x1 * rise deltay deltax k, y0 + direction y0 y1 * k)

/-- The iterator after `k` steps. -/
def lineAt (x0 y0 x1 y1 : Int) (k : Nat) : FastLineIterator :=
  let deltax := (x1 - x0).natAbs
  let deltay := (y1 - y0).natAbs
  { start x0 y0 x1 y1 with
    x := (cellAt x0 y0 x1 y1 k).1
    y := (cellAt x0 y0 x1 y1 k).2
    curpixel := k
    num := residue (max deltax deltay) (min deltax deltay) k }

theorem lineAt_zero (x0 y0 x1 y1 : Int) : lineAt x0 y0 x1 y1 0 = start x0 y0 x1 y1 := by
  unfold lineAt cellAt start
  simp only [ge_iff_le, Int.ofNat_le, rise_zero, residue_zero]
  by_cases hflat : (y1 - y0).natAbs ≤ (x1 - x0).natAbs
  · simp [if_pos hflat, max_eq_left hflat]
  · simp [if_neg hflat, max_eq_right (Nat.le_of_not_le hflat)]

theorem numpixels_lineAt (k : Nat) :
    (lineAt x0 y0 x1 y1 k).numpixels = steps x0 y0 x1 y1 := by
  show (start x0 y0 x1 y1).numpixels = _
  unfold start steps
  simp only [ge_iff_le, Int.ofNat_le]
  by_cases hflat : (y1 - y0).natAbs ≤ (x1 - x0).natAbs
  · rw [if_pos hflat, Nat.max_eq_left hflat]
  · rw [if_neg hflat, Nat.max_eq_right (Nat.le_of_not_le hflat)]

/-- The denominator and what is added in a step are at most twice the longer distance. -/
theorem start_le (x0 y0 x1 y1 : Int) :
    (start x0 y0 x1 y1).den = 2 * steps x0 y0 x1 y1 ∧
      (start x0 y0 x1 y1).numadd ≤ 2 * steps x0 y0 x1 y1 := by
  unfold start steps
  dsimp only
  split_ifs with hflat
  · constructor <;> dsimp only <;> omega
  · constructor <;> dsimp only <;> omega

/-- The constructor of a line that fits. -/
theorem create_eq (h : Fits x0 y0 x1 y1) : create x0 y0 x1 y1 = some (start x0 y0 x1 y1) := by
  unfold Fits at h
  have hden := (start_le x0 y0 x1 y1).1
  exact if_pos (by omega)

/-- On a line that fits `Advance` does not overflow. -/
theorem advance_eq (h : Fits x0 y0 x1 y1) (k : Nat) :
    (lineAt x0 y0 x1 y1 k).advance = some (lineAt x0 y0 x1 y1 k).next := by
  unfold Fits at h
  have hadd : (lineAt x0 y0 x1 y1 k).numadd ≤ 2 * steps x0 y0 x1 y1 := (start_le x0 y0 x1 y1).2
  have hnum : (lineAt x0 y0 x1 y1 k).num ≤ 2 * steps x0 y0 x1 y1 := by
    show ((residue (steps x0 y0 x1 y1) _ k : Nat) : Int) ≤ _
    rcases Nat.eq_zero_or_pos (steps x0 y0 x1 y1) with hzero | hpos
    · have hmin : min (x1 - x0).natAbs (y1 - y0).natAbs = 0 := by
        unfold steps at hzero
        omega
      rw [hzero, hmin, residue, Nat.mul_zero, Nat.zero_mul]
      simp
    · have hlt := residue_lt hpos (min (x1 - x0).natAbs (y1 - y0).natAbs) k
      omega
  exact if_pos (by omega)

/-- `Advance` takes the next step of the line. -/
theorem next_lineAt {k : Nat} (hk : k < steps x0 y0 x1 y1) :
    (lineAt x0 y0 x1 y1 k).next = lineAt x0 y0 x1 y1 (k + 1) := by
  unfold steps at hk
  unfold lineAt cellAt start next
  simp only [ge_iff_le, Int.ofNat_le]
  generalize (x1 - x0).natAbs = dx at hk ⊢
  generalize (y1 - y0).natAbs = dy at hk ⊢
  by_cases hflat : dy ≤ dx
  case pos =>
    rw [max_eq_left hflat] at hk
    simp only [if_pos hflat, max_eq_left hflat, min_eq_right hflat]
    rcases Nat.lt_or_ge (residue dx dy k + 2 * dy) (2 * dx) with hfew | hfull
    · obtain ⟨hrise, hresidue⟩ := step_of_lt (by omega) hfew
      rw [if_neg (by omega), hrise, hresidue]
      push_cast
      simp [mul_add, add_assoc]
    · obtain ⟨hrise, hresidue⟩ := step_of_le (by omega) hflat hfull
      rw [if_pos (by omega), hrise, hresidue]
      push_cast [Nat.cast_sub hfull]
      simp [mul_add, add_assoc]
  case neg =>
    have hsteep : dx ≤ dy := Nat.le_of_not_le hflat
    rw [max_eq_right hsteep] at hk
    simp only [if_neg hflat, max_eq_right hsteep, min_eq_left hsteep]
    rcases Nat.lt_or_ge (residue dy dx k + 2 * dx) (2 * dy) with hfew | hfull
    · obtain ⟨hrise, hresidue⟩ := step_of_lt (by omega) hfew
      rw [if_neg (by omega), hrise, hresidue]
      push_cast
      simp [mul_add, add_assoc]
    · obtain ⟨hrise, hresidue⟩ := step_of_le (by omega) hsteep hfull
      rw [if_pos (by omega), hrise, hresidue]
      push_cast [Nat.cast_sub hfull]
      simp [mul_add, add_assoc]

theorem isValid_lineAt (k : Nat) :
    (lineAt x0 y0 x1 y1 k).isValid = decide (k ≤ steps x0 y0 x1 y1) := by
  unfold isValid
  rw [numpixels_lineAt]
  exact decide_eq_decide.mpr Int.ofNat_le

/-- Behind its last cell the iterator is not valid. -/
theorem isValid_next_last :
    (lineAt x0 y0 x1 y1 (steps x0 y0 x1 y1)).next.isValid = false := by
  have hnumpixels : ∀ line : FastLineIterator, line.next.numpixels = line.numpixels := by
    intro line
    unfold next
    dsimp only
    split <;> rfl
  have hcurpixel : ∀ line : FastLineIterator, line.next.curpixel = line.curpixel + 1 := by
    intro line
    unfold next
    dsimp only
    split <;> rfl
  refine decide_eq_false ?_
  rw [hnumpixels, hcurpixel, numpixels_lineAt]
  show ¬((steps x0 y0 x1 y1 : Int) + 1 ≤ _)
  omega

/-- The loop visits the cells of the line from the current one on. -/
theorem visited_lineAt {fuel k : Nat} (hfits : Fits x0 y0 x1 y1) (hk : k ≤ steps x0 y0 x1 y1)
    (hfuel : steps x0 y0 x1 y1 + 2 ≤ k + fuel) :
    (lineAt x0 y0 x1 y1 k).visited fuel =
      some ((List.range' k (steps x0 y0 x1 y1 + 1 - k)).map (cellAt x0 y0 x1 y1)) := by
  induction fuel generalizing k with
  | zero => omega
  | succ fuel ih =>
      unfold visited
      rw [if_pos (by rw [isValid_lineAt]; exact decide_eq_true hk), advance_eq hfits,
        Option.bind_some]
      show (visited fuel (lineAt x0 y0 x1 y1 k).next).map
        (fun cells => cellAt x0 y0 x1 y1 k :: cells) = _
      rcases Nat.lt_or_eq_of_le hk with hlt | rfl
      · rw [next_lineAt hlt, ih hlt (by omega), Option.map_some,
          show steps x0 y0 x1 y1 + 1 - k = steps x0 y0 x1 y1 + 1 - (k + 1) + 1 by omega,
          List.range'_succ, List.map_cons]
      · have hlast : visited fuel (lineAt x0 y0 x1 y1 (steps x0 y0 x1 y1)).next = some [] := by
          cases fuel with
          | zero => omega
          | succ fuel =>
              unfold visited
              rw [isValid_next_last]
              rfl
        rw [hlast, Option.map_some, Nat.add_sub_cancel_left]
        rfl

/-- A loop over the iterator visits the cells of the line. -/
theorem lineCells_eq (hfits : Fits x0 y0 x1 y1) :
    lineCells x0 y0 x1 y1 =
      some ((List.range (steps x0 y0 x1 y1 + 1)).map (cellAt x0 y0 x1 y1)) := by
  have hbound : (start x0 y0 x1 y1).visitBound = steps x0 y0 x1 y1 + 2 := by
    unfold visitBound
    rw [← lineAt_zero, numpixels_lineAt]
    rfl
  unfold lineCells
  rw [create_eq hfits, Option.bind_some, hbound, ← lineAt_zero,
    visited_lineAt hfits (Nat.zero_le _) (Nat.le_of_eq (Nat.zero_add _).symm),
    List.range_eq_range']
  rfl

/-- The loop from the iterator that is constructed. -/
theorem visited_start {cells : List (Int × Int)} (hfits : Fits x0 y0 x1 y1)
    (h : lineCells x0 y0 x1 y1 = some cells) :
    (start x0 y0 x1 y1).visited (start x0 y0 x1 y1).visitBound = some cells := by
  unfold lineCells at h
  rwa [create_eq hfits, Option.bind_some] at h

/-! ## The cells of the line -/

/-- Another cell whose column and row differ by at most one. -/
def EightNeighbours (a b : Int × Int) : Prop :=
  a ≠ b ∧ (b.1 - a.1).natAbs ≤ 1 ∧ (b.2 - a.2).natAbs ≤ 1

/-- The cell is in the bounding box of two cells. -/
def InBox (x0 y0 x1 y1 : Int) (cell : Int × Int) : Prop :=
  (min x0 x1 ≤ cell.1 ∧ cell.1 ≤ max x0 x1) ∧ min y0 y1 ≤ cell.2 ∧ cell.2 ≤ max y0 y1

theorem direction_cases (a b : Int) : direction a b = 1 ∨ direction a b = -1 := by
  unfold direction
  split
  · exact Or.inl rfl
  · exact Or.inr rfl

/-- As many steps as the distance go from one coordinate to the other. -/
theorem add_direction (a b : Int) : a + direction a b * (b - a).natAbs = b := by
  unfold direction
  split <;> omega

/-- Fewer steps stay between the coordinates. -/
theorem add_direction_between {a b : Int} {k : Nat} (hk : k ≤ (b - a).natAbs) :
    min a b ≤ a + direction a b * k ∧ a + direction a b * k ≤ max a b := by
  unfold direction
  split <;> omega

theorem cellAt_zero : cellAt x0 y0 x1 y1 0 = (x0, y0) := by
  unfold cellAt
  dsimp only
  split <;> simp

theorem cellAt_steps : cellAt x0 y0 x1 y1 (steps x0 y0 x1 y1) = (x1, y1) := by
  have hx := add_direction x0 x1
  have hy := add_direction y0 y1
  unfold cellAt steps
  dsimp only
  by_cases hflat : (x1 - x0).natAbs ≥ (y1 - y0).natAbs
  · rw [if_pos hflat, Nat.max_eq_left hflat]
    rcases Nat.eq_zero_or_pos (x1 - x0).natAbs with hzero | hpos
    · have hpoint : (y1 - y0).natAbs = 0 := by omega
      rw [hzero, hpoint, rise_zero]
      rw [hzero] at hx
      rw [hpoint] at hy
      exact Prod.ext hx hy
    · rw [rise_self hpos]
      exact Prod.ext hx hy
  · rw [if_neg hflat, Nat.max_eq_right (by omega), rise_self (by omega)]
    exact Prod.ext hx hy

theorem cellAt_inBox {k : Nat} (hk : k ≤ steps x0 y0 x1 y1) :
    InBox x0 y0 x1 y1 (cellAt x0 y0 x1 y1 k) := by
  unfold cellAt
  unfold steps at hk
  dsimp only
  by_cases hflat : (x1 - x0).natAbs ≥ (y1 - y0).natAbs
  · rw [Nat.max_eq_left hflat] at hk
    rw [if_pos hflat]
    exact ⟨add_direction_between hk, add_direction_between (rise_le hk)⟩
  · rw [Nat.max_eq_right (by omega)] at hk
    rw [if_neg hflat]
    exact ⟨add_direction_between (rise_le hk), add_direction_between hk⟩

/-- One step of a line along its longer axis, and perhaps along the other. -/
theorem step_direction (a b k : Int) :
    direction a b * (k + 1) ≠ direction a b * k ∧
      (a + direction a b * (k + 1) - (a + direction a b * k)).natAbs ≤ 1 := by
  constructor
  · rcases direction_cases a b with h | h <;> rw [h] <;> omega
  · rcases direction_cases a b with h | h <;> rw [h] <;> omega

theorem rise_direction (a b : Int) {c r r' : Int} (hrise : r' = r ∨ r' = r + 1) :
    (c + direction a b * r' - (c + direction a b * r)).natAbs ≤ 1 := by
  rcases direction_cases a b with h | h <;> rw [h] <;> omega

theorem cellAt_neighbours {k : Nat} (hk : k < steps x0 y0 x1 y1) :
    EightNeighbours (cellAt x0 y0 x1 y1 k) (cellAt x0 y0 x1 y1 (k + 1)) := by
  unfold cellAt
  unfold steps at hk
  dsimp only
  by_cases hflat : (x1 - x0).natAbs ≥ (y1 - y0).natAbs
  · rw [Nat.max_eq_left hflat] at hk
    rw [if_pos hflat, if_pos hflat]
    have hrise := rise_succ (by omega) hflat k
    obtain ⟨hne, hnear⟩ := step_direction x0 x1 k
    refine ⟨fun hsame => hne ?_, hnear, rise_direction y0 y1 (by omega)⟩
    have hx := congrArg Prod.fst hsame
    push_cast at hx
    omega
  · have hsteep : (x1 - x0).natAbs ≤ (y1 - y0).natAbs := by omega
    rw [Nat.max_eq_right hsteep] at hk
    rw [if_neg hflat, if_neg hflat]
    have hrise := rise_succ (by omega) hsteep k
    obtain ⟨hne, hnear⟩ := step_direction y0 y1 k
    refine ⟨fun hsame => hne ?_, rise_direction x0 x1 (by omega), hnear⟩
    have hy := congrArg Prod.snd hsame
    push_cast at hy
    omega

/-- The line does not come back to a cell. -/
theorem cellAt_injective : Function.Injective (cellAt x0 y0 x1 y1) := by
  intro j k hsame
  unfold cellAt at hsame
  dsimp only at hsame
  by_cases hflat : (x1 - x0).natAbs ≥ (y1 - y0).natAbs
  · rw [if_pos hflat, if_pos hflat] at hsame
    have hx := congrArg Prod.fst hsame
    rcases direction_cases x0 x1 with h | h <;> rw [h] at hx <;> omega
  · rw [if_neg hflat, if_neg hflat] at hsame
    have hy := congrArg Prod.snd hsame
    rcases direction_cases y0 y1 with h | h <;> rw [h] at hy <;> omega

theorem lineCells_nodup {cells : List (Int × Int)} (hfits : Fits x0 y0 x1 y1) (h : lineCells x0 y0 x1 y1 = some cells) :
    cells.Nodup := by
  rw [lineCells_eq hfits, Option.some.injEq] at h
  exact h ▸ List.Pairwise.map _ (fun j k hne hsame => hne (cellAt_injective hsame)) List.nodup_range

/-- The cells that a loop over the iterator visits. -/
theorem lineCells_line (hfits : Fits x0 y0 x1 y1) :
    ∃ cells, lineCells x0 y0 x1 y1 = some cells ∧
      cells.length = max (x1 - x0).natAbs (y1 - y0).natAbs + 1 ∧
      cells.head? = some (x0, y0) ∧ cells.getLast? = some (x1, y1) ∧
      cells.IsChain EightNeighbours ∧ ∀ cell ∈ cells, InBox x0 y0 x1 y1 cell := by
  refine ⟨_, lineCells_eq hfits, ?_, ?_, ?_, ?_, ?_⟩
  · rw [List.length_map, List.length_range]
    rfl
  · rw [List.head?_map, List.head?_range, if_neg (Nat.succ_ne_zero _), Option.map_some, cellAt_zero]
  · rw [List.getLast?_map, List.getLast?_range, if_neg (Nat.succ_ne_zero _), Option.map_some,
      Nat.add_sub_cancel, cellAt_steps]
  · rw [List.isChain_iff_getElem]
    intro k hk
    rw [List.length_map, List.length_range] at hk
    rw [List.getElem_map, List.getElem_map, List.getElem_range, List.getElem_range]
    exact cellAt_neighbours (by omega)
  · intro cell hcell
    obtain ⟨k, hk, rfl⟩ := List.mem_map.mp hcell
    exact cellAt_inBox (Nat.le_of_lt_succ (List.mem_range.mp hk))

/-! ## Lines from one cell -/

/-- After `k` steps a line is `k` cells away from its first one. -/
theorem cellAt_dist (x0 y0 x1 y1 : Int) (k : Nat) :
    max ((cellAt x0 y0 x1 y1 k).1 - x0).natAbs ((cellAt x0 y0 x1 y1 k).2 - y0).natAbs = k := by
  have hfar : ∀ (a b c : Int) (n : Nat), (c + direction a b * n - c).natAbs = n := by
    intro a b c n
    rcases direction_cases a b with h | h <;> rw [h] <;> omega
  unfold cellAt
  dsimp only
  split_ifs with hflat
  · rw [hfar, hfar, Nat.max_eq_left]
    exact rise_le_self hflat k
  · rw [hfar, hfar, Nat.max_eq_right]
    exact rise_le_self (by omega) k

/-- Lines from one cell meet in the same step only: what comes first on one of them and lies on the
other comes first there as well. -/
theorem prefix_of_subset {x2 y2 : Int} {line line' cells : List (Int × Int)}
    (hfits : Fits x0 y0 x1 y1) (hfits' : Fits x0 y0 x2 y2)
    (hline : lineCells x0 y0 x1 y1 = some line) (hline' : lineCells x0 y0 x2 y2 = some line')
    (hbefore : cells <+: line') (hsubset : ∀ cell ∈ cells, cell ∈ line) : cells <+: line := by
  rw [lineCells_eq hfits, Option.some.injEq] at hline
  rw [lineCells_eq hfits', Option.some.injEq] at hline'
  subst hline hline'
  have hcells : cells = (List.range cells.length).map (cellAt x0 y0 x2 y2) := by
    have htake := List.prefix_iff_eq_take.mp hbefore
    have hle := hbefore.length_le
    rw [List.length_map, List.length_range] at hle
    rw [← List.map_take, List.take_range, Nat.min_eq_left hle] at htake
    exact htake
  -- the distance from the first cell tells the steps apart
  have hsame : ∀ j < cells.length, j ≤ steps x0 y0 x1 y1 ∧
      cellAt x0 y0 x2 y2 j = cellAt x0 y0 x1 y1 j := by
    intro j hj
    have hmem : cellAt x0 y0 x2 y2 j ∈ cells := by
      rw [hcells]
      exact List.mem_map_of_mem (List.mem_range.mpr hj)
    obtain ⟨i, hi, heq⟩ := List.mem_map.mp (hsubset _ hmem)
    have hij : i = j := by
      rw [← cellAt_dist x0 y0 x1 y1 i, heq, cellAt_dist]
    subst hij
    exact ⟨Nat.le_of_lt_succ (List.mem_range.mp hi), heq.symm⟩
  have hother : cells = (List.range cells.length).map (cellAt x0 y0 x1 y1) := by
    refine hcells.trans (List.map_congr_left fun j hj => ?_)
    exact (hsame j (List.mem_range.mp hj)).2
  have hle : cells.length ≤ steps x0 y0 x1 y1 + 1 := by
    rcases Nat.eq_zero_or_pos cells.length with hzero | hpos
    · omega
    · have hlast := (hsame (cells.length - 1) (by omega)).1
      omega
  rw [hother]
  refine List.IsPrefix.map _ ?_
  rw [List.prefix_iff_eq_take, List.length_range, List.take_range, Nat.min_eq_left hle]

end FastLineIterator

end RoboRTS.Planning
