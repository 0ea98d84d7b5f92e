import Mathlib.Data.Nat.Dist
import Mathlib.Tactic.Common

/-!
# Nearest sites on a grid

The Euclidean distance between cells of a grid, by its square, and the sites that are nearest to a
cell. Propagating a site from a cell to its four neighbours finds the nearest sites only where a
nearest site of the cell is nearest to the neighbour as well: `Passes` says so of a cell and a
neighbour that is nearer to the sites.
-/

namespace NearestSite

/-- A cell, by its column and its row. -/
abbrev Cell := Nat × Nat

/-- Where a row has `width` cells, the index of a cell determines it. -/
theorem eq_of_index {width : Nat} {a b : Cell} (ha : a.1 < width) (hb : b.1 < width)
    (h : a.1 + a.2 * width = b.1 + b.2 * width) : a = b := by
  have hcol : a.1 = b.1 := by
    have hmod := congrArg (· % width) h
    simpa only [Nat.add_mul_mod_self_right, Nat.mod_eq_of_lt ha, Nat.mod_eq_of_lt hb] using hmod
  rw [hcol] at h
  exact Prod.ext hcol (Nat.eq_of_mul_eq_mul_right (Nat.zero_lt_of_lt ha) (Nat.add_left_cancel h))

/-- The index of a cell is below the number of cells. -/
theorem index_lt {width height : Nat} {a : Cell} (h1 : a.1 < width) (h2 : a.2 < height) :
    a.1 + a.2 * width < width * height := by
  have hrow : (a.2 + 1) * width ≤ height * width := Nat.mul_le_mul_right _ h2
  rw [Nat.add_one_mul] at hrow
  rw [Nat.mul_comm width]
  omega

/-- The square of the Euclidean distance between two cells. -/
def sqDist (a b : Cell) : Nat :=
  Nat.dist a.1 b.1 * Nat.dist a.1 b.1 + Nat.dist a.2 b.2 * Nat.dist a.2 b.2

theorem sqDist_self (a : Cell) : sqDist a a = 0 := by
  simp [sqDist, Nat.dist_self]

theorem sqDist_eq_zero {a b : Cell} (h : sqDist a b = 0) : a = b := by
  obtain ⟨h1, h2⟩ := Nat.add_eq_zero_iff.mp h
  exact Prod.ext (Nat.eq_of_dist_eq_zero (by simpa using h1))
    (Nat.eq_of_dist_eq_zero (by simpa using h2))

/-- The two cells are 4-neighbours. -/
def Adjacent (a b : Cell) : Prop :=
  (a.2 = b.2 ∧ (a.1 + 1 = b.1 ∨ b.1 + 1 = a.1)) ∨ (a.1 = b.1 ∧ (a.2 + 1 = b.2 ∨ b.2 + 1 = a.2))

instance (a b : Cell) : Decidable (Adjacent a b) :=
  inferInstanceAs (Decidable (_ ∨ _))

/-- A square has the parity of its root. -/
theorem mul_self_mod_two (n : Nat) : n * n % 2 = n % 2 := by
  rw [Nat.mul_mod]
  rcases Nat.mod_two_eq_zero_or_one n with h | h <;> rw [h]

theorem sqDist_mod_two (a b : Cell) :
    sqDist a b % 2 = (Nat.dist a.1 b.1 + Nat.dist a.2 b.2) % 2 := by
  have h1 := mul_self_mod_two (Nat.dist a.1 b.1)
  have h2 := mul_self_mod_two (Nat.dist a.2 b.2)
  rw [sqDist]
  omega

/-- A step to a neighbour changes the distance to every cell. -/
theorem Adjacent.sqDist_ne {a b : Cell} (h : Adjacent a b) (s : Cell) : sqDist a s ≠ sqDist b s := by
  intro heq
  have hmod := sqDist_mod_two a s
  rw [heq, sqDist_mod_two b s] at hmod
  unfold Nat.dist at hmod
  rcases h with ⟨h2, h1⟩ | ⟨h1, h2⟩
  · rw [h2] at hmod
    omega
  · rw [h1] at hmod
    omega

variable {O : Cell → Prop} {a b c n s t : Cell} {r : Nat}

/-- The site `s` is nearest to the cell `c`. -/
structure IsNearest (O : Cell → Prop) (c s : Cell) : Prop where
  site : O s
  le : ∀ t, O t → sqDist c s ≤ sqDist c t

theorem IsNearest.sqDist_eq (hs : IsNearest O c s) (ht : IsNearest O c t) :
    sqDist c s = sqDist c t :=
  Nat.le_antisymm (hs.le t ht.site) (ht.le s hs.site)

/-- A cell with a site has a nearest one. -/
theorem exists_isNearest (h : O t) (c : Cell) : ∃ s, IsNearest O c s := by
  induction hd : sqDist c t using Nat.strongRecOn generalizing t with
  | ind d ih =>
    by_cases hle : ∀ u, O u → sqDist c t ≤ sqDist c u
    · exact ⟨t, h, hle⟩
    · simp only [not_forall, Nat.not_le] at hle
      obtain ⟨u, hu, hlt⟩ := hle
      exact ih (sqDist c u) (by omega) hu rfl

/-- The cell itself is the nearest site to a site. -/
theorem isNearest_self (h : O c) : IsNearest O c c :=
  ⟨h, fun t _ => by rw [sqDist_self]; exact Nat.zero_le _⟩

/-- Some site is within the radius, the square of which is `r`, of the cell. -/
def Within (O : Cell → Prop) (r : Nat) (c : Cell) : Prop :=
  ∃ s, O s ∧ sqDist c s ≤ r

theorem Within.exists_isNearest (h : Within O r c) : ∃ s, IsNearest O c s ∧ sqDist c s ≤ r := by
  obtain ⟨t, ht, hle⟩ := h
  obtain ⟨s, hs⟩ := NearestSite.exists_isNearest ht c
  exact ⟨s, hs, (hs.le t ht).trans hle⟩

/-- `n` is a neighbour of `c` and nearer to the sites. -/
structure Closer (O : Cell → Prop) (n c : Cell) : Prop where
  adjacent : Adjacent n c
  lt : ∀ s t, IsNearest O n s → IsNearest O c t → sqDist n s < sqDist c t

/-- A neighbour that is nearer to the sites and has a nearest site within the radius, the square of
which is `r`, of `c`. -/
structure Relays (O : Cell → Prop) (r : Nat) (n c : Cell) : Prop extends Closer O n c where
  reaches : ∃ s, IsNearest O n s ∧ sqDist c s ≤ r

/-- No nearest site is nearer to `n'` than to `n`. -/
def NoFarther (O : Cell → Prop) (n n' : Cell) : Prop :=
  ∀ s s', IsNearest O n s → IsNearest O n' s' → sqDist n s ≤ sqDist n' s'

/-- Among cells with sites, one is nearest to them. -/
theorem exists_noFarther {P : Cell → Prop} (hP : P n) (hs : IsNearest O n s) :
    ∃ m, P m ∧ ∀ n', P n' → NoFarther O m n' := by
  induction hd : sqDist n s using Nat.strongRecOn generalizing n s with
  | ind d ih =>
    by_cases hall : ∀ n', P n' → NoFarther O n n'
    · exact ⟨n, hP, hall⟩
    · unfold NoFarther at hall
      simp only [not_forall, Nat.not_le] at hall
      obtain ⟨n', hP', t, t', ht, ht', hlt⟩ := hall
      exact ih (sqDist n' t') (by rw [← hd, hs.sqDist_eq ht]; exact hlt) hP' ht' rfl

/-- Whichever nearest site of `n` is passed on to `c`, it is nearest to `c` as well. -/
def Passes (O : Cell → Prop) (n c : Cell) : Prop :=
  ∀ s, IsNearest O n s → IsNearest O c s

end NearestSite
