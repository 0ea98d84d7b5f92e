import Mathlib.Tactic.Common
import Mathlib.Tactic.Ring

/-!
# Copying rectangles between row-major grids

A buffer is an array with a known number of elements. `copyRange` copies a run of elements and fails
where one of the two ranges leaves its buffer; `copyRows` copies a run for each row, with a stride
of its own in either buffer. A rectangle that lies inside both grids is copied to its place and
nothing else changes (`copyRows_rect`). A rectangle without elements is copied wherever it lies
(`copyRows_empty`).
-/

/-- An array with room for `size` elements. -/
structure Buffer (α : Type*) where
  size : Nat
  elem : Nat → α

namespace Buffer

variable {α : Type*}

/-- The element at an index, which is undefined behind the end. -/
def get? (b : Buffer α) (i : Nat) : Option α :=
  if i < b.size then some (b.elem i) else none

/-- Copy `n` elements of `src` from `s` on to the places from `d` on. -/
def copyRange (src : Buffer α) (s d n : Nat) (dst : Buffer α) : Option (Buffer α) :=
  if n = 0 ∨ (s + n ≤ src.size ∧ d + n ≤ dst.size) then
    some { dst with
      elem := fun i => if d ≤ i ∧ i < d + n then src.elem (s + (i - d)) else dst.elem i }
  else none

/-- Copy `n` elements in each of the next rows. -/
def copyRows (src : Buffer α) (srcStride dstStride n : Nat) :
    Nat → Nat → Nat → Buffer α → Option (Buffer α)
  | 0, _, _, dst => some dst
  | rows + 1, s, d, dst =>
      (src.copyRange s d n dst).bind
        (copyRows src srcStride dstStride n rows (s + srcStride) (d + dstStride))

/-- Set the first `n` elements. -/
def fill (b : Buffer α) (value : α) (n : Nat) : Option (Buffer α) :=
  if n ≤ b.size then some { b with elem := fun i => if i < n then value else b.elem i } else none

variable {src dst : Buffer α} {srcStride dstStride n : Nat}

theorem get?_of_lt {b : Buffer α} {i : Nat} (h : i < b.size) : b.get? i = some (b.elem i) :=
  if_pos h

theorem get?_of_size_eq_zero {b : Buffer α} (h : b.size = 0) (i : Nat) : b.get? i = none :=
  if_neg (by omega)

/-- A range inside both buffers. -/
theorem copyRange_spec {s d : Nat} (hsrc : s + n ≤ src.size) (hdst : d + n ≤ dst.size) :
    ∃ dst', src.copyRange s d n dst = some dst' ∧ dst'.size = dst.size ∧
      (∀ k < n, dst'.elem (d + k) = src.elem (s + k)) ∧
      ∀ i, i < d ∨ d + n ≤ i → dst'.elem i = dst.elem i := by
  refine ⟨_, if_pos (Or.inr ⟨hsrc, hdst⟩), rfl, fun k hk => ?_, fun i hi => ?_⟩
  · show (if d ≤ d + k ∧ d + k < d + n then src.elem (s + (d + k - d)) else dst.elem (d + k)) = _
    rw [if_pos ⟨Nat.le_add_right d k, by omega⟩, Nat.add_sub_cancel_left]
  · exact if_neg (by omega)

theorem copyRange_empty (s d : Nat) : src.copyRange s d 0 dst = some dst := by
  have helem : (fun i => if d ≤ i ∧ i < d + 0 then src.elem (s + (i - d)) else dst.elem i) =
      dst.elem :=
    funext fun i => if_neg (by omega)
  rw [copyRange, if_pos (Or.inl rfl), helem]

/-- Rows without elements. -/
theorem copyRows_empty (rows s d : Nat) :
    src.copyRows srcStride dstStride 0 rows s d dst = some dst := by
  induction rows generalizing s d with
  | zero => rfl
  | succ rows ih =>
      show (src.copyRange s d 0 dst).bind _ = _
      rw [copyRange_empty, Option.bind_some]
      exact ih _ _

/-- Rows inside both buffers, which do not overlap in the destination. -/
theorem copyRows_spec (hn : n ≤ dstStride) {rows : Nat} (s d : Nat)
    (hsrc : ∀ r < rows, s + r * srcStride + n ≤ src.size)
    (hdst : ∀ r < rows, d + r * dstStride + n ≤ dst.size) :
    ∃ dst', src.copyRows srcStride dstStride n rows s d dst = some dst' ∧ dst'.size = dst.size ∧
      (∀ r < rows, ∀ k < n, dst'.elem (d + r * dstStride + k) = src.elem (s + r * srcStride + k)) ∧
      ∀ i, (∀ r < rows, i < d + r * dstStride ∨ d + r * dstStride + n ≤ i) →
        dst'.elem i = dst.elem i := by
  induction rows generalizing s d dst with
  | zero => exact ⟨dst, rfl, rfl, fun r hr => absurd hr (Nat.not_lt_zero r), fun _ _ => rfl⟩
  | succ rows ih =>
      have hsrc₀ := hsrc 0 (Nat.succ_pos rows)
      have hdst₀ := hdst 0 (Nat.succ_pos rows)
      rw [Nat.zero_mul, Nat.add_zero] at hsrc₀ hdst₀
      obtain ⟨dst₁, hfirst, hsize₁, hcopied₁, hkept₁⟩ := copyRange_spec hsrc₀ hdst₀
      have hnext : ∀ base stride r : Nat, base + stride + r * stride = base + (r + 1) * stride := by
        intro base stride r
        ring
      have hdst₁ : ∀ r < rows, d + dstStride + r * dstStride + n ≤ dst₁.size := by
        intro r hr
        rw [hnext, hsize₁]
        exact hdst (r + 1) (by omega)
      obtain ⟨dst', hrest, hsize', hcopied', hkept'⟩ := ih (s + srcStride) (d + dstStride)
        (fun r hr => by rw [hnext]; exact hsrc (r + 1) (by omega)) hdst₁
      refine ⟨dst', ?_, hsize'.trans hsize₁, fun r hr k hk => ?_, fun i hi => ?_⟩
      · show (src.copyRange s d n dst).bind _ = _
        rw [hfirst, Option.bind_some]
        exact hrest
      · cases r with
        | zero =>
            -- the rows that follow start behind the first one
            rw [Nat.zero_mul, Nat.zero_mul, Nat.add_zero, Nat.add_zero,
              hkept' (d + k) fun r _ => Or.inl (by omega), hcopied₁ k hk]
        | succ r =>
            rw [← hnext, ← hnext]
            exact hcopied' r (by omega) k hk
      · rw [hkept' i fun r hr => by rw [hnext]; exact hi (r + 1) (by omega)]
        have hrow := hi 0 (Nat.succ_pos rows)
        rw [Nat.zero_mul, Nat.add_zero] at hrow
        exact hkept₁ i hrow

/-- The indices of one row end before the next row starts. -/
theorem row_le (width : Nat) {y rows : Nat} (hy : y < rows) : y * width + width ≤ rows * width := by
  rw [← Nat.succ_mul]
  exact Nat.mul_le_mul_right width hy

/-- A rectangle that lies inside both grids. -/
theorem copyRows_rect {sx sy dx dy rows : Nat} (hsx : sx + n ≤ srcStride) (hdx : dx + n ≤ dstStride)
    (hsrc : (sy + rows) * srcStride ≤ src.size) (hdst : (dy + rows) * dstStride ≤ dst.size) :
    ∃ dst', src.copyRows srcStride dstStride n rows (sx + sy * srcStride) (dx + dy * dstStride) dst =
        some dst' ∧ dst'.size = dst.size ∧
      ∀ x < dstStride, ∀ y, dst'.elem (y * dstStride + x) =
        if (dx ≤ x ∧ x < dx + n) ∧ dy ≤ y ∧ y < dy + rows then
          src.elem ((sy + (y - dy)) * srcStride + (sx + (x - dx)))
        else dst.elem (y * dstStride + x) := by
  have hrow : ∀ {y₀ w size : Nat}, (y₀ + rows) * w ≤ size → ∀ r < rows, (y₀ + r) * w + w ≤ size :=
    fun h r hr => (row_le _ (by omega)).trans h
  have hindex : ∀ x₀ y₀ r w k : Nat, x₀ + y₀ * w + r * w + k = (y₀ + r) * w + (x₀ + k) := by
    intro x₀ y₀ r w k
    ring
  have hsrcRows : ∀ r < rows, sx + sy * srcStride + r * srcStride + n ≤ src.size := by
    intro r hr
    rw [hindex]
    have := hrow hsrc r hr
    omega
  have hdstRows : ∀ r < rows, dx + dy * dstStride + r * dstStride + n ≤ dst.size := by
    intro r hr
    rw [hindex]
    have := hrow hdst r hr
    omega
  obtain ⟨dst', hcopy, hsize, hcopied, hkept⟩ :=
    copyRows_spec (show n ≤ dstStride by omega) _ _ hsrcRows hdstRows
  refine ⟨dst', hcopy, hsize, fun x hx y => ?_⟩
  by_cases hin : (dx ≤ x ∧ x < dx + n) ∧ dy ≤ y ∧ y < dy + rows
  · obtain ⟨⟨hleft, hright⟩, hbottom, htop⟩ := hin
    have hcell := hcopied (y - dy) (by omega) (x - dx) (by omega)
    rw [hindex, hindex, Nat.add_sub_cancel' hbottom, Nat.add_sub_cancel' hleft] at hcell
    rw [if_pos ⟨⟨hleft, hright⟩, hbottom, htop⟩, hcell]
  · rw [if_neg hin]
    refine hkept _ fun r hr => ?_
    have hstart := hindex dx dy r dstStride 0
    rw [Nat.add_zero, Nat.add_zero] at hstart
    rw [hstart]
    rcases Nat.lt_trichotomy y (dy + r) with hlt | rfl | hgt
    · have hle := row_le dstStride hlt
      left
      omega
    · omega
    · have hle := row_le dstStride hgt
      right
      omega

end Buffer
