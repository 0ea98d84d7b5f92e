import RoboRTS.Lib.PlaneDistance
import Mathlib.Data.Nat.Periodic

/-!
# Closed polygons with left turns

The corners of a closed polygon are a periodic sequence of points. A polygon that turns left at
every corner may go round more than once. It is convex exactly if it goes round once in each of its
periods, which shows at its lower corners, where an edge that falls is followed by one that rises:
from each of them on the corners are the same (`convex_iff`).

Where it goes round once, the directions of the edges turn from right to left through the rising
half and back through the falling half, so that the distance from the line through an edge grows
until it falls (`OneRound.cross_nonneg`).
-/

namespace ConvexTurns

open PlaneDistance

variable {K : Type*} [Field K] [LinearOrder K]

/-! ## Rising directions -/

/-- Upwards, or level to the right. -/
def Up (u : K × K) : Prop :=
  0 < u.2 ∨ u.2 = 0 ∧ 0 < u.1

variable {a b c u w : K × K}

theorem Up.le (h : Up u) : 0 ≤ u.2 :=
  h.elim le_of_lt fun h => h.1.ge

theorem not_up_zero : ¬ Up (0 : K × K) := by
  simp [Up]

section Cross

omit [LinearOrder K]

theorem cross_comm (u w : K × K) : cross w u = -cross u w := by
  simp only [cross]
  ring

theorem cross_same (u : K × K) : cross u u = 0 := by
  simp only [cross]
  ring

theorem cross_add (u v w : K × K) : cross u (v + w) = cross u v + cross u w := by
  simp only [cross, Prod.fst_add, Prod.snd_add]
  ring

theorem cross_neg (u w : K × K) : cross u (-w) = -cross u w := by
  simp only [cross, Prod.fst_neg, Prod.snd_neg]
  ring

theorem neg_cross (u w : K × K) : cross (-u) w = -cross u w := by
  simp only [cross, Prod.fst_neg, Prod.snd_neg]
  ring

theorem neg_cross_neg (u w : K × K) : cross (-u) (-w) = cross u w := by
  rw [neg_cross, cross_neg, neg_neg]

theorem cross_smul (k : K) (u w : K × K) : cross u (k • w) = k * cross u w := by
  simp only [cross, Prod.smul_fst, Prod.smul_snd, smul_eq_mul]
  ring

theorem smul_cross (k : K) (u w : K × K) : cross (k • u) w = k * cross u w := by
  simp only [cross, Prod.smul_fst, Prod.smul_snd, smul_eq_mul]
  ring

/-- The determinants of three vectors. -/
theorem cross_mul (a b c : K × K) : b.2 * cross a c = a.2 * cross b c + c.2 * cross a b := by
  simp only [cross]
  ring

end Cross

variable [IsStrictOrderedRing K]

theorem up_or_up_neg (hne : u ≠ 0) : Up u ∨ Up (-u) := by
  rcases lt_trichotomy u.2 0 with hlt | heq | hgt
  · exact Or.inr (Or.inl (neg_pos.mpr hlt))
  · rcases lt_trichotomy u.1 0 with hlt' | heq' | hgt'
    · exact Or.inr (Or.inr ⟨neg_eq_zero.mpr heq, neg_pos.mpr hlt'⟩)
    · exact absurd (Prod.ext heq' heq) hne
    · exact Or.inl (Or.inr ⟨heq, hgt'⟩)
  · exact Or.inl (Or.inl hgt)

theorem Up.add (ha : Up a) (hb : Up b) : Up (a + b) := by
  rcases ha with ha | ⟨ha, ha'⟩
  · exact Or.inl (add_pos_of_pos_of_nonneg ha hb.le)
  · rcases hb with hb | ⟨hb, hb'⟩
    · exact Or.inl (add_pos_of_nonneg_of_pos ha.ge hb)
    · exact Or.inr ⟨by rw [Prod.snd_add, ha, hb, add_zero], add_pos ha' hb'⟩

theorem Up.not_up_neg (h : Up u) : ¬ Up (-u) := fun hneg =>
  not_up_zero (add_neg_cancel u ▸ h.add hneg)

/-- A level direction comes first among those that rise. -/
theorem cross_nonneg_of_level (ha : Up a) (hlevel : a.2 = 0) (hc : Up c) : 0 ≤ cross a c := by
  have hpos : 0 < a.1 := ha.elim (fun h => absurd hlevel h.ne') And.right
  rw [cross, hlevel, zero_mul, sub_zero]
  exact mul_nonneg hpos.le hc.le

/-- Among the directions that rise, to be on the left is transitive. -/
theorem cross_nonneg_trans (ha : Up a) (hb : Up b) (hc : Up c) (hab : 0 ≤ cross a b)
    (hbc : 0 ≤ cross b c) : 0 ≤ cross a c := by
  rcases hb with hpos | ⟨hlevel, hpos⟩
  · refine nonneg_of_mul_nonneg_right ?_ hpos
    rw [cross_mul]
    exact add_nonneg (mul_nonneg ha.le hbc) (mul_nonneg hc.le hab)
  · refine cross_nonneg_of_level ha ?_ hc
    rw [cross, hlevel, mul_zero, zero_sub] at hab
    exact le_antisymm (nonpos_of_mul_nonpos_left (neg_nonneg.mp hab) hpos) ha.le

theorem cross_pos_trans (ha : Up a) (hb : Up b) (hc : Up c) (hab : 0 ≤ cross a b)
    (hbc : 0 < cross b c) : 0 < cross a c := by
  refine lt_of_le_of_ne (cross_nonneg_trans ha hb hc hab hbc.le) fun hzero => ?_
  have hmul := cross_mul a b c
  rw [← hzero, mul_zero] at hmul
  -- both products vanish
  have hleft : a.2 * cross b c = 0 := by
    linarith [mul_nonneg ha.le hbc.le, mul_nonneg hc.le hab]
  have hlevel : a.2 = 0 := (mul_eq_zero.mp hleft).resolve_right hbc.ne'
  have hpos : 0 < a.1 := ha.elim (fun h => absurd hlevel h.ne') And.right
  rw [cross, hlevel, zero_mul, sub_zero] at hzero
  have hlevel' : c.2 = 0 := (mul_eq_zero.mp hzero.symm).resolve_left hpos.ne'
  have hback := cross_nonneg_of_level hc hlevel' hb
  rw [cross_comm] at hback
  linarith

/-! ## Polygons -/

/-- The edge from corner `i` to the next one. -/
def edge (v : ℕ → K × K) (i : ℕ) : K × K :=
  v (i + 1) - v i

def LeftTurns (v : ℕ → K × K) : Prop :=
  ∀ i, 0 < cross (edge v i) (edge v (i + 1))

/-- No corner is to the right of the line through an edge. -/
def Convex (v : ℕ → K × K) : Prop :=
  ∀ i j, 0 ≤ cross (edge v i) (v j - v i)

variable {v : ℕ → K × K} {first last m n p start : ℕ}

omit [LinearOrder K] [IsStrictOrderedRing K] in
theorem edge_period (hperiod : Function.Periodic v m) : Function.Periodic (edge v) m := by
  intro i
  rw [edge, edge, hperiod, Nat.add_right_comm, hperiod]

omit [LinearOrder K] [IsStrictOrderedRing K] in
theorem edge_neg (v : ℕ → K × K) (i : ℕ) : edge (fun k => -v k) i = -edge v i := by
  rw [edge, edge]
  abel

omit [IsStrictOrderedRing K] in
theorem LeftTurns.edge_ne_zero (hturn : LeftTurns v) (i : ℕ) : edge v i ≠ 0 := by
  intro hzero
  have hpos := hturn i
  rw [hzero] at hpos
  simp [cross] at hpos

omit [IsStrictOrderedRing K] in
theorem LeftTurns.neg (hturn : LeftTurns v) : LeftTurns fun k => -v k := by
  intro i
  rw [edge_neg, edge_neg, neg_cross_neg]
  exact hturn i

/-- Edges that rise turn to the left. -/
theorem cross_pos_of_up (hturn : LeftTurns v) {i j : ℕ} (hij : i < j)
    (hup : ∀ k, i ≤ k → k ≤ j → Up (edge v k)) : 0 < cross (edge v i) (edge v j) := by
  induction j, hij using Nat.le_induction with
  | base => exact hturn i
  | succ j hij ih =>
      exact cross_pos_trans (hup i le_rfl (by omega)) (hup j (by omega) (by omega))
        (hup (j + 1) (by omega) le_rfl) (ih fun k hk hk' => hup k hk (by omega)).le (hturn j)

omit [IsStrictOrderedRing K] in
/-- Numbers that do not grow again after they fall are at least as large as the first or the last
one. -/
theorem nonneg_of_switch {s : ℕ → K} (hfirst : 0 ≤ s first) (hlast : 0 ≤ s last)
    (hswitch : ∀ k, first ≤ k → k + 1 < last → s (k + 1) ≤ s k → s (k + 2) ≤ s (k + 1)) {j : ℕ}
    (hj : first ≤ j) (hj' : j ≤ last) : 0 ≤ s j := by
  by_cases hfall : ∃ k, first ≤ k ∧ k < j ∧ s (k + 1) ≤ s k
  · obtain ⟨k, hk, hkj, hle⟩ := hfall
    have hfalls : ∀ l, k ≤ l → l < last → s (l + 1) ≤ s l := by
      intro l hl
      induction l, hl using Nat.le_induction with
      | base => exact fun _ => hle
      | succ l hl ih => exact fun hlt => hswitch l (by omega) hlt (ih (by omega))
    have hdown : ∀ l, j ≤ l → l ≤ last → s l ≤ s j := by
      intro l hl
      induction l, hl using Nat.le_induction with
      | base => exact fun _ => le_rfl
      | succ l hl ih =>
          exact fun hlt => (hfalls l (by omega) (by omega)).trans (ih (by omega))
    exact hlast.trans (hdown last hj' le_rfl)
  · have hup : ∀ l, first ≤ l → l ≤ j → s first ≤ s l := by
      intro l hl
      induction l, hl using Nat.le_induction with
      | base => exact fun _ => le_rfl
      | succ l hl ih =>
          intro hlt
          have hgrow : s l ≤ s (l + 1) :=
            le_of_not_ge fun h => hfall ⟨l, hl, by omega, h⟩
          exact (ih (by omega)).trans hgrow
    exact hfirst.trans (hup j hj le_rfl)

/-! ## Once round -/

/-- In each period the edges rise from corner `start` and fall from corner `p`. -/
structure OneRound (v : ℕ → K × K) (start p m : ℕ) : Prop where
  period : Function.Periodic v m
  rise : ∀ k, start ≤ k → k < p → Up (edge v k)
  fall : ∀ k, p ≤ k → k < start + m → Up (-edge v k)
  start_lt : start < p
  lt_stop : p < start + m

omit [IsStrictOrderedRing K] in
/-- Turned upside down, the falling half comes first. -/
theorem OneRound.neg (h : OneRound v start p m) :
    OneRound (fun k => -v k) p (start + m) m where
  period := fun k => congrArg Neg.neg (h.period k)
  rise := fun k hk hk' => edge_neg v k ▸ h.fall k hk hk'
  fall := by
    intro k hk hk'
    obtain ⟨l, rfl⟩ : ∃ l, k = l + m := ⟨k - m, by omega⟩
    rw [edge_neg, neg_neg, edge_period h.period]
    exact h.rise l (by omega) (by omega)
  start_lt := h.lt_stop
  lt_stop := Nat.add_lt_add_right h.start_lt m

/-- An edge that rises has the corners of the period on its left. -/
theorem OneRound.cross_nonneg (h : OneRound v start p m) (hturn : LeftTurns v) {i j : ℕ}
    (hi : start ≤ i) (hi' : i < p) (hj : i < j) (hj' : j ≤ i + m) :
    0 ≤ cross (edge v i) (v j - v i) := by
  have hstep : ∀ k, cross (edge v i) (v (k + 1) - v i) =
      cross (edge v i) (v k - v i) + cross (edge v i) (edge v k) := by
    intro k
    rw [← cross_add]
    congr 1
    rw [edge]
    abel
  refine nonneg_of_switch (s := fun k => cross (edge v i) (v k - v i)) (cross_same _).ge ?_ ?_
    (Nat.succ_le_of_lt hj) hj'
  · rw [h.period, sub_self]
    simp [cross]
  · intro k hk hk' hle
    rw [hstep, add_le_iff_nonpos_right] at hle
    rw [hstep (k + 1), add_le_iff_nonpos_right]
    rcases Nat.lt_or_ge k p with hkp | hkp
    · -- the edge `k` rises as well
      exact absurd (cross_pos_of_up hturn hk fun l hl hl' =>
        h.rise l (by omega) (by omega)) hle.not_gt
    · rcases Nat.lt_or_ge (k + 1) (start + m) with hfall | hnext
      · have hpos := cross_pos_trans (h.rise i hi hi') (h.fall k hkp (by omega))
          (h.fall (k + 1) (by omega) hfall) (by rw [cross_neg]; linarith)
          (by rw [neg_cross_neg]; exact hturn k)
        rw [cross_neg] at hpos
        linarith
      · -- the next edge is one before `i`, a period later
        obtain ⟨l, hl⟩ : ∃ l, k + 1 = l + m := ⟨k + 1 - m, by omega⟩
        rw [hl, edge_period h.period, cross_comm, neg_nonpos]
        exact (cross_pos_of_up hturn (by omega) fun l' hl' hl'' =>
          h.rise l' (by omega) (by omega)).le


omit [Field K] [LinearOrder K] [IsStrictOrderedRing K] in
/-- Every corner is one of those of a period. -/
theorem exists_shift (hm : 0 < m) (hperiod : Function.Periodic v m) (start x : ℕ) :
    ∃ y, start ≤ y ∧ y < start + m ∧ ∀ k, v (y + k) = v (x + k) := by
  refine ⟨start + (x + m * start - start) % m, Nat.le_add_right _ _,
    Nat.add_lt_add_left (Nat.mod_lt _ hm) _, fun k => ?_⟩
  have hle : start ≤ m * start := Nat.le_mul_of_pos_left _ hm
  have hmod : (start + (x + m * start - start) % m) % m = x % m := by
    rw [Nat.add_mod_mod, show start + (x + m * start - start) = x + m * start by omega,
      Nat.add_mul_mod_self_left]
  rw [← hperiod.map_mod_nat, ← hperiod.map_mod_nat (x + k), Nat.add_mod, hmod, ← Nat.add_mod]

theorem OneRound.convex (h : OneRound v start p m) (hturn : LeftTurns v) : Convex v := by
  have hm : 0 < m := by
    have hstart := h.start_lt
    have hstop := h.lt_stop
    omega
  intro i j
  obtain ⟨i', hi, hi', hvi⟩ := exists_shift hm h.period start i
  obtain ⟨j', hj, hj', hvj⟩ := exists_shift hm h.period (i' + 1) j
  rw [edge, ← hvi 1, show v i = v i' from (hvi 0).symm, show v j = v j' from (hvj 0).symm, ← edge]
  rcases Nat.lt_or_ge i' p with hrise | hfall
  · exact h.cross_nonneg hturn hi hrise hj (by omega)
  · have hneg := h.neg.cross_nonneg hturn.neg hfall hi' hj (by omega)
    rw [edge_neg, neg_sub_neg, ← neg_sub, neg_cross_neg] at hneg
    exact hneg

/-! ## Lower corners -/

/-- The edge `i` falls and the next one rises. -/
def Lower (v : ℕ → K × K) (i : ℕ) : Prop :=
  ¬ Up (edge v i) ∧ Up (edge v (i + 1))

/-- A lower corner of a convex polygon is below all others, or level and to their left. -/
theorem Convex.up_of_lower (hconvex : Convex v) (hturn : LeftTurns v) {i k : ℕ} (hlower : Lower v i)
    (hne : v k ≠ v (i + 1)) : Up (v k - v (i + 1)) := by
  refine (up_or_up_neg (sub_ne_zero.mpr hne)).resolve_right fun hneg => ?_
  have hfall := (up_or_up_neg (hturn.edge_ne_zero i)).resolve_left hlower.1
  have hnext := hconvex (i + 1) k
  have hedge : 0 ≤ cross (edge v i) (v k - v (i + 1)) := by
    have hleft := hconvex i k
    rw [← sub_add_sub_cancel (v k) (v (i + 1)) (v i), cross_add] at hleft
    rw [← edge, cross_same, add_zero] at hleft
    exact hleft
  have hback := cross_nonneg_trans hfall hneg hlower.2 (by rwa [neg_cross_neg])
    (by rw [cross_comm, cross_neg, neg_neg]; exact hnext)
  rw [neg_cross, neg_nonneg] at hback
  exact hback.not_gt (hturn i)

theorem Convex.lower_eq (hconvex : Convex v) (hturn : LeftTurns v) {i j : ℕ} (hi : Lower v i)
    (hj : Lower v j) : v (i + 1) = v (j + 1) := by
  by_contra hne
  have hup := hconvex.up_of_lower hturn hj hne
  have hup' := hconvex.up_of_lower hturn hi (Ne.symm hne)
  rw [← neg_sub] at hup'
  exact hup.not_up_neg hup'


/-- The polygon goes on in the same way from equal corners. -/
theorem Convex.next_eq (hconvex : Convex v) (hturn : LeftTurns v) {i j : ℕ} (heq : v i = v j) :
    v (i + 1) = v (j + 1) := by
  have hcross : cross (edge v i) (edge v j) = 0 := by
    have hleft := hconvex i (j + 1)
    have hleft' := hconvex j (i + 1)
    rw [heq, ← edge] at hleft
    rw [← heq, ← edge, cross_comm, neg_nonneg] at hleft'
    exact le_antisymm hleft' hleft
  -- the edges have the same line, hence the same direction and the same length
  have hmultiple := eq_smul_of_cross (hturn.edge_ne_zero i) hcross
  generalize dot (edge v j) (edge v i) / lengthSq (edge v i) = k at hmultiple
  have hnext : ∀ i, v (i + 1) = edge v i + v i := fun i => (sub_add_cancel _ _).symm
  have hpos : 0 < k := by
    by_contra hneg
    have hright := hconvex j (i + 2)
    rw [← heq, hnext (i + 1), hnext i, ← add_assoc, add_sub_cancel_right, hmultiple, cross_add,
      smul_cross, smul_cross, cross_same, mul_zero, add_zero] at hright
    have hzero : k ≠ 0 := by
      rintro rfl
      exact hturn.edge_ne_zero j (by rw [hmultiple, zero_smul])
    exact (mul_neg_of_neg_of_pos (lt_of_le_of_ne (not_lt.mp hneg) hzero) (hturn i)).not_ge hright
  have hdiff : edge v j - edge v i = (k - 1) • edge v i := by
    rw [hmultiple, sub_smul, one_smul]
  have hle : k ≤ 1 := by
    have hright := hconvex (i + 1) (j + 1)
    rw [hnext j, hnext i, heq, add_sub_add_right_eq_sub, hdiff, cross_smul, cross_comm, mul_neg,
      neg_nonneg] at hright
    exact sub_nonpos.mp (nonpos_of_mul_nonpos_left hright (hturn i))
  have hge : 1 ≤ k := by
    have hright := hconvex (j + 1) (i + 1)
    have hturn' := hturn j
    rw [hnext j, hnext i, heq, add_sub_add_right_eq_sub, ← neg_sub, hdiff, cross_neg, cross_smul,
      cross_comm, mul_neg, neg_neg] at hright
    rw [hmultiple, smul_cross] at hturn'
    exact sub_nonneg.mp (nonneg_of_mul_nonneg_left hright (pos_of_mul_pos_right hturn' hpos.le))
  rw [hnext i, hnext j, hmultiple, le_antisymm hle hge, one_smul, heq]

/-! ## Finding a round -/

/-- Edges that rise do not come back. -/
theorem up_of_rising {start : ℕ} (hrise : ∀ i, start ≤ i → Up (edge v i)) (k : ℕ) :
    Up (v (start + 1 + k) - v start) := by
  induction k with
  | zero => exact hrise start le_rfl
  | succ k ih =>
      have hstep : v (start + 1 + (k + 1)) - v start =
          v (start + 1 + k) - v start + edge v (start + 1 + k) := by
        show v (start + 1 + k + 1) - v start = _
        rw [edge]
        abel
      rw [hstep]
      exact ih.add (hrise _ (by omega))

theorem exists_not_up (hn : 0 < n) (hperiod : Function.Periodic v n) (start : ℕ) :
    ∃ i, start ≤ i ∧ ¬ Up (edge v i) := by
  by_contra hnone
  have hrise : ∀ i, start ≤ i → Up (edge v i) :=
    fun i hi => not_not.mp fun h => hnone ⟨i, hi, h⟩
  have hup := up_of_rising hrise (n - 1)
  rw [show start + 1 + (n - 1) = start + n by omega, hperiod, sub_self] at hup
  exact not_up_zero hup

theorem exists_up (hn : 0 < n) (hperiod : Function.Periodic v n) (hturn : LeftTurns v)
    (start : ℕ) : ∃ i, start ≤ i ∧ Up (edge v i) := by
  obtain ⟨i, hi, hup⟩ := exists_not_up (v := fun k => -v k) hn
    (fun k => congrArg Neg.neg (hperiod k)) start
  rw [edge_neg] at hup
  exact ⟨i, hi, (up_or_up_neg (hturn.edge_ne_zero i)).resolve_right hup⟩

theorem exists_lower (hn : 0 < n) (hperiod : Function.Periodic v n) (hturn : LeftTurns v) :
    ∃ i, Lower v i := by
  by_contra hnone
  obtain ⟨i, -, hi⟩ := exists_not_up hn hperiod 0
  obtain ⟨j, hij, hj⟩ := exists_up hn hperiod hturn i
  have hfalls : ∀ k, i ≤ k → ¬ Up (edge v k) := by
    intro k hk
    induction k, hk using Nat.le_induction with
    | base => exact hi
    | succ k hk ih => exact fun hup => hnone ⟨k, ih, hup⟩
  exact hfalls j hij hj

/-- From a lower corner to the next one, if the corners are the same from both on. -/
theorem exists_oneRound (hn : 0 < n) (hperiod : Function.Periodic v n) (hturn : LeftTurns v)
    (hsame : ∀ i j, Lower v i → Lower v j → ∀ k, v (i + k) = v (j + k)) :
    ∃ start p m, OneRound v start p m := by
  classical
  obtain ⟨i, hi⟩ := exists_lower hn hperiod hturn
  have hagain : ∃ j, i < j ∧ Lower v j := by
    refine ⟨i + n, by omega, ?_⟩
    rw [Lower, Nat.add_right_comm, edge_period hperiod, edge_period hperiod]
    exact hi
  have hnext := Nat.find_spec hagain
  have hmin : ∀ k, i < k → k < Nat.find hagain → ¬ Lower v k :=
    fun k hk hlt hlower => Nat.find_min hagain hlt ⟨hk, hlower⟩
  generalize Nat.find hagain = j at hnext hmin
  obtain ⟨hij, hj⟩ := hnext
  have hfalls : ∃ k, i < k ∧ ¬ Up (edge v k) := ⟨j, hij, hj.1⟩
  have hfall := Nat.find_spec hfalls
  have hrise : ∀ k, i < k → k < Nat.find hfalls → Up (edge v k) :=
    fun k hk hlt => not_not.mp fun h => Nat.find_min hfalls hlt ⟨hk, h⟩
  have hle : Nat.find hfalls ≤ j := Nat.find_min' hfalls ⟨hij, hj.1⟩
  generalize Nat.find hfalls = p at hfall hrise hle
  -- between the two lower corners the edges do not rise again
  have hnot : ∀ k, p ≤ k → k ≤ j → ¬ Up (edge v k) := by
    intro k hk
    induction k, hk using Nat.le_induction with
    | base => exact fun _ => hfall.2
    | succ k hk ih =>
        exact fun hle' hup => hmin k (hfall.1.trans_le hk) (by omega) ⟨ih (by omega), hup⟩
  refine ⟨i + 1, p, j - i, ?_, hrise, ?_, ?_, by omega⟩
  · intro x
    have hshift := hsame j i hj hi (x + n * i - i)
    have hpos : i ≤ n * i := Nat.le_mul_of_pos_left _ hn
    rw [show j + (x + n * i - i) = x + (j - i) + n * i by omega,
      show i + (x + n * i - i) = x + n * i by omega] at hshift
    have hround := hperiod.nat_mul i
    rw [Nat.cast_id, Nat.mul_comm] at hround
    rwa [hround, hround] at hshift
  · intro k hk hk'
    exact (up_or_up_neg (hturn.edge_ne_zero k)).resolve_left (hnot k hk (by omega))
  · -- the edge after the lower corner rises
    refine lt_of_le_of_ne hfall.1 ?_
    rintro rfl
    exact hfall.2 hi.2

/-- A polygon with left turns is convex exactly if it goes round once in each period: the corners
are the same from each lower corner on. -/
theorem convex_iff (hn : 0 < n) (hperiod : Function.Periodic v n) (hturn : LeftTurns v) :
    Convex v ↔ ∀ i j, Lower v i → Lower v j → ∀ k, v (i + k) = v (j + k) := by
  constructor
  · intro hconvex i j hi hj
    have hfrom : ∀ k, v (i + 1 + k) = v (j + 1 + k) := by
      intro k
      induction k with
      | zero => exact hconvex.lower_eq hturn hi hj
      | succ k ih => exact hconvex.next_eq hturn ih
    intro k
    have hlate := hfrom (k + n - 1)
    rwa [show i + 1 + (k + n - 1) = i + k + n by omega,
      show j + 1 + (k + n - 1) = j + k + n by omega, hperiod, hperiod] at hlate
  · intro hsame
    obtain ⟨start, p, m, hround⟩ := exists_oneRound hn hperiod hturn hsame
    exact hround.convex hturn

end ConvexTurns
