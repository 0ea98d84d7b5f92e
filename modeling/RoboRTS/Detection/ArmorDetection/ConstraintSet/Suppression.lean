import RoboRTS.Detection.ArmorDetection.ConstraintSet.Defs
import Mathlib.Tactic.Ring

/-!
# Non-maximum suppression

The loops over two candidates go on only while both are still marked as armors, so that a comparison
is left out as soon as an earlier one has struck a candidate at or before it (`Compared`). The last
loop erases while its index moves forward. Which candidates are erased follows from the comparisons
between the candidates alone (`suppress_eq`), and the suppression does what it should exactly if
every two overlapping candidates include an erased one (`suppresses_iff`).
-/

namespace RoboRTS.Detection.ConstraintSet

variable {K α β : Type*} [Field K] [LinearOrder K]

section Relations

variable (sqrt : K → K) (info : α → ArmorInfo K) (armors : List α)

/-- Candidate `j` loses against `i`: they overlap, and its angle is not smaller. -/
def Hit (i j : Nat) : Prop :=
  ∃ a ∈ armors[i]?, ∃ b ∈ armors[j]?,
    overlaps sqrt (info a).rect (info b).rect = true ∧ (info a).rect.angle ≤ (info b).rect.angle

/-- Candidate `i` loses against `j`: they overlap, and its angle is larger. -/
def Beaten (i j : Nat) : Prop :=
  ∃ a ∈ armors[i]?, ∃ b ∈ armors[j]?,
    overlaps sqrt (info a).rect (info b).rect = true ∧ (info b).rect.angle < (info a).rect.angle

instance (i j : Nat) : Decidable (Hit sqrt info armors i j) :=
  inferInstanceAs (Decidable (∃ a ∈ armors[i]?, ∃ b ∈ armors[j]?, _ ∧ _))

instance (i j : Nat) : Decidable (Beaten sqrt info armors i j) :=
  inferInstanceAs (Decidable (∃ a ∈ armors[i]?, ∃ b ∈ armors[j]?, _ ∧ _))

/-- No earlier candidate than `i` hits one up to `j`. -/
def Compared (i j : Nat) : Prop :=
  i < j ∧ ∀ k < i, ∀ l ≤ j, k < l → ¬ Hit sqrt info armors k l

/-- A comparison of `i` with a later candidate strikes `k`. -/
def Strikes (i k : Nat) : Prop :=
  ∃ j < armors.length, Compared sqrt info armors i j ∧
    (Hit sqrt info armors i j ∧ k = j ∨ Beaten sqrt info armors i j ∧ k = i)

/-- Some comparison strikes `k`. -/
def Marked (k : Nat) : Prop :=
  ∃ i < armors.length, Strikes sqrt info armors i k

instance (i j : Nat) : Decidable (Compared sqrt info armors i j) :=
  inferInstanceAs (Decidable (i < j ∧ ∀ k < i, ∀ l ≤ j, k < l → ¬ Hit sqrt info armors k l))

instance (i k : Nat) : Decidable (Strikes sqrt info armors i k) :=
  inferInstanceAs (Decidable (∃ j < armors.length, Compared sqrt info armors i j ∧
    (Hit sqrt info armors i j ∧ k = j ∨ Beaten sqrt info armors i j ∧ k = i)))

instance (k : Nat) : Decidable (Marked sqrt info armors k) :=
  inferInstanceAs (Decidable (∃ i < armors.length, Strikes sqrt info armors i k))

/-- The candidate is erased: it is marked, and the one before it is not erased. -/
def Erased (k : Nat) : Prop :=
  ForwardErase.erased (fun k => decide (Marked sqrt info armors k)) k = true

instance (k : Nat) : Decidable (Erased sqrt info armors k) :=
  inferInstanceAs (Decidable (_ = true))

end Relations

variable {sqrt : K → K} {info : α → ArmorInfo K} {armors : List α} {i j k l : Nat}
  {flags : List Bool}

/-! ## One comparison -/

theorem Hit.lt_length (h : Hit sqrt info armors i j) : j < armors.length := by
  obtain ⟨a, -, b, hb, -⟩ := h
  exact (List.getElem?_eq_some_iff.mp hb).1

theorem Beaten.lt_length (h : Beaten sqrt info armors i j) : i < armors.length := by
  obtain ⟨a, ha, -⟩ := h
  exact (List.getElem?_eq_some_iff.mp ha).1

theorem overlaps_comm (a b : RotatedRect K) : overlaps sqrt a b = overlaps sqrt b a := by
  have hsq : (a.centerX - b.centerX) * (a.centerX - b.centerX) +
      (a.centerY - b.centerY) * (a.centerY - b.centerY) =
      (b.centerX - a.centerX) * (b.centerX - a.centerX) +
      (b.centerY - a.centerY) * (b.centerY - a.centerY) := by ring
  unfold overlaps
  dsimp only
  rw [hsq, add_comm a.width]

theorem getElem?_set_false (hk : k < flags.length) :
    (flags.set k false)[l]? = some false ↔ flags[l]? = some false ∨ l = k := by
  rw [List.getElem?_set]
  by_cases h : k = l
  · rw [if_pos h, if_pos (h ▸ hk)]
    exact iff_of_true rfl (Or.inr h.symm)
  · rw [if_neg h]
    exact ⟨Or.inl, fun hor => hor.resolve_right fun heq => h heq.symm⟩

variable (sqrt info i j) in
/-- What a comparison does to the flags. -/
theorem compare_spec (hlength : flags.length = armors.length) :
    (compare sqrt info armors i j flags).length = armors.length ∧
      ∀ k, (compare sqrt info armors i j flags)[k]? = some false ↔ flags[k]? = some false ∨
        Hit sqrt info armors i j ∧ k = j ∨ Beaten sqrt info armors i j ∧ k = i := by
  -- where the flags stay as they are, neither candidate loses
  have hkeep : ¬ Hit sqrt info armors i j → ¬ Beaten sqrt info armors i j → ∀ k,
      flags[k]? = some false ↔ flags[k]? = some false ∨
        Hit sqrt info armors i j ∧ k = j ∨ Beaten sqrt info armors i j ∧ k = i :=
    fun hhit hbeaten k => ⟨Or.inl, fun h => h.elim id fun h => h.elim
      (fun h => absurd h.1 hhit) fun h => absurd h.1 hbeaten⟩
  unfold compare
  split
  case h_1 a b ha hb =>
    split
    case isTrue hoverlap =>
      split
      case isTrue hlarger =>
        have hbeaten : Beaten sqrt info armors i j := ⟨a, ha, b, hb, hoverlap, hlarger⟩
        have hhit : ¬ Hit sqrt info armors i j := by
          rintro ⟨a', ha', b', hb', -, hle⟩
          rw [ha] at ha'
          rw [hb] at hb'
          cases ha'
          cases hb'
          exact absurd hle (not_le.mpr hlarger)
        refine ⟨by rw [List.length_set, hlength], fun k => ?_⟩
        rw [getElem?_set_false (by rw [hlength]; exact hbeaten.lt_length)]
        refine or_congr_right ⟨fun h => Or.inr ⟨hbeaten, h⟩, fun h => h.elim ?_ And.right⟩
        exact fun h => absurd h.1 hhit
      case isFalse hsmaller =>
        have hhit : Hit sqrt info armors i j := ⟨a, ha, b, hb, hoverlap, not_lt.mp hsmaller⟩
        have hbeaten : ¬ Beaten sqrt info armors i j := by
          rintro ⟨a', ha', b', hb', -, hlt⟩
          rw [ha] at ha'
          rw [hb] at hb'
          cases ha'
          cases hb'
          exact hsmaller hlt
        refine ⟨by rw [List.length_set, hlength], fun k => ?_⟩
        rw [getElem?_set_false (by rw [hlength]; exact hhit.lt_length)]
        refine or_congr_right ⟨fun h => Or.inl ⟨hhit, h⟩, fun h => h.elim And.right ?_⟩
        exact fun h => absurd h.1 hbeaten
    case isFalse hapart =>
      have hnone : ∀ a' ∈ armors[i]?, ∀ b' ∈ armors[j]?,
          overlaps sqrt (info a').rect (info b').rect ≠ true := by
        intro a' ha' b' hb'
        rw [ha] at ha'
        rw [hb] at hb'
        cases ha'
        cases hb'
        exact hapart
      exact ⟨hlength, hkeep (fun ⟨a', ha', b', hb', h, _⟩ => hnone a' ha' b' hb' h)
        fun ⟨a', ha', b', hb', h, _⟩ => hnone a' ha' b' hb' h⟩
  case h_2 hnone =>
    exact ⟨hlength, hkeep (fun ⟨a, ha, b, hb, _⟩ => hnone a b ha hb)
      fun ⟨a, ha, b, hb, _⟩ => hnone a b ha hb⟩

/-! ## The comparisons of one candidate -/

theorem eq_true_of_ne_false (h : k < flags.length) (hne : flags[k]? ≠ some false) :
    flags[k]? = some true := by
  rw [List.getElem?_eq_getElem h] at hne ⊢
  cases hflag : flags[k] with
  | true => rfl
  | false => exact absurd (congrArg some hflag) hne

variable (sqrt info) in
/-- The comparisons with the candidates from `j` on stop at the first one that is struck. -/
theorem compareAfter_spec (fuel : Nat) (hlength : flags.length = armors.length) (hij : i < j)
    (hfuel : armors.length ≤ j + fuel) :
    (compareAfter sqrt info armors i fuel j flags).length = armors.length ∧
      ∀ k, (compareAfter sqrt info armors i fuel j flags)[k]? = some false ↔
        flags[k]? = some false ∨ ∃ m < armors.length, (j ≤ m ∧
          ∀ l, j ≤ l → l ≤ m → flags[l]? ≠ some false) ∧
          (Hit sqrt info armors i m ∧ k = m ∨ Beaten sqrt info armors i m ∧ k = i) := by
  induction fuel generalizing j flags with
  | zero =>
      refine ⟨hlength, fun k => ⟨Or.inl, fun h => h.elim id ?_⟩⟩
      rintro ⟨m, hm, ⟨hjm, -⟩, -⟩
      omega
  | succ fuel ih =>
      rw [compareAfter]
      split
      case isTrue hgo =>
        obtain ⟨hlength', hflags⟩ := compare_spec sqrt info i j hlength
        obtain ⟨hlengthRest, hrest⟩ := ih (j := j + 1) hlength' (by omega) (by omega)
        refine ⟨hlengthRest, fun k => ?_⟩
        -- the comparison with `j` leaves the flags behind `j` as they are
        have hbehind : ∀ l, j + 1 ≤ l → ((compare sqrt info armors i j flags)[l]? = some false ↔
            flags[l]? = some false) := by
          intro l hl
          rw [hflags]
          exact ⟨fun h => h.elim id fun h => by omega, Or.inl⟩
        have hlive : flags[j]? ≠ some false := fun h => by rw [hgo.2] at h; cases h
        rw [hrest, hflags, or_assoc]
        refine or_congr_right ⟨?_, ?_⟩
        · rintro (hstruck | ⟨m, hm, ⟨hjm, hlives⟩, hstruck⟩)
          · refine ⟨j, hgo.1, ⟨le_rfl, fun l hl hl' => ?_⟩, hstruck⟩
            rwa [Nat.le_antisymm hl' hl]
          · refine ⟨m, hm, ⟨by omega, fun l hl hl' => ?_⟩, hstruck⟩
            rcases Nat.eq_or_lt_of_le hl with rfl | hlt
            · exact hlive
            · exact fun h => hlives l hlt hl' ((hbehind l hlt).mpr h)
        · rintro ⟨m, hm, ⟨hjm, hlives⟩, hstruck⟩
          rcases Nat.eq_or_lt_of_le hjm with rfl | hlt
          · exact Or.inl hstruck
          · exact Or.inr ⟨m, hm, ⟨hlt, fun l hl hl' h =>
              hlives l (by omega) hl' ((hbehind l hl).mp h)⟩, hstruck⟩
      case isFalse hstop =>
        refine ⟨hlength, fun k => ⟨Or.inl, fun h => h.elim id ?_⟩⟩
        rintro ⟨m, hm, ⟨hjm, hlives⟩, -⟩
        exact absurd ⟨by omega, eq_true_of_ne_false (by omega) (hlives j le_rfl hjm)⟩ hstop

/-! ## All comparisons -/

/-- Where there is a hit, there is one that is not left out. -/
theorem exists_compared_hit (hkl : k < l) (h : Hit sqrt info armors k l) :
    ∃ k' ≤ k, ∃ l' ≤ l, Compared sqrt info armors k' l' ∧ Hit sqrt info armors k' l' := by
  induction k using Nat.strong_induction_on generalizing l with
  | _ k ih =>
      by_cases hcompared : Compared sqrt info armors k l
      · exact ⟨k, le_rfl, l, le_rfl, hcompared, h⟩
      · simp only [Compared, not_and, not_forall, not_not] at hcompared
        obtain ⟨k₁, hk₁, l₁, hl₁, hlt, hhit⟩ := hcompared hkl
        obtain ⟨k', hk', l', hl', hfound⟩ := ih k₁ hk₁ hlt hhit
        exact ⟨k', hk'.trans hk₁.le, l', hl'.trans hl₁, hfound⟩

/-- The flags when the loop comes to candidate `i`: those that earlier candidates strike are off,
and no earlier candidate had been struck by one before it when the loop came to it. -/
structure Inv (sqrt : K → K) (info : α → ArmorInfo K) (armors : List α) (i : Nat)
    (flags : List Bool) : Prop where
  length : flags.length = armors.length
  off : ∀ k, flags[k]? = some false ↔ ∃ m < i, Strikes sqrt info armors m k
  entered : ∀ l < i, ∀ k < l, Compared sqrt info armors k l → ¬ Hit sqrt info armors k l

/-- A candidate behind `i` whose comparison is not left out, in terms of the flags. -/
theorem Inv.compared_iff (h : Inv sqrt info armors i flags) (hlive : flags[i]? ≠ some false) :
    Compared sqrt info armors i j ↔
      i + 1 ≤ j ∧ ∀ l, i + 1 ≤ l → l ≤ j → flags[l]? ≠ some false := by
  constructor
  · intro hcompared
    refine ⟨hcompared.1, fun l hl hlj hoff => ?_⟩
    obtain ⟨m, hm, n, -, hmn, hstruck⟩ := (h.off l).mp hoff
    rcases hstruck with ⟨hhit, rfl⟩ | ⟨-, rfl⟩
    · exact hcompared.2 m hm l hlj hmn.1 hhit
    · omega
  · rintro ⟨hij, hlives⟩
    refine ⟨hij, fun k hk l hl hkl hhit => ?_⟩
    obtain ⟨k', hk', l', hl', hcompared, hhit'⟩ := exists_compared_hit hkl hhit
    have hoff : flags[l']? = some false := (h.off l').mpr
      ⟨k', by omega, l', hhit'.lt_length, hcompared, Or.inl ⟨hhit', rfl⟩⟩
    rcases Nat.lt_trichotomy l' i with hlt | rfl | hgt
    · exact h.entered l' hlt k' hcompared.1 hcompared hhit'
    · exact hlive hoff
    · exact hlives l' hgt (hl'.trans hl) hoff

/-- A candidate that was struck by an earlier one ends the loop: what follows is not compared. -/
theorem Inv.strikes_lt (h : Inv sqrt info armors i flags) (hoff : flags[i]? = some false)
    (hstrikes : Strikes sqrt info armors j k) : j < i := by
  obtain ⟨m, hm, n, hn, hcompared, hstruck⟩ := (h.off i).mp hoff
  rcases hstruck with ⟨hhit, rfl⟩ | ⟨-, rfl⟩
  · by_contra hle
    obtain ⟨l, -, hcompared', -⟩ := hstrikes
    exact hcompared'.2 m (by omega) i (by have := hcompared'.1; omega) hcompared.1 hhit
  · omega

/-- Where no comparison of a later candidate is left, exactly the marked candidates are off. -/
theorem Inv.marked_iff (h : Inv sqrt info armors i flags)
    (hall : ∀ m < armors.length, ∀ k, Strikes sqrt info armors m k → m < i) (k : Nat) :
    flags[k]? = some false ↔ Marked sqrt info armors k := by
  rw [h.off]
  constructor
  · rintro ⟨m, hm, hstrikes⟩
    obtain ⟨n, hn, hcompared, -⟩ := id hstrikes
    exact ⟨m, hcompared.1.trans hn, hstrikes⟩
  · rintro ⟨m, hm, hstrikes⟩
    exact ⟨m, hall m hm k hstrikes, hstrikes⟩

/-- The comparisons of candidate `i`, to which the loop comes while it is not struck. -/
theorem Inv.next (h : Inv sqrt info armors i flags) (hlive : flags[i]? ≠ some false) :
    Inv sqrt info armors (i + 1)
      (compareAfter sqrt info armors i armors.length (i + 1) flags) := by
  obtain ⟨hlength, hflags⟩ :=
    compareAfter_spec sqrt info armors.length h.length (Nat.lt_succ_self i) (by omega)
  refine ⟨hlength, fun k => ?_, fun l hl k hk hcompared hhit => ?_⟩
  · rw [hflags, h.off]
    constructor
    · rintro (⟨m, hm, hstrikes⟩ | ⟨m, hm, hlives, hstruck⟩)
      · exact ⟨m, by omega, hstrikes⟩
      · exact ⟨i, by omega, m, hm, (h.compared_iff hlive).mpr hlives, hstruck⟩
    · rintro ⟨m, hm, hstrikes⟩
      rcases Nat.lt_succ_iff_lt_or_eq.mp hm with hlt | rfl
      · exact Or.inl ⟨m, hlt, hstrikes⟩
      · obtain ⟨n, hn, hcompared, hstruck⟩ := hstrikes
        exact Or.inr ⟨n, hn, (h.compared_iff hlive).mp hcompared, hstruck⟩
  · rcases Nat.lt_succ_iff_lt_or_eq.mp hl with hlt | rfl
    · exact h.entered l hlt k hk hcompared hhit
    · exact hlive ((h.off l).mpr ⟨k, hk, l, hhit.lt_length, hcompared, Or.inl ⟨hhit, rfl⟩⟩)

/-- After the loop, exactly the marked candidates are off. -/
theorem compareFrom_spec (fuel : Nat) (h : Inv sqrt info armors i flags)
    (hfuel : armors.length ≤ i + fuel) :
    (compareFrom sqrt info armors fuel i flags).length = armors.length ∧
      ∀ k, (compareFrom sqrt info armors fuel i flags)[k]? = some false ↔
        Marked sqrt info armors k := by
  induction fuel generalizing i flags with
  | zero => exact ⟨h.length, h.marked_iff fun m hm k _ => by omega⟩
  | succ fuel ih =>
      rw [compareFrom]
      split
      case isTrue hgo =>
        exact ih (h.next fun hoff => by rw [hgo.2] at hoff; cases hoff) (by omega)
      case isFalse hstop =>
        refine ⟨h.length, h.marked_iff fun m hm k hstrikes => ?_⟩
        by_cases hin : i < armors.length
        · refine h.strikes_lt ?_ hstrikes
          by_contra hne
          exact hstop ⟨hin, eq_true_of_ne_false (by have := h.length; omega) hne⟩
        · omega

variable (sqrt info armors) in
/-- The flags on which the last loop works. -/
theorem isArmor_spec : (isArmor sqrt info armors).length = armors.length ∧
    ∀ k < armors.length,
      (isArmor sqrt info armors)[k]? = some (!decide (Marked sqrt info armors k)) := by
  have hstart : Inv sqrt info armors 0 (List.replicate armors.length true) := by
    refine ⟨List.length_replicate, fun k => ?_, fun l hl => absurd hl (Nat.not_lt_zero l)⟩
    rw [List.getElem?_replicate]
    constructor
    · intro h
      split at h <;> cases h
    · rintro ⟨m, hm, -⟩
      exact absurd hm (Nat.not_lt_zero m)
  obtain ⟨hlength, hoff⟩ := compareFrom_spec armors.length hstart (by omega)
  refine ⟨hlength, fun k hk => ?_⟩
  by_cases hmarked : Marked sqrt info armors k
  · rw [decide_eq_true hmarked]
    exact (hoff k).mpr hmarked
  · rw [decide_eq_false hmarked]
    exact eq_true_of_ne_false (hlength ▸ hk) (mt (hoff k).mp hmarked)

/-! ## The candidates that remain -/

/-- The suppression leaves the candidates that are not erased, in their order. -/
theorem suppress_eq : suppress sqrt info armors =
    (armors.zipIdx.filter fun p => ¬ Erased sqrt info armors p.2).map Prod.fst := by
  obtain ⟨hlength, hflags⟩ := isArmor_spec sqrt info armors
  rw [suppress, ForwardErase.loop_eq hlength hflags le_rfl]
  refine congrArg (List.map Prod.fst) (List.filter_congr fun p _ => ?_)
  simp [Erased]

/-- A candidate that is erased overlaps another one, the angle of which is not larger. -/
theorem exists_better (h : Erased sqrt info armors k) :
    ∃ j ≠ k, ∃ a ∈ armors[k]?, ∃ b ∈ armors[j]?,
      overlaps sqrt (info a).rect (info b).rect = true ∧
        (info b).rect.angle ≤ (info a).rect.angle := by
  have hmarked : Marked sqrt info armors k := by
    unfold Erased at h
    cases k with
    | zero => exact of_decide_eq_true h
    | succ k => exact of_decide_eq_true (Bool.and_eq_true_iff.mp h).1
  obtain ⟨i, -, j, -, hcompared, hstruck⟩ := hmarked
  rcases hstruck with ⟨⟨a, ha, b, hb, hoverlap, hle⟩, rfl⟩ | ⟨⟨a, ha, b, hb, hoverlap, hlt⟩, rfl⟩
  · exact ⟨i, hcompared.1.ne, b, hb, a, ha, (overlaps_comm _ _).trans hoverlap, hle⟩
  · exact ⟨j, hcompared.1.ne', a, ha, b, hb, hoverlap, hlt.le⟩

/-! ## Numbered candidates -/

/-- What is compared is read off the candidates. -/
theorem erased_map (f : β → α) (armors : List β) (k : Nat) :
    Erased sqrt (info ∘ f) armors k ↔ Erased sqrt info (armors.map f) k := by
  have hhit : Hit sqrt info (armors.map f) = Hit sqrt (info ∘ f) armors := by
    funext i j
    simp [Hit]
  have hbeaten : Beaten sqrt info (armors.map f) = Beaten sqrt (info ∘ f) armors := by
    funext i j
    simp [Beaten]
  have hmarked : Marked sqrt info (armors.map f) = Marked sqrt (info ∘ f) armors := by
    funext k
    simp only [Marked, Strikes, Compared, hhit, hbeaten, List.length_map]
  simp only [Erased, hmarked]

/-- The suppression of the candidates with their numbers. -/
theorem suppress_zipIdx : suppress sqrt (info ∘ Prod.fst) armors.zipIdx =
    armors.zipIdx.filter fun p => ¬ Erased sqrt info armors p.2 := by
  have hnumbers : armors.zipIdx.zipIdx = armors.zipIdx.map fun p => (p, p.2) := by
    refine List.ext_getElem? fun k => ?_
    rw [List.getElem?_zipIdx, List.getElem?_map, List.getElem?_zipIdx, Nat.zero_add, Option.map_map,
      Option.map_map]
    rfl
  have hfst : armors.zipIdx.map Prod.fst = armors := List.zipIdx_map_fst 0 armors
  rw [suppress_eq, hnumbers, List.filter_map, List.map_map]
  simp only [erased_map, hfst]
  exact List.map_id _

/-- The purpose of the suppression, for candidates with their numbers: those that remain do not
overlap, and each of the others overlaps one that is not worse. -/
structure Suppresses (sqrt : K → K) (info : α → ArmorInfo K) (armors : List α) : Prop where
  apart : ∀ p ∈ suppress sqrt (info ∘ Prod.fst) armors.zipIdx,
    ∀ q ∈ suppress sqrt (info ∘ Prod.fst) armors.zipIdx, p.2 ≠ q.2 →
      overlaps sqrt (info p.1).rect (info q.1).rect = false
  better : ∀ p ∈ armors.zipIdx, p ∉ suppress sqrt (info ∘ Prod.fst) armors.zipIdx →
    ∃ q ∈ armors.zipIdx, q.2 ≠ p.2 ∧ overlaps sqrt (info p.1).rect (info q.1).rect = true ∧
      (info q.1).rect.angle ≤ (info p.1).rect.angle
  numbered : (suppress sqrt (info ∘ Prod.fst) armors.zipIdx).map Prod.fst =
    suppress sqrt info armors
  subsequence : (suppress sqrt info armors).Sublist armors

/-- The suppression serves its purpose exactly if every two candidates that overlap include one that
is erased. -/
theorem suppresses_iff (sqrt : K → K) (info : α → ArmorInfo K) (armors : List α) :
    Suppresses sqrt info armors ↔ ∀ i j, i ≠ j → ∀ a ∈ armors[i]?, ∀ b ∈ armors[j]?,
      overlaps sqrt (info a).rect (info b).rect = true →
        Erased sqrt info armors i ∨ Erased sqrt info armors j := by
  have hmem : ∀ a i, (a, i) ∈ suppress sqrt (info ∘ Prod.fst) armors.zipIdx ↔
      a ∈ armors[i]? ∧ ¬ Erased sqrt info armors i := by
    intro a i
    rw [suppress_zipIdx, List.mem_filter, List.mem_zipIdx_iff_getElem?, decide_eq_true_eq]
    rfl
  constructor
  · intro h i j hij a ha b hb hoverlap
    by_contra hnone
    obtain ⟨hi, hj⟩ := not_or.mp hnone
    have hapart := h.apart (a, i) ((hmem a i).mpr ⟨ha, hi⟩) (b, j) ((hmem b j).mpr ⟨hb, hj⟩) hij
    exact absurd (hapart.symm.trans hoverlap) (by decide)
  · intro h
    constructor
    case apart =>
      rintro ⟨a, i⟩ ha ⟨b, j⟩ hb hij
      obtain ⟨ha, hi⟩ := (hmem a i).mp ha
      obtain ⟨hb, hj⟩ := (hmem b j).mp hb
      by_contra hoverlap
      exact (h i j hij a ha b hb (Bool.eq_true_of_not_eq_false hoverlap)).elim hi hj
    case better =>
      rintro ⟨a, i⟩ ha hnot
      have ha : a ∈ armors[i]? := List.mem_zipIdx_iff_getElem?.mp ha
      have herased : Erased sqrt info armors i := by
        by_contra hkept
        exact hnot ((hmem a i).mpr ⟨ha, hkept⟩)
      obtain ⟨j, hne, a', ha', b, hb, hoverlap, hle⟩ := exists_better herased
      rw [Option.mem_def] at ha ha'
      rw [ha] at ha'
      cases ha'
      exact ⟨(b, j), List.mem_zipIdx_iff_getElem?.mpr hb, hne, hoverlap, hle⟩
    case numbered => rw [suppress_zipIdx, suppress_eq]
    case subsequence =>
      rw [suppress_eq]
      have hsub := (List.filter_sublist (p := fun p => decide ¬ Erased sqrt info armors p.2)
        (l := armors.zipIdx)).map Prod.fst
      rwa [List.zipIdx_map_fst] at hsub

/-- A square root on the squares of which the next theorem makes use. -/
def rootOfFour (q : Rat) : Rat :=
  if q = 4 then 2 else q

/-- Three candidates of width five and the same angle in a row, one apart: the first one strikes the
other two, and the last loop passes over the third. -/
theorem suppress_leaves_overlap : ¬ ∀ armors : List (RotatedRect Rat),
    Suppresses rootOfFour (fun rect => ⟨rect, fun _ => (rect.centerX, rect.centerY)⟩) armors := by
  intro h
  have hapart := (h [⟨0, 0, 5, 0⟩, ⟨1, 0, 5, 0⟩, ⟨2, 0, 5, 0⟩]).apart
    (⟨0, 0, 5, 0⟩, 0) (by decide +kernel) (⟨2, 0, 5, 0⟩, 2) (by decide +kernel) (by decide)
  exact absurd hapart (by decide +kernel)

end RoboRTS.Detection.ConstraintSet
