import RoboRTS.Detection.ArmorDetection.ConstraintSet.Defs
import Mathlib.Data.Fin.VecNotation
import Mathlib.Data.Rat.Floor

/-!
# The brightness of the candidates

The first loop of `FilterArmors` draws every candidate into one mask, which is never cleared. So a
candidate is judged by the pixels of its own region and of those of all candidates before it, erased
or not (`filterBrightness_zipIdx`), and by its own region alone only where that makes no difference
(`judgedAlone_iff`).
-/

namespace RoboRTS.Detection.ConstraintSet

variable {K α β : Type*} [Field K] [LinearOrder K] [FloorRing K]

section Regions

variable (lib : ImageLibrary K) (info : α → ArmorInfo K)

/-- The pixels of a candidate. -/
def region (armor : α) : Pixel → Bool :=
  lib.polygon (points info armor)

/-- The pixels of the first `n` candidates. -/
def regions (armors : List α) (n : Nat) : Pixel → Bool :=
  fun pixel => (armors.take n).any fun armor => region lib info armor pixel

end Regions

variable {lib : ImageLibrary K} {c : ConstraintSet K} {info : α → ArmorInfo K}
  {armors armors' : List α}

/-- The loop on candidates that carry more than what it reads. -/
theorem filterBrightness_map (f : β → α) (mask : Pixel → Bool) (armors : List β) :
    (c.filterBrightness lib (info ∘ f) mask armors).map f =
      c.filterBrightness lib info mask (armors.map f) := by
  induction armors generalizing mask with
  | nil => rfl
  | cons armor armors ih =>
      have hpoints : points (info ∘ f) armor = points info (f armor) := rfl
      rw [List.map_cons, filterBrightness, filterBrightness, hpoints]
      split
      · exact ih _
      · rw [List.map_cons, ih]

/-- The candidate at the front is judged with what the mask holds already, and the mask then holds
its region as well. -/
theorem filterBrightness_eq (mask : Pixel → Bool) (armors : List α) (k : Nat) :
    c.filterBrightness lib (info ∘ Prod.fst) mask (armors.zipIdx k) =
      (armors.zipIdx k).filter fun p => ¬ c.exceeds lib fun pixel =>
        mask pixel || regions lib info armors (p.2 + 1 - k) pixel := by
  induction armors generalizing mask k with
  | nil => rfl
  | cons armor armors ih =>
      have hpoints : points (info ∘ Prod.fst) (armor, k) = points info armor := rfl
      have hfirst : (fun pixel => mask pixel ||
          regions lib info (armor :: armors) (k + 1 - k) pixel) =
          fillConvexPoly lib mask (points info armor) := by
        funext pixel
        simp [regions, region, fillConvexPoly]
      have hrest : c.filterBrightness lib (info ∘ Prod.fst)
          (fillConvexPoly lib mask (points info armor)) (armors.zipIdx (k + 1)) =
          (armors.zipIdx (k + 1)).filter fun p => ¬ c.exceeds lib fun pixel =>
            mask pixel || regions lib info (armor :: armors) (p.2 + 1 - k) pixel := by
        rw [ih]
        refine List.filter_congr fun p hp => ?_
        have hle := List.le_snd_of_mem_zipIdx hp
        have hsucc : p.2 + 1 - k = p.2 + 1 - (k + 1) + 1 := by omega
        have hmask : (fun pixel => fillConvexPoly lib mask (points info armor) pixel ||
            regions lib info armors (p.2 + 1 - (k + 1)) pixel) = fun pixel => mask pixel ||
            regions lib info (armor :: armors) (p.2 + 1 - k) pixel := by
          funext pixel
          rw [hsucc]
          simp [regions, region, fillConvexPoly, Bool.or_assoc]
        rw [hmask]
      rw [List.zipIdx_cons, filterBrightness, List.filter_cons, hpoints]
      dsimp only
      rw [hfirst, hrest]
      by_cases h : c.exceeds lib (fillConvexPoly lib mask (points info armor))
      · rw [if_pos h, if_neg (by simpa using h)]
      · rw [if_neg h, if_pos (by simpa using h)]

/-- The candidates that are left are those for which the pixels of all candidates up to them pass
the test. -/
theorem filterBrightness_zipIdx (armors : List α) :
    c.filterBrightness lib (info ∘ Prod.fst) (fun _ => false) armors.zipIdx =
      armors.zipIdx.filter fun p => ¬ c.exceeds lib (regions lib info armors (p.2 + 1)) := by
  rw [filterBrightness_eq]
  simp

omit [FloorRing K] in
/-- The test reads the pixels of the mask only. -/
theorem exceeds_congr (c : ConstraintSet K) (grayImg : Pixel → UInt8) {mask : Pixel → Bool}
    (h : ∀ pixel, mask pixel = true → c.grayImg pixel = grayImg pixel) :
    c.exceeds lib mask = exceeds lib { c with grayImg := grayImg } mask := by
  have hvalues : (c.pixels.filter mask).map (fun pixel => ((c.grayImg pixel).toNat : K)) =
      (c.pixels.filter mask).map (fun pixel => ((grayImg pixel).toNat : K)) := by
    refine List.map_congr_left fun pixel hpixel => ?_
    rw [h pixel (List.mem_filter.mp hpixel).2]
  have hmean : c.meanStdDev lib mask = meanStdDev lib { c with grayImg := grayImg } mask := by
    unfold meanStdDev
    rw [hvalues]
    rfl
  unfold exceeds
  rw [hmean]

/-! ## Candidates that are judged alone -/

/-- Each candidate is erased exactly if the pixels of its own region exceed the limits. -/
def JudgedAlone (lib : ImageLibrary K) (c : ConstraintSet K) (info : α → ArmorInfo K)
    (armors : List α) : Prop :=
  ∀ p ∈ armors.zipIdx,
    p ∉ c.filterBrightness lib (info ∘ Prod.fst) (fun _ => false) armors.zipIdx ↔
      c.exceeds lib (region lib info p.1) = true

/-- The candidates are judged alone exactly if the test has the same result for the region of each
of them and for its region with those of the candidates before it. -/
theorem judgedAlone_iff (lib : ImageLibrary K) (c : ConstraintSet K) (info : α → ArmorInfo K)
    (armors : List α) :
    JudgedAlone lib c info armors ↔ ∀ k, ∀ armor ∈ armors[k]?,
      c.exceeds lib (regions lib info armors (k + 1)) = c.exceeds lib (region lib info armor) := by
  have herased : ∀ p ∈ armors.zipIdx,
      (p ∉ c.filterBrightness lib (info ∘ Prod.fst) (fun _ => false) armors.zipIdx ↔
        c.exceeds lib (regions lib info armors (p.2 + 1)) = true) := by
    intro p hp
    rw [filterBrightness_zipIdx, List.mem_filter, decide_eq_true_eq, not_and, not_not]
    exact ⟨fun h => h hp, fun h _ => h⟩
  unfold JudgedAlone
  constructor
  · intro h k armor harmor
    have hp := List.mem_zipIdx_iff_getElem? (x := (armor, k)).mpr harmor
    exact Bool.eq_iff_iff.mpr ((herased _ hp).symm.trans (h _ hp))
  · rintro h ⟨armor, k⟩ hp
    rw [herased _ hp, h k armor (List.mem_zipIdx_iff_getElem?.mp hp)]

/-- Two lists of candidates that are judged alone: a candidate with the same region in both, of
which the two images have the same pixels, is erased from both or from neither. -/
theorem JudgedAlone.congr {grayImg : Pixel → UInt8} (h : JudgedAlone lib c info armors)
    (h' : JudgedAlone lib { c with grayImg := grayImg } info armors') {armor : α} {k k' : Nat}
    (hk : (armor, k) ∈ armors.zipIdx) (hk' : (armor, k') ∈ armors'.zipIdx)
    (hpixels : ∀ pixel, region lib info armor pixel = true →
      c.grayImg pixel = grayImg pixel) :
    (armor, k) ∈ c.filterBrightness lib (info ∘ Prod.fst) (fun _ => false) armors.zipIdx ↔
      (armor, k') ∈ filterBrightness lib { c with grayImg := grayImg } (info ∘ Prod.fst)
        (fun _ => false) armors'.zipIdx := by
  have htest : c.exceeds lib (region lib info armor) = true ↔
      exceeds lib { c with grayImg := grayImg } (region lib info armor) = true := by
    rw [exceeds_congr c grayImg hpixels]
  exact not_iff_not.mp ((h _ hk).trans (htest.trans (h' _ hk').symm))

/-! ## A bright candidate before a dark one -/

/-- The pixels of a rectangle with its corners at opposite ends, `pts[0]` and `pts[2]`. -/
def rectanglePixels (pts : Fin 4 → Int × Int) (pixel : Pixel) : Bool :=
  (pts 0).1 ≤ pixel.1 ∧ pixel.1 ≤ (pts 2).1 ∧ (pts 0).2 ≤ pixel.2 ∧ pixel.2 ≤ (pts 2).2

/-- A candidate that covers two rows of two pixels, from column `x` on. -/
def square (x : Rat) : ArmorInfo Rat where
  rect := ⟨x + 1 / 2, 1 / 2, 1, 0⟩
  vertex := ![(x, 0), (x + 1, 0), (x + 1, 1), (x, 1)]

/-- An image of two rows, the left half of which is white. -/
def halfWhite : ConstraintSet Rat where
  rows := 2
  cols := 4
  grayImg := fun pixel => if pixel.1 < 2 then 255 else 0
  armorMaxStddev := 200
  armorMaxMean := 100

/-- The square root of the variance of an image that is half white, and of zero. -/
def rootOfVariance (q : Rat) : Rat :=
  if q = 65025 / 4 then 255 / 2 else q

/-- The dark candidate is kept when it stands alone, and erased behind the bright one. -/
theorem filterBrightness_leaks : ¬ ∀ (armors armors' : List (ArmorInfo Rat)) (armor : ArmorInfo Rat)
    (k k' : Nat), armors[k]? = some armor → armors'[k']? = some armor →
      ((armor, k) ∈ halfWhite.filterBrightness ⟨rootOfVariance, rectanglePixels⟩ (id ∘ Prod.fst)
        (fun _ => false) armors.zipIdx ↔
      (armor, k') ∈ halfWhite.filterBrightness ⟨rootOfVariance, rectanglePixels⟩ (id ∘ Prod.fst)
        (fun _ => false) armors'.zipIdx) := by
  intro h
  have hsame := h [square 0, square 2] [square 2] (square 2) 1 0 rfl rfl
  rw [filterBrightness_zipIdx, filterBrightness_zipIdx, List.mem_filter, List.mem_filter,
    decide_eq_true_eq, decide_eq_true_eq] at hsame
  have hbright : halfWhite.exceeds ⟨rootOfVariance, rectanglePixels⟩
      (regions ⟨rootOfVariance, rectanglePixels⟩ id [square 0, square 2] 2) = true := by
    decide +kernel
  have hdark : ¬ halfWhite.exceeds ⟨rootOfVariance, rectanglePixels⟩
      (regions ⟨rootOfVariance, rectanglePixels⟩ id [square 2] 1) = true := by
    decide +kernel
  exact (hsame.mpr ⟨List.mem_singleton_self _, hdark⟩).2 hbright

end RoboRTS.Detection.ConstraintSet
