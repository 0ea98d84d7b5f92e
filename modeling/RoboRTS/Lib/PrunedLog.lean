import Mathlib.Data.List.TakeWhile
import Mathlib.Order.Basic

/-!
# Logs that are cut as they grow

A log holds the newest item first. Whoever keeps one cuts away the items that are too old, at each
new item or only when the log is read. Cuts are `Lawful` when a later cut does not notice an earlier
one. Then a log that is cut now and then `Agrees` with the log that is never cut: it looks the same
behind every later cut.
-/

namespace PrunedLog

variable {τ α : Type*} [Preorder τ] {cut : τ → List α → List α}

/-- A cut at a later time does not notice the cuts before it. -/
structure Lawful (cut : τ → List α → List α) : Prop where
  cut_cut : ∀ {t t' : τ} (log : List α), t ≤ t' → cut t' (cut t log) = cut t' log
  cut_cons : ∀ {t t' : τ} (item : α) (log : List α), t ≤ t' →
    cut t' (item :: cut t log) = cut t' (item :: log)

/-- The cut before the first item that is not fresh, when no item gets fresh again. -/
theorem lawful_takeWhile {fresh : τ → α → Bool}
    (hfresh : ∀ {t t' : τ} {item : α}, t ≤ t' → fresh t' item = true → fresh t item = true) :
    Lawful fun t log => log.takeWhile (fresh t) := by
  have hcut : ∀ {t t' : τ} (log : List α), t ≤ t' →
      (log.takeWhile (fresh t)).takeWhile (fresh t') = log.takeWhile (fresh t') := by
    intro t t' log ht
    rw [List.takeWhile_takeWhile]
    congr 1
    funext item
    rw [Bool.eq_iff_iff, decide_eq_true_iff]
    exact and_iff_left_of_imp (hfresh ht)
  refine ⟨hcut, fun item log ht => ?_⟩
  rw [List.takeWhile_cons, List.takeWhile_cons, hcut log ht]

/-- When every item before a fresh one is fresh, the cut keeps all fresh items. -/
theorem takeWhile_eq_filter {p : α → Bool} {log : List α}
    (h : log.Pairwise fun newer older => p older = true → p newer = true) :
    log.takeWhile p = log.filter p := by
  induction log with
  | nil => rfl
  | cons item log ih =>
      rw [List.pairwise_cons] at h
      rw [List.takeWhile_cons, List.filter_cons]
      split
      · rw [ih h.2]
      · next hold =>
          exact (List.filter_eq_nil_iff.mpr fun older hmem holder => hold (h.1 older hmem holder)).symm

/-- The cut behind a number of items. -/
theorem lawful_take (n : Nat) : Lawful fun (_ : τ) (log : List α) => log.take (n + 1) := by
  refine ⟨fun log _ => by rw [List.take_take, Nat.min_self], fun item log _ => ?_⟩
  rw [List.take_succ_cons, List.take_succ_cons, List.take_take, Nat.min_eq_left (Nat.le_succ n)]

/-- From time `t` on the log looks like the full log behind every cut. -/
def Agrees (cut : τ → List α → List α) (t : τ) (log full : List α) : Prop :=
  ∀ t', t ≤ t' → cut t' log = cut t' full

variable {t t' : τ} {log full : List α} {item : α}

theorem Agrees.refl : Agrees cut t log log :=
  fun _ _ => rfl

theorem Agrees.mono (h : Agrees cut t log full) (ht : t ≤ t') : Agrees cut t' log full :=
  fun t'' ht' => h t'' (ht.trans ht')

theorem Agrees.cut_left (hcut : Lawful cut) (h : Agrees cut t log full) :
    Agrees cut t (cut t log) full :=
  fun t' ht => (hcut.cut_cut log ht).trans (h t' ht)

theorem Agrees.cons (hcut : Lawful cut) (h : Agrees cut t log full) :
    Agrees cut t (item :: log) (item :: full) := by
  intro t' ht
  rw [← hcut.cut_cons item log (le_refl t'), h t' ht, hcut.cut_cons item full (le_refl t')]

/-- Items may change in a way that the cuts do not see. -/
theorem Agrees.map {f : α → α} (hf : ∀ t log, cut t (log.map f) = (cut t log).map f)
    (h : Agrees cut t log full) : Agrees cut t (log.map f) (full.map f) := by
  intro t' ht
  rw [hf, hf, h t' ht]

end PrunedLog
