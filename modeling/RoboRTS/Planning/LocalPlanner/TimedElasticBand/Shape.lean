import RoboRTS.Lib.StateMachine
import RoboRTS.Planning.LocalPlanner.TimedElasticBand.Defs
import Mathlib.Algebra.BigOperators.Group.List.Basic
import Mathlib.Data.List.InsertIdx
import Mathlib.Tactic.Linarith

/-!
# The shape of the elastic band

`ElasticBand` is a band by construction: a first and a last pose, the poses between them, and one
time more than these. Every operation takes a band to a band and none uses an index that is not
there, so that the two vectors never get out of step (`run_shape`).
-/

namespace RoboRTS.Planning

/-- A band with one time between each pose and the next. -/
structure ElasticBand where
  first : DataBase
  inner : List DataBase
  last : DataBase
  times : List Rat
  length_times : times.length = inner.length + 1

namespace ElasticBand

/-- The vectors of a band: only the first and the last pose are fixed. -/
def toConsole (e : ElasticBand) : TebVertexConsole :=
  ⟨⟨e.first, true⟩ :: (e.inner.map (⟨·, false⟩) ++ [⟨e.last, true⟩]), e.times⟩

variable {e e' : ElasticBand}

@[simp] theorem sizePoses_toConsole : e.toConsole.sizePoses = e.inner.length + 2 := by
  simp [toConsole, TebVertexConsole.sizePoses]

@[simp] theorem sizeTimeDiffs_toConsole : e.toConsole.sizeTimeDiffs = e.inner.length + 1 :=
  e.length_times

theorem back_toConsole : e.toConsole.poseVec.getLast? = some ⟨e.last, true⟩ := by
  show ((TebVertexPose.mk e.first true :: e.inner.map (TebVertexPose.mk · false)) ++
    [TebVertexPose.mk e.last true]).getLast? = _
  exact List.getLast?_concat

theorem isInit_toConsole : e.toConsole.isInit = true := by
  have hlength := e.length_times
  cases htimes : e.times with
  | nil =>
      rw [htimes] at hlength
      exact absurd hlength (Nat.succ_ne_zero _).symm
  | cons t ts => simp [TebVertexConsole.isInit, toConsole, htimes]

/-- Every pose of a band can be read. -/
theorem exists_pose {i : Nat} (hi : i < e.inner.length + 2) : ∃ p, e.toConsole.pose i = some p := by
  have hlt : i < e.toConsole.poseVec.length := by
    rw [← TebVertexConsole.sizePoses, sizePoses_toConsole]
    exact hi
  exact ⟨_, by rw [TebVertexConsole.pose, List.getElem?_eq_getElem hlt]; rfl⟩

end ElasticBand

namespace TebVertexConsole

/-- The band is empty, or it has one pose more than times, at least two poses, and exactly the first
and the last one are fixed. -/
def Shaped (b : TebVertexConsole) : Prop :=
  b = empty ∨ (b.sizePoses = b.sizeTimeDiffs + 1 ∧ 2 ≤ b.sizePoses ∧
    ∀ i v, b.poseVec[i]? = some v → (v.fixed = true ↔ i = 0 ∨ i + 1 = b.sizePoses))

variable {m : MathLibrary} {b b' : TebVertexConsole} {e e' : ElasticBand}

theorem shaped_toConsole : e.toConsole.Shaped := by
  refine Or.inr ⟨by simp, by simp, fun i v hv => ?_⟩
  rw [ElasticBand.sizePoses_toConsole]
  cases i with
  | zero =>
      cases hv
      simp
  | succ i =>
      rw [ElasticBand.toConsole, List.getElem?_cons_succ] at hv
      by_cases hi : i < e.inner.length
      · rw [List.getElem?_append_left (by simpa using hi), List.getElem?_map] at hv
        obtain ⟨p, -, rfl⟩ := Option.map_eq_some_iff.mp hv
        simp only [Bool.false_eq_true, false_iff]
        omega
      · rw [List.getElem?_append_right (by simpa using hi), List.length_map] at hv
        rw [List.getElem?_singleton] at hv
        by_cases hzero : i - e.inner.length = 0
        · rw [if_pos hzero] at hv
          cases hv
          simp only [true_iff]
          omega
        · rw [if_neg hzero] at hv
          cases hv

/-! ## Edits of both vectors -/

theorem insertIdx_append_left {α : Type} {l l' : List α} {i : Nat} (hi : i ≤ l.length) (a : α) :
    (l ++ l').insertIdx i a = l.insertIdx i a ++ l' := by
  induction l generalizing i with
  | nil =>
      obtain rfl := Nat.le_zero.mp hi
      rfl
  | cons x l ih =>
      cases i with
      | zero => rfl
      | succ i =>
          rw [List.cons_append, List.insertIdx_succ_cons, List.insertIdx_succ_cons,
            ih (Nat.le_of_succ_le_succ hi), List.cons_append]

/-- Halving a time puts a pose and a time after it, and leaves the rest of the band. -/
theorem halveAt_toConsole {i : Nat} (hi : i ≤ e.inner.length) (dt : Rat) :
    ∃ (e' : ElasticBand) (p : DataBase), e.toConsole.halveAt m i dt = some e'.toConsole ∧
      e'.first = e.first ∧ e'.last = e.last ∧ e'.inner = e.inner.insertIdx i p ∧
      e'.times = (e.times.set i (1 / 2 * dt)).insertIdx (i + 1) (1 / 2 * dt) := by
  have hlength := e.length_times
  obtain ⟨pose1, hpose1⟩ := e.exists_pose (i := i) (by omega)
  obtain ⟨pose2, hpose2⟩ := e.exists_pose (i := i + 1) (by omega)
  have hset : e.toConsole.setTimeDiff i (1 / 2 * dt) =
      some { e.toConsole with timediffVec := e.times.set i (1 / 2 * dt) } :=
    if_pos (by rw [ElasticBand.sizeTimeDiffs_toConsole]; omega)
  have hpose : ∀ p, insertPose { e.toConsole with timediffVec := e.times.set i (1 / 2 * dt) } (i + 1) p =
      some ⟨⟨e.first, true⟩ :: ((e.inner.insertIdx i p).map (⟨·, false⟩) ++ [⟨e.last, true⟩]),
        e.times.set i (1 / 2 * dt)⟩ := by
    intro p
    unfold insertPose
    rw [if_pos (by
      show i + 1 ≤ e.toConsole.sizePoses
      rw [ElasticBand.sizePoses_toConsole]
      omega)]
    unfold ElasticBand.toConsole
    rw [List.insertIdx_succ_cons, insertIdx_append_left (by rw [List.length_map]; exact hi),
      List.map_insertIdx]
  have htimes : i + 1 ≤ (e.times.set i (1 / 2 * dt)).length := by
    rw [List.length_set]
    omega
  refine ⟨⟨e.first, e.inner.insertIdx i (averageInPlace m pose1 pose2), e.last,
    (e.times.set i (1 / 2 * dt)).insertIdx (i + 1) (1 / 2 * dt), ?_⟩, averageInPlace m pose1 pose2, ?_,
    rfl, rfl, rfl, rfl⟩
  · rw [List.length_insertIdx_of_le_length hi, List.length_insertIdx_of_le_length htimes,
      List.length_set, hlength]
  · unfold halveAt
    simp only [Option.bind_eq_bind]
    rw [hset, Option.bind_some]
    show (e.toConsole.pose i).bind _ = _
    rw [hpose1, Option.bind_some]
    show (e.toConsole.pose (i + 1)).bind _ = _
    rw [hpose2, Option.bind_some, hpose, Option.bind_some]
    exact if_pos htimes

/-- Merging a time into the next takes a pose and a time away, and leaves the rest of the band. -/
theorem mergeAt_toConsole {i : Nat} (hi : i < e.inner.length) (dt : Rat) {next : Rat}
    (hnext : e.times[i + 1]? = some next) :
    ∃ e' : ElasticBand, e.toConsole.mergeAt i dt = some e'.toConsole ∧
      e'.first = e.first ∧ e'.last = e.last ∧ e'.inner = e.inner.eraseIdx i ∧
      e'.times = (e.times.set (i + 1) (next + dt)).eraseIdx i := by
  have hlength := e.length_times
  have hset : e.toConsole.setTimeDiff (i + 1) (next + dt) =
      some { e.toConsole with timediffVec := e.times.set (i + 1) (next + dt) } :=
    if_pos (by rw [ElasticBand.sizeTimeDiffs_toConsole]; omega)
  have htimes : i < (e.times.set (i + 1) (next + dt)).length := by
    rw [List.length_set]
    omega
  refine ⟨⟨e.first, e.inner.eraseIdx i, e.last, (e.times.set (i + 1) (next + dt)).eraseIdx i, ?_⟩,
    ?_, rfl, rfl, rfl, rfl⟩
  · rw [List.length_eraseIdx_of_lt hi, List.length_eraseIdx_of_lt htimes, List.length_set]
    omega
  · unfold mergeAt
    simp only [Option.bind_eq_bind]
    rw [show e.toConsole.timeDiff (i + 1) = some next from hnext, Option.bind_some, hset,
      Option.bind_some]
    have htime : deleteTimeDiff { e.toConsole with timediffVec := e.times.set (i + 1) (next + dt) } i =
        some { e.toConsole with timediffVec := (e.times.set (i + 1) (next + dt)).eraseIdx i } :=
      if_pos htimes
    rw [htime, Option.bind_some]
    unfold deletePose
    rw [if_pos (by
      show i + 1 < e.toConsole.sizePoses
      rw [ElasticBand.sizePoses_toConsole]
      omega)]
    unfold ElasticBand.toConsole
    rw [List.eraseIdx_cons_succ, List.eraseIdx_append_of_lt_length (by rw [List.length_map]; exact hi),
      List.eraseIdx_map]

/-! ## `AutoResize` -/

/-- What a resize keeps: the ends, the duration, and the bounds on the number of samples. -/
structure Resized (minSamples maxSamples : Int) (b b' : TebVertexConsole) : Prop where
  front : b'.poseVec.head? = b.poseVec.head?
  back : b'.poseVec.getLast? = b.poseVec.getLast?
  sum : b'.timediffVec.sum = b.timediffVec.sum
  sizePoses : min minSamples b.sizePoses ≤ b'.sizePoses
  sizeTimeDiffs : b'.sizeTimeDiffs ≤ max maxSamples b.sizeTimeDiffs

variable {dtRef dtHysteresis : Rat} {minSamples maxSamples : Int}

theorem Resized.refl (b : TebVertexConsole) : Resized minSamples maxSamples b b :=
  ⟨rfl, rfl, rfl, min_le_right .., le_max_right ..⟩

theorem Resized.trans {b'' : TebVertexConsole} (h : Resized minSamples maxSamples b b')
    (h' : Resized minSamples maxSamples b' b'') : Resized minSamples maxSamples b b'' where
  front := h'.front.trans h.front
  back := h'.back.trans h.back
  sum := h'.sum.trans h.sum
  sizePoses := by
    have h₁ := h.sizePoses
    have h₂ := h'.sizePoses
    omega
  sizeTimeDiffs := by
    have h₁ := h.sizeTimeDiffs
    have h₂ := h'.sizeTimeDiffs
    omega

/-- Bands with the same ends. -/
theorem resized_toConsole (hfirst : e'.first = e.first) (hlast : e'.last = e.last)
    (hsum : e'.times.sum = e.times.sum)
    (hposes : min minSamples (e.inner.length + 2) ≤ e'.inner.length + 2)
    (htimes : (e'.inner.length : Int) + 1 ≤ max maxSamples (e.inner.length + 1)) :
    Resized minSamples maxSamples e.toConsole e'.toConsole where
  front := by simp [ElasticBand.toConsole, hfirst]
  back := by rw [ElasticBand.back_toConsole, ElasticBand.back_toConsole, hlast]
  sum := hsum
  sizePoses := by
    simp only [ElasticBand.sizePoses_toConsole]
    push_cast
    exact hposes
  sizeTimeDiffs := by
    simp only [ElasticBand.sizeTimeDiffs_toConsole]
    push_cast
    exact htimes

/-- Halving a time keeps the sum. -/
theorem sum_halve {times : List Rat} {i : Nat} {dt : Rat} (hdt : times[i]? = some dt) :
    ((times.set i (1 / 2 * dt)).insertIdx (i + 1) (1 / 2 * dt)).sum = times.sum := by
  obtain ⟨hi, rfl⟩ := List.getElem?_eq_some_iff.mp hdt
  rw [List.CommMonoid.sum_insertIdx (by rw [List.length_set]; omega), List.sum_set', dif_pos hi]
  ring

/-- Merging two times keeps the sum. -/
theorem sum_merge {times : List Rat} {i : Nat} {dt next : Rat} (hdt : times[i]? = some dt)
    (hnext : times[i + 1]? = some next) :
    ((times.set (i + 1) (next + dt)).eraseIdx i).sum = times.sum := by
  obtain ⟨hi, rfl⟩ := List.getElem?_eq_some_iff.mp hdt
  obtain ⟨hi', rfl⟩ := List.getElem?_eq_some_iff.mp hnext
  have herase := List.CommMonoid.add_sum_eraseIdx (l := times.set (i + 1) (times[i + 1] + times[i]))
    (i := i) (by rw [List.length_set]; exact hi)
  rw [List.getElem_set_of_ne (by omega), List.sum_set', dif_pos hi'] at herase
  linarith

/-- The rounds that are left to the inner loop. -/
def roundsLeft (maxSamples : Int) (i : Nat) (b : TebVertexConsole) : Nat :=
  b.sizeTimeDiffs - i + (maxSamples - b.sizeTimeDiffs).toNat

section Resize

variable (m dtRef dtHysteresis minSamples maxSamples)

/-- One round of the inner loop keeps the band, and leaves fewer rounds. -/
theorem resizeAt_toConsole {i : Nat} (hi : i < e.toConsole.sizeTimeDiffs) :
    ∃ (e' : ElasticBand) (now : Bool),
      e.toConsole.resizeAt m dtRef dtHysteresis minSamples maxSamples i = some (e'.toConsole, now) ∧
      Resized minSamples maxSamples e.toConsole e'.toConsole ∧
      roundsLeft maxSamples (i + 1) e'.toConsole < roundsLeft maxSamples i e.toConsole := by
  have hlength := e.length_times
  rw [ElasticBand.sizeTimeDiffs_toConsole] at hi
  have hdt : e.times[i]? = some e.times[i] := List.getElem?_eq_getElem (by omega)
  generalize e.times[i] = dt at hdt
  unfold resizeAt roundsLeft
  rw [show e.toConsole.timeDiff i = some dt from hdt, Option.bind_eq_bind, Option.bind_some]
  simp only [ElasticBand.sizeTimeDiffs_toConsole, ElasticBand.sizePoses_toConsole]
  by_cases hlong : dt > dtRef + dtHysteresis ∧ ((e.inner.length + 1 : Nat) : Int) < maxSamples
  case pos =>
    rw [if_pos hlong]
    obtain ⟨e', p, hstep, hfirst, hlast, hinner, htimes⟩ :=
      halveAt_toConsole (e := e) (m := m) (i := i) (by omega) dt
    have hmore : e'.inner.length = e.inner.length + 1 := by
      rw [hinner, List.length_insertIdx_of_le_length (by omega)]
    rw [hstep]
    refine ⟨e', true, rfl, resized_toConsole hfirst hlast ?_ (by omega) (by omega), by omega⟩
    rw [htimes, sum_halve hdt]
  rw [if_neg hlong]
  by_cases hshort : dt < dtRef - dtHysteresis ∧ ((e.inner.length + 2 : Nat) : Int) > minSamples
  case neg =>
    rw [if_neg hshort]
    exact ⟨e, false, rfl, Resized.refl _, by omega⟩
  rw [if_pos hshort]
  by_cases hback : (i : Int) < ((e.inner.length + 1 : Nat) : Int) - 1
  case neg =>
    rw [if_neg hback]
    exact ⟨e, true, rfl, Resized.refl _, by omega⟩
  rw [if_pos hback]
  have hnext : e.times[i + 1]? = some e.times[i + 1] := List.getElem?_eq_getElem (by omega)
  generalize e.times[i + 1] = next at hnext
  obtain ⟨e', hstep, hfirst, hlast, hinner, htimes⟩ :=
    mergeAt_toConsole (e := e) (i := i) (by omega) dt hnext
  have hfewer : e'.inner.length + 1 = e.inner.length := by
    rw [hinner, List.length_eraseIdx_of_lt (by omega)]
    omega
  rw [hstep]
  refine ⟨e', true, rfl, resized_toConsole hfirst hlast ?_ (by omega) (by omega), by omega⟩
  rw [htimes, sum_merge hdt hnext]

/-- The inner loop ends, and keeps the band. -/
theorem resizePass_toConsole (fuel : Nat) : ∀ {i : Nat} {e : ElasticBand} (modified : Bool),
    roundsLeft maxSamples i e.toConsole < fuel →
    ∃ (e' : ElasticBand) (modified' : Bool),
      resizePass m dtRef dtHysteresis minSamples maxSamples fuel i (e.toConsole, modified) =
        some (e'.toConsole, modified') ∧
      Resized minSamples maxSamples e.toConsole e'.toConsole := by
  induction fuel with
  | zero => exact fun _ h => absurd h (Nat.not_lt_zero _)
  | succ fuel ih =>
      intro i e modified hfuel
      unfold resizePass
      by_cases hi : i < e.toConsole.sizeTimeDiffs
      · obtain ⟨e₁, now, hstep, hresized, hless⟩ :=
          resizeAt_toConsole m dtRef dtHysteresis minSamples maxSamples hi
        obtain ⟨e₂, modified', hrest, hresized'⟩ := ih (modified || now) (hless.trans_le (by omega))
        refine ⟨e₂, modified', ?_, hresized.trans hresized'⟩
        rw [if_pos hi, hstep, Option.bind_eq_bind, Option.bind_some]
        exact hrest
      · rw [if_neg hi]
        exact ⟨e, modified, rfl, Resized.refl _⟩

/-- The passes end, and keep the band. -/
theorem resizePasses_toConsole (rep : Nat) : ∀ e : ElasticBand, ∃ e' : ElasticBand,
    resizePasses m dtRef dtHysteresis minSamples maxSamples rep e.toConsole = some e'.toConsole ∧
    Resized minSamples maxSamples e.toConsole e'.toConsole := by
  induction rep with
  | zero => exact fun e => ⟨e, rfl, Resized.refl _⟩
  | succ rep ih =>
      intro e
      have hbound : roundsLeft maxSamples 0 e.toConsole < e.toConsole.resizeBound maxSamples :=
        Nat.lt_succ_self _
      obtain ⟨e₁, modified, hpass, hresized⟩ := resizePass_toConsole m dtRef dtHysteresis
        minSamples maxSamples _ false hbound
      unfold resizePasses
      rw [hpass, Option.bind_eq_bind, Option.bind_some]
      cases modified with
      | false => exact ⟨e₁, rfl, hresized⟩
      | true =>
          obtain ⟨e₂, hrest, hresized'⟩ := ih e₁
          exact ⟨e₂, hrest, hresized.trans hresized'⟩

end Resize

/-! ## `InitTEBtoGoal` -/

/-- A band that has no goal yet: a fixed start, and a time before every other pose. -/
structure Started (start : DataBase) (inner : List DataBase) (b : TebVertexConsole) : Prop where
  poses : b.poseVec = ⟨start, true⟩ :: inner.map (⟨·, false⟩)
  times : b.timediffVec.length = inner.length

variable {start goal : DataBase} {inner : List DataBase}

theorem Started.sizePoses (h : b.Started start inner) : b.sizePoses = inner.length + 1 := by
  rw [TebVertexConsole.sizePoses, h.poses, List.length_cons, List.length_map]

theorem Started.backPose (h : b.Started start inner) : ∃ back, b.backPose = some back := by
  rw [TebVertexConsole.backPose, h.poses, List.getLast?_cons]
  exact ⟨_, rfl⟩

theorem Started.addPoseAndTimeDiff (h : b.Started start inner) (p : DataBase) (dt : Rat) :
    (b.addPoseAndTimeDiff p dt).Started start (inner ++ [p]) := by
  have hsizes : b.sizePoses ≠ b.sizeTimeDiffs := by
    rw [h.sizePoses, sizeTimeDiffs, h.times]
    exact Nat.succ_ne_self _
  unfold TebVertexConsole.addPoseAndTimeDiff
  rw [if_pos hsizes]
  constructor
  case poses =>
    show b.poseVec ++ [⟨p, false⟩] = _
    rw [h.poses, List.map_append, List.cons_append]
    rfl
  case times =>
    show (b.timediffVec ++ [dt]).length = _
    rw [List.length_append, List.length_append, h.times]
    rfl

/-- The loop that fills the band up ends. -/
theorem started_fillPoses (m : MathLibrary) (goal : DataBase) (minSamples : Int)
    (nextTime : DataBase → Rat → Rat) (fuel : Nat) :
    ∀ {b : TebVertexConsole} {inner : List DataBase} (timestep : Rat), b.Started start inner →
      (minSamples - 1 - b.sizePoses).toNat < fuel →
      ∃ timestep' b' inner', fillPoses m goal minSamples nextTime fuel (timestep, b) =
        some (timestep', b') ∧ b'.Started start inner' := by
  induction fuel with
  | zero => exact fun _ _ h => absurd h (Nat.not_lt_zero _)
  | succ fuel ih =>
      intro b inner timestep h hfuel
      unfold fillPoses
      by_cases hmore : (b.sizePoses : Int) < minSamples - 1
      · have hback : ∃ back, b.backPose = some back := by
          unfold backPose
          rw [h.poses, List.getLast?_cons]
          exact ⟨_, rfl⟩
        obtain ⟨back, hback⟩ := hback
        rw [if_pos hmore, hback, Option.bind_eq_bind, Option.bind_some]
        have hadd := h.addPoseAndTimeDiff (averageInPlace m back goal)
          (nextTime (averageInPlace m back goal) timestep)
        refine ih _ hadd ?_
        rw [hadd.sizePoses, List.length_append, List.length_singleton]
        rw [h.sizePoses] at hmore hfuel
        omega
      · rw [if_neg hmore]
        exact ⟨timestep, b, inner, rfl, h⟩

/-- The goal completes the band. -/
theorem Started.fixBack (h : b.Started start inner) (goal : DataBase) (dt : Rat) :
    ∃ e : ElasticBand, (b.addPoseAndTimeDiff goal dt).fixBack = some e.toConsole ∧
      e.first = start ∧ e.last = goal := by
  have hgoal := h.addPoseAndTimeDiff goal dt
  refine ⟨⟨start, inner, goal, (b.addPoseAndTimeDiff goal dt).timediffVec, ?_⟩, ?_, rfl, rfl⟩
  · rw [hgoal.times, List.length_append]
    rfl
  · have hset : (b.addPoseAndTimeDiff goal dt).poseVec.set (inner.length + 1) ⟨goal, true⟩ =
        ⟨start, true⟩ :: (inner.map (⟨·, false⟩) ++ [⟨goal, true⟩]) := by
      rw [hgoal.poses, List.map_append, List.set_cons_succ, List.set_append_right _ _ (by simp)]
      simp
    have hback : (b.addPoseAndTimeDiff goal dt).poseVec[inner.length + 1]? = some ⟨goal, false⟩ := by
      rw [hgoal.poses, List.getElem?_cons_succ, List.map_append,
        List.getElem?_append_right (by simp)]
      simp
    have hsize : (b.addPoseAndTimeDiff goal dt).sizePoses - 1 = inner.length + 1 := by
      rw [hgoal.sizePoses, List.length_append, List.length_singleton, Nat.add_sub_cancel]
    unfold TebVertexConsole.fixBack setPoseVertexFixed
    rw [hsize, hback, Option.map_some, hset]
    rfl

/-- A loop that adds poses keeps what has been started. -/
theorem Started.foldl {α : Type} {l : List α} {f : TebVertexConsole → α → TebVertexConsole}
    (hf : ∀ b inner, b.Started start inner → ∀ a, ∃ inner', (f b a).Started start inner')
    (h : b.Started start inner) : ∃ inner', (l.foldl f b).Started start inner' :=
  List.foldlRecOn (motive := fun b => ∃ inner', b.Started start inner') l f ⟨inner, h⟩
    fun b ⟨inner', h'⟩ a _ => hf b inner' h' a

theorem Started.addLine (h : b.Started start inner) (goal : DataBase)
    (diststep maxVelX timestep : Rat) :
    ∃ inner', (b.addLine m start goal diststep maxVelX timestep).2.Started start inner' := by
  unfold TebVertexConsole.addLine
  by_cases hdiststep : diststep ≠ 0
  · rw [if_pos hdiststep]
    refine h.foldl fun b inner hb i => ?_
    split
    · exact ⟨inner, hb⟩
    · exact ⟨_, hb.addPoseAndTimeDiff _ _⟩
  · rw [if_neg hdiststep]
    exact ⟨inner, h⟩

/-- The first pose of a band is fixed before the others are added. -/
theorem started_first (start : DataBase) : ∃ b, (empty.addPose start false).setPoseVertexFixed 0 true = some b ∧
    b.Started start [] :=
  ⟨⟨[⟨start, true⟩], []⟩, rfl, rfl, rfl⟩

/-- `InitTEBtoGoal` on the empty band makes a band from the start to the goal. -/
theorem initTEBtoGoal_empty (m : MathLibrary) (start goal : DataBase) (diststep maxVelX : Rat)
    (minSamples : Int) :
    ∃ e : ElasticBand, empty.initTEBtoGoal m start goal diststep maxVelX minSamples =
      some (e.toConsole, true) ∧ e.first = start ∧ e.last = goal := by
  obtain ⟨b₀, hfirst, h₀⟩ := started_first start
  obtain ⟨inner₁, h₁⟩ := h₀.addLine (m := m) goal diststep maxVelX (1 / 10)
  unfold initTEBtoGoal
  rw [if_neg (by decide)]
  simp only [Option.bind_eq_bind]
  rw [hfirst, Option.bind_some]
  generalize b₀.addLine m start goal diststep maxVelX (1 / 10) = line at h₁
  obtain ⟨timestep₁, b₁⟩ := line
  dsimp only at h₁ ⊢
  obtain ⟨timestep₂, b₂, inner₂, hfill, h₂⟩ := started_fillPoses m goal minSamples
    (fun tempPose timestep => if maxVelX > 0 then
      m.norm (tempPose.x - goal.x) (tempPose.y - goal.y) / maxVelX else timestep)
    (minSamples.toNat + 1) timestep₁ h₁ (by omega)
  obtain ⟨back, hback⟩ := h₂.backPose
  obtain ⟨e, hfix, hends⟩ := h₂.fixBack goal (if maxVelX > 0 then
    m.norm (goal.x - back.x) (goal.y - back.y) / maxVelX else timestep₂)
  rw [hfill, Option.bind_some]
  dsimp only
  rw [hback, Option.bind_some, hfix]
  exact ⟨e, rfl, hends⟩

/-- `InitTEBtoGoal` on the empty band makes a band along a plan. -/
theorem initTEBtoGoalPlan_empty (m : MathLibrary) {plan : List DataBase} (hplan : plan ≠ []) (dt : Rat)
    (estimateOrient : Bool) (minSamples : Int) (microControl : Bool) :
    ∃ e : ElasticBand, empty.initTEBtoGoalPlan m plan dt estimateOrient minSamples microControl =
      some (e.toConsole, true) ∧ plan.head? = some e.first ∧ plan.getLast? = some e.last := by
  obtain ⟨b₀, hfirst, h₀⟩ := started_first (plan.head hplan)
  unfold initTEBtoGoalPlan
  rw [if_neg (by decide), List.head?_eq_some_head hplan, List.getLast?_eq_some_getLast hplan]
  simp only [Option.bind_eq_bind]
  rw [Option.bind_some, Option.bind_some, hfirst, Option.bind_some]
  generalize hb₁ : List.foldl _ b₀ _ = b₁
  obtain ⟨inner₁, h₁⟩ : ∃ inner₁, Started (plan.head hplan) inner₁ b₁ := by
    rw [← hb₁]
    exact h₀.foldl fun b inner hb _ => ⟨_, hb.addPoseAndTimeDiff _ _⟩
  obtain ⟨timestep₂, b₂, inner₂, hfill, h₂⟩ := started_fillPoses m (plan.getLast hplan) minSamples
    (fun _ timestep => timestep) (minSamples.toNat + 1) dt h₁ (by omega)
  obtain ⟨e, hfix, hstart, hgoal⟩ := h₂.fixBack (plan.getLast hplan) dt
  rw [hfill, Option.bind_some, hfix]
  exact ⟨e, rfl, by rw [hstart], by rw [hgoal]⟩

/-! ## `UpdateAndPruneTEB` -/

/-- The nearest pose is found among those that the search may look at. -/
theorem nearestIdx_toConsole (m : MathLibrary) (newStart : DataBase) (n : Nat) :
    ∀ {i : Nat} (distCache : Rat) (nearest : Nat), i + n ≤ e.inner.length + 1 →
      nearest ≤ e.inner.length →
      ∃ k, e.toConsole.nearestIdx m newStart n i distCache nearest = some k ∧
        k ≤ e.inner.length := by
  induction n with
  | zero => exact fun _ _ _ hnearest => ⟨_, rfl, hnearest⟩
  | succ n ih =>
      intro i distCache nearest hi hnearest
      obtain ⟨p, hp⟩ := e.exists_pose (i := i) (by omega)
      rw [nearestIdx, hp, Option.bind_eq_bind, Option.bind_some]
      dsimp only
      split
      · exact ih _ _ (by omega) (by omega)
      · exact ⟨nearest, rfl, hnearest⟩

/-- Deleting poses after the first and as many times after the first one keeps the band. -/
theorem deletePoses_toConsole {k : Nat} (hk : k ≤ e.inner.length) :
    ∃ e' : ElasticBand, ((e.toConsole.deletePoses 1 k).bind fun b => b.deleteTimeDiffs 1 k) =
      some e'.toConsole ∧ e'.first = e.first ∧ e'.last = e.last := by
  have hlength := e.length_times
  refine ⟨⟨e.first, e.inner.drop k, e.last, e.times.take 1 ++ e.times.drop (1 + k), ?_⟩, ?_, rfl, rfl⟩
  · rw [List.length_append, List.length_take, List.length_drop, List.length_drop]
    omega
  · have hposes : e.toConsole.deletePoses 1 k =
        some ⟨⟨e.first, true⟩ :: ((e.inner.drop k).map (⟨·, false⟩) ++ [⟨e.last, true⟩]), e.times⟩ := by
      unfold deletePoses
      rw [if_pos (by rw [ElasticBand.sizePoses_toConsole]; omega)]
      unfold ElasticBand.toConsole
      rw [Nat.add_comm 1 k, List.drop_succ_cons,
        List.drop_append_of_le_length (by rw [List.length_map]; exact hk), ← List.map_drop]
      rfl
    rw [hposes, Option.bind_some]
    exact if_pos (show 1 + k ≤ e.times.length by omega)

/-- A new last pose. -/
theorem setPose_last (p : DataBase) :
    e.toConsole.setPose (e.inner.length + 1) p = some { e with last := p }.toConsole := by
  have hlast : e.toConsole.poseVec[e.inner.length + 1]? = some ⟨e.last, true⟩ := by
    rw [ElasticBand.toConsole, List.getElem?_cons_succ, List.getElem?_append_right (by simp)]
    simp
  have hset : e.toConsole.poseVec.set (e.inner.length + 1) ⟨p, true⟩ =
      ⟨e.first, true⟩ :: (e.inner.map (⟨·, false⟩) ++ [⟨p, true⟩]) := by
    rw [ElasticBand.toConsole, List.set_cons_succ, List.set_append_right _ _ (by simp)]
    simp
  rw [setPose, hlast, Option.map_some, hset]
  rfl

/-- Pruning deletes as many poses as times, between the first and the last pose. -/
theorem pruneStart_toConsole (m : MathLibrary) (newStart : DataBase) {minSamples : Int}
    (hmin : 2 ≤ minSamples) :
    ∃ e' : ElasticBand, e.toConsole.pruneStart m newStart minSamples = some e'.toConsole ∧
      e'.first = newStart ∧ e'.last = e.last := by
  obtain ⟨first, hfirst⟩ := e.exists_pose (i := 0) (by omega)
  obtain ⟨k, hk, hle⟩ := nearestIdx_toConsole (e := e) m newStart
    (min ((e.toConsole.sizePoses : Int) - minSamples) 10).toNat (i := 1)
    (m.norm (newStart.x - first.x) (newStart.y - first.y)) 0
    (by rw [ElasticBand.sizePoses_toConsole]; omega) (Nat.zero_le _)
  unfold pruneStart
  simp only [Option.bind_eq_bind]
  rw [hfirst, Option.bind_some, hk, Option.bind_some]
  by_cases hpos : k > 0
  · obtain ⟨e', hdelete, -, hlast⟩ := deletePoses_toConsole hle
    rw [if_pos hpos, ← Option.bind_assoc, hdelete, Option.bind_some]
    exact ⟨{ e' with first := newStart }, rfl, rfl, hlast⟩
  · rw [if_neg hpos, Option.bind_some]
    exact ⟨{ e with first := newStart }, rfl, rfl, rfl⟩

/-- `UpdateAndPruneTEB` keeps the band. -/
theorem updateAndPruneTEB_toConsole (m : MathLibrary) (newStart newGoal : Option DataBase)
    {minSamples : Int} (hmin : 2 ≤ minSamples) :
    ∃ e' : ElasticBand,
      e.toConsole.updateAndPruneTEB m newStart newGoal minSamples = some e'.toConsole := by
  -- a new goal is the last pose of what the pruning leaves
  have hgoal : ∀ (e : ElasticBand) (p : DataBase),
      (if e.toConsole.sizePoses > 0 then e.toConsole.setPose (e.toConsole.sizePoses - 1) p
        else some e.toConsole) = some { e with last := p }.toConsole := by
    intro e p
    rw [ElasticBand.sizePoses_toConsole, if_pos (Nat.succ_pos _)]
    exact setPose_last p
  unfold updateAndPruneTEB
  cases newStart with
  | none =>
      cases newGoal with
      | none => exact ⟨e, rfl⟩
      | some q => exact ⟨_, hgoal e q⟩
  | some p =>
      obtain ⟨e₁, hprune, -, -⟩ := pruneStart_toConsole (e := e) m p hmin
      dsimp only
      rw [ElasticBand.sizePoses_toConsole, if_pos (Nat.succ_pos _), hprune]
      cases newGoal with
      | none => exact ⟨e₁, rfl⟩
      | some q => exact ⟨_, hgoal e₁ q⟩

/-! ## Runs -/

/-- What is required of a call: a plan is not empty, and pruning leaves two samples. -/
def Call.Valid : Call → Prop
  | .initTEBtoGoalPlan plan _ _ _ _ => plan ≠ []
  | .updateAndPruneTEB _ _ minSamples => 2 ≤ minSamples
  | _ => True

/-- The band is empty, or it is a band. -/
def Banded (b : TebVertexConsole) : Prop :=
  b = empty ∨ ∃ e : ElasticBand, b = e.toConsole

theorem Banded.shaped (h : b.Banded) : b.Shaped := by
  rcases h with rfl | ⟨e, rfl⟩
  · exact Or.inl rfl
  · exact shaped_toConsole

/-- `AutoResize` ends without using an index that is not there. -/
theorem Banded.autoResize (h : b.Banded) (m : MathLibrary) (dtRef dtHysteresis : Rat)
    (minSamples maxSamples : Int) :
    ∃ b', b.autoResize m dtRef dtHysteresis minSamples maxSamples = some b' ∧ b'.Banded ∧
      Resized minSamples maxSamples b b' := by
  rcases h with rfl | ⟨e, rfl⟩
  · exact ⟨empty, rfl, Or.inl rfl, Resized.refl _⟩
  · obtain ⟨e', hresize, hresized⟩ :=
      resizePasses_toConsole m dtRef dtHysteresis minSamples maxSamples 100 e
    exact ⟨_, hresize, Or.inr ⟨e', rfl⟩, hresized⟩

/-- Every call keeps the band. -/
theorem Banded.step (h : b.Banded) (m : MathLibrary) {c : Call} (hc : c.Valid) :
    ∃ b', b.step m c = some b' ∧ b'.Banded := by
  cases c with
  | initTEBtoGoal start goal diststep maxVelX minSamples =>
      rcases h with rfl | ⟨e, rfl⟩
      · obtain ⟨e, hinit, -, -⟩ := initTEBtoGoal_empty m start goal diststep maxVelX minSamples
        exact ⟨e.toConsole, by rw [TebVertexConsole.step, hinit]; rfl, Or.inr ⟨e, rfl⟩⟩
      · refine ⟨e.toConsole, ?_, Or.inr ⟨e, rfl⟩⟩
        rw [TebVertexConsole.step, initTEBtoGoal, if_pos ElasticBand.isInit_toConsole]
        rfl
  | initTEBtoGoalPlan plan dt estimateOrient minSamples microControl =>
      rcases h with rfl | ⟨e, rfl⟩
      · obtain ⟨e, hinit, -, -⟩ :=
          initTEBtoGoalPlan_empty m hc dt estimateOrient minSamples microControl
        exact ⟨e.toConsole, by rw [TebVertexConsole.step, hinit]; rfl, Or.inr ⟨e, rfl⟩⟩
      · refine ⟨e.toConsole, ?_, Or.inr ⟨e, rfl⟩⟩
        rw [TebVertexConsole.step, initTEBtoGoalPlan, if_pos ElasticBand.isInit_toConsole]
        rfl
  | autoResize dtRef dtHysteresis minSamples maxSamples =>
      obtain ⟨b', hresize, hb', -⟩ := h.autoResize m dtRef dtHysteresis minSamples maxSamples
      exact ⟨b', hresize, hb'⟩
  | updateAndPruneTEB newStart newGoal minSamples =>
      rcases h with rfl | ⟨e, rfl⟩
      · refine ⟨empty, ?_, Or.inl rfl⟩
        cases newStart <;> cases newGoal <;> rfl
      · obtain ⟨e', hprune⟩ := updateAndPruneTEB_toConsole (e := e) m newStart newGoal hc
        exact ⟨e'.toConsole, hprune, Or.inr ⟨e', rfl⟩⟩
  | clearAllVertex => exact ⟨empty, rfl, Or.inl rfl⟩

/-- A run of calls keeps the band. -/
theorem Banded.run (m : MathLibrary) {calls : List Call} (hcalls : ∀ c ∈ calls, c.Valid) :
    ∀ {b : TebVertexConsole}, b.Banded →
      ∃ b', StateMachine.run (TebVertexConsole.step m) b calls = some b' ∧ b'.Banded := by
  induction calls with
  | nil => exact fun h => ⟨_, rfl, h⟩
  | cons c calls ih =>
      intro b h
      obtain ⟨b₁, hstep, h₁⟩ := h.step m (hcalls c List.mem_cons_self)
      obtain ⟨b₂, hrun, h₂⟩ := ih (fun d hd => hcalls d (List.mem_cons_of_mem c hd)) h₁
      refine ⟨b₂, ?_, h₂⟩
      rw [StateMachine.run_cons, hstep, Option.bind_some]
      exact hrun

/-- In every run from the empty band no index is out of range and the band keeps its shape, and
every resize of a band that is reached keeps its ends, its duration and the bounds on its samples.
-/
theorem run_shape (m : MathLibrary) (calls : List Call) (hcalls : ∀ c ∈ calls, c.Valid) :
    ∃ b, StateMachine.run (TebVertexConsole.step m) empty calls = some b ∧ b.Shaped ∧
      ∀ (dtRef dtHysteresis : Rat) (minSamples maxSamples : Int), ∃ b',
        b.autoResize m dtRef dtHysteresis minSamples maxSamples = some b' ∧
        Resized minSamples maxSamples b b' := by
  obtain ⟨b, hrun, hb⟩ := Banded.run m hcalls (Or.inl rfl)
  refine ⟨b, hrun, hb.shaped, fun dtRef dtHysteresis minSamples maxSamples => ?_⟩
  obtain ⟨b', hresize, -, hresized⟩ := hb.autoResize m dtRef dtHysteresis minSamples maxSamples
  exact ⟨b', hresize, hresized⟩

/-- The functions of the libraries for poses on the x axis that look along it. -/
def alongAxis : MathLibrary where
  cos _ := 1
  sin _ := 0
  atan2 _ _ := 0
  norm x y := |x| + |y|
  averageAngle theta1 theta2 := (theta1 + theta2) / 2

/-- A band along a plan of three poses, halved, and then pruned by a robot that has moved on. -/
theorem run_shape_plan :
    ∃ b, StateMachine.run (TebVertexConsole.step alongAxis) empty
        [.initTEBtoGoalPlan [⟨0, 0, 0⟩, ⟨1, 0, 0⟩, ⟨2, 0, 0⟩] 1 true 3 false,
          .autoResize (1 / 2) (1 / 10) 3 10, .updateAndPruneTEB (some ⟨3 / 4, 0, 0⟩) none 3] = some b ∧
      b.Shaped := by
  obtain ⟨b, hrun, hshaped, -⟩ := run_shape alongAxis
    [.initTEBtoGoalPlan [⟨0, 0, 0⟩, ⟨1, 0, 0⟩, ⟨2, 0, 0⟩] 1 true 3 false,
      .autoResize (1 / 2) (1 / 10) 3 10, .updateAndPruneTEB (some ⟨3 / 4, 0, 0⟩) none 3]
    (by simp [Call.Valid])
  exact ⟨b, hrun, hshaped⟩

end TebVertexConsole

end RoboRTS.Planning
