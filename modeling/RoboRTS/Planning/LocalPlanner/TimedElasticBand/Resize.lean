import RoboRTS.Planning.LocalPlanner.TimedElasticBand.Shape

/-!
# When a resize settles

`AutoResize` with a count of the insertions and merges of each pass. A pass that makes none leaves
the band as it is, and so do the passes after it; the times of such a band are within the bounds,
except that the last time may be too short (`autoResize_settles`): the last time is never merged.
-/

namespace RoboRTS.Planning

namespace TebVertexConsole

variable (m : MathLibrary) (dtRef dtHysteresis : Rat) (minSamples maxSamples : Int)

/-- The inner loop of `AutoResize` from number `i` on, with how many rounds insert or merge. -/
def countPass : Nat → Nat → TebVertexConsole × Bool → Option ((TebVertexConsole × Bool) × Nat)
  | 0, _, _ => none
  | fuel + 1, i, (b, modified) =>
      if i < b.sizeTimeDiffs then do
        let (b', now) ← b.resizeAt m dtRef dtHysteresis minSamples maxSamples i
        let (out, edits) ← countPass fuel (i + 1) (b', modified || now)
        -- an insertion adds a time, a merge takes one away
        some (out, edits + if b'.sizeTimeDiffs = b.sizeTimeDiffs then 0 else 1)
      else some ((b, modified), 0)

/-- The next `rep` passes of `AutoResize`, with the count of each pass that is made. -/
def countPasses : Nat → TebVertexConsole → Option (TebVertexConsole × List Nat)
  | 0, b => some (b, [])
  | rep + 1, b => do
      let ((b, modified), edits) ← countPass m dtRef dtHysteresis minSamples maxSamples
        (b.resizeBound maxSamples) 0 (b, false)
      if modified then
        let (b, counts) ← countPasses rep b
        some (b, edits :: counts)
      else some (b, [edits])

/-- The counts change nothing. -/
theorem countPass_fst (fuel : Nat) : ∀ (i : Nat) (s : TebVertexConsole × Bool),
    (countPass m dtRef dtHysteresis minSamples maxSamples fuel i s).map Prod.fst =
      resizePass m dtRef dtHysteresis minSamples maxSamples fuel i s := by
  induction fuel with
  | zero => exact fun _ _ => rfl
  | succ fuel ih =>
      intro i (b, modified)
      unfold countPass resizePass
      split
      · simp only [Option.bind_eq_bind]
        cases b.resizeAt m dtRef dtHysteresis minSamples maxSamples i with
        | none => rfl
        | some step =>
            obtain ⟨b', now⟩ := step
            rw [Option.bind_some, Option.bind_some, ← ih]
            cases countPass m dtRef dtHysteresis minSamples maxSamples fuel (i + 1)
              (b', modified || now) with
            | none => rfl
            | some out => rfl
      · rfl

/-- The counts change nothing. -/
theorem countPasses_fst (rep : Nat) : ∀ b : TebVertexConsole,
    (countPasses m dtRef dtHysteresis minSamples maxSamples rep b).map Prod.fst =
      resizePasses m dtRef dtHysteresis minSamples maxSamples rep b := by
  induction rep with
  | zero => exact fun _ => rfl
  | succ rep ih =>
      intro b
      unfold countPasses resizePasses
      rw [← countPass_fst]
      simp only [Option.bind_eq_bind]
      cases countPass m dtRef dtHysteresis minSamples maxSamples (b.resizeBound maxSamples) 0
        (b, false) with
      | none => rfl
      | some out =>
          obtain ⟨⟨b₁, modified⟩, edits⟩ := out
          rw [Option.map_some, Option.bind_some, Option.bind_some]
          cases modified with
          | false => rfl
          | true =>
              rw [if_pos rfl, if_pos rfl, ← ih]
              cases countPasses m dtRef dtHysteresis minSamples maxSamples rep b₁ with
              | none => rfl
              | some out => rfl

/-- One pose more than times. -/
def Aligned (b : TebVertexConsole) : Prop :=
  b.sizePoses = b.sizeTimeDiffs + 1

/-- Time number `i` needs neither an insertion nor a merge that `AutoResize` makes. -/
structure SettledAt (b : TebVertexConsole) (i : Nat) : Prop where
  long : ∀ dt, b.timeDiff i = some dt → dt ≤ dtRef + dtHysteresis ∨ maxSamples ≤ b.sizeTimeDiffs
  short : ∀ dt, b.timeDiff i = some dt → i + 1 < b.sizeTimeDiffs →
    dtRef - dtHysteresis ≤ dt ∨ b.sizePoses ≤ minSamples

variable {m dtRef dtHysteresis minSamples maxSamples} {b b' : TebVertexConsole}

/-- An aligned band can be halved anywhere. -/
theorem Aligned.halveAt (h : b.Aligned) {i : Nat} (hi : i < b.sizeTimeDiffs) (dt : Rat) :
    ∃ b', b.halveAt m i dt = some b' ∧ b'.Aligned ∧ b'.sizeTimeDiffs = b.sizeTimeDiffs + 1 := by
  have hpose : ∀ j ≤ i + 1, ∃ p, b.pose j = some p := by
    intro j hj
    have hlt : j < b.poseVec.length := by
      have hsize : b.poseVec.length = b.sizeTimeDiffs + 1 := h
      omega
    exact ⟨_, by rw [pose, List.getElem?_eq_getElem hlt]; rfl⟩
  obtain ⟨pose1, hpose1⟩ := hpose i (Nat.le_succ i)
  obtain ⟨pose2, hpose2⟩ := hpose (i + 1) (Nat.le_refl _)
  have hposes : i + 1 ≤ b.sizePoses := by
    rw [Aligned] at h
    omega
  have htimes : i + 1 ≤ (b.timediffVec.set i (1 / 2 * dt)).length := by
    rw [List.length_set]
    exact hi
  refine ⟨⟨b.poseVec.insertIdx (i + 1) ⟨averageInPlace m pose1 pose2, false⟩,
    (b.timediffVec.set i (1 / 2 * dt)).insertIdx (i + 1) (1 / 2 * dt)⟩, ?_, ?_, ?_⟩
  · unfold TebVertexConsole.halveAt
    simp only [Option.bind_eq_bind]
    rw [setTimeDiff, if_pos hi, Option.bind_some]
    show (b.pose i).bind _ = _
    rw [hpose1, Option.bind_some]
    show (b.pose (i + 1)).bind _ = _
    rw [hpose2, Option.bind_some, insertPose]
    show (if i + 1 ≤ b.sizePoses then _ else _ : Option _).bind _ = _
    rw [if_pos hposes, Option.bind_some]
    exact if_pos htimes
  · show (b.poseVec.insertIdx _ _).length = (List.insertIdx _ _ _).length + 1
    rw [List.length_insertIdx_of_le_length hposes, List.length_insertIdx_of_le_length htimes,
      List.length_set]
    exact congrArg (· + 1) h
  · show (List.insertIdx _ _ _).length = _
    rw [List.length_insertIdx_of_le_length htimes, List.length_set]
    rfl

/-- A time of an aligned band that is not the last can be merged. -/
theorem Aligned.mergeAt (h : b.Aligned) {i : Nat} (hi : i + 1 < b.sizeTimeDiffs) (dt : Rat) :
    ∃ b', b.mergeAt i dt = some b' ∧ b'.Aligned ∧ b'.sizeTimeDiffs + 1 = b.sizeTimeDiffs := by
  have hnext : b.timeDiff (i + 1) = some b.timediffVec[i + 1] := List.getElem?_eq_getElem hi
  generalize b.timediffVec[i + 1] = next at hnext
  have hposes : i + 1 < b.sizePoses := by
    rw [Aligned] at h
    omega
  have htimes : i < (b.timediffVec.set (i + 1) (next + dt)).length := by
    rw [List.length_set]
    exact Nat.lt_of_succ_lt hi
  have hsize : b.poseVec.length = b.timediffVec.length + 1 := h
  have hlength : i + 1 < b.timediffVec.length := hi
  refine ⟨⟨b.poseVec.eraseIdx (i + 1), (b.timediffVec.set (i + 1) (next + dt)).eraseIdx i⟩,
    ?_, ?_, ?_⟩
  · unfold TebVertexConsole.mergeAt
    simp only [Option.bind_eq_bind]
    rw [hnext, Option.bind_some, setTimeDiff, if_pos hi, Option.bind_some, deleteTimeDiff]
    show (if i < (b.timediffVec.set (i + 1) (next + dt)).length then _ else _ : Option _).bind _ = _
    rw [if_pos htimes, Option.bind_some]
    exact if_pos hposes
  · show (b.poseVec.eraseIdx _).length = (List.eraseIdx _ _).length + 1
    rw [List.length_eraseIdx_of_lt hposes, List.length_eraseIdx_of_lt htimes, List.length_set]
    omega
  · show (List.eraseIdx _ _).length + 1 = b.timediffVec.length
    rw [List.length_eraseIdx_of_lt htimes, List.length_set]
    omega

variable (m dtRef dtHysteresis minSamples maxSamples)

/-- One round of the inner loop: it keeps the band aligned, and if it neither inserts nor merges, it
leaves the band and the time is settled. -/
theorem Aligned.resizeAt (h : b.Aligned) {i : Nat} (hi : i < b.sizeTimeDiffs) :
    ∃ b' now, b.resizeAt m dtRef dtHysteresis minSamples maxSamples i = some (b', now) ∧
      b'.Aligned ∧ roundsLeft maxSamples (i + 1) b' < roundsLeft maxSamples i b ∧
      (b'.sizeTimeDiffs = b.sizeTimeDiffs →
        b' = b ∧ b.SettledAt dtRef dtHysteresis minSamples maxSamples i) := by
  have hdt : b.timeDiff i = some b.timediffVec[i] := List.getElem?_eq_getElem hi
  generalize b.timediffVec[i] = dt at hdt
  unfold TebVertexConsole.resizeAt roundsLeft
  rw [hdt, Option.bind_eq_bind, Option.bind_some]
  by_cases hlong : dt > dtRef + dtHysteresis ∧ (b.sizeTimeDiffs : Int) < maxSamples
  case pos =>
    obtain ⟨b', hstep, haligned, hsize⟩ := h.halveAt (m := m) hi dt
    rw [if_pos hlong, hstep]
    exact ⟨b', true, rfl, haligned, by omega, fun hsame => by omega⟩
  have hupper : dt ≤ dtRef + dtHysteresis ∨ maxSamples ≤ b.sizeTimeDiffs := by
    rw [not_and_or, not_lt, not_lt] at hlong
    exact hlong
  rw [if_neg hlong]
  by_cases hshort : dt < dtRef - dtHysteresis ∧ (b.sizePoses : Int) > minSamples
  case neg =>
    have hlower : dtRef - dtHysteresis ≤ dt ∨ b.sizePoses ≤ minSamples := by
      rw [not_and_or, not_lt, not_lt] at hshort
      exact hshort
    rw [if_neg hshort]
    refine ⟨b, false, rfl, h, by omega, fun _ => ⟨rfl, fun dt' hdt' => ?_, fun dt' hdt' _ => ?_⟩⟩
    · rw [hdt] at hdt'
      cases hdt'
      exact hupper
    · rw [hdt] at hdt'
      cases hdt'
      exact hlower
  rw [if_pos hshort]
  by_cases hback : (i : Int) < (b.sizeTimeDiffs : Int) - 1
  case pos =>
    obtain ⟨b', hstep, haligned, hsize⟩ := h.mergeAt (by omega : i + 1 < b.sizeTimeDiffs) dt
    rw [if_pos hback, hstep]
    exact ⟨b', true, rfl, haligned, by omega, fun hsame => by omega⟩
  -- the last time stays, although `modified` is set
  rw [if_neg hback]
  refine ⟨b, true, rfl, h, by omega, fun _ => ⟨rfl, fun dt' hdt' => ?_, fun _ _ hlast => ?_⟩⟩
  · rw [hdt] at hdt'
    cases hdt'
    exact hupper
  · omega

/-- The inner loop ends; a pass without edits leaves the band, and all its times are settled. -/
theorem Aligned.countPass (fuel : Nat) : ∀ {i : Nat} {b : TebVertexConsole} (modified : Bool),
    b.Aligned → roundsLeft maxSamples i b < fuel →
    ∃ b' modified' edits,
      TebVertexConsole.countPass m dtRef dtHysteresis minSamples maxSamples fuel i (b, modified) =
        some ((b', modified'), edits) ∧ b'.Aligned ∧
      (edits = 0 → b' = b ∧ ∀ j, i ≤ j → j < b.sizeTimeDiffs →
        b.SettledAt dtRef dtHysteresis minSamples maxSamples j) := by
  induction fuel with
  | zero => exact fun _ _ h => absurd h (Nat.not_lt_zero _)
  | succ fuel ih =>
      intro i b modified h hfuel
      unfold TebVertexConsole.countPass
      by_cases hi : i < b.sizeTimeDiffs
      · obtain ⟨b₁, now, hstep, haligned, hless, hsame⟩ :=
          h.resizeAt m dtRef dtHysteresis minSamples maxSamples hi
        obtain ⟨b₂, modified', edits, hrest, haligned', hquiet⟩ :=
          ih (modified || now) haligned (hless.trans_le (by omega))
        rw [if_pos hi, hstep, Option.bind_eq_bind, Option.bind_some]
        dsimp only
        rw [hrest, Option.bind_eq_bind, Option.bind_some]
        refine ⟨b₂, modified', _, rfl, haligned', fun htotal => ?_⟩
        obtain ⟨hedits, hround⟩ := Nat.add_eq_zero_iff.mp htotal
        have hsize : b₁.sizeTimeDiffs = b.sizeTimeDiffs := by
          by_contra hne
          rw [if_neg hne] at hround
          cases hround
        obtain ⟨rfl, hsettled⟩ := hsame hsize
        obtain ⟨rfl, hothers⟩ := hquiet hedits
        refine ⟨rfl, fun j hj hlt => ?_⟩
        rcases Nat.eq_or_lt_of_le hj with rfl | hlater
        · exact hsettled
        · exact hothers j hlater hlt
      · rw [if_neg hi]
        exact ⟨b, modified, 0, rfl, h, fun _ => ⟨rfl, fun j hj hlt => by omega⟩⟩

/-- After a pass without edits the band stays as it is. -/
theorem countPasses_of_quiet {modified : Bool}
    (hpass : countPass m dtRef dtHysteresis minSamples maxSamples (b.resizeBound maxSamples) 0
      (b, false) = some ((b, modified), 0)) (rep : Nat) :
    ∃ counts, countPasses m dtRef dtHysteresis minSamples maxSamples rep b = some (b, counts) ∧
      (0 < rep → 0 ∈ counts) := by
  induction rep with
  | zero => exact ⟨[], rfl, fun h => absurd h (Nat.lt_irrefl 0)⟩
  | succ rep ih =>
      obtain ⟨counts, hrest, -⟩ := ih
      unfold countPasses
      rw [hpass, Option.bind_eq_bind, Option.bind_some]
      cases modified with
      | false => exact ⟨[0], rfl, fun _ => List.mem_cons_self⟩
      | true =>
          refine ⟨0 :: counts, ?_, fun _ => List.mem_cons_self⟩
          show (countPasses m dtRef dtHysteresis minSamples maxSamples rep b).bind _ = _
          rw [hrest]
          rfl

/-- The passes end; if one of them makes no edit, all times of the band that they leave are
settled. -/
theorem Aligned.countPasses (rep : Nat) : ∀ {b : TebVertexConsole}, b.Aligned →
    ∃ b' counts,
      TebVertexConsole.countPasses m dtRef dtHysteresis minSamples maxSamples rep b =
        some (b', counts) ∧
      (0 ∈ counts → ∀ j < b'.sizeTimeDiffs,
        b'.SettledAt dtRef dtHysteresis minSamples maxSamples j) := by
  induction rep with
  | zero => exact fun _ => ⟨_, [], rfl, fun h => absurd h List.not_mem_nil⟩
  | succ rep ih =>
      intro b h
      have hbound : roundsLeft maxSamples 0 b < b.resizeBound maxSamples := Nat.lt_succ_self _
      obtain ⟨b₁, modified, edits, hpass, haligned, hquiet⟩ :=
        Aligned.countPass m dtRef dtHysteresis minSamples maxSamples _ false h hbound
      unfold TebVertexConsole.countPasses
      rw [hpass, Option.bind_eq_bind, Option.bind_some]
      cases modified with
      | false =>
          refine ⟨b₁, [edits], rfl, fun hzero => ?_⟩
          obtain ⟨rfl, hsettled⟩ := hquiet (List.mem_singleton.mp hzero).symm
          exact fun j => hsettled j (Nat.zero_le j)
      | true =>
          obtain ⟨b₂, counts, hrest, hlater⟩ := ih haligned
          refine ⟨b₂, edits :: counts, ?_, fun hzero => ?_⟩
          · show (TebVertexConsole.countPasses m dtRef dtHysteresis minSamples maxSamples rep
              b₁).bind _ = _
            rw [hrest]
            rfl
          · rcases List.mem_cons.mp hzero with hedits | hmem
            · subst hedits
              obtain ⟨rfl, hsettled⟩ := hquiet rfl
              obtain ⟨counts', hsame, -⟩ := countPasses_of_quiet m dtRef dtHysteresis minSamples
                maxSamples hpass rep
              rw [hrest] at hsame
              cases hsame
              exact fun j => hsettled j (Nat.zero_le j)
            · exact hlater hmem

/-- `AutoResize` of a band with one time fewer than poses returns. If one of its passes makes no
insertion and no merge, then on return every time is short enough or there are enough times, and
every time but the last is long enough or there are few enough poses. -/
theorem autoResize_settles (hposes : b.sizePoses = b.sizeTimeDiffs + 1) :
    ∃ b' counts,
      countPasses m dtRef dtHysteresis minSamples maxSamples 100 b = some (b', counts) ∧
      b.autoResize m dtRef dtHysteresis minSamples maxSamples = some b' ∧
      (0 ∈ counts →
        ((∀ dt ∈ b'.timediffVec, dt ≤ dtRef + dtHysteresis) ∨ maxSamples ≤ b'.sizeTimeDiffs) ∧
        ((∀ dt ∈ b'.timediffVec.dropLast, dtRef - dtHysteresis ≤ dt) ∨
          b'.sizePoses ≤ minSamples)) := by
  obtain ⟨b', counts, hcount, hsettled⟩ :=
    Aligned.countPasses m dtRef dtHysteresis minSamples maxSamples 100 hposes
  refine ⟨b', counts, hcount, ?_, fun hzero => ⟨?_, ?_⟩⟩
  · rw [autoResize, ← countPasses_fst, hcount]
    rfl
  · refine or_iff_not_imp_right.mpr fun hfew dt hdt => ?_
    obtain ⟨j, hj, rfl⟩ := List.getElem_of_mem hdt
    exact ((hsettled hzero j hj).long _ (List.getElem?_eq_getElem hj)).resolve_right hfew
  · refine or_iff_not_imp_right.mpr fun hmany dt hdt => ?_
    obtain ⟨j, hj, rfl⟩ := List.getElem_of_mem hdt
    rw [List.getElem_dropLast]
    rw [List.length_dropLast] at hj
    have hlast : j + 1 < b'.sizeTimeDiffs := Nat.lt_of_lt_of_eq (Nat.add_lt_of_lt_sub hj) rfl
    have hlt : j < b'.sizeTimeDiffs := Nat.lt_of_succ_lt hlast
    exact ((hsettled hzero j hlt).short _ (List.getElem?_eq_getElem hlt) hlast).resolve_right hmany

/-- Three poses whose last time is shorter than the others. -/
def shortLast : TebVertexConsole :=
  ⟨[⟨⟨0, 0, 0⟩, true⟩, ⟨⟨1, 0, 0⟩, false⟩, ⟨⟨2, 0, 0⟩, true⟩], [1, 1 / 2]⟩

/-- A pass over the band whose last time is too short makes no edit. -/
theorem countPass_shortLast :
    countPass alongAxis 1 (1 / 10) 2 10 (shortLast.resizeBound 10) 0 (shortLast, false) =
      some ((shortLast, true), 0) := by
  decide +kernel

/-- The first pass over this band settles. -/
theorem autoResize_settles_shortLast :
    ∃ b' counts, countPasses alongAxis 1 (1 / 10) 2 10 100 shortLast = some (b', counts) ∧
      0 ∈ counts ∧ ((∀ dt ∈ b'.timediffVec.dropLast, (1 : Rat) - 1 / 10 ≤ dt) ∨
        (b'.sizePoses : Int) ≤ 2) := by
  obtain ⟨b', counts, hcount, -, hsettled⟩ :=
    autoResize_settles alongAxis 1 (1 / 10) 2 10 (b := shortLast) rfl
  obtain ⟨counts', hsame, hzero⟩ :=
    countPasses_of_quiet alongAxis 1 (1 / 10) 2 10 countPass_shortLast 100
  rw [hcount] at hsame
  cases hsame
  exact ⟨shortLast, counts, hcount, hzero (by decide), (hsettled (hzero (by decide))).2⟩

/-- The passes settle, but the last time stays too short although a pose could be deleted. -/
theorem last_time_not_merged :
    ∃ counts, countPasses alongAxis 1 (1 / 10) 2 10 100 shortLast = some (shortLast, counts) ∧
      0 ∈ counts ∧ shortLast.autoResize alongAxis 1 (1 / 10) 2 10 = some shortLast ∧
      ¬((∀ dt ∈ shortLast.timediffVec, (1 : Rat) - 1 / 10 ≤ dt) ∨ (shortLast.sizePoses : Int) ≤ 2) := by
  obtain ⟨counts, hcount, hzero⟩ :=
    countPasses_of_quiet alongAxis 1 (1 / 10) 2 10 countPass_shortLast 100
  refine ⟨counts, hcount, hzero (by decide), ?_, ?_⟩
  · rw [autoResize, ← countPasses_fst, hcount]
    rfl
  · rintro (hlong | hfew)
    · exact absurd (hlong (1 / 2) (by simp [shortLast])) (by norm_num)
    · exact absurd hfew (by decide)

end TebVertexConsole

end RoboRTS.Planning
