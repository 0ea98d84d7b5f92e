import RoboRTS.Planning.LocalPlanner.TimedElasticBand.TebOptimal

/-!
# What the optimisation keeps

A solver moves the vertices of the graph that are not fixed; it adds and deletes none (`MovesFree`).
With such a solver a call of `Optimal` never asks for a pose or a time that is not there, and leaves
a band from the first to the last pose of the plan (`optimal_toConsole`). After a success it has as
many poses as `min_samples` says, which is what `GetVelocity` relies on.
-/

namespace RoboRTS.Planning

/-- The solver moves inner poses and changes times only. -/
def MovesFree (solver : Solver) : Prop :=
  ∀ edges n (e : ElasticBand), ∃ e' : ElasticBand, (solver edges n e.toConsole).1 = e'.toConsole ∧
    e'.first = e.first ∧ e'.last = e.last ∧ e'.inner.length = e.inner.length

namespace TebVertexConsole

variable {m : TebLibrary} {config : TebConfig} {source : GraphSource} {solver : Solver}
variable {b : TebVertexConsole} {e : ElasticBand}

/-! ## The graph -/

theorem mem_rounds {start stop i : Int} : i ∈ rounds start stop ↔ start ≤ i ∧ i < stop := by
  rw [rounds, List.mem_map]
  constructor
  · rintro ⟨k, hk, rfl⟩
    rw [List.mem_range] at hk
    omega
  · rintro ⟨hle, hlt⟩
    exact ⟨(i - start).toNat, by rw [List.mem_range]; omega, by omega⟩

/-- Edges that are attached to their vertices, whatever the conditions on the weights. -/
theorem attaches_of_mem_ite {c : Prop} [Decidable c] {edges : List Edge} {x : Edge}
    (h : ∀ x ∈ edges, b.Attaches x) (hx : x ∈ if c then [] else edges) : b.Attaches x := by
  split at hx
  · cases hx
  · exact h x hx

/-- The edges between consecutive poses of a band. -/
theorem attaches_consecutive (kind : EdgeKind) (times : Int → List Int)
    (htimes : ∀ i, times i = [i] ∨ times i = []) :
    ∀ x ∈ (rounds 0 (e.toConsole.sizePoses - 1)).map fun i => (⟨kind, [i, i + 1], times i⟩ : Edge),
      e.toConsole.Attaches x := by
  intro x hx
  obtain ⟨i, hi, rfl⟩ := List.mem_map.mp hx
  obtain ⟨hle, hlt⟩ := mem_rounds.mp hi
  rw [ElasticBand.sizePoses_toConsole] at hlt
  push_cast at hlt
  refine ⟨fun j hj => ?_, fun j hj => ?_⟩
  · rw [ElasticBand.sizePoses_toConsole]
    push_cast
    rcases List.mem_pair.mp hj with rfl | rfl <;> omega
  · rw [ElasticBand.sizeTimeDiffs_toConsole]
    push_cast
    dsimp only at hj
    rcases htimes i with htime | htime
    · rw [htime, List.mem_singleton] at hj
      omega
    · rw [htime] at hj
      cases hj

theorem attaches_addAccelerationEdges :
    ∀ x ∈ e.toConsole.addAccelerationEdges config, e.toConsole.Attaches x := by
  intro x hx
  refine attaches_of_mem_ite (fun x hx => ?_) hx
  rw [List.mem_append, List.mem_append] at hx
  rcases hx with (hx | hx) | hx
  · rw [List.mem_singleton.mp hx]
    simp [Attaches]
    omega
  · obtain ⟨i, hi, rfl⟩ := List.mem_map.mp hx
    have hround := mem_rounds.mp hi
    simp [Attaches] at hround ⊢
    omega
  · refine attaches_of_mem_ite (fun x hx => ?_) hx
    rw [List.mem_singleton.mp hx]
    simp [Attaches]
    omega

theorem attaches_addTimeOptimalEdges :
    ∀ x ∈ e.toConsole.addTimeOptimalEdges config, e.toConsole.Attaches x := by
  intro x hx
  refine attaches_of_mem_ite (fun x hx => ?_) hx
  obtain ⟨i, hi, rfl⟩ := List.mem_map.mp hx
  have hround := mem_rounds.mp hi
  simp [Attaches] at hround ⊢
  omega

/-- A loop whose rounds all succeed with elements that have a property collects such elements. -/
theorem mapM_collects {α β : Type} {P : β → Prop} {f : α → Option (List β)} (indices : List α)
    (hf : ∀ i ∈ indices, ∃ found, f i = some found ∧ ∀ x ∈ found, P x) :
    ∃ all, indices.mapM f = some all ∧ ∀ x ∈ all.flatten, P x := by
  induction indices with
  | nil => exact ⟨[], rfl, by simp⟩
  | cons i indices ih =>
      obtain ⟨found, hfound, hP⟩ := hf i (List.mem_cons_self ..)
      obtain ⟨all, hall, hPall⟩ := ih fun j hj => hf j (List.mem_cons_of_mem _ hj)
      refine ⟨found :: all, by rw [List.mapM_cons, hfound, hall]; rfl, fun x hx => ?_⟩
      rw [List.flatten_cons, List.mem_append] at hx
      exact hx.elim (hP x) (hPall x)

variable (config source) in
theorem addObstacleEdges_toConsole (e : ElasticBand) (weightMultiplier : Rat) :
    ∃ edges, e.toConsole.addObstacleEdges config source weightMultiplier = some edges ∧
      ∀ x ∈ edges, e.toConsole.Attaches x := by
  unfold addObstacleEdges
  split
  · exact ⟨[], rfl, by simp⟩
  · obtain ⟨all, hall, hattached⟩ := mapM_collects (P := e.toConsole.Attaches)
      (f := fun i => (e.toConsole.pose i.toNat).map fun pose =>
        List.replicate (source.near pose) ⟨.obstacle, [i], []⟩)
      (rounds 1 (e.toConsole.sizePoses - 1)) (by
        intro i hi
        obtain ⟨hle, hlt⟩ := mem_rounds.mp hi
        rw [ElasticBand.sizePoses_toConsole] at hlt
        obtain ⟨pose, hpose⟩ := e.exists_pose (i := i.toNat) (by omega)
        refine ⟨_, by rw [hpose]; rfl, fun x hx => ?_⟩
        rw [(List.mem_replicate.mp hx).2]
        simp [Attaches]
        omega)
    exact ⟨all.flatten, by rw [hall]; rfl, hattached⟩

/-- From an inner pose the neighbours on both sides are counted up to the ends. -/
theorem affectedPoses_bounds {index i : Int} (hlow : 1 < index) (hhigh : index ≤ b.sizePoses - 2)
    (hi : i ∈ b.affectedPoses config index) : 0 ≤ i ∧ i < b.sizePoses := by
  rcases List.mem_cons.mp hi with rfl | hi
  · omega
  · obtain ⟨k, hk, hi⟩ := List.mem_flatMap.mp hi
    obtain ⟨hk, -⟩ := mem_rounds.mp hk
    rcases List.mem_append.mp hi with hi | hi
    · split at hi
      · rw [List.mem_singleton] at hi
        omega
      · cases hi
    · split at hi
      · rw [List.mem_singleton] at hi
        omega
      · cases hi

theorem attaches_addObstacleLegacyEdges {lib : MathLibrary} {weightMultiplier : Rat} :
    ∀ x ∈ b.addObstacleLegacyEdges lib config source weightMultiplier, b.Attaches x := by
  intro x hx
  refine attaches_of_mem_ite (fun x hx => ?_) hx
  obtain ⟨obst, -, hx⟩ := List.mem_flatMap.mp hx
  dsimp only at hx
  split at hx
  · cases hx
  · next hinner =>
      rw [not_or, Int.not_le, Int.not_lt] at hinner
      obtain ⟨i, hi, rfl⟩ := List.mem_map.mp hx
      refine ⟨fun j hj => ?_, fun j hj => absurd hj List.not_mem_nil⟩
      rw [List.mem_singleton.mp hj]
      exact affectedPoses_bounds hinner.1 hinner.2 hi

theorem attaches_addPreferRotDirEdges :
    ∀ x ∈ e.toConsole.addPreferRotDirEdges config source, e.toConsole.Attaches x := by
  intro x hx
  refine attaches_of_mem_ite (fun x hx => ?_) hx
  obtain ⟨i, hi, rfl⟩ := List.mem_map.mp hx
  have hround := mem_rounds.mp hi
  simp [Attaches] at hround ⊢
  omega

variable (config source) in
/-- With and without the legacy switch the edges to obstacles are attached to poses of the band. -/
theorem obstacleEdges_toConsole (lib : MathLibrary) (e : ElasticBand) (weightMultiplier : Rat) :
    ∃ edges, e.toConsole.obstacleEdges lib config source weightMultiplier = some edges ∧
      ∀ x ∈ edges, e.toConsole.Attaches x := by
  unfold obstacleEdges
  split
  · exact ⟨_, rfl, attaches_addObstacleLegacyEdges⟩
  · exact addObstacleEdges_toConsole config source e weightMultiplier

variable (config source) in
/-- Every edge of a band's graph is attached to vertices of the band. -/
theorem buildGraph_toConsole (lib : MathLibrary) (e : ElasticBand) (weightMultiplier : Rat) :
    ∃ edges, e.toConsole.buildGraph lib config source weightMultiplier = some edges := by
  obtain ⟨obstacleEdges, hobstacles, hattached⟩ :=
    obstacleEdges_toConsole config source lib e weightMultiplier
  have hvelocity : ∀ x ∈ e.toConsole.addVelocityEdges config, e.toConsole.Attaches x :=
    fun x hx => attaches_of_mem_ite (attaches_consecutive _ _ fun i => Or.inl rfl) hx
  have hkinematics : ∀ x ∈ (if config.minTurningRadius = 0 ∨
      config.weightKinematicsTurningRadius = 0 then e.toConsole.addKinematicsDiffDriveEdges config
      else e.toConsole.addKinematicsCarlikeEdges config), e.toConsole.Attaches x := by
    intro x hx
    split at hx
    · exact attaches_of_mem_ite (attaches_consecutive _ _ fun i => Or.inr rfl) hx
    · exact attaches_of_mem_ite (attaches_consecutive _ _ fun i => Or.inr rfl) hx
  unfold buildGraph
  rw [hobstacles, Option.bind_eq_bind, Option.bind_some]
  dsimp only
  rw [if_pos fun x hx => ?_]
  · exact ⟨_, rfl⟩
  · simp only [List.mem_append] at hx
    rcases hx with ((((hx | hx) | hx) | hx) | hx) | hx
    · exact hattached x hx
    · exact hvelocity x hx
    · exact attaches_addAccelerationEdges x hx
    · exact attaches_addTimeOptimalEdges x hx
    · exact hkinematics x hx
    · exact attaches_addPreferRotDirEdges x hx

/-! ## The optimisation -/

/-- A band with the same ends. -/
structure SameEnds (e e' : ElasticBand) : Prop where
  first : e'.first = e.first
  last : e'.last = e.last

theorem SameEnds.refl (e : ElasticBand) : SameEnds e e :=
  ⟨rfl, rfl⟩

theorem SameEnds.trans {e₁ e₂ e₃ : ElasticBand} (h : SameEnds e₁ e₂) (h' : SameEnds e₂ e₃) :
    SameEnds e₁ e₃ :=
  ⟨h'.first.trans h.first, h'.last.trans h.last⟩

/-- `AutoResize` leaves a band with the same ends. -/
theorem autoResize_toConsole (lib : MathLibrary) (dtRef dtHysteresis : Rat)
    (minSamples maxSamples : Int) (e : ElasticBand) :
    ∃ e', e.toConsole.autoResize lib dtRef dtHysteresis minSamples maxSamples =
      some e'.toConsole ∧ SameEnds e e' := by
  obtain ⟨e', hresize, hresized⟩ :=
    resizePasses_toConsole lib dtRef dtHysteresis minSamples maxSamples 100 e
  refine ⟨e', hresize, ?_, ?_⟩
  · have hfront := hresized.front
    simp only [ElasticBand.toConsole, List.head?_cons, Option.some.injEq,
      TebVertexPose.mk.injEq, and_true] at hfront
    exact hfront
  · have hback := hresized.back
    rw [ElasticBand.back_toConsole, ElasticBand.back_toConsole, Option.some.injEq,
      TebVertexPose.mk.injEq] at hback
    exact hback.1

theorem autosize_toConsole (m : TebLibrary) (config : TebConfig) (e : ElasticBand) :
    ∃ e', e.toConsole.autosize m config = some e'.toConsole ∧ SameEnds e e' := by
  unfold autosize
  split
  · exact autoResize_toConsole ..
  · exact ⟨e, rfl, .refl e⟩

variable (config) in
/-- The solver is only asked about bands with enough samples. -/
theorem optimizeGraph_toConsole (hfree : MovesFree solver) (edges : List Edge) (e : ElasticBand) :
    ∃ e' success, e.toConsole.optimizeGraph config solver edges = (e'.toConsole, success) ∧
      SameEnds e e' ∧ (success = true → config.minSamples ≤ e'.toConsole.sizePoses) := by
  unfold optimizeGraph
  split
  · exact ⟨e, false, rfl, .refl e, fun h => absurd h Bool.false_ne_true⟩
  · split
    · exact ⟨e, false, rfl, .refl e, fun h => absurd h Bool.false_ne_true⟩
    · next hfew =>
        obtain ⟨e', hsolve, hfirst, hlast, hlength⟩ := hfree edges config.noInnerIterations e
        refine ⟨e', _, by rw [← hsolve], ⟨hfirst, hlast⟩, fun _ => ?_⟩
        rw [not_or, Int.not_lt] at hfew
        rw [ElasticBand.sizePoses_toConsole, hlength, ← ElasticBand.sizePoses_toConsole]
        exact hfew.2

variable (m config source) in
/-- Rounds of `OptimizeTeb` on a band. -/
theorem optimizeRounds_toConsole (hfree : MovesFree solver) (k : Nat) :
    ∀ (weightMultiplier : Rat) (e : ElasticBand), ∃ e' success,
      optimizeRounds m config source solver k weightMultiplier e.toConsole =
        some (e'.toConsole, success) ∧ SameEnds e e' ∧
      (success = true → 0 < k → config.minSamples ≤ e'.toConsole.sizePoses) := by
  induction k with
  | zero => exact fun w e => ⟨e, true, rfl, .refl e, fun _ hk => absurd hk (Nat.lt_irrefl 0)⟩
  | succ k ih =>
      intro w e
      obtain ⟨e₁, hresize, hends₁⟩ := autosize_toConsole m config e
      obtain ⟨edges, hedges⟩ := buildGraph_toConsole config source m.toMathLibrary e₁ w
      obtain ⟨e₂, success, hgraph, hends₂, hsamples⟩ :=
        optimizeGraph_toConsole config hfree edges e₁
      rw [optimizeRounds, hresize, Option.bind_eq_bind, Option.bind_some, hedges,
        Option.bind_eq_bind, Option.bind_some, hgraph]
      dsimp only
      cases success with
      | false =>
          exact ⟨e₂, false, rfl, hends₁.trans hends₂, fun h => absurd h Bool.false_ne_true⟩
      | true =>
          rw [if_pos rfl]
          obtain ⟨e₃, success, hrest, hends₃, hlater⟩ := ih (w * config.weightAdaptFactor) e₂
          refine ⟨e₃, success, hrest, (hends₁.trans hends₂).trans hends₃, fun hsuccess _ => ?_⟩
          cases k with
          | zero =>
              rw [← (Prod.mk.inj (Option.some.inj hrest)).1]
              exact hsamples rfl
          | succ k => exact hlater hsuccess (Nat.succ_pos k)

/-- `UpdateAndPruneTEB` with both ends leaves a band between them. -/
theorem updateAndPruneTEB_ends (lib : MathLibrary) (start goal : DataBase) {minSamples : Int}
    (hmin : 2 ≤ minSamples) (e : ElasticBand) :
    ∃ e' : ElasticBand, e.toConsole.updateAndPruneTEB lib (some start) (some goal) minSamples =
      some e'.toConsole ∧ e'.first = start ∧ e'.last = goal := by
  obtain ⟨e₁, hprune, hfirst, -⟩ := pruneStart_toConsole (e := e) lib start hmin
  refine ⟨{ e₁ with last := goal }, ?_, hfirst, rfl⟩
  unfold updateAndPruneTEB
  dsimp only
  rw [ElasticBand.sizePoses_toConsole, if_pos (Nat.succ_pos _), hprune, Option.bind_eq_bind,
    Option.bind_some, ElasticBand.sizePoses_toConsole, if_pos (Nat.succ_pos _)]
  exact setPose_last goal

/-- `Optimal` hands a band from the first to the last pose of its plan to the optimisation. -/
theorem Banded.prepareBand (hb : b.Banded) (m : TebLibrary) (hmin : 2 ≤ config.minSamples)
    {plan : List DataBase} (hplan : plan ≠ []) (microControl : Bool) :
    ∃ e : ElasticBand, b.prepareBand m config plan microControl = some e.toConsole ∧
      plan.head? = some e.first ∧ plan.getLast? = some e.last := by
  have hinit : ∃ e : ElasticBand, (empty.initTEBtoGoalPlan m.toMathLibrary plan config.dtRef
      config.globalPlanOverwriteOrientation config.minSamples microControl).map Prod.fst =
        some e.toConsole ∧ plan.head? = some e.first ∧ plan.getLast? = some e.last := by
    obtain ⟨e, hinit, hends⟩ := initTEBtoGoalPlan_empty m.toMathLibrary hplan config.dtRef
      config.globalPlanOverwriteOrientation config.minSamples microControl
    exact ⟨e, by rw [hinit]; rfl, hends⟩
  rcases hb with rfl | ⟨e, rfl⟩
  · exact hinit
  · obtain ⟨goal, hgoal⟩ := Option.ne_none_iff_exists'.mp (mt List.getLast?_eq_none_iff.mp hplan)
    obtain ⟨start, hstart⟩ := Option.ne_none_iff_exists'.mp (mt List.head?_eq_none_iff.mp hplan)
    have hback : e.toConsole.backPose = some e.last := by
      rw [backPose, ElasticBand.back_toConsole]
      rfl
    unfold TebVertexConsole.prepareBand
    rw [ElasticBand.isInit_toConsole, if_neg (by decide), hstart, hgoal, hback,
      Option.bind_eq_bind, Option.bind_some, Option.bind_some, Option.bind_some]
    split
    · obtain ⟨e', hprune, rfl, rfl⟩ := updateAndPruneTEB_ends m.toMathLibrary start goal hmin e
      exact ⟨e', hprune, rfl, rfl⟩
    · rw [← hstart, ← hgoal]
      exact hinit

/-- `Optimal` leaves a band from the first to the last pose of its plan, with enough samples when it
succeeds. -/
theorem Banded.optimal (hb : b.Banded) (m : TebLibrary) (source : GraphSource)
    (hfree : MovesFree solver) (hmin : 2 ≤ config.minSamples)
    (houter : 0 < config.noOuterIterations) {plan : List DataBase} (hplan : plan ≠ [])
    (microControl : Bool) :
    ∃ (e : ElasticBand) (success : Bool),
      b.optimal m config source solver plan microControl = some (e.toConsole, success) ∧
      plan.head? = some e.first ∧ plan.getLast? = some e.last ∧
      (success = true → config.minSamples ≤ e.toConsole.sizePoses) := by
  obtain ⟨e₁, hprepare, hfirst, hlast⟩ := hb.prepareBand m hmin hplan microControl
  unfold TebVertexConsole.optimal optimizeTeb
  rw [hprepare, Option.bind_eq_bind, Option.bind_some]
  split
  · obtain ⟨e₂, success, hrounds, hends, hsamples⟩ :=
      optimizeRounds_toConsole m config source hfree config.noOuterIterations.toNat 1 e₁
    refine ⟨e₂, success, hrounds, by rw [hfirst, hends.first], by rw [hlast, hends.last],
      fun hsuccess => hsamples hsuccess (by omega)⟩
  · exact ⟨e₁, false, rfl, hfirst, hlast, fun h => absurd h Bool.false_ne_true⟩

/-! ## The checks -/

/-- What `IsTrajectoryFeasible` checks in round `i`: the pose, and the middle of the way to the next
pose when that is far. -/
def FreeAt (m : TebLibrary) (b : TebVertexConsole) (cost : DataBase → Rat) (inscribedRadius : Rat)
    (last i : Nat) : Prop :=
  ∀ pose, b.pose i = some pose → 0 ≤ cost pose ∧
    (i < last → ∀ next, b.pose (i + 1) = some next →
      inscribedRadius < m.norm (next.x - pose.x) (next.y - pose.y) →
        0 ≤ cost (averageInPlace m.toMathLibrary pose next))

theorem feasibleAt_toConsole (m : TebLibrary) (cost : DataBase → Rat) (inscribedRadius : Rat)
    {last i : Nat} (hi : i ≤ last) (hlast : last < e.toConsole.sizePoses) :
    ∃ ok, e.toConsole.feasibleAt m cost inscribedRadius last i = some ok ∧
      (ok = true ↔ FreeAt m e.toConsole cost inscribedRadius last i) := by
  rw [ElasticBand.sizePoses_toConsole] at hlast
  obtain ⟨pose, hpose⟩ := e.exists_pose (i := i) (by omega)
  unfold feasibleAt FreeAt
  rw [hpose, Option.bind_eq_bind, Option.bind_some]
  by_cases hcost : cost pose < 0
  · rw [if_pos hcost]
    refine ⟨false, rfl, iff_of_false Bool.false_ne_true fun h => ?_⟩
    exact absurd (h pose rfl).1 (not_le.mpr hcost)
  · rw [if_neg hcost]
    have hle := not_lt.mp hcost
    by_cases hlt : i < last
    · obtain ⟨next, hnext⟩ := e.exists_pose (i := i + 1) (by omega)
      rw [if_pos hlt, hnext, Option.bind_some]
      split
      · next hfar =>
          refine ⟨_, rfl, ?_⟩
          rw [decide_eq_true_eq]
          constructor
          · intro hmiddle p hp
            obtain rfl := Option.some.inj hp
            refine ⟨hle, fun _ n hn _ => ?_⟩
            obtain rfl := Option.some.inj hn
            exact hmiddle
          · exact fun h => (h pose rfl).2 hlt next rfl hfar
      · next hnear =>
          refine ⟨true, rfl, iff_of_true rfl fun p hp => ?_⟩
          obtain rfl := Option.some.inj hp
          refine ⟨hle, fun _ n hn hfar => ?_⟩
          obtain rfl := Option.some.inj hn
          exact absurd hfar hnear
    · rw [if_neg hlt]
      refine ⟨true, rfl, iff_of_true rfl fun p hp => ?_⟩
      obtain rfl := Option.some.inj hp
      exact ⟨hle, fun h => absurd h hlt⟩

theorem feasibleFrom_toConsole (m : TebLibrary) (cost : DataBase → Rat) (inscribedRadius : Rat)
    {last : Nat} (hlast : last < e.toConsole.sizePoses) (count : Nat) :
    ∀ i, i + count = last + 1 →
      ∃ ok, e.toConsole.feasibleFrom m cost inscribedRadius last count i = some ok ∧
        (ok = true ↔ ∀ j, i ≤ j → j ≤ last → FreeAt m e.toConsole cost inscribedRadius last j) := by
  induction count with
  | zero =>
      intro i hi
      refine ⟨true, rfl, iff_of_true rfl fun j hij hj => ?_⟩
      omega
  | succ count ih =>
      intro i hi
      obtain ⟨ok, hok, hiff⟩ :=
        feasibleAt_toConsole (e := e) m cost inscribedRadius (show i ≤ last by omega) hlast
      obtain ⟨rest, hrest, hall⟩ := ih (i + 1) (by omega)
      rw [feasibleFrom, hok, Option.bind_eq_bind, Option.bind_some]
      cases ok with
      | false =>
          refine ⟨false, rfl, iff_of_false Bool.false_ne_true fun h => ?_⟩
          exact absurd (hiff.mpr (h i (Nat.le_refl i) (by omega))) Bool.false_ne_true
      | true =>
          rw [if_pos rfl]
          refine ⟨rest, hrest, hall.trans ⟨fun h j hij hj => ?_, fun h j hij hj => ?_⟩⟩
          · rcases Nat.lt_or_eq_of_le hij with hlt | rfl
            · exact h j hlt hj
            · exact hiff.mp rfl
          · exact h j (by omega) hj

/-- `IsTrajectoryFeasible` looks at poses of the band only, and says whether all it looks at are
free. -/
theorem isTrajectoryFeasible_toConsole (m : TebLibrary) (cost : DataBase → Rat)
    (inscribedRadius : Rat) (lookAhead : Int) (e : ElasticBand) :
    ∃ ok, e.toConsole.isTrajectoryFeasible m cost inscribedRadius lookAhead = some ok ∧
      (ok = true ↔ ∀ i : Nat, (i : Int) ≤ e.toConsole.lookAheadIdx lookAhead →
        FreeAt m e.toConsole cost inscribedRadius (e.toConsole.lookAheadIdx lookAhead).toNat i) := by
  have hbounds : 0 ≤ e.toConsole.lookAheadIdx lookAhead ∧
      e.toConsole.lookAheadIdx lookAhead < e.toConsole.sizePoses := by
    unfold lookAheadIdx
    rw [ElasticBand.sizePoses_toConsole]
    split <;> omega
  have hlast : (e.toConsole.lookAheadIdx lookAhead).toNat < e.toConsole.sizePoses := by omega
  obtain ⟨ok, hok, hiff⟩ := feasibleFrom_toConsole m cost inscribedRadius hlast
    (e.toConsole.lookAheadIdx lookAhead + 1).toNat 0 (by omega)
  refine ⟨ok, hok, hiff.trans ⟨fun h i hi => h i (Nat.zero_le i) (by omega), fun h i _ hi => ?_⟩⟩
  exact h i (by omega)

/-- `GetVelocity` on a band with three poses reads poses and times of the band only. -/
theorem getVelocity_toConsole (m : TebLibrary) (config : TebConfig) (cmd : TwistAccel)
    (hsamples : 3 ≤ e.toConsole.sizePoses) :
    ∃ out, e.toConsole.getVelocity m config cmd = some out := by
  rw [ElasticBand.sizePoses_toConsole] at hsamples
  obtain ⟨pose0, h0⟩ := e.exists_pose (i := 0) (by omega)
  obtain ⟨pose1, h1⟩ := e.exists_pose (i := 1) (by omega)
  obtain ⟨pose2, h2⟩ := e.exists_pose (i := 2) (by omega)
  have htimes := e.length_times
  have hdt : e.toConsole.timeDiff 0 = some e.times[0] :=
    List.getElem?_eq_getElem (l := e.times) (i := 0) (by omega)
  have hdt2 : e.toConsole.timeDiff 1 = some e.times[1] :=
    List.getElem?_eq_getElem (l := e.times) (i := 1) (by omega)
  unfold getVelocity
  split
  · exact ⟨_, rfl⟩
  · rw [hdt, Option.bind_eq_bind, Option.bind_some]
    split
    · exact ⟨_, rfl⟩
    · rw [h0, h1, hdt2, h2]
      exact ⟨_, rfl⟩

end TebVertexConsole

end RoboRTS.Planning
