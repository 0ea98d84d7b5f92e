import RoboRTS.Decision.BehaviorTree.Running

/-!
# The threshold of a parallel node

A run of a parallel node goes from a tick that finds it not running to one that does not return
RUNNING, with the results of the children in the order in which they come. `tick_spec` says when a
tick ends: at the first result that makes `threshold` children successful, or with the first failure
that leaves no more than `threshold` children which have not failed. The node ought to wait for one
failure more, so it meets its threshold exactly as long as this failure does not come
(`parallel_run_iff`).
-/

namespace RoboRTS.Decision.BehaviorTree

open BehaviorNode

/-- The position of a child and what its `Run` has returned. -/
abbrev ChildResult := Nat × BehaviorState

/-- A tick of the node: the results of the children that it ticks, and what it returns. -/
structure Tick where
  results : List ChildResult
  state : BehaviorState
  deriving DecidableEq, Repr

/-- The results of a number of ticks. -/
def allResults (ticks : List Tick) : List ChildResult :=
  ticks.flatMap Tick.results

/-! ## The loop with its results -/

section Traced

variable (path : Path) (threshold : Nat) (children : List Methods)

/-- A result in front of those of the rest of the loop. -/
def record (result : ChildResult) (rest : Option ((BehaviorState × World) × List ChildResult)) :
    Option ((BehaviorState × World) × List ChildResult) :=
  rest.map fun (out, results) => (out, result :: results)

/-- The loop of `ParallelNode::Update` with the results of the children that it runs. -/
def tracedParallel : List Methods → Nat → World →
    Option ((BehaviorState × World) × List ChildResult)
  | [], _, w => some ((.RUNNING, w), [])
  | child :: rest, index, w =>
      ((w.node path).childrenDone[index]?).bind fun done =>
        if done = false then
          (child.run none w).bind fun (state, w) =>
            if state = .SUCCESS then
              let w := countSuccess path index w
              if (w.node path).successCount ≥ threshold then
                some ((.SUCCESS, w), [(index, state)])
              else record (index, state) (tracedParallel rest (index + 1) w)
            else if state = .FAILURE then
              let w := countFailure path index w
              if (w.node path).failureCount ≥ failureThreshold children.length threshold then
                some ((.FAILURE, w), [(index, state)])
              else record (index, state) (tracedParallel rest (index + 1) w)
            else record (index, state) (tracedParallel rest (index + 1) w)
        else tracedParallel rest (index + 1) w

theorem record_fst (result : ChildResult)
    (rest : Option ((BehaviorState × World) × List ChildResult)) :
    (record result rest).map Prod.fst = rest.map Prod.fst := by
  cases rest <;> rfl

/-- The results change nothing. -/
theorem tracedParallel_fst (rest : List Methods) : ∀ (index : Nat) (w : World),
    (tracedParallel path threshold children rest index w).map Prod.fst =
      runParallel path threshold children rest index w := by
  induction rest with
  | nil => exact fun _ _ => rfl
  | cons child rest ih =>
      intro index w
      unfold tracedParallel runParallel
      cases (w.node path).childrenDone[index]? with
      | none => rfl
      | some done =>
          cases done with
          | true => exact ih (index + 1) w
          | false =>
              rw [Option.bind_some, Option.bind_some, if_pos rfl, if_pos rfl]
              cases child.run none w with
              | none => rfl
              | some out =>
                  obtain ⟨state, w₁⟩ := out
                  simp only [Option.bind_some]
                  split_ifs
                  · rfl
                  · rw [record_fst, ih]
                  · rfl
                  · rw [record_fst, ih]
                  · rw [record_fst, ih]

/-- The results of the children in a tick of the node. -/
def tickResults (w : World) : List ChildResult :=
  let w := if w.Running path then w else parallelOnInitialize path children w
  match tracedParallel path threshold children children 0 w with
  | none => []
  | some (_, results) => results

end Traced

/-! ## What the results decide -/

def successes (results : List ChildResult) : Nat :=
  results.countP fun r => r.2 = .SUCCESS

def failures (results : List ChildResult) : Nat :=
  results.countP fun r => r.2 = .FAILURE

/-- The child has succeeded or failed. -/
def Done (results : List ChildResult) (index : Nat) : Prop :=
  ∃ r ∈ results, r.1 = index ∧ (r.2 = .SUCCESS ∨ r.2 = .FAILURE)

/-- Enough children have succeeded, or fewer than `threshold` can still do so. -/
def decided (threshold size : Nat) (results : List ChildResult) : Option BehaviorState :=
  if threshold ≤ successes results then some .SUCCESS
  else if size < failures results + threshold then some .FAILURE
  else none

/-- What the counts of the node decide. -/
def counted (threshold size : Nat) (results : List ChildResult) : Option BehaviorState :=
  if threshold ≤ successes results then some .SUCCESS
  else if 0 < failures results ∧ size ≤ failures results + threshold then some .FAILURE
  else none

/-- A tick after the results `seen` ends with the first result that decides. -/
structure TickSpec (verdict : List ChildResult → Option BehaviorState) (seen : List ChildResult)
    (tick : Tick) : Prop where
  undecided : ∀ results, results <+: tick.results → results ≠ tick.results →
    verdict (seen ++ results) = none
  verdict : verdict (seen ++ tick.results) = if tick.state = .RUNNING then none else some tick.state

/-- Every tick of a run does. -/
def Decides (verdict : List ChildResult → Option BehaviorState) (ticks : List Tick) : Prop :=
  ∀ before tick after, ticks = before ++ tick :: after → TickSpec verdict (allResults before) tick

/-- No child comes again after it has succeeded or failed. -/
def NoneAgain (results : List ChildResult) : Prop :=
  results.Pairwise fun a b => a.2 = .SUCCESS ∨ a.2 = .FAILURE → b.1 ≠ a.1

variable {threshold size index : Nat} {results seen : List ChildResult} {state : BehaviorState}
  {verdict : List ChildResult → Option BehaviorState}

@[simp] theorem successes_append (results results' : List ChildResult) :
    successes (results ++ results') = successes results + successes results' :=
  List.countP_append

@[simp] theorem failures_append (results results' : List ChildResult) :
    failures (results ++ results') = failures results + failures results' :=
  List.countP_append

theorem done_append {results' : List ChildResult} :
    Done (results ++ results') index ↔ Done results index ∨ Done results' index := by
  simp only [Done, List.mem_append, or_and_right, exists_or]

theorem done_singleton {r : ChildResult} :
    Done [r] index ↔ r.1 = index ∧ (r.2 = .SUCCESS ∨ r.2 = .FAILURE) := by
  simp [Done]

/-- A tick that goes on after its first result. -/
theorem TickSpec.cons {r : ChildResult} (hseen : verdict seen = none)
    (h : TickSpec verdict (seen ++ [r]) ⟨results, state⟩) :
    TickSpec verdict seen ⟨r :: results, state⟩ := by
  constructor
  · intro rs hprefix hne
    cases rs with
    | nil => rwa [List.append_nil]
    | cons r' rs =>
        obtain ⟨rfl, htail⟩ := List.cons_prefix_cons.mp hprefix
        rw [List.append_cons]
        exact h.undecided rs htail fun heq => hne (congrArg _ heq)
  · have hverdict := h.verdict
    dsimp only at hverdict ⊢
    rwa [List.append_cons]

/-- A tick that ends with its first result. -/
theorem TickSpec.single {r : ChildResult} (hseen : verdict seen = none)
    (hend : verdict (seen ++ [r]) = some state) (hstate : state ≠ .RUNNING) :
    TickSpec verdict seen ⟨[r], state⟩ := by
  refine TickSpec.cons hseen ⟨fun rs hprefix hne => absurd (List.prefix_nil.mp hprefix) hne, ?_⟩
  dsimp only
  rw [List.append_nil, if_neg hstate, hend]

/-- A tick without results. -/
theorem TickSpec.nil (hseen : verdict seen = none) : TickSpec verdict seen ⟨[], .RUNNING⟩ := by
  refine ⟨fun rs hprefix hne => absurd (List.prefix_nil.mp hprefix) hne, ?_⟩
  dsimp only
  rw [List.append_nil, if_pos rfl, hseen]

/-! ## One tick -/

/-- The variables of the node after the results of a run. -/
structure Counts (size : Nat) (results : List ChildResult) (data : NodeData) : Prop where
  success : data.successCount = successes results
  failure : data.failureCount = failures results
  length : data.childrenDone.length = size
  done : ∀ j < size, data.childrenDone[j]? = some true ↔ Done results j

variable {env : Environment} {t : Nat} {ts : List BehaviorNode} {ms rest : List Methods} {path : Path}
  {w w' w₁ : World}

/-- One flag more is set. -/
theorem Counts.set_done (h : Counts size results (w.node path)) (hindex : index < size)
    (hstate : state = .SUCCESS ∨ state = .FAILURE) {j : Nat} (hj : j < size) :
    ((w.node path).childrenDone.set index true)[j]? = some true ↔
      Done (results ++ [(index, state)]) j := by
  rw [done_append, done_singleton]
  by_cases hsame : index = j
  · subst hsame
    rw [List.getElem?_set_self (h.length.symm ▸ hindex)]
    exact iff_of_true rfl (Or.inr ⟨rfl, hstate⟩)
  · rw [List.getElem?_set_ne hsame, h.done j hj]
    exact (or_iff_left fun hlast => hsame hlast.1).symm

theorem Counts.countSuccess (h : Counts size results (w.node path)) (hindex : index < size) :
    Counts size (results ++ [(index, .SUCCESS)]) ((countSuccess path index w).node path) := by
  unfold BehaviorNode.countSuccess
  rw [set_self]
  refine ⟨?_, ?_, ?_, fun j hj => h.set_done hindex (Or.inl rfl) hj⟩
  · rw [successes_append, h.success]
    rfl
  · rw [failures_append, h.failure]
    rfl
  · rw [List.length_set]
    exact h.length

theorem Counts.countFailure (h : Counts size results (w.node path)) (hindex : index < size) :
    Counts size (results ++ [(index, .FAILURE)]) ((countFailure path index w).node path) := by
  unfold BehaviorNode.countFailure
  rw [set_self]
  refine ⟨?_, ?_, ?_, fun j hj => h.set_done hindex (Or.inr rfl) hj⟩
  · rw [successes_append, h.success]
    rfl
  · rw [failures_append, h.failure]
    rfl
  · rw [List.length_set]
    exact h.length

/-- A child that has not ended counts for nothing. -/
theorem Counts.append_other {data : NodeData} (h : Counts size results data)
    (hsuccess : state ≠ .SUCCESS) (hfailure : state ≠ .FAILURE) :
    Counts size (results ++ [(index, state)]) data := by
  refine ⟨?_, ?_, h.length, fun j hj => ?_⟩
  · rw [successes_append, h.success]
    simp [successes, hsuccess]
  · rw [failures_append, h.failure]
    simp [failures, hfailure]
  · rw [h.done j hj, done_append, done_singleton]
    exact (or_iff_left fun hlast => hlast.2.elim hsuccess hfailure).symm

/-- Nothing is decided as long as the counts are below their thresholds. -/
theorem counted_eq_none : counted threshold size results = none ↔
    successes results < threshold ∧
      (0 < failures results → failures results + threshold < size) := by
  unfold counted
  split_ifs with hsuccess hfailure
  · exact iff_of_false not_false (by omega)
  · exact iff_of_false not_false (by omega)
  · exact iff_of_true rfl (by omega)

/-- What the loop of a tick does from the child at `index` on, after the results `seen`. -/
structure LoopSpec (path : Path) (ts : List BehaviorNode) (threshold : Nat) (seen : List ChildResult)
    (index : Nat) (state : BehaviorState) (w : World) (results : List ChildResult) : Prop where
  children : Children ts path w
  counts : Counts ts.length (seen ++ results) (w.node path)
  tick : TickSpec (counted threshold ts.length) seen ⟨results, state⟩
  index_le : ∀ r ∈ results, index ≤ r.1
  again : ∀ r ∈ results, ¬Done seen r.1
  distinct : results.Pairwise fun a b => b.1 ≠ a.1

/-- The loop goes on after a result. -/
theorem LoopSpec.cons {returned : BehaviorState} (hseen : counted threshold ts.length seen = none)
    (hnot : ¬Done seen index)
    (h : LoopSpec path ts threshold (seen ++ [(index, returned)]) (index + 1) state w results) :
    LoopSpec path ts threshold seen index state w ((index, returned) :: results) where
  children := h.children
  counts := by
    rw [List.append_cons]
    exact h.counts
  tick := h.tick.cons hseen
  index_le := List.forall_mem_cons.mpr
    ⟨Nat.le_refl index, fun r hr => Nat.le_of_succ_le (h.index_le r hr)⟩
  again := List.forall_mem_cons.mpr
    ⟨hnot, fun r hr hdone => h.again r hr (done_append.mpr (Or.inl hdone))⟩
  distinct := List.pairwise_cons.mpr
    ⟨fun r hr => Nat.ne_of_gt (h.index_le r hr), h.distinct⟩

/-- The loop ends with a result. -/
theorem LoopSpec.stop (hseen : counted threshold ts.length seen = none) (hnot : ¬Done seen index)
    (hchildren : Children ts path w)
    (hcounts : Counts ts.length (seen ++ [(index, state)]) (w.node path))
    (hstate : state ≠ .RUNNING)
    (hend : counted threshold ts.length (seen ++ [(index, state)]) = some state) :
    LoopSpec path ts threshold seen index state w [(index, state)] where
  children := hchildren
  counts := hcounts
  tick := TickSpec.single hseen hend hstate
  index_le := List.forall_mem_singleton.mpr (Nat.le_refl index)
  again := List.forall_mem_singleton.mpr hnot
  distinct := List.pairwise_singleton ..

/-- The loop of `Update`: it runs the children that are not done, and ends with the first result
that decides. -/
theorem tracedParallel_spec (hms : SoundChildren ts path ms) (hrest : ms.drop index = rest)
    (hle : threshold ≤ ts.length) (hsize : ts.length < 2 ^ 64) (hchildren : Children ts path w)
    (hcounts : Counts ts.length seen (w.node path))
    (hseen : counted threshold ts.length seen = none) :
    ∃ state w' results,
      tracedParallel path threshold ms rest index w = some ((state, w'), results) ∧
      LoopSpec path ts threshold seen index state w' results := by
  induction rest generalizing index w seen with
  | nil =>
      refine ⟨.RUNNING, w, [], rfl, hchildren, ?_, TickSpec.nil hseen,
        fun r hr => absurd hr List.not_mem_nil, fun r hr => absurd hr List.not_mem_nil,
        List.Pairwise.nil⟩
      rw [List.append_nil]
      exact hcounts
  | cons m rest ih =>
      obtain ⟨hlt, hrest', c, hc, hsound⟩ := hms.front hrest
      obtain ⟨done, hflag⟩ : ∃ done, (w.node path).childrenDone[index]? = some done :=
        ⟨_, List.getElem?_eq_getElem (hcounts.length.symm ▸ hlt)⟩
      rw [tracedParallel, hflag, Option.bind_some]
      cases done with
      | true =>
          obtain ⟨state, w', results, hloop, hspec⟩ := ih hrest' hchildren hcounts hseen
          exact ⟨state, w', results, hloop, hspec.children, hspec.counts, hspec.tick,
            fun r hr => Nat.le_of_succ_le (hspec.index_le r hr), hspec.again, hspec.distinct⟩
      | false =>
          have hnot : ¬Done seen index := by
            rw [← hcounts.done index hlt, hflag]
            exact fun h => Bool.noConfusion (Option.some.inj h)
          obtain ⟨returned, w₁, hrun, hpost⟩ := hsound.run w (hchildren index c hc)
          have hchildren₁ := hchildren.step hc hpost.inv hpost.frame
          have hcounts₁ : Counts ts.length seen (w₁.node path) := by
            rw [hpost.frame.self]
            exact hcounts
          obtain ⟨hfew, hfailed⟩ := counted_eq_none.mp hseen
          -- the loop goes on after a result that does not decide
          have hnext : ∀ w₂, Children ts path w₂ →
              Counts ts.length (seen ++ [(index, returned)]) (w₂.node path) →
              counted threshold ts.length (seen ++ [(index, returned)]) = none →
              ∃ state w' results,
                record (index, returned) (tracedParallel path threshold ms rest (index + 1) w₂) =
                  some ((state, w'), results) ∧
                LoopSpec path ts threshold seen index state w' results := by
            intro w₂ hchildren₂ hcounts₂ hseen₂
            obtain ⟨state, w', results, hloop, hspec⟩ := ih hrest' hchildren₂ hcounts₂ hseen₂
            exact ⟨state, w', (index, returned) :: results, by rw [hloop]; rfl,
              hspec.cons hseen hnot⟩
          rw [if_pos rfl, hrun, Option.bind_some]
          cases returned with
          | SUCCESS =>
              have hcounts₂ := hcounts₁.countSuccess hlt
              have hsuccess := hcounts₂.success
              rw [successes_append] at hsuccess
              dsimp only
              rw [if_pos rfl]
              by_cases hthreshold :
                  ((countSuccess path index w₁).node path).successCount ≥ threshold
              · rw [if_pos hthreshold]
                refine ⟨_, _, _, rfl, LoopSpec.stop hseen hnot (hchildren₁.set _) hcounts₂ (by simp) ?_⟩
                unfold counted
                rw [successes_append, if_pos (by omega)]
              · rw [if_neg hthreshold]
                refine hnext _ (hchildren₁.set _) hcounts₂ (counted_eq_none.mpr ⟨?_, ?_⟩)
                · rw [successes_append]
                  omega
                · rw [failures_append]
                  exact hfailed
          | FAILURE =>
              have hcounts₂ := hcounts₁.countFailure hlt
              have hfailure := hcounts₂.failure
              have hone : failures [(index, BehaviorState.FAILURE)] = 1 := rfl
              have hnone : successes [(index, BehaviorState.FAILURE)] = 0 := rfl
              rw [failures_append, hone] at hfailure
              have hwrap : failureThreshold ms.length threshold = ts.length - threshold := by
                unfold failureThreshold
                rw [hms.length]
                omega
              dsimp only
              rw [if_neg (by simp), if_pos rfl]
              by_cases hthreshold : ((countFailure path index w₁).node path).failureCount ≥
                  failureThreshold ms.length threshold
              · rw [if_pos hthreshold]
                refine ⟨_, _, _, rfl, LoopSpec.stop hseen hnot (hchildren₁.set _) hcounts₂ (by simp) ?_⟩
                unfold counted
                rw [successes_append, failures_append, hnone, hone, if_neg (by omega),
                  if_pos (by omega)]
              · rw [if_neg hthreshold]
                refine hnext _ (hchildren₁.set _) hcounts₂ (counted_eq_none.mpr ⟨?_, ?_⟩)
                · rw [successes_append, hnone]
                  exact hfew
                · rw [failures_append, hone]
                  omega
          | RUNNING | IDLE =>
              refine hnext w₁ hchildren₁ (hcounts₁.append_other (by simp) (by simp))
                (counted_eq_none.mpr ⟨?_, ?_⟩)
              · rw [successes_append]
                exact hfew
              · rw [failures_append]
                exact hfailed

/-- A tick of the node after the results `seen` of its run. -/
theorem tick_spec (hms : SoundChildren ts path ms) (hpos : ms.length ≠ 0) (hle : threshold ≤ ts.length)
    (hsize : ts.length < 2 ^ 64) (hchildren : Children ts path w)
    (hcounts : Counts ts.length seen
      ((if w.Running path then w else parallelOnInitialize path ms w).node path))
    (hseen : counted threshold ts.length seen = none) {parent : Option ParentSelector}
    (hrun : (parallelMethods path threshold ms).run parent w = some (state, w')) :
    TickSpec (counted threshold ts.length) seen ⟨tickResults path threshold ms w, state⟩ ∧
      (∀ r ∈ tickResults path threshold ms w, ¬Done seen r.1) ∧
      ((tickResults path threshold ms w).Pairwise fun a b => b.1 ≠ a.1) ∧
      (state = .RUNNING →
        Counts ts.length (seen ++ tickResults path threshold ms w) (w'.node path)) := by
  have hchildren₀ :
      Children ts path (if w.Running path then w else parallelOnInitialize path ms w) := by
    split
    · exact hchildren
    · exact hchildren.set _
  obtain ⟨returned, w₁, results, hloop, hspec⟩ := tracedParallel_spec hms (List.drop_zero ..) hle
    hsize hchildren₀ hcounts hseen
  have hresults : tickResults path threshold ms w = results := by
    unfold tickResults
    dsimp only
    rw [hloop]
  have hupdate : parallelUpdate path threshold ms
      (if w.Running path then w else parallelOnInitialize path ms w) = some (returned, w₁) := by
    rw [parallelUpdate, if_neg hpos, ← tracedParallel_fst, hloop]
    rfl
  rw [show (parallelMethods path threshold ms).run parent w = _ from run_eq hupdate] at hrun
  have hstate : returned = state ∧ (state = .RUNNING → w' = w₁.setState path .RUNNING) := by
    split_ifs at hrun with hrunning
    · cases hrun
      exact ⟨rfl, fun h => by rw [h]⟩
    · obtain ⟨w₂, -, heq⟩ := Option.map_eq_some_iff.mp hrun
      cases heq
      exact ⟨rfl, fun h => absurd h hrunning⟩
  obtain ⟨rfl, hworld⟩ := hstate
  rw [hresults]
  refine ⟨hspec.tick, hspec.again, hspec.distinct, fun hrunning => ?_⟩
  have hcounts' := hspec.counts
  rw [hworld hrunning, World.setState, set_self]
  exact ⟨hcounts'.success, hcounts'.failure, hcounts'.length, hcounts'.done⟩

/-! ## Runs -/

section Runs

variable (env) (t) (ts) (path)

/-- The states in which the node at `path` may be found, whatever the rest of the tree does. -/
inductive Reached : World → Prop
  | new : Reached World.new
  | elsewhere {w w' : World} : Reached w → (∀ q, path <:+ q → w'.node q = w.node q) → Reached w'
  | run {w w' : World} {parent : Option ParentSelector} {state : BehaviorState} : Reached w →
      (methods env (.parallel t ts) path).run parent w = some (state, w') → Reached w'
  | reset {w w' : World} : Reached w → (methods env (.parallel t ts) path).reset w = some w' →
      Reached w'

/-- The ticks of a run up to now, and what the last one has returned. -/
inductive ParallelRun : List Tick → BehaviorState → World → Prop
  | first {w w' : World} {parent : Option ParentSelector} {state : BehaviorState} :
      Reached env t ts path w → ¬w.Running path →
      (methods env (.parallel t ts) path).run parent w = some (state, w') →
      ParallelRun [⟨tickResults path t (childMethods env ts path 0) w, state⟩] state w'
  | next {ticks : List Tick} {w w₁ w' : World} {parent : Option ParentSelector}
      {state : BehaviorState} :
      ParallelRun ticks .RUNNING w → (∀ q, path <:+ q → w₁.node q = w.node q) →
      (methods env (.parallel t ts) path).run parent w₁ = some (state, w') →
      ParallelRun (ticks ++ [⟨tickResults path t (childMethods env ts path 0) w₁, state⟩]) state w'

end Runs

variable {ticks : List Tick}

/-- A tick of a sound node keeps the invariant. -/
theorem run_inv_parallel (hinv : Inv (.parallel t ts) path w) {parent : Option ParentSelector}
    (hrun : (methods env (.parallel t ts) path).run parent w = some (state, w')) :
    Inv (.parallel t ts) path w' ∧ (w'.node path).behaviorState = state := by
  obtain ⟨state', w₁, hrun', hpost⟩ := (sound_methods env (.parallel t ts) path).run w hinv
  have hsame : (methods env (.parallel t ts) path).run parent w =
      (methods env (.parallel t ts) path).run none w := rfl
  rw [hsame, hrun'] at hrun
  cases hrun
  exact ⟨hpost.inv, hpost.state⟩

theorem Reached.inv (h : Reached env t ts path w) : Inv (.parallel t ts) path w := by
  induction h with
  | new => exact inv_new _ path
  | elsewhere _ hsame ih => exact ih.agree hsame
  | run _ hrun ih => exact (run_inv_parallel ih hrun).1
  | reset _ hreset ih =>
      obtain ⟨w₁, hreset', hpost⟩ := (sound_methods env (.parallel t ts) path).reset _ ih
      rw [hreset'] at hreset
      cases hreset
      exact hpost.inv

@[simp] theorem allResults_append (ticks ticks' : List Tick) :
    allResults (ticks ++ ticks') = allResults ticks ++ allResults ticks' :=
  List.flatMap_append ..

@[simp] theorem allResults_singleton (tick : Tick) : allResults [tick] = tick.results :=
  List.flatMap_singleton ..

/-- One tick more. -/
theorem Decides.concat {tick : Tick} (h : Decides verdict ticks)
    (htick : TickSpec verdict (allResults ticks) tick) : Decides verdict (ticks ++ [tick]) := by
  intro before tick' after heq
  rcases List.eq_nil_or_concat after with rfl | ⟨after, last, rfl⟩
  · obtain ⟨rfl, hlast⟩ := List.append_inj' heq rfl
    cases hlast
    exact htick
  · have hsame : ticks ++ [tick] = (before ++ tick' :: after) ++ [last] := by
      rw [heq]
      simp
    exact h before tick' after (List.append_inj_left' hsame rfl)

/-- A tick whose children have not ended before and are different. -/
theorem NoneAgain.append (h : NoneAgain seen) (hagain : ∀ r ∈ results, ¬Done seen r.1)
    (hdistinct : results.Pairwise fun a b => b.1 ≠ a.1) : NoneAgain (seen ++ results) := by
  refine List.pairwise_append.mpr ⟨h, ?_, fun a ha b hb hdone hsame => ?_⟩
  · exact hdistinct.imp fun {a b} (hne : b.1 ≠ a.1) (_ : a.2 = .SUCCESS ∨ a.2 = .FAILURE) => hne
  · exact hagain b hb ⟨a, ha, hsame.symm, hdone⟩

/-- What holds of a run after each of its ticks. -/
structure RunInv (t : Nat) (ts : List BehaviorNode) (path : Path) (ticks : List Tick)
    (state : BehaviorState) (w : World) : Prop where
  inv : Inv (.parallel t ts) path w
  returned : (w.node path).behaviorState = state
  decides : Decides (counted t ts.length) ticks
  again : NoneAgain (allResults ticks)
  last : ∃ before tick, ticks = before ++ [tick] ∧ tick.state = state ∧
    ∀ tick' ∈ before, tick'.state = .RUNNING
  counts : state = .RUNNING → Counts ts.length (allResults ticks) (w.node path)

/-- One tick more, from a world in which the counts are those of the results before. -/
theorem RunInv.tick (ticks : List Tick) (hpos : 1 ≤ t) (hle : t ≤ ts.length) (hsize : ts.length < 2 ^ 64)
    (hinv : Inv (.parallel t ts) path w) (hdecides : Decides (counted t ts.length) ticks)
    (hagain : NoneAgain (allResults ticks)) (hrunning : ∀ tick ∈ ticks, tick.state = .RUNNING)
    (hseen : counted t ts.length (allResults ticks) = none)
    (hcounts : Counts ts.length (allResults ticks) ((if w.Running path then w else
      parallelOnInitialize path (childMethods env ts path 0) w).node path))
    {parent : Option ParentSelector}
    (hrun : (methods env (.parallel t ts) path).run parent w = some (state, w')) :
    RunInv t ts path (ticks ++ [⟨tickResults path t (childMethods env ts path 0) w, state⟩]) state
      w' := by
  have hms := sound_childMethods env ts path
  obtain ⟨htick, hdone, hdistinct, hcounts'⟩ := tick_spec hms (by rw [hms.length]; omega) hle hsize
    (inv_parallel.mp hinv).2 hcounts hseen hrun
  obtain ⟨hinv', hstate⟩ := run_inv_parallel hinv hrun
  refine ⟨hinv', hstate, hdecides.concat htick, ?_, ⟨ticks, _, rfl, rfl, hrunning⟩, fun h => ?_⟩
  · rw [allResults_append, allResults_singleton]
    exact hagain.append hdone hdistinct
  · rw [allResults_append, allResults_singleton]
    exact hcounts' h

/-- Every run. -/
theorem ParallelRun.runInv (hpos : 1 ≤ t) (hle : t ≤ ts.length) (hsize : ts.length < 2 ^ 64)
    (h : ParallelRun env t ts path ticks state w) : RunInv t ts path ticks state w := by
  induction h with
  | @first w w' parent state hreached hstopped hrun =>
      refine RunInv.tick [] hpos hle hsize hreached.inv
        (fun before tick after heq => by simp at heq) List.Pairwise.nil
        (fun tick hmem => absurd hmem List.not_mem_nil) (counted_eq_none.mpr ⟨hpos, by simp [allResults, failures]⟩)
        ?_ hrun
      rw [if_neg hstopped]
      unfold parallelOnInitialize
      rw [set_self, length_childMethods]
      refine ⟨rfl, rfl, List.length_replicate, fun j hj => ?_⟩
      dsimp only
      rw [List.getElem?_replicate, if_pos hj]
      simp [Done, allResults]
  | @next ticks w w₁ w' parent state hprev hsame hrun ih =>
      have hself : w₁.node path = w.node path := hsame path (List.suffix_refl path)
      have hrunning : w₁.Running path := by
        rw [World.Running, hself]
        exact ih.returned
      have hticks : ∀ tick ∈ ticks, tick.state = .RUNNING := by
        obtain ⟨before, tick, rfl, hlast, hbefore⟩ := ih.last
        intro tick' hmem
        rcases List.mem_append.mp hmem with hmem | hmem
        · exact hbefore tick' hmem
        · rw [List.mem_singleton.mp hmem]
          exact hlast
      have hseen : counted t ts.length (allResults ticks) = none := by
        obtain ⟨before, tick, rfl, hlast, -⟩ := ih.last
        have hverdict := (ih.decides before tick [] rfl).verdict
        rwa [if_pos hlast, ← allResults_singleton, ← allResults_append] at hverdict
      refine RunInv.tick _ hpos hle hsize (ih.inv.agree hsame) ih.decides ih.again hticks hseen ?_ hrun
      rw [if_pos hrunning, hself]
      exact ih.counts rfl

/-! ## Against the threshold -/

/-- As long as the one failure does not come, the counts decide what they ought to. -/
theorem counted_eq_decided (h : threshold = size ∨ failures results + threshold < size) :
    counted threshold size results = decided threshold size results := by
  unfold counted decided
  split
  · rfl
  · refine if_congr ?_ rfl rfl
    omega

theorem TickSpec.congr {verdict' : List ChildResult → Option BehaviorState} {tick : Tick}
    (h : TickSpec verdict seen tick)
    (hsame : ∀ results, results <+: tick.results →
      verdict (seen ++ results) = verdict' (seen ++ results)) : TickSpec verdict' seen tick where
  undecided results hprefix hne := by
    rw [← hsame results hprefix]
    exact h.undecided results hprefix hne
  verdict := by
    rw [← hsame _ (List.prefix_refl _)]
    exact h.verdict

/-- A result is a success or a failure, not both. -/
theorem successes_add_failures (r : ChildResult) : successes [r] + failures [r] ≤ 1 := by
  obtain ⟨index, state⟩ := r
  cases state <;> simp [successes, failures]

/-- Before the last tick of a run nothing is decided. -/
theorem RunInv.undecided (hpos : 1 ≤ t) {before : List Tick} {tick : Tick}
    (h : RunInv t ts path (before ++ [tick]) state w) :
    counted t ts.length (allResults before) = none := by
  obtain ⟨before', tick', heq, -, hbefore⟩ := h.last
  obtain ⟨rfl, -⟩ := List.append_inj' heq rfl
  rcases List.eq_nil_or_concat before with rfl | ⟨init, last, rfl⟩
  · exact counted_eq_none.mpr ⟨hpos, by simp [allResults, failures]⟩
  · have hverdict := (h.decides init last [tick] (by simp)).verdict
    rw [if_pos (hbefore last (by simp))] at hverdict
    simpa using hverdict

/-- A parallel node with `threshold` of at least one and at most the number of its children, in any
run of ticks: each tick ends with the first result that makes enough children successful or leaves
too few that can still succeed, and returns accordingly, and no child is ticked again after it has
succeeded or failed. This holds exactly when all children have to succeed or, up to now, fewer of
them have failed than need not succeed. -/
theorem parallel_run_iff (env : Environment) (t : Nat) (ts : List BehaviorNode) (path : Path)
    (hpos : 1 ≤ t) (hle : t ≤ ts.length) (hsize : ts.length < 2 ^ 64) {ticks : List Tick}
    {state : BehaviorState} {w : World} (hrun : ParallelRun env t ts path ticks state w) :
    (Decides (decided t ts.length) ticks ∧ NoneAgain (allResults ticks)) ↔
      (t = ts.length ∨ failures (allResults ticks) + t < ts.length) := by
  have hinv := hrun.runInv hpos hle hsize
  constructor
  · rintro ⟨hdecides, -⟩
    by_contra hnot
    push Not at hnot
    obtain ⟨hne, hmany⟩ := hnot
    obtain ⟨before, tick, rfl, -, -⟩ := hinv.last
    have hseen := hinv.undecided hpos
    have hcounted := hinv.decides before tick [] rfl
    have hdecided := hdecides before tick [] rfl
    rw [allResults_append, allResults_singleton] at hmany
    rcases List.eq_nil_or_concat tick.results with hnil | ⟨init, r, hresults⟩
    · -- the failures have come before, and nothing was decided
      rw [hnil, List.append_nil] at hmany
      have hfailed := (counted_eq_none.mp hseen).2
      omega
    · have hinit : counted t ts.length (allResults before ++ init) = none :=
        hcounted.undecided init ⟨[r], by rw [hresults, List.concat_eq_append]⟩ (by simp [hresults])
      obtain ⟨hfew, hfailed⟩ := counted_eq_none.mp hinit
      have hone := successes_add_failures r
      rw [hresults, List.concat_eq_append, ← List.append_assoc, failures_append] at hmany
      -- the last result is the failure that makes the difference
      have hlast : decided t ts.length (allResults before ++ tick.results) = none := by
        unfold decided
        rw [hresults, List.concat_eq_append, ← List.append_assoc, successes_append,
          failures_append, if_neg (by omega), if_neg (by omega)]
      have hsome : counted t ts.length (allResults before ++ tick.results) ≠ none := by
        intro hnone
        have hbelow := (counted_eq_none.mp hnone).2
        rw [hresults, List.concat_eq_append, ← List.append_assoc, failures_append] at hbelow
        omega
      rw [hcounted.verdict, ← hdecided.verdict] at hsome
      exact hsome hlast
  · intro hcondition
    refine ⟨fun before tick after heq => ?_, hinv.again⟩
    refine (hinv.decides before tick after heq).congr fun results hprefix => ?_
    refine counted_eq_decided (hcondition.imp_right fun hfew => ?_)
    have hsub : (allResults before ++ results).Sublist (allResults ticks) := by
      rw [heq, allResults_append]
      unfold allResults
      rw [List.flatMap_cons]
      have hresults := hprefix.sublist
      exact List.Sublist.append (List.Sublist.refl _) (hresults.trans (List.sublist_append_left ..))
    have hcount : failures (allResults before ++ results) ≤ failures (allResults ticks) :=
      hsub.countP_le
    omega

/-- Actions that return a fixed state. -/
def fixedResults (states : List BehaviorState) : Environment where
  update path _ := states.getD (path.headD 0) .RUNNING
  precondition _ _ := false

/-- Both children have to succeed, and do so. -/
theorem parallel_run_iff_both :
    ∃ ticks state w, ParallelRun (fixedResults [.SUCCESS, .SUCCESS]) 2 [.action, .action] [] ticks
      state w ∧ Decides (decided 2 2) ticks ∧ NoneAgain (allResults ticks) := by
  have hrun : ∃ state w', (methods (fixedResults [.SUCCESS, .SUCCESS])
      (.parallel 2 [.action, .action]) []).run none World.new = some (state, w') := ⟨_, _, rfl⟩
  obtain ⟨state, w', hrun⟩ := hrun
  have hfirst := ParallelRun.first Reached.new (by decide) hrun
  exact ⟨_, _, _, hfirst, (parallel_run_iff (fixedResults [.SUCCESS, .SUCCESS]) 2 [.action, .action] []
    (by decide) (by decide) (by decide) hfirst).mpr (Or.inl rfl)⟩

/-- One of two children has to succeed: the node fails with the first child, although the second one
would succeed. -/
theorem first_failure_ends_run :
    ∃ ticks w, ParallelRun (fixedResults [.FAILURE, .SUCCESS]) 1 [.action, .action] [] ticks .FAILURE
      w ∧ allResults ticks = [(0, .FAILURE)] ∧ decided 1 2 (allResults ticks) = none ∧
      ¬Decides (decided 1 2) ticks := by
  have hrun : ∃ w', (methods (fixedResults [.FAILURE, .SUCCESS])
      (.parallel 1 [.action, .action]) []).run none World.new = some (.FAILURE, w') := ⟨_, rfl⟩
  obtain ⟨w', hrun⟩ := hrun
  have hfirst := ParallelRun.first Reached.new (by decide) hrun
  refine ⟨_, w', hfirst, rfl, by decide, fun h => ?_⟩
  have hverdict := (h [] _ [] rfl).verdict
  exact absurd hverdict (by decide)

end RoboRTS.Decision.BehaviorTree
