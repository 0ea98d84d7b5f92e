import RoboRTS.Detection.CVToolbox.Defs

/-!
# Images handed over to the detection

`ImageCallback` tests and writes a buffer state outside the lock, and offers the same image in every
buffer. Where `NextImage` takes a buffer that the callback in progress has not turned to, or the
last one after its state is written (`TakesAhead`), every image is newer than those before and stays
as it is until `ReadComplete` (`run_handedOver`).
-/

namespace RoboRTS.Detection.CVToolbox

variable {bufferSize : Nat} {w w' : CVToolbox} {i j : Nat}

/-- Every image returned is newer than those before, and no buffer was written while the reader held
it. -/
structure HandedOver (w : CVToolbox) : Prop where
  newer : w.returned.Pairwise (· > ·)
  kept : w.overwritten = false

/-- The callback at buffer `i` and step `pc` has not turned to buffer `k`, or it is the last one and
its state is written. -/
def Ahead (bufferSize k : Nat) : Nat × CallbackPc → Prop
  | (i, pc) => i < k ∨ (i = k ∧ (pc = .testState ∨ (pc = .publish ∧ i + 1 = bufferSize)))

instance (k : Nat) : ∀ c : Nat × CallbackPc, Decidable (Ahead bufferSize k c)
  | (_, _) => inferInstanceAs (Decidable (_ ∨ _))

/-- The step condition: `NextImage` takes a buffer that is ahead of the callback in progress. -/
def TakesAhead (bufferSize : Nat) (w : CVToolbox) (e : CVToolboxEvent) : Prop :=
  e = .read → w.reader = .locked →
    ∀ k ∈ w.latestIndex, w.bufferState k = .WRITE → ∀ c ∈ w.callback, Ahead bufferSize k c

instance (w : CVToolbox) (e : CVToolboxEvent) : Decidable (TakesAhead bufferSize w e) :=
  inferInstanceAs (Decidable (_ → _ → ∀ k ∈ w.latestIndex, _ → ∀ c ∈ w.callback, _))

/-! ## The invariant -/

/-- The images that the reader has taken, the last one first. -/
def taken (w : CVToolbox) : List Nat :=
  match w.reader with
  | .read i => w.imageBuffer i :: w.returned
  | _ => w.returned

theorem turnTo_eq_some {k : Nat} {pc : CallbackPc} (h : turnTo bufferSize i = some (k, pc)) :
    i < bufferSize ∧ k = i ∧ pc = .testState := by
  unfold turnTo at h
  by_cases hi : i < bufferSize
  · rw [if_pos hi] at h
    cases h
    exact ⟨hi, rfl, rfl⟩
  · rw [if_neg hi] at h
    cases h

/-- What holds in every state of a run in which the reader takes buffers ahead of the callback. -/
structure HandInv (bufferSize : Nat) (w : CVToolbox) : Prop where
  newer : w.taken.Pairwise (· > ·)
  kept : w.overwritten = false
  latest : ∀ k, w.latestIndex = some k → w.bufferState k = .WRITE → ∀ m ∈ w.taken,
    m < w.imageBuffer k
  held : ∀ k, w.reader.Holds k → w.bufferState k = .READ
  apart : ∀ k pc, w.callback = some (k, pc) → pc = .writeImage ∨ pc = .writeState →
    ¬ w.reader.Holds k
  received : ∀ m ∈ w.taken, m ≤ w.received
  behind : ∀ k pc, w.callback = some (k, pc) → ¬ (pc = .publish ∧ k + 1 = bufferSize) →
    ∀ m ∈ w.taken, m < w.received
  offered : ∀ k, w.callback = some (k, .publish) → w.bufferState k = .WRITE →
    ∀ m ∈ w.taken, m < w.received
  images : ∀ k, w.imageBuffer k ≤ w.received
  older : ∀ i pc, w.callback = some (i, pc) → ∀ k, i < k ∨ (i = k ∧ pc = .testState) →
    w.imageBuffer k < w.received
  written : ∀ k pc, w.callback = some (k, pc) → pc = .writeState ∨ pc = .publish →
    w.imageBuffer k = w.received

theorem HandInv.handedOver (h : HandInv bufferSize w) : w.HandedOver := by
  refine ⟨?_, h.kept⟩
  have hnewer := h.newer
  unfold taken at hnewer
  cases hreader : w.reader with
  | read i =>
      rw [hreader] at hnewer
      exact (List.pairwise_cons.mp hnewer).2
  | idle | locked | holding i =>
      rw [hreader] at hnewer
      exact hnewer

theorem initial_inv : HandInv bufferSize initial where
  newer := List.Pairwise.nil
  kept := rfl
  latest _ h := absurd h (by simp [initial])
  held _ h := by rcases h with h | h <;> cases h
  apart _ _ h := absurd h (by simp [initial])
  received _ h := absurd h List.not_mem_nil
  behind _ _ h := absurd h (by simp [initial])
  offered _ h := absurd h (by simp [initial])
  images _ := Nat.le_refl 0
  older _ _ h := absurd h (by simp [initial])
  written _ _ h := absurd h (by simp [initial])

/-- An image is received. -/
theorem HandInv.receive (h : HandInv bufferSize w) :
    HandInv bufferSize
      { w with received := w.received + 1, callback := turnTo bufferSize 0 } where
  newer := h.newer
  kept := h.kept
  latest := h.latest
  held := h.held
  apart k pc hk hpc := by
    obtain ⟨-, -, rfl⟩ := turnTo_eq_some hk
    rcases hpc with hpc | hpc <;> cases hpc
  received m hm := Nat.le_succ_of_le (h.received m hm)
  behind _ _ _ _ m hm := Nat.lt_succ_of_le (h.received m hm)
  offered k hk := by
    obtain ⟨-, -, hpc⟩ := turnTo_eq_some hk
    cases hpc
  images k := Nat.le_succ_of_le (h.images k)
  older _ _ _ k _ := Nat.lt_succ_of_le (h.images k)
  written k pc hk hpc := by
    obtain ⟨-, -, rfl⟩ := turnTo_eq_some hk
    rcases hpc with hpc | hpc <;> cases hpc

/-- The callback passes over a buffer that is being read, or has published it. -/
theorem HandInv.turnTo {latestIndex : Option Nat} {pc : CallbackPc} (h : HandInv bufferSize w)
    (hcallback : w.callback = some (i, pc))
    (hlatest : ∀ k, latestIndex = some k → w.bufferState k = .WRITE → ∀ m ∈ w.taken,
      m < w.imageBuffer k) :
    HandInv bufferSize
      { w with latestIndex := latestIndex, callback := CVToolbox.turnTo bufferSize (i + 1) } where
  newer := h.newer
  kept := h.kept
  latest := hlatest
  held := h.held
  apart k pc hk hpc := by
    obtain ⟨-, -, rfl⟩ := turnTo_eq_some hk
    rcases hpc with hpc | hpc <;> cases hpc
  received := h.received
  behind k _ hk _ := by
    obtain ⟨hlt, -, -⟩ := turnTo_eq_some hk
    exact h.behind i pc hcallback fun hlast => by omega
  offered k hk := by
    obtain ⟨-, -, hpc⟩ := turnTo_eq_some hk
    cases hpc
  images := h.images
  older k _ hk j hj := by
    obtain ⟨-, rfl, -⟩ := turnTo_eq_some hk
    exact h.older i pc hcallback j (Or.inl (by omega))
  written k pc hk hpc := by
    obtain ⟨-, -, rfl⟩ := turnTo_eq_some hk
    rcases hpc with hpc | hpc <;> cases hpc

/-- The callback has found that buffer `i` is not being read. -/
theorem HandInv.testState (h : HandInv bufferSize w) (hcallback : w.callback = some (i, .testState))
    (hstate : w.bufferState i ≠ .READ) :
    HandInv bufferSize { w with callback := some (i, .writeImage) } where
  newer := h.newer
  kept := h.kept
  latest := h.latest
  held := h.held
  apart k pc hk _ hholds := by
    cases hk
    exact hstate (h.held i hholds)
  received := h.received
  behind _ _ _ _ := h.behind i .testState hcallback fun hlast => CallbackPc.noConfusion hlast.1
  offered k hk := by cases hk
  images := h.images
  older k pc hk j hj := by
    cases hk
    refine h.older i .testState hcallback j (hj.imp_right fun hj => ?_)
    cases hj.2
  written k pc hk hpc := by
    cases hk
    rcases hpc with hpc | hpc <;> cases hpc

/-- Writing an image to a buffer that the reader does not hold leaves what it has taken. -/
theorem taken_writeImage {callback : Option (Nat × CallbackPc)} {overwritten : Bool} {n : Nat}
    (h : ¬ w.reader.Holds i) :
    taken { w with
      imageBuffer := Function.update w.imageBuffer i n
      overwritten := overwritten
      callback := callback } = w.taken := by
  unfold taken
  dsimp only
  cases hreader : w.reader with
  | read j =>
      have hne : j ≠ i := by
        rintro rfl
        exact h (Or.inl hreader)
      dsimp only
      rw [Function.update_of_ne hne]
  | idle | locked | holding j => rfl

/-- The callback writes the image of buffer `i`. -/
theorem HandInv.writeImage (h : HandInv bufferSize w)
    (hcallback : w.callback = some (i, .writeImage)) :
    HandInv bufferSize { w with
      imageBuffer := Function.update w.imageBuffer i w.received
      overwritten := w.overwritten || decide (w.reader.Holds i)
      callback := some (i, .writeState) } := by
  have hholds := h.apart i .writeImage hcallback (Or.inl rfl)
  have hbehind := h.behind i .writeImage hcallback fun hlast => CallbackPc.noConfusion hlast.1
  constructor
  case newer =>
    rw [taken_writeImage hholds]
    exact h.newer
  case kept =>
    show (w.overwritten || decide _) = false
    rw [h.kept, decide_eq_false hholds, Bool.or_false]
  case latest =>
    rw [taken_writeImage hholds]
    intro k hk hstate m hm
    dsimp only
    by_cases hki : k = i
    · subst hki
      rw [Function.update_self]
      exact hbehind m hm
    · rw [Function.update_of_ne hki]
      exact h.latest k hk hstate m hm
  case held => exact h.held
  case apart =>
    intro k pc hk _
    cases hk
    exact hholds
  case received =>
    rw [taken_writeImage hholds]
    exact h.received
  case behind =>
    rw [taken_writeImage hholds]
    exact fun _ _ _ _ => hbehind
  case offered =>
    intro k hk
    cases hk
  case images =>
    intro k
    dsimp only
    by_cases hki : k = i
    · subst hki
      exact Nat.le_of_eq (Function.update_self ..)
    · rw [Function.update_of_ne hki]
      exact h.images k
  case older =>
    intro k pc hk j hj
    cases hk
    have hlt : i < j := by
      rcases hj with hj | ⟨-, hpc⟩
      · exact hj
      · cases hpc
    dsimp only
    rw [Function.update_of_ne (by omega)]
    exact h.older i .writeImage hcallback j (Or.inl hlt)
  case written =>
    intro k pc hk _
    cases hk
    exact Function.update_self ..

/-- The callback writes the state of buffer `i`. -/
theorem HandInv.writeState (h : HandInv bufferSize w)
    (hcallback : w.callback = some (i, .writeState)) :
    HandInv bufferSize { w with
      bufferState := Function.update w.bufferState i .WRITE
      overwritten := w.overwritten || decide (w.reader.Holds i)
      callback := some (i, .publish) } := by
  have hholds := h.apart i .writeState hcallback (Or.inr rfl)
  have hbehind := h.behind i .writeState hcallback fun hlast => CallbackPc.noConfusion hlast.1
  have himage := h.written i .writeState hcallback (Or.inl rfl)
  constructor
  case newer => exact h.newer
  case kept =>
    show (w.overwritten || decide _) = false
    rw [h.kept, decide_eq_false hholds, Bool.or_false]
  case latest =>
    intro k hk hstate m hm
    by_cases hki : k = i
    · subst hki
      show m < w.imageBuffer k
      rw [himage]
      exact hbehind m hm
    · dsimp only at hstate
      rw [Function.update_of_ne hki] at hstate
      exact h.latest k hk hstate m hm
  case held =>
    intro k hk
    have hki : k ≠ i := by
      rintro rfl
      exact hholds hk
    dsimp only
    rw [Function.update_of_ne hki]
    exact h.held k hk
  case apart =>
    intro k pc hk hpc
    cases hk
    rcases hpc with hpc | hpc <;> cases hpc
  case received => exact h.received
  case behind => exact fun _ _ _ _ => hbehind
  case offered => exact fun _ _ _ => hbehind
  case images => exact h.images
  case older =>
    intro k pc hk j hj
    cases hk
    refine h.older i .writeState hcallback j (hj.imp_right fun hj => ?_)
    cases hj.2
  case written =>
    intro k pc hk _
    cases hk
    exact himage

/-- A step of the callback keeps the invariant. -/
theorem HandInv.imageCallback (h : HandInv bufferSize w)
    (hstep : w.imageCallback bufferSize = some w') : HandInv bufferSize w' := by
  unfold CVToolbox.imageCallback at hstep
  cases hcallback : w.callback with
  | none =>
      rw [hcallback] at hstep
      cases hstep
  | some c =>
    obtain ⟨i, pc⟩ := c
    rw [hcallback] at hstep
    cases pc <;> dsimp only at hstep
    case testState =>
      cases hstep
      by_cases hstate : w.bufferState i = .READ
      · rw [if_neg (not_not.mpr hstate)]
        exact h.turnTo hcallback h.latest
      · rw [if_pos hstate]
        exact h.testState hcallback hstate
    case writeImage =>
      cases hstep
      exact h.writeImage hcallback
    case writeState =>
      cases hstep
      exact h.writeState hcallback
    case publish =>
      cases hstep
      refine h.turnTo hcallback fun k hk hstate m hm => ?_
      obtain rfl := Option.some.inj hk
      rw [h.written i .publish hcallback (Or.inr rfl)]
      exact h.offered i hcallback hstate m hm

/-! ## The reader -/

theorem taken_of_not_read (h : ∀ i, w.reader ≠ .read i) : w.taken = w.returned := by
  unfold taken
  cases hreader : w.reader with
  | read i => exact absurd hreader (h i)
  | idle | locked | holding i => rfl

/-- The reader goes on without taking an image. -/
theorem HandInv.setReader {r : Reader} {returned : List Nat} (h : HandInv bufferSize w)
    (htaken : taken { w with reader := r, returned := returned } = w.taken)
    (hholds : ∀ k, r.Holds k → w.reader.Holds k) :
    HandInv bufferSize { w with reader := r, returned := returned } := by
  constructor
  case newer => rw [htaken]; exact h.newer
  case kept => exact h.kept
  case latest => rw [htaken]; exact h.latest
  case held => exact fun k hk => h.held k (hholds k hk)
  case apart => exact fun k pc hk hpc hheld => h.apart k pc hk hpc (hholds k hheld)
  case received => rw [htaken]; exact h.received
  case behind => rw [htaken]; exact h.behind
  case offered => rw [htaken]; exact h.offered
  case images => exact h.images
  case older => exact h.older
  case written => exact h.written

/-- `NextImage` takes a buffer that is ahead of the callback. -/
theorem HandInv.take (h : HandInv bufferSize w) (hreader : w.reader = .locked)
    (hlatest : w.latestIndex = some i) (hstate : w.bufferState i = .WRITE)
    (hahead : ∀ c ∈ w.callback, Ahead bufferSize i c) :
    HandInv bufferSize { w with
      bufferState := Function.update w.bufferState i .READ
      reader := .read i } := by
  have htaken : w.taken = w.returned := taken_of_not_read fun j hj => by
    rw [hreader] at hj
    cases hj
  have hholds : ∀ k, Reader.Holds (.read i) k → k = i := by
    rintro k (hk | hk) <;> cases hk
    rfl
  have hother : ∀ k, Function.update w.bufferState i .READ k = .WRITE →
      k ≠ i ∧ w.bufferState k = .WRITE := by
    intro k hk
    by_cases hki : k = i
    · rw [hki, Function.update_self] at hk
      cases hk
    · rw [Function.update_of_ne hki] at hk
      exact ⟨hki, hk⟩
  constructor
  case newer =>
    refine List.pairwise_cons.mpr ⟨fun m hm => ?_, ?_⟩
    · exact h.latest i hlatest hstate m (by rw [htaken]; exact hm)
    · rw [← htaken]
      exact h.newer
  case kept => exact h.kept
  case latest =>
    intro k hk hwrite
    exact absurd (Option.some.inj (hk.symm.trans hlatest)) (hother k hwrite).1
  case held =>
    intro k hk
    obtain rfl := hholds k hk
    exact Function.update_self ..
  case apart =>
    intro k pc hk hpc hheld
    obtain rfl := hholds k hheld
    rcases hahead (k, pc) hk with hlt | ⟨-, rfl | ⟨rfl, -⟩⟩
    · omega
    · rcases hpc with hpc | hpc <;> cases hpc
    · rcases hpc with hpc | hpc <;> cases hpc
  case received =>
    intro m hm
    rcases List.mem_cons.mp hm with rfl | hold
    · exact h.images i
    · exact h.received m (by rw [htaken]; exact hold)
  case behind =>
    intro k pc hk hlast m hm
    rcases List.mem_cons.mp hm with rfl | hold
    · rcases hahead (k, pc) hk with hlt | ⟨rfl, rfl | ⟨rfl, heq⟩⟩
      · exact h.older k pc hk i (Or.inl hlt)
      · exact h.older k .testState hk k (Or.inr ⟨rfl, rfl⟩)
      · exact absurd ⟨rfl, heq⟩ hlast
    · exact h.behind k pc hk hlast m (by rw [htaken]; exact hold)
  case offered =>
    intro k hk hwrite m hm
    obtain ⟨hne, hwrite⟩ := hother k hwrite
    rcases List.mem_cons.mp hm with rfl | hold
    · rcases hahead (k, .publish) hk with hlt | ⟨rfl, -⟩
      · exact h.older k .publish hk i (Or.inl hlt)
      · exact absurd rfl hne
    · exact h.offered k hk hwrite m (by rw [htaken]; exact hold)
  case images => exact h.images
  case older => exact h.older
  case written => exact h.written

/-- `ReadComplete` gives a buffer back. -/
theorem HandInv.readComplete (h : HandInv bufferSize w) (hreader : w.reader = .holding i) :
    HandInv bufferSize
      { w with bufferState := Function.update w.bufferState i .IDLE, reader := .idle } := by
  have htaken : w.taken = w.returned := taken_of_not_read fun j hj => by
    rw [hreader] at hj
    cases hj
  have hother : ∀ k, Function.update w.bufferState i .IDLE k = .WRITE →
      w.bufferState k = .WRITE := by
    intro k hk
    by_cases hki : k = i
    · rw [hki, Function.update_self] at hk
      cases hk
    · rw [Function.update_of_ne hki] at hk
      exact hk
  have hfree : ∀ k, ¬ Reader.Holds .idle k := by
    rintro k (hk | hk) <;> cases hk
  constructor
  case newer => rw [← htaken]; exact h.newer
  case kept => exact h.kept
  case latest =>
    intro k hk hwrite m hm
    exact h.latest k hk (hother k hwrite) m (by rw [htaken]; exact hm)
  case held => exact fun k hk => absurd hk (hfree k)
  case apart => exact fun k _ _ _ => hfree k
  case received => rw [← htaken]; exact h.received
  case behind => rw [← htaken]; exact h.behind
  case offered =>
    intro k hk hwrite m hm
    exact h.offered k hk (hother k hwrite) m (by rw [htaken]; exact hm)
  case images => exact h.images
  case older => exact h.older
  case written => exact h.written

/-- A step of the reader that takes no buffer behind the callback keeps the invariant. -/
theorem HandInv.read (h : HandInv bufferSize w) (hahead : TakesAhead bufferSize w .read)
    (hstep : w.read = some w') : HandInv bufferSize w' := by
  have hfree : ∀ r : Reader, (r = .idle ∨ r = .locked) → ∀ k, ¬ r.Holds k := by
    rintro r (rfl | rfl) k (hk | hk) <;> cases hk
  unfold CVToolbox.read at hstep
  cases hreader : w.reader with
  | idle =>
      rw [hreader] at hstep
      cases hstep
      by_cases hlatest : w.latestIndex = none
      · rw [if_pos hlatest]
        refine h.setReader ?_ fun k hk => absurd hk (hfree _ (Or.inl rfl) k)
        rw [taken, taken, hreader]
      · rw [if_neg hlatest]
        refine h.setReader ?_ fun k hk => absurd hk (hfree _ (Or.inr rfl) k)
        rw [taken, taken, hreader]
  | locked =>
      rw [hreader] at hstep
      cases hlatest : w.latestIndex with
      | none =>
          rw [hlatest] at hstep
          cases hstep
      | some i =>
          rw [hlatest] at hstep
          dsimp only at hstep
          by_cases hstate : w.bufferState i = .WRITE
          · rw [if_pos hstate] at hstep
            cases hstep
            rw [← hlatest]
            exact h.take hreader hlatest hstate (hahead rfl hreader i hlatest hstate)
          · rw [if_neg hstate] at hstep
            cases hstep
            rw [← hlatest]
            refine h.setReader ?_ fun k hk => absurd hk (hfree _ (Or.inl rfl) k)
            rw [taken, taken, hreader]
  | read i =>
      rw [hreader] at hstep
      cases hstep
      refine h.setReader ?_ ?_
      · rw [taken, taken, hreader]
      · rintro k (hk | hk) <;> cases hk
        rw [hreader]
        exact Or.inl rfl
  | holding i =>
      rw [hreader] at hstep
      cases hstep
      exact h.readComplete hreader

/-! ## Runs -/

/-- A step that takes no buffer behind the callback keeps the invariant. -/
theorem HandInv.step {e : CVToolboxEvent} (h : HandInv bufferSize w)
    (hahead : TakesAhead bufferSize w e) (hstep : w.step bufferSize e = some w') :
    HandInv bufferSize w' := by
  cases e with
  | receive =>
      unfold CVToolbox.step at hstep
      by_cases hcallback : w.callback = none
      · rw [if_pos hcallback] at hstep
        cases hstep
        exact h.receive
      · rw [if_neg hcallback] at hstep
        cases hstep
  | imageCallback => exact h.imageCallback hstep
  | read => exact h.read hahead hstep

/-- In every run in which the reader takes buffers ahead of the callback, each image is newer than
those before and is left alone while it is read. -/
theorem run_handedOver {bufferSize : Nat} {events : List CVToolboxEvent}
    (hahead : StateMachine.Along (step bufferSize) (TakesAhead bufferSize) initial events)
    (hrun : StateMachine.run (step bufferSize) initial events = some w) : w.HandedOver :=
  (StateMachine.run_invariant_of (fun _ _ _ h hok hstep => h.step hok hstep) initial_inv hahead
    hrun).handedOver

/-- Two images and two reads, the second one during a callback. -/
theorem run_handedOver_twice : ∃ w, StateMachine.run (step 2) initial
      (.receive :: List.replicate 8 .imageCallback ++ [.receive, .read, .read, .read] ++
        List.replicate 5 .imageCallback ++ List.replicate 4 .read) = some w ∧ w.HandedOver := by
  obtain ⟨w, hrun, -⟩ := Option.map_eq_some_iff.mp
    (show (StateMachine.run (step 2) initial
      (.receive :: List.replicate 8 .imageCallback ++ [.receive, .read, .read, .read] ++
        List.replicate 5 .imageCallback ++ List.replicate 4 .read)).map (·.returned) =
      some [2, 1] by decide +kernel)
  exact ⟨w, hrun, run_handedOver (by decide +kernel) hrun⟩

/-- The reader takes the first buffer, and then the second one, with the same image. -/
theorem run_returns_twice :
    ¬ ∀ (bufferSize : Nat) (events : List CVToolboxEvent) (w : CVToolbox), 2 ≤ bufferSize →
      StateMachine.run (step bufferSize) initial events = some w → w.HandedOver := by
  intro hall
  obtain ⟨w, hrun, hreturned⟩ := Option.map_eq_some_iff.mp
    (show (StateMachine.run (step 2) initial
      (.receive :: List.replicate 4 .imageCallback ++ List.replicate 4 .read ++
        List.replicate 4 .imageCallback ++ List.replicate 3 .read)).map (·.returned) =
      some [1, 1] by decide +kernel)
  have hnewer := (hall 2 _ w (Nat.le_refl 2) hrun).newer
  rw [hreturned] at hnewer
  exact absurd hnewer (by decide)

end RoboRTS.Detection.CVToolbox
