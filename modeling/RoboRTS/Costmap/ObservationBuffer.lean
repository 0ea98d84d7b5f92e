import RoboRTS.Costmap.CostmapLayers.Defs
import RoboRTS.Lib.Literals
import RoboRTS.Lib.PrunedLog
import RoboRTS.Lib.StateMachine
import Mathlib.Data.Int.ConditionallyCompleteOrder

/-!
# The observations of the obstacle layer

`ObservationBuffer` keeps the clouds of a sensor, the newest first. It drops the old ones when a
cloud comes in and when the observations are read. The obstacle layer reads the buffer in every
`UpdateBounds`: once for the obstacles to mark and then, if it is current, for those to clear.

Clocks and durations count nanoseconds, stamps of clouds microseconds. What the transform buffer
answers is a parameter of a call. A cloud with a stamp that `rclcpp::Time` does not hold, which
throws, gives `none`.
-/

namespace RoboRTS.Costmap

/-- `pclStampToBuiltin`: seconds and nanoseconds. -/
def pclStampToBuiltin (stampUsec : UInt64) : Int32 × UInt32 :=
  ((stampUsec / 1000000).toInt64.toInt32, (stampUsec % 1000000 * 1000).toUInt32)

/-- The nanoseconds of a `rclcpp::Time`, whose constructor throws on negative seconds. -/
def rclcppTime (msg : Int32 × UInt32) : Option Int :=
  if msg.1 < 0 then none else some (msg.1.toInt * 1000000000 + msg.2.toNat)

/-- What the transforms make of a cloud: the position of the sensor, and the cloud with the stamp
and the frame of its header. -/
structure TransformedCloud where
  originX : Rat
  originY : Rat
  originZ : Rat
  cloud : List (Rat × Rat × Rat)
  stamp : UInt64
  frameId : String

/-- An observation with the header of its cloud. -/
structure BufferedObservation extends Observation where
  stamp : UInt64
  frameId : String

/-- A transform to another global frame, of positions and of the points of clouds. -/
structure FrameChange where
  position : Rat × Rat × Rat → Rat × Rat × Rat
  point : Rat × Rat × Rat → Rat × Rat × Rat

/-- The parameters of the buffer, and what the obstacle layer reads it for. -/
structure ObservationParameters where
  observationKeepTime : Int
  expectedUpdateRate : Int
  obstacleRange : Rat
  raytraceRange : Rat
  marking : Bool
  clearing : Bool

/-- The members of `ObservationBuffer` that change. -/
structure ObservationBuffer where
  lastUpdated : Int
  globalFrame : String
  observationList : List BufferedObservation

/-- What `UpdateBounds` reads from the buffer. -/
structure Observations where
  marking : List BufferedObservation
  clearing : List BufferedObservation
  isCurrent : Bool

namespace ObservationBuffer

variable (params : ObservationParameters) (b : ObservationBuffer)

/-- The loop of `PurgeStaleObservations`. -/
def keepFresh : List BufferedObservation → Option (List BufferedObservation)
  | [] => some []
  | obs :: rest => do
      let cloudStamp ← rclcppTime (pclStampToBuiltin obs.stamp)
      if b.lastUpdated - cloudStamp > params.observationKeepTime then some []
      else
        let rest ← keepFresh rest
        some (obs :: rest)

/-- `PurgeStaleObservations`. -/
def purgeStaleObservations : Option ObservationBuffer :=
  if params.observationKeepTime = 0 then
    some { b with observationList := b.observationList.take 1 }
  else (b.keepFresh params b.observationList).map fun l => { b with observationList := l }

/-- The observation of a cloud in the global frame. -/
def observationOf (t : TransformedCloud) : BufferedObservation where
  originX := t.originX
  originY := t.originY
  originZ := t.originZ
  cloud := t.cloud
  obstacleRange := params.obstacleRange
  raytraceRange := params.raytraceRange
  stamp := t.stamp
  frameId := t.frameId

/-- `BufferCloud` for a cloud with a stamp. Without a transform the new front is popped again. -/
def bufferCloud (stamp : UInt64) (transformed : Option TransformedCloud) (now : Int) :
    Option ObservationBuffer := do
  let _ ← rclcppTime (pclStampToBuiltin stamp)
  match transformed with
  | none => some b
  | some t =>
      let front := observationOf params t
      let b := { b with lastUpdated := now, observationList := front :: b.observationList }
      b.purgeStaleObservations params

/-- `GetObservations`. -/
def getObservations : Option (ObservationBuffer × List BufferedObservation) :=
  (b.purgeStaleObservations params).map fun b => (b, b.observationList)

/-- `IsCurrent`. -/
def isCurrent (now : Int) : Bool :=
  params.expectedUpdateRate = 0 ∨ now - b.lastUpdated ≤ params.expectedUpdateRate

/-- `ResetLastUpdated`. -/
def resetLastUpdated (now : Int) : ObservationBuffer :=
  { b with lastUpdated := now }

/-- An observation in a new global frame. -/
def changeFrame (frame : String) (change : FrameChange) (obs : BufferedObservation) :
    BufferedObservation :=
  let origin := change.position (obs.originX, obs.originY, obs.originZ)
  { obs with
    originX := origin.1
    originY := origin.2.1
    originZ := origin.2.2
    cloud := obs.cloud.map change.point
    frameId := frame }

/-- `SetGlobalFrame`. -/
def setGlobalFrame (frame : String) (change : Option FrameChange) : ObservationBuffer :=
  match change with
  | none => b
  | some change =>
      { b with
        globalFrame := frame
        observationList := b.observationList.map (changeFrame frame change) }

/-- `GetMarkingObservations` and `GetClearingObservations`: the observations of the buffer, if the
layer uses it for that, and whether it is current. -/
def observationsFor (uses : Bool) (now : Int) :
    Option (ObservationBuffer × List BufferedObservation × Bool) :=
  if uses then
    (b.getObservations params).map fun (b, observations) =>
      (b, observations, b.isCurrent params now)
  else some (b, [], true)

/-- The observations that `ObstacleLayer::UpdateBounds` reads, at two readings of the clock. -/
def updateBounds (markingNow clearingNow : Int) : Option (ObservationBuffer × Observations) := do
  let (b, observations, tempIsCurrent) ← b.observationsFor params params.marking markingNow
  if tempIsCurrent then
    let (b, clearingObservations, tempIsCurrent) ←
      b.observationsFor params params.clearing clearingNow
    some (b, ⟨observations, clearingObservations, tempIsCurrent⟩)
  else some (b, ⟨observations, [], false⟩)

/-! ## Runs -/

/-- The calls of a buffer, with what the clock and the transform buffer answer. -/
inductive Call where
  | bufferCloud (stamp : UInt64) (transformed : Option TransformedCloud) (now : Int)
  | setGlobalFrame (frame : String) (change : Option FrameChange)
  | resetLastUpdated (now : Int)
  | updateBounds (markingNow clearingNow : Int)

/-- One call. -/
def call (b : ObservationBuffer) : Call → Option ObservationBuffer
  | .bufferCloud stamp transformed now => b.bufferCloud params stamp transformed now
  | .setGlobalFrame frame change => some (b.setGlobalFrame frame change)
  | .resetLastUpdated now => some (b.resetLastUpdated now)
  | .updateBounds markingNow clearingNow =>
      (b.updateBounds params markingNow clearingNow).map Prod.fst

/-- A new buffer. -/
def start (now : Int) (globalFrame : String) : ObservationBuffer where
  lastUpdated := now
  globalFrame := globalFrame
  observationList := []

/-! ## The history -/

/-- What a buffer is told: the clouds it has taken, the newest first, all of them. -/
structure History where
  lastUpdated : Int
  globalFrame : String
  accepted : List BufferedObservation

/-- The history behind a call. -/
def History.next (h : History) : Call → History
  | .bufferCloud _ (some t) now =>
      { h with lastUpdated := now, accepted := observationOf params t :: h.accepted }
  | .bufferCloud _ none _ => h
  | .setGlobalFrame frame (some change) =>
      { h with globalFrame := frame, accepted := h.accepted.map (changeFrame frame change) }
  | .setGlobalFrame _ none => h
  | .resetLastUpdated now => { h with lastUpdated := now }
  | .updateBounds _ _ => h

/-- The history of a list of calls. -/
def history (now : Int) (globalFrame : String) (calls : List Call) : History :=
  calls.foldl (History.next params) ⟨now, globalFrame, []⟩

/-- The nanoseconds of a stamp. -/
def timeOf (obs : BufferedObservation) : Int :=
  obs.stamp.toNat * 1000

/-- The observations of a log that are kept at a time: the newest one when the keep time is zero, and
else all up to the first one that is too old. -/
def keep (now : Int) (log : List BufferedObservation) : List BufferedObservation :=
  if params.observationKeepTime = 0 then log.take 1
  else log.takeWhile fun obs => now - timeOf obs ≤ params.observationKeepTime

/-- A stamp whose seconds fit into the message. -/
def Fits (stamp : UInt64) : Prop :=
  stamp.toNat < 2147483648000000

/-- The stamps of a call fit. -/
def Call.StampsFit : Call → Prop
  | .bufferCloud stamp transformed _ => Fits stamp ∧ ∀ t ∈ transformed, Fits t.stamp
  | _ => True

/-- The readings of the clock that a call takes. -/
def Call.readings : Call → List Int
  | .bufferCloud _ _ now => [now]
  | .setGlobalFrame _ _ => []
  | .resetLastUpdated now => [now]
  | .updateBounds markingNow clearingNow => [markingNow, clearingNow]

variable {params b}

theorem toInt_toInt64 {x : UInt64} (h : x.toNat < 2147483648) : x.toInt64.toInt = x.toNat := by
  rw [← Int64.toInt_toBitVec, UInt64.toBitVec_toInt64, BitVec.toInt_eq_toNat_of_lt,
    UInt64.toNat_toBitVec]
  rw [UInt64.toNat_toBitVec]
  omega

/-- A stamp that fits keeps its microseconds. -/
theorem rclcppTime_pclStampToBuiltin {stamp : UInt64} (h : Fits stamp) :
    rclcppTime (pclStampToBuiltin stamp) = some (stamp.toNat * 1000 : Int) := by
  unfold Fits at h
  have hsec : (pclStampToBuiltin stamp).1.toInt = (stamp.toNat / 1000000 : Nat) := by
    have hdiv : (stamp / 1000000).toNat = stamp.toNat / 1000000 := UInt64.toNat_div ..
    rw [pclStampToBuiltin, Int64.toInt_toInt32, toInt_toInt64 (by omega), hdiv,
      Int.bmod_eq_of_le (by omega) (by omega)]
  have hnano : (pclStampToBuiltin stamp).2.toNat = stamp.toNat % 1000000 * 1000 := by
    have hthousand : (1000 : UInt64).toNat = 1000 := rfl
    have hmod : (stamp % 1000000).toNat = stamp.toNat % 1000000 := UInt64.toNat_mod ..
    rw [pclStampToBuiltin, UInt64.toNat_toUInt32, UInt64.toNat_mul, hmod, hthousand]
    omega
  have hnonneg : ¬ (pclStampToBuiltin stamp).1 < 0 := by
    rw [Int32.lt_iff_toInt_lt, hsec, Int32.toInt_zero]
    omega
  rw [rclcppTime, if_neg hnonneg, hsec, hnano, Option.some.injEq]
  omega

theorem keepFresh_eq {l : List BufferedObservation} (h : ∀ obs ∈ l, Fits obs.stamp) :
    b.keepFresh params l =
      some (l.takeWhile fun obs => b.lastUpdated - timeOf obs ≤ params.observationKeepTime) := by
  induction l with
  | nil => rfl
  | cons obs l ih =>
      rw [keepFresh, rclcppTime_pclStampToBuiltin (h obs (List.mem_cons_self ..)),
        ih fun obs' hobs => h obs' (List.mem_cons_of_mem _ hobs), List.takeWhile_cons]
      dsimp only [Option.bind_eq_bind, Option.bind_some]
      by_cases hold : b.lastUpdated - (obs.stamp.toNat * 1000 : Int) > params.observationKeepTime
      · rw [if_pos hold, if_neg]
        rw [decide_eq_true_iff]
        exact Int.not_le.mpr hold
      · rw [if_neg hold, if_pos]
        rw [decide_eq_true_iff]
        exact Int.not_lt.mp hold

/-- Purging keeps what the time of the last update allows. -/
theorem purgeStaleObservations_eq (h : ∀ obs ∈ b.observationList, Fits obs.stamp) :
    b.purgeStaleObservations params =
      some { b with observationList := keep params b.lastUpdated b.observationList } := by
  unfold purgeStaleObservations keep
  by_cases hzero : params.observationKeepTime = 0
  · rw [if_pos hzero, if_pos hzero]
  · rw [if_neg hzero, if_neg hzero, keepFresh_eq h, Option.map_some]

/-! ## The buffer and its history -/

theorem keep_lawful : PrunedLog.Lawful (keep params) := by
  by_cases hzero : params.observationKeepTime = 0
  · have hkeep : keep params = fun _ log => log.take 1 := by
      funext now log
      rw [keep, if_pos hzero]
    rw [hkeep]
    exact PrunedLog.lawful_take 0
  · have hkeep : keep params = fun now log =>
        log.takeWhile fun obs => now - timeOf obs ≤ params.observationKeepTime := by
      funext now log
      rw [keep, if_neg hzero]
    rw [hkeep]
    refine PrunedLog.lawful_takeWhile fun hle hfresh => ?_
    rw [decide_eq_true_iff] at hfresh ⊢
    exact (Int.sub_le_sub_right hle _).trans hfresh

/-- The cuts only look at the stamps. -/
theorem keep_map {f : BufferedObservation → BufferedObservation}
    (hf : ∀ obs, (f obs).stamp = obs.stamp) (now : Int) (log : List BufferedObservation) :
    keep params now (log.map f) = (keep params now log).map f := by
  have htime : ∀ obs, timeOf (f obs) = timeOf obs := fun obs => by rw [timeOf, timeOf, hf]
  unfold keep
  split
  · rw [List.map_take]
  · simp only [List.takeWhile_map, Function.comp_def, htime]

/-- The observations that an `UpdateBounds` behind a history reads. The clearing ones are only read
when the buffer is current, or not used for marking. -/
def History.observations (params : ObservationParameters) (h : History)
    (markingNow clearingNow : Int) : Observations :=
  let recent := keep params h.lastUpdated h.accepted
  let current (now : Int) : Prop :=
    params.expectedUpdateRate = 0 ∨ now - h.lastUpdated ≤ params.expectedUpdateRate
  { marking := if params.marking then recent else []
    clearing :=
      if params.clearing ∧ (params.marking → current markingNow) then recent else []
    isCurrent := (params.marking → current markingNow) ∧
      (params.clearing → current clearingNow) }

/-- From now on the buffer looks as if it had dropped nothing. -/
structure Tracks (params : ObservationParameters) (b : ObservationBuffer) (h : History) : Prop where
  lastUpdated : b.lastUpdated = h.lastUpdated
  globalFrame : b.globalFrame = h.globalFrame
  agrees : PrunedLog.Agrees (keep params) h.lastUpdated b.observationList h.accepted
  fits : ∀ obs ∈ b.observationList, Fits obs.stamp

variable {h : History}

theorem mem_of_mem_keep {now : Int} {log : List BufferedObservation} {obs : BufferedObservation}
    (hmem : obs ∈ keep params now log) : obs ∈ log := by
  unfold keep at hmem
  split at hmem
  · exact List.mem_of_mem_take hmem
  · exact (List.takeWhile_sublist _).mem hmem

/-- A purge leaves what the history allows. -/
theorem Tracks.purgeStaleObservations (hb : Tracks params b h) :
    ∃ b', b.purgeStaleObservations params = some b' ∧ Tracks params b' h ∧
      b'.observationList = keep params h.lastUpdated h.accepted := by
  have hkeep : keep params b.lastUpdated b.observationList =
      keep params h.lastUpdated h.accepted := by
    rw [hb.lastUpdated]
    exact hb.agrees _ (le_refl _)
  refine ⟨_, purgeStaleObservations_eq hb.fits, ⟨hb.lastUpdated, hb.globalFrame, ?_, ?_⟩, hkeep⟩
  · rw [hb.lastUpdated]
    exact hb.agrees.cut_left keep_lawful
  · exact fun obs hmem => hb.fits obs (mem_of_mem_keep hmem)

/-- `BufferCloud` adds the cloud to the history. -/
theorem Tracks.bufferCloud (hb : Tracks params b h) {stamp : UInt64} (hstamp : Fits stamp)
    {t : TransformedCloud} (ht : Fits t.stamp) {now : Int} (hnow : h.lastUpdated ≤ now) :
    ∃ b', b.bufferCloud params stamp (some t) now = some b' ∧
      Tracks params b' (h.next params (.bufferCloud stamp (some t) now)) := by
  have hfront : Tracks params
      { b with lastUpdated := now, observationList := observationOf params t :: b.observationList }
      (h.next params (.bufferCloud stamp (some t) now)) := by
    refine ⟨rfl, hb.globalFrame, (hb.agrees.mono hnow).cons keep_lawful, fun obs hmem => ?_⟩
    rcases List.mem_cons.mp hmem with rfl | hmem
    · exact ht
    · exact hb.fits obs hmem
  obtain ⟨b', hpurge, hb', -⟩ := hfront.purgeStaleObservations
  refine ⟨b', ?_, hb'⟩
  rw [ObservationBuffer.bufferCloud, rclcppTime_pclStampToBuiltin hstamp]
  exact hpurge

theorem Tracks.setGlobalFrame (hb : Tracks params b h) (frame : String)
    (change : Option FrameChange) :
    Tracks params (b.setGlobalFrame frame change) (h.next params (.setGlobalFrame frame change)) := by
  cases change with
  | none => exact hb
  | some change =>
      refine ⟨hb.lastUpdated, rfl, hb.agrees.map (keep_map (f := changeFrame frame change) fun _ => rfl),
        fun obs hmem => ?_⟩
      obtain ⟨obs', hmem', rfl⟩ := List.mem_map.mp hmem
      exact hb.fits obs' hmem'

/-- One reading of the observations. -/
theorem Tracks.observationsFor (hb : Tracks params b h) (uses : Bool) (now : Int) :
    ∃ b', b.observationsFor params uses now = some (b',
        if uses then keep params h.lastUpdated h.accepted else [],
        decide (uses → params.expectedUpdateRate = 0 ∨
          now - h.lastUpdated ≤ params.expectedUpdateRate)) ∧
      Tracks params b' h := by
  cases uses with
  | false => exact ⟨b, rfl, hb⟩
  | true =>
      obtain ⟨b', hpurge, hb', hlist⟩ := hb.purgeStaleObservations
      refine ⟨b', ?_, hb'⟩
      rw [ObservationBuffer.observationsFor, if_pos rfl, getObservations, hpurge, Option.map_some,
        Option.map_some]
      dsimp only
      unfold isCurrent
      rw [hlist, hb'.lastUpdated]
      simp

/-- An `UpdateBounds` reads what the history says. -/
theorem Tracks.updateBounds (hb : Tracks params b h) (markingNow clearingNow : Int) :
    ∃ b', b.updateBounds params markingNow clearingNow =
        some (b', h.observations params markingNow clearingNow) ∧ Tracks params b' h := by
  obtain ⟨b₁, hmarking, hb₁⟩ := hb.observationsFor params.marking markingNow
  rw [ObservationBuffer.updateBounds, hmarking]
  dsimp only [Option.bind_eq_bind, Option.bind_some]
  by_cases hcurrent : params.marking → params.expectedUpdateRate = 0 ∨
      markingNow - h.lastUpdated ≤ params.expectedUpdateRate
  · obtain ⟨b₂, hclearing, hb₂⟩ := hb₁.observationsFor params.clearing clearingNow
    refine ⟨b₂, ?_, hb₂⟩
    rw [if_pos (decide_eq_true hcurrent), hclearing]
    simp only [Option.bind_some, History.observations, and_iff_left hcurrent,
      and_iff_right hcurrent]
  · refine ⟨b₁, ?_, hb₁⟩
    rw [if_neg fun hdecide => hcurrent (of_decide_eq_true hdecide)]
    dsimp only [History.observations]
    rw [if_neg fun hread : params.clearing = true ∧ _ => hcurrent hread.2,
      decide_eq_false fun hboth => hcurrent hboth.1]

/-- A call of a buffer adds to the history what it is told. -/
theorem Tracks.call (hb : Tracks params b h) (c : Call) (hfits : c.StampsFit)
    (hclock : ∀ now ∈ c.readings, h.lastUpdated ≤ now) :
    ∃ b', b.call params c = some b' ∧ Tracks params b' (h.next params c) := by
  cases c with
  | bufferCloud stamp transformed now =>
      cases transformed with
      | none =>
          refine ⟨b, ?_, hb⟩
          rw [ObservationBuffer.call, ObservationBuffer.bufferCloud,
            rclcppTime_pclStampToBuiltin hfits.1]
          rfl
      | some t =>
          exact hb.bufferCloud hfits.1 (hfits.2 t rfl) (hclock now (List.mem_singleton_self now))
  | setGlobalFrame frame change => exact ⟨_, rfl, hb.setGlobalFrame frame change⟩
  | resetLastUpdated now =>
      exact ⟨_, rfl, rfl, hb.globalFrame,
        hb.agrees.mono (hclock now (List.mem_singleton_self now)), hb.fits⟩
  | updateBounds markingNow clearingNow =>
      obtain ⟨b', hread, hb'⟩ := hb.updateBounds markingNow clearingNow
      refine ⟨b', ?_, hb'⟩
      rw [ObservationBuffer.call, hread]
      rfl

variable (params h) in
/-- The time of the last update is a reading of the clock. -/
theorem lastUpdated_next (c : Call) :
    (h.next params c).lastUpdated = h.lastUpdated ∨
      (h.next params c).lastUpdated ∈ c.readings := by
  cases c with
  | bufferCloud stamp transformed now =>
      cases transformed with
      | none => exact Or.inl rfl
      | some t => exact Or.inr (List.mem_singleton_self now)
  | setGlobalFrame frame change => cases change <;> exact Or.inl rfl
  | resetLastUpdated now => exact Or.inr (List.mem_singleton_self now)
  | updateBounds markingNow clearingNow => exact Or.inl rfl

/-- A run of a buffer, under a clock that does not go back. -/
theorem Tracks.run (calls : List Call) : ∀ {b : ObservationBuffer} {h : History},
    Tracks params b h → (h.lastUpdated :: calls.flatMap Call.readings).Pairwise (· ≤ ·) →
    (∀ c ∈ calls, c.StampsFit) →
    ∃ b', StateMachine.run (ObservationBuffer.call params) b calls = some b' ∧
      Tracks params b' (calls.foldl (History.next params) h) := by
  induction calls with
  | nil => exact fun hb _ _ => ⟨_, rfl, hb⟩
  | cons c calls ih =>
      intro b h hb hclock hfits
      rw [List.flatMap_cons, List.pairwise_cons, List.pairwise_append] at hclock
      obtain ⟨hle, -, hrest, hcross⟩ := hclock
      obtain ⟨b₁, hcall, hb₁⟩ := hb.call c (hfits c (List.mem_cons_self ..))
        fun now hmem => hle now (List.mem_append_left _ hmem)
      have hlater : ∀ now ∈ calls.flatMap Call.readings,
          (h.next params c).lastUpdated ≤ now := by
        intro now hmem
        rcases lastUpdated_next params h c with heq | hreading
        · rw [heq]
          exact hle now (List.mem_append_right _ hmem)
        · exact hcross _ hreading now hmem
      obtain ⟨b', hrun, hb'⟩ := ih hb₁ (List.pairwise_cons.mpr ⟨hlater, hrest⟩)
        fun c' hc' => hfits c' (List.mem_cons_of_mem _ hc')
      refine ⟨b', ?_, hb'⟩
      rw [StateMachine.run_cons, hcall]
      exact hrun

/-- Under a clock that does not go back, and with stamps that fit into a message, no call of a buffer
throws, and what the obstacle layer reads is what the history of all clouds says: those up to the
first one that was too old at the last update, or the newest one when the keep time is zero. When the
clouds come in the order of their stamps these are all clouds that are young enough. -/
theorem run_updateBounds (params : ObservationParameters) (now : Int) (globalFrame : String)
    (calls : List Call)
    (hclock : (now :: calls.flatMap Call.readings).Pairwise (· ≤ ·))
    (hfits : ∀ c ∈ calls, c.StampsFit) :
    (∃ b, StateMachine.run (ObservationBuffer.call params) (start now globalFrame) calls = some b ∧
      ∀ markingNow clearingNow, ∃ b', b.updateBounds params markingNow clearingNow =
        some (b', (history params now globalFrame calls).observations params markingNow
          clearingNow)) ∧
      (params.observationKeepTime ≠ 0 →
        (history params now globalFrame calls).accepted.Pairwise
          (fun newer older => timeOf older ≤ timeOf newer) →
        keep params (history params now globalFrame calls).lastUpdated
            (history params now globalFrame calls).accepted =
          (history params now globalFrame calls).accepted.filter fun obs =>
            (history params now globalFrame calls).lastUpdated - timeOf obs ≤
              params.observationKeepTime) := by
  have hstart : Tracks params (start now globalFrame) ⟨now, globalFrame, []⟩ :=
    ⟨rfl, rfl, .refl, fun obs hmem => absurd hmem List.not_mem_nil⟩
  obtain ⟨b, hrun, hb⟩ := hstart.run calls hclock hfits
  refine ⟨⟨b, hrun, fun markingNow clearingNow => ?_⟩, fun hkeep horder => ?_⟩
  · obtain ⟨b', hread, -⟩ := hb.updateBounds markingNow clearingNow
    exact ⟨b', hread⟩
  · rw [keep, if_neg hkeep]
    refine PrunedLog.takeWhile_eq_filter (horder.imp fun hle hfresh => ?_)
    rw [decide_eq_true_iff] at hfresh ⊢
    exact (Int.sub_le_sub_left hle _).trans hfresh

/-- The parameters of the package, but for the keep time, which is half a second. -/
def halfSecond : ObservationParameters where
  observationKeepTime := 500000000
  expectedUpdateRate := 10000000000
  obstacleRange := 5
  raytraceRange := 5
  marking := true
  clearing := true

/-- A cloud of no points. -/
def cloudAt (stamp : UInt64) : TransformedCloud where
  originX := 0
  originY := 0
  originZ := 0
  cloud := []
  stamp := stamp
  frameId := "map"

/-- Of three clouds, one each second and one right behind the second, the last two are read. -/
theorem run_updateBounds_halfSecond :
    ∃ b b' read, StateMachine.run (ObservationBuffer.call halfSecond) (start 0 "map")
        [.bufferCloud 1000000 (some (cloudAt 1000000)) 1000000000,
          .bufferCloud 2000000 (some (cloudAt 2000000)) 2000000000,
          .bufferCloud 2100000 (some (cloudAt 2100000)) 2100000000] = some b ∧
      b.updateBounds halfSecond 2200000000 2300000000 = some (b', read) ∧
      read.marking.map BufferedObservation.stamp = [2100000, 2000000] ∧ read.isCurrent = true := by
  obtain ⟨⟨b, hrun, hread⟩, -⟩ := run_updateBounds halfSecond 0 "map"
    [.bufferCloud 1000000 (some (cloudAt 1000000)) 1000000000,
      .bufferCloud 2000000 (some (cloudAt 2000000)) 2000000000,
      .bufferCloud 2100000 (some (cloudAt 2100000)) 2100000000] (by decide)
    (by simp [Call.StampsFit, Fits, cloudAt])
  obtain ⟨b', hread⟩ := hread 2200000000 2300000000
  exact ⟨b, b', _, hrun, hread, by decide, by decide⟩

end ObservationBuffer

end RoboRTS.Costmap
