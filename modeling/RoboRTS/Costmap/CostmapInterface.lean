import RoboRTS.Costmap.CostmapLayers.Marking
import RoboRTS.Costmap.ObservationBuffer

/-!
# The costmap and its sensor

`CostmapInterface` with its layers and the buffer of the obstacle layer: scans come in, the update
loop calls `UpdateMap`, others call `ClearCostMap`, `Pause` and `Resume`. `run_obstacles_seen` says
where the obstacles of the obstacle layer come from: from clouds that were taken and were still kept
when an update, which was not paused, read the buffer.

The map does not move with the robot, and the layers are a static one, an obstacle layer and an
inflation layer, which stay enabled. `Start`, `Stop` and `ResetLayers`, which set up the layers
again, are not modelled, and neither is the wait in `Resume`.
-/

namespace RoboRTS.Costmap

open NearestSite
open ObservationBuffer (History Tracks Fits history keep)

/-- The pose of the robot at an update, and the readings of the clocks that the update takes. -/
structure RobotUpdate where
  robotX : Rat
  robotY : Rat
  cosYaw : Rat
  sinYaw : Rat
  now : Int
  resetNow : Int
  markingNow : Int
  clearingNow : Int

/-- The update that a robot makes with the observations of the buffer. -/
def RobotUpdate.update (v : RobotUpdate) (observations : Observations) : Update where
  robotX := v.robotX
  robotY := v.robotY
  cosYaw := v.cosYaw
  sinYaw := v.sinYaw
  marking := observations.marking.map BufferedObservation.toObservation
  clearing := observations.clearing.map BufferedObservation.toObservation
  now := v.now
  resetNow := v.resetNow

/-- The members of `CostmapInterface` that change, with those of the layers and the buffer. -/
structure CostmapInterface where
  layers : CostmapLayers
  buffer : ObservationBuffer
  stopUpdates : Bool

/-- What happens to a costmap. A pose is `none` when it cannot be looked up. -/
inductive InterfaceEvent where
  | laserScanCallback (stamp : UInt64) (transformed : Option TransformedCloud) (now : Int)
  | updateMap (pose : Option RobotUpdate)
  | clearCostMap (pose : Option (Rat × Rat))
  | pause
  | resume

/-- The calls of the buffer that tell it something. -/
def InterfaceEvent.calls : InterfaceEvent → List ObservationBuffer.Call
  | .laserScanCallback stamp transformed now => [.bufferCloud stamp transformed now]
  | _ => []

namespace CostmapInterface

variable (cfg : LayersConfig) (hypot : Rat → Rat → Rat) (exp : Rat → Rat)
  (params : ObservationParameters) (w : CostmapInterface)

/-- `UpdateMap`. -/
def updateMap (pose : Option RobotUpdate) : Option CostmapInterface :=
  match pose with
  | none => some w
  | some v =>
      if w.stopUpdates then some w
      else (w.buffer.updateBounds params v.markingNow v.clearingNow).map fun (b, observations) =>
        { w with
          layers := cfg.updateMap hypot exp (v.update observations) w.layers
          buffer := b }

/-- `ClearCostMap`. -/
def clearCostMap (pose : Option (Rat × Rat)) : CostmapInterface :=
  match pose with
  | none => w
  | some (x, y) => { w with layers := cfg.clearCostMap x y w.layers }

/-- One event. -/
def step (w : CostmapInterface) : InterfaceEvent → Option CostmapInterface
  | .laserScanCallback stamp transformed now =>
      (w.buffer.bufferCloud params stamp transformed now).map fun b => { w with buffer := b }
  | .updateMap pose => w.updateMap cfg hypot exp params pose
  | .clearCostMap pose => some (w.clearCostMap cfg pose)
  | .pause => some { w with stopUpdates := true }
  | .resume => some { w with stopUpdates := false }

/-- A new costmap, at a reading of both clocks. -/
def start (resetTime now : Int) (globalFrame : String) : CostmapInterface where
  layers := cfg.initial resetTime
  buffer := .start now globalFrame
  stopUpdates := false

/-- The history of the buffer behind some events. -/
def seen (now : Int) (globalFrame : String) (events : List InterfaceEvent) : History :=
  history params now globalFrame (events.flatMap InterfaceEvent.calls)

/-- A point of a kept cloud marks the cell. -/
def SeenAt (h : History) (c : Cell) : Prop :=
  ∃ obs ∈ keep params h.lastUpdated h.accepted, ∃ p ∈ obs.cloud,
    cfg.markedCell obs.toObservation p = some c

/-- The updates are paused behind some events. -/
def Paused (events : List InterfaceEvent) : Prop :=
  ∃ before after, events = before ++ .pause :: after ∧ .resume ∉ after

/-- An update of the events, one that was not paused, has seen an obstacle in the cell. -/
def SeenIn (now : Int) (globalFrame : String) (events : List InterfaceEvent) (c : Cell) : Prop :=
  ∃ before v after, events = before ++ .updateMap (some v) :: after ∧ ¬ Paused before ∧
    SeenAt cfg params (seen params now globalFrame before) c

variable {cfg hypot exp params w} {now : Int} {globalFrame : String} {events : List InterfaceEvent}
  {c : Cell}

theorem SeenIn.append (h : SeenIn cfg params now globalFrame events c)
    (later : List InterfaceEvent) : SeenIn cfg params now globalFrame (events ++ later) c := by
  obtain ⟨before, v, after, rfl, hseen⟩ := h
  exact ⟨before, v, after ++ later, by rw [List.append_assoc, List.cons_append], hseen⟩

/-- Only the last of the calls of `Pause` and `Resume` counts. -/
theorem paused_concat {e : InterfaceEvent} :
    Paused (events ++ [e]) ↔ e = .pause ∨ e ≠ .resume ∧ Paused events := by
  constructor
  · rintro ⟨before, after, hsplit, hresume⟩
    cases after using List.reverseRecOn with
    | nil =>
        obtain ⟨-, hlast⟩ := List.append_inj' hsplit rfl
        exact Or.inl (List.singleton_inj.mp hlast)
    | append_singleton after last =>
        rw [← List.cons_append, ← List.append_assoc] at hsplit
        obtain ⟨rfl, hlast⟩ := List.append_inj' hsplit rfl
        rw [List.singleton_inj.mp hlast]
        rw [List.mem_append, List.mem_singleton, not_or] at hresume
        exact Or.inr ⟨Ne.symm hresume.2, before, after, rfl, hresume.1⟩
  · rintro (rfl | ⟨hne, before, after, rfl, hresume⟩)
    · exact ⟨events, [], rfl, List.not_mem_nil⟩
    · refine ⟨before, after ++ [e], by rw [List.append_assoc, List.cons_append], ?_⟩
      rw [List.mem_append, List.mem_singleton, not_or]
      exact ⟨hresume, Ne.symm hne⟩

/-- What an update marks is in a kept cloud. -/
theorem seenAt_of_marks {h : History} {v : RobotUpdate}
    (hmarks : cfg.Marks (v.update (h.observations params v.markingNow v.clearingNow)) c) :
    SeenAt cfg params h c := by
  obtain ⟨obs, hobs, p, hp, hcell⟩ := hmarks
  obtain ⟨buffered, hbuffered, rfl⟩ := List.mem_map.mp hobs
  refine ⟨buffered, ?_, p, hp, hcell⟩
  unfold History.observations at hbuffered
  dsimp only at hbuffered
  split at hbuffered
  · exact hbuffered
  · exact absurd hbuffered List.not_mem_nil

/-- What holds behind the events of a run: the buffer tracks its history, the updates are stopped as
the last call said, and every obstacle was seen. -/
structure Explained (cfg : LayersConfig) (params : ObservationParameters) (now : Int)
    (globalFrame : String) (events : List InterfaceEvent) (w : CostmapInterface) : Prop where
  tracks : Tracks params w.buffer (seen params now globalFrame events)
  stopped : w.stopUpdates = true ↔ Paused events
  marked : ∀ c, cfg.InMap c → cfg.MarkedIn w.layers.obstacle c →
    SeenIn cfg params now globalFrame events c

/-- An event that tells the buffer nothing leaves its history. -/
theorem seen_concat_of_calls {e : InterfaceEvent} (he : e.calls = []) :
    seen params now globalFrame (events ++ [e]) = seen params now globalFrame events := by
  rw [seen, seen, List.flatMap_append, List.flatMap_singleton, he, List.append_nil]

/-- An event that leaves the layers and tells the buffer nothing. -/
theorem Explained.concat (hw : Explained cfg params now globalFrame events w) {e : InterfaceEvent}
    (he : e.calls = []) {stop : Bool} (hstop : stop = true ↔ Paused (events ++ [e])) :
    Explained cfg params now globalFrame (events ++ [e]) { w with stopUpdates := stop } :=
  ⟨by rw [seen_concat_of_calls he]; exact hw.tracks, hstop,
    fun c hc hmarked => (hw.marked c hc hmarked).append _⟩

/-- An event that is no call of `Pause` or `Resume` leaves the updates as they are. -/
theorem Explained.stopped_concat (hw : Explained cfg params now globalFrame events w)
    {e : InterfaceEvent} (hpause : e ≠ .pause) (hresume : e ≠ .resume) :
    w.stopUpdates = true ↔ Paused (events ++ [e]) := by
  rw [hw.stopped, paused_concat, or_iff_right hpause, and_iff_right hresume]

theorem Explained.laserScanCallback (hw : Explained cfg params now globalFrame events w)
    {stamp : UInt64} {transformed : Option TransformedCloud} {scanNow : Int}
    (hfits : (ObservationBuffer.Call.bufferCloud stamp transformed scanNow).StampsFit)
    (hclock : (seen params now globalFrame events).lastUpdated ≤ scanNow) :
    ∃ w', w.step cfg hypot exp params (.laserScanCallback stamp transformed scanNow) = some w' ∧
      Explained cfg params now globalFrame
        (events ++ [.laserScanCallback stamp transformed scanNow]) w' := by
  obtain ⟨b, hcall, hb⟩ := hw.tracks.call (.bufferCloud stamp transformed scanNow) hfits
    fun reading hmem => by rwa [List.mem_singleton.mp hmem]
  refine ⟨{ w with buffer := b }, ?_, ?_, hw.stopped_concat (by simp) (by simp),
    fun c hc hmarked => (hw.marked c hc hmarked).append _⟩
  · unfold CostmapInterface.step
    dsimp only
    rw [show w.buffer.bufferCloud params stamp transformed scanNow = some b from hcall]
    rfl
  · rw [seen, List.flatMap_append, history, List.foldl_append]
    exact hb

theorem Explained.updateMap (hw : Explained cfg params now globalFrame events w)
    (pose : Option RobotUpdate) :
    ∃ w', w.step cfg hypot exp params (.updateMap pose) = some w' ∧
      Explained cfg params now globalFrame (events ++ [.updateMap pose]) w' := by
  have hstop := hw.stopped_concat (e := .updateMap pose) (by simp) (by simp)
  have hsame : Explained cfg params now globalFrame (events ++ [.updateMap pose]) w :=
    hw.concat rfl hstop
  cases pose with
  | none => exact ⟨w, rfl, hsame⟩
  | some v =>
      by_cases hpaused : w.stopUpdates = true
      · refine ⟨w, ?_, hsame⟩
        unfold CostmapInterface.step CostmapInterface.updateMap
        dsimp only
        rw [if_pos hpaused]
      · obtain ⟨b, hread, hb⟩ := hw.tracks.updateBounds v.markingNow v.clearingNow
        let observations := (seen params now globalFrame events).observations params v.markingNow
          v.clearingNow
        refine ⟨{ w with
          layers := cfg.updateMap hypot exp (v.update observations) w.layers
          buffer := b }, ?_, ?_, hstop, fun c hc hmarked => ?_⟩
        · unfold CostmapInterface.step CostmapInterface.updateMap
          dsimp only
          rw [if_neg hpaused, hread]
          rfl
        · rw [seen_concat_of_calls rfl]
          exact hb
        · have hmarked := (LayersConfig.updateMap_marked_iff hc).mp hmarked
          rcases hmarked.1 with hmarks | hold
          · exact ⟨events, v, [], rfl, mt hw.stopped.mpr hpaused, seenAt_of_marks hmarks⟩
          · exact (hw.marked c hc hold.1).append _

theorem Explained.clearCostMap (hw : Explained cfg params now globalFrame events w)
    (pose : Option (Rat × Rat)) :
    Explained cfg params now globalFrame (events ++ [.clearCostMap pose])
      (w.clearCostMap cfg pose) := by
  have hstop := hw.stopped_concat (e := .clearCostMap pose) (by simp) (by simp)
  cases pose with
  | none => exact hw.concat rfl hstop
  | some pose =>
      refine ⟨by rw [seen_concat_of_calls rfl]; exact hw.tracks, hstop, fun c hc hmarked => ?_⟩
      exact (hw.marked c hc ((LayersConfig.clearCostMap_marked_iff hc _ _).mp hmarked).1).append _

/-- The time of the last update is a reading of the clock. -/
theorem lastUpdated_seen_mem : (seen params now globalFrame events).lastUpdated ∈
    now :: (events.flatMap InterfaceEvent.calls).flatMap ObservationBuffer.Call.readings := by
  unfold seen history
  generalize events.flatMap InterfaceEvent.calls = calls
  induction calls using List.reverseRecOn with
  | nil => exact List.mem_singleton_self now
  | append_singleton calls c ih =>
      rw [List.foldl_append, List.flatMap_append, List.flatMap_singleton, ← List.cons_append]
      rcases ObservationBuffer.lastUpdated_next params
        (calls.foldl (History.next params) ⟨now, globalFrame, []⟩) c with heq | hmem
      · exact List.mem_append_left _ (heq ▸ ih)
      · exact List.mem_append_right _ hmem

variable (hypot exp) in
/-- One more event keeps every obstacle explained. -/
theorem Explained.step (hw : Explained cfg params now globalFrame events w) (e : InterfaceEvent)
    (hfits : ∀ call ∈ e.calls, call.StampsFit)
    (hclock : ∀ reading ∈ e.calls.flatMap ObservationBuffer.Call.readings,
      (seen params now globalFrame events).lastUpdated ≤ reading) :
    ∃ w', w.step cfg hypot exp params e = some w' ∧
      Explained cfg params now globalFrame (events ++ [e]) w' := by
  cases e with
  | laserScanCallback stamp transformed scanNow =>
      exact hw.laserScanCallback (hfits _ (List.mem_singleton_self _))
        (hclock scanNow (List.mem_singleton_self scanNow))
  | updateMap pose => exact hw.updateMap pose
  | clearCostMap pose => exact ⟨_, rfl, hw.clearCostMap pose⟩
  | pause => exact ⟨_, rfl, hw.concat rfl (by simp [paused_concat])⟩
  | resume => exact ⟨_, rfl, hw.concat rfl (by simp [paused_concat])⟩

/-- Under a clock that does not go back and with stamps that fit, no event of a costmap throws, and
every lethal cell of the obstacle layer is explained: some update that was not paused has seen a
point in it, low and near enough, in a cloud that had come in before and was still kept. -/
theorem run_obstacles_seen (cfg : LayersConfig) (hypot : Rat → Rat → Rat) (exp : Rat → Rat)
    (params : ObservationParameters) (resetTime now : Int) (globalFrame : String)
    (events : List InterfaceEvent)
    (hclock : (now :: (events.flatMap InterfaceEvent.calls).flatMap
      ObservationBuffer.Call.readings).Pairwise (· ≤ ·))
    (hfits : ∀ call ∈ events.flatMap InterfaceEvent.calls, call.StampsFit) :
    ∃ w, StateMachine.run (step cfg hypot exp params) (start cfg resetTime now globalFrame) events =
        some w ∧
      ∀ c, cfg.InMap c → cfg.MarkedIn w.layers.obstacle c →
        SeenIn cfg params now globalFrame events c := by
  suffices hrun : ∃ w, StateMachine.run (step cfg hypot exp params)
      (start cfg resetTime now globalFrame) events = some w ∧
      Explained cfg params now globalFrame events w by
    obtain ⟨w, hrun, hw⟩ := hrun
    exact ⟨w, hrun, hw.marked⟩
  induction events using List.reverseRecOn with
  | nil =>
      have hstart : ¬ Paused [] := by
        rintro ⟨before, after, hsplit, -⟩
        simp at hsplit
      exact ⟨_, rfl, ⟨⟨rfl, rfl, .refl, fun obs hmem => absurd hmem List.not_mem_nil⟩,
        iff_of_false Bool.false_ne_true hstart,
        fun c _ hmarked => absurd hmarked LayersConfig.defaultValue_ne⟩⟩
  | append_singleton events e ih =>
      rw [List.flatMap_append, List.flatMap_singleton] at hfits
      rw [List.flatMap_append, List.flatMap_singleton, List.flatMap_append, ← List.cons_append,
        List.pairwise_append] at hclock
      obtain ⟨w, hrun, hw⟩ := ih hclock.1 fun call hmem => hfits call (List.mem_append_left _ hmem)
      obtain ⟨w', hstep, hw'⟩ := hw.step hypot exp e
        (fun call hmem => hfits call (List.mem_append_right _ hmem))
        (hclock.2.2 _ lastUpdated_seen_mem)
      exact ⟨w', StateMachine.run_concat_eq_some.mpr ⟨w, hrun, hstep⟩, hw'⟩

/-- A cloud with one point, in the last column of the small map. -/
def oneObstacle : TransformedCloud where
  originX := 1 / 2
  originY := 1 / 2
  originZ := 0
  cloud := [(5 / 2, 1 / 2, 0)]
  stamp := 1000000
  frameId := "map"

/-- A robot at the origin, one and a half seconds after the start. -/
def robotAtOrigin : RobotUpdate where
  robotX := 0
  robotY := 0
  cosYaw := 1
  sinYaw := 0
  now := 1500000000
  resetNow := 1500000000
  markingNow := 1500000000
  clearingNow := 1500000000

/-- A scan and then an update of the small map. -/
theorem run_obstacles_seen_one :
    ∃ w, StateMachine.run (step LayersConfig.smallMap (fun x y => |x| + |y|) (fun _ => 1)
        ObservationBuffer.halfSecond) (start LayersConfig.smallMap 0 0 "map")
        [.laserScanCallback 1000000 (some oneObstacle) 1100000000,
          .updateMap (some robotAtOrigin)] = some w ∧
      LayersConfig.smallMap.MarkedIn w.layers.obstacle (2, 0) ∧
      SeenIn LayersConfig.smallMap ObservationBuffer.halfSecond 0 "map"
        [.laserScanCallback 1000000 (some oneObstacle) 1100000000,
          .updateMap (some robotAtOrigin)] (2, 0) := by
  obtain ⟨w, hrun, hseen⟩ := run_obstacles_seen LayersConfig.smallMap (fun x y => |x| + |y|)
    (fun _ => 1) ObservationBuffer.halfSecond 0 0 "map"
    [.laserScanCallback 1000000 (some oneObstacle) 1100000000, .updateMap (some robotAtOrigin)]
    (by decide) (by
      intro call hmem
      obtain rfl := List.mem_singleton.mp hmem
      simp [ObservationBuffer.Call.StampsFit, Fits, oneObstacle])
  have hlethal : (StateMachine.run (step LayersConfig.smallMap (fun x y => |x| + |y|) (fun _ => 1)
      ObservationBuffer.halfSecond) (start LayersConfig.smallMap 0 0 "map")
      [.laserScanCallback 1000000 (some oneObstacle) 1100000000,
        .updateMap (some robotAtOrigin)]).map (fun w => w.layers.obstacle.costmap 2) =
      some LETHAL_OBSTACLE := by
    decide +kernel
  rw [hrun, Option.map_some, Option.some.injEq] at hlethal
  exact ⟨w, hrun, hlethal, hseen (2, 0) ⟨by decide, by decide⟩ hlethal⟩

end CostmapInterface

end RoboRTS.Costmap
