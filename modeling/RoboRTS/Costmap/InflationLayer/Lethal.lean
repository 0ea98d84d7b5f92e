import RoboRTS.Costmap.InflationLayer.Wavefront

/-!
# Inflation and the lethal cells

Where only the distance zero has the cost of an obstacle, `UpdateCosts` neither makes a cell lethal
nor takes a lethal cell away (`updateCosts_eq_lethal`), whatever the window and the order in which
the wavefront reaches the cells.
-/

namespace RoboRTS.Costmap.InflationLayer

open NearestSite

variable {l : InflationLayer} {masterArray : Nat → UInt8} {w : Wave} {cell : CellData} {k : Nat}

/-- The costs of `ComputeCost`: an obstacle is lethal, and what is near it costs less. -/
structure CostsBelow (l : InflationLayer) : Prop where
  zero : l.cost 0 = LETHAL_OBSTACLE
  pos : ∀ d, 0 < d → l.cost d < LETHAL_OBSTACLE

/-- The entries are valid, and the lethal cells are those of the original grid. -/
structure LethalInv (l : InflationLayer) (masterArray : Nat → UInt8) (w : Wave) : Prop where
  valid : ∀ d, ∀ cell ∈ w.inflationCells d, ValidCell l masterArray d cell
  lethal : ∀ c, l.InGrid c → (w.masterArray (l.getIndex c.1 c.2) = LETHAL_OBSTACLE ↔
    masterArray (l.getIndex c.1 c.2) = LETHAL_OBSTACLE)

/-- A cost below that of an obstacle does not change which cells are lethal. -/
theorem merge_eq_lethal {oldCost cost : UInt8} (hcost : cost < LETHAL_OBSTACLE) :
    merge oldCost cost = LETHAL_OBSTACLE ↔ oldCost = LETHAL_OBSTACLE := by
  have hne : cost ≠ LETHAL_OBSTACLE := by
    rintro rfl
    exact absurd hcost (by decide)
  unfold merge
  by_cases hunknown : oldCost = NO_INFORMATION ∧ cost ≥ INSCRIBED_INFLATED_OBSTACLE
  · rw [if_pos hunknown, hunknown.1]
    exact ⟨fun h => absurd h hne, fun h => absurd h (by decide)⟩
  · rw [if_neg hunknown]
    show (if oldCost ≤ cost then cost else oldCost) = LETHAL_OBSTACLE ↔ _
    by_cases hle : oldCost ≤ cost
    · rw [if_pos hle]
      refine ⟨fun h => absurd h hne, ?_⟩
      rintro rfl
      exact absurd hcost (UInt8.not_lt.mpr hle)
    · rw [if_neg hle]

/-- A visit keeps the lethal cells: only a lethal cell is at distance zero from its source. -/
theorem LethalInv.visit (hcosts : CostsBelow l) (h : LethalInv l masterArray w)
    (hcell : ValidCell l masterArray k cell) : LethalInv l masterArray (l.visit w cell) := by
  cases hseen : w.seen cell.index with
  | true =>
      rw [visit_of_seen hseen]
      exact h
  | false =>
      refine ⟨valid_visit h.valid hcell hseen, ?_⟩
      intro c hc
      rw [(visit_fields hseen).2]
      by_cases heq : l.getIndex c.1 c.2 = cell.index
      · rw [heq, Function.update_self, ← heq, ← h.lethal c hc]
        rw [hcell.index] at heq
        obtain rfl := getIndex_inj hc hcell.inGrid heq
        rcases Nat.eq_zero_or_pos (sqDist (cell.x, cell.y) (cell.srcX, cell.srcY)) with hzero | hpos
        · have hlethal := hcell.source.2
          rw [← sqDist_eq_zero hzero] at hlethal
          rw [hzero, hcosts.zero, (h.lethal _ hc).mpr hlethal]
          decide
        · exact merge_eq_lethal (hcosts.pos _ hpos)
      · rw [Function.update_of_ne heq]
        exact h.lethal c hc

/-- The loop over a distance keeps the lethal cells. -/
theorem LethalInv.processBin (hcosts : CostsBelow l) (fuel : Nat) : ∀ {i : Nat} {w : Wave},
    LethalInv l masterArray w → LethalInv l masterArray (l.processBin k fuel i w) := by
  induction fuel with
  | zero => exact fun h => h
  | succ fuel ih =>
      intro i w h
      rw [InflationLayer.processBin]
      cases hget : (w.inflationCells k)[i]? with
      | none => exact h
      | some cell => exact ih (h.visit hcosts (h.valid k cell (List.mem_of_getElem? hget)))

/-- Before the loops, the lethal cells are those of the grid below. -/
theorem LethalInv.start (masterArray : Nat → UInt8) {cells : List (Nat × Nat)}
    (hcells : ∀ c ∈ cells, l.InGrid c) :
    LethalInv l masterArray
      ⟨Function.update (fun _ => []) 0 (l.obstacles masterArray cells), fun _ => false,
        masterArray⟩ :=
  ⟨valid_obstacles masterArray hcells, fun _ _ => Iff.rfl⟩

/-- The loop over the distances keeps the lethal cells. -/
theorem LethalInv.processBins (hcosts : CostsBelow l) (h : LethalInv l masterArray w) :
    LethalInv l masterArray (l.processBins w) := by
  unfold InflationLayer.processBins
  induction List.range _ generalizing w with
  | nil => exact h
  | cons d distances ih => exact ih (h.processBin hcosts _)

/-- Inflation keeps the lethal cells of the master grid. -/
theorem updateCosts_eq_lethal (hcosts : CostsBelow l) {minI minJ maxI maxJ : Int} {c : Cell}
    (hc : l.InGrid c) :
    l.updateCosts masterArray minI minJ maxI maxJ (l.getIndex c.1 c.2) = LETHAL_OBSTACLE ↔
      masterArray (l.getIndex c.1 c.2) = LETHAL_OBSTACLE := by
  unfold updateCosts
  by_cases hradius : l.cellInflationRadius = 0
  · rw [if_pos hradius]
  rw [if_neg hradius]
  refine ((LethalInv.start masterArray fun c hc => ?_).processBins hcosts).lethal c hc
  rw [mem_window] at hc
  exact ⟨by omega, by omega⟩

end RoboRTS.Costmap.InflationLayer
