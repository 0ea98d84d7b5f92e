import RoboRTS.Costmap.CostmapLayers.Defs
import RoboRTS.Costmap.Regions

/-!
# The two branches of the static layer

`StaticLayer::UpdateCosts` merges its map into the master grid by the index of a cell, or, for a
rolling window, by way of the world. On the same grid the two branches do the same when the map
overwrites the master grid; when the greater of two costs is kept, they disagree in the cells where
exactly one of the two is unknown (`updateCosts_agree_iff`).
-/

namespace RoboRTS.Costmap

open NearestSite

/-- The map of an initialised `StaticLayer`, whose flags are set. -/
structure StaticLayer where
  geometry : Geometry
  costmap : Nat → UInt8
  useMaximum : Bool

namespace StaticLayer

section Defs

variable (layer : StaticLayer) (master : Geometry)

/-- The loop of `UpdateOverwriteByMax`. -/
def updateOverwriteByMax (cells : List Cell) (masterArray : Nat → UInt8) : Nat → UInt8 :=
  cells.foldl (fun m (i, j) =>
    let it := master.getIndex i j
    if layer.costmap it = NO_INFORMATION then m
    else if m it = NO_INFORMATION ∨ m it < layer.costmap it then
      Function.update m it (layer.costmap it)
    else m) masterArray

/-- The loop of `UpdateOverwriteByAll`. -/
def updateOverwriteByAll (cells : List Cell) (masterArray : Nat → UInt8) : Nat → UInt8 :=
  cells.foldl (fun m (i, j) =>
    let it := master.getIndex i j
    Function.update m it (layer.costmap it)) masterArray

/-- The cells of a window, column by column. -/
def columns (minI minJ maxI maxJ : Int) : List Cell :=
  (List.range' minI.toNat (maxI.toNat - minI.toNat)).flatMap fun i =>
    (List.range' minJ.toNat (maxJ.toNat - minJ.toNat)).map fun j => (i, j)

/-- The loop of the rolling window, which ends when a point cannot be transformed. -/
def updateRolling (transform : Rat × Rat → Option (Rat × Rat)) :
    List Cell → (Nat → UInt8) → Nat → UInt8
  | [], m => m
  | (i, j) :: cells, m =>
      match transform (master.map2World i j) with
      | none => m
      | some pout =>
          match layer.geometry.world2Map pout.1 pout.2 with
          | none => updateRolling transform cells m
          | some (mx, my) =>
              let cost := layer.costmap (layer.geometry.getIndex mx my)
              let it := master.getIndex i j
              updateRolling transform cells
                (Function.update m it (if layer.useMaximum then max (m it) cost else cost))

/-- `UpdateCosts`. -/
def updateCosts (isRollingWindow : Bool) (transform : Rat × Rat → Option (Rat × Rat))
    (minI minJ maxI maxJ : Int) (masterArray : Nat → UInt8) : Nat → UInt8 :=
  if isRollingWindow then
    layer.updateRolling master transform (columns minI minJ maxI maxJ) masterArray
  else if layer.useMaximum then
    layer.updateOverwriteByMax master (window minI minJ maxI maxJ) masterArray
  else layer.updateOverwriteByAll master (window minI minJ maxI maxJ) masterArray

end Defs

/-- The branch that does not roll is the one of the layers with their common geometry. -/
theorem staticUpdateCosts_eq (cfg : LayersConfig) (minI minJ maxI maxJ : Int)
    (transform : Rat × Rat → Option (Rat × Rat)) :
    cfg.staticUpdateCosts (window minI minJ maxI maxJ) =
      (StaticLayer.mk cfg.geometry cfg.staticCostmap cfg.useMaximum).updateCosts cfg.geometry false
        transform minI minJ maxI maxJ :=
  rfl

/-! ## Merging cell by cell -/

/-- Each cell of a list gets a cost made from its own and that of the layer. -/
def mergeCells (g : Geometry) (merge : UInt8 → UInt8 → UInt8) (costmap : Nat → UInt8)
    (cells : List Cell) (m : Nat → UInt8) : Nat → UInt8 :=
  cells.foldl (fun m c =>
    let it := g.getIndex c.1 c.2
    Function.update m it (merge (m it) (costmap it))) m

/-- What `UpdateOverwriteByMax` makes of two costs. -/
def maxMerge (old cost : UInt8) : UInt8 :=
  if cost = NO_INFORMATION then old
  else if old = NO_INFORMATION ∨ old < cost then cost
  else old

variable {layer : StaticLayer} {g : Geometry} {merge merge' : UInt8 → UInt8 → UInt8}
  {costmap m : Nat → UInt8} {cells cells' : List Cell} {minI minJ maxI maxJ : Int}

theorem updateOverwriteByMax_eq (layer : StaticLayer) (g : Geometry) (cells : List Cell)
    (m : Nat → UInt8) :
    layer.updateOverwriteByMax g cells m = mergeCells g maxMerge layer.costmap cells m := by
  unfold updateOverwriteByMax mergeCells
  refine List.foldl_ext _ _ m fun m c _ => ?_
  dsimp only
  unfold maxMerge
  split
  · exact (Function.update_eq_self ..).symm
  · split
    · rfl
    · exact (Function.update_eq_self ..).symm

theorem updateOverwriteByAll_eq (layer : StaticLayer) (g : Geometry) (cells : List Cell)
    (m : Nat → UInt8) :
    layer.updateOverwriteByAll g cells m = mergeCells g (fun _ cost => cost) layer.costmap cells m :=
  rfl

/-- Over the identity, each cell of the map meets itself. -/
theorem updateRolling_eq (hcells : ∀ c ∈ cells, c.1 < layer.geometry.sizeX ∧ c.2 < layer.geometry.sizeY)
    (m : Nat → UInt8) :
    layer.updateRolling layer.geometry some cells m =
      mergeCells layer.geometry (fun old cost => if layer.useMaximum then max old cost else cost)
        layer.costmap cells m := by
  induction cells generalizing m with
  | nil => rfl
  | cons c cells ih =>
      have hc := hcells c List.mem_cons_self
      unfold updateRolling
      simp only [Geometry.world2Map_map2World hc.1 hc.2]
      exact ih (fun d hd => hcells d (List.mem_cons_of_mem c hd)) _

/-- A cell that is not in the list keeps its cost. -/
theorem mergeCells_of_ne {i : Nat} (hi : ∀ c ∈ cells, g.getIndex c.1 c.2 ≠ i) :
    mergeCells g merge costmap cells m i = m i := by
  unfold mergeCells
  induction cells generalizing m with
  | nil => rfl
  | cons c cells ih =>
      rw [List.foldl_cons, ih fun d hd => hi d (List.mem_cons_of_mem c hd)]
      exact Function.update_of_ne (hi c List.mem_cons_self).symm _ _

/-- Each cell of the list is merged once. -/
theorem mergeCells_of_mem (hnodup : cells.Nodup) (hcells : ∀ c ∈ cells, c.1 < g.sizeX) {c : Cell}
    (hc : c ∈ cells) :
    mergeCells g merge costmap cells m (g.getIndex c.1 c.2) =
      merge (m (g.getIndex c.1 c.2)) (costmap (g.getIndex c.1 c.2)) := by
  unfold mergeCells
  induction cells generalizing m with
  | nil => exact absurd hc List.not_mem_nil
  | cons d cells ih =>
      obtain ⟨hd, hnodup⟩ := List.nodup_cons.mp hnodup
      have htail := fun e he => hcells e (List.mem_cons_of_mem d he)
      rw [List.foldl_cons]
      rcases List.mem_cons.mp hc with rfl | hmem
      · have hne : ∀ e ∈ cells, g.getIndex e.1 e.2 ≠ g.getIndex c.1 c.2 := by
          intro e he heq
          rw [Geometry.getIndex_inj (htail e he) (hcells c List.mem_cons_self) heq] at he
          exact hd he
        refine (mergeCells_of_ne hne).trans ?_
        exact Function.update_self ..
      · have hne : g.getIndex c.1 c.2 ≠ g.getIndex d.1 d.2 := by
          intro heq
          rw [Geometry.getIndex_inj (htail c hmem) (hcells d List.mem_cons_self) heq] at hmem
          exact hd hmem
        rw [ih hnodup htail hmem, Function.update_of_ne hne]

/-- Two ways to merge the same cells agree exactly when they agree on each of them. -/
theorem mergeCells_eq_iff (hnodup : cells.Nodup) (hnodup' : cells'.Nodup)
    (hmem : ∀ c, c ∈ cells' ↔ c ∈ cells) (hcells : ∀ c ∈ cells, c.1 < g.sizeX) :
    mergeCells g merge costmap cells m = mergeCells g merge' costmap cells' m ↔
      ∀ c ∈ cells, merge (m (g.getIndex c.1 c.2)) (costmap (g.getIndex c.1 c.2)) =
        merge' (m (g.getIndex c.1 c.2)) (costmap (g.getIndex c.1 c.2)) := by
  have hcells' : ∀ c ∈ cells', c.1 < g.sizeX := fun c hc => hcells c ((hmem c).mp hc)
  constructor
  · intro heq c hc
    have happly := congrFun heq (g.getIndex c.1 c.2)
    rwa [mergeCells_of_mem hnodup hcells hc, mergeCells_of_mem hnodup' hcells' ((hmem c).mpr hc)]
      at happly
  · intro hall
    funext i
    by_cases hi : ∃ c ∈ cells, g.getIndex c.1 c.2 = i
    · obtain ⟨c, hc, rfl⟩ := hi
      rw [mergeCells_of_mem hnodup hcells hc, mergeCells_of_mem hnodup' hcells' ((hmem c).mpr hc)]
      exact hall c hc
    · rw [mergeCells_of_ne fun c hc heq => hi ⟨c, hc, heq⟩,
        mergeCells_of_ne fun c hc heq => hi ⟨c, (hmem c).mp hc, heq⟩]

/-! ## The cells of a window -/

theorem mem_columns {c : Cell} : c ∈ columns minI minJ maxI maxJ ↔ c ∈ window minI minJ maxI maxJ := by
  obtain ⟨i, j⟩ := c
  rw [mem_window]
  simp only [columns, List.mem_flatMap, List.mem_map, List.mem_range'_1, Prod.mk.injEq]
  constructor
  · rintro ⟨i', hi', j', hj', rfl, rfl⟩
    omega
  · intro h
    exact ⟨i, by omega, j, by omega, rfl, rfl⟩

theorem nodup_columns : (columns minI minJ maxI maxJ).Nodup := by
  refine List.nodup_flatMap.mpr ⟨fun i _ => ?_, ?_⟩
  · exact (List.nodup_range' 1).map fun j j' h => congrArg Prod.snd h
  · refine (List.nodup_range' 1).imp fun hne => ?_
    intro c hc hc'
    obtain ⟨_, -, rfl⟩ := List.mem_map.mp hc
    obtain ⟨_, -, heq⟩ := List.mem_map.mp hc'
    exact hne (congrArg Prod.fst heq).symm

theorem nodup_window : (window minI minJ maxI maxJ).Nodup := by
  refine List.nodup_flatMap.mpr ⟨fun j _ => ?_, ?_⟩
  · exact (List.nodup_range' 1).map fun i i' h => congrArg Prod.fst h
  · refine (List.nodup_range' 1).imp fun hne => ?_
    intro c hc hc'
    obtain ⟨_, -, rfl⟩ := List.mem_map.mp hc
    obtain ⟨_, -, heq⟩ := List.mem_map.mp hc'
    exact hne (congrArg Prod.snd heq).symm

/-! ## Agreement -/

/-- The greater of two costs is what `UpdateOverwriteByMax` keeps, unless one of them alone is
unknown. -/
theorem maxMerge_eq_max_iff (old cost : UInt8) :
    max old cost = maxMerge old cost ↔ (cost = NO_INFORMATION ↔ old = NO_INFORMATION) := by
  have hold := old.toNat_lt
  have hcost := cost.toNat_lt
  have hmax : max old cost = if old ≤ cost then cost else old := rfl
  have h255 : (255 : UInt8).toNat = 255 := rfl
  rw [hmax]
  unfold maxMerge
  simp only [NO_INFORMATION, ← UInt8.toNat_inj, UInt8.lt_iff_toNat_lt, UInt8.le_iff_toNat_le, h255]
  split_ifs <;> omega

/-- On the same grid the two branches agree exactly when the map overwrites the master grid, or in
every cell of the window either both costs are unknown or none is. -/
theorem updateCosts_agree_iff (layer : StaticLayer) (masterArray : Nat → UInt8)
    {minI minJ maxI maxJ : Int} (hI : maxI ≤ layer.geometry.sizeX) (hJ : maxJ ≤ layer.geometry.sizeY) :
    layer.updateCosts layer.geometry true some minI minJ maxI maxJ masterArray =
        layer.updateCosts layer.geometry false some minI minJ maxI maxJ masterArray ↔
      layer.useMaximum = false ∨ ∀ c ∈ window minI minJ maxI maxJ,
        (layer.costmap (layer.geometry.getIndex c.1 c.2) = NO_INFORMATION ↔
          masterArray (layer.geometry.getIndex c.1 c.2) = NO_INFORMATION) := by
  have hin : ∀ c ∈ window minI minJ maxI maxJ,
      c.1 < layer.geometry.sizeX ∧ c.2 < layer.geometry.sizeY := by
    intro c hc
    have hc := mem_window.mp hc
    omega
  have hcolumns : ∀ c ∈ columns minI minJ maxI maxJ,
      c.1 < layer.geometry.sizeX ∧ c.2 < layer.geometry.sizeY :=
    fun c hc => hin c (mem_columns.mp hc)
  -- the rolling branch goes through the window by columns, the other one by rows
  unfold updateCosts
  rw [if_pos rfl, if_neg Bool.false_ne_true, updateRolling_eq hcolumns, updateOverwriteByMax_eq,
    updateOverwriteByAll_eq]
  cases hmaximum : layer.useMaximum with
  | false =>
      rw [if_neg Bool.false_ne_true]
      refine iff_of_true ?_ (Or.inl rfl)
      refine (mergeCells_eq_iff nodup_columns nodup_window (fun c => mem_columns.symm)
        fun c hc => (hcolumns c hc).1).mpr fun c _ => rfl
  | true =>
      rw [if_pos rfl, mergeCells_eq_iff nodup_columns nodup_window (fun c => mem_columns.symm)
        fun c hc => (hcolumns c hc).1]
      simp only [if_true, maxMerge_eq_max_iff, mem_columns, Bool.true_eq_false, false_or]

/-- A map with one unknown cell. -/
def unknownCell : StaticLayer where
  geometry := ⟨1, 1, 1, 0, 0, unitResolution_pos⟩
  costmap _ := NO_INFORMATION
  useMaximum := true

/-- Over an unknown cell. -/
theorem updateCosts_agree_unknown :
    unknownCell.updateCosts unknownCell.geometry true some 0 0 1 1 (fun _ => NO_INFORMATION) =
      unknownCell.updateCosts unknownCell.geometry false some 0 0 1 1 fun _ => NO_INFORMATION :=
  (updateCosts_agree_iff unknownCell (fun _ => NO_INFORMATION) (by decide) (by decide)).mpr
    (Or.inr fun _ _ => Iff.rfl)

/-- Over a free cell the rolling window makes the cell unknown, and the other branch leaves it. -/
theorem updateCosts_disagree_free :
    ¬ ∀ (layer : StaticLayer) (masterArray : Nat → UInt8) (minI minJ maxI maxJ : Int),
      maxI ≤ layer.geometry.sizeX → maxJ ≤ layer.geometry.sizeY →
        layer.updateCosts layer.geometry true some minI minJ maxI maxJ masterArray =
          layer.updateCosts layer.geometry false some minI minJ maxI maxJ masterArray := by
  intro hagree
  have hcell := congrFun (hagree unknownCell (fun _ => FREE_SPACE) 0 0 1 1 (by decide) (by decide)) 0
  revert hcell
  decide +kernel

end StaticLayer

end RoboRTS.Costmap
