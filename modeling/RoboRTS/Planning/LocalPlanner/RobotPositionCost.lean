import RoboRTS.Costmap.Costmap2D
import RoboRTS.Planning.LocalPlanner.LineIterator

/-!
# The cost of a position

`RobotPositionCost`: the cells under the edges of a footprint are visited one after the other, and
the first obstacle or unknown cell makes the position illegal. A footprint with at least three
vertices is legal exactly when it is in the map and none of its cells is blocked, and its cost is
then the largest one under its edges (`footprintCost_legal`). `World2Map` is a parameter, and a cost
is an `unsigned char` or -1, so that no `double` is rounded.
-/

namespace RoboRTS.Planning

open Costmap

/-- The costmap of `RobotPositionCost`; `α` is the type of a point in the world. -/
structure RobotPositionCost (α : Type*) where
  sizeX : Nat
  costmap : Nat → UInt8
  world2Map : α → Option (Nat × Nat)

namespace RobotPositionCost

open FastLineIterator

variable {α : Type*} (p : RobotPositionCost α)

/-- `GetCost`. -/
def getCost (mx my : Nat) : UInt8 :=
  p.costmap (my * p.sizeX + mx)

/-- A cell that makes a position illegal. -/
def Blocked (cost : UInt8) : Prop :=
  cost = LETHAL_OBSTACLE ∨ cost = NO_INFORMATION

instance (cost : UInt8) : Decidable (Blocked cost) :=
  inferInstanceAs (Decidable (_ ∨ _))

/-- `PointCost`. -/
def pointCost (cell : Int × Int) : Int :=
  let cost := p.getCost cell.1.toNat cell.2.toNat
  if Blocked cost then -1 else cost.toNat

/-- The loop of `LineCost`, with at most `fuel` tests of its condition. -/
def lineLoop : Nat → FastLineIterator → Int → Option Int
  | 0, _, _ => none
  | fuel + 1, line, lineCost =>
      if line.isValid then
        let pointCost := p.pointCost (line.x, line.y)
        if pointCost < 0 then some (-1)
        else
          line.advance.bind fun next =>
            lineLoop fuel next (if lineCost < pointCost then pointCost else lineCost)
      else some lineCost

/-- `LineCost`. -/
def lineCost (x0 x1 y0 y1 : Int) : Option Int :=
  (create x0 y0 x1 y1).bind fun line => p.lineLoop line.visitBound line 0

/-- The edges of a footprint that are left to `FootprintCost`. -/
def edgesCost : List (α × α) → Int → Option Int
  | [], footprintCost => some footprintCost
  | (a, b) :: edges, footprintCost =>
      match p.world2Map a with
      | none => some (-1)
      | some (x0, y0) =>
          match p.world2Map b with
          | none => some (-1)
          | some (x1, y1) => do
              let lineCost ← p.lineCost x0 x1 y0 y1
              let footprintCost := max lineCost footprintCost
              if lineCost < 0 then some (-1) else edgesCost edges footprintCost

/-- The edges in the order of `FootprintCost`: from each vertex to the next, and back to the first
one. -/
def edges (footprint : List α) : List (α × α) :=
  footprint.zip (footprint.drop 1) ++
    match footprint.getLast?, footprint.head? with
    | some back, some front => [(back, front)]
    | _, _ => []

/-- `FootprintCost`. -/
def footprintCost (position : α) (footprint : List α) : Option Int :=
  match p.world2Map position with
  | none => some (-1)
  | some (cellX, cellY) =>
      if footprint.length < 3 then
        let cost := p.getCost cellX cellY
        if Blocked cost then some (-1) else some cost.toNat
      else p.edgesCost (edges footprint) 0

/-! ## Lines -/

/-- The cells that are visited along an edge in the map. -/
def edgeCells (edge : α × α) : List (Int × Int) :=
  match p.world2Map edge.1, p.world2Map edge.2 with
  | some (x0, y0), some (x1, y1) => (lineCells x0 y0 x1 y1).getD []
  | _, _ => []

/-- The cells that are visited along the edges of a footprint. -/
def footprintCells (footprint : List α) : List (Int × Int) :=
  (edges footprint).flatMap p.edgeCells

/-- What the visited cells make of a cost: the largest of the costs, unless a cell is blocked. -/
structure Worst (cells : List (Int × Int)) (before after : Int) : Prop where
  legal : 0 ≤ after ↔ ∀ cell ∈ cells, 0 ≤ p.pointCost cell
  before_le : 0 ≤ after → before ≤ after
  le : 0 ≤ after → ∀ cell ∈ cells, p.pointCost cell ≤ after
  attained : 0 ≤ after → after = before ∨ ∃ cell ∈ cells, p.pointCost cell = after

variable {p} {cells cells' : List (Int × Int)} {before middle after : Int}

theorem Worst.nil (h : 0 ≤ before) : p.Worst [] before before :=
  ⟨iff_of_true h fun _ hcell => absurd hcell List.not_mem_nil, fun _ => le_refl _,
    fun _ _ hcell => absurd hcell List.not_mem_nil, fun _ => Or.inl rfl⟩

/-- A blocked cell. -/
theorem Worst.blocked {cell : Int × Int} (hcell : cell ∈ cells) (h : p.pointCost cell < 0) :
    p.Worst cells before (-1) := by
  have hnot : ¬(0 : Int) ≤ -1 := by decide
  exact ⟨iff_of_false hnot fun hall => absurd (hall cell hcell) (not_le_of_gt h),
    fun h => absurd h hnot, fun h => absurd h hnot, fun h => absurd h hnot⟩

/-- Cells after cells. -/
theorem Worst.append (h : p.Worst cells before middle) (hmiddle : 0 ≤ middle)
    (h' : p.Worst cells' middle after) : p.Worst (cells ++ cells') before after where
  legal := by
    rw [h'.legal]
    refine ⟨fun hall cell hcell => ?_, fun hall cell hcell =>
      hall cell (List.mem_append_right _ hcell)⟩
    exact (List.mem_append.mp hcell).elim (h.legal.mp hmiddle cell) (hall cell)
  before_le := fun hafter => (h.before_le hmiddle).trans (h'.before_le hafter)
  le := by
    intro hafter cell hcell
    rcases List.mem_append.mp hcell with hleft | hright
    · exact (h.le hmiddle cell hleft).trans (h'.before_le hafter)
    · exact h'.le hafter cell hright
  attained := by
    intro hafter
    rcases h'.attained hafter with rfl | ⟨cell, hcell, hcost⟩
    · exact (h.attained hmiddle).imp_right fun ⟨cell, hcell, hcost⟩ =>
        ⟨cell, List.mem_append_left _ hcell, hcost⟩
    · exact Or.inr ⟨cell, List.mem_append_right _ hcell, hcost⟩

/-- One cell that is not blocked. -/
theorem Worst.cell {cell : Int × Int} (h : 0 ≤ p.pointCost cell) :
    p.Worst [cell] before (max before (p.pointCost cell)) where
  legal := by
    refine iff_of_true (h.trans (le_max_right ..)) fun c hc => ?_
    rwa [List.mem_singleton.mp hc]
  before_le := fun _ => le_max_left ..
  le := by
    intro _ c hc
    rw [List.mem_singleton.mp hc]
    exact le_max_right ..
  attained := by
    intro _
    rcases max_choice before (p.pointCost cell) with hmax | hmax
    · exact Or.inl hmax
    · exact Or.inr ⟨cell, List.mem_singleton_self _, hmax.symm⟩

/-- The loop of `LineCost` over the cells that the iterator visits. -/
theorem lineLoop_worst {fuel : Nat} {line : FastLineIterator} (hbefore : 0 ≤ before)
    (hcells : line.visited fuel = some cells) :
    ∃ after, p.lineLoop fuel line before = some after ∧ p.Worst cells before after := by
  induction fuel generalizing line cells before with
  | zero => cases hcells
  | succ fuel ih =>
      unfold visited at hcells
      unfold lineLoop
      by_cases hvalid : line.isValid = true
      case neg =>
        rw [if_neg hvalid] at hcells ⊢
        cases hcells
        exact ⟨before, rfl, Worst.nil hbefore⟩
      rw [if_pos hvalid] at hcells ⊢
      obtain ⟨rest, hrest, rfl⟩ := Option.map_eq_some_iff.mp hcells
      obtain ⟨next, hnext, hrest⟩ := Option.bind_eq_some_iff.mp hrest
      dsimp only
      by_cases hblocked : p.pointCost (line.x, line.y) < 0
      · rw [if_pos hblocked]
        exact ⟨-1, rfl, Worst.blocked List.mem_cons_self hblocked⟩
      · have hcost := Int.not_lt.mp hblocked
        have hmax : (if before < p.pointCost (line.x, line.y) then p.pointCost (line.x, line.y)
            else before) = max before (p.pointCost (line.x, line.y)) := by
          rw [max_def_lt]
        rw [if_neg hblocked, hnext, Option.bind_some, hmax]
        obtain ⟨after, hloop, hworst⟩ := ih (hbefore.trans (le_max_left ..)) hrest
        exact ⟨after, hloop, (Worst.cell hcost).append (hbefore.trans (le_max_left ..)) hworst⟩

/-! ## Footprints -/

/-- A cost before a line that was started from zero. -/
theorem Worst.max (h : p.Worst cells 0 after) (hbefore : 0 ≤ before) (hafter : 0 ≤ after) :
    p.Worst cells before (max after before) where
  legal := iff_of_true (hafter.trans (le_max_left ..)) (h.legal.mp hafter)
  before_le := fun _ => le_max_right ..
  le := fun _ cell hcell => (h.le hafter cell hcell).trans (le_max_left ..)
  attained := by
    intro _
    rcases le_total after before with hle | hle
    · exact Or.inl (max_eq_right hle)
    · rw [max_eq_left hle]
      exact (h.attained hafter).imp_left fun hzero => by omega

/-- The cells of the map are so few that four times a width or height is an `int`. -/
def Small (p : RobotPositionCost α) : Prop :=
  ∀ a cell, p.world2Map a = some cell → cell.1 < 2 ^ 29 ∧ cell.2 < 2 ^ 29

/-- The line iterator goes from any cell of such a map to any other. -/
theorem Small.fits (hsmall : p.Small) {a b : α} {x0 y0 x1 y1 : Nat}
    (ha : p.world2Map a = some (x0, y0)) (hb : p.world2Map b = some (x1, y1)) :
    Fits x0 y0 x1 y1 := by
  obtain ⟨hx0, hy0⟩ := hsmall a _ ha
  obtain ⟨hx1, hy1⟩ := hsmall b _ hb
  dsimp only at hx0 hy0 hx1 hy1
  unfold Fits steps
  omega

/-- The line of an edge in the map. -/
theorem lineCost_worst (hsmall : p.Small) (edge : α × α) {x0 y0 x1 y1 : Nat}
    (ha : p.world2Map edge.1 = some (x0, y0)) (hb : p.world2Map edge.2 = some (x1, y1)) :
    ∃ after, p.lineCost x0 x1 y0 y1 = some after ∧ p.Worst (p.edgeCells edge) 0 after := by
  have hfits := hsmall.fits ha hb
  obtain ⟨cells, hcells, -⟩ := lineCells_line hfits
  have hedge : p.edgeCells edge = cells := by
    unfold edgeCells
    rw [ha, hb]
    dsimp only
    rw [hcells]
    rfl
  rw [hedge, lineCost, create_eq hfits, Option.bind_some]
  exact lineLoop_worst (le_refl 0) (visited_start hfits hcells)

/-- Both ends are in the map. -/
def EdgeInMap (p : RobotPositionCost α) (edge : α × α) : Prop :=
  (∃ cell, p.world2Map edge.1 = some cell) ∧ ∃ cell, p.world2Map edge.2 = some cell

/-- The edges of a footprint one after the other. -/
theorem edgesCost_worst (hsmall : p.Small) (edges : List (α × α)) (hbefore : 0 ≤ before) :
    ∃ after, p.edgesCost edges before = some after ∧
      ((∀ edge ∈ edges, p.EdgeInMap edge) → p.Worst (edges.flatMap p.edgeCells) before after) ∧
      ((¬∀ edge ∈ edges, p.EdgeInMap edge) → after = -1) := by
  induction edges generalizing before with
  | nil =>
      exact ⟨before, rfl, fun _ => Worst.nil hbefore,
        fun hout => absurd (fun edge hedge => absurd hedge List.not_mem_nil) hout⟩
  | cons edge edges ih =>
      have houtside : ¬p.EdgeInMap edge →
          (∀ edge' ∈ edge :: edges, p.EdgeInMap edge') →
          p.Worst ((edge :: edges).flatMap p.edgeCells) before (-1) :=
        fun hout hall => absurd (hall edge List.mem_cons_self) hout
      obtain ⟨a, b⟩ := edge
      unfold edgesCost
      cases ha : p.world2Map a with
      | none => exact ⟨-1, rfl, houtside fun h => by simp [EdgeInMap, ha] at h, fun _ => rfl⟩
      | some cellA =>
          obtain ⟨x0, y0⟩ := cellA
          cases hb : p.world2Map b with
          | none => exact ⟨-1, rfl, houtside fun h => by simp [EdgeInMap, hb] at h, fun _ => rfl⟩
          | some cellB =>
              obtain ⟨x1, y1⟩ := cellB
              obtain ⟨line, hline, hworst⟩ := lineCost_worst hsmall (a, b) ha hb
              dsimp only
              rw [hline, Option.bind_eq_bind, Option.bind_some]
              rw [List.flatMap_cons]
              by_cases hblocked : line < 0
              · rw [if_pos hblocked]
                refine ⟨-1, rfl, fun _ => ?_, fun _ => rfl⟩
                have hsome : ∃ cell ∈ p.edgeCells (a, b), p.pointCost cell < 0 := by
                  by_contra hnone
                  push Not at hnone
                  exact absurd (hworst.legal.mpr hnone) (not_le_of_gt hblocked)
                obtain ⟨cell, hcell, hcost⟩ := hsome
                exact Worst.blocked (List.mem_append_left _ hcell) hcost
              · have hlegal := Int.not_lt.mp hblocked
                obtain ⟨after, hrest, hinside, hout⟩ := ih (hbefore.trans (le_max_right line before))
                rw [if_neg hblocked]
                refine ⟨after, hrest, fun hall => ?_, fun hnot => hout fun hall => hnot ?_⟩
                · exact (hworst.max hbefore hlegal).append (hbefore.trans (le_max_right ..))
                    (hinside fun edge hedge => hall edge (List.mem_cons_of_mem _ hedge))
                · exact List.forall_mem_cons.mpr ⟨⟨⟨_, ha⟩, _, hb⟩, hall⟩

/-- An edge joins vertices. -/
theorem vertices_of_mem_edges {footprint : List α} {edge : α × α} (h : edge ∈ edges footprint) :
    edge.1 ∈ footprint ∧ edge.2 ∈ footprint := by
  rcases List.mem_append.mp h with hzip | hclosing
  · obtain ⟨hfrom, hto⟩ := List.of_mem_zip hzip
    exact ⟨hfrom, List.mem_of_mem_drop hto⟩
  · cases hback : footprint.getLast? with
    | none =>
        rw [hback] at hclosing
        exact absurd hclosing List.not_mem_nil
    | some back =>
        cases hfront : footprint.head? with
        | none =>
            rw [hback, hfront] at hclosing
            exact absurd hclosing List.not_mem_nil
        | some front =>
            rw [hback, hfront] at hclosing
            rw [List.mem_singleton.mp hclosing]
            exact ⟨List.mem_of_getLast? hback, List.mem_of_head? hfront⟩

/-- An edge leaves every vertex. -/
theorem exists_mem_edges {footprint : List α} {v : α} (hv : v ∈ footprint) :
    ∃ edge ∈ edges footprint, edge.1 = v := by
  obtain ⟨i, hi, rfl⟩ := List.getElem_of_mem hv
  by_cases hnext : i + 1 < footprint.length
  · refine ⟨(footprint[i], footprint[i + 1]), List.mem_append_left _ ?_, rfl⟩
    have hzip : i < (footprint.zip (footprint.drop 1)).length := by
      rw [List.length_zip, List.length_drop]
      omega
    have hpair : (footprint.zip (footprint.drop 1))[i] = (footprint[i], footprint[i + 1]) := by
      rw [List.getElem_zip, List.getElem_drop]
      simp only [Nat.add_comm 1 i]
    exact hpair ▸ List.getElem_mem hzip
  · have hne : footprint ≠ [] := List.ne_nil_of_mem hv
    have hback : footprint.getLast? = some footprint[i] := by
      rw [List.getLast?_eq_getElem?, show footprint.length - 1 = i by omega]
      exact List.getElem?_eq_getElem hi
    obtain ⟨front, hfront⟩ : ∃ front, footprint.head? = some front :=
      ⟨_, List.head?_eq_some_head hne⟩
    refine ⟨(footprint[i], front), List.mem_append_right _ ?_, rfl⟩
    rw [hback, hfront]
    exact List.mem_singleton_self _

/-- Every edge is in the map when every vertex is. -/
theorem forall_edgeInMap {footprint : List α} :
    (∀ edge ∈ edges footprint, p.EdgeInMap edge) ↔
      ∀ v ∈ footprint, ∃ cell, p.world2Map v = some cell := by
  constructor
  · intro h v hv
    obtain ⟨edge, hedge, rfl⟩ := exists_mem_edges hv
    exact (h edge hedge).1
  · intro h edge hedge
    obtain ⟨hfrom, hto⟩ := vertices_of_mem_edges hedge
    exact ⟨h _ hfrom, h _ hto⟩

/-- A cell is visited along an edge in the map. -/
theorem edgeCells_ne_nil (hsmall : p.Small) {edge : α × α} (h : p.EdgeInMap edge) : p.edgeCells edge ≠ [] := by
  obtain ⟨⟨⟨x0, y0⟩, ha⟩, ⟨x1, y1⟩, hb⟩ := h
  obtain ⟨cells, hcells, hlength, -⟩ := lineCells_line (hsmall.fits ha hb)
  unfold edgeCells
  rw [ha, hb]
  dsimp only
  rw [hcells]
  exact List.ne_nil_of_length_pos (by rw [Option.getD_some, hlength]; exact Nat.succ_pos _)

/-- What is visited lies in the map if `World2Map` gives cells of the map. -/
theorem footprintCells_inMap (hsmall : p.Small) {sizeY : Nat}
    (hmap : ∀ a cell, p.world2Map a = some cell → cell.1 < p.sizeX ∧ cell.2 < sizeY)
    (footprint : List α) :
    ∀ cell ∈ p.footprintCells footprint,
      (0 ≤ cell.1 ∧ cell.1 < p.sizeX) ∧ 0 ≤ cell.2 ∧ cell.2 < sizeY := by
  intro cell hcell
  obtain ⟨edge, -, hcell⟩ := List.mem_flatMap.mp hcell
  unfold edgeCells at hcell
  split at hcell
  · next x0 y0 x1 y1 ha hb =>
      obtain ⟨hx0, hy0⟩ := hmap _ _ ha
      obtain ⟨hx1, hy1⟩ := hmap _ _ hb
      obtain ⟨cells, hcells, -, -, -, -, hbox⟩ := lineCells_line (hsmall.fits ha hb)
      rw [hcells] at hcell
      obtain ⟨hx, hy⟩ := hbox cell hcell
      dsimp only at hx0 hy0 hx1 hy1
      omega
  · exact absurd hcell List.not_mem_nil

/-- The cost of a cell that is not blocked. -/
theorem pointCost_cases (cell : Int × Int) :
    (0 ≤ p.pointCost cell ↔ ¬Blocked (p.getCost cell.1.toNat cell.2.toNat)) ∧
      (0 ≤ p.pointCost cell → p.pointCost cell = (p.getCost cell.1.toNat cell.2.toNat).toNat) := by
  unfold pointCost
  dsimp only
  split
  · next hblocked => exact ⟨iff_of_false (by decide) fun h => h hblocked, fun h => absurd h (by decide)⟩
  · next hfree => exact ⟨iff_of_true (Int.natCast_nonneg _) hfree, fun _ => rfl⟩

/-- A footprint of at least three vertices is legal exactly when it is in the map and no cell that
is visited along its edges is blocked; its cost is then the largest one that is visited. Along an
edge the cells from its first to its last one are visited, each next to the one before. -/
theorem footprintCost_legal (p : RobotPositionCost α) (position : α) (footprint : List α)
    (hsmall : p.Small) (hsize : 3 ≤ footprint.length) :
    (∃ value, p.footprintCost position footprint = some value ∧
      (0 ≤ value ↔ (∃ cell, p.world2Map position = some cell) ∧
        (∀ v ∈ footprint, ∃ cell, p.world2Map v = some cell) ∧
        ∀ cell ∈ p.footprintCells footprint,
          ¬Blocked (p.getCost cell.1.toNat cell.2.toNat)) ∧
      (0 ≤ value →
        (∀ cell ∈ p.footprintCells footprint,
          ((p.getCost cell.1.toNat cell.2.toNat).toNat : Int) ≤ value) ∧
        ∃ cell ∈ p.footprintCells footprint,
          ((p.getCost cell.1.toNat cell.2.toNat).toNat : Int) = value)) ∧
    ∀ x0 y0 x1 y1 : Int, Fits x0 y0 x1 y1 → ∃ cells, lineCells x0 y0 x1 y1 = some cells ∧
      cells.length = max (x1 - x0).natAbs (y1 - y0).natAbs + 1 ∧
      cells.head? = some (x0, y0) ∧ cells.getLast? = some (x1, y1) ∧
      cells.IsChain EightNeighbours ∧ ∀ cell ∈ cells, InBox x0 y0 x1 y1 cell := by
  refine ⟨?_, fun x0 y0 x1 y1 => lineCells_line⟩
  unfold footprintCost
  cases hposition : p.world2Map position with
  | none =>
      refine ⟨-1, rfl, iff_of_false (by decide) ?_, fun h => absurd h (by decide)⟩
      rintro ⟨⟨cell, hcell⟩, -⟩
      cases hcell
  | some cell =>
      obtain ⟨after, hcost, hinside, hout⟩ :=
        edgesCost_worst hsmall (edges footprint) (le_refl (0 : Int))
      dsimp only
      rw [if_neg (by omega), hcost]
      by_cases hvertices : ∀ v ∈ footprint, ∃ cell, p.world2Map v = some cell
      case neg =>
        rw [← forall_edgeInMap] at hvertices
        rw [hout hvertices]
        refine ⟨-1, rfl, iff_of_false (by decide) ?_, fun h => absurd h (by decide)⟩
        rintro ⟨-, hall, -⟩
        exact hvertices (forall_edgeInMap.mpr hall)
      have hworst := hinside (forall_edgeInMap.mpr hvertices)
      have hcells : ∀ cell ∈ p.footprintCells footprint, 0 ≤ after →
          p.pointCost cell = (p.getCost cell.1.toNat cell.2.toNat).toNat :=
        fun cell hcell hafter => (pointCost_cases cell).2 (hworst.legal.mp hafter cell hcell)
      refine ⟨after, rfl, ?_, fun hafter => ⟨fun cell hcell => ?_, ?_⟩⟩
      · rw [hworst.legal]
        constructor
        · exact fun hall => ⟨⟨cell, rfl⟩, hvertices,
            fun cell hcell => (pointCost_cases cell).1.mp (hall cell hcell)⟩
        · rintro ⟨-, -, hfree⟩ cell hcell
          exact (pointCost_cases cell).1.mpr (hfree cell hcell)
      · rw [← hcells cell hcell hafter]
        exact hworst.le hafter cell hcell
      · rcases hworst.attained hafter with hzero | ⟨cell, hcell, hcost⟩
        · -- all visited cells cost nothing, and there is one
          obtain ⟨v, hv⟩ := List.exists_mem_of_length_pos (by omega : 0 < footprint.length)
          obtain ⟨edge, hedge, -⟩ := exists_mem_edges hv
          obtain ⟨cell, hcell⟩ := List.exists_mem_of_ne_nil _
            (edgeCells_ne_nil hsmall (forall_edgeInMap.mpr hvertices edge hedge))
          have hmem : cell ∈ p.footprintCells footprint := List.mem_flatMap.mpr ⟨edge, hedge, hcell⟩
          have hle := hworst.le hafter cell hmem
          have hnonneg := hworst.legal.mp hafter cell hmem
          refine ⟨cell, hmem, ?_⟩
          rw [← hcells cell hmem hafter]
          omega
        · exact ⟨cell, hcell, by rw [← hcells cell hcell hafter, hcost]⟩

/-- A map of four columns with one costly cell, whose points are its cells. -/
def costlyMap : RobotPositionCost (Nat × Nat) where
  sizeX := 4
  costmap := fun i => if i = 5 then 100 else FREE_SPACE
  world2Map := fun cell => if cell.1 < 4 ∧ cell.2 < 4 then some cell else none

theorem costlyMap_small : costlyMap.Small := by
  intro a cell hcell
  obtain ⟨hlt, hsame⟩ := Option.ite_none_right_eq_some.mp hcell
  cases hsame
  omega

/-- A triangle around the costly cell. -/
theorem footprintCost_legal_triangle :
    (∃ value, costlyMap.footprintCost (1, 1) [(0, 0), (3, 1), (1, 3)] = some value ∧
      (0 ≤ value ↔ (∃ cell, costlyMap.world2Map (1, 1) = some cell) ∧
        (∀ v ∈ [(0, 0), (3, 1), (1, 3)], ∃ cell, costlyMap.world2Map v = some cell) ∧
        ∀ cell ∈ costlyMap.footprintCells [(0, 0), (3, 1), (1, 3)],
          ¬Blocked (costlyMap.getCost cell.1.toNat cell.2.toNat)) ∧
      (0 ≤ value →
        (∀ cell ∈ costlyMap.footprintCells [(0, 0), (3, 1), (1, 3)],
          ((costlyMap.getCost cell.1.toNat cell.2.toNat).toNat : Int) ≤ value) ∧
        ∃ cell ∈ costlyMap.footprintCells [(0, 0), (3, 1), (1, 3)],
          ((costlyMap.getCost cell.1.toNat cell.2.toNat).toNat : Int) = value)) ∧
    ∃ cells, lineCells 0 0 3 1 = some cells ∧
      cells.length = max (3 - 0 : Int).natAbs (1 - 0 : Int).natAbs + 1 ∧
      cells.head? = some (0, 0) ∧ cells.getLast? = some (3, 1) ∧
      cells.IsChain EightNeighbours ∧ ∀ cell ∈ cells, InBox 0 0 3 1 cell := by
  obtain ⟨hlegal, hlines⟩ := footprintCost_legal costlyMap (1, 1) [(0, 0), (3, 1), (1, 3)]
    costlyMap_small (by decide)
  exact ⟨hlegal, hlines 0 0 3 1 (by decide)⟩

end RobotPositionCost

end RoboRTS.Planning
