import RoboRTS.Costmap.InflationLayer.Defs
import Mathlib.Data.Finset.Card
import Mathlib.Order.Interval.Finset.Nat

/-!
# Inflation and the nearest obstacles

The wavefront of `UpdateCosts` carries one lethal cell from each cell to its neighbours and keeps
the first one that gets there. Where every cell has a nearer neighbour that can only pass on a
nearest lethal cell, the result is that of computing the distance to every lethal cell
(`updateCosts_inflated`).
-/

namespace RoboRTS.Costmap.InflationLayer

open NearestSite

variable (l : InflationLayer)

/-- The cells of the master grid. -/
def InGrid (c : Cell) : Prop :=
  c.1 < l.sizeX ∧ c.2 < l.sizeY

/-- The lethal cells of a master grid. -/
def Lethal (masterArray : Nat → UInt8) (c : Cell) : Prop :=
  l.InGrid c ∧ masterArray (l.getIndex c.1 c.2) = LETHAL_OBSTACLE

/-- The square of the inflation radius. -/
def sqRadius : Nat :=
  l.cellInflationRadius * l.cellInflationRadius

/-- Inflation by brute force: a cell within the radius of a lethal cell gets the cost of its
distance to a nearest one, every other cell keeps its cost. -/
structure Inflated (masterArray result : Nat → UInt8) : Prop where
  near : ∀ c s, l.InGrid c → IsNearest (l.Lethal masterArray) c s → sqDist c s ≤ l.sqRadius →
    result (l.getIndex c.1 c.2) =
      merge (masterArray (l.getIndex c.1 c.2)) (l.cost (sqDist c s))
  far : ∀ c, l.InGrid c → ¬ Within (l.Lethal masterArray) l.sqRadius c →
    result (l.getIndex c.1 c.2) = masterArray (l.getIndex c.1 c.2)

/-- Every cell to inflate has a nearer neighbour whose nearest lethal cells are all nearest to it
as well. -/
def Passable (masterArray : Nat → UInt8) : Prop :=
  ∀ c, l.InGrid c → ¬ l.Lethal masterArray c → Within (l.Lethal masterArray) l.sqRadius c →
    ∃ n, l.InGrid n ∧ Closer (l.Lethal masterArray) n c ∧ Passes (l.Lethal masterArray) n c

/-- The entry for cell `n` with the source `s`. -/
def offer (n s : Cell) : CellData :=
  ⟨l.getIndex n.1 n.2, n.1, n.2, s.1, s.2⟩

variable {l} {w : Wave} {masterArray : Nat → UInt8}

theorem getIndex_lt {c : Cell} (hc : l.InGrid c) : l.getIndex c.1 c.2 < l.sizeX * l.sizeY := by
  rw [getIndex, Nat.add_comm]
  exact index_lt hc.1 hc.2

/-- A cell is determined by its index. -/
theorem getIndex_inj {c c' : Cell} (hc : l.InGrid c) (hc' : l.InGrid c')
    (h : l.getIndex c.1 c.2 = l.getIndex c'.1 c'.2) : c = c' := by
  rw [getIndex, getIndex, Nat.add_comm, Nat.add_comm (c'.2 * l.sizeX)] at h
  exact eq_of_index hc.1 hc'.1 h

/-! ## What a visit puts on the list -/

section Enqueue

variable {index mx my srcX srcY : Nat}

@[simp] theorem enqueue_seen : (l.enqueue index mx my srcX srcY w).seen = w.seen := by
  unfold enqueue
  split
  · rfl
  · dsimp only
    split <;> rfl

@[simp] theorem enqueue_masterArray :
    (l.enqueue index mx my srcX srcY w).masterArray = w.masterArray := by
  unfold enqueue
  split
  · rfl
  · dsimp only
    split <;> rfl

theorem mem_enqueue {d : Nat} {cell : CellData} :
    cell ∈ (l.enqueue index mx my srcX srcY w).inflationCells d ↔
      cell ∈ w.inflationCells d ∨ (cell = ⟨index, mx, my, srcX, srcY⟩ ∧
        d = sqDist (mx, my) (srcX, srcY) ∧ w.seen index = false ∧ d ≤ l.sqRadius) := by
  unfold enqueue sqRadius
  by_cases hseen : w.seen index = true
  · simp [hseen]
  rw [if_neg hseen]
  dsimp only
  by_cases hfar : sqDist (mx, my) (srcX, srcY) > l.cellInflationRadius * l.cellInflationRadius
  · rw [if_pos hfar]
    constructor
    · exact Or.inl
    · rintro (hold | ⟨-, rfl, -, hle⟩)
      · exact hold
      · omega
  · rw [if_neg hfar]
    dsimp only
    by_cases hd : d = sqDist (mx, my) (srcX, srcY)
    · subst hd
      rw [Function.update_self, List.mem_append, List.mem_singleton]
      simp only [Bool.not_eq_true] at hseen
      simp only [hseen, Nat.le_of_not_lt hfar, and_true]
    · rw [Function.update_of_ne hd]
      simp only [hd, false_and, and_false, or_false]

theorem length_enqueue (d : Nat) :
    ((l.enqueue index mx my srcX srcY w).inflationCells d).length ≤
      (w.inflationCells d).length + 1 := by
  unfold enqueue
  split
  · omega
  · dsimp only
    split
    · omega
    · dsimp only
      by_cases hd : d = sqDist (mx, my) (srcX, srcY)
      · subst hd
        rw [Function.update_self, List.length_append, List.length_singleton]
      · rw [Function.update_of_ne hd]
        omega

/-- An enqueue that one of the bounds of the grid guards. -/
theorem mem_enqueue_ite {p : Prop} [Decidable p] {d : Nat} {cell : CellData} :
    cell ∈ (if p then l.enqueue index mx my srcX srcY w else w).inflationCells d ↔
      cell ∈ w.inflationCells d ∨ (p ∧ cell = ⟨index, mx, my, srcX, srcY⟩ ∧
        d = sqDist (mx, my) (srcX, srcY) ∧ w.seen index = false ∧ d ≤ l.sqRadius) := by
  split
  case isTrue hp => simp only [mem_enqueue, hp, true_and]
  case isFalse hp => simp only [hp, false_and, or_false]

@[simp] theorem enqueue_ite_seen {p : Prop} [Decidable p] :
    (if p then l.enqueue index mx my srcX srcY w else w).seen = w.seen := by
  split <;> simp

@[simp] theorem enqueue_ite_masterArray {p : Prop} [Decidable p] :
    (if p then l.enqueue index mx my srcX srcY w else w).masterArray = w.masterArray := by
  split <;> simp

theorem inflationCells_enqueue_ite {p : Prop} [Decidable p] {d : Nat}
    (hne : p → d ≠ sqDist (mx, my) (srcX, srcY)) :
    (if p then l.enqueue index mx my srcX srcY w else w).inflationCells d = w.inflationCells d := by
  split
  case isFalse => rfl
  case isTrue hp =>
    unfold enqueue
    split
    · rfl
    · dsimp only
      split
      · rfl
      · exact Function.update_of_ne (hne hp) ..

theorem length_enqueue_ite {p : Prop} [Decidable p] (d : Nat) :
    ((if p then l.enqueue index mx my srcX srcY w else w).inflationCells d).length ≤
      (w.inflationCells d).length + 1 := by
  split
  · exact length_enqueue d
  · omega

end Enqueue

/-- An entry for a cell of the grid at distance `d` from its source, a lethal cell. -/
structure ValidCell (l : InflationLayer) (masterArray : Nat → UInt8) (d : Nat) (cell : CellData) :
    Prop where
  index : cell.index = l.getIndex cell.x cell.y
  inGrid : l.InGrid (cell.x, cell.y)
  source : l.Lethal masterArray (cell.srcX, cell.srcY)
  distance : sqDist (cell.x, cell.y) (cell.srcX, cell.srcY) = d
  le : d ≤ l.sqRadius

theorem visit_of_seen {cell : CellData} (h : w.seen cell.index = true) : l.visit w cell = w := by
  rw [visit, if_pos h]

/-- A visit marks its cell and gives it its cost. -/
theorem visit_fields {cell : CellData} (h : w.seen cell.index = false) :
    (l.visit w cell).seen = Function.update w.seen cell.index true ∧
    (l.visit w cell).masterArray = Function.update w.masterArray cell.index
      (merge (w.masterArray cell.index)
        (l.cost (sqDist (cell.x, cell.y) (cell.srcX, cell.srcY)))) := by
  rw [visit, if_neg (by rw [h]; decide)]
  dsimp only
  simp only [enqueue_ite_seen, enqueue_ite_masterArray, and_self]

/-- A visit offers the source of its cell to the unseen neighbours within the radius, and nothing
else. -/
theorem mem_visit {d k : Nat} {cell x : CellData} (hcell : ValidCell l masterArray d cell)
    (h : w.seen cell.index = false) :
    x ∈ (l.visit w cell).inflationCells k ↔ x ∈ w.inflationCells k ∨
      ∃ n, l.InGrid n ∧ Adjacent (cell.x, cell.y) n ∧ x = l.offer n (cell.srcX, cell.srcY) ∧
        k = sqDist n (cell.srcX, cell.srcY) ∧
        Function.update w.seen cell.index true (l.getIndex n.1 n.2) = false ∧ k ≤ l.sqRadius := by
  have hindex := hcell.index
  obtain ⟨hx, hy⟩ := hcell.inGrid
  dsimp only at hx hy
  have hleft : cell.x > 0 → cell.index - 1 = l.getIndex (cell.x - 1) cell.y := by
    intro hpos
    rw [hindex, getIndex, getIndex]
    omega
  have hup : cell.y > 0 → cell.index - l.sizeX = l.getIndex cell.x (cell.y - 1) := by
    intro hpos
    have hrow : cell.y * l.sizeX = (cell.y - 1) * l.sizeX + l.sizeX := by
      rw [← Nat.add_one_mul, Nat.sub_add_cancel hpos]
    rw [hindex, getIndex, getIndex, hrow]
    omega
  have hright : cell.index + 1 = l.getIndex (cell.x + 1) cell.y := by
    rw [hindex, getIndex, getIndex]
    omega
  have hdown : cell.index + l.sizeX = l.getIndex cell.x (cell.y + 1) := by
    rw [hindex, getIndex, getIndex, Nat.add_one_mul]
    omega
  rw [visit, if_neg (by rw [h]; decide)]
  dsimp only
  simp only [mem_enqueue_ite, enqueue_ite_seen, or_assoc]
  refine or_congr Iff.rfl ⟨?_, ?_⟩
  · rintro (⟨hpos, rfl, rfl, hseen, hle⟩ | ⟨hpos, rfl, rfl, hseen, hle⟩ |
      ⟨hlt, rfl, rfl, hseen, hle⟩ | ⟨hlt, rfl, rfl, hseen, hle⟩)
    · rw [hleft hpos] at hseen
      exact ⟨(cell.x - 1, cell.y), ⟨by dsimp only; omega, hy⟩,
        Or.inl ⟨rfl, Or.inr (Nat.sub_add_cancel hpos)⟩, by rw [offer, hleft hpos], rfl, hseen, hle⟩
    · rw [hup hpos] at hseen
      exact ⟨(cell.x, cell.y - 1), ⟨hx, by dsimp only; omega⟩,
        Or.inr ⟨rfl, Or.inr (Nat.sub_add_cancel hpos)⟩, by rw [offer, hup hpos], rfl, hseen, hle⟩
    · rw [hright] at hseen
      exact ⟨(cell.x + 1, cell.y), ⟨by dsimp only; omega, hy⟩, Or.inl ⟨rfl, Or.inl rfl⟩,
        by rw [offer, hright], rfl, hseen, hle⟩
    · rw [hdown] at hseen
      exact ⟨(cell.x, cell.y + 1), ⟨hx, by dsimp only; omega⟩, Or.inr ⟨rfl, Or.inl rfl⟩,
        by rw [offer, hdown], rfl, hseen, hle⟩
  · rintro ⟨⟨nx, ny⟩, ⟨hnx, hny⟩, hadj, rfl, rfl, hseen, hle⟩
    dsimp only at hnx hny hseen
    rcases hadj with ⟨hrow, hcol | hcol⟩ | ⟨hcol, hrow | hrow⟩ <;> dsimp only at hrow hcol
    · subst hrow
      subst hcol
      refine Or.inr (Or.inr (Or.inl ⟨by omega, ?_, rfl, by rw [hright]; exact hseen, hle⟩))
      rw [offer, hright]
    · subst hrow
      obtain rfl : nx = cell.x - 1 := by omega
      refine Or.inl ⟨by omega, ?_, rfl, by rw [hleft (by omega)]; exact hseen, hle⟩
      rw [offer, hleft (by omega)]
    · subst hrow
      subst hcol
      refine Or.inr (Or.inr (Or.inr ⟨by omega, ?_, rfl, by rw [hdown]; exact hseen, hle⟩))
      rw [offer, hdown]
    · subst hcol
      obtain rfl : ny = cell.y - 1 := by omega
      refine Or.inr (Or.inl ⟨by omega, ?_, rfl, by rw [hup (by omega)]; exact hseen, hle⟩)
      rw [offer, hup (by omega)]

/-- Visiting a valid entry only adds valid entries. -/
theorem valid_visit {k : Nat} {cell : CellData}
    (hvalid : ∀ d, ∀ x ∈ w.inflationCells d, ValidCell l masterArray d x)
    (hcell : ValidCell l masterArray k cell) (h : w.seen cell.index = false) (d : Nat) :
    ∀ x ∈ (l.visit w cell).inflationCells d, ValidCell l masterArray d x := by
  intro x hx
  rcases (mem_visit hcell h).mp hx with hold | ⟨n, hn, -, rfl, rfl, -, hle⟩
  · exact hvalid d x hold
  · exact ⟨rfl, hn, hcell.source, rfl, hle⟩

theorem length_visit (cell : CellData) (d : Nat) :
    ((l.visit w cell).inflationCells d).length ≤ (w.inflationCells d).length + 4 := by
  unfold visit
  split
  · omega
  · dsimp only
    refine (length_enqueue_ite d).trans ?_
    refine (Nat.add_le_add_right (length_enqueue_ite d) 1).trans ?_
    refine (Nat.add_le_add_right (Nat.add_le_add_right (length_enqueue_ite d) 1) 1).trans ?_
    exact Nat.add_le_add_right (Nat.add_le_add_right
      (Nat.add_le_add_right (length_enqueue_ite d) 1) 1) 1

/-! ## The invariant of the loops -/

/-- The cells that have been visited. -/
def seenCells (l : InflationLayer) (w : Wave) : Finset Nat :=
  (Finset.range (l.sizeX * l.sizeY)).filter fun i => w.seen i = true

/-- The source `s` has reached cell `n`, unless `n` has been visited. -/
def Offered (l : InflationLayer) (w : Wave) (n s : Cell) : Prop :=
  w.seen (l.getIndex n.1 n.2) = true ∨ l.offer n s ∈ w.inflationCells (sqDist n s)

/-- Cell `c` has been visited from a nearest lethal cell, which it has passed on. -/
structure Visited (l : InflationLayer) (masterArray : Nat → UInt8) (w : Wave) (c s : Cell) :
    Prop where
  nearest : IsNearest (l.Lethal masterArray) c s
  le : sqDist c s ≤ l.sqRadius
  cost : w.masterArray (l.getIndex c.1 c.2) =
    merge (masterArray (l.getIndex c.1 c.2)) (l.cost (sqDist c s))
  offered : ∀ n, l.InGrid n → Adjacent c n → sqDist n s ≤ l.sqRadius → l.Offered w n s

/-- What holds when the distances below `k` have been processed. -/
structure WaveInv (l : InflationLayer) (masterArray : Nat → UInt8) (k : Nat) (w : Wave) : Prop where
  valid : ∀ d, ∀ cell ∈ w.inflationCells d, ValidCell l masterArray d cell
  start : ∀ c, l.Lethal masterArray c → l.Offered w c c
  unseen : ∀ c, l.InGrid c → w.seen (l.getIndex c.1 c.2) = false →
    w.masterArray (l.getIndex c.1 c.2) = masterArray (l.getIndex c.1 c.2)
  visited : ∀ c, l.InGrid c → w.seen (l.getIndex c.1 c.2) = true → ∃ s, Visited l masterArray w c s
  settled : ∀ c s, l.InGrid c → l.Lethal masterArray s → sqDist c s < k →
    sqDist c s ≤ l.sqRadius → w.seen (l.getIndex c.1 c.2) = true
  length_le : ∀ d, (w.inflationCells d).length ≤ l.sizeX * l.sizeY + 4 * (l.seenCells w).card

variable {k : Nat} {cell : CellData}

/-- A list of cells never gets longer than `binBound` allows. -/
theorem WaveInv.length_lt (h : WaveInv l masterArray k w) (d : Nat) :
    (w.inflationCells d).length < l.binBound := by
  have hlen := h.length_le d
  have hcard : (l.seenCells w).card ≤ l.sizeX * l.sizeY := by
    refine (Finset.card_le_card (Finset.filter_subset _ _)).trans ?_
    rw [Finset.card_range]
  unfold binBound
  omega

/-- A visit leaves what has been offered. -/
theorem Offered.visit {d : Nat} (hcell : ValidCell l masterArray d cell)
    (hunseen : w.seen cell.index = false) {n s : Cell} (h : l.Offered w n s) :
    l.Offered (l.visit w cell) n s := by
  rcases h with hseen | hmem
  · left
    rw [(visit_fields hunseen).1]
    by_cases heq : l.getIndex n.1 n.2 = cell.index
    · rw [heq, Function.update_self]
    · rw [Function.update_of_ne heq, hseen]
  · exact Or.inr ((mem_visit hcell hunseen).mpr (Or.inl hmem))

/-- The visited cell passes its source on. -/
theorem offered_visit {d : Nat} (hcell : ValidCell l masterArray d cell)
    (hunseen : w.seen cell.index = false) {n : Cell} (hn : l.InGrid n)
    (hadj : Adjacent (cell.x, cell.y) n) (hle : sqDist n (cell.srcX, cell.srcY) ≤ l.sqRadius) :
    l.Offered (l.visit w cell) n (cell.srcX, cell.srcY) := by
  cases hseen : (l.visit w cell).seen (l.getIndex n.1 n.2) with
  | true => exact Or.inl hseen
  | false =>
      rw [(visit_fields hunseen).1] at hseen
      exact Or.inr ((mem_visit hcell hunseen).mpr
        (Or.inr ⟨n, hn, hadj, rfl, rfl, hseen, hle⟩))

/-- Visiting the next cell of the current distance keeps the invariant: no lethal cell is nearer to
it than its source, because every cell with a smaller distance has been visited. -/
theorem WaveInv.visit (h : WaveInv l masterArray k w) (hcell : ValidCell l masterArray k cell)
    (hunseen : w.seen cell.index = false) : WaveInv l masterArray k (l.visit w cell) := by
  obtain ⟨hseen', hmaster'⟩ := visit_fields (l := l) hunseen
  have hother : ∀ c, l.InGrid c → c ≠ (cell.x, cell.y) → l.getIndex c.1 c.2 ≠ cell.index := by
    intro c hc hne heq
    rw [hcell.index] at heq
    exact hne (getIndex_inj hc hcell.inGrid heq)
  have hseenMono : ∀ i, w.seen i = true → (l.visit w cell).seen i = true := by
    intro i hi
    rw [hseen']
    by_cases heq : i = cell.index
    · rw [heq, Function.update_self]
    · rw [Function.update_of_ne heq, hi]
  refine ⟨valid_visit h.valid hcell hunseen, fun c hc => (h.start c hc).visit hcell hunseen,
    ?_, ?_, ?_, ?_⟩
  · intro c hc hfalse
    rw [hseen'] at hfalse
    have hne : l.getIndex c.1 c.2 ≠ cell.index := by
      intro heq
      rw [heq, Function.update_self] at hfalse
      cases hfalse
    rw [Function.update_of_ne hne] at hfalse
    rw [hmaster', Function.update_of_ne hne]
    exact h.unseen c hc hfalse
  · intro c hc htrue
    by_cases hcc : c = (cell.x, cell.y)
    · subst hcc
      refine ⟨(cell.srcX, cell.srcY), ⟨hcell.source, ?_⟩, by rw [hcell.distance]; exact hcell.le, ?_,
        fun n hn hadj hle => offered_visit hcell hunseen hn hadj hle⟩
      · intro t ht
        by_contra hlt
        rw [Nat.not_le, hcell.distance] at hlt
        have hsettled := h.settled _ t hc ht hlt (by have := hcell.le; omega)
        rw [← hcell.index, hunseen] at hsettled
        cases hsettled
      · rw [hmaster', hcell.index, Function.update_self,
          h.unseen _ hc (by rw [← hcell.index]; exact hunseen)]
    · have hne := hother c hc hcc
      rw [hseen', Function.update_of_ne hne] at htrue
      obtain ⟨s, hs⟩ := h.visited c hc htrue
      refine ⟨s, hs.nearest, hs.le, ?_, fun n hn hadj hle =>
        (hs.offered n hn hadj hle).visit hcell hunseen⟩
      rw [hmaster', Function.update_of_ne hne]
      exact hs.cost
  · intro c s hc hs hlt hle
    exact hseenMono _ (h.settled c s hc hs hlt hle)
  · intro d
    have hlen := (length_visit (l := l) (w := w) cell d).trans
      (Nat.add_le_add_right (h.length_le d) 4)
    have hnew : l.seenCells (l.visit w cell) = insert cell.index (l.seenCells w) := by
      ext i
      simp only [seenCells, Finset.mem_filter, Finset.mem_range, Finset.mem_insert, hseen']
      by_cases heq : i = cell.index
      · subst heq
        have hlt := getIndex_lt hcell.inGrid
        rw [← hcell.index] at hlt
        simp [hlt]
      · simp [heq]
    rw [hnew, Finset.card_insert_of_notMem (by simp [seenCells, hunseen])]
    omega

/-! ## Processing a distance -/

/-- Visiting a cell of distance `k` adds nothing to that distance. -/
theorem inflationCells_visit (hdist : sqDist (cell.x, cell.y) (cell.srcX, cell.srcY) = k) :
    (l.visit w cell).inflationCells k = w.inflationCells k := by
  have hne : ∀ n, Adjacent (cell.x, cell.y) n → k ≠ sqDist n (cell.srcX, cell.srcY) := by
    intro n hadj heq
    exact hadj.sqDist_ne (cell.srcX, cell.srcY) (hdist.trans heq)
  unfold visit
  split
  · rfl
  · dsimp only
    rw [inflationCells_enqueue_ite fun _ => hne (cell.x, cell.y + 1) (Or.inr ⟨rfl, Or.inl rfl⟩),
      inflationCells_enqueue_ite fun _ => hne (cell.x + 1, cell.y) (Or.inl ⟨rfl, Or.inl rfl⟩),
      inflationCells_enqueue_ite fun hpos : cell.y > 0 =>
        hne (cell.x, cell.y - 1) (Or.inr ⟨rfl, Or.inr (Nat.sub_add_cancel hpos)⟩),
      inflationCells_enqueue_ite fun hpos : cell.x > 0 =>
        hne (cell.x - 1, cell.y) (Or.inl ⟨rfl, Or.inr (Nat.sub_add_cancel hpos)⟩)]

/-- The loop over a distance visits all of its cells. -/
theorem processBin_visits (fuel : Nat) : ∀ {i : Nat} {w : Wave}, WaveInv l masterArray k w →
    (w.inflationCells k).length ≤ i + fuel →
    (∀ cell ∈ (w.inflationCells k).take i, w.seen cell.index = true) →
    WaveInv l masterArray k (l.processBin k fuel i w) ∧
      ∀ cell ∈ (l.processBin k fuel i w).inflationCells k,
        (l.processBin k fuel i w).seen cell.index = true := by
  induction fuel with
  | zero =>
      intro i w h hlen hdone
      rw [List.take_of_length_le (by omega)] at hdone
      exact ⟨h, hdone⟩
  | succ fuel ih =>
      intro i w h hlen hdone
      rw [processBin]
      cases hget : (w.inflationCells k)[i]? with
      | none =>
          rw [List.take_of_length_le (List.getElem?_eq_none_iff.mp hget)] at hdone
          exact ⟨h, hdone⟩
      | some cell =>
          have hcell := h.valid k cell (List.mem_of_getElem? hget)
          have hsame := inflationCells_visit (l := l) (w := w) hcell.distance
          have htake : (w.inflationCells k).take (i + 1) = (w.inflationCells k).take i ++ [cell] := by
            rw [List.take_add_one, hget]
            rfl
          refine ih ?_ (by rw [hsame]; omega) ?_
          · cases hseen : w.seen cell.index with
            | true =>
                rw [visit_of_seen hseen]
                exact h
            | false => exact h.visit hcell hseen
          · intro x hx
            rw [hsame, htake, List.mem_append, List.mem_singleton] at hx
            cases hseen : w.seen cell.index with
            | true =>
                rw [visit_of_seen hseen]
                rcases hx with hold | rfl
                · exact hdone x hold
                · exact hseen
            | false =>
                rw [(visit_fields hseen).1]
                by_cases heq : x.index = cell.index
                · rw [heq, Function.update_self]
                · rw [Function.update_of_ne heq]
                  rcases hx with hold | rfl
                  · exact hdone x hold
                  · exact absurd rfl heq

/-- A distance that has been processed settles its cells: each of them was offered a nearest lethal
cell by a neighbour that had been visited before. -/
theorem WaveInv.processBin (hpass : l.Passable masterArray) (h : WaveInv l masterArray k w) :
    WaveInv l masterArray (k + 1) (l.processBin k l.binBound 0 w) := by
  obtain ⟨h', hall⟩ := processBin_visits (k := k) l.binBound h
    (by have := h.length_lt k; omega) (fun cell hcell => by rw [List.take_zero] at hcell; cases hcell)
  refine ⟨h'.valid, h'.start, h'.unseen, h'.visited, ?_, h'.length_le⟩
  intro c s hc hs hlt hle
  by_cases hsk : sqDist c s < k
  · exact h'.settled c s hc hs hsk hle
  by_cases hless : ∃ t, l.Lethal masterArray t ∧ sqDist c t < k
  · obtain ⟨t, ht, htk⟩ := hless
    exact h'.settled c t hc ht htk (by omega)
  -- now `s` is a nearest lethal cell, at distance `k`
  have hnear : IsNearest (l.Lethal masterArray) c s := by
    refine ⟨hs, fun t ht => ?_⟩
    by_contra hcon
    exact hless ⟨t, ht, by omega⟩
  have hk : sqDist c s = k := by omega
  have hoffered : ∀ t, sqDist c t = k → l.Offered (l.processBin k l.binBound 0 w) c t →
      (l.processBin k l.binBound 0 w).seen (l.getIndex c.1 c.2) = true := by
    rintro t ht (hseen | hmem)
    · exact hseen
    · rw [ht] at hmem
      exact hall _ hmem
  by_cases hlethal : l.Lethal masterArray c
  · have hzero : sqDist c c = k := by
      rw [← hk]
      exact (isNearest_self hlethal).sqDist_eq hnear
    exact hoffered c hzero (h'.start c hlethal)
  · obtain ⟨n, hn, hcloser, hpasses⟩ := hpass c hc hlethal ⟨s, hs, hle⟩
    obtain ⟨u, hu⟩ := exists_isNearest hs n
    have hnk := hcloser.lt u s hu hnear
    have hseen := h'.settled n u hn hu.site (by omega) (by omega)
    obtain ⟨t, ht⟩ := h'.visited n hn hseen
    have hct : sqDist c t = k := by
      rw [← hk]
      exact (hpasses t ht.nearest).sqDist_eq hnear
    exact hoffered t hct (ht.offered c hc hcloser.adjacent (by omega))

/-! ## The whole update -/

theorem length_window (minI minJ maxI maxJ : Int) :
    (window minI minJ maxI maxJ).length =
      (maxJ.toNat - minJ.toNat) * (maxI.toNat - minI.toNat) := by
  simp [window, List.length_flatMap]

/-- The window of the whole grid holds its cells. -/
theorem mem_fullWindow {c : Cell} :
    c ∈ window (max 0 (0 - (l.cellInflationRadius : Int))) (max 0 (0 - (l.cellInflationRadius : Int)))
      (min l.sizeX (l.sizeX + l.cellInflationRadius)) (min l.sizeY (l.sizeY + l.cellInflationRadius)) ↔
      l.InGrid c := by
  rw [mem_window, InGrid]
  omega

/-- The obstacles of cells of the grid are valid entries, each its own source. -/
theorem valid_obstacles (masterArray : Nat → UInt8) {cells : List (Nat × Nat)}
    (hcells : ∀ c ∈ cells, l.InGrid c) (d : Nat) :
    ∀ cell ∈ Function.update (fun _ => []) 0 (l.obstacles masterArray cells) d,
      ValidCell l masterArray d cell := by
  intro cell hcell
  by_cases hd : d = 0
  · subst hd
    rw [Function.update_self, obstacles] at hcell
    obtain ⟨c, hc, rfl⟩ := List.mem_map.mp hcell
    obtain ⟨hc, hlethal⟩ := List.mem_filter.mp hc
    exact ⟨rfl, hcells c hc, ⟨hcells c hc, of_decide_eq_true hlethal⟩, sqDist_self c,
      Nat.zero_le _⟩
  · rw [Function.update_of_ne hd] at hcell
    cases hcell

/-- The list of the obstacles is a good start. -/
theorem start_inv (masterArray : Nat → UInt8) {cells : List (Nat × Nat)}
    (hcells : ∀ c : Cell, c ∈ cells ↔ l.InGrid c) (hlen : cells.length = l.sizeX * l.sizeY) :
    WaveInv l masterArray 0
      { inflationCells := Function.update (fun _ => []) 0 (l.obstacles masterArray cells)
        seen := fun _ => false
        masterArray := masterArray } := by
  refine ⟨valid_obstacles masterArray fun c => (hcells c).mp, ?_, fun c _ _ => rfl,
    fun c _ hseen => absurd hseen Bool.false_ne_true,
    fun c s _ _ hlt => absurd hlt (Nat.not_lt_zero _), ?_⟩
  · intro c hc
    right
    dsimp only
    rw [sqDist_self, Function.update_self, obstacles]
    exact List.mem_map.mpr
      ⟨c, List.mem_filter.mpr ⟨(hcells c).mpr hc.1, decide_eq_true hc.2⟩, rfl⟩
  · intro d
    dsimp only
    by_cases hd : d = 0
    · subst hd
      rw [Function.update_self, obstacles, List.length_map]
      refine (List.length_filter_le _ cells).trans ?_
      rw [hlen]
      exact Nat.le_add_right _ _
    · rw [Function.update_of_ne hd]
      exact Nat.zero_le _

/-- The loop over the distances. -/
theorem processBins_inv (hpass : l.Passable masterArray) (h : WaveInv l masterArray 0 w) (k : Nat) :
    WaveInv l masterArray k
      ((List.range k).foldl (fun w distance => l.processBin distance l.binBound 0 w) w) := by
  induction k with
  | zero => exact h
  | succ k ih =>
      rw [List.range_succ, List.foldl_append]
      exact ih.processBin hpass

/-- When every distance up to the radius has been processed, the grid is inflated. -/
theorem WaveInv.inflated (h : WaveInv l masterArray (l.sqRadius + 1) w) :
    l.Inflated masterArray w.masterArray := by
  constructor
  · intro c s hc hs hle
    obtain ⟨t, ht⟩ := h.visited c hc (h.settled c s hc hs.site (by omega) hle)
    rw [hs.sqDist_eq ht.nearest]
    exact ht.cost
  · intro c hc hfar
    refine h.unseen c hc ?_
    by_contra hseen
    rw [Bool.not_eq_false] at hseen
    obtain ⟨t, ht⟩ := h.visited c hc hseen
    exact hfar ⟨t, ht.nearest.site, ht.le⟩

/-- Inflation agrees with brute force wherever each cell to inflate has a nearer neighbour whose
nearest lethal cells are all nearest to it too, whatever the costs. -/
theorem updateCosts_inflated (l : InflationLayer) (masterArray : Nat → UInt8)
    (hradius : 1 ≤ l.cellInflationRadius) (hpass : l.Passable masterArray) :
    l.Inflated masterArray (l.updateCosts masterArray 0 0 l.sizeX l.sizeY) := by
  rw [updateCosts, if_neg (by omega)]
  refine (processBins_inv hpass (start_inv masterArray (fun c => mem_fullWindow) ?_) _).inflated
  rw [length_window, Nat.mul_comm]
  congr 1 <;> omega

/-- A lethal cell and its neighbour. -/
theorem updateCosts_inflates_neighbour :
    InflationLayer.Inflated ⟨2, 1, 1, fun _ => 253, by decide⟩ (fun i => if i = 0 then 254 else 0)
      (InflationLayer.updateCosts ⟨2, 1, 1, fun _ => 253, by decide⟩
        (fun i => if i = 0 then 254 else 0) 0 0 2 1) := by
  refine updateCosts_inflated _ _ (Nat.le_refl 1) ?_
  have hgrid : ∀ c : Cell,
      InGrid ⟨2, 1, 1, fun _ => 253, by decide⟩ c → c = (0, 0) ∨ c = (1, 0) := by
    rintro ⟨x, y⟩ ⟨hx, hy⟩
    simp only [Prod.mk.injEq]
    dsimp only at hx hy
    omega
  have honly : ∀ c : Cell,
      Lethal ⟨2, 1, 1, fun _ => 253, by decide⟩ (fun i => if i = 0 then 254 else 0) c →
        c = (0, 0) := by
    intro c hc
    rcases hgrid c hc.1 with rfl | rfl
    · rfl
    · exact absurd hc.2 (by decide)
  intro c hc hlethal hwithin
  rcases hgrid c hc with rfl | rfl
  · exact absurd ⟨hc, rfl⟩ hlethal
  refine ⟨(0, 0), ⟨by decide, by decide⟩, ⟨by decide, ?_⟩, ?_⟩
  · intro s t hs ht
    rw [honly s hs.site, honly t ht.site]
    decide
  · intro s hs
    refine ⟨hs.site, fun t ht => ?_⟩
    rw [honly s hs.site, honly t ht]

/-- Three lethal cells: (3, 1) is nearest to the second, at squared distance 8, but both of its
nearer neighbours are visited from others. -/
theorem updateCosts_misses_nearest :
    ¬ ∀ (l : InflationLayer) (masterArray : Nat → UInt8), 1 ≤ l.cellInflationRadius →
      (∀ a b, a ≤ b → l.cost b ≤ l.cost a) →
      l.Inflated masterArray (l.updateCosts masterArray 0 0 l.sizeX l.sizeY) := by
  intro hall
  have hanti : ∀ a b : Nat, a ≤ b →
      (if b ≤ 8 then (200 : UInt8) else 100) ≤ if a ≤ 8 then 200 else 100 := by
    intro a b hab
    by_cases hb : b ≤ 8
    · rw [if_pos hb, if_pos (by omega)]
      decide
    · rw [if_neg hb]
      by_cases ha : a ≤ 8
      · rw [if_pos ha]
        decide
      · rw [if_neg ha]
        decide
  have hinflated := hall ⟨4, 5, 6, fun d => if d ≤ 8 then 200 else 100, by decide⟩
    (fun i => if i = 4 ∨ i = 13 ∨ i = 19 then 254 else 0) (by decide) hanti
  have hnear : IsNearest (Lethal ⟨4, 5, 6, fun d => if d ≤ 8 then 200 else 100, by decide⟩
      (fun i => if i = 4 ∨ i = 13 ∨ i = 19 then 254 else 0)) (3, 1) (1, 3) := by
    refine ⟨⟨⟨show 1 < 4 by decide, show 3 < 5 by decide⟩, by decide⟩, ?_⟩
    rintro ⟨x, y⟩ ⟨⟨hx, hy⟩, hcost⟩
    have hcheck : ∀ x < 4, ∀ y < 5,
        (if y * 4 + x = 4 ∨ y * 4 + x = 13 ∨ y * 4 + x = 19 then (254 : UInt8) else 0) = 254 →
        sqDist (3, 1) (1, 3) ≤ sqDist (3, 1) (x, y) := by decide
    exact hcheck x hx y hy hcost
  exact absurd (hinflated.near (3, 1) (1, 3) ⟨show 3 < 4 by decide, show 1 < 5 by decide⟩ hnear
    (by decide)) (by decide +kernel)

end RoboRTS.Costmap.InflationLayer
