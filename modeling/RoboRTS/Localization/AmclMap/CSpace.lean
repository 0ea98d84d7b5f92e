import RoboRTS.Localization.AmclMap.Defs
import Mathlib.Algebra.Order.Ring.Rat
import Mathlib.Data.Finset.Max
import Mathlib.Order.Interval.Finset.Nat

/-!
# The distance map and the nearest occupied cells

A round of `UpdateCSpace` fixes the neighbours of the cell on top of the queue with the occupied
cell that this one was fixed with. Where the nearest of the neighbours that can fix a cell only have
nearest occupied cells that are nearest to the cell as well, each cell is fixed with a nearest
occupied cell, whatever the order among equal priorities (`updateCSpace_exact`).
-/

namespace RoboRTS.Localization.AmclMap

open NearestSite

variable (m : AmclMap) (maxOccDist : Rat)

/-- The cells of the map. -/
def InGrid (c : Cell) : Prop :=
  c.1 < m.sizeX ∧ c.2 < m.sizeY

/-- The occupied cells of the map. -/
def Occupied (c : Cell) : Prop :=
  m.InGrid c ∧ m.occState (m.computeCellIndexByMap c.1 c.2) = 1

/-- The square of the radius. -/
def sqRadius : Nat :=
  m.cellRadius maxOccDist * m.cellRadius maxOccDist

/-- The distance map by brute force: a cell within the radius of an occupied cell gets its distance
to a nearest one, every other cell the greatest distance. -/
structure Exact (sqOccDist : Nat → Rat) : Prop where
  near : ∀ c s, m.InGrid c → IsNearest m.Occupied c s → sqDist c s ≤ m.sqRadius maxOccDist →
    sqOccDist (m.computeCellIndexByMap c.1 c.2) = sqDist c s * (m.scale * m.scale)
  far : ∀ c, m.InGrid c → ¬ Within m.Occupied (m.sqRadius maxOccDist) c →
    sqOccDist (m.computeCellIndexByMap c.1 c.2) = maxOccDist * maxOccDist

/-- Every cell within the radius has a neighbour that can fix it, and the nearest of these
neighbours only have nearest occupied cells that are nearest to the cell as well. -/
def Passable : Prop :=
  ∀ c, m.InGrid c → ¬ m.Occupied c → Within m.Occupied (m.sqRadius maxOccDist) c →
    (∃ n, m.InGrid n ∧ Relays m.Occupied (m.sqRadius maxOccDist) n c) ∧
    ∀ n, m.InGrid n → Relays m.Occupied (m.sqRadius maxOccDist) n c →
      (∀ n', m.InGrid n' ∧ Relays m.Occupied (m.sqRadius maxOccDist) n' c →
        NoFarther m.Occupied n n') → Passes m.Occupied n c

variable {m maxOccDist} {w w' : CSpace} {c n s : Cell}

theorem computeCellIndexByMap_inj (hc : m.InGrid c) (hn : m.InGrid n)
    (h : m.computeCellIndexByMap c.1 c.2 = m.computeCellIndexByMap n.1 n.2) : c = n :=
  eq_of_index hc.1 hn.1 h

/-- The neighbours of a cell of the map. -/
theorem mem_neighbours (hc : m.InGrid c) :
    n ∈ m.neighbours c.1 c.2 ↔ m.InGrid n ∧ Adjacent c n := by
  obtain ⟨ci, cj⟩ := c
  obtain ⟨ni, nj⟩ := n
  obtain ⟨hi, hj⟩ := hc
  dsimp only at hi hj
  simp only [neighbours, List.mem_append, List.mem_ite_nil_right, List.mem_singleton,
    Prod.mk.injEq, InGrid, Adjacent]
  omega

/-! ## The invariant of the loop -/

/-- The entry of the queue for cell `c` fixed with `s`. -/
def entry (c s : Cell) : CellData :=
  ⟨c.1, c.2, s.1, s.2⟩

theorem entry_inj {t : Cell} (h : entry c s = entry n t) : c = n ∧ s = t := by
  simp only [entry, CellData.mk.injEq] at h
  exact ⟨Prod.ext h.1 h.2.1, Prod.ext h.2.2.1 h.2.2.2⟩

/-- Cell `c` is fixed with the nearest occupied cell `s`. -/
structure Fixed (m : AmclMap) (maxOccDist : Rat) (w : CSpace) (c s : Cell) : Prop where
  inGrid : m.InGrid c
  nearest : IsNearest m.Occupied c s
  le : sqDist c s ≤ m.sqRadius maxOccDist
  mark : w.mark (m.computeCellIndexByMap c.1 c.2) = true
  dist : w.sqOccDist (m.computeCellIndexByMap c.1 c.2) = sqDist c s * (m.scale * m.scale)

/-- Every neighbour of `c` that `s` can fix is marked. -/
def Expanded (m : AmclMap) (maxOccDist : Rat) (w : CSpace) (c s : Cell) : Prop :=
  ∀ n, m.InGrid n → Adjacent c n → sqDist n s ≤ m.sqRadius maxOccDist →
    w.mark (m.computeCellIndexByMap n.1 n.2) = true

/-- What holds before each round. -/
structure CSpaceInv (m : AmclMap) (maxOccDist : Rat) (w : CSpace) : Prop where
  start : ∀ c, m.Occupied c → w.mark (m.computeCellIndexByMap c.1 c.2) = true
  queued : ∀ a ∈ w.queue, ∃ c s, a = entry c s ∧ Fixed m maxOccDist w c s
  marked : ∀ c, m.InGrid c → w.mark (m.computeCellIndexByMap c.1 c.2) = true →
    ∃ s, Fixed m maxOccDist w c s ∧ (entry c s ∈ w.queue ∨ Expanded m maxOccDist w c s)
  unmarked : ∀ c, m.InGrid c → w.mark (m.computeCellIndexByMap c.1 c.2) = false →
    w.sqOccDist (m.computeCellIndexByMap c.1 c.2) = maxOccDist * maxOccDist

/-- The relays of a cell, of which there is none nearer than `n`. -/
structure NearestRelay (m : AmclMap) (maxOccDist : Rat) (n c : Cell) : Prop where
  inGrid : m.InGrid n
  relays : Relays m.Occupied (m.sqRadius maxOccDist) n c
  noFarther : ∀ n', m.InGrid n' ∧ Relays m.Occupied (m.sqRadius maxOccDist) n' c →
    NoFarther m.Occupied n n'

theorem Passable.exists_nearestRelay (hpass : m.Passable maxOccDist) (hc : m.InGrid c)
    (hocc : ¬ m.Occupied c) (hwithin : Within m.Occupied (m.sqRadius maxOccDist) c) :
    ∃ n, NearestRelay m maxOccDist n c := by
  obtain ⟨⟨n₀, hn₀, hrel₀⟩, -⟩ := hpass c hc hocc hwithin
  obtain ⟨t₀, ht₀, -⟩ := hrel₀.reaches
  obtain ⟨n, ⟨hn, hrel⟩, hmin⟩ := exists_noFarther
    (P := fun n => m.InGrid n ∧ Relays m.Occupied (m.sqRadius maxOccDist) n c) ⟨hn₀, hrel₀⟩ ht₀
  exact ⟨n, hn, hrel, hmin⟩

theorem Passable.passes (hpass : m.Passable maxOccDist) (hc : m.InGrid c)
    (hocc : ¬ m.Occupied c) (hwithin : Within m.Occupied (m.sqRadius maxOccDist) c)
    (hn : NearestRelay m maxOccDist n c) : Passes m.Occupied n c :=
  (hpass c hc hocc hwithin).2 n hn.inGrid hn.relays hn.noFarther

/-- Every cell on the queue is at least `d` away from the occupied cells. -/
def AllFrom (m : AmclMap) (maxOccDist : Rat) (w : CSpace) (d : Nat) : Prop :=
  ∀ c s, Fixed m maxOccDist w c s → entry c s ∈ w.queue → d ≤ sqDist c s

/-- An unmarked cell within the radius waits for a relay that is no nearer than the queue. -/
theorem CSpaceInv.exists_relay {d : Nat} (h : CSpaceInv m maxOccDist w)
    (hpass : m.Passable maxOccDist) (hfrom : AllFrom m maxOccDist w d) (hc : m.InGrid c)
    (hmark : w.mark (m.computeCellIndexByMap c.1 c.2) = false)
    (hs : IsNearest m.Occupied c s) (hle : sqDist c s ≤ m.sqRadius maxOccDist) :
    ∃ n t, NearestRelay m maxOccDist n c ∧ IsNearest m.Occupied n t ∧ d ≤ sqDist n t := by
  induction hD : sqDist c s using Nat.strongRecOn generalizing c s with
  | ind D ih =>
    have hocc : ¬ m.Occupied c := by
      intro hocc
      rw [h.start c hocc] at hmark
      exact Bool.noConfusion hmark
    have hwithin : Within m.Occupied (m.sqRadius maxOccDist) c := ⟨s, hs.site, hle⟩
    obtain ⟨n, hn⟩ := hpass.exists_nearestRelay hc hocc hwithin
    obtain ⟨t, ht, -⟩ := hn.relays.reaches
    have hlt := hn.relays.lt t s ht hs
    cases hmarkn : w.mark (m.computeCellIndexByMap n.1 n.2) with
    | false =>
        -- the relay is unmarked itself: what it waits for is nearer still
        obtain ⟨n', t', hn', ht', hd⟩ := ih (sqDist n t) (by omega) hn.inGrid hmarkn ht (by omega) rfl
        have := hn'.relays.lt t' t ht' ht
        exact ⟨n, t, hn, ht, by omega⟩
    | true =>
        obtain ⟨u, hfixed, hqueued | hexpanded⟩ := h.marked n hn.inGrid hmarkn
        · exact ⟨n, u, hn, hfixed.nearest, hfrom n u hfixed hqueued⟩
        · have hu := hpass.passes hc hocc hwithin hn u hfixed.nearest
          have := hexpanded c hc hn.relays.adjacent (by rw [hu.sqDist_eq hs]; exact hle)
          rw [this] at hmark
          exact Bool.noConfusion hmark

/-- The cell on top of the queue fixes its unmarked neighbours with a nearest occupied cell, and
they are farther away than it is. -/
theorem CSpaceInv.nearest_of_top (h : CSpaceInv m maxOccDist w) (hpass : m.Passable maxOccDist)
    (htop : Fixed m maxOccDist w c s) (hfrom : AllFrom m maxOccDist w (sqDist c s))
    (hn : m.InGrid n) (hadj : Adjacent c n)
    (hmark : w.mark (m.computeCellIndexByMap n.1 n.2) = false)
    (hle : sqDist n s ≤ m.sqRadius maxOccDist) :
    IsNearest m.Occupied n s ∧ sqDist c s < sqDist n s := by
  have hocc : ¬ m.Occupied n := by
    intro hocc
    rw [h.start n hocc] at hmark
    exact Bool.noConfusion hmark
  have hwithin : Within m.Occupied (m.sqRadius maxOccDist) n := ⟨s, htop.nearest.site, hle⟩
  obtain ⟨t, ht, hlet⟩ := hwithin.exists_isNearest
  obtain ⟨r, u, hr, hu, hd⟩ := h.exists_relay hpass hfrom hn hmark ht hlet
  have hcloser : Closer m.Occupied c n := by
    refine ⟨hadj, fun s' t' hs' ht' => ?_⟩
    have hlt := hr.relays.lt u t' hu ht'
    have hs := htop.nearest.sqDist_eq hs'
    omega
  have hrelays : Relays m.Occupied (m.sqRadius maxOccDist) c n :=
    ⟨hcloser, s, htop.nearest, hle⟩
  have hmin : NearestRelay m maxOccDist c n := by
    refine ⟨htop.inGrid, hrelays, fun n' hn' s' t' hs' ht' => ?_⟩
    have := hr.noFarther c ⟨htop.inGrid, hrelays⟩ u s' hu hs'
    have := hr.noFarther n' hn' u t' hu ht'
    have := htop.nearest.sqDist_eq hs'
    omega
  have hs := hpass.passes hn hocc hwithin hmin s htop.nearest
  exact ⟨hs, hcloser.lt s s htop.nearest hs⟩

/-! ## A round -/

/-- What a state keeps of an earlier one. -/
structure Later (m : AmclMap) (maxOccDist : Rat) (w w' : CSpace) : Prop where
  mark : ∀ k, w.mark k = true → w'.mark k = true
  queue : ∀ a ∈ w.queue, a ∈ w'.queue
  fixed : ∀ c s, Fixed m maxOccDist w c s → Fixed m maxOccDist w' c s

theorem Later.trans {w'' : CSpace} (h : Later m maxOccDist w w') (h' : Later m maxOccDist w' w'') :
    Later m maxOccDist w w'' :=
  ⟨fun k hk => h'.mark k (h.mark k hk), fun a ha => h'.queue a (h.queue a ha),
    fun c s hc => h'.fixed c s (h.fixed c s hc)⟩

theorem Later.expanded (h : Later m maxOccDist w w') (hc : Expanded m maxOccDist w c s) :
    Expanded m maxOccDist w' c s :=
  fun n hn hadj hle => h.mark _ (hc n hn hadj hle)

variable (m maxOccDist) in
/-- `Enqueue` either leaves everything or fixes an unmarked cell. -/
theorem enqueue_cases (n s : Cell) (w : CSpace) :
    (m.enqueue maxOccDist n.1 n.2 s.1 s.2 w = w ∧
      (w.mark (m.computeCellIndexByMap n.1 n.2) = true ∨ m.sqRadius maxOccDist < sqDist n s)) ∨
    (w.mark (m.computeCellIndexByMap n.1 n.2) = false ∧ sqDist n s ≤ m.sqRadius maxOccDist ∧
      m.enqueue maxOccDist n.1 n.2 s.1 s.2 w =
        { sqOccDist := Function.update w.sqOccDist (m.computeCellIndexByMap n.1 n.2)
            (sqDist n s * (m.scale * m.scale))
          mark := Function.update w.mark (m.computeCellIndexByMap n.1 n.2) true
          queue := entry n s :: w.queue }) := by
  unfold enqueue
  dsimp only
  by_cases hmark : w.mark (m.computeCellIndexByMap n.1 n.2) = true
  · rw [if_pos hmark]
    exact Or.inl ⟨rfl, Or.inl hmark⟩
  · rw [if_neg hmark]
    by_cases hfar : sqDist (n.1, n.2) (s.1, s.2) >
        m.cellRadius maxOccDist * m.cellRadius maxOccDist
    · rw [if_pos hfar]
      exact Or.inl ⟨rfl, Or.inr hfar⟩
    · rw [if_neg hfar]
      exact Or.inr ⟨Bool.eq_false_iff.mpr hmark, Nat.le_of_not_lt hfar, rfl⟩

variable (m maxOccDist) in
theorem later_enqueue (n s : Cell) (w : CSpace) :
    Later m maxOccDist w (m.enqueue maxOccDist n.1 n.2 s.1 s.2 w) := by
  rcases enqueue_cases _ _ n s w with ⟨heq, -⟩ | ⟨hmark, -, heq⟩ <;> rw [heq]
  · exact ⟨fun _ hk => hk, fun _ ha => ha, fun _ _ hc => hc⟩
  · have hkeep : ∀ k, w.mark k = true → k ≠ m.computeCellIndexByMap n.1 n.2 := by
      rintro k hk rfl
      rw [hmark] at hk
      exact Bool.noConfusion hk
    have hmarks : ∀ k, w.mark k = true →
        Function.update w.mark (m.computeCellIndexByMap n.1 n.2) true k = true := by
      intro k hk
      rw [Function.update_of_ne (hkeep k hk), hk]
    refine ⟨hmarks, fun a ha => List.mem_cons_of_mem _ ha, fun c t hc => ?_⟩
    refine ⟨hc.inGrid, hc.nearest, hc.le, hmarks _ hc.mark, ?_⟩
    dsimp only
    rw [Function.update_of_ne (hkeep _ hc.mark), hc.dist]

/-- Fixing a cell with a nearest occupied cell keeps the invariant. -/
theorem CSpaceInv.enqueue (h : CSpaceInv m maxOccDist w) (hn : m.InGrid n)
    (hs : w.mark (m.computeCellIndexByMap n.1 n.2) = false →
      sqDist n s ≤ m.sqRadius maxOccDist → IsNearest m.Occupied n s) :
    CSpaceInv m maxOccDist (m.enqueue maxOccDist n.1 n.2 s.1 s.2 w) := by
  have hlater := later_enqueue m maxOccDist n s w
  rcases enqueue_cases m maxOccDist n s w with ⟨heq, -⟩ | ⟨hmark, hle, heq⟩
  · rw [heq]
    exact h
  · rw [heq] at hlater ⊢
    have hfixed : Fixed m maxOccDist
        { sqOccDist := Function.update w.sqOccDist (m.computeCellIndexByMap n.1 n.2)
            (sqDist n s * (m.scale * m.scale))
          mark := Function.update w.mark (m.computeCellIndexByMap n.1 n.2) true
          queue := entry n s :: w.queue } n s :=
      ⟨hn, hs hmark hle, hle, Function.update_self .., Function.update_self ..⟩
    constructor
    case start => exact fun c hc => hlater.mark _ (h.start c hc)
    case queued =>
      intro a ha
      rcases List.mem_cons.mp ha with rfl | hold
      · exact ⟨n, s, rfl, hfixed⟩
      · obtain ⟨c, t, rfl, hc⟩ := h.queued a hold
        exact ⟨c, t, rfl, hlater.fixed c t hc⟩
    case marked =>
      intro c hc hcmark
      by_cases hcn : c = n
      · subst hcn
        exact ⟨s, hfixed, Or.inl List.mem_cons_self⟩
      · dsimp only at hcmark
        rw [Function.update_of_ne (fun heq => hcn (computeCellIndexByMap_inj hc hn heq))] at hcmark
        obtain ⟨t, ht, hor⟩ := h.marked c hc hcmark
        exact ⟨t, hlater.fixed c t ht, hor.imp (hlater.queue _) hlater.expanded⟩
    case unmarked =>
      intro c hc hcmark
      by_cases hcn : c = n
      · subst hcn
        dsimp only at hcmark
        rw [Function.update_self] at hcmark
        exact Bool.noConfusion hcmark
      · have hne : m.computeCellIndexByMap c.1 c.2 ≠ m.computeCellIndexByMap n.1 n.2 :=
          fun heq => hcn (computeCellIndexByMap_inj hc hn heq)
        dsimp only at hcmark ⊢
        rw [Function.update_of_ne hne] at hcmark ⊢
        exact h.unmarked c hc hcmark

/-- What the neighbours are that the calls of `Enqueue` in a round may fix. -/
def Fixable (m : AmclMap) (maxOccDist : Rat) (w : CSpace) (d : Nat) (s n : Cell) : Prop :=
  w.mark (m.computeCellIndexByMap n.1 n.2) = false → sqDist n s ≤ m.sqRadius maxOccDist →
    IsNearest m.Occupied n s ∧ d ≤ sqDist n s

theorem AllFrom.enqueue {d : Nat} (h : CSpaceInv m maxOccDist w) (hfrom : AllFrom m maxOccDist w d)
    (hn : Fixable m maxOccDist w d s n) :
    AllFrom m maxOccDist (m.enqueue maxOccDist n.1 n.2 s.1 s.2 w) d := by
  intro c t hc hmem
  rcases enqueue_cases m maxOccDist n s w with ⟨heq, -⟩ | ⟨hmark, hle, heq⟩
  · rw [heq] at hc hmem
    exact hfrom c t hc hmem
  · rw [heq] at hmem
    rcases List.mem_cons.mp hmem with hnew | hold
    · obtain ⟨rfl, rfl⟩ := entry_inj hnew
      exact (hn hmark hle).2
    · obtain ⟨c', t', heq', hc'⟩ := h.queued _ hold
      obtain ⟨rfl, rfl⟩ := entry_inj heq'
      exact hfrom c t hc' hold

/-- The calls of `Enqueue` of a round. -/
theorem CSpaceInv.foldl_enqueue {d : Nat} {l : List Cell} (h : CSpaceInv m maxOccDist w)
    (hfrom : AllFrom m maxOccDist w d)
    (hns : ∀ n ∈ l, m.InGrid n ∧ Fixable m maxOccDist w d s n) :
    let w' := l.foldl (fun w n => m.enqueue maxOccDist n.1 n.2 s.1 s.2 w) w
    CSpaceInv m maxOccDist w' ∧ AllFrom m maxOccDist w' d ∧ Later m maxOccDist w w' ∧
      ∀ n ∈ l, sqDist n s ≤ m.sqRadius maxOccDist →
        w'.mark (m.computeCellIndexByMap n.1 n.2) = true := by
  induction l generalizing w with
  | nil =>
      refine ⟨h, hfrom, ⟨fun _ hk => hk, fun _ ha => ha, fun _ _ hc => hc⟩, fun n hn => ?_⟩
      exact absurd hn List.not_mem_nil
  | cons n l ih =>
      obtain ⟨hn, hfix⟩ := hns n List.mem_cons_self
      have hlater := later_enqueue m maxOccDist n s w
      have hnext := h.enqueue hn fun hmark hle => (hfix hmark hle).1
      obtain ⟨hinv, hall, hrest, hmarks⟩ := ih hnext (hfrom.enqueue h hfix) fun n' hn' => by
        obtain ⟨hgrid, hfix'⟩ := hns n' (List.mem_cons_of_mem n hn')
        refine ⟨hgrid, fun hmark hle => hfix' ?_ hle⟩
        cases hold : w.mark (m.computeCellIndexByMap n'.1 n'.2) with
        | false => rfl
        | true =>
            rw [hlater.mark _ hold] at hmark
            exact Bool.noConfusion hmark
      refine ⟨hinv, hall, hlater.trans hrest, fun n' hn' hle => ?_⟩
      rcases List.mem_cons.mp hn' with rfl | htail
      · refine hrest.mark _ ?_
        rcases enqueue_cases m maxOccDist n' s w with
          ⟨heq, hmark | hfar⟩ | ⟨-, -, heq⟩
        · rw [heq, hmark]
        · omega
        · rw [heq]
          exact Function.update_self ..
      · exact hmarks n' htail hle

/-- The keys of two fixed cells compare as their distances. -/
theorem compareByOccDist_iff {c' s' : Cell} (hscale : 0 < m.scale)
    (hc : Fixed m maxOccDist w c s) (hc' : Fixed m maxOccDist w c' s') :
    m.compareByOccDist w (entry c s) (entry c' s') ↔ sqDist c' s' < sqDist c s := by
  have hpos : 0 < m.scale * m.scale := mul_pos hscale hscale
  show w.sqOccDist (m.computeCellIndexByMap c.1 c.2) >
    w.sqOccDist (m.computeCellIndexByMap c'.1 c'.2) ↔ _
  rw [hc.dist, hc'.dist, gt_iff_lt, mul_lt_mul_iff_left₀ hpos, Nat.cast_lt]

theorem OnTop.allFrom (hscale : 0 < m.scale) (htop : m.OnTop w (entry c s))
    (hc : Fixed m maxOccDist w c s) : AllFrom m maxOccDist w (sqDist c s) := by
  intro c' s' hc' hmem
  have := htop.2 _ hmem
  rw [compareByOccDist_iff hscale hc hc'] at this
  omega

theorem AllFrom.onTop (hscale : 0 < m.scale) (h : CSpaceInv m maxOccDist w)
    (hfrom : AllFrom m maxOccDist w (sqDist c s)) (hc : Fixed m maxOccDist w c s)
    (hmem : entry c s ∈ w.queue) : m.OnTop w (entry c s) := by
  refine ⟨hmem, fun b hb => ?_⟩
  obtain ⟨c', s', rfl, hc'⟩ := h.queued b hb
  rw [compareByOccDist_iff hscale hc hc', Nat.not_lt]
  exact hfrom c' s' hc' hb

/-- After its neighbours are fixed, the cell on top of the queue is still on top. -/
theorem CSpaceInv.expand (h : CSpaceInv m maxOccDist w) (hpass : m.Passable maxOccDist)
    (hscale : 0 < m.scale) (htop : m.OnTop w (entry c s)) (hc : Fixed m maxOccDist w c s) :
    let w' := m.expand maxOccDist (entry c s) w
    CSpaceInv m maxOccDist w' ∧ Later m maxOccDist w w' ∧ m.OnTop w' (entry c s) ∧
      Expanded m maxOccDist w' c s := by
  have hfrom := htop.allFrom hscale hc
  obtain ⟨hinv, hall, hlater, hmarks⟩ := h.foldl_enqueue (l := m.neighbours c.1 c.2) (s := s) hfrom
    fun n hn => by
      obtain ⟨hgrid, hadj⟩ := (mem_neighbours hc.inGrid).mp hn
      refine ⟨hgrid, fun hmark hle => ?_⟩
      obtain ⟨hs, hlt⟩ := h.nearest_of_top hpass hc hfrom hgrid hadj hmark hle
      exact ⟨hs, Nat.le_of_lt hlt⟩
  refine ⟨hinv, hlater, hall.onTop hscale hinv (hlater.fixed c s hc) (hlater.queue _ htop.1), ?_⟩
  exact fun n hn hadj => hmarks n ((mem_neighbours hc.inGrid).mpr ⟨hn, hadj⟩)

/-- Every round keeps the invariant. -/
theorem CSpaceInv.round {e : Round} (h : CSpaceInv m maxOccDist w) (hpass : m.Passable maxOccDist)
    (hscale : 0 < m.scale) (hround : m.round maxOccDist w e = some w') :
    CSpaceInv m maxOccDist w' := by
  unfold AmclMap.round at hround
  by_cases htop : m.OnTop w e.top
  case neg =>
    rw [if_neg htop] at hround
    cases hround
  rw [if_pos htop] at hround
  dsimp only at hround
  obtain ⟨c, s, heq, hc⟩ := h.queued e.top htop.1
  rw [heq] at htop hround
  obtain ⟨hinv, hlater, hstill, hexpanded⟩ := h.expand hpass hscale htop hc
  by_cases hpopped : m.OnTop (m.expand maxOccDist (entry c s) w) e.popped ∧
      (m.OnTop (m.expand maxOccDist (entry c s) w) (entry c s) → e.popped = entry c s)
  case neg =>
    rw [if_neg hpopped] at hround
    cases hround
  rw [if_pos hpopped, hpopped.2 hstill] at hround
  cases hround
  constructor
  case start => exact hinv.start
  case queued =>
    intro a ha
    obtain ⟨c', s', rfl, hc'⟩ := hinv.queued a (List.mem_of_mem_erase ha)
    exact ⟨c', s', rfl, ⟨hc'.inGrid, hc'.nearest, hc'.le, hc'.mark, hc'.dist⟩⟩
  case marked =>
    intro n hn hmark
    obtain ⟨t, ht, hor⟩ := hinv.marked n hn hmark
    refine ⟨t, ⟨ht.inGrid, ht.nearest, ht.le, ht.mark, ht.dist⟩, ?_⟩
    by_cases hnc : entry n t = entry c s
    · -- the removed cell has fixed its neighbours
      obtain ⟨rfl, rfl⟩ := entry_inj hnc
      exact Or.inr hexpanded
    · exact hor.imp (fun hmem => (List.mem_erase_of_ne hnc).mpr hmem) fun hold => hold
  case unmarked => exact hinv.unmarked

/-! ## A run -/

theorem mem_cells : c ∈ m.cells ↔ m.InGrid c := by
  obtain ⟨i, j⟩ := c
  simp [cells, InGrid]

/-- The loop starts with the occupied cells. -/
theorem start_inv : CSpaceInv m maxOccDist (m.start maxOccDist) := by
  have hfixed : ∀ c, m.Occupied c → Fixed m maxOccDist (m.start maxOccDist) c c := by
    intro c hc
    refine ⟨hc.1, isNearest_self hc, by rw [sqDist_self]; exact Nat.zero_le _, ?_, ?_⟩
    · exact decide_eq_true hc.2
    · show (if _ then _ else _) = _
      rw [if_pos hc.2, sqDist_self, Nat.cast_zero, zero_mul]
  have hqueue : ∀ a, a ∈ (m.start maxOccDist).queue ↔ ∃ c, m.Occupied c ∧ a = entry c c := by
    intro a
    simp only [start, List.mem_map, List.mem_filter, mem_cells, decide_eq_true_eq]
    constructor
    · rintro ⟨c, hc, rfl⟩
      exact ⟨c, hc, rfl⟩
    · rintro ⟨c, hc, rfl⟩
      exact ⟨c, hc, rfl⟩
  constructor
  case start => exact fun c hc => (hfixed c hc).mark
  case queued =>
    intro a ha
    obtain ⟨c, hc, rfl⟩ := (hqueue a).mp ha
    exact ⟨c, c, rfl, hfixed c hc⟩
  case marked =>
    intro c hc hmark
    have hocc : m.Occupied c := ⟨hc, of_decide_eq_true hmark⟩
    exact ⟨c, hfixed c hocc, Or.inl ((hqueue _).mpr ⟨c, hocc, rfl⟩)⟩
  case unmarked =>
    intro c hc hmark
    show (if _ then _ else _) = _
    rw [if_neg (of_decide_eq_false hmark)]

/-- When the queue is empty, the map is exact. -/
theorem CSpaceInv.exact (h : CSpaceInv m maxOccDist w) (hpass : m.Passable maxOccDist)
    (hempty : w.queue = []) : m.Exact maxOccDist w.sqOccDist := by
  have hfrom : AllFrom m maxOccDist w (m.sqRadius maxOccDist + 1) := by
    intro c s hc hmem
    rw [hempty] at hmem
    exact absurd hmem List.not_mem_nil
  constructor
  case near =>
    intro c s hc hs hle
    cases hmark : w.mark (m.computeCellIndexByMap c.1 c.2) with
    | true =>
        obtain ⟨t, ht, -⟩ := h.marked c hc hmark
        rw [ht.dist, hs.sqDist_eq ht.nearest]
    | false =>
        obtain ⟨n, t, hn, ht, hd⟩ := h.exists_relay hpass hfrom hc hmark hs hle
        have := hn.relays.lt t s ht hs
        omega
  case far =>
    intro c hc hfar
    refine h.unmarked c hc ?_
    by_contra hmark
    rw [Bool.not_eq_false] at hmark
    obtain ⟨s, hs, -⟩ := h.marked c hc hmark
    exact hfar ⟨s, hs.nearest.site, hs.le⟩

/-- The cells that are not marked. -/
def unmarkedCells (m : AmclMap) (w : CSpace) : Finset Nat :=
  (Finset.range (m.sizeX * m.sizeY)).filter fun k => w.mark k = false

/-- The rounds that are left at most. -/
def roundsLeft (m : AmclMap) (w : CSpace) : Nat :=
  w.queue.length + (m.unmarkedCells w).card

theorem roundsLeft_enqueue (hn : m.InGrid n) (w : CSpace) :
    m.roundsLeft (m.enqueue maxOccDist n.1 n.2 s.1 s.2 w) = m.roundsLeft w := by
  rcases enqueue_cases m maxOccDist n s w with ⟨heq, -⟩ | ⟨hmark, -, heq⟩
  · rw [heq]
  · rw [heq]
    have hmem : m.computeCellIndexByMap n.1 n.2 ∈ m.unmarkedCells w :=
      Finset.mem_filter.mpr ⟨Finset.mem_range.mpr (index_lt hn.1 hn.2), hmark⟩
    have herase : m.unmarkedCells
        { sqOccDist := Function.update w.sqOccDist (m.computeCellIndexByMap n.1 n.2)
            (sqDist n s * (m.scale * m.scale))
          mark := Function.update w.mark (m.computeCellIndexByMap n.1 n.2) true
          queue := entry n s :: w.queue } =
        (m.unmarkedCells w).erase (m.computeCellIndexByMap n.1 n.2) := by
      ext k
      simp only [unmarkedCells, Finset.mem_filter, Finset.mem_erase]
      by_cases hk : k = m.computeCellIndexByMap n.1 n.2
      · subst hk
        simp
      · rw [Function.update_of_ne hk]
        tauto
    have hpos := Finset.card_pos.mpr ⟨_, hmem⟩
    rw [roundsLeft, roundsLeft, herase, Finset.card_erase_of_mem hmem, List.length_cons]
    omega

theorem roundsLeft_foldl {ns : List Cell} (hns : ∀ n ∈ ns, m.InGrid n) (w : CSpace) :
    m.roundsLeft (ns.foldl (fun w n => m.enqueue maxOccDist n.1 n.2 s.1 s.2 w) w) =
      m.roundsLeft w := by
  induction ns generalizing w with
  | nil => rfl
  | cons n ns ih =>
      rw [List.foldl_cons, ih (fun n' hn' => hns n' (List.mem_cons_of_mem n hn')),
        roundsLeft_enqueue (hns n List.mem_cons_self)]

/-- A round takes one cell from the queue. -/
theorem CSpaceInv.roundsLeft_round {e : Round} (h : CSpaceInv m maxOccDist w)
    (hround : m.round maxOccDist w e = some w') : m.roundsLeft w' + 1 = m.roundsLeft w := by
  unfold AmclMap.round at hround
  by_cases htop : m.OnTop w e.top
  case neg =>
    rw [if_neg htop] at hround
    cases hround
  rw [if_pos htop] at hround
  dsimp only at hround
  obtain ⟨c, s, heq, hc⟩ := h.queued e.top htop.1
  have hexpand : m.roundsLeft (m.expand maxOccDist e.top w) = m.roundsLeft w := by
    rw [heq]
    exact roundsLeft_foldl (s := s) (fun n hn => ((mem_neighbours hc.inGrid).mp hn).1) w
  by_cases hpopped : m.OnTop (m.expand maxOccDist e.top w) e.popped ∧
      (m.OnTop (m.expand maxOccDist e.top w) e.top → e.popped = e.top)
  case neg =>
    rw [if_neg hpopped] at hround
    cases hround
  rw [if_pos hpopped] at hround
  cases hround
  have hlength := List.length_erase_of_mem hpopped.1.1
  have hpos := List.length_pos_of_mem hpopped.1.1
  rw [← hexpand, roundsLeft, roundsLeft, hlength]
  show _ + (m.unmarkedCells (m.expand maxOccDist e.top w)).card + 1 = _
  omega

/-- Rounds keep the invariant and use up what is left. -/
theorem CSpaceInv.run {v : CSpace} {rounds : List Round} (hpass : m.Passable maxOccDist)
    (hscale : 0 < m.scale) (hv : CSpaceInv m maxOccDist v)
    (hrun : StateMachine.run (m.round maxOccDist) v rounds = some w) :
    CSpaceInv m maxOccDist w ∧ m.roundsLeft w + rounds.length = m.roundsLeft v := by
  induction rounds generalizing v with
  | nil =>
      cases hrun
      exact ⟨hv, rfl⟩
  | cons e rounds ih =>
      obtain ⟨v', hfirst, hrest⟩ := Option.bind_eq_some_iff.mp hrun
      obtain ⟨hw, hlength⟩ := ih (hv.round hpass hscale hfirst) hrest
      have := hv.roundsLeft_round hfirst
      rw [List.length_cons]
      exact ⟨hw, by omega⟩

end RoboRTS.Localization.AmclMap
