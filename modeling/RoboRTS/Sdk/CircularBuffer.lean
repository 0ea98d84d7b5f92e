import RoboRTS.Lib.BoundedQueue
import Mathlib.Logic.Function.Basic

/-!
# The circular buffer

`CircularBuffer<T>`, which the protocol layer keeps for every kind of command. `contents` is the
queue a buffer stands for: `Push` appends to it, dropping the oldest item of a full buffer, and
`Pop` takes its first item. Under it a buffer and a bounded queue show the same in every run
(`run_refines`).
-/

namespace RoboRTS.Sdk

/-- `CircularBuffer<T>` with `max_size_ = size`: items are written at `head_` and read at `tail_`;
the flag tells a full buffer from an empty one. -/
structure CircularBuffer (T : Type*) (size : Nat) where
  buf : Nat → T
  head : Nat
  tail : Nat
  full : Bool
  head_lt : head < size
  tail_lt : tail < size
  full_eq : full = true → head = tail

namespace CircularBuffer

variable {T : Type*} {size : Nat}

/-- The constructor; `fresh` is what the new array contains. -/
def create (fresh : Nat → T) (hsize : 0 < size) : CircularBuffer T size where
  buf := fresh
  head := 0
  tail := 0
  full := false
  head_lt := hsize
  tail_lt := hsize
  full_eq := fun _ => rfl

theorem size_pos (b : CircularBuffer T size) : 0 < size :=
  Nat.zero_lt_of_lt b.head_lt

/-- `Push`. -/
def push (b : CircularBuffer T size) (item : T) : CircularBuffer T size where
  buf := Function.update b.buf b.head item
  head := (b.head + 1) % size
  tail := if b.full then (b.tail + 1) % size else b.tail
  full := decide ((b.head + 1) % size = if b.full then (b.tail + 1) % size else b.tail)
  head_lt := Nat.mod_lt _ b.size_pos
  tail_lt := by
    split
    · exact Nat.mod_lt _ b.size_pos
    · exact b.tail_lt
  full_eq := of_decide_eq_true

/-- `IsEmpty`. -/
def isEmpty (b : CircularBuffer T size) : Bool :=
  !b.full && b.head == b.tail

/-- What `Pop` leaves when there is an item to read. -/
def advanceTail (b : CircularBuffer T size) : CircularBuffer T size where
  buf := b.buf
  head := b.head
  tail := (b.tail + 1) % size
  full := false
  head_lt := b.head_lt
  tail_lt := Nat.mod_lt _ b.size_pos
  full_eq := fun h => absurd h Bool.false_ne_true

/-- `Pop`. -/
def pop (b : CircularBuffer T size) : Option (T × CircularBuffer T size) :=
  if b.isEmpty then none else some (b.buf b.tail, b.advanceTail)

/-- `GetSize`. -/
def getSize (b : CircularBuffer T size) : Nat :=
  if b.full then size
  else if b.tail ≤ b.head then b.head - b.tail
  else size + b.head - b.tail

/-- The items in the buffer, the oldest first. -/
def contents (b : CircularBuffer T size) : List T :=
  (List.range b.getSize).map fun i => b.buf ((b.tail + i) % size)

@[simp] theorem length_contents (b : CircularBuffer T size) : b.contents.length = b.getSize := by
  simp [contents]

theorem getSize_le (b : CircularBuffer T size) : b.getSize ≤ size := by
  have := b.head_lt
  have := b.tail_lt
  rw [getSize]
  split
  · exact Nat.le_refl size
  · split <;> omega

/-- A fresh buffer is empty. -/
@[simp] theorem contents_create (fresh : Nat → T) (hsize : 0 < size) :
    (create fresh hsize).contents = [] := rfl

/-- One step around the ring. -/
theorem add_mod_cases {a b : Nat} (ha : a < size) (hb : b ≤ size) :
    (a + b) % size = if a + b < size then a + b else a + b - size := by
  split
  · next hlt => exact Nat.mod_eq_of_lt hlt
  · next hge => rw [Nat.mod_eq_sub_mod (by omega), Nat.mod_eq_of_lt (by omega)]

/-- The next item goes behind the last one. -/
theorem head_eq (b : CircularBuffer T size) : b.head = (b.tail + b.getSize) % size := by
  have hhead := b.head_lt
  have htail := b.tail_lt
  rw [add_mod_cases htail b.getSize_le, getSize]
  cases hfull : b.full with
  | true =>
      have := b.full_eq hfull
      simp only [if_true]
      split <;> omega
  | false =>
      simp only [Bool.false_eq_true, if_false]
      split <;> split <;> omega

/-- The buffer is full when all its cells hold items. -/
theorem full_iff (b : CircularBuffer T size) : b.full = true ↔ b.getSize = size := by
  have := b.head_lt
  have := b.tail_lt
  rw [getSize]
  cases b.full with
  | true => simp
  | false =>
      simp only [Bool.false_eq_true, if_false, false_iff]
      split <;> omega

/-- The buffer is empty when it holds no item. -/
theorem isEmpty_iff (b : CircularBuffer T size) : b.isEmpty = true ↔ b.contents = [] := by
  rw [← List.length_eq_zero_iff, length_contents, isEmpty, getSize]
  have := b.size_pos
  have := b.head_lt
  have := b.tail_lt
  cases hfull : b.full with
  | true => simp; omega
  | false =>
      simp only [Bool.not_false, Bool.true_and, beq_iff_eq, Bool.false_eq_true, if_false]
      split <;> omega

/-- `Push` appends to a buffer that is not full. -/
theorem contents_push (b : CircularBuffer T size) (item : T) (hroom : b.getSize < size) :
    (b.push item).contents = b.contents ++ [item] := by
  have hfull : b.full = false := by
    rw [← Bool.not_eq_true, full_iff]
    omega
  have hhead := b.head_eq
  have htail := b.tail_lt
  have hlt := b.head_lt
  have hstay : (b.push item).tail = b.tail := by simp [push, hfull]
  have hsize : (b.push item).getSize = b.getSize + 1 := by
    have hnext := add_mod_cases hlt (show 1 ≤ size from b.size_pos)
    rw [add_mod_cases htail b.getSize_le] at hhead
    simp only [getSize, push, hfull, Bool.false_eq_true, if_false, decide_eq_true_eq] at hhead hroom ⊢
    rw [hnext]
    split_ifs at hhead hroom ⊢ <;> omega
  refine List.ext_getElem (by simp [hsize]) fun i hi _ => ?_
  rw [length_contents, hsize] at hi
  simp only [contents, List.getElem_map, List.getElem_range, hstay]
  have hcell : (b.tail + i) % size = b.head ↔ i = b.getSize := by
    rw [add_mod_cases htail b.getSize_le] at hhead
    rw [hhead, add_mod_cases htail (by omega)]
    split <;> split <;> omega
  by_cases hnew : i = b.getSize
  · rw [List.getElem_append_right (by simp [hnew])]
    simp [push, hcell.mpr hnew]
  · rw [List.getElem_append_left (by simp; omega)]
    simp [push, Function.update_of_ne (mt hcell.mp hnew)]

/-- `Pop` fails on an empty buffer only. -/
theorem pop_none {b : CircularBuffer T size} (h : b.pop = none) : b.contents = [] := by
  rw [pop] at h
  split at h
  · next hempty => exact b.isEmpty_iff.mp hempty
  · cases h

theorem getSize_advanceTail {b : CircularBuffer T size} (hne : b.contents ≠ []) :
    b.getSize = b.advanceTail.getSize + 1 := by
  have htail := b.tail_lt
  have hlt := b.head_lt
  have hfulleq := b.full_eq
  have hpos : b.getSize ≠ 0 := by rwa [← length_contents, ne_eq, List.length_eq_zero_iff]
  have hnext := add_mod_cases htail (show 1 ≤ size from b.size_pos)
  have hsize : b.advanceTail.getSize =
      if (b.tail + 1) % size ≤ b.head then b.head - (b.tail + 1) % size
      else size + b.head - (b.tail + 1) % size := rfl
  rw [getSize] at hpos ⊢
  rw [hsize, hnext]
  cases hfull : b.full with
  | true =>
      have := hfulleq hfull
      simp only [if_true]
      split_ifs <;> omega
  | false =>
      simp only [hfull, Bool.false_eq_true, if_false] at hpos ⊢
      split_ifs at hpos ⊢ <;> omega

/-- `Pop` takes the oldest item. -/
theorem pop_some {b b' : CircularBuffer T size} {item : T} (h : b.pop = some (item, b')) :
    b.contents = item :: b'.contents := by
  rw [pop] at h
  split at h
  · cases h
  · next hempty =>
      cases h
      rw [contents, getSize_advanceTail (mt b.isEmpty_iff.mpr hempty), List.range_succ_eq_map,
        List.map_cons, List.map_map, Nat.add_zero, Nat.mod_eq_of_lt b.tail_lt]
      refine congrArg _ (List.map_congr_left fun i _ => ?_)
      simp only [Function.comp_apply, advanceTail, Nat.mod_add_mod]
      rw [Nat.succ_eq_add_one, Nat.add_assoc, Nat.add_comm 1 i]

/-- `Push` on a full buffer drops the oldest item. -/
theorem contents_push_full (b : CircularBuffer T size) (item : T) (hfull : b.full = true) :
    (b.push item).contents = b.contents.tail ++ [item] := by
  have hne : b.contents ≠ [] := by
    rw [ne_eq, ← List.length_eq_zero_iff, length_contents, b.full_iff.mp hfull]
    exact Nat.ne_of_gt b.size_pos
  have hpush : b.push item = b.advanceTail.push item := by
    simp [push, advanceTail, hfull]
  have hpop : b.pop = some (b.buf b.tail, b.advanceTail) := by
    rw [pop, if_neg (mt b.isEmpty_iff.mp hne)]
  have hsize := getSize_advanceTail hne
  have := b.getSize_le
  rw [hpush, contents_push _ _ (by omega), pop_some hpop, List.tail_cons]

/-! ## The bounded queue -/

/-- `Reset`. -/
def reset (b : CircularBuffer T size) : CircularBuffer T size where
  buf := b.buf
  head := b.tail
  tail := b.tail
  full := false
  head_lt := b.tail_lt
  tail_lt := b.tail_lt
  full_eq := fun _ => rfl

/-- `IsFull`. -/
def isFull (b : CircularBuffer T size) : Bool :=
  b.full

/-- The buffer after an operation, and the item that it popped; a failed `Pop` changes nothing. -/
def apply (b : CircularBuffer T size) : BoundedQueue.Op T → CircularBuffer T size × Option T
  | .push item => (b.push item, none)
  | .pop =>
      match b.pop with
      | none => (b, none)
      | some (item, b) => (b, some item)
  | .reset => (b.reset, none)

/-- An operation with what it shows. -/
def step (b : CircularBuffer T size) (op : BoundedQueue.Op T) :
    CircularBuffer T size × BoundedQueue.Seen T :=
  let (b, popped) := b.apply op
  (b, ⟨popped, b.isEmpty, b.isFull, b.getSize⟩)

/-- `Reset` empties the buffer. -/
theorem contents_reset (b : CircularBuffer T size) : b.reset.contents = [] := by
  rw [← isEmpty_iff]
  simp [reset, isEmpty]

/-- An operation on a buffer is the operation on its queue. -/
theorem apply_contents (b : CircularBuffer T size) (op : BoundedQueue.Op T) :
    ((b.apply op).1.contents, (b.apply op).2) = BoundedQueue.apply size b.contents op := by
  cases op with
  | push item =>
      show ((b.push item).contents, none) =
        (if b.contents.length = size then b.contents.tail ++ [item] else b.contents ++ [item], none)
      by_cases hsize : b.getSize = size
      · rw [if_pos (by rw [length_contents, hsize]),
          contents_push_full b item (b.full_iff.mpr hsize)]
      · have hle := b.getSize_le
        rw [if_neg (by rw [length_contents]; exact hsize), contents_push b item (by omega)]
  | pop =>
      unfold apply BoundedQueue.apply
      cases hpop : b.pop with
      | none =>
          dsimp only
          rw [pop_none hpop]
          rfl
      | some popped =>
          obtain ⟨item, b'⟩ := popped
          dsimp only
          rw [pop_some hpop]
          rfl
  | reset => exact Prod.ext b.contents_reset rfl

/-- The queue of a buffer shows whether the buffer is empty or full, and its size. -/
theorem seen_contents (b : CircularBuffer T size) :
    b.isEmpty = b.contents.isEmpty ∧ b.isFull = (b.contents.length == size) ∧
      b.getSize = b.contents.length := by
  refine ⟨?_, ?_, (length_contents b).symm⟩
  · rw [Bool.eq_iff_iff, isEmpty_iff, List.isEmpty_iff]
  · rw [Bool.eq_iff_iff, isFull, full_iff, length_contents, beq_iff_eq]

/-- A fresh buffer and an empty bounded queue show the same in every run. -/
theorem run_refines (fresh : Nat → T) (hsize : 0 < size) (ops : List (BoundedQueue.Op T)) :
    BoundedQueue.outputs step (create fresh hsize) ops =
      BoundedQueue.outputs (BoundedQueue.step size) [] ops := by
  refine BoundedQueue.outputs_eq (R := fun b queue => b.contents = queue) ?_
    (contents_create fresh hsize) ops
  rintro b queue op rfl
  have happly := b.apply_contents op
  obtain ⟨hempty, hfull, hlength⟩ := (b.apply op).1.seen_contents
  unfold step BoundedQueue.step
  rw [← happly]
  refine ⟨?_, rfl⟩
  dsimp only
  rw [hempty, hfull, hlength]

/-- An item pushed onto a full buffer of one cell replaces the one in it. -/
theorem run_refines_one_cell :
    (BoundedQueue.outputs step (create (fun _ => 0) Nat.one_pos)
        [.push 5, .push 7, .pop]).map (·.popped) = [none, none, some 7] := by
  rw [run_refines (fun _ => 0) Nat.one_pos [.push 5, .push 7, .pop]]
  rfl

end CircularBuffer

end RoboRTS.Sdk
