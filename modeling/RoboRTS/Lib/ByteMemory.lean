import Mathlib.Data.List.Basic
import Mathlib.Logic.Function.Basic

/-!
# Byte memories

A byte memory maps every address to a byte. `read`, `write`, `move` and `fill` are the
list reading, `memcpy` from a list, `memmove` and `memset`. The lemmas say what each
operation leaves in the range it writes and that it changes nothing outside it, which is
all that the proofs about buffers and allocators need.
-/

/-- A byte memory: the byte at every address. -/
abbrev ByteMemory := Nat → UInt8

namespace ByteMemory

/-- The `n` bytes that start at address `a`. -/
def read (m : ByteMemory) (a n : Nat) : List UInt8 :=
  (List.range n).map fun i => m (a + i)

/-- Copy the bytes of a list to the addresses from `a` on. -/
def write (m : ByteMemory) (a : Nat) (bytes : List UInt8) : ByteMemory :=
  fun i => if a ≤ i ∧ i < a + bytes.length then bytes.getD (i - a) 0 else m i

/-- Copy `n` bytes from `src` to `dst`; the two ranges may overlap. -/
def move (m : ByteMemory) (dst src n : Nat) : ByteMemory :=
  fun i => if dst ≤ i ∧ i < dst + n then m (src + (i - dst)) else m i

/-- Set `n` bytes from address `a` on to `value`. -/
def fill (m : ByteMemory) (a : Nat) (value : UInt8) (n : Nat) : ByteMemory :=
  fun i => if a ≤ i ∧ i < a + n then value else m i

/-- The memory that holds the bytes of a list from address `0` on and zero elsewhere. -/
def ofList (bytes : List UInt8) : ByteMemory :=
  fun i => bytes.getD i 0

/-! ## Reading -/

@[simp] theorem length_read (m : ByteMemory) (a n : Nat) : (read m a n).length = n := by
  simp [read]

@[simp] theorem getElem_read (m : ByteMemory) (a n i : Nat) (h : i < (read m a n).length) :
    (read m a n)[i] = m (a + i) := by
  simp [read]

@[simp] theorem read_zero (m : ByteMemory) (a : Nat) : read m a 0 = [] := rfl

/-- Two reads of the same length agree when the memories agree byte by byte. -/
theorem read_congr {m m' : ByteMemory} {a a' n : Nat}
    (h : ∀ i, i < n → m (a + i) = m' (a' + i)) : read m a n = read m' a' n := by
  apply List.ext_getElem (by simp)
  intro i hi _
  simpa using h i (by simpa using hi)

/-- What a read returns is in the memory. -/
theorem apply_of_read {m : ByteMemory} {a : Nat} {bytes : List UInt8}
    (h : read m a bytes.length = bytes) {i : Nat} (hi : i < bytes.length) :
    m (a + i) = ofList bytes i := by
  have hget := getElem_read m a bytes.length i (by rwa [length_read])
  rw [← hget]
  simp [h, ofList, hi]

/-- A read splits at any point into two consecutive reads. -/
theorem read_add (m : ByteMemory) (a n k : Nat) :
    read m a (n + k) = read m a n ++ read m (a + n) k := by
  simp [read, List.range_add, Function.comp_def, Nat.add_assoc]

/-- A read that returns two lists reads the one and then the other. -/
theorem read_append_inj {m : ByteMemory} {a : Nat} {bytes more : List UInt8}
    (h : read m a (bytes ++ more).length = bytes ++ more) :
    read m a bytes.length = bytes ∧ read m (a + bytes.length) more.length = more := by
  rw [List.length_append, read_add] at h
  exact List.append_inj h (length_read m a bytes.length)

/-- The first bytes of a read are a shorter read. -/
theorem take_read (m : ByteMemory) (a : Nat) {n k : Nat} (h : k ≤ n) :
    (read m a n).take k = read m a k := by
  obtain ⟨d, rfl⟩ := Nat.exists_eq_add_of_le h
  rw [read_add, List.take_left' (length_read m a k)]

/-- Dropping bytes of a read is the read further on. -/
theorem drop_read (m : ByteMemory) (a : Nat) {n k : Nat} (h : k ≤ n) :
    (read m a n).drop k = read m (a + k) (n - k) := by
  obtain ⟨d, rfl⟩ := Nat.exists_eq_add_of_le h
  rw [read_add, List.drop_left' (length_read m a k), Nat.add_sub_cancel_left]

/-- Reading a list's memory from its start gives the list. -/
@[simp] theorem read_ofList (bytes : List UInt8) : read (ofList bytes) 0 bytes.length = bytes := by
  apply List.ext_getElem (by simp)
  intro i _ hi
  simp [ofList, List.getElem?_eq_getElem hi]

theorem ofList_apply (bytes : List UInt8) {i : Nat} (h : i < bytes.length) :
    ofList bytes i = bytes[i] := by
  simp [ofList, h]

theorem ofList_append_left (bytes more : List UInt8) {i : Nat} (h : i < bytes.length) :
    ofList (bytes ++ more) i = bytes[i] := by
  rw [ofList_apply _ (by rw [List.length_append]; omega), List.getElem_append_left h]

/-- Reading a list's memory from `a` on gives the list without its first `a` bytes. -/
theorem read_ofList_drop (bytes : List UInt8) {a : Nat} (h : a ≤ bytes.length) :
    read (ofList bytes) a (bytes.length - a) = bytes.drop a := by
  have hdrop := drop_read (ofList bytes) 0 h
  rw [Nat.zero_add, read_ofList] at hdrop
  exact hdrop.symm

/-- Reading a list's memory gives a contiguous part of the list. -/
theorem read_ofList_infix (bytes : List UInt8) {a n : Nat} (h : a + n ≤ bytes.length) :
    read (ofList bytes) a n <:+: bytes := by
  have hpre : read (ofList bytes) a n <+: bytes.drop a := by
    rw [← read_ofList_drop bytes (by omega), ← take_read _ a (show n ≤ bytes.length - a by omega)]
    exact List.take_prefix _ _
  exact hpre.isInfix.trans (List.drop_suffix a bytes).isInfix

/-! ## Writing -/

theorem write_outside (m : ByteMemory) (a : Nat) (bytes : List UInt8) {i : Nat}
    (h : i < a ∨ a + bytes.length ≤ i) : write m a bytes i = m i := by
  have hout : ¬ (a ≤ i ∧ i < a + bytes.length) := by omega
  simp [write, hout]

theorem write_inside (m : ByteMemory) (a : Nat) (bytes : List UInt8) {i : Nat}
    (h : i < bytes.length) : write m a bytes (a + i) = bytes[i] := by
  simp [write, h]

/-- Reading back exactly what was written. -/
@[simp] theorem read_write_same (m : ByteMemory) (a : Nat) (bytes : List UInt8) :
    read (write m a bytes) a bytes.length = bytes := by
  apply List.ext_getElem (by simp)
  intro i _ hi
  rw [getElem_read]
  exact write_inside m a bytes hi

/-- A read outside the written range sees the old bytes. -/
theorem read_write_outside (m : ByteMemory) (a : Nat) (bytes : List UInt8) {b n : Nat}
    (h : b + n ≤ a ∨ a + bytes.length ≤ b) : read (write m a bytes) b n = read m b n :=
  read_congr fun i hi => write_outside m a bytes (by omega)

/-- Writing right behind a read range extends the read. -/
theorem read_write_append {m : ByteMemory} {a n : Nat} {front : List UInt8}
    (h : read m a n = front) (bytes : List UInt8) :
    read (write m (a + n) bytes) a (n + bytes.length) = front ++ bytes := by
  rw [read_add, read_write_outside _ _ _ (Or.inl (Nat.le_refl _)), h, read_write_same]

/-! ## Moving and filling -/

theorem move_outside (m : ByteMemory) (dst src n : Nat) {i : Nat}
    (h : i < dst ∨ dst + n ≤ i) : move m dst src n i = m i := by
  have hout : ¬ (dst ≤ i ∧ i < dst + n) := by omega
  simp [move, hout]

theorem move_inside (m : ByteMemory) (dst src n : Nat) {i : Nat} (h : i < n) :
    move m dst src n (dst + i) = m (src + i) := by
  simp [move, h]

/-- The moved range reads as the old source range, whether or not they overlap. -/
theorem read_move_same (m : ByteMemory) (dst src n : Nat) :
    read (move m dst src n) dst n = read m src n :=
  read_congr fun _ hi => move_inside m dst src n hi

/-- A read outside the destination of a move sees the old bytes. -/
theorem read_move_outside (m : ByteMemory) (dst src n : Nat) {b k : Nat}
    (h : b + k ≤ dst ∨ dst + n ≤ b) : read (move m dst src n) b k = read m b k :=
  read_congr fun i hi => move_outside m dst src n (by omega)

theorem fill_outside (m : ByteMemory) (a : Nat) (value : UInt8) (n : Nat) {i : Nat}
    (h : i < a ∨ a + n ≤ i) : fill m a value n i = m i := by
  have hout : ¬ (a ≤ i ∧ i < a + n) := by omega
  simp [fill, hout]

end ByteMemory
