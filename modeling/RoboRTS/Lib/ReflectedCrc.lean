import Mathlib.Data.List.GetD
import Mathlib.Tactic.Common
import Mathlib.Algebra.Group.Nat.Defs

/-!
# Reflected checksums

A register of `w` bits is divided by a polynomial bit by bit: the lowest bit drops out, and if it
differs from the next bit of the message the polynomial, its coefficients reversed, is subtracted.
`bitwise` takes the bits of every byte from the lowest one on. `foldl_bits` computes a byte at a
time from the remainders of the bytes, as a table does. A polynomial with a constant term makes
every step injective in the register, so two messages that differ within `w` neighbouring bits
have different checksums (`bitwise_burst`).
-/

namespace ReflectedCrc

variable {w : Nat} (poly : BitVec w)

/-- The step for one bit of the message; `poly` is the reversed polynomial. -/
def bitUpdate (crc : BitVec w) (bit : Bool) : BitVec w :=
  if (crc.getLsbD 0 ^^ bit) = true then (crc >>> 1) ^^^ poly else crc >>> 1

/-- The bits of a byte, the lowest first. -/
def bits (byte : BitVec 8) : List Bool :=
  (List.range 8).map fun i => byte.getLsbD i

/-- The register after the bits of all bytes. -/
def bitwise (crc : BitVec w) (data : List (BitVec 8)) : BitVec w :=
  (data.flatMap bits).foldl (bitUpdate poly) crc

/-- The register after `n` zero bits. -/
def shifts : Nat → BitVec w → BitVec w
  | 0, crc => crc
  | n + 1, crc => shifts n (bitUpdate poly crc false)

/-- The bits of a message as a register, the first one lowest. -/
def pack (w : Nat) (message : List Bool) : BitVec w :=
  (BitVec.ofBoolListLE message).setWidth w

@[simp] theorem length_bits (byte : BitVec 8) : (bits byte).length = 8 := by
  simp [bits]

theorem bitwise_append (crc : BitVec w) (xs ys : List (BitVec 8)) :
    bitwise poly crc (xs ++ ys) = bitwise poly (bitwise poly crc xs) ys := by
  rw [bitwise, List.flatMap_append, List.foldl_append]
  rfl

theorem getLsbD_pack (message : List Bool) (i : Nat) :
    (pack w message).getLsbD i = (decide (i < w) && message.getD i false) := by
  rw [pack, BitVec.getLsbD_setWidth, BitVec.getLsbD_ofBoolListLE]

theorem getLsbD_bitUpdate (crc : BitVec w) (bit : Bool) (i : Nat) :
    (bitUpdate poly crc bit).getLsbD i =
      (crc.getLsbD (i + 1) ^^ ((crc.getLsbD 0 ^^ bit) && poly.getLsbD i)) := by
  unfold bitUpdate
  split
  · next h => rw [BitVec.getLsbD_xor, BitVec.getLsbD_ushiftRight, h, Bool.true_and, Nat.add_comm]
  · next h =>
      rw [Bool.not_eq_true] at h
      rw [BitVec.getLsbD_ushiftRight, h, Bool.false_and, Bool.xor_false, Nat.add_comm]

/-! ## A block of bits at a time -/

/-- The bits of a message may be combined with the register before they are reached. -/
theorem bitUpdate_pack (crc : BitVec w) (bit : Bool) {message : List Bool}
    (hlen : message.length < w) :
    bitUpdate poly (crc ^^^ pack w (bit :: message)) false =
      bitUpdate poly crc bit ^^^ pack w message := by
  apply BitVec.eq_of_getLsbD_eq
  intro i hi
  have hbeyond : (decide (i + 1 < w) && message.getD i false) = message.getD i false := by
    by_cases hlt : i + 1 < w
    · rw [decide_eq_true hlt, Bool.true_and]
    · rw [List.getD_eq_default _ _ (by omega), Bool.and_false]
  simp only [getLsbD_bitUpdate, BitVec.getLsbD_xor, getLsbD_pack, List.getD_cons_succ,
    List.getD_cons_zero, hbeyond, decide_eq_true hi, decide_eq_true (Nat.zero_lt_of_lt hi),
    Bool.true_and, Bool.xor_false]
  rw [Bool.xor_assoc, Bool.xor_assoc, Bool.xor_comm (message.getD i false)]

/-- A message that fits into the register is combined with it and shifted out. -/
theorem foldl_bitUpdate (message : List Bool) (crc : BitVec w) (hlen : message.length ≤ w) :
    message.foldl (bitUpdate poly) crc = shifts poly message.length (crc ^^^ pack w message) := by
  induction message generalizing crc with
  | nil =>
      have hzero : pack w [] = 0#w := rfl
      show crc = crc ^^^ pack w []
      rw [hzero, BitVec.xor_zero]
  | cons bit message ih =>
      rw [List.length_cons] at hlen
      rw [List.foldl_cons, ih _ (by omega), ← bitUpdate_pack poly crc bit hlen]
      rfl

theorem bitUpdate_xor (x y : BitVec w) :
    bitUpdate poly (x ^^^ y) false = bitUpdate poly x false ^^^ bitUpdate poly y false := by
  apply BitVec.eq_of_getLsbD_eq
  intro i _
  simp only [getLsbD_bitUpdate, BitVec.getLsbD_xor, Bool.xor_false]
  cases x.getLsbD 0 <;> cases y.getLsbD 0 <;> cases poly.getLsbD i <;>
    cases x.getLsbD (i + 1) <;> cases y.getLsbD (i + 1) <;> rfl

theorem shifts_xor (n : Nat) (x y : BitVec w) :
    shifts poly n (x ^^^ y) = shifts poly n x ^^^ shifts poly n y := by
  induction n generalizing x y with
  | zero => rfl
  | succ n ih => rw [shifts, bitUpdate_xor, ih]; rfl

/-- Zero bits that drop out subtract nothing. -/
theorem shifts_of_low_zero (n : Nat) (x : BitVec w) (hlow : ∀ i < n, x.getLsbD i = false) :
    shifts poly n x = x >>> n := by
  induction n generalizing x with
  | zero => exact (BitVec.ushiftRight_zero x).symm
  | succ n ih =>
      have hstep : bitUpdate poly x false = x >>> 1 := by
        rw [bitUpdate, hlow 0 n.succ_pos]
        rfl
      rw [shifts, hstep, ih, ← BitVec.shiftRight_add, Nat.add_comm]
      intro i hi
      rw [BitVec.getLsbD_ushiftRight, Nat.add_comm]
      exact hlow (i + 1) (by omega)

/-- The bits below `n` of a register. -/
def low (n : Nat) (x : BitVec w) : BitVec w :=
  x &&& BitVec.ofNat w (2 ^ n - 1)

theorem getLsbD_low (n : Nat) (x : BitVec w) (i : Nat) :
    (low n x).getLsbD i = (decide (i < n) && x.getLsbD i) := by
  rw [low, BitVec.getLsbD_and, BitVec.getLsbD_ofNat, Nat.testBit_two_pow_sub_one]
  by_cases hi : i < w
  · rw [decide_eq_true hi, Bool.true_and, Bool.and_comm]
  · rw [BitVec.getLsbD_of_ge _ _ (Nat.le_of_not_lt hi), Bool.false_and, Bool.and_false]

/-- Shifting by `n` bits: the rest moves down, and the bits that drop out leave their remainder. -/
theorem shifts_eq (n : Nat) (x : BitVec w) :
    shifts poly n x = (x >>> n) ^^^ shifts poly n (low n x) := by
  have hsplit : x = (x ^^^ low n x) ^^^ low n x := by
    rw [BitVec.xor_assoc, BitVec.xor_self, BitVec.xor_zero]
  have hlow : ∀ i < n, (x ^^^ low n x).getLsbD i = false := by
    intro i hi
    rw [BitVec.getLsbD_xor, getLsbD_low, decide_eq_true hi, Bool.true_and, Bool.xor_self]
  have hgone : low n x >>> n = 0#w := by
    apply BitVec.eq_of_getLsbD_eq
    intro i _
    rw [BitVec.getLsbD_ushiftRight, getLsbD_low, decide_eq_false (by omega), Bool.false_and,
      BitVec.getLsbD_zero]
  conv_lhs => rw [hsplit, shifts_xor, shifts_of_low_zero poly n _ hlow]
  rw [BitVec.ushiftRight_xor_distrib, hgone, BitVec.xor_zero]

theorem pack_bits (byte : BitVec 8) : pack w (bits byte) = byte.setWidth w := by
  apply BitVec.eq_of_getLsbD_eq
  intro i hi
  rw [getLsbD_pack, BitVec.getLsbD_setWidth]
  refine congrArg _ ?_
  by_cases hbyte : i < 8
  · simp [bits, List.getD_eq_getElem?_getD, hbyte]
  · rw [BitVec.getLsbD_of_ge byte i (by omega)]
    exact List.getD_eq_default _ _ (by rw [length_bits]; omega)

/-- The bits of a byte are processed at once: the register moves down by eight, and the byte that
drops out, combined with that of the message, leaves its remainder. -/
theorem foldl_bits (hw : 8 ≤ w) (crc : BitVec w) (byte : BitVec 8) :
    (bits byte).foldl (bitUpdate poly) crc =
      (crc >>> 8) ^^^ shifts poly 8 (low 8 (crc ^^^ byte.setWidth w)) := by
  have hgone : byte.setWidth w >>> 8 = 0#w := by
    apply BitVec.eq_of_getLsbD_eq
    intro i hi
    rw [BitVec.getLsbD_ushiftRight, BitVec.getLsbD_setWidth, BitVec.getLsbD_of_ge byte _ (by omega),
      Bool.and_false, BitVec.getLsbD_zero]
  rw [foldl_bitUpdate poly _ crc (by rw [length_bits]; exact hw), length_bits, pack_bits, shifts_eq,
    BitVec.ushiftRight_xor_distrib, hgone, BitVec.xor_zero]

/-! ## Errors -/

variable {poly}

/-- The bit that drops out is seen in the top bit, so no two registers become equal. -/
theorem bitUpdate_injective (hpoly : poly.msb = true) {x y : BitVec w} {bit : Bool}
    (h : bitUpdate poly x bit = bitUpdate poly y bit) : x = y := by
  have hw : 0 < w := by
    by_contra hzero
    obtain rfl : w = 0 := by omega
    rw [BitVec.eq_nil poly] at hpoly
    exact absurd hpoly (by decide)
  have hbit : ∀ i, (x.getLsbD (i + 1) ^^ ((x.getLsbD 0 ^^ bit) && poly.getLsbD i)) =
      (y.getLsbD (i + 1) ^^ ((y.getLsbD 0 ^^ bit) && poly.getLsbD i)) := by
    intro i
    rw [← getLsbD_bitUpdate, ← getLsbD_bitUpdate, h]
  have hzero : x.getLsbD 0 = y.getLsbD 0 := by
    have htop := hbit (w - 1)
    rw [BitVec.getLsbD_of_ge x _ (by omega), BitVec.getLsbD_of_ge y _ (by omega),
      ← BitVec.msb_eq_getLsbD_last, hpoly] at htop
    simpa using htop
  apply BitVec.eq_of_getLsbD_eq
  intro i _
  cases i with
  | zero => exact hzero
  | succ i =>
      have hnext := hbit i
      rw [hzero] at hnext
      exact Bool.xor_left_inj.mp hnext

theorem shifts_injective (hpoly : poly.msb = true) {n : Nat} {x y : BitVec w}
    (h : shifts poly n x = shifts poly n y) : x = y := by
  induction n generalizing x y with
  | zero => exact h
  | succ n ih => exact bitUpdate_injective hpoly (ih h)

theorem foldl_injective (hpoly : poly.msb = true) (message : List Bool) {x y : BitVec w}
    (h : message.foldl (bitUpdate poly) x = message.foldl (bitUpdate poly) y) : x = y := by
  induction message generalizing x y with
  | nil => exact h
  | cons bit message ih => exact bitUpdate_injective hpoly (ih h)

theorem pack_injective {xs ys : List Bool} (hlen : xs.length = ys.length) (hw : xs.length ≤ w)
    (h : pack w xs = pack w ys) : xs = ys := by
  apply List.ext_getElem hlen
  intro i hx hy
  have hbit := congrArg (fun v => v.getLsbD i) h
  simp only [getLsbD_pack, decide_eq_true (Nat.lt_of_lt_of_le hx hw), Bool.true_and] at hbit
  rwa [List.getD_eq_getElem _ _ hx, List.getD_eq_getElem _ _ hy] at hbit

theorem bits_injective {x y : BitVec 8} (h : bits x = bits y) : x = y := by
  have hpack := congrArg (pack 8) h
  rwa [pack_bits, pack_bits, BitVec.setWidth_eq, BitVec.setWidth_eq] at hpack

theorem length_flatMap_bits (xs : List (BitVec 8)) : (xs.flatMap bits).length = 8 * xs.length := by
  induction xs with
  | nil => rfl
  | cons x xs ih =>
      rw [List.flatMap_cons, List.length_append, length_bits, ih, List.length_cons]
      omega

theorem flatMap_bits_injective {xs ys : List (BitVec 8)} (hlen : xs.length = ys.length)
    (h : xs.flatMap bits = ys.flatMap bits) : xs = ys := by
  induction xs generalizing ys with
  | nil => exact (List.length_eq_zero_iff.mp hlen.symm).symm
  | cons x xs ih =>
      cases ys with
      | nil => exact absurd hlen (Nat.succ_ne_zero _)
      | cons y ys =>
          obtain ⟨hfirst, hrest⟩ := List.append_inj h (by rw [length_bits, length_bits])
          rw [bits_injective hfirst, ih (Nat.succ_inj.mp hlen) hrest]

/-- A burst no longer than the register changes the checksum, whatever stands around it. -/
theorem bitwise_burst (hpoly : poly.msb = true) (crc : BitVec w) (front back : List (BitVec 8))
    {xs ys : List (BitVec 8)} (hlen : xs.length = ys.length) (hw : 8 * xs.length ≤ w)
    (h : bitwise poly crc (front ++ xs ++ back) = bitwise poly crc (front ++ ys ++ back)) :
    xs = ys := by
  rw [bitwise_append, bitwise_append poly crc (front ++ ys), bitwise_append, bitwise_append] at h
  have hburst := foldl_injective hpoly _ h
  simp only [bitwise] at hburst
  have hxs := length_flatMap_bits xs
  have hys := length_flatMap_bits ys
  rw [foldl_bitUpdate poly (xs.flatMap bits) _ (by omega),
    foldl_bitUpdate poly (ys.flatMap bits) _ (by omega), hxs, hys, hlen] at hburst
  have hpack := shifts_injective hpoly hburst
  have hpacked : pack w (xs.flatMap bits) = pack w (ys.flatMap bits) :=
    (BitVec.xor_right_inj _).mp hpack
  exact flatMap_bits_injective hlen (pack_injective (by omega) (by omega) hpacked)

end ReflectedCrc
