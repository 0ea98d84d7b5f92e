import RoboRTS.Lib.ReflectedCrc
import RoboRTS.Sdk.Crc

/-!
# The checksums as polynomial remainders

The tables hold the remainders of the bytes, so both checksums are the bitwise ones
(`crcCalc_eq_bitwise`). An error that stays within as many neighbouring bytes as the checksum has
is always found (`crcChecks_detect`).
-/

namespace RoboRTS.Sdk

open ReflectedCrc

/-- The polynomial of `crc_tab16`, reversed. -/
def poly16 : BitVec 16 :=
  BitVec.reverse 0x8005#16

/-- The polynomial of `crc_tab32`, reversed. -/
def poly32 : BitVec 32 :=
  BitVec.reverse 0x04C11DB7#32

theorem poly16_eq : poly16 = 0xA001#16 := by decide +kernel

theorem poly32_eq : poly32 = 0xEDB88320#32 := by decide +kernel

/-- The polynomials have a constant term. -/
theorem poly16_msb : poly16.msb = true := by decide +kernel

theorem poly32_msb : poly32.msb = true := by decide +kernel

/-! ## The tables -/

theorem crcTab16_eq (i : Nat) (hi : i < 256) :
    (crcTab16.getD i 0).toBitVec = shifts poly16 8 (BitVec.ofNat 16 i) := by
  have hall : ∀ i < 256, (crcTab16.getD i 0).toBitVec = shifts poly16 8 (BitVec.ofNat 16 i) := by
    decide +kernel
  exact hall i hi

theorem crcTab32_eq (i : Nat) (hi : i < 256) :
    (crcTab32.getD i 0).toBitVec = shifts poly32 8 (BitVec.ofNat 32 i) := by
  have hall : ∀ i < 256, (crcTab32.getD i 0).toBitVec = shifts poly32 8 (BitVec.ofNat 32 i) := by
    decide +kernel
  exact hall i hi

/-- The low byte of a register as a number. -/
theorem ofNat_low {w : Nat} (x : BitVec w) :
    BitVec.ofNat w (x.toNat % 2 ^ 8) = low 8 x := by
  apply BitVec.eq_of_getLsbD_eq
  intro i hi
  rw [BitVec.getLsbD_ofNat, getLsbD_low, Nat.testBit_mod_two_pow, decide_eq_true hi, Bool.true_and]
  rfl

/-- A step of the table is eight steps of the division. -/
theorem crc16Update_eq (crc : UInt16) (ch : UInt8) :
    (crc16Update crc ch).toBitVec = (bits ch.toBitVec).foldl (bitUpdate poly16) crc.toBitVec := by
  have hindex := crc16Index_eq crc ch
  have hlow := ofNat_low (crc.toBitVec ^^^ ch.toBitVec.setWidth 16)
  rw [BitVec.toNat_xor, BitVec.toNat_setWidth_of_le (by decide)] at hlow
  have htable := crcTab16_eq ((crc.toBitVec.toNat ^^^ ch.toBitVec.toNat) % 2 ^ 8)
    (Nat.mod_lt _ (by decide))
  rw [foldl_bits poly16 (by decide), ← hlow, ← htable]
  simp only [crc16Update, hindex]
  rfl

theorem crc32Update_eq (crc : UInt32) (ch : UInt8) :
    (crc32Update crc ch).toBitVec = (bits ch.toBitVec).foldl (bitUpdate poly32) crc.toBitVec := by
  have hindex := crc32Index_eq crc ch
  have hlow := ofNat_low (crc.toBitVec ^^^ ch.toBitVec.setWidth 32)
  rw [BitVec.toNat_xor, BitVec.toNat_setWidth_of_le (by decide)] at hlow
  have htable := crcTab32_eq ((crc.toBitVec.toNat ^^^ ch.toBitVec.toNat) % 2 ^ 8)
    (Nat.mod_lt _ (by decide))
  rw [foldl_bits poly32 (by decide), ← hlow, ← htable]
  simp only [crc32Update, hindex]
  rfl

/-! ## The checksums -/

/-- The bytes of a list as bit vectors. -/
def toBits (data : List UInt8) : List (BitVec 8) :=
  data.map UInt8.toBitVec

theorem foldl_crc16Update (data : List UInt8) (crc : UInt16) :
    (data.foldl crc16Update crc).toBitVec = bitwise poly16 crc.toBitVec (toBits data) := by
  induction data generalizing crc with
  | nil => rfl
  | cons byte data ih =>
      rw [List.foldl_cons, ih, crc16Update_eq]
      exact (bitwise_append poly16 crc.toBitVec [byte.toBitVec] (toBits data)).symm

theorem foldl_crc32Update (data : List UInt8) (crc : UInt32) :
    (data.foldl crc32Update crc).toBitVec = bitwise poly32 crc.toBitVec (toBits data) := by
  induction data generalizing crc with
  | nil => rfl
  | cons byte data ih =>
      rw [List.foldl_cons, ih, crc32Update_eq]
      exact (bitwise_append poly32 crc.toBitVec [byte.toBitVec] (toBits data)).symm

/-- Both checksums are the bitwise ones of their polynomials, from `CRC_INIT` on. -/
theorem crcCalc_eq_bitwise (data : List UInt8) :
    (crc16Calc data).toBitVec =
        bitwise (BitVec.reverse 0x8005#16) CRC_INIT.toBitVec (data.map UInt8.toBitVec) ∧
      (crc32Calc data).toBitVec =
        bitwise (BitVec.reverse 0x04C11DB7#32) CRC_INIT.toUInt32.toBitVec
          (data.map UInt8.toBitVec) ∧
      BitVec.reverse 0x8005#16 = 0xA001#16 ∧ BitVec.reverse 0x04C11DB7#32 = 0xEDB88320#32 :=
  ⟨foldl_crc16Update data _, foldl_crc32Update data _, poly16_eq, poly32_eq⟩

/-! ## Errors -/

/-- The lists have the same bytes outside of the `k` bytes from `i` on. -/
def AgreeOutside (data data' : List UInt8) (i k : Nat) : Prop :=
  ∀ j, j < i ∨ i + k ≤ j → data[j]? = data'[j]?

/-- Two lists that agree outside of some bytes have a common front and a common back. -/
theorem AgreeOutside.split {data data' : List UInt8} {i k : Nat}
    (h : AgreeOutside data data' i k) :
    data' = data.take i ++ (data'.drop i).take k ++ data.drop (i + k) := by
  have hfront : data'.take i = data.take i := by
    apply List.ext_getElem?
    intro j
    rw [List.getElem?_take, List.getElem?_take]
    split
    · next hj => exact (h j (Or.inl hj)).symm
    · rfl
  have hback : data'.drop (i + k) = data.drop (i + k) := by
    apply List.ext_getElem?
    intro j
    rw [List.getElem?_drop, List.getElem?_drop]
    exact (h _ (Or.inr (Nat.le_add_right ..))).symm
  rw [← hfront, ← hback, List.append_assoc, ← List.drop_drop, List.take_append_drop,
    List.take_append_drop]

/-- A burst in the bytes changes the bitwise checksum. -/
theorem bitwise_ne {w : Nat} {poly : BitVec w} (hpoly : poly.msb = true) (crc : BitVec w)
    {data data' : List UInt8} {i k : Nat} (hlen : data.length = data'.length)
    (hagree : AgreeOutside data data' i k) (hw : 8 * k ≤ w) (hne : data ≠ data') :
    bitwise poly crc (toBits data) ≠ bitwise poly crc (toBits data') := by
  intro heq
  have hself : AgreeOutside data data i k := fun _ _ => rfl
  have hdata := hself.split
  have hdata' := hagree.split
  have hburst : ((data.drop i).take k).length = ((data'.drop i).take k).length := by
    simp only [List.length_take, List.length_drop, hlen]
  have hshort : ((data.drop i).take k).length ≤ k := List.length_take_le ..
  rw [hdata, hdata'] at heq
  simp only [toBits, List.map_append] at heq
  have hsame := bitwise_burst hpoly crc _ _ (by simpa only [List.length_map] using hburst)
    (by rw [List.length_map]; omega) heq
  have hinj : Function.Injective (List.map UInt8.toBitVec) :=
    List.map_injective_iff.mpr fun _ _ => UInt8.toBitVec_inj.mp
  rw [hinj hsame, ← hdata'] at hdata
  exact hne hdata

/-- A list followed by its checksum is accepted, and no list that differs from an accepted one in
a burst of at most two or four bytes is. -/
theorem crcChecks_detect :
    (∀ data : List UInt8, crcHeadCheck (data ++ bytes16 (crc16Calc data)) = true) ∧
      (∀ data : List UInt8, crcTailCheck (data ++ bytes32 (crc32Calc data)) = true) ∧
      (∀ data data' : List UInt8, ∀ i, crcHeadCheck data = true → data.length = data'.length →
        AgreeOutside data data' i 2 → data ≠ data' → crcHeadCheck data' = false) ∧
      ∀ data data' : List UInt8, ∀ i, crcTailCheck data = true → data.length = data'.length →
        AgreeOutside data data' i 4 → data ≠ data' → crcTailCheck data' = false := by
  refine ⟨fun data => ?_, fun data => ?_, ?_, ?_⟩
  · rw [crcHeadCheck, crc16Calc_append_bytes]
    rfl
  · rw [crcTailCheck, crc32Calc_append_bytes]
    rfl
  · intro data data' i hcheck hlen hagree hne
    rw [← Bool.not_eq_true]
    intro hcheck'
    simp only [crcHeadCheck, beq_iff_eq] at hcheck hcheck'
    refine bitwise_ne poly16_msb CRC_INIT.toBitVec hlen hagree (by decide) hne ?_
    rw [← foldl_crc16Update, ← foldl_crc16Update]
    exact congrArg UInt16.toBitVec (hcheck.trans hcheck'.symm)
  · intro data data' i hcheck hlen hagree hne
    rw [← Bool.not_eq_true]
    intro hcheck'
    simp only [crcTailCheck, beq_iff_eq] at hcheck hcheck'
    refine bitwise_ne poly32_msb CRC_INIT.toUInt32.toBitVec hlen hagree (by decide) hne ?_
    rw [← foldl_crc32Update, ← foldl_crc32Update]
    exact congrArg UInt32.toBitVec (hcheck.trans hcheck'.symm)

/-- The first byte of two with their checksum is damaged. -/
theorem crcChecks_detect_first :
    crcHeadCheck (0x07 :: 0x02 :: bytes16 (crc16Calc [0x01, 0x02])) = false := by
  refine crcChecks_detect.2.2.1 ([0x01, 0x02] ++ bytes16 (crc16Calc [0x01, 0x02])) _ 0
    (crcChecks_detect.1 _) rfl (fun j hj => ?_) (by decide)
  match j with
  | 0 => omega
  | 1 => omega
  | j + 2 => rfl

end RoboRTS.Sdk
