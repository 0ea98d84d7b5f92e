import RoboRTS.Lib.ByteMemory
import RoboRTS.Sdk.Crc

/-!
# The package header

The twelve bytes of `struct Header` as they lie in memory. The bit fields fill three
little-endian 32-bit words from the lowest bit on: `sof : 8`, `length : 10`, `version : 6`,
`session_id : 5`, `is_ack : 1`, `reserved0 : 2`; `sender : 8`, `receiver : 8`,
`reserved1 : 16`; `seq_num : 16`, `crc : 16`. Storing a value in a bit field keeps its low
bits. `Header.decode_write` is the round trip between the two directions.
-/

namespace RoboRTS.Sdk

/-! ## Constants of the protocol layer -/

def BUFFER_SIZE : Nat := 4096
def MAX_PACK_SIZE : Nat := 4096
def SESSION_TABLE_NUM : Nat := 32
def HEADER_LEN : Nat := 12
def CRC_HEAD_LEN : Nat := 2
def CRC_DATA_LEN : Nat := 4
def CMD_SET_PREFIX_LEN : Nat := 2
def SOF : UInt8 := 0xAA
def VERSION : Nat := 0x00
def RECEIVER_NUM : Nat := 6

/-- The header fields other than the checksum. -/
structure Header where
  sof : UInt8
  length : Nat
  version : Nat
  sessionId : Nat
  isAck : Bool
  reserved0 : Nat
  sender : UInt8
  receiver : UInt8
  reserved1 : Nat
  seqNum : UInt16
  deriving Repr, DecidableEq

namespace Header

/-- The first ten header bytes. -/
def bytes (h : Header) : List UInt8 :=
  [ h.sof,
    UInt8.ofNat h.length,
    UInt8.ofNat (h.length / 256 % 4 + 4 * (h.version % 64)),
    UInt8.ofNat (h.sessionId % 32 + 32 * h.isAck.toNat + 64 * (h.reserved0 % 4)),
    h.sender,
    h.receiver,
    UInt8.ofNat h.reserved1,
    UInt8.ofNat (h.reserved1 / 256),
    h.seqNum.toUInt8,
    (h.seqNum >>> 8).toUInt8 ]

@[simp] theorem length_bytes (h : Header) : h.bytes.length = 10 := rfl

/-- The header fields of the bytes at address `a`. -/
def decode (m : ByteMemory) (a : Nat) : Header where
  sof := m a
  length := (m (a + 1)).toNat + 256 * ((m (a + 2)).toNat % 4)
  version := (m (a + 2)).toNat / 4
  sessionId := (m (a + 3)).toNat % 32
  isAck := (m (a + 3)).toNat / 32 % 2 == 1
  reserved0 := (m (a + 3)).toNat / 64
  sender := m (a + 4)
  receiver := m (a + 5)
  reserved1 := (m (a + 6)).toNat + 256 * (m (a + 7)).toNat
  seqNum := UInt16.ofNat ((m (a + 8)).toNat + 256 * (m (a + 9)).toNat)

/-- The length field has ten bits. -/
theorem length_decode_lt (m : ByteMemory) (a : Nat) : (decode m a).length < 1024 := by
  have h1 := (m (a + 1)).toNat_lt
  simp only [decode]
  omega

/-- The session field has five bits. -/
theorem sessionId_decode_lt (m : ByteMemory) (a : Nat) : (decode m a).sessionId < 32 :=
  Nat.mod_lt _ (by decide)

/-- Decoding depends on the first ten bytes only. -/
theorem decode_congr {m m' : ByteMemory} {a a' : Nat}
    (h : ∀ i, i < 10 → m (a + i) = m' (a' + i)) : decode m a = decode m' a' := by
  have h0 : m a = m' a' := by simpa using h 0 (by decide)
  simp only [decode, h0, h 1 (by decide), h 2 (by decide), h 3 (by decide), h 4 (by decide),
    h 5 (by decide), h 6 (by decide), h 7 (by decide), h 8 (by decide), h 9 (by decide)]

/-- The values fit the bit fields. -/
structure Fits (h : Header) : Prop where
  length : h.length < 1024
  version : h.version < 64
  sessionId : h.sessionId < 32
  reserved0 : h.reserved0 < 4
  reserved1 : h.reserved1 < 65536

/-- What the header fields keep of the stored values. -/
def stored (h : Header) : Header :=
  { h with
    length := h.length % 1024
    version := h.version % 64
    sessionId := h.sessionId % 32
    reserved0 := h.reserved0 % 4
    reserved1 := h.reserved1 % 65536 }

theorem stored_eq {h : Header} (hfits : h.Fits) : h.stored = h := by
  obtain ⟨hl, hv, hs, hr, hr1⟩ := hfits
  simp only [stored, Nat.mod_eq_of_lt hl, Nat.mod_eq_of_lt hv, Nat.mod_eq_of_lt hs,
    Nat.mod_eq_of_lt hr, Nat.mod_eq_of_lt hr1]

/-- The two bytes of a sequence number give it back. -/
theorem seqNum_bytes (v : UInt16) :
    UInt16.ofNat (v.toUInt8.toNat + 256 * (v >>> 8).toUInt8.toNat) = v := by
  apply UInt16.toNat_inj.mp
  have hlt := v.toNat_lt
  simp [Nat.shiftRight_eq_div_pow]
  omega

/-- Memory that holds the header bytes decodes to the stored header. -/
theorem decode_of_bytes {m : ByteMemory} {a : Nat} {h : Header}
    (hbytes : m.read a 10 = h.bytes) : decode m a = h.stored := by
  have hget : ∀ i (hi : i < 10), m (a + i) = h.bytes.get ⟨i, hi⟩ := by
    intro i hi
    have hl : i < (m.read a 10).length := by simpa using hi
    have heq := List.get_of_eq hbytes ⟨i, hl⟩
    simpa using heq
  have hack : h.isAck.toNat < 2 := by cases h.isAck <;> decide
  have hackEq : (h.isAck.toNat == 1) = h.isAck := by cases h.isAck <;> rfl
  have h0 : m a = h.sof := hget 0 (by decide)
  have h1 : m (a + 1) = _ := hget 1 (by decide)
  have h2 : m (a + 2) = _ := hget 2 (by decide)
  have h3 : m (a + 3) = _ := hget 3 (by decide)
  have h4 : m (a + 4) = h.sender := hget 4 (by decide)
  have h5 : m (a + 5) = h.receiver := hget 5 (by decide)
  have h6 : m (a + 6) = _ := hget 6 (by decide)
  have h7 : m (a + 7) = _ := hget 7 (by decide)
  have h8 : m (a + 8) = h.seqNum.toUInt8 := hget 8 (by decide)
  have h9 : m (a + 9) = (h.seqNum >>> 8).toUInt8 := hget 9 (by decide)
  simp only [decode, stored, h0, h1, h2, h3, h4, h5, h6, h7, h8, h9, bytes, seqNum_bytes,
    List.get_eq_getElem, List.getElem_cons_succ, List.getElem_cons_zero, UInt8.toNat_ofNat',
    mk.injEq, true_and]
  refine ⟨by omega, by omega, by omega, ?_, by omega, by omega, trivial⟩
  rw [show (h.sessionId % 32 + 32 * h.isAck.toNat + 64 * (h.reserved0 % 4)) % 2 ^ 8 / 32 % 2 =
    h.isAck.toNat by omega, hackEq]

/-- Store the fields of a header at address `a`, then its checksum, as the send functions do. -/
def write (m : ByteMemory) (a : Nat) (h : Header) : ByteMemory :=
  let m := m.write a h.bytes
  m.write (a + 10) (bytes16 (crc16Calc (m.read a (HEADER_LEN - CRC_HEAD_LEN))))

/-- The twelve bytes of a header with its checksum. -/
def frame (h : Header) : List UInt8 :=
  h.bytes ++ bytes16 (crc16Calc h.bytes)

@[simp] theorem length_frame (h : Header) : h.frame.length = 12 := rfl

/-- A written header reads as its twelve bytes. -/
theorem read_write (m : ByteMemory) (a : Nat) (h : Header) :
    (write m a h).read a HEADER_LEN = h.frame := by
  have hfields : (m.write a h.bytes).read a 10 = h.bytes := ByteMemory.read_write_same m a h.bytes
  rw [show HEADER_LEN = 10 + 2 from rfl, ByteMemory.read_add, write, frame]
  congr 1
  · rw [ByteMemory.read_write_outside _ _ _ (Or.inl (Nat.le_refl _))]
    exact hfields
  · rw [show HEADER_LEN - CRC_HEAD_LEN = 10 from rfl, hfields]
    exact ByteMemory.read_write_same _ (a + 10) (bytes16 (crc16Calc h.bytes))

/-- Writing a header touches its twelve bytes only. -/
theorem write_outside (m : ByteMemory) (a : Nat) (h : Header) {i : Nat}
    (hi : i < a ∨ a + HEADER_LEN ≤ i) : write m a h i = m i := by
  simp only [HEADER_LEN] at hi
  rw [write, ByteMemory.write_outside _ _ _ (by simp; omega),
    ByteMemory.write_outside _ _ _ (by simp; omega)]

/-- The header check accepts a header with its checksum. -/
theorem crcHeadCheck_frame (h : Header) : crcHeadCheck h.frame = true := by
  simp [crcHeadCheck, frame, crc16Calc_append_bytes]

end Header
end RoboRTS.Sdk
