import RoboRTS.Sdk.MemoryPool.Allocation
import RoboRTS.Sdk.Protocol.Defs
import RoboRTS.Sdk.Stream.Discipline

/-!
# Packages

The bytes of a package as a list: a header with its checksum, a body, and the checksum of both.
`packCMD_spec` and `packACK_spec` say that the send functions store exactly these bytes in a
block of the right size and touch no other block; `decode_of_package` reads the header back.
-/

namespace RoboRTS.Sdk

namespace Header

/-- The bytes of a package; a package without a body is its header. -/
def package (h : Header) (body : List UInt8) : List UInt8 :=
  if body = [] then h.frame else h.frame ++ body ++ bytes32 (crc32Calc (h.frame ++ body))

theorem package_nil (h : Header) : h.package [] = h.frame := rfl

theorem package_of_ne_nil (h : Header) {body : List UInt8} (hne : body ≠ []) :
    h.package body = h.frame ++ body ++ bytes32 (crc32Calc (h.frame ++ body)) :=
  if_neg hne

theorem length_package (h : Header) {body : List UInt8} (hne : body ≠ []) :
    (h.package body).length = 16 + body.length := by
  rw [package_of_ne_nil h hne]
  simp only [List.length_append, length_frame, length_bytes32]
  omega

/-- A package starts with its header. -/
theorem frame_prefix_package (h : Header) (body : List UInt8) : h.frame <+: h.package body := by
  by_cases hne : body = []
  · subst hne
    exact List.prefix_rfl
  · rw [package_of_ne_nil h hne, List.append_assoc]
    exact List.prefix_append _ _

/-- The header of a list that starts with a package's header. -/
theorem decode_of_prefix {h : Header} {bytes : List UInt8} (hpre : h.frame <+: bytes) :
    decode (ByteMemory.ofList bytes) 0 = h.stored := by
  obtain ⟨rest, rfl⟩ := hpre
  apply decode_of_bytes
  rw [frame, List.append_assoc]
  generalize hl : h.bytes ++ (bytes16 (crc16Calc h.bytes) ++ rest) = bytes
  have hlen : 10 ≤ bytes.length := by
    rw [← hl, List.length_append, length_bytes]
    exact Nat.le_add_right _ _
  rw [← ByteMemory.take_read _ 0 hlen, ByteMemory.read_ofList, ← hl,
    List.take_left' (length_bytes h)]

theorem decode_package (h : Header) (body : List UInt8) :
    decode (ByteMemory.ofList (h.package body)) 0 = h.stored :=
  decode_of_prefix (frame_prefix_package h body)

/-- The header of a package in memory. -/
theorem decode_of_package {m : ByteMemory} {a n : Nat} {h : Header} {body : List UInt8}
    (hread : m.read a n = h.package body) : decode m a = h.stored := by
  obtain ⟨rest, hrest⟩ := frame_prefix_package h body
  have hlen : 12 ≤ n := by
    have := congrArg List.length hread
    rw [ByteMemory.length_read, ← hrest, List.length_append, length_frame] at this
    omega
  apply decode_of_bytes
  rw [← ByteMemory.take_read m a (show 10 ≤ n by omega), hread, ← hrest, frame, List.append_assoc,
    List.take_left' (length_bytes h)]

/-- The data checksum of a package is right. -/
theorem crcTailCheck_package (h : Header) {body : List UInt8} (hne : body ≠ []) :
    crcTailCheck (h.package body) = true := by
  rw [package_of_ne_nil h hne, crcTailCheck, crc32Calc_append_bytes]
  rfl

end Header

namespace Protocol

/-- The checksum written behind a package. -/
theorem read_packCrc {m : ByteMemory} {ptr n : Nat} {front : List UInt8}
    (hread : m.read ptr n = front) :
    (packCrc m ptr (n + 4)).read ptr (n + 4) = front ++ bytes32 (crc32Calc front) := by
  have hn : n + 4 - CRC_DATA_LEN = n := rfl
  have hptr : ptr + (n + 4) - CRC_DATA_LEN = ptr + n := rfl
  rw [packCrc, hptr, hn, hread]
  exact ByteMemory.read_write_append hread (bytes32 (crc32Calc front))

theorem packCrc_outside {m : ByteMemory} {ptr n i : Nat} (hi : i < ptr ∨ ptr + (n + 4) ≤ i) :
    packCrc m ptr (n + 4) i = m i := by
  have hptr : ptr + (n + 4) - CRC_DATA_LEN = ptr + n := rfl
  rw [packCrc, hptr]
  exact ByteMemory.write_outside _ _ _ (by rw [length_bytes32]; omega)

variable {p : Protocol} {b : Nat}

/-- Packing a command fills its block with the package. -/
theorem packCMD_spec (hp : p.memoryPool.Valid) (hb : p.memoryPool.Live b) {data : List UInt8}
    (hsize : (p.memoryPool.memoryTable b).memorySize = 18 + data.length) (i : Nat)
    (cmdSet cmdId receiver : UInt8) :
    ∃ pool, p.packCMD i b (18 + data.length) cmdSet cmdId receiver data = some (p.setPool pool) ∧
      MemoryPool.StoreSpec p.memoryPool b
        ((p.packHeader (18 + data.length) (p.cmdSessionTable i).sessionId false receiver
          p.seqNum).package ([cmdId, cmdSet] ++ data)) pool := by
  have hend := hp.inside b hb
  rw [MemoryPool.blockEnd, hsize] at hend
  have hin : p.blockPtr b + HEADER_LEN + CMD_SET_PREFIX_LEN + data.length ≤
      p.memoryPool.memorySize := by
    simp only [blockPtr, HEADER_LEN, CMD_SET_PREFIX_LEN]
    omega
  rw [packCMD, if_pos hin]
  generalize hheader : p.packHeader (18 + data.length) (p.cmdSessionTable i).sessionId false
    receiver p.seqNum = header
  refine ⟨_, rfl, ?_⟩
  have hpackage := header.package_of_ne_nil (show [cmdId, cmdSet] ++ data ≠ [] by simp)
  have hlen := header.length_package (show [cmdId, cmdSet] ++ data ≠ [] by simp)
  simp only [List.length_append, List.length_cons, List.length_nil] at hlen
  have h1 := Header.read_write p.memoryPool.memory (p.blockPtr b) header
  have h2 := ByteMemory.read_write_append h1 [cmdId, cmdSet]
  have h3 := ByteMemory.read_write_append h2 data
  have h4 := read_packCrc h3
  have hsum : HEADER_LEN + [cmdId, cmdSet].length + data.length + 4 = 18 + data.length := by
    simp only [HEADER_LEN, List.length_cons, List.length_nil]
    omega
  rw [hsum, ← Nat.add_assoc, List.append_assoc] at h4
  refine MemoryPool.storeSpec hp hb (by rw [hsize]; omega) ?_ ?_
  · rw [hpackage, ← hpackage, show (header.package ([cmdId, cmdSet] ++ data)).length =
      18 + data.length by omega, hpackage]
    exact h4
  · intro k hk
    rw [hlen] at hk
    have hk' : k < p.blockPtr b ∨ p.blockPtr b + (14 + data.length + 4) ≤ k := by
      unfold blockPtr
      omega
    rw [show 18 + data.length = 14 + data.length + 4 by omega, packCrc_outside hk',
      ByteMemory.write_outside _ _ _ (by simp only [HEADER_LEN, CMD_SET_PREFIX_LEN]; omega),
      ByteMemory.write_outside _ _ _ (by
        simp only [HEADER_LEN, List.length_cons, List.length_nil]; omega),
      Header.write_outside _ _ _ (by simp only [HEADER_LEN]; omega)]

/-- A command that is packed at all fits 16 bits. -/
theorem packCMD_isSome (hmem : p.memoryPool.memorySize = 4096) {i packLength : Nat}
    {cmdSet cmdId receiver : UInt8} {data : List UInt8} {p' : Protocol}
    (h : p.packCMD i b packLength cmdSet cmdId receiver data = some p') : data.length < 4096 := by
  rw [packCMD] at h
  split at h
  case isTrue hin => simp only [HEADER_LEN, CMD_SET_PREFIX_LEN] at hin; omega
  case isFalse => cases h

/-- Packing an acknowledgement fills its block with the package. -/
theorem packACK_spec (hp : p.memoryPool.Valid) (hb : p.memoryPool.Live b) {ack : List UInt8}
    (hlen : ack.length < 4096)
    (hsize : (p.memoryPool.memoryTable b).memorySize = ackPackLength ack) (sessionId : Nat)
    (seqNum : UInt16) (receiver : UInt8) :
    ∃ pool, p.packACK b (ackPackLength ack) sessionId seqNum receiver ack =
        some (p.setPool pool) ∧
      MemoryPool.StoreSpec p.memoryPool b
        ((p.packHeader (ackPackLength ack) sessionId true receiver seqNum).package ack) pool := by
  have hend := hp.inside b hb
  rw [MemoryPool.blockEnd, hsize] at hend
  generalize hheader : p.packHeader (ackPackLength ack) sessionId true receiver seqNum = header
  have h1 := Header.read_write p.memoryPool.memory (p.blockPtr b) header
  by_cases hne : ack = []
  · subst hne
    simp only [ackPackLength, List.length_nil, if_true, HEADER_LEN] at hend hsize
    rw [packACK, hheader, if_pos (by simp only [blockPtr, HEADER_LEN, List.length_nil]; omega)]
    refine ⟨_, rfl, MemoryPool.storeSpec hp hb ?_ ?_ ?_⟩
    · rw [hsize, Header.package_nil, Header.length_frame]
    · exact h1
    · intro k hk
      rw [Header.package_nil, Header.length_frame] at hk
      exact Header.write_outside _ _ _ hk
  · have hpos : ack.length ≠ 0 := fun h0 => hne (List.length_eq_zero_iff.mp h0)
    have hpack : ackPackLength ack = 12 + ack.length + 4 := by
      simp only [ackPackLength, if_neg hpos, HEADER_LEN, CRC_DATA_LEN]
      omega
    have hpackage := header.length_package hne
    have h2 := ByteMemory.read_write_append h1 ack
    have h3 := read_packCrc h2
    rw [hpack] at hend hsize
    rw [packACK, hheader, if_pos (by simp only [blockPtr, HEADER_LEN]; omega), hpack]
    refine ⟨_, rfl, MemoryPool.storeSpec hp hb ?_ ?_ ?_⟩
    · omega
    · rw [if_pos hpos, hpackage, show 16 + ack.length = 12 + ack.length + 4 by omega,
        header.package_of_ne_nil hne]
      exact h3
    · intro k hk
      rw [hpackage] at hk
      have hk' : k < p.blockPtr b ∨ p.blockPtr b + (12 + ack.length + 4) ≤ k := by
        unfold blockPtr
        omega
      rw [if_pos hpos, packCrc_outside hk',
        ByteMemory.write_outside _ _ _ (by simp only [HEADER_LEN]; omega),
        Header.write_outside _ _ _ (by simp only [HEADER_LEN]; omega)]

/-- An acknowledgement that is packed at all fits 16 bits. -/
theorem packACK_isSome (hmem : p.memoryPool.memorySize = 4096) {packLength sessionId : Nat}
    {seqNum : UInt16} {receiver : UInt8} {ack : List UInt8} {p' : Protocol}
    (h : p.packACK b packLength sessionId seqNum receiver ack = some p') : ack.length < 4096 := by
  rw [packACK] at h
  split at h
  case isTrue hin => simp only [HEADER_LEN] at hin; omega
  case isFalse => cases h

end Protocol

end RoboRTS.Sdk
