import RustiCache.HashSlots
import RustiCache.ShiftRegisters
import Mathlib.Tactic.IntervalCases

/-!
# The checksum as a remainder

The checksum takes a byte at a time and looks up in its table what eight steps of
a shift register do.  The table holds these steps for an empty register; the
rest follows since the steps are linear.
-/

namespace RustiCache

open Polynomial

/-- The bits of a byte, the most significant first. -/
def byteBits (byte : UInt8) : List Bool :=
  (List.range 8).map byte.toBitVec.getMsbD

/-- The bits of a byte string. -/
def messageBits (bytes : Bytes) : List Bool :=
  bytes.flatMap byteBits

/-- The checksum by its definition, bit after bit. -/
def crc16Bitwise (bytes : Bytes) : UInt16 :=
  ⟨ShiftRegister.divide 0x1021#16 (messageBits bytes)⟩

namespace Crc16

/-- One step of the checksum. -/
def lookUp (crc : UInt16) (byte : UInt8) : UInt16 :=
  ((crc <<< 8) &&& (0xFF00 : UInt16)) ^^^
    crc16Tab.getD (crc16Index crc byte).toNat 0

/-- The eight steps that a lookup stands for. -/
def feedByte (crc : UInt16) (byte : UInt8) : UInt16 :=
  ⟨ShiftRegister.feedAll 0x1021#16 crc.toBitVec (byteBits byte)⟩

@[elab_as_elim]
theorem forall_byte {motive : UInt8 → Prop} (byte : UInt8)
    (all : ∀ place : Fin 256, motive (UInt8.ofFin place)) : motive byte :=
  all byte.toFin

section Bytes

def highByte (crc : UInt16) : UInt8 :=
  ⟨crc.toBitVec.extractLsb' 8 8⟩

def lowByte (crc : UInt16) : UInt8 :=
  ⟨crc.toBitVec.extractLsb' 0 8⟩

/-- A register with the given bytes. -/
def ofBytes (high low : UInt8) : UInt16 :=
  (high.toUInt16 <<< 8) ^^^ low.toUInt16

theorem ofBytes_highByte_lowByte (crc : UInt16) :
    ofBytes (highByte crc) (lowByte crc) = crc := by
  apply UInt16.toBitVec_inj.mp
  apply BitVec.eq_of_getLsbD_eq
  intro place inside
  by_cases low : place < 8
  · simp [ofBytes, lowByte, low, inside]
  · have beyond : place - 8 < 8 := by omega
    have back : 8 + (place - 8) = place := by omega
    simp [ofBytes, highByte, lowByte, low, inside, beyond, back]

theorem crc16Index_ofBytes (high low byte : UInt8) :
    crc16Index (ofBytes high low) byte = (high ^^^ byte).toUInt16 := by
  apply UInt16.toBitVec_inj.mp
  apply BitVec.eq_of_getLsbD_eq
  intro place inside
  interval_cases place <;> simp [crc16Index, ofBytes]

theorem shiftLeft_ofBytes (high low : UInt8) :
    (ofBytes high low <<< 8) &&& (0xFF00 : UInt16) = ofBytes low 0 := by
  apply UInt16.toBitVec_inj.mp
  apply BitVec.eq_of_getLsbD_eq
  intro place inside
  interval_cases place <;> simp [ofBytes]

theorem ofBytes_eq_xor (high low : UInt8) :
    ofBytes high low = ofBytes 0 low ^^^ ofBytes high 0 := by
  simp [ofBytes, UInt16.xor_comm]

end Bytes

section Steps

/-- The table holds eight steps of an empty register for every byte. -/
theorem crc16Tab_eq :
    crc16Tab = (List.range 256).map fun place => feedByte 0 (UInt8.ofNat place) := by
  decide +kernel

theorem feedByte_zero (byte : UInt8) :
    feedByte 0 byte = crc16Tab.getD byte.toNat 0 := by
  have inside : byte.toNat < 256 := byte.toNat_lt
  rw [crc16Tab_eq, List.getD_eq_getElem?_getD, List.getElem?_map,
    List.getElem?_range inside, Option.map_some, Option.getD_some,
    UInt8.ofNat_toNat]

/-- Eight empty steps move the lower byte up. -/
theorem feedByte_low (low : UInt8) :
    feedByte (ofBytes 0 low) 0 = ofBytes low 0 := by
  induction low using forall_byte with
  | all place =>
      revert place
      decide +kernel

/-- The upper byte is cancelled by its own bits. -/
theorem feedByte_high (high : UInt8) :
    feedByte (ofBytes high 0) high = 0 := by
  induction high using forall_byte with
  | all place =>
      revert place
      decide +kernel

theorem byteBits_xor (first second : UInt8) :
    byteBits (first ^^^ second) =
      List.zipWith (· ^^ ·) (byteBits first) (byteBits second) := by
  simp [byteBits, List.range, List.range.loop, BitVec.getMsbD_xor]

theorem feedByte_xor (first second : UInt16) (byte other : UInt8) :
    feedByte (first ^^^ second) (byte ^^^ other) =
      feedByte first byte ^^^ feedByte second other := by
  apply UInt16.toBitVec_inj.mp
  have same : (byteBits byte).length = (byteBits other).length := by
    simp [byteBits]
  have linear := ShiftRegister.feedAll_xor 0x1021#16 first.toBitVec
    second.toBitVec same
  rw [← byteBits_xor] at linear
  exact linear

/-- A lookup does what eight steps do. -/
theorem lookUp_eq_feedByte (crc : UInt16) (byte : UInt8) :
    lookUp crc byte = feedByte crc byte := by
  rw [← ofBytes_highByte_lowByte crc]
  generalize highByte crc = high
  generalize lowByte crc = low
  have register : ofBytes high low = ofBytes 0 low ^^^ (ofBytes high 0 ^^^ 0) := by
    rw [UInt16.xor_zero, ← ofBytes_eq_xor]
  have bits : byte = 0 ^^^ (high ^^^ (high ^^^ byte)) := by
    rw [← UInt8.xor_assoc high, UInt8.xor_self, UInt8.zero_xor, UInt8.zero_xor]
  calc lookUp (ofBytes high low) byte =
      ofBytes low 0 ^^^ crc16Tab.getD (high ^^^ byte).toNat 0 := by
        rw [lookUp, shiftLeft_ofBytes, crc16Index_ofBytes, UInt8.toNat_toUInt16]
    _ = feedByte (ofBytes 0 low) 0 ^^^
          (feedByte (ofBytes high 0) high ^^^ feedByte 0 (high ^^^ byte)) := by
        rw [feedByte_low, feedByte_high, feedByte_zero, UInt16.zero_xor]
    _ = feedByte (ofBytes 0 low ^^^ (ofBytes high 0 ^^^ 0))
          (0 ^^^ (high ^^^ (high ^^^ byte))) := by
        rw [← feedByte_xor, ← feedByte_xor]
    _ = feedByte (ofBytes high low) byte := by
        rw [← register, ← bits]

end Steps

theorem foldl_lookUp (crc : UInt16) (bytes : Bytes) :
    (bytes.foldl lookUp crc).toBitVec =
      ShiftRegister.feedAll 0x1021#16 crc.toBitVec (messageBits bytes) := by
  induction bytes generalizing crc with
  | nil => rfl
  | cons byte bytes ih =>
      have joined : messageBits (byte :: bytes) =
          byteBits byte ++ messageBits bytes :=
        List.flatMap_cons
      rw [List.foldl_cons, ih, lookUp_eq_feedByte, joined,
        ShiftRegister.feedAll_append]
      rfl

theorem crc16_toBitVec (bytes : Bytes) :
    (crc16 bytes).toBitVec =
      ShiftRegister.divide 0x1021#16 (messageBits bytes) :=
  foldl_lookUp 0 bytes

theorem generator_taps :
    ShiftRegister.generator 0x1021#16 =
      (X ^ 16 + X ^ 12 + X ^ 5 + 1 : (ZMod 2)[X]) := by
  have taps : ShiftRegister.polynomial 0x1021#16 =
      (1 + X ^ 5 + X ^ 12 : (ZMod 2)[X]) := by
    simp [ShiftRegister.polynomial, ShiftRegister.coefficient,
      Finset.sum_range_succ]
  rw [ShiftRegister.generator, taps]
  ring

end Crc16

/-- The checksum with a table is the one bit after bit, and the remainder of the
message in the division by the generator. -/
theorem crc16_eq_remainder (bytes : Bytes) :
    crc16 bytes = crc16Bitwise bytes ∧
      ShiftRegister.polynomial (crc16 bytes).toBitVec =
        (ShiftRegister.message (messageBits bytes) * X ^ 16) %ₘ
          (X ^ 16 + X ^ 12 + X ^ 5 + 1) := by
  constructor
  · apply UInt16.toBitVec_inj.mp
    exact Crc16.crc16_toBitVec bytes
  · rw [Crc16.crc16_toBitVec, ShiftRegister.polynomial_divide_eq_mod,
      Crc16.generator_taps]

end RustiCache
