import LightControlMonitor.Lib.Serial
import LightControlMonitor.Lms.Burst

/-!
# The detection power of the CRC-4

`crc4_itu` keeps a CRC of four bits in a register of eight, where the rest of a byte waits above it. It is the bit-serial check of width four, so a message whose bits change in one place of at most four bits has another CRC, and the CRC itself is the only nibble that brings the check to zero.
-/

namespace LightControlMonitor.Lms

/-- The CRC is a nibble, the only one that passes the check, and changes with every burst of up to four bits. -/
structure DetectionPower (message : List UInt8) : Prop where
  lt : crc4Itu message < 16
  passes : ∀ x < 16, crc4Itu (message ++ [x]) = 0 ↔ x = crc4Itu message
  burst : ∀ message', Crc.Differ 4 (Crc.bits message) (Crc.bits message') → crc4Itu message' ≠ crc4Itu message

theorem crc4Byte_toBitVec (crc byte : UInt8) :
    (crc4Byte crc byte).toBitVec = Crc.serial 0x0C crc.toBitVec (Crc.byteBits byte) := by
  have hshift : Function.Semiconj UInt8.toBitVec crc4Shift (Crc.shift 0x0C) := crc4Shift_toBitVec
  rw [crc4Byte, hshift.iterate_right 8, Crc.serial_byteBits (le_refl 8), BitVec.setWidth_eq, UInt8.toBitVec_xor]

theorem crc4Itu_toBitVec (message : List UInt8) :
    (crc4Itu message).toBitVec = (Crc.serial (0xC : BitVec 4) 0 (Crc.bits message)).setWidth 8 := by
  rw [← Crc.serial_setWidth (by decide) (by decide)]
  exact Crc.serial_foldl crc4Byte_toBitVec message 0

theorem crc4Itu_lt (message : List UInt8) : crc4Itu message < 16 := by
  rcases List.eq_nil_or_concat' message with rfl | ⟨message, byte, rfl⟩
  · decide
  · rw [crc4Itu, List.foldl_append]
    exact crc4Byte_lt _ _

/-- A nibble in the register is not lost. -/
theorem crc4Byte_eq_zero {crc byte : UInt8} (hcrc : crc < 16) (hbyte : byte < 16) :
    crc4Byte crc byte = 0 ↔ byte = crc := by
  have hall : ∀ n < 16, crc4Shift^[8] (UInt8.ofNat n) = 0 → n = 0 := by
    decide
  have hlt : (crc ^^^ byte).toNat < 2 ^ 4 := by
    rw [UInt8.toNat_xor]
    exact Nat.xor_lt_two_pow hcrc hbyte
  constructor
  · intro hzero
    have hxor : (crc ^^^ byte).toNat = 0 := hall _ hlt (by rwa [UInt8.ofNat_toNat])
    exact (UInt8.xor_eq_zero_iff.mp (UInt8.toNat_inj.mp hxor)).symm
  · rintro rfl
    rw [crc4Byte, UInt8.xor_self]
    decide

theorem crc4Itu_burst {m n : List UInt8} (hdiffer : Crc.Differ 4 (Crc.bits m) (Crc.bits n)) :
    crc4Itu n ≠ crc4Itu m := by
  intro heq
  have hregisters := congrArg UInt8.toBitVec heq
  rw [crc4Itu_toBitVec, crc4Itu_toBitVec] at hregisters
  have hnarrow := congrArg (BitVec.setWidth 4) hregisters
  rw [BitVec.setWidth_setWidth_of_le _ (by decide), BitVec.setWidth_setWidth_of_le _ (by decide), BitVec.setWidth_eq,
    BitVec.setWidth_eq] at hnarrow
  exact Crc.serial_ne (by decide) hdiffer 0 hnarrow.symm

theorem crc4Itu_detects (message : List UInt8) : DetectionPower message where
  lt := crc4Itu_lt message
  passes x hx := by
    have hlast : crc4Itu (message ++ [x]) = crc4Byte (crc4Itu message) x := List.foldl_append
    rw [hlast]
    exact crc4Byte_eq_zero (crc4Itu_lt message) hx
  burst _ hdiffer := crc4Itu_burst hdiffer

end LightControlMonitor.Lms
