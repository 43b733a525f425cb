import LightControlMonitor.Eeprom.Crc16
import LightControlMonitor.Lms.Modbus

/-!
# The two sixteen bit checks

`crc16` and `crc16_modbus` have tables of their own and call the two bytes of the register by opposite names. Both are the bit-serial check with the polynomial `0xA001`, and `crc16` returns it with the bytes exchanged.
-/

namespace LightControlMonitor.Eeprom

/-- The reflected CRC with the polynomial `0xA001` and the initial value `0xFFFF`, bit by bit. -/
def crc16Serial (message : List UInt8) : UInt16 := ⟨Crc.serial 0xA001 0xFFFF (Crc.bits message)⟩

def exchangeBytes (value : UInt16) : UInt16 := value <<< 8 ||| value >>> 8

def tableCrc : Crc.ByteTables 0xA001 := .ofVectors tableCrcHi tableCrcLo (by decide +kernel) (by decide +kernel)

/-- What the code calls the high byte is the low one of the register. -/
def CrcReg.register (reg : CrcReg) : BitVec 16 := reg.lo.toBitVec ++ reg.hi.toBitVec

theorem crc16Byte_register (reg : CrcReg) (byte : UInt8) :
    (crc16Byte reg byte).register = Crc.serial 0xA001 reg.register (Crc.byteBits byte) :=
  tableCrc.lookup reg.lo reg.hi byte

theorem foldl_crc16Byte_register (buffer : List UInt8) :
    (buffer.foldl crc16Byte ⟨0xFF, 0xFF⟩).register = Crc.serial 0xA001 0xFFFF (Crc.bits buffer) :=
  Crc.serial_foldl crc16Byte_register buffer ⟨0xFF, 0xFF⟩

theorem exchangeBytes_bytes (hi lo : UInt8) :
    exchangeBytes (lo.toUInt16 <<< 8 ||| hi.toUInt16) = hi.toUInt16 <<< 8 ||| lo.toUInt16 := by
  rw [← UInt16.toBitVec_inj, exchangeBytes, UInt16.toBitVec_or, Crc.toBitVec_bytes]
  change (lo.toUInt16 <<< 8 ||| hi.toUInt16).toBitVec <<< 8 ||| (lo.toUInt16 <<< 8 ||| hi.toUInt16).toBitVec >>> 8 = _
  rw [Crc.toBitVec_bytes]
  apply BitVec.eq_of_getLsbD_eq
  intro i hi16
  simp only [BitVec.getLsbD_or, BitVec.getLsbD_shiftLeft, BitVec.getLsbD_ushiftRight, BitVec.getLsbD_append, hi16]
  by_cases hlow : i < 8
  · simp [hlow]
  · simp [hlow, show i - 8 < 8 by omega, BitVec.getLsbD_of_ge lo.toBitVec i (Nat.not_lt.mp hlow)]

theorem crc_routines_agree (message : List UInt8) :
    Lms.crc16Modbus message = crc16Serial message ∧ crc16 message = exchangeBytes (crc16Serial message) := by
  constructor
  · exact UInt16.toBitVec_inj.mp (Lms.crc16Modbus_toBitVec message)
  · have hserial : crc16Serial message = (message.foldl crc16Byte ⟨0xFF, 0xFF⟩).lo.toUInt16 <<< 8 |||
        (message.foldl crc16Byte ⟨0xFF, 0xFF⟩).hi.toUInt16 := by
      rw [← UInt16.toBitVec_inj, Crc.toBitVec_bytes]
      exact (foldl_crc16Byte_register message).symm
    rw [hserial, exchangeBytes_bytes]
    rfl

end LightControlMonitor.Eeprom
