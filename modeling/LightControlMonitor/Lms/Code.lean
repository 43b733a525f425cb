import Mathlib.Logic.Function.Iterate

/-!
# The codes of the lamp bus

`lms.c`: the table of the Hamming-coded sync bytes and the CRC-4 that closes a long frame. A message is the list of its bytes, so the length argument of the C functions is the length of the list.
-/

namespace LightControlMonitor.Lms

/-- `TxSyncFrame[]`: for every group the short and the long sync byte. -/
def txSyncFrame : Vector UInt8 16 :=
  #v[0x00, 0x0b, 0x15, 0x1e, 0x26, 0x2d, 0x33, 0x38, 0x47, 0x4c, 0x52, 0x59, 0x61, 0x6a, 0x74, 0x7f]

def longCmd : UInt8 := 0x01

/-- `GenSyncFrame`; a group above 7 reads outside the table. -/
def genSyncFrame (byGroupNo idType : UInt8) : Option UInt8 :=
  txSyncFrame[(byGroupNo.toNat <<< 1) ||| idType.toNat]?

/-- One turn of the inner loop of `crc4_itu`. -/
def crc4Shift (crc : UInt8) : UInt8 :=
  if crc &&& 0x01 ≠ 0 then (crc >>> 1) ^^^ 0x0C else crc >>> 1

/-- One turn of the outer loop of `crc4_itu`. -/
def crc4Byte (crc byte : UInt8) : UInt8 := crc4Shift^[8] (crc ^^^ byte)

def crc4Itu (message : List UInt8) : UInt8 := message.foldl crc4Byte 0

theorem genSyncFrame_of_lt {group : UInt8} (hgroup : group < 8) : ∃ sync, genSyncFrame group longCmd = some sync := by
  have hlt : group.toNat < 8 := hgroup
  have hindex : (group.toNat <<< 1) ||| longCmd.toNat < 16 := by
    apply Nat.or_lt_two_pow (n := 4)
    · rw [Nat.shiftLeft_eq]
      omega
    · decide
  exact ⟨_, Vector.getElem?_eq_getElem hindex⟩

theorem genSyncFrame_isSome_iff {group : UInt8} : (genSyncFrame group longCmd).isSome ↔ group < 8 := by
  constructor
  · intro hsome
    by_contra hlarge
    have hle : 8 ≤ group.toNat := UInt8.not_lt.mp hlarge
    have hindex : 16 ≤ (group.toNat <<< 1) ||| longCmd.toNat := by
      refine Nat.le_trans ?_ Nat.left_le_or
      rw [Nat.shiftLeft_eq]
      omega
    rw [genSyncFrame, Vector.getElem?_eq_none hindex] at hsome
    contradiction
  · intro hgroup
    obtain ⟨sync, hsync⟩ := genSyncFrame_of_lt hgroup
    rw [hsync]
    rfl

end LightControlMonitor.Lms
