import LightControlMonitor.Lib.Crc
import LightControlMonitor.Lms.Machine

/-!
# Bursts on the wire of a command

The second and third byte of a frame as the sixteen bits the receiver sees, and the check described in `lms.c` on them. The check is linear, so a corruption is detected exactly if the check of the error alone is not zero. The order nibble goes through the CRC before the check nibble but leaves the UART behind it, so one burst of four bits is no burst for the CRC, and that one is not detected.
-/

namespace LightControlMonitor.Lms

/-- The bits of two bytes in the order of the UART: the bytes one after the other, the least significant bit first. -/
def wireBits (b1 b2 : UInt8) : BitVec 16 := b2.toBitVec ++ b1.toBitVec

/-- The two bytes a receiver reads from sixteen bits. -/
def wireBytes (bits : BitVec 16) : UInt8 × UInt8 :=
  (UInt8.ofBitVec (bits.extractLsb' 0 8), UInt8.ofBitVec (bits.extractLsb' 8 8))

/-- The check of a receiver: `message[] = {data1, data0, crc4}`. -/
def rxCheck (bits : BitVec 16) : UInt8 :=
  let b1 := (wireBytes bits).1
  let b2 := (wireBytes bits).2
  crc4Itu [b1, b2 &&& 0xf0, b2 &&& 0x0f]

/-- The inversion of the wire bits 11 to 14. -/
def silentBurst : BitVec 16 := 0x7800

/-! ### The check is linear -/

theorem crc4Shift_toBitVec (crc : UInt8) : (crc4Shift crc).toBitVec = Crc.shift 0x0C crc.toBitVec := by
  have hlow : crc &&& 0x01 ≠ 0 ↔ crc.toBitVec.getLsbD 0 = true := by
    rw [Ne, ← UInt8.toBitVec_inj, UInt8.toBitVec_and]
    change ¬ crc.toBitVec &&& 1#8 = 0#8 ↔ _
    rw [BitVec.and_one_eq_setWidth_ofBool_getLsbD]
    cases crc.toBitVec.getLsbD 0 <;> simp
  unfold crc4Shift Crc.shift
  by_cases h : crc.toBitVec.getLsbD 0 = true
  · rw [if_pos (hlow.mpr h), if_pos h]
    rfl
  · rw [if_neg (mt hlow.mp h), if_neg h]
    rfl

theorem crc4Shift_xor : Function.Semiconj₂ crc4Shift (· ^^^ ·) (· ^^^ ·) := by
  intro x y
  apply UInt8.toBitVec_inj.mp
  rw [UInt8.toBitVec_xor, crc4Shift_toBitVec, crc4Shift_toBitVec, crc4Shift_toBitVec, UInt8.toBitVec_xor]
  exact Crc.shift_xor _ _ _

theorem crc4Itu_eq_check (message : List UInt8) : crc4Itu message = Crc.check (· ^^^ ·) crc4Shift^[8] 0 message := rfl

theorem crc4Itu_zipWith {m n : List UInt8} (hlength : m.length = n.length) :
    crc4Itu (List.zipWith (· ^^^ ·) m n) = crc4Itu m ^^^ crc4Itu n := by
  rw [crc4Itu_eq_check, crc4Itu_eq_check, crc4Itu_eq_check]
  exact Crc.check_zipWith _ _ (crc4Shift_xor.iterate 8) hlength 0 0

theorem xor_and_byte (x y mask : UInt8) : (x ^^^ y) &&& mask = (x &&& mask) ^^^ (y &&& mask) := by
  apply UInt8.toBitVec_inj.mp
  simp only [UInt8.toBitVec_xor, UInt8.toBitVec_and]
  ext i hi
  simp only [BitVec.getElem_xor, BitVec.getElem_and, Bool.and_xor_distrib_right]

theorem or_and_byte (x y mask : UInt8) : (x ||| y) &&& mask = (x &&& mask) ||| (y &&& mask) := by
  apply UInt8.toBitVec_inj.mp
  simp only [UInt8.toBitVec_or, UInt8.toBitVec_and]
  exact BitVec.and_or_distrib_right

theorem rxCheck_xor (x y : BitVec 16) : rxCheck (x ^^^ y) = rxCheck x ^^^ rxCheck y := by
  simp only [rxCheck, wireBytes, BitVec.extractLsb'_xor, UInt8.ofBitVec_xor, xor_and_byte]
  exact crc4Itu_zipWith (m := [_, _, _]) (n := [_, _, _]) rfl

/-! ### A whole command passes the check -/

theorem crc4Byte_lt (crc byte : UInt8) : crc4Byte crc byte < 16 := by
  have hall : ∀ n < 256, crc4Shift^[8] (UInt8.ofNat n) < 16 := by
    decide +kernel
  simpa [crc4Byte] using hall (crc ^^^ byte).toNat (crc ^^^ byte).toNat_lt

/-- The CRC of a message with its CRC behind it. -/
theorem crc4Itu_concat_self (message : List UInt8) : crc4Itu (message ++ [crc4Itu message]) = 0 := by
  rw [crc4Itu, List.foldl_append]
  change crc4Shift^[8] (crc4Itu message ^^^ crc4Itu message) = 0
  rw [UInt8.xor_self]
  decide

theorem order_nibble (cmd crc : UInt8) (hcrc : crc < 16) :
    (crc ||| cmd <<< 4) &&& (0xf0 : UInt8) = cmd <<< 4 ∧ (crc ||| cmd <<< 4) &&& (0x0f : UInt8) = crc := by
  have hhigh : ∀ n < 256, (UInt8.ofNat n <<< 4) &&& (0xf0 : UInt8) = UInt8.ofNat n <<< 4 ∧
      (UInt8.ofNat n <<< 4) &&& (0x0f : UInt8) = 0 := by
    decide +kernel
  have hlow : ∀ n < 16, UInt8.ofNat n &&& (0xf0 : UInt8) = 0 ∧
      UInt8.ofNat n &&& (0x0f : UInt8) = UInt8.ofNat n := by
    decide
  have hcmd := hhigh cmd.toNat cmd.toNat_lt
  have hcrc := hlow crc.toNat hcrc
  rw [UInt8.ofNat_toNat] at hcmd hcrc
  rw [or_and_byte, or_and_byte, hcmd.1, hcmd.2, hcrc.1, hcrc.2]
  exact ⟨UInt8.zero_or, UInt8.or_zero⟩

theorem buildCtrlCmd_cmdData {lms lms' : LmsT} {call : Call} (hfree : lms.cmdInfo.writeLock = false)
    (hbuild : buildCtrlCmd lms call = some lms') :
    lms'.cmdInfo.cmdData =
      #v[call.sync, call.segId, crc4Itu [call.segId, call.cmd <<< 4] ||| call.cmd <<< 4] := by
  rw [buildCtrlCmd, if_neg (by simp [hfree])] at hbuild
  obtain ⟨sync, hsync, rfl⟩ := Option.map_eq_some_iff.mp hbuild
  rw [Call.sync, hsync]
  rfl

theorem rxCheck_command (call : Call) :
    rxCheck (wireBits call.segId (crc4Itu [call.segId, call.cmd <<< 4] ||| call.cmd <<< 4)) = 0 := by
  obtain ⟨horder, hcrc⟩ := order_nibble call.cmd _ (crc4Byte_lt (crc4Byte 0 call.segId) (call.cmd <<< 4))
  simp only [rxCheck, wireBytes, wireBits, BitVec.extractLsb'_append_eq_left, BitVec.extractLsb'_append_eq_right,
    UInt8.ofBitVec_toBitVec]
  rw [show crc4Itu [call.segId, call.cmd <<< 4] = crc4Byte (crc4Byte 0 call.segId) (call.cmd <<< 4) from rfl, horder,
    hcrc]
  exact crc4Itu_concat_self [call.segId, call.cmd <<< 4]

/-! ### Bursts -/

/-- The bits behind the sync byte of the frame in the buffer. -/
def CmdT.wireBits (cmd : CmdT) : BitVec 16 := Lms.wireBits (cmd.cmdData.get 1) (cmd.cmdData.get 2)

theorem rxCheck_burst {mask : BitVec 16} (hburst : Crc.Burst 4 mask) : rxCheck mask ≠ 0 ↔ mask ≠ silentBurst := by
  have hall : ∀ start ≤ 12, ∀ pattern < 16, pattern ≠ 0 →
      (rxCheck (BitVec.ofNat 16 pattern <<< start) ≠ 0 ↔ BitVec.ofNat 16 pattern <<< start ≠ silentBurst) := by
    decide +kernel
  obtain ⟨start, hstart, pattern, hpattern, hne, rfl⟩ := hburst.eq_shiftLeft (by decide)
  exact hall start hstart pattern hpattern hne

/-- The check of a corrupted command is zero for one burst of at most four bits only. -/
theorem burst_detected {lms lms' : LmsT} {call : Call} {mask : BitVec 16} (hfree : lms.cmdInfo.writeLock = false)
    (hbuild : buildCtrlCmd lms call = some lms') (hburst : Crc.Burst 4 mask) :
    rxCheck (lms'.cmdInfo.wireBits ^^^ mask) ≠ 0 ↔ mask ≠ silentBurst := by
  have hcommand : rxCheck lms'.cmdInfo.wireBits = 0 := by
    rw [CmdT.wireBits, buildCtrlCmd_cmdData hfree hbuild]
    exact rxCheck_command call
  rw [rxCheck_xor, hcommand, UInt8.zero_xor]
  exact rxCheck_burst hburst

theorem silentBurst_burst : Crc.Burst 4 silentBurst :=
  Crc.burst_of_lt (by decide) 11 (by decide)

theorem burst_detected_first :
    rxCheck (((buildCtrlCmd lmsInit ⟨0, 1, 2⟩).get rfl).cmdInfo.wireBits ^^^ 1) ≠ 0 ↔ (1 : BitVec 16) ≠ silentBurst :=
  burst_detected rfl (Option.some_get _).symm (Crc.burst_of_lt (by decide) 0 (by decide))

/-- Order 2 with its four wire bits from bit 11 on inverted is order 5 with a correct check. -/
theorem not_burst_detected :
    ¬ ∀ (lms lms' : LmsT) (call : Call) (mask : BitVec 16), lms.cmdInfo.writeLock = false →
      buildCtrlCmd lms call = some lms' → Crc.Burst 4 mask → rxCheck (lms'.cmdInfo.wireBits ^^^ mask) ≠ 0 := by
  intro h
  exact h lmsInit _ ⟨0, 1, 2⟩ silentBurst rfl (Option.some_get (by rfl)).symm silentBurst_burst (by decide +kernel)

end LightControlMonitor.Lms
