import LightControlMonitor.Eeprom.Polynomial
import LightControlMonitor.Eeprom.SysParam

/-!
# Damage to the stored record

The record and its CRC as the 22 bytes in the EEPROM, and what the comparison of `read_sysdata_from_eeprom` sees of a change in two neighbouring bytes. Two bytes of the record are within reach of a sixteen bit check. But `write_sysdata_to_eeprom` stores the two bytes of the register in the order opposite to its shifts, so a change of the last byte of the record can reach the first stored byte of the CRC alone, and then a fitting change of that byte hides it.
-/

namespace LightControlMonitor.Eeprom

def Block.bytes (block : Block) : List UInt8 := block.data.toList ++ [block.crcLo, block.crcHi]

theorem lastByte_lt : 19 < 20 := by
  decide

/-- The last byte of the record changes by `e`, the byte behind it as the CRC does if only this byte of it changes. -/
def Block.hide (block : Block) (e : UInt8) : Block :=
  { block with
    data := block.data.set 19 (block.data.get ⟨19, lastByte_lt⟩ ^^^ e) lastByte_lt
    crcLo := block.crcLo ^^^ tableCrcLo.get e.toFin }

/-- One of the changes that leave the other byte of the CRC alone. -/
def Block.Hidden (block image : Block) : Prop := ∃ e, e ≠ 0 ∧ tableCrcHi.get e.toFin = 0 ∧ image = block.hide e

/-! ### The comparison -/

theorem crcMatches_iff (block : Block) :
    block.CrcMatches ↔ block.data.toList.foldl crc16Byte ⟨0xFF, 0xFF⟩ = ⟨block.crcHi, block.crcLo⟩ := by
  rw [Block.CrcMatches, crc16, UInt16.or_comm block.crcLo.toUInt16, ← UInt16.toBitVec_inj, Crc.toBitVec_bytes,
    Crc.toBitVec_bytes, Crc.append_inj]
  rw [CrcReg.mk.injEq]

theorem toUInt8_and_ff (v : UInt16) : (v &&& 0xff).toUInt8 = v.toUInt8 := by
  rw [← UInt8.toNat_inj, UInt16.toNat_toUInt8, UInt16.toNat_toUInt8, UInt16.toNat_and]
  change (v.toNat &&& (2 ^ 8 - 1)) % 2 ^ 8 = v.toNat % 2 ^ 8
  rw [Nat.and_two_pow_sub_one_eq_mod, Nat.mod_mod]

theorem ofParam_crcMatches (param : SysParam) : (Block.ofParam param).CrcMatches := by
  simp only [Block.CrcMatches, Block.ofParam, toUInt8_and_ff]
  rw [UInt16.or_comm, ← UInt16.toBitVec_inj, Crc.toBitVec_bytes]
  exact Crc.toBitVec_split _

theorem Block.ext_of_data {block image : Block} (hblock : block.CrcMatches) (himage : image.CrcMatches)
    (hdata : image.data = block.data) : image = block := by
  rw [crcMatches_iff] at hblock himage
  rw [hdata, hblock] at himage
  obtain ⟨hhi, hlo⟩ := CrcReg.mk.inj himage
  cases block
  cases image
  simp_all

theorem crc16Byte_xor (reg : CrcReg) (byte e : UInt8) :
    crc16Byte reg (byte ^^^ e) =
      ⟨(crc16Byte reg byte).hi ^^^ tableCrcHi.get e.toFin, (crc16Byte reg byte).lo ^^^ tableCrcLo.get e.toFin⟩ := by
  -- the high byte of the code is the low byte of the table pair
  obtain ⟨hlo, hhi⟩ := tableCrc.xor (reg.hi ^^^ byte) e
  have htableHi : tableCrcHi.get ((reg.hi ^^^ byte) ^^^ e).toFin =
      tableCrcHi.get (reg.hi ^^^ byte).toFin ^^^ tableCrcHi.get e.toFin := hhi
  have htableLo : tableCrcLo.get ((reg.hi ^^^ byte) ^^^ e).toFin =
      tableCrcLo.get (reg.hi ^^^ byte).toFin ^^^ tableCrcLo.get e.toFin := hlo
  change (⟨reg.lo ^^^ tableCrcHi.get (reg.hi ^^^ (byte ^^^ e)).toFin,
      tableCrcLo.get (reg.hi ^^^ (byte ^^^ e)).toFin⟩ : CrcReg) =
    ⟨reg.lo ^^^ tableCrcHi.get (reg.hi ^^^ byte).toFin ^^^ tableCrcHi.get e.toFin,
      tableCrcLo.get (reg.hi ^^^ byte).toFin ^^^ tableCrcLo.get e.toFin⟩
  rw [← UInt8.xor_assoc, htableHi, htableLo, UInt8.xor_assoc]

theorem serial_ne_of_differ {m n : List UInt8} (hdiffer : Crc.Differ 2 m n) :
    m.foldl crc16Byte ⟨0xFF, 0xFF⟩ ≠ n.foldl crc16Byte ⟨0xFF, 0xFF⟩ := by
  intro heq
  have hregisters := congrArg CrcReg.register heq
  rw [foldl_crc16Byte_register, foldl_crc16Byte_register] at hregisters
  exact Crc.serial_ne (by decide) hdiffer.bits 0xFFFF hregisters

/-! ### Hidden changes -/

/-- The record without its last byte. -/
theorem data_eq_append {data : SysParam} {before : List UInt8} {x : UInt8} (hdata : data.toList = before ++ [x]) :
    before.length = 19 ∧ data.get ⟨19, lastByte_lt⟩ = x := by
  have hlength := congrArg List.length hdata
  rw [Vector.length_toList, List.length_append, List.length_singleton] at hlength
  have hbefore : before.length = 19 := by omega
  refine ⟨hbefore, ?_⟩
  have hlast := congrArg (fun bytes => bytes[19]?) hdata
  rw [Vector.getElem?_toList, List.getElem?_append_right (by omega), hbefore, Vector.getElem?_eq_getElem lastByte_lt]
    at hlast
  exact Option.some.inj hlast

theorem hide_data {block : Block} {before : List UInt8} {x : UInt8} (hdata : block.data.toList = before ++ [x])
    (e : UInt8) : (block.hide e).data.toList = before ++ [x ^^^ e] := by
  obtain ⟨hbefore, hlast⟩ := data_eq_append hdata
  change (block.data.set 19 (block.data.get ⟨19, lastByte_lt⟩ ^^^ e) lastByte_lt).toList = _
  rw [hlast, Vector.toList_set, hdata, List.set_append_right _ _ (by omega), hbefore]
  rfl

theorem exists_append_last (data : SysParam) : ∃ before x, data.toList = before ++ [x] := by
  rcases List.eq_nil_or_concat' data.toList with hnil | hlast
  · have hlength := congrArg List.length hnil
    rw [Vector.length_toList] at hlength
    contradiction
  · exact hlast

theorem hide_crcMatches {block : Block} (hblock : block.CrcMatches) {e : UInt8}
    (hzero : tableCrcHi.get e.toFin = 0) : (block.hide e).CrcMatches := by
  obtain ⟨before, x, hdata⟩ := exists_append_last block.data
  rw [crcMatches_iff, hdata, List.foldl_append] at hblock
  rw [crcMatches_iff, hide_data hdata, List.foldl_append]
  change crc16Byte _ x = _ at hblock
  change crc16Byte _ (x ^^^ e) = _
  rw [crc16Byte_xor, hblock, hzero, UInt8.xor_zero]
  rfl

/-- A change inside the record is seen. -/
theorem not_differ_in_data {block image : Block} (hblock : block.CrcMatches) (himage : image.CrcMatches)
    (hcrc : [image.crcLo, image.crcHi] = [block.crcLo, block.crcHi]) :
    ¬ Crc.Differ 2 block.data.toList image.data.toList := by
  intro hdiffer
  rw [crcMatches_iff] at hblock himage
  rw [List.cons.injEq, List.cons.injEq] at hcrc
  apply serial_ne_of_differ hdiffer
  rw [hblock, himage, hcrc.1, hcrc.2.1]

/-- A change of the last byte of the record and of the byte behind it is seen if it is no hidden one. -/
theorem hidden_of_last {block image : Block} (hblock : block.CrcMatches) (himage : image.CrcMatches)
    (hne : image.data ≠ block.data) {before : List UInt8} {x x' : UInt8} (hdata : block.data.toList = before ++ [x])
    (hdata' : image.data.toList = before ++ [x']) (hhi : image.crcHi = block.crcHi) : block.Hidden image := by
  have hxor : x ^^^ (x ^^^ x') = x' := by
    rw [← UInt8.xor_assoc, UInt8.xor_self, UInt8.zero_xor]
  have hrecord : (block.hide (x ^^^ x')).data = image.data := by
    apply Vector.toList_inj.mp
    rw [hide_data hdata, hdata', hxor]
  have hstep := (crcMatches_iff image).mp himage
  rw [hdata', ← hxor, List.foldl_append] at hstep
  change crc16Byte _ (x ^^^ (x ^^^ x')) = _ at hstep
  have hlast := (crcMatches_iff block).mp hblock
  rw [hdata, List.foldl_append] at hlast
  change crc16Byte _ x = _ at hlast
  rw [crc16Byte_xor, hlast, CrcReg.mk.injEq, hhi] at hstep
  refine ⟨x ^^^ x', fun hzero => hne ?_, ?_, ?_⟩
  · obtain rfl := UInt8.xor_eq_zero_iff.mp hzero
    exact Vector.toList_inj.mp (hdata'.trans hdata.symm)
  · have hzero := congrArg (block.crcHi ^^^ ·) hstep.1
    simpa only [← UInt8.xor_assoc, UInt8.xor_self, UInt8.zero_xor] using hzero
  · rw [Block.mk.injEq, hrecord]
    exact ⟨rfl, hstep.2.symm, hhi⟩

/-- Two blocks that pass the check differ in two neighbouring bytes only if one is the other with a hidden change. -/
theorem hidden_of_crcMatches {block image : Block} (hblock : block.CrcMatches) (himage : image.CrcMatches)
    (hdiffer : Crc.Differ 2 block.bytes image.bytes) : block.Hidden image := by
  have hlength : block.data.toList.length = image.data.toList.length := by
    rw [Vector.length_toList, Vector.length_toList]
  rcases hdiffer.append_cases hlength with hdata | ⟨hcrc, hrecord⟩ | hacross
  · rw [Block.ext_of_data hblock himage (Vector.toList_inj.mp hdata.symm)] at hdiffer
    exact absurd rfl hdiffer.ne
  · exact absurd hrecord (not_differ_in_data hblock himage hcrc.symm)
  · obtain ⟨before, u, u', v, v', after, hdata, hdata', hcrc, hcrc', hu, hv, hupos, hvpos, hle⟩ := hacross
    obtain ⟨x, rfl⟩ := List.length_eq_one_iff.mp (show u.length = 1 by omega)
    obtain ⟨x', rfl⟩ := List.length_eq_one_iff.mp (show u'.length = 1 by omega)
    obtain ⟨y, rfl⟩ := List.length_eq_one_iff.mp (show v.length = 1 by omega)
    obtain ⟨y', rfl⟩ := List.length_eq_one_iff.mp (show v'.length = 1 by omega)
    -- the second byte of the CRC is behind the change
    have hbehind : [block.crcHi] = after := (List.cons.inj hcrc).2
    have hhi : image.crcHi = block.crcHi := (List.cons.inj ((List.cons.inj hcrc').2.trans hbehind.symm)).1
    have hne : image.data ≠ block.data := by
      intro heq
      rw [Block.ext_of_data hblock himage heq] at hdiffer
      exact hdiffer.ne rfl
    exact hidden_of_last hblock himage hne hdata hdata' hhi

/-- The comparison passes a damaged record exactly if the damage is a hidden change. -/
theorem damage_detected {param : SysParam} {image : Block}
    (hdiffer : Crc.Differ 2 (Block.ofParam param).bytes image.bytes) :
    image.CrcMatches ↔ (Block.ofParam param).Hidden image := by
  constructor
  · exact fun himage => hidden_of_crcMatches (ofParam_crcMatches param) himage hdiffer
  · rintro ⟨e, -, hzero, rfl⟩
    exact hide_crcMatches (ofParam_crcMatches param) hzero

/-- A hidden change is one of two neighbouring bytes. -/
theorem hide_differ (block : Block) {e : UInt8} (he : e ≠ 0) : Crc.Differ 2 block.bytes (block.hide e).bytes := by
  obtain ⟨before, x, hdata⟩ := exists_append_last block.data
  refine ⟨before, [x, block.crcLo], [x ^^^ e, (block.hide e).crcLo], [block.crcHi], ?_, ?_, rfl, le_refl 2, ?_⟩
  · rw [Block.bytes, hdata]
    simp
  · rw [Block.bytes, hide_data hdata]
    simp [Block.hide]
  · intro heq
    have hlast : x = x ^^^ e := (List.cons.inj heq).1
    apply he
    rw [← UInt8.zero_xor (a := e), ← UInt8.xor_self (a := x), UInt8.xor_assoc, ← hlast]

theorem damage_detected_default :
    ((Block.ofParam sysDefaultPara).hide 1).CrcMatches ↔
      (Block.ofParam sysDefaultPara).Hidden ((Block.ofParam sysDefaultPara).hide 1) :=
  damage_detected (hide_differ _ (by decide))

/-- `0x0c` in the last byte of the record and `0x05` in the byte behind it. -/
theorem not_damage_detected :
    ¬ ∀ (param : SysParam) (image : Block), Crc.Differ 2 (Block.ofParam param).bytes image.bytes →
      ¬ image.CrcMatches := by
  intro h
  exact h sysDefaultPara ((Block.ofParam sysDefaultPara).hide 0x0c) (hide_differ _ (by decide))
    (hide_crcMatches (ofParam_crcMatches _) (by decide))

end LightControlMonitor.Eeprom
