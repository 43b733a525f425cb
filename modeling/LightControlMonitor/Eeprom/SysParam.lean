import LightControlMonitor.Eeprom.Crc16

/-!
# The calibration record in the EEPROM

`i2c_app.c` over the two calls of the EEPROM package it uses. The record is kept as its bytes, and so is the block in the EEPROM: the record and its CRC, the low byte first. A read that fails leaves anything in the buffer, a write that fails leaves anything in the EEPROM.

A block that fails its check is replaced by the defaults and read back, but neither the result nor the CRC of the second read is looked at. So the record is safe if the first read fails or its CRC matches, or if the defaults are written and read back without an error, and otherwise it can be anything.
-/

namespace LightControlMonitor.Eeprom

/-- The bytes of `struct sys_param`. -/
abbrev SysParam := Vector UInt8 20

/-- `SYS_DATA_SIZE + 2` bytes: a record and the two bytes behind it. -/
structure Block where
  data : SysParam
  crcLo : UInt8
  crcHi : UInt8
  deriving DecidableEq

/-- `sys_default_para`: 0, 10.42, 0, 577.7 and −9.04 in single precision, the low byte first. -/
def sysDefaultPara : SysParam :=
  #v[0x00, 0x00, 0x00, 0x00, 0x52, 0xb8, 0x26, 0x41, 0x00, 0x00, 0x00, 0x00, 0xcd, 0x6c, 0x10, 0x44,
    0xd7, 0xa3, 0x10, 0xc1]

/-- The comparison of `read_sysdata_from_eeprom`. -/
def Block.CrcMatches (block : Block) : Prop :=
  crc16 block.data.toList = (block.crcLo.toUInt16 ||| block.crcHi.toUInt16 <<< 8)

instance Block.decidableCrcMatches (block : Block) : Decidable block.CrcMatches := inferInstanceAs (Decidable (_ = _))

/-- A record with its CRC behind it. -/
def Block.ofParam (param : SysParam) : Block :=
  let crc := crc16 param.toList
  { data := param, crcLo := (crc &&& 0xff).toUInt8, crcHi := (crc >>> 8).toUInt8 }

/-- Which calls of the package succeed: the two reads and the writes, by the value of `cnt`. -/
structure Pattern where
  read : Bool
  write : Nat → Bool
  reread : Bool

/-- What the calls that fail leave behind. -/
structure Garbage where
  read : Block
  write : Nat → Block
  reread : Block

/-- `at24cxx_page_read`: the buffer behind it. -/
def pageRead (ok : Bool) (garbage eeprom : Block) : Block := if ok then eeprom else garbage

/-- `at24cxx_page_write`: the EEPROM behind it. -/
def pageWrite (ok : Bool) (garbage tmp : Block) : Block := if ok then tmp else garbage

inductive WriteType
  | defaultValue
  | databaseValue
  deriving DecidableEq

/-- The loop of `write_sysdata_to_eeprom`, entered with `cnt`. -/
def writeLoop (p : Pattern) (g : Garbage) (tmp : Block) : Nat → Block → Block
  | 0, eeprom => eeprom
  | cnt + 1, _ =>
    let eeprom := pageWrite (p.write cnt) (g.write cnt) tmp
    if p.write cnt then eeprom else writeLoop p g tmp cnt eeprom

def writeSysdataToEeprom (p : Pattern) (g : Garbage) (type : WriteType) (gSysParam : SysParam) (eeprom : Block) :
    Block :=
  writeLoop p g (Block.ofParam (if type = .databaseValue then gSysParam else sysDefaultPara)) 3 eeprom

/-- What `read_sysdata_from_eeprom` leaves, and the blocks it has read without an error. -/
structure Loaded where
  eeprom : Block
  gSysParam : SysParam
  reads : List Block

def readSysdataFromEeprom (p : Pattern) (g : Garbage) (eeprom : Block) (gSysParam : SysParam) : Loaded :=
  if p.read = false then { eeprom := eeprom, gSysParam := gSysParam, reads := [] }
  else
    let sysData := pageRead p.read g.read eeprom
    if ¬ sysData.CrcMatches then
      let written := writeSysdataToEeprom p g .defaultValue gSysParam eeprom
      let reread := pageRead p.reread g.reread written
      { eeprom := written, gSysParam := reread.data, reads := eeprom :: if p.reread then [written] else [] }
    else { eeprom := eeprom, gSysParam := sysData.data, reads := [eeprom] }

/-- The record is unchanged, the default, or a block that was read without an error and passes the check. -/
def Loaded.Safe (before : SysParam) (loaded : Loaded) : Prop :=
  loaded.gSysParam = before ∨ loaded.gSysParam = sysDefaultPara ∨
    ∃ block ∈ loaded.reads, block.CrcMatches ∧ loaded.gSysParam = block.data

instance Loaded.decidableSafe (before : SysParam) (loaded : Loaded) : Decidable (loaded.Safe before) :=
  inferInstanceAs (Decidable (loaded.gSysParam = before ∨ loaded.gSysParam = sysDefaultPara ∨
    ∃ block ∈ loaded.reads, block.CrcMatches ∧ loaded.gSysParam = block.data))

/-- The first read fails or passes the check, or one of the three writes and the second read succeed. -/
def Pattern.Recovers (p : Pattern) (eeprom : Block) : Prop :=
  p.read = false ∨ eeprom.CrcMatches ∨ ((∃ cnt < 3, p.write cnt = true) ∧ p.reread = true)

/-! ### The write loop -/

theorem writeLoop_of_success {p : Pattern} {g : Garbage} {tmp : Block} {cnt : Nat}
    (hsome : ∃ i < cnt, p.write i = true) (eeprom : Block) : writeLoop p g tmp cnt eeprom = tmp := by
  induction cnt generalizing eeprom with
  | zero => simp at hsome
  | succ cnt ih =>
    rw [writeLoop]
    by_cases hwrite : p.write cnt = true
    · rw [if_pos hwrite, pageWrite, if_pos hwrite]
    · rw [if_neg hwrite]
      apply ih
      obtain ⟨i, hi, hwritten⟩ := hsome
      have hne : i ≠ cnt := fun heq => hwrite (heq ▸ hwritten)
      exact ⟨i, by omega, hwritten⟩

theorem writeLoop_of_failure {p : Pattern} {g : Garbage} {tmp : Block} {cnt : Nat}
    (hnone : ∀ i < cnt + 1, p.write i = false) (eeprom : Block) : writeLoop p g tmp (cnt + 1) eeprom = g.write 0 := by
  induction cnt generalizing eeprom with
  | zero => simp [writeLoop, pageWrite, hnone 0]
  | succ cnt ih =>
    rw [writeLoop, if_neg (by simp [hnone (cnt + 1)])]
    exact ih (fun i hi => hnone i (by omega)) _

/-! ### What the record can be -/

theorem exists_ne_ne (before : SysParam) : ∃ param : SysParam, param ≠ before ∧ param ≠ sysDefaultPara := by
  by_cases hone : Vector.replicate 20 1 = before
  · refine ⟨Vector.replicate 20 2, fun htwo => ?_, by decide⟩
    rw [← hone] at htwo
    exact absurd htwo (by decide)
  · exact ⟨_, hone, by decide⟩

/-- A record does not fit every CRC. -/
theorem exists_not_crcMatches (param : SysParam) : ∃ block : Block, block.data = param ∧ ¬ block.CrcMatches := by
  by_cases hzero : (⟨param, 0, 0⟩ : Block).CrcMatches
  · refine ⟨⟨param, 1, 0⟩, rfl, fun hone => ?_⟩
    have hcrc : ((0 : UInt8).toUInt16 ||| (0 : UInt8).toUInt16 <<< 8) =
        ((1 : UInt8).toUInt16 ||| (0 : UInt8).toUInt16 <<< 8) := hzero.symm.trans hone
    exact absurd hcrc (by decide)
  · exact ⟨_, rfl, hzero⟩

theorem safe_of_recovers {p : Pattern} {eeprom : Block} (h : p.Recovers eeprom) (g : Garbage) (before : SysParam) :
    (readSysdataFromEeprom p g eeprom before).Safe before := by
  unfold readSysdataFromEeprom
  split
  · exact .inl rfl
  · rename_i hread
    have hbuffer : pageRead p.read g.read eeprom = eeprom := if_pos (by simpa using hread)
    dsimp only
    split
    · rename_i hfail
      rw [hbuffer] at hfail
      obtain ⟨hwrite, hreread⟩ := (h.resolve_left hread).resolve_left hfail
      apply Or.inr
      apply Or.inl
      rw [hreread, pageRead, if_pos rfl, writeSysdataToEeprom, writeLoop_of_success hwrite]
      rfl
    · rename_i hmatch
      rw [hbuffer] at hmatch ⊢
      exact .inr (.inr ⟨eeprom, List.mem_singleton_self _, not_not.mp hmatch, rfl⟩)

/-- Where the recovery fails, what is left behind decides. -/
theorem not_safe_of_not_recovers {p : Pattern} {eeprom : Block} (h : ¬ p.Recovers eeprom) (before : SysParam) :
    ∃ g, ¬ (readSysdataFromEeprom p g eeprom before).Safe before := by
  rw [Pattern.Recovers, not_or, not_or, Bool.not_eq_false] at h
  obtain ⟨hread, hfail, hrecover⟩ := h
  obtain ⟨param, hbefore, hdefault⟩ := exists_ne_ne before
  obtain ⟨garbage, hdata, hgarbage⟩ := exists_not_crcMatches param
  refine ⟨⟨garbage, fun _ => garbage, garbage⟩, ?_⟩
  -- the second read succeeds only on what the last of three failing writes has left
  have hwritten : p.reread = true →
      writeSysdataToEeprom p ⟨garbage, fun _ => garbage, garbage⟩ .defaultValue before eeprom = garbage := by
    intro hreread
    apply writeLoop_of_failure
    intro i hi
    rw [← Bool.not_eq_true]
    exact fun hok => hrecover ⟨⟨i, hi, hok⟩, hreread⟩
  have hloaded : (readSysdataFromEeprom p ⟨garbage, fun _ => garbage, garbage⟩ eeprom before).gSysParam = param ∧
      ∀ block ∈ (readSysdataFromEeprom p ⟨garbage, fun _ => garbage, garbage⟩ eeprom before).reads,
        ¬ block.CrcMatches := by
    simp only [readSysdataFromEeprom, hread, pageRead, Bool.true_eq_false, if_false, if_true, hfail, not_false_eq_true]
    by_cases hreread : p.reread = true
    · rw [if_pos hreread, if_pos hreread, hwritten hreread]
      refine ⟨hdata, fun block hmem => ?_⟩
      simp only [List.mem_cons, List.not_mem_nil, or_false] at hmem
      rcases hmem with rfl | rfl
      · exact hfail
      · exact hgarbage
    · rw [if_neg hreread, if_neg hreread]
      refine ⟨hdata, fun block hmem => ?_⟩
      rw [List.mem_singleton.mp hmem]
      exact hfail
  obtain ⟨hparam, hreads⟩ := hloaded
  rintro (hsame | hsame | ⟨block, hmem, hmatch, -⟩)
  · exact hbefore (hparam.symm.trans hsame)
  · exact hdefault (hparam.symm.trans hsame)
  · exact hreads block hmem hmatch

/-- The record is safe whatever the failing calls leave behind exactly if the pattern recovers. -/
theorem safe_iff_recovers (p : Pattern) (eeprom : Block) (before : SysParam) :
    (∀ g, (readSysdataFromEeprom p g eeprom before).Safe before) ↔ p.Recovers eeprom := by
  constructor
  · intro hsafe
    by_contra h
    obtain ⟨g, hg⟩ := not_safe_of_not_recovers h before
    exact hg (hsafe g)
  · exact fun h g => safe_of_recovers h g before

/-- A blank EEPROM is written, and the second read fails and leaves the buffer full of `0x55`. -/
theorem not_safe_blank :
    ¬ ∀ (p : Pattern) (g : Garbage) (eeprom : Block) (before : SysParam),
      (readSysdataFromEeprom p g eeprom before).Safe before := by
  intro h
  let blank : Block := ⟨Vector.replicate 20 0xff, 0xff, 0xff⟩
  let noise : Block := ⟨Vector.replicate 20 0x55, 0x55, 0x55⟩
  have hsafe := h ⟨true, fun _ => true, false⟩ ⟨noise, fun _ => noise, noise⟩ blank (Vector.replicate 20 0)
  revert hsafe
  decide +kernel

end LightControlMonitor.Eeprom
