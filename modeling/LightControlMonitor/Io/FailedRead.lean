import LightControlMonitor.Io.InputCheck

/-!
# A failed port read

When `read_regs` fails, the byte that `TCA9535_Read_Port` returns is whatever the stack held, and the turn goes on with it. When only the write of the register pointer fails, the byte is that of some other register of the device. So a turn is harmless only if both reads went through and a byte from a wrong register changes no status bit.
-/

namespace LightControlMonitor.Io

open Can (CanDev MyPara)

def PortRead.Failed (r : PortRead) : Prop := r.writeOk = false ∨ r.readOk = false

structure SameInputs (para para' : MyPara) : Prop where
  inputP0 : para.inputP0 = para'.inputP0
  inputP1 : para.inputP1 = para'.inputP1
  alarms : ∀ a, alarm para.ccrAlarmState a = alarm para'.ccrAlarmState a
  localRemote : para.ccrLocalRemote = para'.ccrLocalRemote
  relay : para.ccrRelayState = para'.ccrRelayState
  powerOn : para.ccrPowerOnState = para'.ccrPowerOnState

def paraAfter (s : InputState) (commFail : CanDev → UInt8) (read0 read1 : PortRead) (temp0 temp1 : UInt8) : MyPara :=
  (inputCheck s commFail read0 read1 temp0 temp1).1.para

/-- The turn does not depend on the stack, and the bits of a port whose read failed stay. -/
structure FailureHarmless (s : InputState) (commFail : CanDev → UInt8) (read0 read1 : PortRead) : Prop where
  determined : ∀ temp0 temp1 temp0' temp1', SameInputs (paraAfter s commFail read0 read1 temp0 temp1)
    (paraAfter s commFail read0 read1 temp0' temp1')
  kept0 : read0.Failed → ∀ temp0 temp1 a, a ≠ .powerOff →
    alarm (paraAfter s commFail read0 read1 temp0 temp1).ccrAlarmState a = alarm s.para.ccrAlarmState a
  kept1 : read1.Failed → ∀ temp0 temp1,
    (paraAfter s commFail read0 read1 temp0 temp1).ccrLocalRemote = s.para.ccrLocalRemote ∧
    (paraAfter s commFail read0 read1 temp0 temp1).ccrRelayState = s.para.ccrRelayState ∧
    (paraAfter s commFail read0 read1 temp0 temp1).ccrPowerOnState = s.para.ccrPowerOnState ∧
    alarm (paraAfter s commFail read0 read1 temp0 temp1).ccrAlarmState .powerOff =
      alarm s.para.ccrAlarmState .powerOff

/-- Port 0 shows no change, or no alarm that is not there already. -/
def Quiet0 (s : InputState) (p0 p1 : UInt8) : Prop :=
  mergePower p0 p1 = s.input0Last.toUInt8 ∨ ∀ a, a ≠ .powerOff → alarmOf p0 p1 a = alarm s.para.ccrAlarmState a

/-- Port 1 shows no change or the IO bits that are there already, and no update finds `power_off` out of date. -/
def Quiet1 (s : InputState) (p0 p1 : UInt8) : Prop :=
  (p1.toUInt16 = s.input1Last ∨ inputBit p1 0 = s.para.ccrLocalRemote ∧ inputBit p1 1 = s.para.ccrRelayState ∧
    inputBit p1 2 = s.para.ccrPowerOnState) ∧
  (mergePower p0 p1 = s.input0Last.toUInt8 ∧ p1.toUInt16 = s.input1Last ∨
    alarm s.para.ccrAlarmState .powerOff = !s.para.ccrPowerOnState)

/-- Both bytes were delivered, and one that was delivered from a wrong register is quiet. -/
structure Delivered (s : InputState) (read0 read1 : PortRead) : Prop where
  byte0 : read0.readOk = true
  byte1 : read1.readOk = true
  pointer0 : read0.writeOk = false → Quiet0 s (~~~ read0.byte) (~~~ read1.byte)
  pointer1 : read1.writeOk = false → Quiet1 s (~~~ read0.byte) (~~~ read1.byte)

theorem tca9535ReadPort_ok {r : PortRead} (hread : r.readOk = true) (temp : UInt8) :
    tca9535ReadPort r temp = r.byte := by
  rw [tca9535ReadPort, readRegs, if_pos hread]

theorem tca9535ReadPort_failed {r : PortRead} (hread : r.readOk = false) (temp : UInt8) :
    tca9535ReadPort r temp = temp := by
  rw [tca9535ReadPort, readRegs, if_neg (by simp [hread])]

section Iff

variable {s : InputState} {commFail : CanDev → UInt8} {read0 read1 : PortRead}

theorem FailureHarmless.reads (h : FailureHarmless s commFail read0 read1) :
    read0.readOk = true ∧ read1.readOk = true := by
  have hports := fun temp0 temp1 => inputCheck_turned s commFail read0 read1 temp0 temp1
  constructor
  · by_contra hfailed
    have hread := tca9535ReadPort_failed (Bool.eq_false_of_not_eq_true hfailed)
    have hsame := (h.determined 0x00 0x00 0xff 0x00).inputP0
    rw [paraAfter, paraAfter, (hports 0x00 0x00).inputP0, (hports 0xff 0x00).inputP0, hread, hread] at hsame
    have hbit := congrArg (fun port => inputBit port 0) hsame
    rw [inputBit_mergePower, inputBit_mergePower, if_neg (by decide), if_neg (by decide)] at hbit
    exact absurd hbit (by decide)
  · by_contra hfailed
    have hread := tca9535ReadPort_failed (Bool.eq_false_of_not_eq_true hfailed)
    have hsame := (h.determined 0x00 0x00 0x00 0xff).inputP1
    rw [paraAfter, paraAfter, (hports 0x00 0x00).inputP1, (hports 0x00 0xff).inputP1, hread, hread] at hsame
    exact absurd hsame (by decide)

theorem turned_of_reads (hread0 : read0.readOk = true) (hread1 : read1.readOk = true) (temp0 temp1 : UInt8) :
    Turned s (inputCheck s commFail read0 read1 temp0 temp1).1 (~~~ read0.byte) (~~~ read1.byte) := by
  have hturned := inputCheck_turned s commFail read0 read1 temp0 temp1
  rwa [tca9535ReadPort_ok hread0, tca9535ReadPort_ok hread1] at hturned

theorem quiet0_iff {s' : InputState} {p0 p1 : UInt8} (hturned : Turned s s' p0 p1) :
    (∀ a, a ≠ .powerOff → alarm s'.para.ccrAlarmState a = alarm s.para.ccrAlarmState a) ↔ Quiet0 s p0 p1 := by
  by_cases hsame : mergePower p0 p1 = s.input0Last.toUInt8
  · refine iff_of_true (fun a ha => ?_) (.inl hsame)
    rw [hturned.alarms a ha, if_neg (not_not.mpr hsame)]
  · rw [Quiet0, or_iff_right hsame]
    refine forall_congr' fun a => forall_congr' fun ha => ?_
    rw [hturned.alarms a ha, if_pos hsame]

theorem quiet1_iff {s' : InputState} {p0 p1 : UInt8} (hturned : Turned s s' p0 p1) :
    (s'.para.ccrLocalRemote = s.para.ccrLocalRemote ∧ s'.para.ccrRelayState = s.para.ccrRelayState ∧
      s'.para.ccrPowerOnState = s.para.ccrPowerOnState ∧
      alarm s'.para.ccrAlarmState .powerOff = alarm s.para.ccrAlarmState .powerOff) ↔ Quiet1 s p0 p1 := by
  have hio : (s'.para.ccrLocalRemote = s.para.ccrLocalRemote ∧ s'.para.ccrRelayState = s.para.ccrRelayState ∧
      s'.para.ccrPowerOnState = s.para.ccrPowerOnState) ↔ (p1.toUInt16 = s.input1Last ∨
        inputBit p1 0 = s.para.ccrLocalRemote ∧ inputBit p1 1 = s.para.ccrRelayState ∧
          inputBit p1 2 = s.para.ccrPowerOnState) := by
    rw [hturned.localRemote, hturned.relay, hturned.powerOn]
    by_cases hport : p1.toUInt16 = s.input1Last <;> simp [hport]
  have hoff : s'.para.ccrPowerOnState = s.para.ccrPowerOnState →
      (alarm s'.para.ccrAlarmState .powerOff = alarm s.para.ccrAlarmState .powerOff ↔
        (mergePower p0 p1 = s.input0Last.toUInt8 ∧ p1.toUInt16 = s.input1Last ∨
          alarm s.para.ccrAlarmState .powerOff = !s.para.ccrPowerOnState)) := by
    intro hpower
    rw [hturned.powerOff, hpower]
    by_cases hquiet : mergePower p0 p1 = s.input0Last.toUInt8 ∧ p1.toUInt16 = s.input1Last
    · simp [hquiet]
    · rw [if_pos (by tauto), or_iff_right hquiet, eq_comm]
  constructor
  · rintro ⟨hlocal, hrelay, hpower, hkept⟩
    exact ⟨hio.mp ⟨hlocal, hrelay, hpower⟩, (hoff hpower).mp hkept⟩
  · rintro ⟨hquiet, hupdate⟩
    obtain ⟨hlocal, hrelay, hpower⟩ := hio.mpr hquiet
    exact ⟨hlocal, hrelay, hpower, (hoff hpower).mpr hupdate⟩

end Iff

/-- A turn is harmless exactly when both bytes were delivered and those from a wrong register are quiet. -/
theorem failureHarmless_iff (s : InputState) (commFail : CanDev → UInt8) (read0 read1 : PortRead) :
    FailureHarmless s commFail read0 read1 ↔ Delivered s read0 read1 := by
  constructor
  · intro h
    obtain ⟨hread0, hread1⟩ := h.reads
    have hturned : Turned s (inputCheck s commFail read0 read1 0x00 0x00).1 (~~~ read0.byte) (~~~ read1.byte) :=
      turned_of_reads hread0 hread1 0x00 0x00
    exact ⟨hread0, hread1, fun hfailed => (quiet0_iff hturned).mp (h.kept0 (.inl hfailed) _ _),
      fun hfailed => (quiet1_iff hturned).mp (h.kept1 (.inl hfailed) _ _)⟩
  · intro h
    have hturned : ∀ temp0 temp1, Turned s (inputCheck s commFail read0 read1 temp0 temp1).1 (~~~ read0.byte)
        (~~~ read1.byte) := turned_of_reads h.byte0 h.byte1
    have hpointer : ∀ {r : PortRead}, r.readOk = true → r.Failed → r.writeOk = false := by
      rintro r hread (hwrite | hnot)
      · exact hwrite
      · rw [hread] at hnot
        contradiction
    refine ⟨fun temp0 temp1 temp0' temp1' => ?_, fun hfailed temp0 temp1 => ?_, fun hfailed temp0 temp1 => ?_⟩
    · rw [paraAfter, paraAfter, inputCheck, inputCheck, tca9535ReadPort_ok h.byte0, tca9535ReadPort_ok h.byte0,
        tca9535ReadPort_ok h.byte1, tca9535ReadPort_ok h.byte1]
      exact ⟨rfl, rfl, fun _ => rfl, rfl, rfl, rfl⟩
    · exact (quiet0_iff (hturned temp0 temp1)).mpr (h.pointer0 (hpointer h.byte0 hfailed))
    · exact (quiet1_iff (hturned temp0 temp1)).mpr (h.pointer1 (hpointer h.byte1 hfailed))

/-- The read of port 0 fails in a first turn: a stack of zeros raises every alarm, one of ones raises none. -/
theorem not_failureHarmless_read0 :
    ¬ FailureHarmless imageState (fun _ => 0) { writeOk := true, readOk := false, byte := 0x00 } (.good 0xfb) := by
  intro h
  have hsame := (h.determined 0x00 0x00 0xff 0x00).alarms .ocFault
  revert hsame
  decide

end LightControlMonitor.Io
