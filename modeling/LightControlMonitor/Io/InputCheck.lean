import LightControlMonitor.Can.LightLevel
import LightControlMonitor.Io.EventMonitor
import LightControlMonitor.Lib.Flags

/-!
# The input loop

`input_check` of `tca9535.c` with the transfers it makes. Each turn reads the two input ports of the expander, and two change detectors decide which status bits are recomputed: the IO bits and `power_off` when port 1 changed, the alarms and `power_off` when port 0 changed. Bit 6 of port 0 is overwritten with the negation of bit 2 of port 1 before the detectors run, which is what makes the very first turn set `power_off`.

The results of the transfers are returned and never looked at, so a failed read leaves in the buffer whatever was on the stack.
-/

namespace LightControlMonitor.Io

open Can (CanDev MyPara)
open Transition (Reaches)

/-! ### The transfers -/

/-- The two transfers of a port read and the byte the device delivers in the second. -/
structure PortRead where
  writeOk : Bool
  readOk : Bool
  byte : UInt8

/-- `read_regs` for one byte: what `rt_i2c_transfer` reports, and the buffer. -/
def readRegs (ok : Bool) (byte temp : UInt8) : Bool × UInt8 := if ok then (true, byte) else (false, temp)

/-- `TCA9535_Read_Port`; `temp` is what the stack holds. -/
def tca9535ReadPort (r : PortRead) (temp : UInt8) : UInt8 := (readRegs r.readOk r.byte temp).2

/-! ### The status bits -/

inductive Alarm
  | powerOff
  | openCircuit
  | ocFault
  | idensityFail
  | vaDrop10Percent
  | insulationResPrealarm
  | lampPrealarm
  deriving DecidableEq

def Alarm.place : Alarm → Nat
  | .powerOff => 0
  | .openCircuit => 1
  | .ocFault => 2
  | .idensityFail => 5
  | .vaDrop10Percent => 8
  | .insulationResPrealarm => 10
  | .lampPrealarm => 12

def alarm (word : UInt16) (a : Alarm) : Bool := word.toBitVec.getLsbD a.place

def setAlarm (word : UInt16) (a : Alarm) (on : Bool) : UInt16 := ⟨Flags.put word.toBitVec a.place on⟩

def inputBit (port : UInt8) (i : Nat) : Bool := port.toBitVec.getLsbD i

/-- The bits of port 0 and the alarms they are copied to. -/
def alarmTable : List (Nat × Alarm) :=
  [(0, .ocFault), (1, .openCircuit), (2, .vaDrop10Percent), (3, .idensityFail), (4, .insulationResPrealarm),
    (5, .lampPrealarm)]

def updateCcrAlarmStatus (para : MyPara) : MyPara :=
  let copied := alarmTable.foldl (fun word entry => setAlarm word entry.2 (inputBit para.inputP0 entry.1))
    para.ccrAlarmState
  { para with ccrAlarmState := setAlarm copied .powerOff (!para.ccrPowerOnState) }

/-! ### The loop -/

/-- The record, `g_send_enable` and the two static variables of the loop. -/
structure InputState where
  para : MyPara
  sendEnable : Bool
  input0Last : UInt16
  input1Last : UInt16

/-- What a turn does besides: the LED ports, the upload event and the announced alarms. -/
inductive InputEvent
  | led (port : Nat) (byte : UInt8)
  | upload (dev : CanDev)
  | announce (dev : CanDev) (code : UInt16)
  deriving DecidableEq

def eventCodeTab : List UInt16 := [0x04, 0x07, 0x06, 0x08, 0x0a, 0x0b, 0x02, 0]

/-- Bit 6 of port 0 once port 1 is known. -/
def mergePower (inputP0 inputP1 : UInt8) : UInt8 :=
  if (inputP1 >>> (2 : UInt8)) &&& (0x01 : UInt8) ≠ 0 then inputP0 &&& (0xbf : UInt8) else inputP0 ||| (0x40 : UInt8)

/-- The update that a change of port 1 sets off. -/
def portUpdate (input1Last : UInt16) (para : MyPara) : MyPara :=
  if para.inputP1.toUInt16 ≠ input1Last then Can.updateCcrIoStatus para else para

/-- The update that a change of port 0 sets off. -/
def alarmUpdate (changeFlag : Bool) (para : MyPara) : MyPara :=
  if changeFlag then updateCcrAlarmStatus para else para

/-- One turn of `input_check`; `temp0` and `temp1` are what the stack holds in the two reads. -/
def inputCheck (s : InputState) (commFail : CanDev → UInt8) (read0 read1 : PortRead) (temp0 temp1 : UInt8) :
    InputState × List InputEvent :=
  let inputP1 := ~~~ tca9535ReadPort read1 temp1
  let inputP0 := mergePower (~~~ tca9535ReadPort read0 temp0) inputP1
  let uploads := if inputP1.toUInt16 ≠ s.input1Last then
    .led 1 (~~~ inputP1) :: (busInUse commFail).toList.map InputEvent.upload else []
  let monitored := alarmEventMonitor commFail inputP0.toUInt16 s.input0Last eventCodeTab
  let announced := monitored.events.map fun e => InputEvent.announce e.1 e.2
  let leds := if monitored.changeFlag then [.led 0 (~~~ Can.inverseByte inputP0)] else []
  ({ para := alarmUpdate monitored.changeFlag (portUpdate s.input1Last { s.para with inputP0, inputP1 })
     sendEnable := true
     input0Last := monitored.alarmOldStatus
     input1Last := inputP1.toUInt16 },
    uploads ++ announced ++ leds)

/-! ### The system -/

/-- The fields of the record that only the loop writes. -/
structure SameStatus (para para' : MyPara) : Prop where
  inputP0 : para'.inputP0 = para.inputP0
  inputP1 : para'.inputP1 = para.inputP1
  alarms : para'.ccrAlarmState = para.ccrAlarmState
  localRemote : para'.ccrLocalRemote = para.ccrLocalRemote
  relay : para'.ccrRelayState = para.ccrRelayState
  powerOn : para'.ccrPowerOnState = para.ccrPowerOnState

/-- A turn of the loop, and what other threads do to the rest of the record. -/
inductive InputAction
  | check (commFail : CanDev → UInt8) (read0 read1 : PortRead) (temp0 temp1 : UInt8)
  | elsewhere (para : MyPara)

def InputEnabled (s : InputState) : InputAction → Prop
  | .check _ _ _ _ _ => True
  | .elsewhere para => SameStatus s.para para

def inputStep (s : InputState) : InputAction → Option (InputState × List InputEvent)
  | .check commFail read0 read1 temp0 temp1 => some (inputCheck s commFail read0 read1 temp0 temp1)
  | .elsewhere para => some ({ s with para }, [])

def InputInitial (s : InputState) : Prop := s.para = .zero ∧ s.input0Last = 0 ∧ s.input1Last = 0

def inputSystem : Transition.System InputState InputAction InputEvent where
  init := InputInitial
  enabled := InputEnabled
  step := inputStep

/-- The ports as the last turn has sampled them, bit 6 of port 0 included. -/
def sampledPorts (as : List InputAction) : Option (UInt8 × UInt8) :=
  as.foldl (fun last a =>
    match a with
    | .check _ read0 read1 temp0 temp1 =>
      let inputP1 := ~~~ tca9535ReadPort read1 temp1
      some (mergePower (~~~ tca9535ReadPort read0 temp0) inputP1, inputP1)
    | .elsewhere _ => last) none

def alarmOf (inputP0 inputP1 : UInt8) : Alarm → Bool
  | .powerOff => !inputBit inputP1 2
  | .openCircuit => inputBit inputP0 1
  | .ocFault => inputBit inputP0 0
  | .idensityFail => inputBit inputP0 3
  | .vaDrop10Percent => inputBit inputP0 2
  | .insulationResPrealarm => inputBit inputP0 4
  | .lampPrealarm => inputBit inputP0 5

/-- The status bits are what recomputing them from the ports would give. -/
structure Recomputed (para : MyPara) : Prop where
  alarms : ∀ a, alarm para.ccrAlarmState a = alarmOf para.inputP0 para.inputP1 a
  localRemote : para.ccrLocalRemote = inputBit para.inputP1 0
  relay : para.ccrRelayState = inputBit para.inputP1 1
  powerOn : para.ccrPowerOnState = inputBit para.inputP1 2

/-! ### The updates -/

theorem alarm_setAlarm (word : UInt16) (a : Alarm) (on : Bool) (b : Alarm) :
    alarm (setAlarm word a on) b = if b = a then on else alarm word b := by
  have hplace : a.place < 16 := by cases a <;> decide
  have hinj : b.place = a.place ↔ b = a := by cases a <;> cases b <;> decide
  rw [alarm, setAlarm, Flags.getLsbD_put _ hplace]
  simp only [hinj]
  rfl

theorem alarm_setPowerOff (word : UInt16) (off : Bool) (b : Alarm) :
    alarm (Can.setPowerOff word off) b = if b = .powerOff then off else alarm word b := by
  cases off <;> cases b <;> simp [Can.setPowerOff, alarm, Alarm.place]

theorem alarm_updateCcrAlarmStatus (para : MyPara) (a : Alarm) : alarm (updateCcrAlarmStatus para).ccrAlarmState a =
    if a = .powerOff then !para.ccrPowerOnState else alarmOf para.inputP0 para.inputP1 a := by
  cases a <;> simp [updateCcrAlarmStatus, alarmTable, alarm_setAlarm, alarmOf]

theorem and_ne_zero_eq_inputBit (port : UInt8) (i : Fin 8) :
    decide (port &&& UInt8.ofNat (1 <<< i.val) ≠ 0) = inputBit port i := by
  have hall : ∀ n < 256, ∀ i : Fin 8,
      decide (UInt8.ofNat n &&& UInt8.ofNat (1 <<< i.val) ≠ 0) = inputBit (UInt8.ofNat n) i := by decide +kernel
  simpa using hall port.toNat port.toNat_lt i

theorem updateCcrIoStatus_bits (para : MyPara) :
    (Can.updateCcrIoStatus para).ccrLocalRemote = inputBit para.inputP1 0 ∧
      (Can.updateCcrIoStatus para).ccrRelayState = inputBit para.inputP1 1 ∧
        (Can.updateCcrIoStatus para).ccrPowerOnState = inputBit para.inputP1 2 ∧
          ∀ a, alarm (Can.updateCcrIoStatus para).ccrAlarmState a =
            if a = .powerOff then !inputBit para.inputP1 2 else alarm para.ccrAlarmState a := by
  have hzero := and_ne_zero_eq_inputBit para.inputP1 0
  have hone := and_ne_zero_eq_inputBit para.inputP1 1
  have htwo := and_ne_zero_eq_inputBit para.inputP1 2
  refine ⟨hzero, hone, htwo, fun a => ?_⟩
  rw [← show decide (para.inputP1 &&& UInt8.ofNat (1 <<< (2 : Fin 8).val) ≠ 0) = inputBit para.inputP1 2 from htwo]
  exact alarm_setPowerOff _ _ a

theorem mergePower_eq (inputP0 inputP1 : UInt8) : mergePower inputP0 inputP1 =
    ⟨Flags.put inputP0.toBitVec 6 (!inputBit inputP1 2)⟩ := by
  have hall : ∀ n < 256,
      ((UInt8.ofNat n >>> (2 : UInt8)) &&& (0x01 : UInt8) ≠ 0) ↔ inputBit (UInt8.ofNat n) 2 = true := by
    decide +kernel
  have hbit : ((inputP1 >>> (2 : UInt8)) &&& (0x01 : UInt8) ≠ 0) ↔ inputBit inputP1 2 = true := by
    simpa using hall inputP1.toNat inputP1.toNat_lt
  rw [mergePower]
  by_cases hpower : inputBit inputP1 2 = true
  · rw [if_pos (hbit.mpr hpower), hpower]
    rfl
  · rw [if_neg fun h => hpower (hbit.mp h), Bool.eq_false_of_not_eq_true hpower]
    rfl

theorem inputBit_mergePower (inputP0 inputP1 : UInt8) (i : Nat) : inputBit (mergePower inputP0 inputP1) i =
    if i = 6 then !inputBit inputP1 2 else inputBit inputP0 i := by
  rw [mergePower_eq]
  exact Flags.getLsbD_put _ (by decide) _ _

/-- Only bit 6 of port 0 depends on port 1, and no alarm is copied from it. -/
theorem alarmOf_mergePower (inputP0 inputP1 : UInt8) (a : Alarm) :
    alarmOf (mergePower inputP0 inputP1) inputP1 a = alarmOf inputP0 inputP1 a := by
  cases a <;> simp [alarmOf, inputBit_mergePower]

/-! ### One turn -/

/-- What one turn makes of the ports it read: which bits are recomputed and which stay. -/
structure Turned (s s' : InputState) (p0 p1 : UInt8) : Prop where
  inputP0 : s'.para.inputP0 = mergePower p0 p1
  inputP1 : s'.para.inputP1 = p1
  last0 : s'.input0Last = (mergePower p0 p1).toUInt16
  last1 : s'.input1Last = p1.toUInt16
  localRemote : s'.para.ccrLocalRemote =
    if p1.toUInt16 ≠ s.input1Last then inputBit p1 0 else s.para.ccrLocalRemote
  relay : s'.para.ccrRelayState = if p1.toUInt16 ≠ s.input1Last then inputBit p1 1 else s.para.ccrRelayState
  powerOn : s'.para.ccrPowerOnState = if p1.toUInt16 ≠ s.input1Last then inputBit p1 2 else s.para.ccrPowerOnState
  alarms : ∀ a, a ≠ .powerOff → alarm s'.para.ccrAlarmState a =
    if mergePower p0 p1 ≠ s.input0Last.toUInt8 then alarmOf p0 p1 a else alarm s.para.ccrAlarmState a
  powerOff : alarm s'.para.ccrAlarmState .powerOff =
    if mergePower p0 p1 ≠ s.input0Last.toUInt8 ∨ p1.toUInt16 ≠ s.input1Last then !s'.para.ccrPowerOnState
    else alarm s.para.ccrAlarmState .powerOff

theorem portUpdate_fields (input1Last : UInt16) (para : MyPara) :
    (portUpdate input1Last para).inputP0 = para.inputP0 ∧ (portUpdate input1Last para).inputP1 = para.inputP1 := by
  unfold portUpdate
  split <;> exact ⟨rfl, rfl⟩

theorem portUpdate_io (input1Last : UInt16) (para : MyPara) :
    let changed := para.inputP1.toUInt16 ≠ input1Last
    (portUpdate input1Last para).ccrLocalRemote =
        (if changed then inputBit para.inputP1 0 else para.ccrLocalRemote) ∧
      (portUpdate input1Last para).ccrRelayState =
        (if changed then inputBit para.inputP1 1 else para.ccrRelayState) ∧
      (portUpdate input1Last para).ccrPowerOnState =
        (if changed then inputBit para.inputP1 2 else para.ccrPowerOnState) := by
  obtain ⟨hlocal, hrelay, hpower, -⟩ := updateCcrIoStatus_bits para
  dsimp only
  unfold portUpdate
  split
  · exact ⟨hlocal, hrelay, hpower⟩
  · exact ⟨rfl, rfl, rfl⟩

theorem portUpdate_alarm (input1Last : UInt16) (para : MyPara) (a : Alarm) :
    alarm (portUpdate input1Last para).ccrAlarmState a =
      if a = .powerOff ∧ para.inputP1.toUInt16 ≠ input1Last then !(portUpdate input1Last para).ccrPowerOnState
      else alarm para.ccrAlarmState a := by
  obtain ⟨-, -, hpower, halarm⟩ := updateCcrIoStatus_bits para
  unfold portUpdate
  split
  · rename_i hchanged
    rw [halarm, hpower]
    simp [hchanged]
  · rename_i hsame
    rw [if_neg fun h => hsame h.2]

theorem alarmUpdate_fields (changeFlag : Bool) (para : MyPara) :
    (alarmUpdate changeFlag para).inputP0 = para.inputP0 ∧ (alarmUpdate changeFlag para).inputP1 = para.inputP1 ∧
      (alarmUpdate changeFlag para).ccrLocalRemote = para.ccrLocalRemote ∧
        (alarmUpdate changeFlag para).ccrRelayState = para.ccrRelayState ∧
          (alarmUpdate changeFlag para).ccrPowerOnState = para.ccrPowerOnState := by
  unfold alarmUpdate
  split <;> exact ⟨rfl, rfl, rfl, rfl, rfl⟩

theorem alarmUpdate_alarm (changeFlag : Bool) (para : MyPara) (a : Alarm) :
    alarm (alarmUpdate changeFlag para).ccrAlarmState a =
      if changeFlag then if a = .powerOff then !para.ccrPowerOnState else alarmOf para.inputP0 para.inputP1 a
      else alarm para.ccrAlarmState a := by
  unfold alarmUpdate
  split
  · exact alarm_updateCcrAlarmStatus para a
  · rfl

theorem inputCheck_turned (s : InputState) (commFail : CanDev → UInt8) (read0 read1 : PortRead) (temp0 temp1 : UInt8) :
    Turned s (inputCheck s commFail read0 read1 temp0 temp1).1 (~~~ tca9535ReadPort read0 temp0)
      (~~~ tca9535ReadPort read1 temp1) := by
  rw [inputCheck, alarmEventMonitor_old, changeFlag_byte commFail _ _ rfl]
  generalize ~~~ tca9535ReadPort read0 temp0 = p0
  generalize ~~~ tca9535ReadPort read1 temp1 = p1
  generalize hpara : { s.para with inputP0 := mergePower p0 p1, inputP1 := p1 } = para
  have hp0 : para.inputP0 = mergePower p0 p1 := by rw [← hpara]
  have hp1 : para.inputP1 = p1 := by rw [← hpara]
  obtain ⟨hio0, hio1⟩ := portUpdate_fields s.input1Last para
  obtain ⟨hlocal, hrelay, hpower⟩ := portUpdate_io s.input1Last para
  obtain ⟨hkept0, hkept1, hkeptLocal, hkeptRelay, hkeptPower⟩ :=
    alarmUpdate_fields (decide (mergePower p0 p1 ≠ s.input0Last.toUInt8)) (portUpdate s.input1Last para)
  rw [hp1] at hlocal hrelay hpower
  refine ⟨hkept0.trans (hio0.trans hp0), hkept1.trans (hio1.trans hp1), rfl, rfl, hkeptLocal.trans ?_,
    hkeptRelay.trans ?_, hkeptPower.trans ?_, fun a ha => ?_, ?_⟩
  · rw [hlocal, ← hpara]
  · rw [hrelay, ← hpara]
  · rw [hpower, ← hpara]
  · have hported : alarm (portUpdate s.input1Last para).ccrAlarmState a = alarm s.para.ccrAlarmState a := by
      rw [portUpdate_alarm, if_neg fun h => ha h.1, ← hpara]
    rw [alarmUpdate_alarm, if_neg ha, hio0, hio1, hp0, hp1, alarmOf_mergePower, hported]
    simp
  · have hported : alarm (portUpdate s.input1Last para).ccrAlarmState .powerOff =
        if p1.toUInt16 ≠ s.input1Last then !(portUpdate s.input1Last para).ccrPowerOnState
        else alarm s.para.ccrAlarmState .powerOff := by
      rw [portUpdate_alarm, hp1, show para.ccrAlarmState = s.para.ccrAlarmState by rw [← hpara]]
      simp
    rw [alarmUpdate_alarm, if_pos rfl, hkeptPower, hported]
    by_cases hport : p1.toUInt16 = s.input1Last <;> by_cases halarms : mergePower p0 p1 = s.input0Last.toUInt8 <;>
      simp [hport, halarms]

/-! ### Runs -/

/-- The remembered values are the ports, the status bits follow them, and `power_off` does too, or the loop has not run yet. -/
structure Followed (s : InputState) : Prop where
  last0 : s.input0Last = s.para.inputP0.toUInt16
  last1 : s.input1Last = s.para.inputP1.toUInt16
  alarms : ∀ a, a ≠ .powerOff → alarm s.para.ccrAlarmState a = alarmOf s.para.inputP0 s.para.inputP1 a
  localRemote : s.para.ccrLocalRemote = inputBit s.para.inputP1 0
  relay : s.para.ccrRelayState = inputBit s.para.inputP1 1
  powerOn : s.para.ccrPowerOnState = inputBit s.para.inputP1 2
  powerOff : alarm s.para.ccrAlarmState .powerOff = !inputBit s.para.inputP1 2 ∨
    s.para.inputP0 = 0 ∧ s.para.inputP1 = 0

theorem Followed.initial {s : InputState} (hinit : InputInitial s) : Followed s := by
  obtain ⟨hzero, hlast0, hlast1⟩ := hinit
  have halarms : ∀ a, a ≠ .powerOff → alarm MyPara.zero.ccrAlarmState a =
      alarmOf MyPara.zero.inputP0 MyPara.zero.inputP1 a := fun a _ => by cases a <;> first | rfl | contradiction
  refine ⟨?_, ?_, ?_, ?_, ?_, ?_, .inr ?_⟩ <;> rw [hzero]
  · exact hlast0
  · exact hlast1
  · exact halarms
  · rfl
  · rfl
  · rfl
  · exact ⟨rfl, rfl⟩

theorem alarmOf_congr (p0 p1 q1 : UInt8) {a : Alarm} (ha : a ≠ .powerOff) : alarmOf p0 p1 a = alarmOf p0 q1 a := by
  cases a with
  | powerOff => contradiction
  | _ => rfl

theorem Followed.last0_iff {s : InputState} (h : Followed s) (port : UInt8) :
    port = s.input0Last.toUInt8 ↔ port = s.para.inputP0 := by
  rw [h.last0, UInt8.toUInt8_toUInt16]

theorem Followed.last1_iff {s : InputState} (h : Followed s) (port : UInt8) :
    port.toUInt16 = s.input1Last ↔ port = s.para.inputP1 := by
  rw [h.last1, UInt8.toUInt16_inj]

theorem Followed.turn_powerOn {s s' : InputState} {p0 p1 : UInt8} (h : Followed s) (hturned : Turned s s' p0 p1) :
    s'.para.ccrPowerOnState = inputBit p1 2 := by
  have hsame := h.last1_iff p1
  rw [hturned.powerOn, h.powerOn]
  split <;> simp_all

theorem Followed.turn_alarms {s s' : InputState} {p0 p1 : UInt8} (h : Followed s) (hturned : Turned s s' p0 p1)
    {a : Alarm} (ha : a ≠ .powerOff) : alarm s'.para.ccrAlarmState a = alarmOf (mergePower p0 p1) p1 a := by
  rw [hturned.alarms a ha, alarmOf_mergePower]
  split
  · rfl
  · rename_i hunchanged
    have hsame := (h.last0_iff _).mp (not_not.mp hunchanged)
    rw [h.alarms a ha, ← hsame, alarmOf_congr _ _ p1 ha, alarmOf_mergePower]

/-- While port 1 shows nothing, bit 6 of port 0 is set, so the first turn finds a change. -/
theorem Followed.turn_powerOff {s s' : InputState} {p0 p1 : UInt8} (h : Followed s) (hturned : Turned s s' p0 p1) :
    alarm s'.para.ccrAlarmState .powerOff = !inputBit p1 2 := by
  rw [hturned.powerOff, h.turn_powerOn hturned]
  split
  · rfl
  · rename_i hquiet
    obtain ⟨hquiet0, hquiet1⟩ := not_or.mp hquiet
    have hzero0 := (h.last0_iff _).mp (not_not.mp hquiet0)
    have hzero1 := (h.last1_iff _).mp (not_not.mp hquiet1)
    rcases h.powerOff with hfollows | ⟨hp0, hp1⟩
    · rw [hfollows, hzero1]
    · have hbit := inputBit_mergePower p0 p1 6
      rw [hzero0, hp0, hzero1, hp1, if_pos rfl] at hbit
      exact absurd hbit (by decide)

/-- After a turn every bit follows the ports. -/
theorem Followed.turn {s s' : InputState} {p0 p1 : UInt8} (h : Followed s) (hturned : Turned s s' p0 p1) :
    Followed s' ∧ Recomputed s'.para := by
  have hsame := h.last1_iff p1
  have hlocal : s'.para.ccrLocalRemote = inputBit p1 0 := by
    rw [hturned.localRemote, h.localRemote]
    split <;> simp_all
  have hrelay : s'.para.ccrRelayState = inputBit p1 1 := by
    rw [hturned.relay, h.relay]
    split <;> simp_all
  have hpower := h.turn_powerOn hturned
  have hoff := h.turn_powerOff hturned
  have hrecomputed : ∀ a, alarm s'.para.ccrAlarmState a = alarmOf (mergePower p0 p1) p1 a := by
    intro a
    by_cases ha : a = .powerOff
    · rw [ha, hoff]
      rfl
    · exact h.turn_alarms hturned ha
  rw [← hturned.inputP1] at hlocal hrelay hpower hoff
  rw [← hturned.inputP0, ← hturned.inputP1] at hrecomputed
  refine ⟨⟨?_, ?_, fun a _ => hrecomputed a, hlocal, hrelay, hpower, .inl hoff⟩, ⟨hrecomputed, hlocal, hrelay, hpower⟩⟩
  · rw [hturned.last0, hturned.inputP0]
  · rw [hturned.last1, hturned.inputP1]

theorem Recomputed.elsewhere {para para' : MyPara} (h : Recomputed para) (hsame : SameStatus para para') :
    Recomputed para' := by
  refine ⟨?_, ?_, ?_, ?_⟩
  · rw [hsame.alarms, hsame.inputP0, hsame.inputP1]
    exact h.alarms
  · rw [hsame.localRemote, hsame.inputP1, h.localRemote]
  · rw [hsame.relay, hsame.inputP1, h.relay]
  · rw [hsame.powerOn, hsame.inputP1, h.powerOn]

theorem Followed.elsewhere {s : InputState} {para : MyPara} (h : Followed s) (hsame : SameStatus s.para para) :
    Followed { s with para } := by
  obtain ⟨hp0, hp1, halarms, hlocal, hrelay, hpower⟩ := hsame
  refine ⟨?_, ?_, ?_, ?_, ?_, ?_, ?_⟩
  · simpa only [hp0] using h.last0
  · simpa only [hp1] using h.last1
  · simpa only [halarms, hp0, hp1] using h.alarms
  · simpa only [hlocal, hp1] using h.localRemote
  · simpa only [hrelay, hp1] using h.relay
  · simpa only [hpower, hp1] using h.powerOn
  · simpa only [halarms, hp0, hp1] using h.powerOff

def InputAction.IsCheck : InputAction → Prop
  | .check _ _ _ _ _ => True
  | .elsewhere _ => False

theorem sampledPorts_snoc (as : List InputAction) (a : InputAction) : sampledPorts (as ++ [a]) =
    match a with
    | .check _ read0 read1 temp0 temp1 =>
      some (mergePower (~~~ tca9535ReadPort read0 temp0) (~~~ tca9535ReadPort read1 temp1),
        ~~~ tca9535ReadPort read1 temp1)
    | .elsewhere _ => sampledPorts as := by
  rw [sampledPorts, List.foldl_append]
  rfl

/-- The record has the ports of the last turn and the bits that follow from them. -/
def UpToDate (as : List InputAction) (para : MyPara) : Prop :=
  Recomputed para ∧ sampledPorts as = some (para.inputP0, para.inputP1)

/-- From the first turn on the status bits are those of the ports that were sampled last, whatever the ports showed and whichever bits changed together. -/
theorem status_recomputed {as : List InputAction} {es : List InputEvent} {s : InputState}
    (hreach : Reaches inputSystem as es s) (hturn : ∃ a ∈ as, a.IsCheck) :
    Recomputed s.para ∧ sampledPorts as = some (s.para.inputP0, s.para.inputP1) := by
  suffices h : Followed s ∧ ((∃ a ∈ as, a.IsCheck) → UpToDate as s.para) from h.2 hturn
  refine hreach.invariant (fun as _ s => Followed s ∧ ((∃ a ∈ as, a.IsCheck) → UpToDate as s.para))
    (fun _ hinit => ⟨.initial hinit, by simp⟩) ?_
  intro as es s a out s' ⟨hfollowed, hupToDate⟩ henabled hstep
  cases a with
  | check commFail read0 read1 temp0 temp1 =>
    have hturned := inputCheck_turned s commFail read0 read1 temp0 temp1
    rw [show (inputCheck s commFail read0 read1 temp0 temp1).1 = s' from congrArg Prod.fst (Option.some.inj hstep)]
      at hturned
    obtain ⟨hfollowed', hrecomputed⟩ := hfollowed.turn hturned
    refine ⟨hfollowed', fun _ => ⟨hrecomputed, ?_⟩⟩
    rw [sampledPorts_snoc, hturned.inputP0, hturned.inputP1]
  | elsewhere para =>
    obtain ⟨rfl, rfl⟩ := Prod.mk.inj (Option.some.inj hstep)
    refine ⟨hfollowed.elsewhere henabled, fun ⟨a, hmem, hcheck⟩ => ?_⟩
    have hbefore : UpToDate as s.para := by
      rcases List.mem_append.mp hmem with hold | hnew
      · exact hupToDate ⟨a, hold, hcheck⟩
      · rw [List.mem_singleton.mp hnew] at hcheck
        exact hcheck.elim
    refine ⟨hbefore.1.elsewhere henabled, ?_⟩
    rw [sampledPorts_snoc]
    dsimp only
    rw [hbefore.2, henabled.inputP0, henabled.inputP1]

def imageState : InputState := ⟨.zero, false, 0, 0⟩

theorem imageState_initial : InputInitial imageState := ⟨rfl, rfl, rfl⟩

def PortRead.good (byte : UInt8) : PortRead := { writeOk := true, readOk := true, byte }

instance decidableSameStatus (para para' : MyPara) : Decidable (SameStatus para para') :=
  decidable_of_iff (para'.inputP0 = para.inputP0 ∧ para'.inputP1 = para.inputP1 ∧
      para'.ccrAlarmState = para.ccrAlarmState ∧ para'.ccrLocalRemote = para.ccrLocalRemote ∧
      para'.ccrRelayState = para.ccrRelayState ∧ para'.ccrPowerOnState = para.ccrPowerOnState)
    ⟨fun ⟨h₀, h₁, h₂, h₃, h₄, h₅⟩ => ⟨h₀, h₁, h₂, h₃, h₄, h₅⟩,
      fun ⟨h₀, h₁, h₂, h₃, h₄, h₅⟩ => ⟨h₀, h₁, h₂, h₃, h₄, h₅⟩⟩

instance inputSystem.decidableEnabled (s : InputState) : (a : InputAction) → Decidable (inputSystem.enabled s a)
  | .check _ _ _ _ _ => inferInstanceAs (Decidable True)
  | .elsewhere para => inferInstanceAs (Decidable (SameStatus s.para para))

def turnOf (port0 port1 : UInt8) : InputAction := .check (fun _ => 0) (.good port0) (.good port1) 0x00 0x00

/-- Open ports, power and remote control, a command that another thread notes, two alarms that come as the power goes, and a turn that finds nothing new. -/
def powerComesAndGoes : List InputAction :=
  [turnOf 0xff 0xff, turnOf 0xff 0xfa,
    .elsewhere { MyPara.zero with
      cmdIdensity := 3, inputP1 := 0x05, ccrLocalRemote := true, ccrPowerOnState := true },
    turnOf 0xf6 0xfe, turnOf 0xf6 0xfe]

theorem powerComesAndGoes_isSome : (inputSystem.exec imageState powerComesAndGoes).isSome := by
  decide +kernel

theorem status_recomputed_open :
    Recomputed ((inputSystem.exec imageState powerComesAndGoes).get powerComesAndGoes_isSome).1.para ∧
      sampledPorts powerComesAndGoes =
        some (((inputSystem.exec imageState powerComesAndGoes).get powerComesAndGoes_isSome).1.para.inputP0,
          ((inputSystem.exec imageState powerComesAndGoes).get powerComesAndGoes_isSome).1.para.inputP1) :=
  status_recomputed (Reaches.of_exec imageState_initial powerComesAndGoes_isSome) ⟨_, List.mem_cons_self, trivial⟩

end LightControlMonitor.Io
