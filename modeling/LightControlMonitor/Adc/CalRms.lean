import LightControlMonitor.Adc.Sums
import LightControlMonitor.Lib.Transition

/-!
# The measurement

`cal_rms` with its statics: the slots of the two voltages and of the power, which keep their own average behind the window, and the load that a full window publishes in `g_ccr_data.ccr_info`. From the integers of a buffer on it computes in floats. Which numbers these are, how they are averaged, calibrated and converted is an argument of the model, and so is what a calibration consists of.
-/

namespace LightControlMonitor.Adc

open Transition (System)

def RMS_WINDOWN_SIZE : Nat := 20

/-- The fields of `g_ccr_data.ccr_info` that `cal_rms` and `vi_disp` use. -/
structure CcrInfo where
  realIdensity : UInt16
  ccrLocalRemote : Bool
  ccrRelayState : Bool
  upsCommFail : Bool
  can0CommFailFlag : UInt8
  can1CommFailFlag : UInt8
  localILoad : UInt16
  localVLoad : UInt16

/-- `g_ccr_data.ccr_info` as the image has it. -/
def CcrInfo.zero : CcrInfo where
  realIdensity := 0
  ccrLocalRemote := false
  ccrRelayState := false
  upsCommFail := false
  can0CommFailFlag := 0
  can1CommFailFlag := 0
  localILoad := 0
  localVLoad := 0

def updateLoadVoltage (info : CcrInfo) (voltage : UInt16) : CcrInfo :=
  { info with localVLoad := if voltage ≤ 200 then 0 else voltage }

def updateILoad (info : CcrInfo) (iLoad : UInt16) : CcrInfo :=
  { info with localILoad := if iLoad ≤ 110 then 0 else iLoad }

/-- The floats of `cal_rms`, with `P` for the parameters of the calibration: the voltage of a root, the power of a mean product, the average of a window, the calibrated average of a channel, and the conversion to an integer of 16 bits. -/
structure Floats (F P : Type) where
  zero : F
  adcVoltage : UInt32 → F
  power : UInt32 → F
  mean : List F → F
  calibrated : P → Channel → F → F
  conv : F → UInt16

/-- The slots of the window and the one of their average. -/
abbrev Slots (F : Type) := Vector F (RMS_WINDOWN_SIZE + 1)

theorem average_lt : RMS_WINDOWN_SIZE < RMS_WINDOWN_SIZE + 1 := Nat.lt_succ_self _

variable {F P : Type}

def Slots.window (slots : Slots F) : List F := slots.toList.take RMS_WINDOWN_SIZE

def Slots.average (slots : Slots F) : F := slots.get ⟨RMS_WINDOWN_SIZE, average_lt⟩

/-- A new value in the window, and then the loop that averages it. -/
def Slots.write (mean : List F → F) (slots : Slots F) (count : Nat) (hcount : count < RMS_WINDOWN_SIZE + 1) (x : F) :
    Slots F :=
  let written : Slots F := slots.set count x hcount
  written.set RMS_WINDOWN_SIZE (mean written.window) average_lt

/-- The statics of `cal_rms`, and the record of the load. -/
structure Measurement (F : Type) where
  count : Nat
  rmsAdcVoltage : Channel → Slots F
  pAdcValue : Slots F
  rmsAdcCalVoltageAvg : Channel → UInt16
  info : CcrInfo
  localActivePower : UInt16

/-- The three values that a publication writes. -/
structure Load where
  localILoad : UInt16
  localVLoad : UInt16
  localActivePower : UInt16
  deriving DecidableEq

def Measurement.load (s : Measurement F) : Load := ⟨s.info.localILoad, s.info.localVLoad, s.localActivePower⟩

/-- What a call computes: the numbers that it converts, and the load if it publishes one. -/
structure Reading (F : Type) where
  value : Channel → F
  published : Option Load

/-- `cal_rms`; a place behind the slots is a fault. -/
def calRms (floats : Floats F P) (s : Measurement F) (cur : Buffer) (para : P) : Option (Measurement F × Reading F) :=
  if hcount : s.count < RMS_WINDOWN_SIZE + 1 then
    let pAdcValue := s.pAdcValue.write floats.mean s.count hcount (floats.power (meanPower cur))
    let rmsAdcVoltage := fun j => (s.rmsAdcVoltage j).write floats.mean s.count hcount (floats.adcVoltage (rms cur j))
    let value := fun j => floats.calibrated para j (rmsAdcVoltage j).average
    let avg := fun j => floats.conv (value j)
    let next := { s with count := s.count + 1, rmsAdcVoltage, pAdcValue, rmsAdcCalVoltageAvg := avg }
    if next.count ≥ RMS_WINDOWN_SIZE then
      let full :=
        { next with
          count := 0
          info := updateLoadVoltage (updateILoad s.info (avg .iLoad)) (avg .uLoad)
          localActivePower := floats.conv pAdcValue.average }
      some (full, ⟨value, some full.load⟩)
    else some (next, ⟨value, none⟩)
  else none

def Measurement.start (floats : Floats F P) : Measurement F where
  count := 0
  rmsAdcVoltage := fun _ => Vector.replicate _ floats.zero
  pAdcValue := Vector.replicate _ floats.zero
  rmsAdcCalVoltageAvg := fun _ => 0
  info := .zero
  localActivePower := 0

/-! ### The slots -/

theorem Slots.length_window (slots : Slots F) : slots.window.length = RMS_WINDOWN_SIZE := by
  rw [Slots.window, List.length_take, Vector.length_toList]
  rfl

theorem Slots.write_window (mean : List F → F) (slots : Slots F) {count : Nat} (hcount : count < RMS_WINDOWN_SIZE + 1)
    (x : F) : (slots.write mean count hcount x).window = slots.window.set count x := by
  rw [Slots.window, Slots.write, Vector.toList_set, List.take_set_of_le (Nat.le_refl _), Slots.window,
    Vector.toList_set, List.take_set]

theorem Slots.write_average (mean : List F → F) (slots : Slots F) {count : Nat} (hcount : count < RMS_WINDOWN_SIZE + 1)
    (x : F) : (slots.write mean count hcount x).average = mean (slots.write mean count hcount x).window := by
  have hlt := average_lt
  rw [Slots.write_window]
  change ((slots.set count x hcount).set RMS_WINDOWN_SIZE _ average_lt)[RMS_WINDOWN_SIZE] = _
  rw [Vector.getElem_set_self, Slots.window, Vector.toList_set, List.take_set, Slots.window]

/-! ### A call -/

/-- The calibrated and converted average of the window that a call leaves. -/
def Floats.averaged (floats : Floats F P) (s : Measurement F) (cur : Buffer) (para : P) (j : Channel) : UInt16 :=
  floats.conv (floats.calibrated para j
    (floats.mean ((s.rmsAdcVoltage j).window.set s.count (floats.adcVoltage (rms cur j)))))

/-- A call publishes the two averages once the window is full and changes nothing else in the record. -/
structure Called (floats : Floats F P) (s : Measurement F) (cur : Buffer) (para : P) (s' : Measurement F) : Prop where
  count : s'.count = if RMS_WINDOWN_SIZE ≤ s.count + 1 then 0 else s.count + 1
  info : s'.info = if RMS_WINDOWN_SIZE ≤ s.count + 1 then
    updateLoadVoltage (updateILoad s.info (floats.averaged s cur para .iLoad)) (floats.averaged s cur para .uLoad)
    else s.info

theorem calRms_called (floats : Floats F P) {s : Measurement F} (hcount : s.count < RMS_WINDOWN_SIZE + 1) (cur : Buffer)
    (para : P) : ∃ s' r, calRms floats s cur para = some (s', r) ∧ Called floats s cur para s' := by
  have haverage : ∀ j, floats.conv (floats.calibrated para j
      ((s.rmsAdcVoltage j).write floats.mean s.count hcount (floats.adcVoltage (rms cur j))).average) =
        floats.averaged s cur para j := by
    intro j
    rw [Slots.write_average, Slots.write_window]
    rfl
  rw [calRms, dif_pos hcount]
  dsimp only
  by_cases hfull : RMS_WINDOWN_SIZE ≤ s.count + 1
  · simp only [if_pos hfull, haverage]
    exact ⟨_, _, rfl, (if_pos hfull).symm, (if_pos hfull).symm⟩
  · simp only [if_neg hfull]
    exact ⟨_, _, rfl, (if_neg hfull).symm, (if_neg hfull).symm⟩

end LightControlMonitor.Adc
