import LightControlMonitor.Adc.Window
import LightControlMonitor.Io.InputCheck

/-!
# The readings of the station

The load, the relay, the switch for remote control and the state of the two buses are kept twice, in `g_ccr_data.ccr_info` and in `sys.mycan.para`. `cal_rms` writes the first record and `vi_disp` shows it; the input ports and the receive threads write the second and the CAN reports send it. Nothing carries a value from one to the other, so they agree only as long as both are what they were at the start.

The measurement and the input loop are those of their own modules, with any floats and any calibration.
-/

namespace LightControlMonitor.Hmi

open Transition (System Reaches)
open Adc (Buffer CcrInfo Floats Measurement RMS_WINDOWN_SIZE)
open Can (CanDev MyCan MyPara RtCanMsg Leftovers TxFrame Bytes8)
open Io (PortRead InputState InputEvent tca9535ReadPort)

variable {F P : Type}

/-! ### The display -/

/-- What `vi_disp` prints: the switches, the light level, amperes and hundredths, volts and tenths, and the faults of the buses. -/
structure ViPage where
  relay : Bool
  remote : Bool
  idensity : UInt16
  current : UInt16 × UInt16
  voltage : UInt16 × UInt16
  canFail : CanDev → Bool
  ups485Fail : Bool

def amperes (iLoad : UInt16) : UInt16 × UInt16 := (iLoad / 100, iLoad % 100)

def volts (vLoad : UInt16) : UInt16 × UInt16 := (vLoad / 10, vLoad % 10)

def viDisp (info : CcrInfo) : ViPage where
  relay := info.ccrRelayState
  remote := info.ccrLocalRemote
  idensity := info.realIdensity
  current := amperes info.localILoad
  voltage := volts info.localVLoad
  canFail
    | .can0 => info.can0CommFailFlag ≠ 0
    | .can1 => info.can1CommFailFlag ≠ 0
  ups485Fail := info.upsCommFail

/-! ### The system -/

/-- Both records and what their writers remember. `commFail` is `can0_comm_fail_flag` and `can1_comm_fail_flag` of `sys.mycan.para`, which the receive threads write. -/
structure Station (F : Type) where
  measurement : Measurement F
  can : MyCan
  commFail : CanDev → UInt8
  input0Last : UInt16
  input1Last : UInt16

/-- `g_ccr_data.ccr_info`. -/
def Station.info (s : Station F) : CcrInfo := s.measurement.info

def Station.inputs (s : Station F) : InputState := ⟨s.can.para, s.can.sendEnable, s.input0Last, s.input1Last⟩

/-- A turn of the input loop. -/
def Station.inputCheck (s : Station F) (read0 read1 : PortRead) (temp0 temp1 : UInt8) : Station F × List InputEvent :=
  let turn := Io.inputCheck s.inputs s.commFail read0 read1 temp0 temp1
  ({ s with
      can := { s.can with para := turn.1.para, sendEnable := turn.1.sendEnable }
      input0Last := turn.1.input0Last
      input1Last := turn.1.input1Last },
    turn.2)

/-- A turn of a receive thread that finds a frame. -/
def receiveFrame (s : Station F) (dev : CanDev) (canMsg : RtCanMsg) (left : Leftovers) :
    Option (Station F × Option TxFrame) :=
  (Can.canMsgParse dev canMsg s.can left).map fun r =>
    ({ s with can := r.1, commFail := Function.update s.commFail dev 0 }, r.2)

/-- A turn of a receive thread that waits two seconds in vain. -/
def receiveTimeout (s : Station F) (dev : CanDev) : Station F :=
  { s with commFail := Function.update s.commFail dev 1 }

inductive StationAction (P : Type)
  | calRms (cur : Buffer) (para : P)
  | frame (dev : CanDev) (canMsg : RtCanMsg) (left : Leftovers)
  | timeout (dev : CanDev)
  | input (read0 read1 : PortRead) (temp0 temp1 : UInt8)
  | display

inductive StationEvent
  | page (page : ViPage)
  | reply (frame : TxFrame)
  | input (event : InputEvent)

def Station.step (floats : Floats F P) (s : Station F) : StationAction P → Option (Station F × List StationEvent)
  | .calRms cur para =>
    (Adc.calRms floats s.measurement cur para).map fun r => ({ s with measurement := r.1 }, [])
  | .frame dev canMsg left =>
    (receiveFrame s dev canMsg left).map fun r => (r.1, r.2.toList.map .reply)
  | .timeout dev => some (receiveTimeout s dev, [])
  | .input read0 read1 temp0 temp1 =>
    let turn := s.inputCheck read0 read1 temp0 temp1
    some (turn.1, turn.2.map .input)
  | .display => some (s, [.page (viDisp s.info)])

/-- Both records as the image has them; the node has any id. -/
def Station.Initial (floats : Floats F P) (s : Station F) : Prop :=
  s.measurement = .start floats ∧ s.can.para = .zero ∧ s.commFail = (fun _ => 0) ∧ s.input0Last = 0 ∧ s.input1Last = 0

def stationSystem (floats : Floats F P) : System (Station F) (StationAction P) StationEvent where
  init := Station.Initial floats
  enabled _ _ := True
  step := Station.step floats

/-- The display and the bus show the same load, the same switches and the same faults. -/
structure SameReadings (s : Station F) : Prop where
  load : ∀ data, (Can.reportedLoad s.can data).map (fun r => (amperes r.1, volts r.2)) =
    some ((viDisp s.info).current, (viDisp s.info).voltage)
  switches : ∀ data, Can.reportedSwitches s.can data = some ((viDisp s.info).relay, (viDisp s.info).remote)
  canFail : ∀ dev, (viDisp s.info).canFail dev = decide (s.commFail dev ≠ 0)

/-- Nothing is measured and nothing happens: a full window averages at most 1.10 A and 20.0 V, the relay and the switch are off, and no bus is silent for two seconds. -/
def Unchanging (floats : Floats F P) (s : Station F) : StationAction P → Prop
  | .calRms cur para =>
    RMS_WINDOWN_SIZE ≤ s.measurement.count + 1 →
      floats.averaged s.measurement cur para .iLoad ≤ 110 ∧ floats.averaged s.measurement cur para .uLoad ≤ 200
  | .timeout _ => False
  | .input _ read1 _ temp1 =>
    ~~~ tca9535ReadPort read1 temp1 &&& 0x01 = 0 ∧ ~~~ tca9535ReadPort read1 temp1 &&& 0x02 = 0
  | _ => True

/-! ### What a frame and a turn of the input loop leave -/

/-- A frame changes the level, the output and the clock only, and the level only under remote control. -/
structure KeepsReadings (para para' : MyPara) : Prop where
  iLoad : para'.iLoad = para.iLoad
  vLoad : para'.vLoad = para.vLoad
  real : para'.realIdensity = para.realIdensity
  relay : para'.ccrRelayState = para.ccrRelayState
  remote : para'.ccrLocalRemote = para.ccrLocalRemote
  cmd : para.ccrLocalRemote = false → para'.cmdIdensity = para.cmdIdensity

theorem KeepsReadings.refl (para : MyPara) : KeepsReadings para para := ⟨rfl, rfl, rfl, rfl, rfl, fun _ => rfl⟩

theorem canMsgResponseDataPack_keeps {cmd : Nat} {u : Can.CanUserData} {s s' : MyCan} {data data' : Bytes8} {len : Int}
    (hpack : Can.canMsgResponseDataPack cmd (some u) s data = some (s', data', len)) :
    KeepsReadings s.para s'.para := by
  unfold Can.canMsgResponseDataPack at hpack
  split at hpack
  · rename_i handler hfind
    rcases Can.findCmdWithMsgCmd_cases hfind with ⟨-, rfl⟩ | ⟨-, rfl⟩ | ⟨-, rfl⟩ | ⟨-, pack, rfl⟩
    · simp only [Can.ccrSync, Option.map_some] at hpack
      split at hpack <;> obtain ⟨rfl, -⟩ := Prod.mk.inj (Option.some.inj hpack) <;> exact .refl _
    · obtain ⟨rfl, -⟩ := Prod.mk.inj (Option.some.inj hpack)
      exact ⟨rfl, rfl, rfl, rfl, rfl, fun _ => rfl⟩
    · unfold Can.ccrCtrlLightLvl at hpack
      split at hpack
      · rename_i hremote
        obtain ⟨rfl, -⟩ := Prod.mk.inj (Option.some.inj hpack)
        refine ⟨rfl, rfl, rfl, rfl, rfl, fun hlocal => ?_⟩
        rw [hremote] at hlocal
        contradiction
      · obtain ⟨rfl, -⟩ := Prod.mk.inj (Option.some.inj hpack)
        exact .refl _
    · obtain ⟨rfl, -⟩ := Prod.mk.inj (Option.some.inj hpack)
      exact .refl _
  · obtain ⟨rfl, -⟩ := Prod.mk.inj (Option.some.inj hpack)
    exact .refl _

theorem canMsgParse_keeps {dev : CanDev} {canMsg : RtCanMsg} {s s' : MyCan} {left : Leftovers} {reply : Option TxFrame}
    (hparse : Can.canMsgParse dev canMsg s left = some (s', reply)) : KeepsReadings s.para s'.para := by
  obtain ⟨data, -, hrest⟩ := Option.bind_eq_some_iff.mp hparse
  split at hrest
  · rcases Can.sendStandardFrame_cases hrest with ⟨-, rfl, -⟩ | ⟨-, data', len, hpack, -⟩
    · exact .refl _
    · exact canMsgResponseDataPack_keeps hpack
  · obtain ⟨rfl, -⟩ := Prod.mk.inj (Option.some.inj hrest)
    exact .refl _

/-- A turn writes the ports and the bits that follow from them. -/
structure KeepsLoad (para para' : MyPara) : Prop where
  iLoad : para'.iLoad = para.iLoad
  vLoad : para'.vLoad = para.vLoad
  real : para'.realIdensity = para.realIdensity
  cmd : para'.cmdIdensity = para.cmdIdensity

theorem inputCheck_keeps (s : InputState) (commFail : CanDev → UInt8) (read0 read1 : PortRead) (temp0 temp1 : UInt8) :
    KeepsLoad s.para (Io.inputCheck s commFail read0 read1 temp0 temp1).1.para := by
  unfold Io.inputCheck Io.alarmUpdate Io.portUpdate
  dsimp only
  split_ifs <;> exact ⟨rfl, rfl, rfl, rfl⟩

theorem and_eq_zero_iff (port : UInt8) :
    (port &&& 0x01 = 0 ↔ Io.inputBit port 0 = false) ∧ (port &&& 0x02 = 0 ↔ Io.inputBit port 1 = false) := by
  have hzero := Io.and_ne_zero_eq_inputBit port 0
  have hone := Io.and_ne_zero_eq_inputBit port 1
  rw [show ((0 : Fin 8) : Nat) = 0 from rfl] at hzero
  rw [show ((1 : Fin 8) : Nat) = 1 from rfl] at hone
  rw [← hzero, ← hone, decide_eq_false_iff_not, decide_eq_false_iff_not, not_not, not_not]
  exact ⟨Iff.rfl, Iff.rfl⟩

/-! ### Runs -/

structure AtStart (s : Station F) : Prop where
  info : s.info = .zero
  count : s.measurement.count < RMS_WINDOWN_SIZE
  commFail : ∀ dev, s.commFail dev = 0
  iLoad : s.can.para.iLoad = 0
  vLoad : s.can.para.vLoad = 0
  real : s.can.para.realIdensity = 0
  cmd : s.can.para.cmdIdensity = 0
  relay : s.can.para.ccrRelayState = false
  remote : s.can.para.ccrLocalRemote = false

section Runs

variable {floats : Floats F P} {s s' : Station F}

theorem AtStart.initial (hinit : s.Initial floats) : AtStart s := by
  obtain ⟨hmeasurement, hpara, hcomm, -, -⟩ := hinit
  have hinfo : s.info = .zero := by
    rw [Station.info, hmeasurement]
    rfl
  have hcount : s.measurement.count < RMS_WINDOWN_SIZE := by
    rw [hmeasurement]
    exact (by decide : 0 < RMS_WINDOWN_SIZE)
  refine ⟨hinfo, hcount, fun dev => congrFun hcomm dev, ?_, ?_, ?_, ?_, ?_, ?_⟩ <;> rw [hpara] <;> rfl

theorem AtStart.same (h : AtStart s) : SameReadings s := by
  refine ⟨fun data => ?_, fun data => ?_, fun dev => ?_⟩
  · rw [Can.reportedLoad_eq, h.iLoad, h.vLoad, h.info]
    rfl
  · have hcmd : s.can.para.cmdIdensity.toNat < 9 := by
      rw [h.cmd]
      decide
    obtain ⟨-, -, hrelay, hremote, -⟩ := Can.ioState_fields h.real hcmd
    rw [Can.reportedSwitches_eq, hrelay, hremote, h.relay, h.remote, h.info]
    rfl
  · rw [h.info, h.commFail]
    cases dev <;> rfl

/-- A call does not go wrong, and what it publishes is nothing. -/
theorem AtStart.calRms (h : AtStart s) {cur : Buffer} {para : P} (hsmall : Unchanging floats s (.calRms cur para)) :
    ∃ m r, Adc.calRms floats s.measurement cur para = some (m, r) ∧ AtStart { s with measurement := m } := by
  obtain ⟨m, r, hcall, hcalled⟩ := Adc.calRms_called floats (Nat.lt_succ_of_lt h.count) cur para
  have hinfo : s.measurement.info = .zero := h.info
  refine ⟨m, r, hcall, ?_, ?_, h.commFail, h.iLoad, h.vLoad, h.real, h.cmd, h.relay, h.remote⟩
  · change m.info = .zero
    rw [hcalled.info]
    split_ifs with hfull
    · obtain ⟨hcurrent, hvoltage⟩ := hsmall hfull
      rw [hinfo, Adc.updateILoad, Adc.updateLoadVoltage, if_pos hcurrent, if_pos hvoltage]
      rfl
    · exact hinfo
  · change m.count < RMS_WINDOWN_SIZE
    rw [hcalled.count]
    split_ifs with hfull
    · decide
    · exact Nat.not_le.mp hfull

theorem AtStart.frame {dev : CanDev} {canMsg : RtCanMsg} {left : Leftovers} {reply : Option TxFrame} (h : AtStart s)
    (hreceive : receiveFrame s dev canMsg left = some (s', reply)) : AtStart s' := by
  obtain ⟨⟨can, reply'⟩, hparse, heq⟩ := Option.map_eq_some_iff.mp hreceive
  obtain ⟨rfl, -⟩ := Prod.mk.inj heq
  have hkeeps := canMsgParse_keeps hparse
  refine ⟨h.info, h.count, fun other => ?_, hkeeps.iLoad.trans h.iLoad, hkeeps.vLoad.trans h.vLoad,
    hkeeps.real.trans h.real, (hkeeps.cmd h.remote).trans h.cmd, hkeeps.relay.trans h.relay,
    hkeeps.remote.trans h.remote⟩
  change Function.update s.commFail dev 0 other = 0
  by_cases hdev : other = dev
  · rw [hdev, Function.update_self]
  · rw [Function.update_of_ne hdev, h.commFail]

theorem AtStart.input (h : AtStart s) {read0 read1 : PortRead} {temp0 temp1 : UInt8}
    (hoff : Unchanging floats s (.input read0 read1 temp0 temp1)) :
    AtStart (s.inputCheck read0 read1 temp0 temp1).1 := by
  have hturned := Io.inputCheck_turned s.inputs s.commFail read0 read1 temp0 temp1
  have hkeeps := inputCheck_keeps s.inputs s.commFail read0 read1 temp0 temp1
  have hremote := (and_eq_zero_iff _).1.mp hoff.1
  have hrelay := (and_eq_zero_iff _).2.mp hoff.2
  refine ⟨h.info, h.count, h.commFail, hkeeps.iLoad.trans h.iLoad, hkeeps.vLoad.trans h.vLoad,
    hkeeps.real.trans h.real, hkeeps.cmd.trans h.cmd, hturned.relay.trans ?_, hturned.localRemote.trans ?_⟩
  · rw [hrelay, show s.inputs.para.ccrRelayState = false from h.relay, ite_self]
  · rw [hremote, show s.inputs.para.ccrLocalRemote = false from h.remote, ite_self]

/-- As long as no reading leaves its first value, the display and the bus agree. -/
theorem readings_agree {as : List (StationAction P)} {es : List StationEvent}
    (hreach : Reaches ((stationSystem floats).restrict (Unchanging floats)) as es s) : SameReadings s := by
  have hstart : AtStart s := by
    refine hreach.invariant (fun _ _ s => AtStart s) (fun _ hinit => .initial hinit) ?_
    intro as es s a out s' h henabled hstep
    obtain ⟨-, hunchanging⟩ := henabled
    cases a with
    | calRms cur para =>
      obtain ⟨m, r, hcall, hnext⟩ := h.calRms hunchanging
      obtain ⟨r', hcall', heq⟩ := Option.map_eq_some_iff.mp hstep
      obtain rfl := Option.some.inj (hcall.symm.trans hcall')
      exact (Prod.mk.inj heq).1 ▸ hnext
    | frame dev canMsg left =>
      obtain ⟨⟨s₁, reply⟩, hreceive, heq⟩ := Option.map_eq_some_iff.mp hstep
      obtain ⟨rfl, -⟩ := Prod.mk.inj heq
      exact h.frame hreceive
    | timeout dev => exact hunchanging.elim
    | input read0 read1 temp0 temp1 =>
      obtain ⟨rfl, -⟩ := Prod.mk.inj (Option.some.inj hstep)
      exact h.input hunchanging
    | display =>
      obtain ⟨rfl, -⟩ := Prod.mk.inj (Option.some.inj hstep)
      exact h
  exact hstart.same

instance Station.decidableUnchanging (floats : Floats F P) (s : Station F) :
    (a : StationAction P) → Decidable (Unchanging floats s a)
  | .calRms _ _ => inferInstanceAs (Decidable (_ ≤ _ → _ ≤ _ ∧ _ ≤ _))
  | .frame _ _ _ => inferInstanceAs (Decidable True)
  | .timeout _ => inferInstanceAs (Decidable False)
  | .input _ _ _ _ => inferInstanceAs (Decidable (_ = _ ∧ _ = _))
  | .display => inferInstanceAs (Decidable True)

instance stationSystem.decidableEnabled (floats : Floats F P) (s : Station F) (a : StationAction P) :
    Decidable ((stationSystem floats).enabled s a) :=
  inferInstanceAs (Decidable True)

instance stationSystem.decidableRestrict (floats : Floats F P) (s : Station F) (a : StationAction P) :
    Decidable (((stationSystem floats).restrict (Unchanging floats)).enabled s a) :=
  inferInstanceAs (Decidable (True ∧ Unchanging floats s a))

def Station.start (floats : Floats F P) : Station F where
  measurement := .start floats
  can := .zero
  commFail := fun _ => 0
  input0Last := 0
  input1Last := 0

theorem Station.start_initial (floats : Floats F P) : (Station.start floats).Initial floats := ⟨rfl, rfl, rfl, rfl, rfl⟩

end Runs

/-- Rational numbers, truncated where they are converted. -/
def truncatedFloats : Floats ℚ Adc.SysPara := Adc.rationals Adc.truncated

/-- A calibration to the limits of the dead bands. -/
def atDeadBand : Adc.SysPara := { inA1 := 0, inB := 11 / 10, unA := 0, unB := 20 }

/-- A window of measurements at the limits of the dead bands, open inputs, a light command that local control refuses and a refresh. -/
def quietStation : List (StationAction Adc.SysPara) :=
  List.replicate RMS_WINDOWN_SIZE (.calRms (Adc.constant 1845) atDeadBand) ++
    [.input (.good 0xff) (.good 0xff) 0x00 0x00,
      .frame .can0 { id := 0x201, ide := false, rtr := false, len := 2, hdrIndex := 0
                     data := #v[0xff, 3, 0, 0, 0, 0, 0, 0] } Can.noLeftovers,
      .display]

theorem quietStation_isSome : (((stationSystem truncatedFloats).restrict (Unchanging truncatedFloats)).exec
    (.start truncatedFloats) quietStation).isSome := by
  decide +kernel

theorem readings_agree_quiet :
    SameReadings ((((stationSystem truncatedFloats).restrict (Unchanging truncatedFloats)).exec (.start truncatedFloats)
      quietStation).get quietStation_isSome).1 :=
  readings_agree (Reaches.of_exec (Station.start_initial truncatedFloats) quietStation_isSome)

def relayCloses : List (StationAction Adc.SysPara) := [.input (.good 0xff) (.good 0xfd) 0x00 0x00]

theorem relayCloses_isSome :
    ((stationSystem truncatedFloats).exec (.start truncatedFloats) relayCloses).isSome := by
  decide +kernel

/-- The bus reports the closed relay and the display shows an open one. -/
theorem not_readings_agree :
    ¬ ∀ as es (s : Station ℚ), Reaches (stationSystem truncatedFloats) as es s → SameReadings s := by
  intro h
  have hreach := Reaches.of_exec (Station.start_initial truncatedFloats) relayCloses_isSome
  have hswitches := (h _ _ _ hreach).switches (Vector.replicate 8 0)
  revert hswitches
  decide +kernel

end LightControlMonitor.Hmi
