import LightControlMonitor.Lib.Transition
import LightControlMonitor.Can.Leftovers

/-!
# The light level

A light command carries its level as the service code, and the level is kept three times: as `cmd_idensity`, as the output byte of the CAN path and, by way of the table of `output_check`, as the output byte of the output path. They agree as long as the service code is one of the nine the table has an entry for; the code takes any.
-/

namespace LightControlMonitor.Can

open Transition (Reaches)

/-! ### The output path and the inputs -/

def idensityOutMap : Vector UInt8 9 := #v[0, 0x01, 0x02, 0x04, 0x08, 0x10, 0x20, 0x40, 0x80]

def inverseByte (byte : UInt8) : UInt8 :=
  (List.range 8).foldl (fun inversed i => (inversed <<< 1) ||| ((byte >>> UInt8.ofNat i) &&& 0x01)) 0

/-- One turn of the loop of `output_check`, with what it writes to the port. -/
def outputCheck (para : MyPara) (cmdIdensityLast : UInt8) : Option (UInt8 × Option UInt8) :=
  if cmdIdensityLast ≠ para.cmdIdensity then
    idensityOutMap[para.cmdIdensity.toNat]?.map fun outport => (para.cmdIdensity, some (~~~ inverseByte outport))
  else some (cmdIdensityLast, none)

/-- `ccr_alarm_state.power_off`. -/
def setPowerOff (alarm : UInt16) (off : Bool) : UInt16 := (alarm &&& 0xfffe) ||| (if off then 1 else 0)

def updateCcrIoStatus (para : MyPara) : MyPara :=
  let powerOn := para.inputP1 &&& 0x04 ≠ 0
  { para with
    ccrLocalRemote := para.inputP1 &&& 0x01 ≠ 0, ccrRelayState := para.inputP1 &&& 0x02 ≠ 0
    ccrPowerOnState := powerOn, ccrAlarmState := setPowerOff para.ccrAlarmState (!powerOn) }

/-! ### The system -/

inductive LevelAction
  | frame (dev : CanDev) (canMsg : RtCanMsg) (left : Leftovers)
  | input (inputP1 : UInt8)

/-- Frames with two to eight data bytes: the destination and the service code, and not more than the array holds. -/
def LevelEnabled (_ : MyCan) : LevelAction → Prop
  | .frame _ canMsg _ => 2 ≤ canMsg.len ∧ canMsg.len ≤ 8
  | .input _ => True

def levelStep (s : MyCan) : LevelAction → Option (MyCan × List TxFrame)
  | .frame dev canMsg left => (canMsgParse dev canMsg s left).map fun r => (r.1, r.2.toList)
  | .input inputP1 => some ({ s with para := updateCcrIoStatus { s.para with inputP1 := inputP1 } }, [])

def levelSystem : Transition.System MyCan LevelAction TxFrame where
  init s := s.para = .zero
  enabled := LevelEnabled
  step := levelStep

/-- The three copies of the level agree, and the IO word can be taken apart again. -/
structure LevelConsistent (s : MyCan) : Prop where
  index : s.para.cmdIdensity.toNat < 9
  output : idensityOutMap[s.para.cmdIdensity.toNat]? = some s.para.outputP0
  wordReal : (ioState s.para).toNat &&& 0x7 = s.para.realIdensity.toNat
  wordCmd : (ioState s.para).toNat >>> 3 &&& 0xf = s.para.cmdIdensity.toNat
  wordRelay : (ioState s.para).toNat.testBit 7 = s.para.ccrRelayState
  wordRemote : (ioState s.para).toNat.testBit 8 = s.para.ccrLocalRemote
  wordTop : (ioState s.para).toNat.testBit 15 = true

/-- The node takes the frame as a light command. -/
def LevelCommand (s : MyCan) (canMsg : RtCanMsg) : Prop :=
  addressed s (destMacId canMsg.data) = true ∧ s.sendEnable = true ∧ msgId canMsg.id = 2 ∧ s.para.ccrLocalRemote = true

instance (s : MyCan) (canMsg : RtCanMsg) : Decidable (LevelCommand s canMsg) :=
  inferInstanceAs (Decidable (_ ∧ _ ∧ _ ∧ _))

/-- A light command that is taken has one of the service codes 1 to 9. -/
def LevelInMap (s : MyCan) : LevelAction → Prop
  | .frame _ canMsg _ =>
    LevelCommand s canMsg → (1 : UInt8) ≤ serviceCode canMsg.data ∧ serviceCode canMsg.data ≤ (9 : UInt8)
  | .input _ => True

/-! ### What a frame does to the level -/

/-- The level after a light command with service code `service`, or as before. -/
def LevelAfter (para para' : MyPara) (command : Prop) (service : UInt8) : Prop :=
  para'.realIdensity = para.realIdensity ∧ para'.ccrLocalRemote = para.ccrLocalRemote ∧
    para'.ccrRelayState = para.ccrRelayState ∧
    (command → para'.cmdIdensity = service - 1 ∧ para'.outputP0 = outputOf (service - 1)) ∧
    (¬ command → para'.cmdIdensity = para.cmdIdensity ∧ para'.outputP0 = para.outputP0)

theorem LevelAfter.refl (para : MyPara) {command : Prop} (hcommand : ¬ command) (service : UInt8) :
    LevelAfter para para command service :=
  ⟨rfl, rfl, rfl, fun h => absurd h hcommand, fun _ => ⟨rfl, rfl⟩⟩

theorem canMsgResponseDataPack_level {cmd : Nat} {u : CanUserData} {s s' : MyCan} {data data' : Bytes8} {len : Int}
    (hpack : canMsgResponseDataPack cmd (some u) s data = some (s', data', len)) :
    s'.sendEnable = s.sendEnable ∧
      LevelAfter s.para s'.para (cmd = CMD_CTRL_LIGHT_LVL ∧ s.para.ccrLocalRemote = true) (serviceCode u.data) := by
  unfold canMsgResponseDataPack at hpack
  split at hpack
  · rename_i handler hfind
    rcases findCmdWithMsgCmd_cases hfind with ⟨rfl, rfl⟩ | ⟨rfl, rfl⟩ | ⟨rfl, rfl⟩ | ⟨hcmd, pack, rfl⟩
    · -- the mailboxes are the only change
      simp only [ccrSync, Option.map_some] at hpack
      split at hpack <;> obtain ⟨rfl, -⟩ := Prod.mk.inj (Option.some.inj hpack) <;>
        exact ⟨rfl, .refl _ (by simp [CMD_SYNC, CMD_CTRL_LIGHT_LVL]) _⟩
    · obtain ⟨rfl, -⟩ := Prod.mk.inj (Option.some.inj hpack)
      exact ⟨rfl, rfl, rfl, rfl, by simp [CMD_SYNC_TIME, CMD_CTRL_LIGHT_LVL], fun _ => ⟨rfl, rfl⟩⟩
    · unfold ccrCtrlLightLvl at hpack
      split at hpack
      · rename_i hremote
        obtain ⟨rfl, -⟩ := Prod.mk.inj (Option.some.inj hpack)
        exact ⟨rfl, rfl, rfl, rfl, fun _ => ⟨by simp, by simp⟩, fun hnot => absurd ⟨rfl, hremote⟩ hnot⟩
      · rename_i hlocal
        obtain ⟨rfl, -⟩ := Prod.mk.inj (Option.some.inj hpack)
        exact ⟨rfl, .refl _ (fun hcommand => hlocal hcommand.2) _⟩
    · obtain ⟨rfl, -⟩ := Prod.mk.inj (Option.some.inj hpack)
      exact ⟨rfl, .refl _ (fun hcommand => hcmd hcommand.1) _⟩
  · rename_i hfind
    obtain ⟨rfl, -⟩ := Prod.mk.inj (Option.some.inj hpack)
    refine ⟨rfl, .refl _ (fun hcommand => ?_) _⟩
    rw [hcommand.1] at hfind
    contradiction

theorem sendStandardFrame_level {id : Nat} {service : UInt8} {u : CanUserData} {s s' : MyCan} {msgData : Bytes8}
    {reply : Option TxFrame} (hsend : sendStandardFrame s (cmdOf id service) (some u) msgData = some (s', reply)) :
    s'.sendEnable = s.sendEnable ∧ LevelAfter s.para s'.para
      (s.sendEnable = true ∧ msgId id = 2 ∧ s.para.ccrLocalRemote = true) (serviceCode u.data) := by
  rcases sendStandardFrame_cases hsend with ⟨hdisabled, rfl, -⟩ | ⟨henabled, data, len, hpack, -⟩
  · exact ⟨rfl, .refl _ (by simp [hdisabled]) _⟩
  · have hlookup : (if cmdOf id service >>> 8 = 0x02 then 0x02ff else cmdOf id service) = CMD_CTRL_LIGHT_LVL ↔
        msgId id = 2 := by
      rw [cmdOf_class]
      constructor
      · intro hcmd
        by_contra hclass
        rw [if_neg hclass] at hcmd
        have := cmdOf_class id service
        rw [hcmd] at this
        exact hclass this.symm
      · intro hclass
        rw [if_pos hclass]
        rfl
    have hlevel := canMsgResponseDataPack_level hpack
    rw [hlookup] at hlevel
    simpa [henabled] using hlevel

/-- A light command sets the level from the service code; any other frame leaves it. -/
theorem canMsgParse_level {dev : CanDev} {canMsg : RtCanMsg} {s s' : MyCan} {left : Leftovers}
    {reply : Option TxFrame} (htwo : 2 ≤ canMsg.len) (hparse : canMsgParse dev canMsg s left = some (s', reply)) :
    LevelAfter s.para s'.para (LevelCommand s canMsg) (serviceCode canMsg.data) := by
  obtain ⟨data, hcopy, hrest⟩ := Option.bind_eq_some_iff.mp hparse
  have hlen : canMsg.len ≤ 8 := copyBytes_isSome.mp (by rw [hcopy]; rfl)
  rw [copyBytes_of_le hlen, Option.some.injEq] at hcopy
  have hdest : destMacId data = destMacId canMsg.data := by
    simp [← hcopy, show 0 < canMsg.len by omega]
  have hservice : serviceCode data = serviceCode canMsg.data := by
    simp [← hcopy, show 1 < canMsg.len by omega]
  rw [hdest, hservice] at hrest
  split at hrest
  · rename_i haddressed
    have hlevel := (sendStandardFrame_level hrest).2
    rw [hservice] at hlevel
    simpa [LevelCommand, haddressed] using hlevel
  · rename_i hother
    obtain ⟨rfl, -⟩ := Prod.mk.inj (Option.some.inj hrest)
    exact .refl _ (fun hcommand => hother hcommand.1) _

/-! ### The levels of the table -/

/-- The level is in the table and the output byte is its entry. -/
def InMap (cmdIdensity outputP0 : UInt8) : Prop :=
  cmdIdensity.toNat < 9 ∧ idensityOutMap[cmdIdensity.toNat]? = some outputP0

theorem inMap_service {service : UInt8} : InMap (service - 1) (outputOf (service - 1)) ↔ 1 ≤ service ∧ service ≤ 9 := by
  have hall : ∀ n < 256, InMap (UInt8.ofNat n - 1) (outputOf (UInt8.ofNat n - 1)) ↔
      1 ≤ UInt8.ofNat n ∧ UInt8.ofNat n ≤ 9 := by
    unfold InMap
    decide +kernel
  simpa using hall service.toNat service.toNat_lt

/-- The fields of the IO word do not overlap while the level is in the table. -/
theorem ioState_fields {para : MyPara} (hreal : para.realIdensity = 0) (hcmd : para.cmdIdensity.toNat < 9) :
    (ioState para).toNat &&& 0x7 = para.realIdensity.toNat ∧
      (ioState para).toNat >>> 3 &&& 0xf = para.cmdIdensity.toNat ∧
      (ioState para).toNat.testBit 7 = para.ccrRelayState ∧ (ioState para).toNat.testBit 8 = para.ccrLocalRemote ∧
      (ioState para).toNat.testBit 15 = true := by
  have hall : ∀ cmd < 9, ∀ remote relay : Bool,
      let word := (UInt16.ofNat ((0 : UInt16).toNat ||| cmd <<< 3 ||| remote.toNat <<< 8 ||| relay.toNat <<< 7 |||
        1 <<< 15)).toNat
      word &&& 0x7 = (0 : UInt16).toNat ∧ word >>> 3 &&& 0xf = cmd ∧ word.testBit 7 = relay ∧
        word.testBit 8 = remote ∧ word.testBit 15 = true := by
    decide
  rw [ioState, hreal]
  exact hall _ hcmd _ _

theorem levelConsistent_iff {s : MyCan} (hreal : s.para.realIdensity = 0) :
    LevelConsistent s ↔ InMap s.para.cmdIdensity s.para.outputP0 := by
  constructor
  · intro h
    exact ⟨h.index, h.output⟩
  · intro h
    obtain ⟨hword, hword', hrelay, hremote, htop⟩ := ioState_fields hreal h.1
    exact ⟨h.1, h.2, hword, hword', hrelay, hremote, htop⟩

/-! ### Runs -/

/-- The level a state of a run can have: no frame writes the real level. -/
structure LevelInv (s : MyCan) : Prop where
  real : s.para.realIdensity = 0
  inMap : InMap s.para.cmdIdensity s.para.outputP0

theorem LevelInv.initial {s : MyCan} (hzero : s.para = .zero) : LevelInv s :=
  ⟨by rw [hzero]; rfl, by rw [hzero]; exact ⟨by decide, by decide⟩⟩

/-- A frame keeps the level in the table exactly if it is no light command or one with a service code of the table. -/
theorem LevelInv.frame_iff {s s' : MyCan} {dev : CanDev} {canMsg : RtCanMsg} {left : Leftovers}
    {reply : Option TxFrame} (h : LevelInv s) (htwo : 2 ≤ canMsg.len)
    (hparse : canMsgParse dev canMsg s left = some (s', reply)) :
    LevelInv s' ↔ LevelInMap s (.frame dev canMsg left) := by
  obtain ⟨hreal, -, -, htaken, hother⟩ := canMsgParse_level htwo hparse
  have hreal' : s'.para.realIdensity = 0 := hreal.trans h.real
  by_cases hcommand : LevelCommand s canMsg
  · obtain ⟨hcmd, hout⟩ := htaken hcommand
    constructor
    · intro h' _
      have hmap := h'.inMap
      rw [hcmd, hout] at hmap
      exact inMap_service.mp hmap
    · intro hservice
      refine ⟨hreal', ?_⟩
      rw [hcmd, hout]
      exact inMap_service.mpr (hservice hcommand)
  · obtain ⟨hcmd, hout⟩ := hother hcommand
    refine ⟨fun _ hcommand' => absurd hcommand' hcommand, fun _ => ⟨hreal', ?_⟩⟩
    rw [hcmd, hout]
    exact h.inMap

theorem LevelInv.input {s : MyCan} (h : LevelInv s) (inputP1 : UInt8) :
    LevelInv { s with para := updateCcrIoStatus { s.para with inputP1 := inputP1 } } :=
  ⟨h.real, h.inMap⟩

/-- While every light command that is taken has a service code of the table, the copies of the level agree. -/
theorem level_consistent {as : List LevelAction} {es : List TxFrame} {s : MyCan}
    (hreach : Reaches (levelSystem.restrict LevelInMap) as es s) : LevelConsistent s := by
  have hinv : LevelInv s := by
    apply hreach.invariant (fun _ _ s => LevelInv s) (fun _ hinit => .initial hinit)
    intro _ _ s a out s' h henabled hstep
    cases a with
    | frame dev canMsg left =>
      obtain ⟨⟨s₁, reply⟩, hparse, heq⟩ := Option.map_eq_some_iff.mp hstep
      obtain ⟨rfl, -⟩ := Prod.mk.inj heq
      exact (h.frame_iff henabled.1.1 hparse).mpr henabled.2
    | input inputP1 =>
      obtain ⟨rfl, -⟩ := Prod.mk.inj (Option.some.inj hstep)
      exact h.input inputP1
  exact (levelConsistent_iff hinv.real).mpr hinv.inMap

instance (s : MyCan) : (a : LevelAction) → Decidable (LevelEnabled s a ∧ LevelInMap s a)
  | .frame _ canMsg _ => inferInstanceAs (Decidable ((2 ≤ canMsg.len ∧ canMsg.len ≤ 8) ∧
      (LevelCommand s canMsg → (1 : UInt8) ≤ serviceCode canMsg.data ∧ serviceCode canMsg.data ≤ (9 : UInt8))))
  | .input _ => inferInstanceAs (Decidable (True ∧ True))

instance (s : MyCan) : (a : LevelAction) → Decidable (LevelEnabled s a)
  | .frame _ canMsg _ => inferInstanceAs (Decidable (2 ≤ canMsg.len ∧ canMsg.len ≤ 8))
  | .input _ => inferInstanceAs (Decidable True)

instance (s : MyCan) (a : LevelAction) : Decidable (levelSystem.enabled s a) :=
  inferInstanceAs (Decidable (LevelEnabled s a))

instance (s : MyCan) (a : LevelAction) : Decidable ((levelSystem.restrict LevelInMap).enabled s a) :=
  inferInstanceAs (Decidable (LevelEnabled s a ∧ LevelInMap s a))

def noLeftovers : Leftovers := ⟨Vector.replicate 8 0, Vector.replicate 8 0, Vector.replicate 8 0⟩

/-- A light command to all nodes. -/
def lightCommand (service : UInt8) : LevelAction :=
  .frame .can0 { id := 0x201, ide := false, rtr := false, len := 2, hdrIndex := 0
                 data := #v[0xff, service, 0, 0, 0, 0, 0, 0] } noLeftovers

/-- The switch to remote mode and a light command. -/
def remoteLevel (service : UInt8) : List LevelAction := [.input 0x01, lightCommand service]

theorem remoteLevel_isSome : ((levelSystem.restrict LevelInMap).exec .zero (remoteLevel 3)).isSome := by
  decide +kernel

theorem level_consistent_remote :
    LevelConsistent (((levelSystem.restrict LevelInMap).exec .zero (remoteLevel 3)).get remoteLevel_isSome).1 :=
  level_consistent (Reaches.of_exec rfl remoteLevel_isSome)

theorem remoteLevel_zero_isSome : (levelSystem.exec .zero (remoteLevel 0)).isSome := by
  decide +kernel

/-- Service code 0 gives the level 255. -/
theorem not_level_consistent_zero :
    ¬ ∀ as es (s : MyCan), Reaches levelSystem as es s → LevelConsistent s := by
  intro h
  have hindex := (h _ _ _ (Reaches.of_exec rfl remoteLevel_zero_isSome)).index
  revert hindex
  decide +kernel

/-- In a consistent state the output path writes the byte of the CAN path. -/
theorem LevelConsistent.outputCheck {s : MyCan} (h : LevelConsistent s) {cmdIdensityLast : UInt8}
    (hnew : cmdIdensityLast ≠ s.para.cmdIdensity) :
    Can.outputCheck s.para cmdIdensityLast = some (s.para.cmdIdensity, some (~~~ inverseByte s.para.outputP0)) := by
  rw [Can.outputCheck, if_pos hnew, h.output]
  rfl

end LightControlMonitor.Can
