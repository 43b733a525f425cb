import LightControlMonitor.Lib.Fifo
import Mathlib.Data.Nat.Bitwise

/-!
# The CAN messages

From a frame in the receive registers to the reply: `gd32_can_recvmsg`, `can_msg_parse`, `send_standard_frame` and the handlers of `can_response.c`, over the fields of `sys.mycan` they use. A buffer that the C code leaves uninitialised is an argument, and a copy that leaves an array is `none`, as is the use of a null argument pointer.

Words are little-endian in the byte arrays. The fields are fixed-width integers; the commands, which the code computes from an id and a byte, are natural numbers.
-/

namespace LightControlMonitor.Can

/-- `sys.can.can0_dev` and `sys.can.can1_dev`. -/
inductive CanDev
  | can0
  | can1
  deriving DecidableEq

/-- The fields of `myPara` that the messages and the inputs use. -/
structure MyPara where
  iLoad : UInt16
  vLoad : UInt16
  realIdensity : UInt16
  inputP0 : UInt8
  inputP1 : UInt8
  outputP0 : UInt8
  cmdIdensity : UInt8
  ccrLocalRemote : Bool
  ccrRelayState : Bool
  ccrPowerOnState : Bool
  ccrAlarmState : UInt16
  upsInputVoltage : UInt16
  upsOutputVoltage : UInt16
  upsBatteryVoltage : UInt16
  upsBatteryCapacity : UInt16
  upsBatteryDurationMin : UInt16
  upsAlarmStatus : UInt16
  upsRunStataus : UInt16
  insResistanceValue : UInt16
  insResistanceUnit : UInt16
  badLampNum : UInt16
  seconds : UInt32
  ms : UInt16

/-- `sys.mycan` and `g_send_enable`. -/
structure MyCan where
  myCanId : UInt8
  sendEnable : Bool
  canSyncMb0 : List Nat
  canSyncMb1 : List Nat
  para : MyPara

/-- The record as the image has it. -/
def MyPara.zero : MyPara where
  iLoad := 0
  vLoad := 0
  realIdensity := 0
  inputP0 := 0
  inputP1 := 0
  outputP0 := 0
  cmdIdensity := 0
  ccrLocalRemote := false
  ccrRelayState := false
  ccrPowerOnState := false
  ccrAlarmState := 0
  upsInputVoltage := 0
  upsOutputVoltage := 0
  upsBatteryVoltage := 0
  upsBatteryCapacity := 0
  upsBatteryDurationMin := 0
  upsAlarmStatus := 0
  upsRunStataus := 0
  insResistanceValue := 0
  insResistanceUnit := 0
  badLampNum := 0
  seconds := 0
  ms := 0

def MyCan.zero : MyCan where
  myCanId := 0
  sendEnable := true
  canSyncMb0 := []
  canSyncMb1 := []
  para := .zero

/-- `can_data_feild_u` and the other arrays of eight bytes. -/
abbrev Bytes8 := Vector UInt8 8

/-- `destMACID` of `can_data_feild_u`. -/
abbrev destMacId (data : Bytes8) : UInt8 := data[0]

/-- `serviceCode` of `can_data_feild_u`. -/
abbrev serviceCode (data : Bytes8) : UInt8 := data[1]

structure CanUserData where
  data : Bytes8
  canDev : CanDev

structure RtCanMsg where
  id : Nat
  ide : Bool
  rtr : Bool
  len : Nat
  hdrIndex : Int
  data : Bytes8

/-- A frame in the receive registers. All eight data registers can be read, whatever `dlen` says. -/
structure RxFrame where
  ff : Bool
  sfid : Nat
  efid : Nat
  ft : Bool
  dlen : Nat
  fi : Nat
  data : Bytes8

def CAN_MB_NUM : Nat := 10

def CMD_SYNC_TIME : Nat := 0x0101
def CMD_CTRL_LIGHT_LVL : Nat := 0x02ff
def CMD_SYNC : Nat := 0x0401
def CMD_PACK_UPS_ALARM_STATUS : Nat := 0x0331
def CMD_PACK_CCR_IO : Nat := 0x0402
def CMD_PACK_UPS_IO : Nat := 0x0430
def CMD_PACK_UPS_ANALOG : Nat := 0x0530
def CMD_PACK_CCR_LOOP_V_I_INFO : Nat := 0x0503
def CMD_PACK_CCR_INSULATION : Nat := 0x0507
def CMD_PACK_CCR_LIGHT_FAIL_NUM : Nat := 0x0508

/-! ### Bytes and words -/

/-- `rt_memcpy` of the first `len` bytes between two arrays of eight. -/
def copyBytes (dst src : Bytes8) (len : Nat) : Option Bytes8 :=
  if len ≤ 8 then some (Vector.ofFn fun i => if i.val < len then src[i] else dst[i]) else none

def setU16 (data : Bytes8) (index : Fin 4) (word : UInt16) : Bytes8 :=
  (data.set (2 * index.val) word.toUInt8).set (2 * index.val + 1) (word >>> 8).toUInt8

def u16 (lo hi : UInt8) : UInt16 := UInt16.ofNat (lo.toNat + hi.toNat <<< 8)

def u32 (b0 b1 b2 b3 : UInt8) : UInt32 :=
  UInt32.ofNat (b0.toNat + b1.toNat <<< 8 + b2.toNat <<< 16 + b3.toNat <<< 24)

/-- `data_box_t`, four bytes that are also read as one word or as two. -/
abbrev DataBox := Vector UInt8 4

def DataBox.u32 (box : DataBox) : UInt32 := Can.u32 (box.get 0) (box.get 1) (box.get 2) (box.get 3)

def DataBox.u16 (box : DataBox) : UInt16 := Can.u16 (box.get 0) (box.get 1)

/-- A copy of two bytes to the front. -/
def DataBox.copy2 (box : DataBox) (b0 b1 : UInt8) : DataBox := #v[b0, b1, box.get 2, box.get 3]

/-- `u16_array` of the reply data. -/
def wordAt (data : Bytes8) (index : Fin 4) : UInt16 :=
  u16 (data.get ⟨2 * index.val, by omega⟩) (data.get ⟨2 * index.val + 1, by omega⟩)

/-! ### The handlers

A handler gets the argument pointer of the request and the zeroed reply data, and returns the reply data and its length; a negative length suppresses the reply. -/

abbrev Handler := Option CanUserData → MyCan → Bytes8 → Option (MyCan × Bytes8 × Int)

def ccrSyncTime : Handler := fun arg s data =>
  arg.map fun userData =>
    let d := userData.data
    ({ s with para.seconds := u32 d[2] d[3] d[4] d[5], para.ms := u16 d[6] d[7] }, data, -1)

def rtMbSend (mb : List Nat) (cmd : Nat) : List Nat := Fifo.offer CAN_MB_NUM mb cmd

def ccrSync : Handler := fun arg s data =>
  let cmdList := CMD_PACK_CCR_IO :: [CMD_PACK_CCR_LOOP_V_I_INFO, CMD_PACK_UPS_ANALOG, CMD_PACK_UPS_IO]
  arg.map fun userData =>
    match userData.canDev with
    | .can0 => ({ s with canSyncMb0 := cmdList.foldl rtMbSend s.canSyncMb0 }, data, -1)
    | .can1 => ({ s with canSyncMb1 := cmdList.foldl rtMbSend s.canSyncMb1 }, data, -1)

/-- `cmd_idensity ? 1 << (cmd_idensity - 1) : 0`, cut to the byte. -/
def outputOf (cmdIdensity : UInt8) : UInt8 :=
  if cmdIdensity ≠ 0 then UInt8.ofNat (1 <<< (cmdIdensity.toNat - 1)) else 0

def ccrCtrlLightLvl : Handler := fun arg s data =>
  if s.para.ccrLocalRemote then
    arg.map fun userData =>
      let data := (data.set 0 userData.data[0]).set 1 userData.data[1]
      let cmdIdensity := data[1] - 1
      ({ s with para.cmdIdensity := cmdIdensity, para.outputP0 := outputOf cmdIdensity }, data, 0)
  else some (s, data, -1)

/-- The IO word of `ccr_io_pack`. -/
def ioState (para : MyPara) : UInt16 :=
  UInt16.ofNat (para.realIdensity.toNat ||| para.cmdIdensity.toNat <<< 3 ||| para.ccrLocalRemote.toNat <<< 8 |||
    para.ccrRelayState.toNat <<< 7 ||| 1 <<< 15)

def ccrIoPack : Handler := fun _ s data =>
  some (s, setU16 (setU16 data 0 s.para.ccrAlarmState) 1 (ioState s.para), 4)

def ccrLoopIVInfoPack : Handler := fun _ s data =>
  some (s, setU16 (setU16 (setU16 data 0 s.para.iLoad) 1 s.para.vLoad) 2 5000, 6)

/-- The load of the loop report, current and voltage, out of reply data that held `data`. -/
def reportedLoad (s : MyCan) (data : Bytes8) : Option (UInt16 × UInt16) :=
  (ccrLoopIVInfoPack none s data).map fun r => (wordAt r.2.1 0, wordAt r.2.1 1)

/-- The relay and the switch of the IO report: bits 7 and 8 of its second word. -/
def reportedSwitches (s : MyCan) (data : Bytes8) : Option (Bool × Bool) :=
  (ccrIoPack none s data).map fun r =>
    ((wordAt r.2.1 1).toNat.testBit 7, (wordAt r.2.1 1).toNat.testBit 8)

def ccrInsulationPack : Handler := fun _ s data =>
  some (s, setU16 (setU16 data 0 s.para.insResistanceValue) 1 s.para.insResistanceUnit, 4)

def ccrLightFailPack : Handler := fun _ s data => some (s, setU16 data 0 s.para.badLampNum, 2)

def upsIoPack : Handler := fun _ s data =>
  let status := (s.para.upsRunStataus ||| s.para.upsAlarmStatus <<< 1).toUInt8
  some (s, setU16 ((data.set 0 status).set 1 s.para.upsBatteryCapacity.toUInt8) 1 s.para.upsBatteryDurationMin, 4)

def upsAlarmStatusPack : Handler := fun _ s data => some (s, setU16 data 0 (s.para.upsAlarmStatus &&& 0xff), 1)

def upsAnalogPack : Handler := fun _ s data =>
  some (s, setU16 (setU16 (setU16 data 0 s.para.upsInputVoltage) 1 s.para.upsOutputVoltage) 2
    s.para.upsBatteryVoltage, 6)

def canMsgHandlerMap : List (Nat × Handler) :=
  [.mk CMD_SYNC ccrSync, .mk CMD_PACK_CCR_IO ccrIoPack, .mk CMD_SYNC_TIME ccrSyncTime,
    .mk CMD_CTRL_LIGHT_LVL ccrCtrlLightLvl, .mk CMD_PACK_UPS_ALARM_STATUS upsAlarmStatusPack,
    .mk CMD_PACK_UPS_IO upsIoPack, .mk CMD_PACK_UPS_ANALOG upsAnalogPack,
    .mk CMD_PACK_CCR_LOOP_V_I_INFO ccrLoopIVInfoPack, .mk CMD_PACK_CCR_INSULATION ccrInsulationPack,
    .mk CMD_PACK_CCR_LIGHT_FAIL_NUM ccrLightFailPack]

def findCmdWithMsgCmd (cmd : Nat) : Option Handler := (canMsgHandlerMap.find? fun item => item.1 = cmd).map (·.2)

/-- `can_msg_response_data_pack` with the length the caller has set to 0. -/
def canMsgResponseDataPack (cmd : Nat) : Handler := fun arg s data =>
  match findCmdWithMsgCmd cmd with
  | some handler => handler arg s data
  | none => some (s, data, 0)

/-! ### Sending and parsing -/

/-- What `rt_device_write` is given. -/
structure TxFrame where
  id : Nat
  len : Nat
  data : Bytes8

/-- What a frame puts on the bus. -/
def TxFrame.wire (frame : TxFrame) : Nat × List UInt8 := (frame.id, frame.data.toList.take frame.len)

/-- `msg.data` once the `len` bytes of the reply data are behind the two fixed bytes. -/
def replyBytes (msgData data : Bytes8) (msgCmd len : Nat) : Bytes8 :=
  Vector.ofFn fun i =>
    if i.val = 0 then 0x00
    else if i.val = 1 then UInt8.ofNat (msgCmd &&& 0xff)
    else if i.val < 2 + len then data[i.val - 2]
    else msgData[i]

/-- `send_standard_frame` with the array `msg.data` as the stack has left it. -/
def sendStandardFrame (s : MyCan) (msgCmd : Nat) (arg : Option CanUserData) (msgData : Bytes8) :
    Option (MyCan × Option TxFrame) :=
  if s.sendEnable = false then some (s, none)
  else
    let cmd := if msgCmd >>> 8 = 0x02 then 0x02ff else msgCmd
    (canMsgResponseDataPack cmd arg s (Vector.replicate 8 0)).map fun r =>
      if 0 ≤ r.2.2 ∧ r.2.2 ≤ 6 then
        (r.1, some
          { id := (msgCmd &&& 0xff00) ||| s.myCanId.toNat, len := 2 + r.2.2.toNat
            data := replyBytes msgData r.2.1 msgCmd r.2.2.toNat })
      else (r.1, none)

/-- `can_id_feild_u.msgID`: three bits behind the source id. -/
def msgId (id : Nat) : Nat := (id >>> 8) % 8

def cmdOf (id : Nat) (serviceCode : UInt8) : Nat := msgId id <<< 8 ||| serviceCode.toNat

/-- The destination is this node or all nodes. -/
def addressed (s : MyCan) (destMacId : UInt8) : Bool := destMacId == 0xff || destMacId == s.myCanId

/-- The uninitialised buffers of one reception: the message of the interrupt routine, the data of `can_msg_parse` and those of `send_standard_frame`. -/
structure Leftovers where
  tmpmsg : Bytes8
  userData : Bytes8
  reply : Bytes8

def canMsgParse (dev : CanDev) (canMsg : RtCanMsg) (s : MyCan) (left : Leftovers) :
    Option (MyCan × Option TxFrame) :=
  (copyBytes left.userData canMsg.data canMsg.len).bind fun data =>
    if addressed s (destMacId data) then
      sendStandardFrame s (cmdOf canMsg.id (serviceCode data)) (some ⟨data, dev⟩) left.reply
    else some (s, none)

/-- `gd32_can_recvmsg` into a message whose data array holds `tmpmsg`. -/
def gd32CanRecvmsg (dev : CanDev) (frame : RxFrame) (tmpmsg : Bytes8) : Option RtCanMsg :=
  (copyBytes tmpmsg frame.data frame.dlen).map fun data =>
    { id := if frame.ff then frame.efid else frame.sfid
      ide := frame.ff, rtr := frame.ft, len := frame.dlen, data := data
      hdrIndex :=
        match dev with
        | .can0 => ((frame.fi + 1) >>> 1 : Nat)
        | .can1 => ((frame.fi >>> 1) + 14 : Nat) }

/-! ### Commands -/

theorem cmdOf_eq (id : Nat) (serviceCode : UInt8) : cmdOf id serviceCode = msgId id * 256 + serviceCode.toNat := by
  have hlt : serviceCode.toNat < 2 ^ 8 := serviceCode.toNat_lt
  rw [cmdOf, ← Nat.shiftLeft_add_eq_or_of_lt hlt, Nat.shiftLeft_eq]

theorem cmdOf_class (id : Nat) (serviceCode : UInt8) : cmdOf id serviceCode >>> 8 = msgId id := by
  have hlt : serviceCode.toNat < 2 ^ 8 := serviceCode.toNat_lt
  rw [cmdOf_eq, Nat.shiftRight_eq_div_pow]
  omega

theorem cmdOf_service (id : Nat) (serviceCode : UInt8) : UInt8.ofNat (cmdOf id serviceCode &&& 0xff) = serviceCode := by
  have hlt : serviceCode.toNat < 2 ^ 8 := serviceCode.toNat_lt
  have hand : cmdOf id serviceCode &&& 0xff = serviceCode.toNat := by
    rw [cmdOf_eq, show (0xff : Nat) = 2 ^ 8 - 1 from rfl, Nat.and_two_pow_sub_one_eq_mod]
    omega
  rw [hand, UInt8.ofNat_toNat]

/-! ### Copies -/

theorem copyBytes_of_le {dst src : Bytes8} {len : Nat} (hlen : len ≤ 8) :
    copyBytes dst src len = some (Vector.ofFn fun i => if i.val < len then src[i] else dst[i]) := if_pos hlen

theorem copyBytes_isSome {dst src : Bytes8} {len : Nat} : (copyBytes dst src len).isSome ↔ len ≤ 8 := by
  unfold copyBytes
  split <;> simp [*]

/-! ### Replies -/

/-- A transmission is refused, or the handler of the command has built the reply. -/
theorem sendStandardFrame_cases {s s' : MyCan} {msgCmd : Nat} {arg : Option CanUserData} {msgData : Bytes8}
    {reply : Option TxFrame} (hsend : sendStandardFrame s msgCmd arg msgData = some (s', reply)) :
    (s.sendEnable = false ∧ s' = s ∧ reply = none) ∨
      (s.sendEnable = true ∧ ∃ data len,
        canMsgResponseDataPack (if msgCmd >>> 8 = 0x02 then 0x02ff else msgCmd) arg s (Vector.replicate 8 0) =
          some (s', data, len) ∧
        (reply = none ∨ 0 ≤ len ∧ len ≤ 6 ∧
          reply = some ⟨(msgCmd &&& 0xff00) ||| s.myCanId.toNat, 2 + len.toNat,
            replyBytes msgData data msgCmd len.toNat⟩)) := by
  unfold sendStandardFrame at hsend
  split at hsend
  · rename_i hdisabled
    obtain ⟨rfl, rfl⟩ := Prod.mk.inj (Option.some.inj hsend)
    exact .inl ⟨hdisabled, rfl, rfl⟩
  · rename_i henabled
    obtain ⟨⟨s₁, data, len⟩, hpack, heq⟩ := Option.map_eq_some_iff.mp hsend
    dsimp only at heq
    split at heq
    · rename_i hlen
      obtain ⟨rfl, rfl⟩ := Prod.mk.inj heq
      exact .inr ⟨by simpa using henabled, data, len, hpack, .inr ⟨hlen.1, hlen.2, rfl⟩⟩
    · obtain ⟨rfl, rfl⟩ := Prod.mk.inj heq
      exact .inr ⟨by simpa using henabled, data, len, hpack, .inl rfl⟩

/-! ### What the reports hold -/

theorem u16_bytes (word : UInt16) : u16 word.toUInt8 (word >>> 8).toUInt8 = word := by
  apply UInt16.toNat_inj.mp
  have hlt : word.toNat < 2 ^ 16 := word.toNat_lt
  have hlow : word.toUInt8.toNat = word.toNat % 256 := by simp
  have hhigh : (word >>> 8).toUInt8.toNat = word.toNat / 256 := by
    simp [Nat.shiftRight_eq_div_pow]
    omega
  rw [u16, hlow, hhigh, Nat.shiftLeft_eq, UInt16.toNat_ofNat']
  omega

theorem get_eq_getElem (data : Bytes8) (i : Nat) (hi : i < 8) : data.get ⟨i, hi⟩ = data[i] := rfl

theorem wordAt_setU16 (data : Bytes8) (index : Fin 4) (word : UInt16) :
    wordAt (setU16 data index word) index = word := by
  simp [wordAt, get_eq_getElem, setU16, u16_bytes]

theorem wordAt_setU16_ne (data : Bytes8) {index other : Fin 4} (hne : index.val ≠ other.val) (word : UInt16) :
    wordAt (setU16 data other word) index = wordAt data index := by
  have hlow : 2 * other.val ≠ 2 * index.val ∧ 2 * other.val + 1 ≠ 2 * index.val := by omega
  have hhigh : 2 * other.val ≠ 2 * index.val + 1 ∧ 2 * other.val + 1 ≠ 2 * index.val + 1 := by omega
  simp [wordAt, get_eq_getElem, setU16, hlow, hhigh]

theorem reportedLoad_eq (s : MyCan) (data : Bytes8) : reportedLoad s data = some (s.para.iLoad, s.para.vLoad) := by
  simp [reportedLoad, ccrLoopIVInfoPack, wordAt_setU16, wordAt_setU16_ne]

theorem reportedSwitches_eq (s : MyCan) (data : Bytes8) :
    reportedSwitches s data = some ((ioState s.para).toNat.testBit 7, (ioState s.para).toNat.testBit 8) := by
  simp [reportedSwitches, ccrIoPack, wordAt_setU16]

end LightControlMonitor.Can
