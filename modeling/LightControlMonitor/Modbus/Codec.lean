import LightControlMonitor.Eeprom.Polynomial

/-!
# The Modbus master

The RTU back end of the Modbus package and the request and the decoder of `agile_modbus_serialize_read_registers`. A received message is the list of its bytes, and a read behind them is `none`, so a result says that the decoder stays inside what has been received. No callback for special functions is set.
-/

namespace LightControlMonitor.Modbus

inductive MsgType
  | indication
  | confirmation

def RTU_HEADER_LENGTH : Nat := 1
def RTU_CHECKSUM_LENGTH : Nat := 2
def BROADCAST_ADDRESS : UInt8 := 0
def MAX_READ_REGISTERS : Nat := 125
def MSG_LENGTH_UNDEFINED : Int := -1

def FC_READ_COILS : Nat := 0x01
def FC_READ_DISCRETE_INPUTS : Nat := 0x02
def FC_READ_HOLDING_REGISTERS : Nat := 0x03
def FC_READ_INPUT_REGISTERS : Nat := 0x04
def FC_WRITE_SINGLE_COIL : Nat := 0x05
def FC_WRITE_SINGLE_REGISTER : Nat := 0x06
def FC_WRITE_MULTIPLE_COILS : Nat := 0x0f
def FC_WRITE_MULTIPLE_REGISTERS : Nat := 0x10
def FC_REPORT_SLAVE_ID : Nat := 0x11
def FC_MASK_WRITE_REGISTER : Nat := 0x16
def FC_WRITE_AND_READ_REGISTERS : Nat := 0x17

/-- The fields of `agile_modbus_t`; the bytes of the last request stand for the send buffer. -/
structure ModbusCtx where
  slave : UInt8
  sendBuf : List UInt8
  sendBufsz : Nat
  readBufsz : Nat

/-! ### The RTU back end -/

/-- The tables of `agile_modbus_rtu.c` are those of `crc16.c`, and so is the loop. -/
def rtuCrc16 (buffer : List UInt8) : UInt16 := Eeprom.crc16 buffer

def rtuBuildRequestBasis (ctx : ModbusCtx) (function addr nb : Nat) : List UInt8 :=
  [ctx.slave, UInt8.ofNat function, UInt8.ofNat (addr >>> 8), UInt8.ofNat addr, UInt8.ofNat (nb >>> 8), UInt8.ofNat nb]

def rtuSendMsgPre (req : List UInt8) : List UInt8 :=
  req ++ [(rtuCrc16 req >>> 8).toUInt8, (rtuCrc16 req).toUInt8]

def rtuCheckIntegrity (msg : List UInt8) (msgLength : Nat) : Option Int :=
  msg[msgLength - 2]?.bind fun hi => msg[msgLength - 1]?.map fun lo =>
    if rtuCrc16 (msg.take (msgLength - 2)) = hi.toUInt16 <<< 8 ||| lo.toUInt16 then (msgLength : Int) else -1

def rtuPreCheckConfirmation (req rsp : List UInt8) : Option Int :=
  req[0]?.bind fun asked => rsp[0]?.map fun answered =>
    if asked ≠ answered ∧ asked ≠ BROADCAST_ADDRESS then -1 else 0

/-! ### The length of a message -/

def computeMetaLengthAfterFunction (function : Nat) : MsgType → Nat
  | .indication =>
    if function ≤ FC_WRITE_SINGLE_REGISTER then 4
    else if function = FC_WRITE_MULTIPLE_COILS ∨ function = FC_WRITE_MULTIPLE_REGISTERS then 5
    else if function = FC_MASK_WRITE_REGISTER then 6
    else if function = FC_WRITE_AND_READ_REGISTERS then 9
    else 0
  | .confirmation =>
    if function ∈ [FC_READ_COILS, FC_READ_DISCRETE_INPUTS, FC_READ_HOLDING_REGISTERS, FC_READ_INPUT_REGISTERS,
        FC_REPORT_SLAVE_ID, FC_WRITE_AND_READ_REGISTERS] then 1
    else if function ∈ [FC_WRITE_SINGLE_COIL, FC_WRITE_SINGLE_REGISTER, FC_WRITE_MULTIPLE_COILS,
        FC_WRITE_MULTIPLE_REGISTERS] then 4
    else if function = FC_MASK_WRITE_REGISTER then 6
    else 1

def computeDataLengthAfterMeta (msg : List UInt8) (function : Nat) (msgType : MsgType) : Option Nat :=
  (match msgType with
    | .indication =>
      if function = FC_WRITE_MULTIPLE_COILS ∨ function = FC_WRITE_MULTIPLE_REGISTERS then
        msg[RTU_HEADER_LENGTH + 5]?.map UInt8.toNat
      else if function = FC_WRITE_AND_READ_REGISTERS then msg[RTU_HEADER_LENGTH + 9]?.map UInt8.toNat
      else some 0
    | .confirmation =>
      if function ≤ FC_READ_INPUT_REGISTERS ∨ function = FC_REPORT_SLAVE_ID ∨ function = FC_WRITE_AND_READ_REGISTERS then
        msg[RTU_HEADER_LENGTH + 1]?.map UInt8.toNat
      else some 0).map (· + RTU_CHECKSUM_LENGTH)

def receiveMsgJudge (msg : List UInt8) (msgType : MsgType) : Option Int :=
  let remainLen : Int := msg.length - (RTU_HEADER_LENGTH + 1 : Nat)
  if remainLen < 0 then some (-1)
  else msg[RTU_HEADER_LENGTH]?.bind fun function =>
    let remainLen := remainLen - (computeMetaLengthAfterFunction function.toNat msgType : Nat)
    if remainLen < 0 then some (-1)
    else (computeDataLengthAfterMeta msg function.toNat msgType).bind fun dataLength =>
      let remainLen := remainLen - (dataLength : Nat)
      if remainLen < 0 then some (-1) else rtuCheckIntegrity msg (msg.length - remainLen).toNat

/-! ### The answer to a request -/

/-- Two bytes of a message as a number, the high byte first. -/
def wordAt (msg : List UInt8) (i : Nat) : Option Nat :=
  msg[i]?.bind fun hi => msg[i + 1]?.map fun lo => hi.toNat <<< 8 ||| lo.toNat

def computeResponseLengthFromRequest (req : List UInt8) : Option Int :=
  req[RTU_HEADER_LENGTH]?.bind fun byte =>
    let function := byte.toNat
    let length : Option (Option Nat) :=
      if function = FC_READ_COILS ∨ function = FC_READ_DISCRETE_INPUTS then
        (wordAt req (RTU_HEADER_LENGTH + 3)).map fun nb => some (2 + nb / 8 + if nb % 8 ≠ 0 then 1 else 0)
      else if function ∈ [FC_WRITE_AND_READ_REGISTERS, FC_READ_HOLDING_REGISTERS, FC_READ_INPUT_REGISTERS] then
        (wordAt req (RTU_HEADER_LENGTH + 3)).map fun nb => some (2 + 2 * nb)
      else if function ∈ [FC_WRITE_SINGLE_COIL, FC_WRITE_SINGLE_REGISTER, FC_WRITE_MULTIPLE_COILS,
          FC_WRITE_MULTIPLE_REGISTERS] then
        some (some 5)
      else if function = FC_MASK_WRITE_REGISTER then some (some 7)
      else some none
    length.map fun length =>
      match length with
      | some length => ((RTU_HEADER_LENGTH + length + RTU_CHECKSUM_LENGTH : Nat) : Int)
      | none => MSG_LENGTH_UNDEFINED

/-- The numbers of values in the request and in the response, by the function of the response. -/
def nbValues (req rsp : List UInt8) (function : Nat) : Option (Nat × Nat) :=
  if function = FC_READ_COILS ∨ function = FC_READ_DISCRETE_INPUTS then
    (wordAt req (RTU_HEADER_LENGTH + 3)).bind fun nb => rsp[RTU_HEADER_LENGTH + 1]?.map fun count =>
      (nb / 8 + if nb % 8 ≠ 0 then 1 else 0, count.toNat)
  else if function ∈ [FC_WRITE_AND_READ_REGISTERS, FC_READ_HOLDING_REGISTERS, FC_READ_INPUT_REGISTERS] then
    (wordAt req (RTU_HEADER_LENGTH + 3)).bind fun nb => rsp[RTU_HEADER_LENGTH + 1]?.map fun count =>
      (nb, count.toNat / 2)
  else if function = FC_WRITE_MULTIPLE_COILS ∨ function = FC_WRITE_MULTIPLE_REGISTERS then
    (wordAt req (RTU_HEADER_LENGTH + 3)).bind fun asked => (wordAt rsp (RTU_HEADER_LENGTH + 3)).map fun answered =>
      (asked, answered)
  else if function = FC_REPORT_SLAVE_ID then
    rsp[RTU_HEADER_LENGTH + 1]?.map fun count => (count.toNat, count.toNat)
  else some (1, 1)

def checkConfirmation (req rsp : List UInt8) (rspLength : Int) : Option Int :=
  rsp[RTU_HEADER_LENGTH]?.bind fun function => (rtuPreCheckConfirmation req rsp).bind fun rc =>
    if rc < 0 then some (-1)
    else (computeResponseLengthFromRequest req).bind fun rspLengthComputed =>
      req[RTU_HEADER_LENGTH]?.bind fun asked =>
        if 0x80 ≤ function.toNat then
          if rspLength = (RTU_HEADER_LENGTH + 2 + RTU_CHECKSUM_LENGTH : Nat) ∧ asked.toNat = function.toNat - 0x80 then
            rsp[RTU_HEADER_LENGTH + 1]?.map fun code => -128 - (code.toNat : Int)
          else some (-1)
        else if rspLength = rspLengthComputed ∨ rspLengthComputed = MSG_LENGTH_UNDEFINED then
          if function ≠ asked then some (-1)
          else (nbValues req rsp function.toNat).map fun nb => if nb.1 = nb.2 then (nb.2 : Int) else -1
        else some (-1)

/-! ### Reading registers -/

/-- `-1` is `none` here. -/
def serializeReadRegisters (ctx : ModbusCtx) (addr nb : Nat) : Option ModbusCtx :=
  if ctx.sendBufsz < RTU_HEADER_LENGTH + 5 + RTU_CHECKSUM_LENGTH then none
  else if MAX_READ_REGISTERS < nb then none
  else some { ctx with sendBuf := rtuSendMsgPre (rtuBuildRequestBasis ctx FC_READ_HOLDING_REGISTERS addr nb) }

/-- The loop of `agile_modbus_deserialize_read_registers`, with `i` the place of the next high byte. -/
def readWords (msg : List UInt8) (i : Nat) : Nat → Option (List UInt16)
  | 0 => some []
  | n + 1 => (wordAt msg i).bind fun word => (readWords msg (i + 2) n).map fun words => UInt16.ofNat word :: words

/-- The value returned and the values written to `dest`. -/
def deserializeReadRegisters (ctx : ModbusCtx) (msg : List UInt8) : Option (Int × List UInt16) :=
  if ctx.sendBufsz < RTU_HEADER_LENGTH + 5 + RTU_CHECKSUM_LENGTH then some (-1, [])
  else if msg.length = 0 ∨ ctx.readBufsz < msg.length then some (-1, [])
  else (receiveMsgJudge msg .confirmation).bind fun rc =>
    if rc < 0 then some (-1, [])
    else (checkConfirmation ctx.sendBuf msg rc).bind fun rc =>
      if rc < 0 then some (rc, [])
      else (readWords msg (RTU_HEADER_LENGTH + 2) rc.toNat).map fun dest => (rc, dest)

end LightControlMonitor.Modbus
