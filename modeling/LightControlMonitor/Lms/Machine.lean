import LightControlMonitor.Lib.Fifo
import LightControlMonitor.Lib.Transition
import LightControlMonitor.Lms.Code
import Mathlib.Logic.Function.Basic
import Mathlib.Tactic.IntervalCases

/-!
# The lamp bus machine

`lmsuart.c` over the state its callbacks and its callers share: the record `g_lms`, the direction pin of the RS-485 transceiver, the one-shot TX-delay timer and the mailbox of changed terminals. The zero-cross callback runs `lmsStateMachine`, the timer callback runs `sendStateMachine`, and any number of threads, named by `ι`, run `build_ctrl_cmd`.

The callbacks run in interrupt context, so each of them is one step. `build_ctrl_cmd` is preempted between its statements, so each of its statements is one step of its thread. An access outside an array is `none`. The outputs of a step are what happens on the bus and the commands that found the lock free.
-/

namespace LightControlMonitor.Lms

def TERMIANL_NUM : Nat := 32
def WAIT_CROSS_CNT : Nat := 2

/-- The poll byte of `send_state_machine`. -/
def pollByte : UInt8 := 0x15

/-- The entries of `mb`: `sizeof(mb_pool) / 4`. -/
def mbSize : Nat := 128 / 4

inductive SendState
  | txSs
  | txLs
  deriving DecidableEq

inductive LmsState
  | init
  | tx
  | waitrcv
  | recving
  deriving DecidableEq

/-- The level of `USART2_DR_PIN`. -/
inductive Dir
  | send
  | recv
  deriving DecidableEq

/-- The arguments of a call of `build_ctrl_cmd`. -/
structure Call where
  groupId : UInt8
  segId : UInt8
  cmd : UInt8
  deriving DecidableEq

structure CmdT where
  groupId : UInt8
  segId : UInt8
  writeLock : Bool
  cmdData : Vector UInt8 3
  cmdToSend : UInt8
  cmdCurrentSendIndex : Nat

structure LmsT where
  state : LmsState
  sendState : SendState
  cmdInfo : CmdT
  waitToRecvicntLeft : Nat
  terminalIndex : Nat
  terminalState : Vector UInt8 32
  pollingCompleteFlag : Bool

/-- What the callbacks share. -/
structure Board where
  lms : LmsT
  dir : Dir
  txDelay : Bool
  mb : List Nat

/-- What an observer of the bus and of the lock sees. A transmitted byte is recorded with the machine state and the pin level it met. -/
inductive Event
  | pin (dir : Dir)
  | transmit (byte : UInt8) (state : LmsState) (dir : Dir)
  | receive (terminal : Nat) (byte : UInt8)
  | accept (call : Call)
  deriving DecidableEq

/-- `lms_init`; the record is a global, so every field is written over. -/
def lmsInit : LmsT where
  state := .init
  sendState := .txSs
  cmdInfo :=
    { groupId := 0x00, segId := 0x00, writeLock := false, cmdData := Vector.replicate 3 0, cmdToSend := 0,
      cmdCurrentSendIndex := 0 }
  waitToRecvicntLeft := WAIT_CROSS_CNT - 1
  terminalIndex := 0
  terminalState := Vector.replicate 32 0xff
  pollingCompleteFlag := false

/-! ### The callbacks -/

def lmsUartSendByte (b : Board) (byte : UInt8) : Board × List Event :=
  let sending := { b with dir := .send }
  (sending, [.pin .send, .transmit byte sending.lms.state sending.dir])

/-- `lms_uart_recv_byte` on a receive register that holds `reg`. -/
def lmsUartRecvByte (reg : Option UInt8) : UInt8 := reg.getD 0xff

def timer0TxDelayStart (b : Board) : Board := { b with txDelay := true }

def timer0TxDelayStop (b : Board) : Board := { b with txDelay := false }

@[simp] theorem timer0TxDelayStop_lms (b : Board) : (timer0TxDelayStop b).lms = b.lms := rfl

@[simp] theorem timer0TxDelayStop_txDelay (b : Board) : (timer0TxDelayStop b).txDelay = false := rfl

def sendStateMachine (b : Board) : Option (Board × List Event) :=
  match b.lms.sendState with
  | .txSs =>
    let sent := lmsUartSendByte b pollByte
    some ({ sent.1 with lms.state := .waitrcv, lms.waitToRecvicntLeft := WAIT_CROSS_CNT - 1 }, sent.2)
  | .txLs =>
    let index := b.lms.cmdInfo.cmdCurrentSendIndex
    if index ≤ 2 then
      b.lms.cmdInfo.cmdData[index]?.map fun byte =>
        let sent := lmsUartSendByte b byte
        ({ sent.1 with lms.cmdInfo.cmdCurrentSendIndex := index + 1 }, sent.2)
    else
      some ({ b with
        lms.cmdInfo.cmdCurrentSendIndex := 0, lms.cmdInfo.writeLock := false, lms.sendState := .txSs }, [])

def timer0TxDelayCb (b : Board) : Option (Board × List Event) := sendStateMachine (timer0TxDelayStop b)

/-- The body of the `STATE_RECVING` branch for a terminal below `TERMIANL_NUM`. -/
def storeReply (b : Board) (recvdata : UInt8) : Option (Board × List Event) :=
  let index := b.lms.terminalIndex
  b.lms.terminalState[index]?.map fun old =>
    let stored :=
      if recvdata ≠ old then
        { b with
          lms.terminalState := b.lms.terminalState.setIfInBounds index recvdata
          mb := Fifo.offer mbSize b.mb index }
      else b
    ({ stored with lms.terminalIndex := index + 1 }, [.receive index recvdata])

/-- `lms_state_machine` at a zero crossing that finds `reg` in the receive register. -/
def lmsStateMachine (b : Board) (reg : Option UInt8) : Option (Board × List Event) :=
  match b.lms.state with
  | .init => some ({ b with lms.state := .tx, dir := .send }, [.pin .send])
  | .tx => some (timer0TxDelayStart b, [])
  | .waitrcv =>
    if b.lms.waitToRecvicntLeft > 0 then
      some ({ b with lms.waitToRecvicntLeft := b.lms.waitToRecvicntLeft - 1 }, [])
    else
      some ({ b with lms.state := .recving, dir := .recv }, [.pin .recv])
  | .recving =>
    if b.lms.terminalIndex < TERMIANL_NUM then
      storeReply b (lmsUartRecvByte reg)
    else
      some ({ b with lms.terminalIndex := 0, lms.pollingCompleteFlag := true, lms.state := .tx }, [])

/-! ### `build_ctrl_cmd` -/

/-- The sync byte of a command. The default is never used for a group below 8. -/
def Call.sync (call : Call) : UInt8 := (genSyncFrame call.groupId longCmd).getD 0

/-- The bytes a command puts on the wire. -/
def Call.frame (call : Call) : List UInt8 :=
  [call.sync, call.segId, (call.cmd <<< 4) ||| crc4Itu [call.segId, call.cmd <<< 4]]

/-- `build_ctrl_cmd` without preemption. -/
def buildCtrlCmd (lms : LmsT) (call : Call) : Option LmsT :=
  if lms.cmdInfo.writeLock then some lms
  else
    let tempBuf := [call.segId, call.cmd <<< 4]
    (genSyncFrame call.groupId longCmd).map fun sync =>
      { lms with
        cmdInfo.writeLock := true, cmdInfo.groupId := call.groupId, cmdInfo.segId := call.segId
        cmdInfo.cmdToSend := call.cmd
        cmdInfo.cmdData := #v[sync, call.segId, crc4Itu tempBuf ||| (call.cmd <<< 4)]
        sendState := .txLs }

/-- The statements of `build_ctrl_cmd` in program order. -/
inductive Stmt
  | testLock
  | tempBuf0
  | tempBuf1
  | setLock
  | setGroupId
  | setSegId
  | setCmdToSend
  | cmdData0
  | cmdData1
  | cmdData2
  | setTxLs
  deriving DecidableEq

/-- A thread inside `build_ctrl_cmd`: its arguments, its `temp_buf` and the statement it executes next. -/
structure Local where
  call : Call
  tempBuf0 : UInt8
  tempBuf1 : UInt8
  next : Stmt
  deriving DecidableEq

/-- One statement of `build_ctrl_cmd`. The thread is `none` once the function has returned. -/
def Local.exec (l : Local) (lms : LmsT) : Option (Option Local × LmsT × List Event) :=
  match l.next with
  | .testLock =>
    if lms.cmdInfo.writeLock then some (none, lms, [])
    else some (some { l with next := .tempBuf0 }, lms, [.accept l.call])
  | .tempBuf0 => some (some { l with tempBuf0 := l.call.segId, next := .tempBuf1 }, lms, [])
  | .tempBuf1 => some (some { l with tempBuf1 := l.call.cmd <<< 4, next := .setLock }, lms, [])
  | .setLock => some (some { l with next := .setGroupId }, { lms with cmdInfo.writeLock := true }, [])
  | .setGroupId => some (some { l with next := .setSegId }, { lms with cmdInfo.groupId := l.call.groupId }, [])
  | .setSegId => some (some { l with next := .setCmdToSend }, { lms with cmdInfo.segId := l.call.segId }, [])
  | .setCmdToSend => some (some { l with next := .cmdData0 }, { lms with cmdInfo.cmdToSend := l.call.cmd }, [])
  | .cmdData0 =>
    (genSyncFrame l.call.groupId longCmd).map fun sync =>
      (some { l with next := .cmdData1 }, { lms with cmdInfo.cmdData := lms.cmdInfo.cmdData.set 0 sync }, [])
  | .cmdData1 =>
    some (some { l with next := .cmdData2 },
      { lms with cmdInfo.cmdData := lms.cmdInfo.cmdData.set 1 l.call.segId }, [])
  | .cmdData2 =>
    let last := crc4Itu [l.tempBuf0, l.tempBuf1] ||| l.tempBuf1
    some (some { l with next := .setTxLs }, { lms with cmdInfo.cmdData := lms.cmdInfo.cmdData.set 2 last }, [])
  | .setTxLs => some (none, { lms with sendState := .txLs }, [])

/-- The rest of a call that is not preempted, at most `fuel` statements. -/
def Local.finish : Nat → Local → LmsT → Option LmsT
  | 0, _, _ => none
  | fuel + 1, l, lms =>
    (l.exec lms).bind fun r =>
      match r.1 with
      | none => some r.2.1
      | some m => Local.finish fuel m r.2.1

theorem set_three (v : Vector UInt8 3) (x y z : UInt8) : ((v.set 0 x).set 1 y).set 2 z = #v[x, y, z] := by
  apply Vector.ext
  intro i hi
  interval_cases i <;> simp

theorem toList_set_two {v : Vector UInt8 3} {x y : UInt8} (hx : v[0]? = some x) (hy : v[1]? = some y) (z : UInt8) :
    (v.set 2 z).toList = [x, y, z] := by
  have hx' : v[0] = x := by simpa using hx
  have hy' : v[1] = y := by simpa using hy
  apply List.ext_getElem?
  intro i
  rw [Vector.getElem?_toList]
  rcases i with _ | _ | _ | i <;> simp [hx', hy']

/-- A statement that does not end the call leaves the rest of it. -/
theorem Local.finish_step {fuel : Nat} {l m : Local} {lms lms' : LmsT} {out : List Event}
    (hexec : l.exec lms = some (some m, lms', out)) : Local.finish (fuel + 1) l lms = Local.finish fuel m lms' := by
  rw [Local.finish, hexec, Option.bind_some]

theorem Local.finish_none {fuel : Nat} {l : Local} {lms : LmsT} (hexec : l.exec lms = none) :
    Local.finish (fuel + 1) l lms = none := by
  rw [Local.finish, hexec, Option.bind_none]

/-- The statements make up the function, whatever `temp_buf` held before. -/
theorem buildCtrlCmd_eq_finish (lms : LmsT) (call : Call) (temp0 temp1 : UInt8) :
    buildCtrlCmd lms call = Local.finish 11 ⟨call, temp0, temp1, .testLock⟩ lms := by
  rw [buildCtrlCmd]
  symm
  split
  · rename_i hlocked
    rw [Local.finish, Local.exec, if_pos hlocked, Option.bind_some]
  · rename_i hfree
    have htest : Local.exec ⟨call, temp0, temp1, .testLock⟩ lms
        = some (some ⟨call, temp0, temp1, .tempBuf0⟩, lms, [.accept call]) := by rw [Local.exec, if_neg hfree]
    refine (Local.finish_step htest).trans ?_
    refine (Local.finish_step rfl).trans ((Local.finish_step rfl).trans ?_)
    refine (Local.finish_step rfl).trans ((Local.finish_step rfl).trans ?_)
    refine (Local.finish_step rfl).trans ((Local.finish_step rfl).trans ?_)
    -- the sync byte is missing for a group the code word has no room for
    rcases hsync : genSyncFrame call.groupId longCmd with _ | sync
    · exact Local.finish_none (by rw [Local.exec, hsync, Option.map_none])
    · refine (Local.finish_step (by rw [Local.exec, hsync, Option.map_some])).trans ?_
      refine (Local.finish_step rfl).trans ((Local.finish_step rfl).trans ?_)
      simp only [Local.finish, Local.exec, Option.bind_some, Option.map_some, set_three]

/-! ### The system -/

section System

variable {ι : Type}

structure World (ι : Type) where
  board : Board
  threads : ι → Option Local

inductive Action (ι : Type)
  | tick (reg : Option UInt8)
  | txDelay
  | call (thread : ι) (args : Call)
  | stmt (thread : ι)

/-- The pin is whatever the board set-up left; the timer was never started. -/
def World.Initial (w : World ι) : Prop :=
  w.board.lms = lmsInit ∧ w.board.txDelay = false ∧ w.board.mb = [] ∧ ∀ i, w.threads i = none

def Enabled (w : World ι) : Action ι → Prop
  | .tick _ => True
  | .txDelay => w.board.txDelay = true
  | .call i args => w.threads i = none ∧ args.groupId < 8
  | .stmt i => (w.threads i).isSome

instance (w : World ι) : (a : Action ι) → Decidable (Enabled w a)
  | .tick _ => inferInstanceAs (Decidable True)
  | .txDelay => inferInstanceAs (Decidable (w.board.txDelay = true))
  | .call i args => inferInstanceAs (Decidable (w.threads i = none ∧ args.groupId < 8))
  | .stmt i => inferInstanceAs (Decidable ((w.threads i).isSome = true))

variable [DecidableEq ι]

def World.step (w : World ι) : Action ι → Option (World ι × List Event)
  | .tick reg => (lmsStateMachine w.board reg).map fun r => ({ w with board := r.1 }, r.2)
  | .txDelay => (timer0TxDelayCb w.board).map fun r => ({ w with board := r.1 }, r.2)
  | .call i args =>
    some ({ w with threads := Function.update w.threads i (some ⟨args, 0, 0, .testLock⟩) }, [])
  | .stmt i =>
    (w.threads i).bind fun l => (l.exec w.board.lms).map fun r =>
      (⟨{ w.board with lms := r.2.1 }, Function.update w.threads i r.1⟩, r.2.2)

/-- The board after `lms_init`, with the pin as `usart2_dr_pin_init` leaves it. -/
def World.start : World ι where
  board := { lms := lmsInit, dir := .recv, txDelay := false, mb := [] }
  threads := fun _ => none

omit [DecidableEq ι] in
theorem World.start_initial : (World.start : World ι).Initial := ⟨rfl, rfl, rfl, fun _ => rfl⟩

variable (ι)

def system : Transition.System (World ι) (Action ι) Event where
  init := World.Initial
  enabled := Enabled
  step := World.step

instance (w : World ι) (a : Action ι) : Decidable ((system ι).enabled w a) :=
  inferInstanceAs (Decidable (Enabled w a))

end System

end LightControlMonitor.Lms
