import LightControlMonitor.Lib.Transition
import LightControlMonitor.Lms.HalfDuplex
import LightControlMonitor.Pulse.Capture

/-!
# Interrupts during start-up

`pulse_generate_init` runs once, from the component initialisation, while interrupts are enabled: the comparator can interrupt it from the third statement on, and a timer from the statement or the edge that starts it. The program is the list of its statements in source order, the state holds how many of them have been executed, and a handle is ready when the statements that find and open it are among those.

Every callback records the handles it passes to the device layer and the messages it posts, each with whether it was ready. The device layer refuses a handle that is not: `rt_device_write` returns 0 without starting the timer, and `rt_device_read` leaves the buffer as it was.

The callbacks of the timers are set after all four handles are opened, so they are safe by the order of the statements. An edge is not: `compare_output_pin_init` comes first, and both edges read `timer1_ICR1`.
-/

namespace LightControlMonitor.Pulse

open Transition Lms

/-- The handles of `pulse_generate.c`. -/
inductive Timer
  | timer0TxDelay
  | timer1Icr1
  | timer2CrossPulse
  | timer3PulseWidth
  deriving DecidableEq

inductive HwtimerMode
  | oneshot
  | period
  deriving DecidableEq

inductive Pin
  | int1
  | led1
  | led2
  deriving DecidableEq

inductive Irq
  | exti2
  | timer2
  deriving DecidableEq

/-! ### The program -/

/-- The statements of `lms_init`. -/
inductive LmsInitStmt
  | state
  | sendState
  | pollingCompleteFlag
  | groupId
  | segId
  | writeLock
  | cmdCurrentSendIndex
  | cmdToSend
  | cmdData
  | waitToRecvicntLeft
  | terminalIndex
  | terminalState
  | mailboxInit
  deriving DecidableEq

/-- The statements of `pulse_generate_init`. An assignment to the local `mode` is part of the statement that passes it. -/
inductive InitStmt
  | pinMode (pin : Pin)
  | pinAttachIrq (pin : Pin)
  | pinIrqEnable (pin : Pin)
  | nvicIrqEnable (irq : Irq)
  | find (timer : Timer)
  | open (timer : Timer)
  | modeSet (timer : Timer) (mode : HwtimerMode)
  | setRxIndicate (timer : Timer)
  | timeoutSec
  | timeoutUsec
  | write (timer : Timer)
  | pinWriteHigh (pin : Pin)
  | lms (stmt : LmsInitStmt)
  deriving DecidableEq

def compareOutputPinInit : List InitStmt :=
  [.pinMode .int1, .pinAttachIrq .int1, .pinIrqEnable .int1, .nvicIrqEnable .exti2]

def pulseTimerInit : List InitStmt :=
  [.find .timer1Icr1, .find .timer2CrossPulse, .find .timer3PulseWidth, .find .timer0TxDelay,
    .open .timer0TxDelay, .open .timer1Icr1, .open .timer2CrossPulse, .open .timer3PulseWidth,
    .modeSet .timer0TxDelay .oneshot, .setRxIndicate .timer0TxDelay,
    .modeSet .timer1Icr1 .period, .setRxIndicate .timer1Icr1,
    .modeSet .timer2CrossPulse .oneshot, .nvicIrqEnable .timer2, .setRxIndicate .timer2CrossPulse,
    .modeSet .timer3PulseWidth .oneshot, .setRxIndicate .timer3PulseWidth,
    .timeoutSec, .timeoutUsec, .write .timer1Icr1]

def ledGpioInit : List InitStmt := [.pinMode .led1, .pinMode .led2, .pinWriteHigh .led1, .pinWriteHigh .led2]

def lmsInitStmts : List LmsInitStmt :=
  [.state, .sendState, .pollingCompleteFlag, .groupId, .segId, .writeLock, .cmdCurrentSendIndex, .cmdToSend, .cmdData,
    .waitToRecvicntLeft, .terminalIndex, .terminalState, .mailboxInit]

def pulseGenerateInit : List InitStmt :=
  compareOutputPinInit ++ pulseTimerInit ++ ledGpioInit ++ lmsInitStmts.map .lms

/-- `g_lms` as the image has it. -/
def gLms : LmsT where
  state := .init
  sendState := .txSs
  cmdInfo :=
    { groupId := 0, segId := 0, writeLock := false, cmdData := Vector.replicate 3 0, cmdToSend := 0,
      cmdCurrentSendIndex := 0 }
  waitToRecvicntLeft := 0
  terminalIndex := 0
  terminalState := Vector.replicate 32 0
  pollingCompleteFlag := false

def LmsInitStmt.exec (b : Board) : LmsInitStmt → Board
  | .state => { b with lms.state := .init }
  | .sendState => { b with lms.sendState := .txSs }
  | .pollingCompleteFlag => { b with lms.pollingCompleteFlag := false }
  | .groupId => { b with lms.cmdInfo.groupId := 0x00 }
  | .segId => { b with lms.cmdInfo.segId := 0x00 }
  | .writeLock => { b with lms.cmdInfo.writeLock := false }
  | .cmdCurrentSendIndex => { b with lms.cmdInfo.cmdCurrentSendIndex := 0 }
  | .cmdToSend => { b with lms.cmdInfo.cmdToSend := 0 }
  | .cmdData => { b with lms.cmdInfo.cmdData := Vector.replicate 3 0 }
  | .waitToRecvicntLeft => { b with lms.waitToRecvicntLeft := WAIT_CROSS_CNT - 1 }
  | .terminalIndex => { b with lms.terminalIndex := 0 }
  | .terminalState => { b with lms.terminalState := Vector.replicate 32 0xff }
  | .mailboxInit => { b with mb := [] }

/-- Without interrupts the statements are `lms_init`. -/
theorem lmsInitStmts_exec (b : Board) :
    lmsInitStmts.foldl LmsInitStmt.exec b = { b with lms := lmsInit, mb := [] } := by
  simp only [lmsInitStmts, List.foldl_cons, List.foldl_nil, LmsInitStmt.exec, lmsInit]

/-! ### The system -/

/-- What a callback can touch too early. -/
inductive Touched
  | device (timer : Timer)
  | mailbox
  deriving DecidableEq

structure Use where
  touched : Touched
  ready : Bool
  deriving DecidableEq

structure Boot where
  pc : Nat
  timeoutS : HwtimerVal
  capture : Capture
  mode : Timer → HwtimerMode
  started : Timer → Bool
  board : Board

abbrev Boot.Done (s : Boot) (stmt : InitStmt) : Prop := stmt ∈ pulseGenerateInit.take s.pc

def Boot.Ready (s : Boot) : Touched → Prop
  | .device timer => s.Done (.find timer) ∧ s.Done (.open timer)
  | .mailbox => s.Done (.lms .mailboxInit)

instance Boot.decidableReady (s : Boot) : (touched : Touched) → Decidable (s.Ready touched)
  | .device timer => inferInstanceAs (Decidable (s.Done (.find timer) ∧ s.Done (.open timer)))
  | .mailbox => inferInstanceAs (Decidable (s.Done (.lms .mailboxInit)))

def Boot.use (s : Boot) (touched : Touched) : Use := ⟨touched, decide (s.Ready touched)⟩

/-- Every handle was opened, and the mailbox initialised, before a callback touched it. -/
def AllReady (uses : List Use) : Prop := ∀ use ∈ uses, use.ready = true

/-- The TX-delay timer is the one-shot of the board. -/
def Boot.running (s : Boot) : Timer → Bool
  | .timer0TxDelay => s.board.txDelay
  | timer => s.started timer

def Boot.stop (s : Boot) : Timer → Boot
  | .timer0TxDelay => { s with board := timer0TxDelayStop s.board }
  | timer => { s with started := Function.update s.started timer false }

/-- `rt_device_write` of a time to a timer that the board does not hold. -/
def Boot.write (s : Boot) (timer : Timer) : Boot :=
  if s.Ready (.device timer) then { s with started := Function.update s.started timer true } else s

/-- `rt_device_read(timer1_ICR1, 0, &timeout_s, sizeof(timeout_s))` on a timer that shows `read`. -/
def Boot.readTimer1 (s : Boot) (read : HwtimerVal) : Boot :=
  if s.Ready (.device .timer1Icr1) then { s with timeoutS := read } else s

/-- One statement; `rt_device_open` initialises the timer. -/
def Boot.stmt (s : Boot) : InitStmt → Boot
  | .open timer => { s with mode := Function.update s.mode timer .oneshot }
  | .modeSet timer mode => { s with mode := Function.update s.mode timer mode }
  | .timeoutSec => { s with timeoutS.sec := 0 }
  | .timeoutUsec => { s with timeoutS.usec := 100000 }
  | .write timer => s.write timer
  | .lms stmt => { s with board := stmt.exec s.board }
  | _ => s

/-- The machine of the lamp bus stores the reply of a terminal below `TERMIANL_NUM`, and posts it when it has changed. -/
def Posts (b : Board) (reg : Option UInt8) : Prop :=
  b.lms.state = .recving ∧ b.lms.terminalIndex < TERMIANL_NUM ∧
    b.lms.terminalState[b.lms.terminalIndex]? ≠ some (lmsUartRecvByte reg)

instance Posts.decidable (b : Board) (reg : Option UInt8) : Decidable (Posts b reg) :=
  inferInstanceAs (Decidable (_ ∧ _ ∧ _))

/-- What `lms_state_machine` touches: `timer0_txDelay_start` writes its handle, `rt_mb_send` posts. -/
def machineTouches (b : Board) (reg : Option UInt8) : List Touched :=
  if b.lms.state = .tx then [.device .timer0TxDelay] else if Posts b reg then [.mailbox] else []

/-- The machine starts the timer and fills the mailbox only where it touches them. -/
theorem lmsStateMachine_touches {b b' : Board} {reg : Option UInt8} {out : List Event}
    (hstep : lmsStateMachine b reg = some (b', out)) :
    (b'.txDelay ≠ b.txDelay → .device .timer0TxDelay ∈ machineTouches b reg) ∧
      (b'.mb ≠ b.mb → .mailbox ∈ machineTouches b reg) := by
  unfold machineTouches
  rcases lmsStateMachine_cases hstep with ⟨-, -, rfl⟩ | ⟨hs, -, rfl⟩ | ⟨-, -, -, rfl⟩ | ⟨-, -, -, rfl⟩ |
    ⟨hs, hlt, hstore⟩ | ⟨-, -, -, rfl⟩
  · simp
  · simp [hs]
  · simp
  · simp
  · obtain ⟨-, old, mb, hold, hmb, rfl⟩ := storeReply_cases hstore
    refine ⟨by simp, fun hne => ?_⟩
    have hchanged : lmsUartRecvByte reg ≠ old := by
      rintro hsame
      exact hne (by simpa [hsame] using hmb)
    have hposts : Posts b reg := ⟨hs, hlt, by simpa [hold] using hchanged.symm⟩
    simp [hs, hposts]
  · simp

/-- An effect of a callback, at a zero crossing that finds `reg` in the receive register. -/
def Boot.effect (reg : Option UInt8) (s : Boot) : Effect → Option (Boot × List Use)
  | .pulseOn => some (s, [])
  | .startTimer2CrossPulse _ => some (s.write .timer2CrossPulse, [s.use (.device .timer2CrossPulse)])
  | .startTimer3PulseWidth _ => some (s.write .timer3PulseWidth, [s.use (.device .timer3PulseWidth)])
  | .sampleCurrent => some (s, [])
  | .lmsStateMachine =>
    (lmsStateMachine s.board reg).map fun r => ({ s with board := r.1 }, (machineTouches s.board reg).map s.use)

def Boot.effects (reg : Option UInt8) (s : Boot) : List Effect → Option (Boot × List Use)
  | [] => some (s, [])
  | effect :: effects =>
    (s.effect reg effect).bind fun first =>
      (Boot.effects reg first.1 effects).map fun rest => (rest.1, first.2 ++ rest.2)

/-- `int1_callback`; the reading it works on is what `timeout_s` holds after the read. -/
def Boot.edge (s : Boot) (pinLevel : Bool) (read : HwtimerVal) : Option (Boot × List Use) :=
  let sampled := s.readTimer1 read
  let r := int1Callback s.capture pinLevel sampled.timeoutS
  (Boot.effects none { sampled with capture := r.1 } r.2).map fun last =>
    (last.1, s.use (.device .timer1Icr1) :: last.2)

/-- The callback that `rt_device_set_rx_indicate` sets for a timer. -/
def Boot.callback (s : Boot) (read : HwtimerVal) (reg : Option UInt8) : Timer → Option (Boot × List Use)
  | .timer0TxDelay =>
    (timer0TxDelayCb s.board).map fun r => ({ s with board := r.1 }, [s.use (.device .timer0TxDelay)])
  | .timer1Icr1 => some (s.readTimer1 read, [s.use (.device .timer1Icr1)])
  | .timer2CrossPulse =>
    let r := timer2CrossPulseCb s.capture
    Boot.effects reg { s with capture := r.1 } r.2
  | .timer3PulseWidth => some (s.stop .timer3PulseWidth, [s.use (.device .timer3PulseWidth)])

/-- `rt_device_hwtimer_isr`: a one-shot is stopped, and the callback runs if there is one. -/
def Boot.expire (s : Boot) (timer : Timer) (read : HwtimerVal) (reg : Option UInt8) : Option (Boot × List Use) :=
  let stopped := if s.mode timer = .oneshot then s.stop timer else s
  if s.Done (.setRxIndicate timer) then stopped.callback read reg timer else some (stopped, [])

/-- A statement, an edge or an expiration; the callbacks that read a timer or the receive register take what they find. -/
inductive BootAction
  | stmt
  | edge (pinLevel : Bool) (read : HwtimerVal)
  | expire (timer : Timer) (read : HwtimerVal) (reg : Option UInt8)

def Boot.Enabled (s : Boot) : BootAction → Prop
  | .stmt => s.pc < pulseGenerateInit.length
  | .edge _ _ => s.Done (.pinIrqEnable .int1)
  | .expire timer _ _ => s.running timer = true

instance Boot.decidableEnabled (s : Boot) : (a : BootAction) → Decidable (s.Enabled a)
  | .stmt => inferInstanceAs (Decidable (_ < _))
  | .edge _ _ => inferInstanceAs (Decidable (s.Done _))
  | .expire timer _ _ => inferInstanceAs (Decidable (s.running timer = true))

def Boot.step (s : Boot) : BootAction → Option (Boot × List Use)
  | .stmt => pulseGenerateInit[s.pc]?.map fun stmt => ({ s.stmt stmt with pc := s.pc + 1 }, [])
  | .edge pinLevel read => s.edge pinLevel read
  | .expire timer read reg => s.expire timer read reg

/-- Before the first statement; the direction pin may be as it is. -/
def Boot.start (dir : Dir) : Boot where
  pc := 0
  timeoutS := ⟨0, 0⟩
  capture := .start
  mode := fun _ => .oneshot
  started := fun _ => false
  board := { lms := gLms, dir, txDelay := false, mb := [] }

def Boot.Initial (s : Boot) : Prop := ∃ dir, s = .start dir

theorem Boot.start_initial (dir : Dir) : (Boot.start dir).Initial := ⟨dir, rfl⟩

def bootSystem : System Boot BootAction Use where
  init := Boot.Initial
  enabled := Boot.Enabled
  step := Boot.step

instance bootSystem.decidableEnabled (s : Boot) (a : BootAction) : Decidable (bootSystem.enabled s a) :=
  inferInstanceAs (Decidable (s.Enabled a))

/-! ### The order of the statements -/

theorem Boot.Done.of_earlier {s : Boot} {stmt earlier : InitStmt} (hdone : s.Done stmt)
    (hmem : earlier ∈ pulseGenerateInit) (horder : pulseGenerateInit.idxOf earlier ≤ pulseGenerateInit.idxOf stmt) :
    s.Done earlier := by
  rw [Boot.Done, List.mem_take_iff_idxOf_lt hmem]
  have hlt := (List.mem_take_iff_idxOf_lt (List.mem_of_mem_take hdone)).mp hdone
  exact horder.trans_lt hlt

theorem Boot.ready_of_open {s : Boot} {timer : Timer} (hopen : s.Done (.open timer)) : s.Ready (.device timer) := by
  refine ⟨hopen.of_earlier ?_ ?_, hopen⟩ <;> cases timer <;> decide

/-- All four handles are opened before any callback is set. -/
theorem Boot.ready_of_setRxIndicate {s : Boot} {set : Timer} (hset : s.Done (.setRxIndicate set)) (timer : Timer) :
    s.Ready (.device timer) := by
  apply Boot.ready_of_open
  refine hset.of_earlier ?_ ?_
  · cases timer <;> decide
  · cases set <;> cases timer <;> decide

@[simp] theorem allReady_nil : AllReady [] := by
  simp [AllReady]

@[simp] theorem allReady_cons {use : Use} {uses : List Use} :
    AllReady (use :: uses) ↔ use.ready = true ∧ AllReady uses :=
  List.forall_mem_cons

theorem allReady_append {uses later : List Use} : AllReady (uses ++ later) ↔ AllReady uses ∧ AllReady later :=
  List.forall_mem_append

theorem Boot.use_ready {s : Boot} {touched : Touched} : (s.use touched).ready = true ↔ s.Ready touched :=
  decide_eq_true_iff

theorem Boot.Ready.congr {s s' : Boot} {touched : Touched} (hready : s.Ready touched) (hpc : s'.pc = s.pc) :
    s'.Ready touched := by
  cases touched <;> simpa only [Boot.Ready, Boot.Done, hpc] using hready

/-! ### What a callback touches -/

@[simp] theorem Boot.stop_pc (s : Boot) (timer : Timer) : (s.stop timer).pc = s.pc := by
  cases timer <;> rfl

@[simp] theorem Boot.write_pc (s : Boot) (timer : Timer) : (s.write timer).pc = s.pc := by
  unfold Boot.write
  split <;> rfl

@[simp] theorem Boot.write_board (s : Boot) (timer : Timer) : (s.write timer).board = s.board := by
  unfold Boot.write
  split <;> rfl

@[simp] theorem Boot.readTimer1_pc (s : Boot) (read : HwtimerVal) : (s.readTimer1 read).pc = s.pc := by
  unfold Boot.readTimer1
  split <;> rfl

/-- What the effects of a callback touch, on a board they find in the order of the source. -/
def touches (b : Board) (reg : Option UInt8) : Effect → List Touched
  | .startTimer2CrossPulse _ => [.device .timer2CrossPulse]
  | .startTimer3PulseWidth _ => [.device .timer3PulseWidth]
  | .lmsStateMachine => machineTouches b reg
  | _ => []

theorem Boot.effect_cases {reg : Option UInt8} {s s' : Boot} {effect : Effect} {uses : List Use}
    (heffect : s.effect reg effect = some (s', uses)) :
    uses = (touches s.board reg effect).map s.use ∧ s'.pc = s.pc ∧
      (effect ≠ .lmsStateMachine → s'.board = s.board) := by
  cases effect with
  | lmsStateMachine =>
    obtain ⟨r, -, hr⟩ := Option.map_eq_some_iff.mp heffect
    obtain ⟨rfl, rfl⟩ := Prod.mk.inj hr
    exact ⟨rfl, rfl, fun hne => absurd rfl hne⟩
  | _ =>
    obtain ⟨rfl, rfl⟩ := Prod.mk.inj (Option.some.inj heffect)
    simp [touches]

/-- Effects of which only the last can run the machine find the board the callback found. -/
theorem Boot.effects_ready {reg : Option UInt8} {s s' : Boot} {effects : List Effect} {uses : List Use}
    (hlast : .lmsStateMachine ∉ effects.dropLast)
    (hready : ∀ effect ∈ effects, ∀ touched ∈ touches s.board reg effect, s.Ready touched)
    (heffects : s.effects reg effects = some (s', uses)) : AllReady uses := by
  induction effects generalizing s uses with
  | nil =>
    obtain ⟨rfl, rfl⟩ := Prod.mk.inj (Option.some.inj heffects)
    simp
  | cons effect effects ih =>
    obtain ⟨⟨first, firstUses⟩, hfirst, hmap⟩ := Option.bind_eq_some_iff.mp heffects
    obtain ⟨⟨rest, restUses⟩, hrest, heq⟩ := Option.map_eq_some_iff.mp hmap
    obtain ⟨rfl, rfl⟩ := Prod.mk.inj heq
    obtain ⟨rfl, hpc, hboard⟩ := Boot.effect_cases hfirst
    refine allReady_append.mpr ⟨?_, ?_⟩
    · intro use huse
      obtain ⟨touched, htouched, rfl⟩ := List.mem_map.mp huse
      exact Boot.use_ready.mpr (hready effect List.mem_cons_self touched htouched)
    · cases effects with
      | nil =>
        obtain ⟨-, rfl⟩ := Prod.mk.inj (Option.some.inj hrest)
        exact allReady_nil
      | cons next effects =>
        rw [List.dropLast_cons_cons, List.mem_cons, not_or] at hlast
        refine ih hlast.2 ?_ hrest
        rw [hboard (Ne.symm hlast.1)]
        intro effect heffect touched htouched
        exact (hready effect (List.mem_cons_of_mem _ heffect) touched htouched).congr hpc

/-! ### The condition -/

/-- No edge comes before `timer1` is opened and no edge that starts `timer2` before that is; before the mailbox is initialised no zero crossing finds a reply to post. -/
def InTime (s : Boot) : BootAction → Prop
  | .edge pinLevel _ =>
    s.Done (.open .timer1Icr1) ∧
      (pinLevel = false → s.capture.calibrateFlag = true → s.Done (.open .timer2CrossPulse))
  | .expire .timer2CrossPulse _ reg => Posts s.board reg → s.Done (.lms .mailboxInit)
  | _ => True

instance Boot.decidableInTime (s : Boot) : (a : BootAction) → Decidable (InTime s a)
  | .stmt => inferInstanceAs (Decidable True)
  | .edge pinLevel _ => inferInstanceAs (Decidable (_ ∧ (pinLevel = false → _ → _)))
  | .expire .timer0TxDelay _ _ => inferInstanceAs (Decidable True)
  | .expire .timer1Icr1 _ _ => inferInstanceAs (Decidable True)
  | .expire .timer2CrossPulse _ reg => inferInstanceAs (Decidable (Posts s.board reg → _))
  | .expire .timer3PulseWidth _ _ => inferInstanceAs (Decidable True)

theorem Boot.edge_ready {s s' : Boot} {pinLevel : Bool} {read : HwtimerVal} {uses : List Use}
    (hintime : InTime s (.edge pinLevel read)) (hedge : s.edge pinLevel read = some (s', uses)) :
    AllReady uses := by
  obtain ⟨htimer1, htimer2⟩ := hintime
  obtain ⟨⟨last, lastUses⟩, hlast, heq⟩ := Option.map_eq_some_iff.mp hedge
  obtain ⟨rfl, rfl⟩ := Prod.mk.inj heq
  rw [allReady_cons]
  refine ⟨Boot.use_ready.mpr (Boot.ready_of_open htimer1), ?_⟩
  cases pinLevel with
  | true =>
    rw [int1Callback_rising_effects] at hlast
    exact Boot.effects_ready (by simp) (by simp) hlast
  | false =>
    rw [(int1Callback_falling _ _).2.2.2] at hlast
    split at hlast
    · rename_i hflag
      refine Boot.effects_ready (by simp) ?_ hlast
      simp only [List.mem_singleton, forall_eq, touches]
      exact (Boot.ready_of_open (htimer2 rfl hflag)).congr (s.readTimer1_pc read)
    · exact Boot.effects_ready (by simp) (by simp) hlast

theorem touches_ready {s : Boot} {reg : Option UInt8} (hready : ∀ timer, s.Ready (.device timer))
    (hpost : Posts s.board reg → s.Ready .mailbox) (effect : Effect) :
    ∀ touched ∈ touches s.board reg effect, s.Ready touched := by
  cases effect with
  | pulseOn => simp [touches]
  | startTimer2CrossPulse delayUs => simpa [touches] using hready .timer2CrossPulse
  | startTimer3PulseWidth delayUs => simpa [touches] using hready .timer3PulseWidth
  | sampleCurrent => simp [touches]
  | lmsStateMachine =>
    simp only [touches, machineTouches]
    split
    · simpa using hready .timer0TxDelay
    · split
      · rename_i hposts
        simpa using hpost hposts
      · simp

theorem timer2CrossPulseCb_dropLast (c : Capture) : .lmsStateMachine ∉ (timer2CrossPulseCb c).2.dropLast := by
  unfold timer2CrossPulseCb
  split <;> simp

theorem Boot.callback_ready {s s' : Boot} {timer : Timer} {read : HwtimerVal} {reg : Option UInt8} {uses : List Use}
    (hready : ∀ timer, s.Ready (.device timer))
    (hpost : timer = .timer2CrossPulse → Posts s.board reg → s.Ready .mailbox)
    (hcallback : s.callback read reg timer = some (s', uses)) : AllReady uses := by
  have huse : ∀ timer, (s.use (.device timer)).ready = true := fun timer => Boot.use_ready.mpr (hready timer)
  cases timer with
  | timer0TxDelay =>
    obtain ⟨r, -, hr⟩ := Option.map_eq_some_iff.mp hcallback
    obtain ⟨rfl, rfl⟩ := Prod.mk.inj hr
    simpa using huse .timer0TxDelay
  | timer1Icr1 =>
    obtain ⟨rfl, rfl⟩ := Prod.mk.inj (Option.some.inj hcallback)
    simpa using huse .timer1Icr1
  | timer3PulseWidth =>
    obtain ⟨rfl, rfl⟩ := Prod.mk.inj (Option.some.inj hcallback)
    simpa using huse .timer3PulseWidth
  | timer2CrossPulse =>
    refine Boot.effects_ready (timer2CrossPulseCb_dropLast s.capture) ?_ hcallback
    intro effect _ touched htouched
    exact (touches_ready hready (hpost rfl) effect touched htouched).congr rfl

theorem Boot.expire_ready {s s' : Boot} {timer : Timer} {read : HwtimerVal} {reg : Option UInt8} {uses : List Use}
    (hintime : InTime s (.expire timer read reg)) (hexpire : s.expire timer read reg = some (s', uses)) :
    AllReady uses := by
  unfold Boot.expire at hexpire
  generalize hstopped : (if s.mode timer = .oneshot then s.stop timer else s) = stopped at hexpire
  have hpc : stopped.pc = s.pc := by
    rw [← hstopped]
    split
    · exact s.stop_pc timer
    · rfl
  split at hexpire
  · rename_i hset
    refine Boot.callback_ready (fun other => (Boot.ready_of_setRxIndicate hset other).congr hpc) ?_ hexpire
    rintro rfl hposts
    have hboard : stopped.board = s.board := by
      rw [← hstopped]
      split <;> rfl
    have hready : s.Ready .mailbox := hintime (hboard ▸ hposts)
    exact hready.congr hpc
  · obtain ⟨-, rfl⟩ := Prod.mk.inj (Option.some.inj hexpire)
    simp

theorem Boot.step_ready {s s' : Boot} {a : BootAction} {uses : List Use} (hintime : InTime s a)
    (hstep : s.step a = some (s', uses)) : AllReady uses := by
  cases a with
  | stmt =>
    obtain ⟨_, -, hs⟩ := Option.map_eq_some_iff.mp hstep
    obtain ⟨-, rfl⟩ := Prod.mk.inj hs
    simp
  | edge pinLevel read => exact Boot.edge_ready hintime hstep
  | expire timer read reg => exact Boot.expire_ready hintime hstep

/-- No step leaves the data of its program, so a run ends only where it is cut. -/
theorem Boot.step_isSome {s : Boot} {a : BootAction} (henabled : s.Enabled a) : (s.step a).isSome := by
  have heffects : ∀ (reg : Option UInt8) (effects : List Effect) (s : Boot), (s.effects reg effects).isSome := by
    intro reg effects
    induction effects with
    | nil => exact fun _ => rfl
    | cons effect effects ih =>
      intro s
      have heffect : (s.effect reg effect).isSome := by
        cases effect with
        | lmsStateMachine => simpa [Boot.effect] using lmsStateMachine_isSome s.board reg
        | _ => rfl
      obtain ⟨first, hfirst⟩ := Option.isSome_iff_exists.mp heffect
      simpa [Boot.effects, hfirst] using ih first.1
  cases a with
  | stmt =>
    have hlt : s.pc < pulseGenerateInit.length := henabled
    simpa [Boot.step] using hlt
  | edge pinLevel read => simpa [Boot.step, Boot.edge] using heffects _ _ _
  | expire timer read reg =>
    simp only [Boot.step, Boot.expire]
    split
    · cases timer with
      | timer0TxDelay => simpa [Boot.callback, timer0TxDelayCb] using sendStateMachine_isSome _
      | timer2CrossPulse => exact heffects _ _ _
      | _ => rfl
    · rfl

/-- Without an early edge no callback uses a handle before it is opened or posts before the mailbox is initialised. -/
theorem startup_safe {as : List BootAction} {uses : List Use} {s : Boot}
    (hreach : Reaches (bootSystem.restrict InTime) as uses s) : AllReady uses := by
  refine hreach.invariant (fun _ uses _ => AllReady uses) (fun _ _ => allReady_nil) ?_
  intro as uses s a out s' hsafe henabled hstep
  exact allReady_append.mpr ⟨hsafe, Boot.step_ready henabled.2 hstep⟩

/-- The whole initialisation, a low width of 12 ms and the pulse of the next period. -/
def startupRun : List BootAction :=
  List.replicate pulseGenerateInit.length .stmt ++
    [.edge false ⟨0, 1000⟩, .edge true ⟨0, 13000⟩, .edge false ⟨0, 21000⟩, .expire .timer2CrossPulse ⟨0, 0⟩ none]

instance bootSystem.decidableRestrict (s : Boot) (a : BootAction) :
    Decidable ((bootSystem.restrict InTime).enabled s a) :=
  inferInstanceAs (Decidable (s.Enabled a ∧ InTime s a))

theorem startupRun_isSome : ((bootSystem.restrict InTime).exec (.start .recv) startupRun).isSome := by
  decide +kernel

theorem startup_safe_pulse :
    AllReady (((bootSystem.restrict InTime).exec (.start .recv) startupRun).get startupRun_isSome).2 :=
  startup_safe (Reaches.of_exec (Boot.start_initial .recv) startupRun_isSome)

/-- An edge behind the statement that enables the interrupt. -/
def firstEdge : List BootAction := List.replicate 3 .stmt ++ [.edge false ⟨0, 0⟩]

theorem firstEdge_isSome : (bootSystem.exec (.start .recv) firstEdge).isSome := by
  decide +kernel

/-- The edge reads `timer1_ICR1` while it is `NULL`. -/
theorem not_startup_safe :
    ¬ ∀ as uses (s : Boot), Reaches bootSystem as uses s → AllReady uses := by
  intro h
  have hmem : ⟨.device .timer1Icr1, false⟩ ∈ ((bootSystem.exec (.start .recv) firstEdge).get firstEdge_isSome).2 := by
    decide +kernel
  exact Bool.false_ne_true (h _ _ _ (Reaches.of_exec (Boot.start_initial .recv) firstEdge_isSome) _ hmem)

end LightControlMonitor.Pulse
