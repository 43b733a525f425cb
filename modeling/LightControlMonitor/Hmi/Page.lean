import LightControlMonitor.Lms.Replies

/-!
# The lamp page

`draw_mark` and `lms_status_disp` of `hmi.c`, beside the lamp bus machine that fills the mailbox. The display thread is preempted anywhere, so taking an index from the mailbox, erasing its cell, reading its terminal and drawing the mark are four steps, and the first call goes through the last three for every cell.

A cell holds what was drawn in it since it was last erased.
-/

namespace LightControlMonitor.Hmi

open Lms (Board World Event pollByte)

def RADIUS : Nat := 8

/-- The calls of `draw_circle` and `draw_line`. -/
inductive Primitive
  | circle (x y radius : Nat) (fill display : Bool)
  | line (x0 y0 x1 y1 : Nat) (display : Bool)
  deriving DecidableEq

/-- `draw_mark`; a byte that stands for no state draws nothing. -/
def drawMark (data : UInt8) (row column : Nat) (display : Bool) : List Primitive :=
  let x := (row - 1) * 3 * RADIUS + RADIUS
  let y := (column - 1) * 3 * RADIUS + RADIUS
  if data = 0x00 then [.circle x y RADIUS true display]
  else if data = 0x0b then [.circle x y RADIUS false display]
  else if data = 0x74 then
    [.circle x y RADIUS false display,
      .line x ((column - 1) * 3 * RADIUS) x ((column - 1) * 3 * RADIUS + 2 * RADIUS) display]
  else if data = 0x7f then
    [.circle x y RADIUS false display,
      .line ((row - 1) * 3 * RADIUS) y ((row - 1) * 3 * RADIUS + 2 * RADIUS) y display]
  else if data = 0xff then
    [.circle x y RADIUS false true, .line (x - 5) (y - 5) (x + 5) (y + 5) display,
      .line (x + 5) (y - 5) (x - 5) (y + 5) display]
  else []

/-- The mark of a terminal in its own cell. -/
def markOf (index : Nat) (data : UInt8) : List Primitive :=
  drawMark data (index / 8 + 2) (index % 8 + 2) true

/-- Where the display thread is in `lms_status_disp`; `loop` holds in the loop of the first call. -/
inductive Disp
  | idle
  | erase (index : Nat) (loop : Bool)
  | load (index : Nat) (loop : Bool)
  | mark (index : Nat) (data : UInt8) (loop : Bool)
  deriving DecidableEq

variable {ι : Type}

structure Page (ι : Type) where
  world : World ι
  firstrun : Bool
  disp : Disp
  cells : Nat → List Primitive

inductive PageAction (ι : Type)
  | act (a : Lms.Action ι)
  | disp

/-- `draw_mark (0x00, .., 0)`. -/
def eraseCell (cells : Nat → List Primitive) (index : Nat) : Nat → List Primitive :=
  Function.update cells index []

def drawCell (cells : Nat → List Primitive) (index : Nat) (data : UInt8) : Nat → List Primitive :=
  Function.update cells index (cells index ++ markOf index data)

/-- One step of `lms_status_disp`; from `idle` it is the call with the test of `g_firstrun` and, after the first run, `rt_mb_recv`. -/
def Page.dispStep (s : Page ι) : Option (Page ι) :=
  match s.disp with
  | .idle =>
    if s.firstrun then some { s with firstrun := false, disp := .erase 0 true }
    else
      match s.world.board.mb with
      | [] => some s
      | index :: rest => some { s with world.board.mb := rest, disp := .erase index false }
  | .erase index loop => some { s with cells := eraseCell s.cells index, disp := .load index loop }
  | .load index loop =>
    s.world.board.lms.terminalState[index]?.map fun data => { s with disp := .mark index data loop }
  | .mark index data loop =>
    some { s with
      cells := drawCell s.cells index data
      disp := if loop ∧ index + 1 < 32 then .erase (index + 1) true else .idle }

def Page.Initial (s : Page ι) : Prop := s.world.Initial ∧ s.firstrun = true ∧ s.disp = .idle

def Page.Enabled (s : Page ι) : PageAction ι → Prop
  | .act a => Lms.Enabled s.world a
  | .disp => True

instance (s : Page ι) : (a : PageAction ι) → Decidable (s.Enabled a)
  | .act a => inferInstanceAs (Decidable (Lms.Enabled s.world a))
  | .disp => inferInstanceAs (Decidable True)

section System

variable [DecidableEq ι]

def Page.step (s : Page ι) : PageAction ι → Option (Page ι × List Event)
  | .act a => (s.world.step a).map fun r => ({ s with world := r.1 }, r.2)
  | .disp => s.dispStep.map fun s' => (s', [])

variable (ι)

def pageSystem : Transition.System (Page ι) (PageAction ι) Event where
  init := Page.Initial
  enabled := Page.Enabled
  step := Page.step

instance (s : Page ι) (a : PageAction ι) : Decidable ((pageSystem ι).enabled s a) :=
  inferInstanceAs (Decidable (s.Enabled a))

end System

/-- When the display has nothing to do, every cell shows the state of its terminal. -/
def Page.Converged (s : Page ι) : Prop :=
  s.firstrun = false → s.disp = .idle → s.world.board.mb = [] → ∀ index data,
    s.world.board.lms.terminalState[index]? = some data → s.cells index = markOf index data

/-- The running call is yet to read the terminal. -/
def Disp.WillRead (disp : Disp) (index : Nat) : Prop :=
  match disp with
  | .idle => False
  | .erase current loop => index = current ∨ loop ∧ current < index
  | .load current loop => index = current ∨ loop ∧ current < index
  | .mark current _ loop => loop ∧ current < index

instance (disp : Disp) (index : Nat) : Decidable (disp.WillRead index) := by
  unfold Disp.WillRead
  cases disp <;> infer_instance

/-- The read drops no notification that is missed: it finds room in the mailbox, or its terminal is still queued or is read later by the running call, or the mark does not change. -/
def Page.NotMissed (s : Page ι) : PageAction ι → Prop
  | .act (.tick reg) =>
    let index := s.world.board.lms.terminalIndex
    s.firstrun = false → s.world.board.lms.state = .recving → index < 32 →
      s.world.board.mb.length < Lms.mbSize ∨ index ∈ s.world.board.mb ∨ s.disp.WillRead index ∨
        s.world.board.lms.terminalState[index]?.map (markOf index) = some (markOf index (Lms.lmsUartRecvByte reg))
  | _ => True

instance (s : Page ι) : (a : PageAction ι) → Decidable (s.NotMissed a)
  | .act (.tick reg) => by
    unfold Page.NotMissed
    infer_instance
  | .act .txDelay => inferInstanceAs (Decidable True)
  | .act (.call _ _) => inferInstanceAs (Decidable True)
  | .act (.stmt _) => inferInstanceAs (Decidable True)
  | .disp => inferInstanceAs (Decidable True)

instance [DecidableEq ι] (s : Page ι) (a : PageAction ι) :
    Decidable (((pageSystem ι).restrict Page.NotMissed).enabled s a) :=
  inferInstanceAs (Decidable ((pageSystem ι).enabled s a ∧ s.NotMissed a))

end LightControlMonitor.Hmi
