import LightControlMonitor.Hmi.Page

/-!
# The shell commands of the lamps

`light_on`, `light_off` and `change_lms_state` of `main.c` beside the lamp bus machine and the lamp page. An argument is the list of its bytes before the terminator, and `argc` is the number of arguments. Plain `char` is unsigned on this target.

The arguments are decimal numbers without any check. Two of the three tables they index are smaller than a byte can say, so a command stays inside them only for the numbers whose low byte fits.
-/

namespace LightControlMonitor.Shell

open Hmi (Page PageAction Disp)
open Lms (Board Call Event)
open Transition (Reaches)

def OpenLamp_Order : UInt8 := 0x02
def CloseLamp_Order : UInt8 := 0x03

/-! ### The parser -/

def myAtoiStep (result : UInt16) (c : UInt8) : UInt16 := 10 * result + (c.toUInt16 - 48)

def myAtoi (str : List UInt8) : Int16 :=
  match str with
  | 0x2d :: rest => (-(rest.foldl myAtoiStep 0)).toInt16
  | _ => (str.foldl myAtoiStep 0).toInt16

/-- The number a string stands for when no size limits it; every character counts as a digit. -/
def charSum (str : List UInt8) : Int := str.foldl (fun value c => 10 * value + ((c.toNat : Int) - 48)) 0

def decimalValue (str : List UInt8) : Int :=
  match str with
  | 0x2d :: rest => -charSum rest
  | _ => charSum str

theorem toUInt16_eq_ofInt (c : UInt8) : c.toUInt16 = UInt16.ofInt c.toNat := by
  apply UInt16.toNat_inj.mp
  have := c.toNat_lt
  simp [UInt16.ofInt]
  omega

theorem myAtoi_fold (str : List UInt8) (value : Int) : str.foldl myAtoiStep (UInt16.ofInt value) =
    UInt16.ofInt (str.foldl (fun value c => 10 * value + ((c.toNat : Int) - 48)) value) := by
  induction str generalizing value with
  | nil => rfl
  | cons c str ih =>
    have hstep : myAtoiStep (UInt16.ofInt value) c = UInt16.ofInt (10 * value + ((c.toNat : Int) - 48)) := by
      rw [myAtoiStep, toUInt16_eq_ofInt, Int.sub_eq_add_neg, UInt16.ofInt_add, UInt16.ofInt_mul, UInt16.ofInt_add,
        UInt16.sub_eq_add_neg]
      rfl
    rw [List.foldl_cons, List.foldl_cons, hstep, ih]

/-- The parser works modulo `2 ^ 16`. -/
theorem myAtoi_eq (str : List UInt8) : myAtoi str = (UInt16.ofInt (decimalValue str)).toInt16 := by
  have hfold : ∀ str : List UInt8, str.foldl myAtoiStep 0 = UInt16.ofInt (charSum str) := fun str => myAtoi_fold str 0
  unfold myAtoi decimalValue
  split
  · rw [hfold, UInt16.ofInt_neg]
  · rw [hfold]

/-! ### The commands -/

inductive Command
  | lightOn
  | lightOff
  | changeLmsState
  deriving DecidableEq

/-- The arguments a light command passes to `build_ctrl_cmd`, narrowed to bytes. -/
def lightCall (order : UInt8) (groupId segId : List UInt8) : Call where
  groupId := (myAtoi groupId).toUInt16.toUInt8
  segId := (myAtoi segId).toUInt16.toUInt8
  cmd := order

/-- The call of `build_ctrl_cmd` a command line leads to; with too few arguments the usage is all there is. -/
def Command.call (c : Command) (argv : List (List UInt8)) : Option Call :=
  match c, argv with
  | .lightOn, _ :: groupId :: segId :: _ => some (lightCall CloseLamp_Order groupId segId)
  | .lightOff, _ :: groupId :: segId :: _ => some (lightCall OpenLamp_Order groupId segId)
  | _, _ => none

def changeLmsState (argv : List (List UInt8)) (b : Board) : Option Board :=
  match argv with
  | _ :: index :: data :: _ =>
    let place := (myAtoi index).toInt8.toInt
    if 0 ≤ place ∧ place < 32 then
      some { b with
        lms.terminalState := b.lms.terminalState.setIfInBounds place.toNat (myAtoi data).toInt8.toUInt8
        mb := Fifo.offer Lms.mbSize b.mb place.toNat }
    else none
  | _ => some b

/-- A command that is not preempted. -/
def Command.run (c : Command) (argv : List (List UInt8)) (b : Board) : Option Board :=
  match c with
  | .changeLmsState => Shell.changeLmsState argv b
  | .lightOn | .lightOff =>
    match c.call argv with
    | some call => (Lms.buildCtrlCmd b.lms call).map fun lms => { b with lms }
    | none => some b

/-- The low byte of the first argument is in the table it indexes, or the command is not carried out. -/
def Command.InTables (c : Command) (argv : List (List UInt8)) (b : Board) : Prop :=
  match c, argv with
  | .changeLmsState, _ :: index :: _ :: _ => decimalValue index % 256 < 32
  | .lightOn, _ :: groupId :: _ :: _ | .lightOff, _ :: groupId :: _ :: _ =>
    b.lms.cmdInfo.writeLock = true ∨ decimalValue groupId % 256 < 8
  | _, _ => True

theorem toNat_toUInt8_myAtoi (str : List UInt8) :
    (((myAtoi str).toUInt16.toUInt8).toNat : Int) = decimalValue str % 256 := by
  rw [myAtoi_eq]
  simp [UInt16.ofInt]
  omega

theorem toInt_toInt8_myAtoi (str : List UInt8) : (myAtoi str).toInt8.toInt = (decimalValue str).bmod 256 := by
  rw [myAtoi_eq]
  have hmod : (decimalValue str % 65536 : Int) % 256 = decimalValue str % 256 := by omega
  have hmax : max (decimalValue str % 65536) 0 = decimalValue str % 65536 := by omega
  simp [UInt16.ofInt, hmax, Int8.size, Int.bmod_def, hmod]

theorem place_iff (str : List UInt8) :
    (0 ≤ (myAtoi str).toInt8.toInt ∧ (myAtoi str).toInt8.toInt < 32) ↔ decimalValue str % 256 < 32 := by
  rw [toInt_toInt8_myAtoi, Int.bmod_def]
  split <;> omega

theorem buildCtrlCmd_isSome_iff (lms : Lms.LmsT) (call : Call) :
    (Lms.buildCtrlCmd lms call).isSome ↔ lms.cmdInfo.writeLock = true ∨ call.groupId < 8 := by
  unfold Lms.buildCtrlCmd
  split
  · rename_i hlocked
    simp [hlocked]
  · rename_i hfree
    simp [hfree, Lms.genSyncFrame_isSome_iff]

theorem run_isSome_iff (c : Command) (argv : List (List UInt8)) (b : Board) :
    (c.run argv b).isSome ↔ c.InTables argv b := by
  have hlight : ∀ (order : UInt8) (groupId segId : List UInt8),
      (lightCall order groupId segId).groupId < 8 ↔ decimalValue groupId % 256 < 8 := by
    intro order groupId segId
    rw [← toNat_toUInt8_myAtoi, UInt8.lt_iff_toNat_lt]
    exact Int.ofNat_lt.symm
  cases c with
  | changeLmsState =>
    simp only [Command.run, Shell.changeLmsState]
    split
    · rename_i index data _
      rw [Command.InTables, ← place_iff]
      split <;> simp_all
    · rename_i hfew
      rcases argv with _ | ⟨name, _ | ⟨index, _ | ⟨data, rest⟩⟩⟩
      · simp [Command.InTables]
      · simp [Command.InTables]
      · simp [Command.InTables]
      · exact absurd rfl (hfew name index data rest)
  | lightOn =>
    rcases argv with _ | ⟨name, _ | ⟨groupId, _ | ⟨segId, rest⟩⟩⟩ <;>
      simp [Command.run, Command.call, Command.InTables, buildCtrlCmd_isSome_iff, hlight]
  | lightOff =>
    rcases argv with _ | ⟨name, _ | ⟨groupId, _ | ⟨segId, rest⟩⟩⟩ <;>
      simp [Command.run, Command.call, Command.InTables, buildCtrlCmd_isSome_iff, hlight]

/-! ### The system -/

variable {ι : Type}

inductive ShellAction (ι : Type)
  | page (a : PageAction ι)
  | command (thread : ι) (c : Command) (argv : List (List UInt8))

def Enabled (s : Page ι) : ShellAction ι → Prop
  | .page a => s.Enabled a
  | .command i _ _ => s.world.threads i = none

instance Enabled.instDecidable (s : Page ι) : (a : ShellAction ι) → Decidable (Enabled s a)
  | .page a => inferInstanceAs (Decidable (s.Enabled a))
  | .command i _ _ => inferInstanceAs (Decidable (s.world.threads i = none))

section System

variable [DecidableEq ι]

/-- A light command is preempted between the statements of `build_ctrl_cmd`. -/
def step (s : Page ι) : ShellAction ι → Option (Page ι × List Event)
  | .page a => s.step a
  | .command i c argv =>
    match c.call argv with
    | some call =>
      some ({ s with world.threads := Function.update s.world.threads i (some ⟨call, 0, 0, .testLock⟩) }, [])
    | none => (c.run argv s.world.board).map fun b => ({ s with world.board := b }, [])

variable (ι)

def shellSystem : Transition.System (Page ι) (ShellAction ι) Event where
  init := Page.Initial
  enabled := Enabled
  step := step

instance shellSystem.instDecidable (s : Page ι) (a : ShellAction ι) : Decidable ((shellSystem ι).enabled s a) :=
  inferInstanceAs (Decidable (Enabled s a))

end System

def dispIndex : Disp → Option Nat
  | .idle => none
  | .erase index _ | .load index _ | .mark index _ _ => some index

/-- Every queued index and the index in hand address a terminal. -/
structure Addressed (s : Page ι) : Prop where
  queued : ∀ index ∈ s.world.board.mb, index < 32
  inHand : ∀ index ∈ dispIndex s.disp, index < 32

theorem Addressed.initial {s : Page ι} (hinit : s.Initial) : Addressed s := by
  obtain ⟨⟨-, -, hmb, -⟩, -, hidle⟩ := hinit
  exact ⟨by simp [hmb], by simp [hidle, dispIndex]⟩

theorem queued_tick {b b' : Board} {reg : Option UInt8} {out : List Event} (h : ∀ index ∈ b.mb, index < 32)
    (hstep : Lms.lmsStateMachine b reg = some (b', out)) : ∀ index ∈ b'.mb, index < 32 := by
  rcases Lms.lmsStateMachine_cases hstep with ⟨-, -, rfl⟩ | ⟨-, -, rfl⟩ | ⟨-, -, -, rfl⟩ | ⟨-, -, -, rfl⟩ |
    ⟨-, hlt, hstore⟩ | ⟨-, -, -, rfl⟩
  · exact h
  · exact h
  · exact h
  · exact h
  · obtain ⟨-, old, mb, -, rfl, rfl⟩ := Lms.storeReply_cases hstore
    intro index hindex
    dsimp only at hindex
    split at hindex
    · rcases Fifo.mem_or_eq_of_mem_offer hindex with hold | rfl
      · exact h index hold
      · exact hlt
    · exact h index hindex
  · exact h

theorem Addressed.act [DecidableEq ι] {s : Page ι} {a : Lms.Action ι} {w : Lms.World ι} {out : List Event}
    (h : Addressed s) (hstep : s.world.step a = some (w, out)) : Addressed { s with world := w } := by
  refine ⟨?_, h.inHand⟩
  cases a with
  | tick reg =>
    obtain ⟨b', hb, rfl⟩ := Lms.step_tick hstep
    exact queued_tick h.queued hb
  | txDelay =>
    obtain ⟨b', hb, rfl⟩ := Lms.step_txDelay hstep
    rcases Lms.sendStateMachine_cases hb with ⟨-, -, rfl⟩ | ⟨-, -, _, -, -, rfl⟩ | ⟨-, -, -, rfl⟩ <;> exact h.queued
  | call i args =>
    obtain ⟨-, rfl⟩ := Lms.step_call hstep
    exact h.queued
  | stmt i =>
    obtain ⟨l, l', lms', -, -, rfl⟩ := Lms.step_stmt hstep
    exact h.queued

theorem Addressed.disp {s s' : Page ι} (h : Addressed s) (hstep : s.dispStep = some s') : Addressed s' := by
  unfold Page.dispStep at hstep
  split at hstep
  · split at hstep
    · obtain rfl := Option.some.inj hstep
      exact ⟨h.queued, by simp [dispIndex]⟩
    · split at hstep
      · obtain rfl := Option.some.inj hstep
        exact h
      · rename_i index rest hmb
        obtain rfl := Option.some.inj hstep
        have hall : ∀ i ∈ index :: rest, i < 32 := hmb ▸ h.queued
        exact ⟨fun i hi => hall i (List.mem_cons_of_mem _ hi), by simpa [dispIndex] using hall index List.mem_cons_self⟩
  · rename_i index loop hdisp
    obtain rfl := Option.some.inj hstep
    exact ⟨h.queued, by simpa [dispIndex, hdisp] using h.inHand⟩
  · rename_i index loop hdisp
    obtain ⟨data, -, rfl⟩ := Option.map_eq_some_iff.mp hstep
    exact ⟨h.queued, by simpa [dispIndex, hdisp] using h.inHand⟩
  · rename_i index data loop hdisp
    obtain rfl := Option.some.inj hstep
    refine ⟨h.queued, ?_⟩
    dsimp only
    split
    · rename_i hnext
      simpa [dispIndex] using hnext.2
    · simp [dispIndex]

theorem queued_changeLmsState {argv : List (List UInt8)} {b b' : Board} (h : ∀ index ∈ b.mb, index < 32)
    (hrun : changeLmsState argv b = some b') : ∀ index ∈ b'.mb, index < 32 := by
  unfold changeLmsState at hrun
  split at hrun
  · dsimp only at hrun
    split at hrun
    · rename_i hplace
      obtain rfl := Option.some.inj hrun
      intro index hindex
      rcases Fifo.mem_or_eq_of_mem_offer hindex with hold | rfl
      · exact h index hold
      · omega
    · contradiction
  · obtain rfl := Option.some.inj hrun
    exact h

theorem queued_run {c : Command} {argv : List (List UInt8)} {b b' : Board} (h : ∀ index ∈ b.mb, index < 32)
    (hrun : c.run argv b = some b') : ∀ index ∈ b'.mb, index < 32 := by
  have hlight : ∀ call : Option Call, (match call with
      | some call => (Lms.buildCtrlCmd b.lms call).map fun lms => { b with lms }
      | none => some b) = some b' → b'.mb = b.mb := by
    intro call hcall
    split at hcall
    · obtain ⟨lms, -, rfl⟩ := Option.map_eq_some_iff.mp hcall
      rfl
    · obtain rfl := Option.some.inj hcall
      rfl
  cases c with
  | changeLmsState => exact queued_changeLmsState h hrun
  | lightOn => exact hlight _ hrun ▸ h
  | lightOff => exact hlight _ hrun ▸ h

theorem Addressed.step [DecidableEq ι] {s s' : Page ι} {a : ShellAction ι} {out : List Event} (h : Addressed s)
    (hstep : Shell.step s a = some (s', out)) : Addressed s' := by
  cases a with
  | page a =>
    cases a with
    | act a =>
      obtain ⟨⟨w, out'⟩, hact, heq⟩ := Option.map_eq_some_iff.mp hstep
      obtain ⟨rfl, rfl⟩ := Prod.mk.inj heq
      exact h.act hact
    | disp =>
      obtain ⟨s₁, hdisp, heq⟩ := Option.map_eq_some_iff.mp hstep
      obtain ⟨rfl, rfl⟩ := Prod.mk.inj heq
      exact h.disp hdisp
  | command i c argv =>
    unfold Shell.step at hstep
    dsimp only at hstep
    split at hstep
    · obtain ⟨rfl, rfl⟩ := Prod.mk.inj (Option.some.inj hstep)
      exact ⟨h.queued, h.inHand⟩
    · obtain ⟨b, hrun, heq⟩ := Option.map_eq_some_iff.mp hstep
      obtain ⟨rfl, rfl⟩ := Prod.mk.inj heq
      exact ⟨queued_run h.queued hrun, h.inHand⟩

theorem Addressed.dispStep_isSome {s : Page ι} (h : Addressed s) : s.dispStep.isSome := by
  unfold Page.dispStep
  split
  · split
    · rfl
    · split <;> rfl
  · rfl
  · rename_i index loop hdisp
    have hlt : index < 32 := h.inHand index (by simp [hdisp, dispIndex])
    have hread : s.world.board.lms.terminalState[index]? = some _ := Vector.getElem?_eq_getElem hlt
    rw [hread]
    rfl
  · rfl

/-- In every reachable state the mailbox and the display stay inside the table of the terminals, and a command stays inside its table exactly when the low byte of its first argument does. A run ends at the write behind the terminals, before the index it was for gets into the mailbox. -/
theorem commands_in_tables [DecidableEq ι] {as : List (ShellAction ι)} {es : List Event} {s : Page ι}
    (hreach : Reaches (shellSystem ι) as es s) :
    (∀ index ∈ s.world.board.mb, index < Lms.TERMIANL_NUM) ∧ s.dispStep.isSome ∧
      ∀ c argv, (Command.run c argv s.world.board).isSome ↔ c.InTables argv s.world.board := by
  have haddressed : Addressed s := hreach.invariant (fun _ _ s => Addressed s) (fun _ hinit => .initial hinit)
    (fun h _ hstep => h.step hstep)
  exact ⟨haddressed.queued, haddressed.dispStep_isSome, fun c argv => run_isSome_iff c argv _⟩

def freshPage : Page Unit := ⟨Lms.World.start, true, .idle, fun _ => []⟩

/-- `change_lms_state 31 11`, and the page drawn up to the first read of a terminal. -/
def changedLast : List (ShellAction Unit) :=
  [.command () .changeLmsState [[0x63], [0x33, 0x31], [0x31, 0x31]], .page .disp, .page .disp]

theorem commands_in_tables_last :
    ∃ es s, Reaches (shellSystem Unit) changedLast es s ∧ s.dispStep.isSome ∧
      (Command.run .lightOn [[0x6c], [0x37], [0x31]] s.world.board).isSome := by
  have hsome : ((shellSystem Unit).exec freshPage changedLast).isSome := by decide
  have hreach := Reaches.of_exec (M := shellSystem Unit) ⟨Lms.World.start_initial, rfl, rfl⟩ hsome
  have htables := commands_in_tables hreach
  refine ⟨_, _, hreach, htables.2.1, (htables.2.2 .lightOn _).mpr (.inr ?_)⟩
  decide

/-- `light_on 8 1` reads behind `TxSyncFrame`, `change_lms_state 32 0` writes behind the terminals. -/
theorem not_in_tables :
    ¬ (Command.run .lightOn [[0x6c], [0x38], [0x31]] freshPage.world.board).isSome ∧
      ¬ (Command.run .changeLmsState [[0x63], [0x33, 0x32], [0x30]] freshPage.world.board).isSome := by
  decide

end LightControlMonitor.Shell
