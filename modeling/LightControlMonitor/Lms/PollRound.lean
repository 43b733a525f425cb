import LightControlMonitor.Lms.HalfDuplex
import Mathlib.Data.List.Induction

/-!
# The slots of a poll round

The 35 zero crossings after a poll: two that wait, 32 that read one terminal each, and the one that ends the round. The phase after `n` of them is a function of `n`, whatever the submitting threads do in between, because the timer that leads to the next transmission is started by the crossing after the last of them.
-/

namespace LightControlMonitor.Lms

open Transition (Reaches Run)

variable {ι : Type}

/-! ### Crossings and reads -/

/-- The reads of a history: the terminal and the byte credited to it. -/
def receives (es : List Event) : List (Nat × UInt8) :=
  es.filterMap fun
    | .receive terminal byte => some (terminal, byte)
    | _ => none

@[simp] theorem receives_append (es fs : List Event) : receives (es ++ fs) = receives es ++ receives fs :=
  List.filterMap_append

@[simp] theorem wire_receive (terminal : Nat) (byte : UInt8) : wire [.receive terminal byte] = [] := rfl

@[simp] theorem receives_receive (terminal : Nat) (byte : UInt8) :
    receives [.receive terminal byte] = [(terminal, byte)] := rfl

/-- The third crossing after a poll reads terminal 0, the next ones read the terminals up to 31. -/
def slotReads (regs : List (Option UInt8)) : List (Nat × UInt8) :=
  ((regs.drop 2).take 32).mapIdx fun terminal reg => (terminal, lmsUartRecvByte reg)

theorem slotReads_wait {regs : List (Option UInt8)} (hwait : regs.length ≤ 2) : slotReads regs = [] := by
  simp [slotReads, List.drop_eq_nil_of_le hwait]

theorem slotReads_snoc {regs : List (Option UInt8)} {terminal : Nat} (hslot : regs.length = 2 + terminal)
    (hlt : terminal < 32) (reg : Option UInt8) :
    slotReads (regs ++ [reg]) = slotReads regs ++ [(terminal, lmsUartRecvByte reg)] := by
  have hlen : (regs.drop 2).length = terminal := by
    rw [List.length_drop]
    omega
  have hfull : (regs.drop 2 ++ [reg]).length ≤ 32 := by
    rw [List.length_append, hlen, List.length_singleton]
    omega
  rw [slotReads, slotReads, List.drop_append_of_le_length (by omega), List.take_of_length_le hfull,
    List.take_of_length_le (by omega), List.mapIdx_concat, hlen]

theorem slotReads_over {regs : List (Option UInt8)} (hover : 34 ≤ regs.length) (reg : Option UInt8) :
    slotReads (regs ++ [reg]) = slotReads regs := by
  have hlen : 32 ≤ (regs.drop 2).length := by
    rw [List.length_drop]
    omega
  rw [slotReads, slotReads, List.drop_append_of_le_length (by omega), List.take_append_of_le_length hlen]

/-- The terminal table after some reads. -/
def storeReads (table : Vector UInt8 32) (reads : List (Nat × UInt8)) : Vector UInt8 32 :=
  reads.foldl (fun table read => table.setIfInBounds read.1 read.2) table

theorem storeReads_snoc (table : Vector UInt8 32) (reads : List (Nat × UInt8)) (terminal : Nat) (byte : UInt8) :
    storeReads table (reads ++ [(terminal, byte)]) = (storeReads table reads).setIfInBounds terminal byte := by
  simp [storeReads]

/-! ### The round -/

def slotState (n : Nat) : LmsState :=
  if n < 2 then .waitrcv else if n < 35 then .recving else .tx

def slotIndex (n : Nat) : Nat :=
  if n < 35 then n - 2 else 0

theorem slotState_waitrcv {n : Nat} (hn : n < 2) : slotState n = .waitrcv := if_pos hn

theorem slotState_recving {n : Nat} (hwait : 2 ≤ n) (hn : n < 35) : slotState n = .recving := by
  rw [slotState, if_neg (by omega), if_pos hn]

/-- The board after a poll that found the terminal table `table`, once the crossings have found `regs`. -/
structure AfterPoll (table : Vector UInt8 32) (regs : List (Option UInt8)) (es : List Event) (b : Board) : Prop where
  state : b.lms.state = slotState regs.length
  wait : regs.length < 2 → b.lms.waitToRecvicntLeft = 1 - regs.length
  index : b.lms.terminalIndex = slotIndex regs.length
  timer : b.txDelay = false
  silent : wire es = []
  reads : receives es = slotReads regs
  terminals : b.lms.terminalState = storeReads table (receives es)

/-- What the crossing after the first `n` crossings of a round does. -/
structure SlotTick (n : Nat) (reg : Option UInt8) (out : List Event) (b b' : Board) : Prop where
  waiting : n < 2 → wire out = [] ∧ receives out = [] ∧ b'.lms.terminalState = b.lms.terminalState
  reading : ∀ terminal, n = 2 + terminal → terminal < 32 →
    out = [.receive terminal (lmsUartRecvByte reg)] ∧
      b'.lms.terminalState = b.lms.terminalState.setIfInBounds terminal (lmsUartRecvByte reg)
  ending : n = 34 → out = [] ∧ b'.lms.terminalState = b.lms.terminalState ∧ b'.lms.state = .tx ∧
    b'.lms.terminalIndex = 0 ∧ b'.lms.pollingCompleteFlag = true

section Tick

variable {table : Vector UInt8 32} {regs : List (Option UInt8)} {es out : List Event} {b b' : Board}
  {reg : Option UInt8}

theorem AfterPoll.tick_waiting (h : AfterPoll table regs es b) (hwait : regs.length < 2)
    (hstep : lmsStateMachine b reg = some (b', out)) :
    AfterPoll table (regs ++ [reg]) (es ++ out) b' ∧ SlotTick regs.length reg out b b' := by
  have hs : b.lms.state = .waitrcv := h.state.trans (slotState_waitrcv hwait)
  have hleft := h.wait hwait
  have hindex : b.lms.terminalIndex = 0 := by
    rw [h.index, slotIndex, if_pos (by omega)]
    omega
  have hlen : (regs ++ [reg]).length = regs.length + 1 := by simp
  have hreads : receives es = [] := by rw [h.reads, slotReads_wait (by omega)]
  have hindex' : slotIndex (regs ++ [reg]).length = 0 := by
    rw [slotIndex, hlen, if_pos (by omega)]
    omega
  have hslot : slotReads (regs ++ [reg]) = [] := slotReads_wait (by omega)
  have hterminals := h.terminals
  rcases lmsStateMachine_cases hstep with ⟨hne, -⟩ | ⟨hne, -⟩ | ⟨-, hpos, rfl, rfl⟩ | ⟨-, hzero, rfl, rfl⟩ |
    ⟨hne, -⟩ | ⟨hne, -⟩
  case inr.inr.inl =>
    have hfirst : regs.length = 0 := by omega
    rw [List.append_nil]
    refine ⟨⟨?_, fun _ => ?_, hindex.trans hindex'.symm, h.timer, h.silent, hreads.trans hslot.symm, hterminals⟩,
      ⟨fun _ => ⟨rfl, rfl, rfl⟩, by omega, by omega⟩⟩
    · rw [slotState_waitrcv (by omega)]
      exact hs
    · simp [hleft, hfirst]
  case inr.inr.inr.inl =>
    have hsecond : regs.length = 1 := by omega
    have hsilent : wire [.pin .recv] = [] := rfl
    have hnone : receives [.pin .recv] = [] := rfl
    refine ⟨⟨?_, by omega, hindex.trans hindex'.symm, h.timer, ?_, ?_, ?_⟩,
      ⟨fun _ => ⟨rfl, rfl, rfl⟩, by omega, by omega⟩⟩
    · rw [slotState_recving (by omega) (by omega)]
    · rw [wire_append, h.silent, hsilent]
      rfl
    · rw [receives_append, hreads, hnone, hslot]
      rfl
    · rw [receives_append, hnone, List.append_nil]
      exact hterminals
  all_goals simp [hs] at hne

theorem AfterPoll.tick_reading (h : AfterPoll table regs es b) (terminal : Nat) (hslot : regs.length = 2 + terminal)
    (hlt : terminal < 32) (hstep : lmsStateMachine b reg = some (b', out)) :
    AfterPoll table (regs ++ [reg]) (es ++ out) b' ∧ SlotTick regs.length reg out b b' := by
  have hs : b.lms.state = .recving := h.state.trans (slotState_recving (by omega) (by omega))
  have hindex : b.lms.terminalIndex = terminal := by
    rw [h.index, slotIndex, if_pos (by omega)]
    omega
  have hlen : (regs ++ [reg]).length = 3 + terminal := by
    rw [List.length_append, hslot, List.length_singleton]
    omega
  rcases lmsStateMachine_cases hstep with ⟨hne, -⟩ | ⟨hne, -⟩ | ⟨hne, -⟩ | ⟨hne, -⟩ | ⟨-, -, hstore⟩ | ⟨-, hge, -⟩
  case inr.inr.inr.inr.inl =>
    obtain ⟨hout, _, mb, -, -, rfl⟩ := storeReply_cases hstore
    rw [hindex] at hout
    subst hout
    refine ⟨⟨?_, by omega, ?_, h.timer, ?_, ?_, ?_⟩, ⟨by omega, fun t ht _ => ?_, by omega⟩⟩
    · rw [slotState_recving (by omega) (by omega)]
      exact hs
    · simp only [hindex, slotIndex, hlen]
      rw [if_pos (by omega)]
      omega
    · rw [wire_append, h.silent, wire_receive]
      rfl
    · rw [receives_append, h.reads, receives_receive, slotReads_snoc hslot hlt]
    · rw [receives_append, receives_receive, storeReads_snoc, ← h.terminals, ← hindex]
    · obtain rfl : t = terminal := by omega
      exact ⟨rfl, by rw [← hindex]⟩
  case inr.inr.inr.inr.inr => omega
  all_goals simp [hs] at hne

theorem AfterPoll.tick_ending (h : AfterPoll table regs es b) (hlast : regs.length = 34)
    (hstep : lmsStateMachine b reg = some (b', out)) :
    AfterPoll table (regs ++ [reg]) (es ++ out) b' ∧ SlotTick regs.length reg out b b' := by
  have hs : b.lms.state = .recving := h.state.trans (slotState_recving (by omega) (by omega))
  have hindex : b.lms.terminalIndex = 32 := by
    rw [h.index, slotIndex, if_pos (by omega), hlast]
  have hlen : (regs ++ [reg]).length = 35 := by
    rw [List.length_append, hlast, List.length_singleton]
  rcases lmsStateMachine_cases hstep with ⟨hne, -⟩ | ⟨hne, -⟩ | ⟨hne, -⟩ | ⟨hne, -⟩ | ⟨-, hlt, -⟩ | ⟨-, -, rfl, rfl⟩
  case inr.inr.inr.inr.inl => omega
  case inr.inr.inr.inr.inr =>
    rw [List.append_nil]
    refine ⟨⟨?_, by omega, ?_, h.timer, h.silent, ?_, h.terminals⟩,
      ⟨by omega, by omega, fun _ => ⟨rfl, rfl, rfl, rfl, rfl⟩⟩⟩
    · rw [hlen]
      rfl
    · rw [hlen]
      rfl
    · rw [h.reads, slotReads_over (by omega)]
  all_goals simp [hs] at hne

theorem AfterPoll.tick (h : AfterPoll table regs es b) (hround : regs.length < 35)
    (hstep : lmsStateMachine b reg = some (b', out)) :
    AfterPoll table (regs ++ [reg]) (es ++ out) b' ∧ SlotTick regs.length reg out b b' := by
  rcases lt_or_ge regs.length 2 with hwait | hread
  · exact h.tick_waiting hwait hstep
  · rcases lt_or_ge regs.length 34 with hlt | hge
    · exact h.tick_reading (regs.length - 2) (by omega) (by omega) hstep
    · exact h.tick_ending (by omega) hstep

/-- Between the crossings nothing but statements of `build_ctrl_cmd` can happen: the timer is not running. -/
theorem AfterPoll.stmt (h : AfterPoll table regs es b) (cmd : CmdT) (send : SendState)
    (hout : wire out = [] ∧ receives out = []) :
    AfterPoll table regs (es ++ out) { b with lms := { b.lms with cmdInfo := cmd, sendState := send } } := by
  obtain ⟨hsilent, hreads⟩ := hout
  refine ⟨h.state, h.wait, h.index, h.timer, ?_, ?_, ?_⟩
  · rw [wire_append, h.silent, hsilent, List.append_nil]
  · rw [receives_append, hreads, List.append_nil, h.reads]
  · rw [receives_append, hreads, List.append_nil]
    exact h.terminals

end Tick

theorem AfterPoll.start {b b' : Board} {out : List Event} (h : Phase b) (harmed : b.txDelay = true)
    (hpoll : b.lms.sendState = .txSs) (hstep : sendStateMachine (timer0TxDelayStop b) = some (b', out)) :
    out = [.pin .send, .transmit pollByte .tx .send] ∧ AfterPoll b.lms.terminalState [] [] b' := by
  have hs := h.pending harmed
  have hzero := h.terminal_zero (by simp [hs])
  rcases sendStateMachine_cases hstep with ⟨-, rfl, rfl⟩ | ⟨hls, -⟩ | ⟨hls, -⟩
  · exact ⟨by rw [← hs]; rfl, rfl, fun _ => rfl, hzero, rfl, rfl, rfl, rfl⟩
  · simp [hpoll] at hls
  · simp [hpoll] at hls

section Step

variable [DecidableEq ι]

end Step

end LightControlMonitor.Lms
