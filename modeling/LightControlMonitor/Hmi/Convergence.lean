import LightControlMonitor.Hmi.Page

/-!
# The lamp page converges

A cell that does not show the state of its terminal is queued in the mailbox or is read again by the running call. Every step keeps this, except a read that changes a terminal while the mailbox is full: its notification is dropped, and then the cell stays as it is until the terminal changes once more.
-/

namespace LightControlMonitor.Hmi

open Lms (Board Event)
open Transition (Reaches)

variable {ι : Type}

/-- What the cell shows once the mark being drawn is finished. -/
def Page.shown (s : Page ι) (index : Nat) : List Primitive :=
  match s.disp with
  | .mark current loaded _ => if index = current then markOf index loaded else s.cells index
  | _ => s.cells index

structure Fresh (s : Page ι) : Prop where
  waiting : s.firstrun = true → s.disp = .idle
  loading : ∀ index loop, s.disp = .load index loop → s.cells index = []
  marking : ∀ index data loop, s.disp = .mark index data loop → s.cells index = []
  current : s.firstrun = false → ∀ index data, s.world.board.lms.terminalState[index]? = some data →
    index ∈ s.world.board.mb ∨ s.disp.WillRead index ∨ s.shown index = markOf index data

theorem Fresh.initial {s : Page ι} (hinit : s.Initial) : Fresh s := by
  obtain ⟨-, hfirst, hidle⟩ := hinit
  exact ⟨fun _ => hidle, by simp [hidle], by simp [hidle], by simp [hfirst]⟩

/-! ### The display -/

/-- The first call is going to read every terminal. -/
theorem Fresh.start_redraw {s : Page ι} : Fresh { s with firstrun := false, disp := .erase 0 true } := by
  refine ⟨by simp, by simp, by simp, fun _ index data _ => .inr (.inl ?_)⟩
  rcases Nat.eq_zero_or_pos index with hzero | hpos
  · exact .inl hzero
  · exact .inr ⟨rfl, hpos⟩

theorem Fresh.receive {s : Page ι} {index : Nat} {rest : List Nat} (h : Fresh s) (hfirst : s.firstrun = false)
    (hidle : s.disp = .idle) (hmb : s.world.board.mb = index :: rest) :
    Fresh { s with world.board.mb := rest, disp := .erase index false } := by
  refine ⟨by simp [hfirst], by simp, by simp, fun _ terminal data hdata => ?_⟩
  rcases h.current hfirst terminal data hdata with hqueued | hread | hshown
  · rw [hmb] at hqueued
    rcases List.mem_cons.mp hqueued with rfl | hrest
    · exact .inr (.inl (.inl rfl))
    · exact .inl hrest
  · simp [hidle, Disp.WillRead] at hread
  · refine .inr (.inr ?_)
    simpa [Page.shown, hidle] using hshown

theorem Fresh.erase {s : Page ι} {index : Nat} {loop : Bool} (h : Fresh s) (hdisp : s.disp = .erase index loop) :
    Fresh { s with cells := eraseCell s.cells index, disp := .load index loop } := by
  obtain ⟨hwaiting, -, -, hcurrent⟩ := h
  refine ⟨fun hfirst => ?_, ?_, by simp, fun hfirst terminal data hdata => ?_⟩
  · simp [hwaiting hfirst] at hdisp
  · rintro _ _ ⟨⟩
    exact Function.update_self ..
  rcases hcurrent hfirst terminal data hdata with hqueued | hread | hshown
  · exact .inl hqueued
  · rw [hdisp] at hread
    exact .inr (.inl hread)
  · by_cases heq : terminal = index
    · exact .inr (.inl (.inl heq))
    · refine .inr (.inr ?_)
      simp only [Page.shown, hdisp] at hshown
      exact (Function.update_of_ne heq ..).trans hshown

theorem Fresh.load {s : Page ι} {index : Nat} {loaded : UInt8} {loop : Bool} (h : Fresh s)
    (hdisp : s.disp = .load index loop) (hloaded : s.world.board.lms.terminalState[index]? = some loaded) :
    Fresh { s with disp := .mark index loaded loop } := by
  obtain ⟨hwaiting, hloading, -, hcurrent⟩ := h
  refine ⟨fun hfirst => ?_, by simp, ?_, fun hfirst terminal data hdata => ?_⟩
  · simp [hwaiting hfirst] at hdisp
  · rintro _ _ _ ⟨⟩
    exact hloading _ _ hdisp
  by_cases heq : terminal = index
  · subst terminal
    obtain rfl : loaded = data := Option.some.inj (hloaded.symm.trans hdata)
    exact .inr (.inr (if_pos rfl))
  · rcases hcurrent hfirst terminal data hdata with hqueued | hread | hshown
    · exact .inl hqueued
    · rw [hdisp] at hread
      exact .inr (.inl (hread.resolve_left heq))
    · refine .inr (.inr ?_)
      simp only [Page.shown, hdisp] at hshown
      exact (if_neg heq).trans hshown

/-- Drawing the mark leaves every cell as it was going to be. -/
theorem Fresh.drawCell_eq_shown {s : Page ι} {index : Nat} {loaded : UInt8} {loop : Bool} (h : Fresh s)
    (hdisp : s.disp = .mark index loaded loop) (terminal : Nat) :
    drawCell s.cells index loaded terminal = s.shown terminal := by
  simp only [Page.shown, hdisp]
  split
  · rename_i heq
    subst terminal
    rw [drawCell, Function.update_self, h.marking _ _ _ hdisp, List.nil_append]
  · exact Function.update_of_ne ‹_› ..

/-- The loop goes on to the terminals behind `index`. -/
theorem willRead_next {index terminal : Nat} {loaded : UInt8} {loop : Bool}
    (hread : (Disp.mark index loaded loop).WillRead terminal) (hbound : terminal < 32) :
    (if loop ∧ index + 1 < 32 then Disp.erase (index + 1) true else .idle).WillRead terminal := by
  obtain ⟨hloop, hlt⟩ := hread
  rw [if_pos ⟨hloop, by omega⟩]
  rcases Nat.lt_or_ge (index + 1) terminal with hgt | hle
  · exact .inr ⟨rfl, hgt⟩
  · exact .inl (by omega)

theorem Fresh.mark {s : Page ι} {index : Nat} {loaded : UInt8} {loop : Bool} (h : Fresh s)
    (hdisp : s.disp = .mark index loaded loop) :
    Fresh { s with
      cells := drawCell s.cells index loaded
      disp := if loop ∧ index + 1 < 32 then .erase (index + 1) true else .idle } := by
  refine ⟨fun hfirst => ?_, ?_, ?_, fun hfirst terminal data hdata => ?_⟩
  · simp [h.waiting hfirst] at hdisp
  · intro _ _ hload
    dsimp only at hload
    split at hload <;> contradiction
  · intro _ _ _ hmark
    dsimp only at hmark
    split at hmark <;> contradiction
  rcases h.current hfirst terminal data hdata with hqueued | hread | hshown
  · exact .inl hqueued
  · rw [hdisp] at hread
    exact .inr (.inl (willRead_next hread (Vector.getElem?_eq_some_iff.mp hdata).1))
  · refine .inr (.inr (Eq.trans ?_ ((h.drawCell_eq_shown hdisp terminal).trans hshown)))
    unfold Page.shown
    dsimp only
    split
    · rename_i hmark
      split at hmark <;> contradiction
    · rfl

theorem Fresh.disp {s s' : Page ι} (h : Fresh s) (hstep : s.dispStep = some s') : Fresh s' := by
  unfold Page.dispStep at hstep
  split at hstep
  · rename_i hidle
    split at hstep
    · obtain rfl := Option.some.inj hstep
      exact .start_redraw
    · rename_i hfirst
      split at hstep
      · obtain rfl := Option.some.inj hstep
        exact h
      · obtain rfl := Option.some.inj hstep
        exact h.receive (by simpa using hfirst) hidle ‹_›
  · obtain rfl := Option.some.inj hstep
    exact h.erase ‹_›
  · obtain ⟨data, hdata, rfl⟩ := Option.map_eq_some_iff.mp hstep
    exact h.load ‹_› hdata
  · obtain rfl := Option.some.inj hstep
    exact h.mark ‹_›

/-! ### The lamp bus -/

/-- A step that touches neither the terminal table nor the mailbox. -/
theorem Fresh.congr {s : Page ι} {w : Lms.World ι} (h : Fresh s)
    (htable : w.board.lms.terminalState = s.world.board.lms.terminalState) (hmb : w.board.mb = s.world.board.mb) :
    Fresh { s with world := w } := by
  refine ⟨h.waiting, h.loading, h.marking, fun hfirst index data hdata => ?_⟩
  dsimp only at hdata ⊢
  rw [htable] at hdata
  rw [hmb]
  exact h.current hfirst index data hdata

/-- A byte that is read is the old one, or it is queued, read later, or shown already because its mark is that of the old byte. -/
theorem stored_cases {s : Page ι} {mb : List Nat} {reg : Option UInt8} {old : UInt8}
    (hmissed : s.NotMissed (.act (.tick reg))) (hfirst : s.firstrun = false)
    (hstate : s.world.board.lms.state = .recving) (hlt : s.world.board.lms.terminalIndex < 32)
    (hold : s.world.board.lms.terminalState[s.world.board.lms.terminalIndex]? = some old)
    (hmb : mb = if Lms.lmsUartRecvByte reg ≠ old then
      Fifo.offer Lms.mbSize s.world.board.mb s.world.board.lms.terminalIndex else s.world.board.mb) :
    Lms.lmsUartRecvByte reg = old ∨ s.world.board.lms.terminalIndex ∈ mb ∨
      s.disp.WillRead s.world.board.lms.terminalIndex ∨
      markOf s.world.board.lms.terminalIndex (Lms.lmsUartRecvByte reg) =
        markOf s.world.board.lms.terminalIndex old := by
  by_cases hne : Lms.lmsUartRecvByte reg = old
  · exact .inl hne
  · rw [if_pos hne] at hmb
    rcases hmissed hfirst hstate hlt with hroom | hqueued | hread | hmark
    · exact .inr (.inl (hmb ▸ Fifo.mem_offer_self (.inl hroom)))
    · exact .inr (.inl (hmb ▸ Fifo.mem_offer_self (.inr hqueued)))
    · exact .inr (.inr (.inl hread))
    · rw [hold] at hmark
      exact .inr (.inr (.inr (Option.some.inj hmark).symm))

/-- A read sends the index of a terminal that changes, and nothing else changes. -/
theorem Fresh.store {s : Page ι} {b' : Board} {reg : Option UInt8} {out : List Event} (h : Fresh s)
    (hmissed : s.NotMissed (.act (.tick reg))) (hstate : s.world.board.lms.state = .recving)
    (hlt : s.world.board.lms.terminalIndex < 32)
    (hstep : Lms.storeReply s.world.board (Lms.lmsUartRecvByte reg) = some (b', out)) :
    Fresh { s with world.board := b' } := by
  obtain ⟨-, old, mb, hold, hmb, rfl⟩ := Lms.storeReply_cases hstep
  refine ⟨h.waiting, h.loading, h.marking, fun hfirst index data hdata => ?_⟩
  dsimp only at hdata ⊢
  have hkeep : ∀ i, i ∈ s.world.board.mb → i ∈ mb := by
    intro i hi
    rw [hmb]
    split
    · exact Fifo.mem_offer_of_mem hi
    · exact hi
  by_cases heq : index = s.world.board.lms.terminalIndex
  · subst index
    obtain ⟨hbound, -⟩ := Vector.getElem?_eq_some_iff.mp hold
    rw [Vector.getElem?_setIfInBounds_self, if_pos hbound] at hdata
    obtain rfl := Option.some.inj hdata
    have hbefore := h.current hfirst _ old hold
    rcases stored_cases hmissed hfirst hstate hlt hold hmb with hsame | hqueued | hread | hmark
    · rw [hsame]
      exact hbefore.imp_left (hkeep _)
    · exact .inl hqueued
    · exact .inr (.inl hread)
    · rw [hmark]
      exact hbefore.imp_left (hkeep _)
  · rw [Vector.getElem?_setIfInBounds_ne (Ne.symm heq)] at hdata
    exact (h.current hfirst index data hdata).imp_left (hkeep index)

section Step

variable [DecidableEq ι]

theorem Fresh.act {s : Page ι} {a : Lms.Action ι} {w' : Lms.World ι} {out : List Event} (h : Fresh s)
    (hmissed : s.NotMissed (.act a)) (hstep : s.world.step a = some (w', out)) : Fresh { s with world := w' } := by
  cases a with
  | tick reg =>
    obtain ⟨b', hb, rfl⟩ := Lms.step_tick hstep
    rcases Lms.lmsStateMachine_cases hb with ⟨-, -, rfl⟩ | ⟨-, -, rfl⟩ | ⟨-, -, -, rfl⟩ | ⟨-, -, -, rfl⟩ |
      ⟨hs, hlt, hstore⟩ | ⟨-, -, -, rfl⟩
    case inr.inr.inr.inr.inl => exact h.store hmissed hs hlt hstore
    all_goals exact h.congr rfl rfl
  | txDelay =>
    obtain ⟨b', hb, rfl⟩ := Lms.step_txDelay hstep
    rcases Lms.sendStateMachine_cases hb with ⟨-, -, rfl⟩ | ⟨-, -, _, -, -, rfl⟩ | ⟨-, -, -, rfl⟩ <;>
      exact h.congr rfl rfl
  | call i args =>
    obtain ⟨-, rfl⟩ := Lms.step_call hstep
    exact h.congr rfl rfl
  | stmt i =>
    obtain ⟨l, l', lms', -, hexec, rfl⟩ := Lms.step_stmt hstep
    obtain ⟨-, -, cmd, send, rfl⟩ := Lms.Local.exec_frame hexec
    exact h.congr rfl rfl

theorem fresh_of_reaches {as : List (PageAction ι)} {es : List Event} {s : Page ι}
    (hreach : Reaches ((pageSystem ι).restrict Page.NotMissed) as es s) : Fresh s := by
  apply hreach.invariant (fun _ _ s => Fresh s) (fun _ hinit => .initial hinit)
  intro _ _ s a out s' h henabled hstep
  cases a with
  | act a =>
    obtain ⟨⟨w', out'⟩, hw, heq⟩ := Option.map_eq_some_iff.mp hstep
    obtain ⟨rfl, rfl⟩ := Prod.mk.inj heq
    exact h.act henabled.2 hw
  | disp =>
    obtain ⟨s₁, hs, heq⟩ := Option.map_eq_some_iff.mp hstep
    obtain ⟨rfl, rfl⟩ := Prod.mk.inj heq
    exact h.disp hs

/-- While no missed notification is dropped, the page shows every terminal whenever the display has nothing to do. -/
theorem page_converges {as : List (PageAction ι)} {es : List Event} {s : Page ι}
    (hreach : Reaches ((pageSystem ι).restrict Page.NotMissed) as es s) : s.Converged := by
  intro hfirst hidle hmb index data hdata
  have hcurrent := (fresh_of_reaches hreach).current hfirst index data hdata
  simpa [hmb, hidle, Disp.WillRead, Page.shown] using hcurrent

end Step

def Page.start : Page Unit := ⟨Lms.World.start, true, .idle, fun _ => []⟩

theorem Page.start_initial : Page.start.Initial := ⟨Lms.World.start_initial, rfl, rfl⟩

def redraw : List (PageAction Unit) := List.replicate 97 .disp

/-- A poll that starts a round, from the crossing that starts the timer. -/
def pollRound (answers : List (Option UInt8)) : List (PageAction Unit) :=
  [.act (.tick none), .act .txDelay, .act (.tick none), .act (.tick none)] ++
    answers.map (fun reg => .act (.tick reg)) ++ [.act (.tick none)]

/-- The first answer of a round changes terminal 0, and the display shows it. -/
def oneChange : List (PageAction Unit) :=
  redraw ++ [.act (.tick none), .act (.tick none), .act .txDelay, .act (.tick none), .act (.tick none),
    .act (.tick (some 0x00)), .disp, .disp, .disp, .disp]

theorem oneChange_isSome : (((pageSystem Unit).restrict Page.NotMissed).exec Page.start oneChange).isSome := by
  decide +kernel

theorem page_converges_oneChange :
    ((((pageSystem Unit).restrict Page.NotMissed).exec Page.start oneChange).get oneChange_isSome).1.Converged :=
  page_converges (Reaches.of_exec Page.start_initial oneChange_isSome)

/-- All terminals change and the display takes one notification; terminal 5 changes and fills the mailbox again; terminal 0 changes and its notification is dropped; the display takes what is left. -/
def droppedChange : List (PageAction Unit) :=
  redraw ++ [.act (.tick none)] ++ pollRound (List.replicate 32 (some 0x00)) ++ List.replicate 4 .disp ++
    pollRound ((List.replicate 32 (some 0x00)).set 5 (some 0x0b)) ++
    pollRound (((List.replicate 32 (some 0x00)).set 5 (some 0x0b)).set 0 (some 0x0b)) ++ List.replicate 128 .disp

theorem droppedChange_isSome : ((pageSystem Unit).exec Page.start droppedChange).isSome := by
  decide +kernel

theorem not_converged_dropped :
    ¬ ∀ as es (s : Page Unit), Reaches (pageSystem Unit) as es s → s.Converged := by
  intro h
  have hcell := h _ _ _ (Reaches.of_exec Page.start_initial droppedChange_isSome) (by decide +kernel)
    (by decide +kernel) (by decide +kernel) 0 0x0b (by decide +kernel)
  revert hcell
  decide +kernel

end LightControlMonitor.Hmi
