import LightControlMonitor.Lms.Machine

/-!
# The phases of the poll cycle

What one step can do, and the invariant that ties the machine state to the timer, the pin and the terminal index. Nothing here depends on how many threads call `build_ctrl_cmd`: their statements change the command buffer and the send state and nothing else the phases are about.
-/

namespace LightControlMonitor.Lms

variable {ι : Type}

/-! ### What a callback does -/

theorem sendStateMachine_cases {b b' : Board} {out : List Event} (hstep : sendStateMachine b = some (b', out)) :
    (b.lms.sendState = .txSs ∧ out = [.pin .send, .transmit pollByte b.lms.state .send] ∧
      b' = { b with lms.state := .waitrcv, lms.waitToRecvicntLeft := 1, dir := .send }) ∨
    (b.lms.sendState = .txLs ∧ b.lms.cmdInfo.cmdCurrentSendIndex ≤ 2 ∧
      ∃ byte, b.lms.cmdInfo.cmdData[b.lms.cmdInfo.cmdCurrentSendIndex]? = some byte ∧
        out = [.pin .send, .transmit byte b.lms.state .send] ∧
        b' = { b with
          lms.cmdInfo.cmdCurrentSendIndex := b.lms.cmdInfo.cmdCurrentSendIndex + 1, dir := .send }) ∨
    (b.lms.sendState = .txLs ∧ 2 < b.lms.cmdInfo.cmdCurrentSendIndex ∧ out = [] ∧
      b' = { b with
        lms.cmdInfo.cmdCurrentSendIndex := 0, lms.cmdInfo.writeLock := false, lms.sendState := .txSs }) := by
  simp only [sendStateMachine, lmsUartSendByte] at hstep
  split at hstep
  · obtain ⟨rfl, rfl⟩ := Prod.mk.inj (Option.some.inj hstep)
    exact .inl ⟨‹_›, rfl, rfl⟩
  · split at hstep
    · obtain ⟨byte, hbyte, heq⟩ := Option.map_eq_some_iff.mp hstep
      obtain ⟨rfl, rfl⟩ := Prod.mk.inj heq
      exact .inr (.inl ⟨‹_›, ‹_›, byte, hbyte, rfl, rfl⟩)
    · obtain ⟨rfl, rfl⟩ := Prod.mk.inj (Option.some.inj hstep)
      exact .inr (.inr ⟨‹_›, by omega, rfl, rfl⟩)

/-- Storing an unchanged reply is the same as not storing it. -/
theorem storeReply_cases {b b' : Board} {recvdata : UInt8} {out : List Event}
    (hstep : storeReply b recvdata = some (b', out)) :
    out = [.receive b.lms.terminalIndex recvdata] ∧ ∃ old mb,
      b.lms.terminalState[b.lms.terminalIndex]? = some old ∧
      mb = (if recvdata ≠ old then Fifo.offer mbSize b.mb b.lms.terminalIndex else b.mb) ∧
      b' = { b with
        lms.terminalIndex := b.lms.terminalIndex + 1
        lms.terminalState := b.lms.terminalState.setIfInBounds b.lms.terminalIndex recvdata, mb := mb } := by
  obtain ⟨old, hold, heq⟩ := Option.map_eq_some_iff.mp hstep
  obtain ⟨rfl, rfl⟩ := Prod.mk.inj heq
  refine ⟨rfl, old, _, hold, rfl, ?_⟩
  by_cases hsame : recvdata = old
  · have hkeep : b.lms.terminalState.setIfInBounds b.lms.terminalIndex recvdata = b.lms.terminalState := by
      obtain ⟨hlt, hget⟩ := Vector.getElem?_eq_some_iff.mp hold
      ext i hi
      rw [Vector.getElem_setIfInBounds]
      split
      · subst i
        rw [hget, hsame]
      · rfl
    rw [if_neg (not_not.mpr hsame), if_neg (not_not.mpr hsame), hkeep]
  · rw [if_pos hsame, if_pos hsame]

/-- What one zero crossing does, phase by phase. -/
theorem lmsStateMachine_cases {b b' : Board} {reg : Option UInt8} {out : List Event}
    (hstep : lmsStateMachine b reg = some (b', out)) :
    (b.lms.state = .init ∧ out = [.pin .send] ∧ b' = { b with lms.state := .tx, dir := .send }) ∨
    (b.lms.state = .tx ∧ out = [] ∧ b' = { b with txDelay := true }) ∨
    (b.lms.state = .waitrcv ∧ 0 < b.lms.waitToRecvicntLeft ∧ out = [] ∧
      b' = { b with lms.waitToRecvicntLeft := b.lms.waitToRecvicntLeft - 1 }) ∨
    (b.lms.state = .waitrcv ∧ b.lms.waitToRecvicntLeft = 0 ∧ out = [.pin .recv] ∧
      b' = { b with lms.state := .recving, dir := .recv }) ∨
    (b.lms.state = .recving ∧ b.lms.terminalIndex < 32 ∧ storeReply b (lmsUartRecvByte reg) = some (b', out)) ∨
    (b.lms.state = .recving ∧ 32 ≤ b.lms.terminalIndex ∧ out = [] ∧
      b' = { b with lms.terminalIndex := 0, lms.pollingCompleteFlag := true, lms.state := .tx }) := by
  simp only [lmsStateMachine, timer0TxDelayStart] at hstep
  split at hstep
  · obtain ⟨rfl, rfl⟩ := Prod.mk.inj (Option.some.inj hstep)
    exact .inl ⟨‹_›, rfl, rfl⟩
  · obtain ⟨rfl, rfl⟩ := Prod.mk.inj (Option.some.inj hstep)
    exact .inr (.inl ⟨‹_›, rfl, rfl⟩)
  · split at hstep <;> obtain ⟨rfl, rfl⟩ := Prod.mk.inj (Option.some.inj hstep)
    · exact .inr (.inr (.inl ⟨‹_›, ‹_›, rfl, rfl⟩))
    · exact .inr (.inr (.inr (.inl ⟨‹_›, by omega, rfl, rfl⟩)))
  · split at hstep
    · exact .inr (.inr (.inr (.inr (.inl ⟨‹_›, ‹_›, hstep⟩))))
    · obtain ⟨rfl, rfl⟩ := Prod.mk.inj (Option.some.inj hstep)
      exact .inr (.inr (.inr (.inr (.inr ⟨‹_›, Nat.not_lt.mp ‹_›, rfl, rfl⟩))))

/-- A statement of `build_ctrl_cmd` touches the command buffer and the send state only, and its one output is the acceptance of its own call. -/
theorem Local.exec_frame {l : Local} {l' : Option Local} {lms lms' : LmsT} {out : List Event}
    (hstep : l.exec lms = some (l', lms', out)) :
    (out = [] ∨ out = [.accept l.call]) ∧ (∀ m, l' = some m → m.call = l.call) ∧
      ∃ cmd send, lms' = { lms with cmdInfo := cmd, sendState := send } := by
  unfold Local.exec at hstep
  split at hstep
  case h_1 =>
    split at hstep <;> simp only [Option.some.injEq, Prod.mk.injEq] at hstep <;> obtain ⟨rfl, rfl, rfl⟩ := hstep
    · exact ⟨.inl rfl, by simp, _, _, rfl⟩
    · exact ⟨.inr rfl, by simp, _, _, rfl⟩
  case h_8 =>
    obtain ⟨sync, -, heq⟩ := Option.map_eq_some_iff.mp hstep
    simp only [Prod.mk.injEq] at heq
    obtain ⟨rfl, rfl, rfl⟩ := heq
    exact ⟨.inl rfl, by simp, _, _, rfl⟩
  all_goals
    simp only [Option.some.injEq, Prod.mk.injEq] at hstep
    obtain ⟨rfl, rfl, rfl⟩ := hstep
    exact ⟨.inl rfl, by simp, _, _, rfl⟩

/-! ### What a step of the system does -/

section Step

variable [DecidableEq ι]

theorem step_tick {w w' : World ι} {reg : Option UInt8} {out : List Event}
    (hstep : w.step (.tick reg) = some (w', out)) :
    ∃ b', lmsStateMachine w.board reg = some (b', out) ∧ w' = { w with board := b' } := by
  obtain ⟨⟨b', out'⟩, hb, heq⟩ := Option.map_eq_some_iff.mp hstep
  obtain ⟨rfl, rfl⟩ := Prod.mk.inj heq
  exact ⟨b', hb, rfl⟩

theorem step_txDelay {w w' : World ι} {out : List Event} (hstep : w.step .txDelay = some (w', out)) :
    ∃ b', sendStateMachine (timer0TxDelayStop w.board) = some (b', out) ∧ w' = { w with board := b' } := by
  obtain ⟨⟨b', out'⟩, hb, heq⟩ := Option.map_eq_some_iff.mp hstep
  obtain ⟨rfl, rfl⟩ := Prod.mk.inj heq
  exact ⟨b', hb, rfl⟩

theorem step_call {w w' : World ι} {i : ι} {args : Call} {out : List Event}
    (hstep : w.step (.call i args) = some (w', out)) :
    out = [] ∧ w' = { w with threads := Function.update w.threads i (some ⟨args, 0, 0, .testLock⟩) } := by
  obtain ⟨rfl, rfl⟩ := Prod.mk.inj (Option.some.inj hstep)
  exact ⟨rfl, rfl⟩

theorem step_stmt {w w' : World ι} {i : ι} {out : List Event} (hstep : w.step (.stmt i) = some (w', out)) :
    ∃ l l' lms', w.threads i = some l ∧ l.exec w.board.lms = some (l', lms', out) ∧
      w' = ⟨{ w.board with lms := lms' }, Function.update w.threads i l'⟩ := by
  obtain ⟨l, hl, hrest⟩ := Option.bind_eq_some_iff.mp hstep
  obtain ⟨⟨l', lms', out'⟩, hexec, heq⟩ := Option.map_eq_some_iff.mp hrest
  obtain ⟨rfl, rfl⟩ := Prod.mk.inj heq
  exact ⟨l, l', lms', hl, hexec, rfl⟩

end Step

/-! ### The phase invariant -/

structure Phase (b : Board) : Prop where
  pending : b.txDelay = true → b.lms.state = .tx
  listening : b.lms.state = .recving → b.dir = .recv
  terminal_le : b.lms.terminalIndex ≤ 32
  terminal_zero : b.lms.state ≠ .recving → b.lms.terminalIndex = 0

theorem Phase.tick {b b' : Board} {reg : Option UInt8} {out : List Event} (h : Phase b)
    (hstep : lmsStateMachine b reg = some (b', out)) : Phase b' := by
  obtain ⟨hpending, hlistening, hle, hzero⟩ := h
  rcases lmsStateMachine_cases hstep with ⟨hs, -, rfl⟩ | ⟨hs, -, rfl⟩ | ⟨hs, -, -, rfl⟩ | ⟨hs, -, -, rfl⟩ |
    ⟨hs, hlt, hstore⟩ | ⟨hs, -, -, rfl⟩
  · exact ⟨fun _ => rfl, by simp, hle, fun _ => hzero (by simp [hs])⟩
  · exact ⟨fun _ => hs, hlistening, hle, hzero⟩
  · exact ⟨hpending, hlistening, hle, hzero⟩
  · exact ⟨fun hp => by simp [hs] at hpending; simp [hpending] at hp, fun _ => rfl, hle, by simp⟩
  · obtain ⟨-, _, mb, -, -, rfl⟩ := storeReply_cases hstore
    exact ⟨hpending, hlistening, hlt, fun hne => absurd hs hne⟩
  · exact ⟨fun _ => rfl, by simp, by simp, fun _ => rfl⟩

/-- The timer callback runs with the timer stopped, and it was armed in `STATE_TX`. -/
theorem Phase.txDelay {b b' : Board} {out : List Event} (h : Phase b) (harmed : b.txDelay = true)
    (hstep : sendStateMachine (timer0TxDelayStop b) = some (b', out)) : Phase b' := by
  have hs := h.pending harmed
  have hzero := h.terminal_zero (by simp [hs])
  rcases sendStateMachine_cases hstep with ⟨-, -, rfl⟩ | ⟨-, -, _, -, -, rfl⟩ | ⟨-, -, -, rfl⟩
  · exact ⟨by simp, by simp, h.terminal_le, fun _ => hzero⟩
  · exact ⟨by simp, by simp [hs], h.terminal_le, fun _ => hzero⟩
  · exact ⟨by simp, by simp [hs], h.terminal_le, fun _ => hzero⟩

theorem Phase.stmt {b : Board} (h : Phase b) (cmd : CmdT) (send : SendState) :
    Phase { b with lms := { b.lms with cmdInfo := cmd, sendState := send } } :=
  ⟨h.pending, h.listening, h.terminal_le, h.terminal_zero⟩

theorem Phase.step [DecidableEq ι] {w w' : World ι} {a : Action ι} {out : List Event} (h : Phase w.board)
    (henabled : Enabled w a) (hstep : w.step a = some (w', out)) : Phase w'.board := by
  cases a with
  | tick reg =>
    obtain ⟨b', hb, rfl⟩ := step_tick hstep
    exact h.tick hb
  | txDelay =>
    obtain ⟨b', hb, rfl⟩ := step_txDelay hstep
    exact h.txDelay henabled hb
  | call i args =>
    obtain ⟨-, rfl⟩ := step_call hstep
    exact h
  | stmt i =>
    obtain ⟨l, l', lms', -, hexec, rfl⟩ := step_stmt hstep
    obtain ⟨-, -, cmd, send, rfl⟩ := Local.exec_frame hexec
    exact h.stmt cmd send

theorem Phase.initial {w : World ι} (hinit : w.Initial) : Phase w.board := by
  obtain ⟨hlms, htimer, -, -⟩ := hinit
  exact ⟨by simp [htimer], by simp [hlms, lmsInit], by simp [hlms, lmsInit], fun _ => by simp [hlms, lmsInit]⟩

end LightControlMonitor.Lms
