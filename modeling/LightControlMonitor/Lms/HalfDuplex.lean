import LightControlMonitor.Lms.Delivery

/-!
# The direction of the lamp bus

The transceiver has one direction pin for both ways. The history of the pin and of the reads says when a round of replies is cut short, and the invariant of this module rules that out together with every access outside an array.
-/

namespace LightControlMonitor.Lms

open Transition (Reaches)

variable {ι : Type}

/-! ### The reads of a round -/

/-- The terminals read since the pin was last switched to receive mode; `none` outside receive mode. -/
def roundReads (es : List Event) : Option (List Nat) :=
  es.foldl (fun reads e =>
    match e with
    | .pin .recv => some []
    | .pin .send => none
    | .receive terminal _ => reads.map (· ++ [terminal])
    | _ => reads) none

@[simp] theorem roundReads_recv (es : List Event) : roundReads (es ++ [.pin .recv]) = some [] := by
  simp [roundReads]

@[simp] theorem roundReads_send (es : List Event) : roundReads (es ++ [.pin .send]) = none := by
  simp [roundReads]

@[simp] theorem roundReads_transmit (es : List Event) (byte : UInt8) (state : LmsState) (dir : Dir) :
    roundReads (es ++ [.pin .send, .transmit byte state dir]) = none := by
  simp [roundReads]

@[simp] theorem roundReads_receive (es : List Event) (terminal : Nat) (byte : UInt8) :
    roundReads (es ++ [.receive terminal byte]) = (roundReads es).map (· ++ [terminal]) := by
  simp [roundReads]

@[simp] theorem roundReads_accept (es : List Event) (call : Call) :
    roundReads (es ++ [.accept call]) = roundReads es := by
  simp [roundReads]

/-- No round is open, or it has read all the terminals. -/
def RoundOver (es : List Event) : Prop := roundReads es = none ∨ roundReads es = some (List.range 32)

/-- The pin is never switched to send mode in the middle of a round. -/
def RoundsComplete (es : List Event) : Prop :=
  ∀ before after, es = before ++ .pin .send :: after → RoundOver before

theorem RoundsComplete.snoc {es : List Event} {e : Event} (h : RoundsComplete es) (he : e = .pin .send → RoundOver es) :
    RoundsComplete (es ++ [e]) := by
  intro before after heq
  rcases List.eq_nil_or_concat after with rfl | ⟨after, last, rfl⟩
  · obtain ⟨rfl, hlast⟩ := List.append_inj' heq rfl
    exact he (List.singleton_inj.mp hlast)
  · rw [List.concat_eq_append, ← List.cons_append, ← List.append_assoc] at heq
    exact h before after (List.append_inj' heq rfl).1

/-- How far the current round is, phase by phase. -/
def Round (es : List Event) (b : Board) : Prop :=
  match b.lms.state with
  | .recving => roundReads es = some (List.range b.lms.terminalIndex)
  | .tx => RoundOver es
  | _ => roundReads es = none

/-! ### The invariant -/

structure HalfDuplex (es : List Event) (w : World ι) : Prop extends Phase w.board where
  transmits : ∀ byte state dir, .transmit byte state dir ∈ es → state = .tx ∧ dir = .send
  reads : ∀ terminal byte, .receive terminal byte ∈ es → terminal < 32
  rounds : RoundsComplete es
  round : Round es w.board
  groups : ∀ i l, w.threads i = some l → l.call.groupId < 8

theorem HalfDuplex.initial {w : World ι} (hinit : w.Initial) : HalfDuplex [] w where
  toPhase := .initial hinit
  transmits := by simp
  reads := by simp
  rounds := by simp [RoundsComplete]
  round := by simp [Round, hinit.1, lmsInit, roundReads]
  groups := by simp [hinit.2.2.2]

/-- A step that sends and reads nothing and leaves the threads alone. -/
theorem HalfDuplex.quiet {es : List Event} {w : World ι} {b : Board} (h : HalfDuplex es w) (hphase : Phase b)
    (hround : Round es b) : HalfDuplex (es ++ []) { w with board := b } := by
  rw [List.append_nil]
  exact ⟨hphase, h.transmits, h.reads, h.rounds, hround, h.groups⟩

/-- A step that switches the pin and nothing else. -/
theorem HalfDuplex.pin {es : List Event} {w : World ι} {b : Board} {dir : Dir} (h : HalfDuplex es w) (hphase : Phase b)
    (hover : dir = .send → RoundOver es) (hround : Round (es ++ [Event.pin dir]) b) :
    HalfDuplex (es ++ [Event.pin dir]) { w with board := b } where
  toPhase := hphase
  transmits := by simpa using h.transmits
  reads := by simpa using h.reads
  rounds := h.rounds.snoc (by simpa using hover)
  round := hround
  groups := h.groups

theorem HalfDuplex.tick {es out : List Event} {w : World ι} {b : Board} {reg : Option UInt8} (h : HalfDuplex es w)
    (hstep : lmsStateMachine w.board reg = some (b, out)) : HalfDuplex (es ++ out) { w with board := b } := by
  have hphase := h.toPhase.tick hstep
  have hround := h.round
  rw [Round] at hround
  rcases lmsStateMachine_cases hstep with ⟨hs, rfl, rfl⟩ | ⟨hs, rfl, rfl⟩ | ⟨hs, -, rfl, rfl⟩ | ⟨hs, -, rfl, rfl⟩ |
    ⟨hs, hlt, hstore⟩ | ⟨hs, hge, rfl, rfl⟩ <;> rw [hs] at hround
  · exact h.pin hphase (fun _ => .inl hround) (.inl (roundReads_send es))
  · exact h.quiet hphase (by rw [Round, hs]; exact hround)
  · exact h.quiet hphase (by rw [Round, hs]; exact hround)
  · have hzero := h.terminal_zero (by simp [hs])
    exact h.pin hphase (by simp) (by simp [Round, hzero])
  · obtain ⟨rfl, _, mb, -, -, rfl⟩ := storeReply_cases hstore
    refine ⟨hphase, by simpa using h.transmits, ?_, h.rounds.snoc (by simp), ?_, h.groups⟩
    · intro terminal byte hmem
      rcases List.mem_append.mp hmem with hold | hnew
      · exact h.reads terminal byte hold
      · simp only [List.mem_singleton, Event.receive.injEq] at hnew
        exact hnew.1 ▸ hlt
    · simp only [Round, hs]
      rw [roundReads_receive, hround, Option.map_some, ← List.range_succ]
  · have hall : w.board.lms.terminalIndex = 32 := Nat.le_antisymm h.terminal_le hge
    rw [hall] at hround
    exact h.quiet hphase (.inr hround)

theorem HalfDuplex.txDelay {es out : List Event} {w : World ι} {b : Board} (h : HalfDuplex es w)
    (harmed : w.board.txDelay = true) (hstep : sendStateMachine (timer0TxDelayStop w.board) = some (b, out)) :
    HalfDuplex (es ++ out) { w with board := b } := by
  have hphase := h.toPhase.txDelay harmed hstep
  have hs := h.pending harmed
  have hover : RoundOver es := by
    have hround := h.round
    rwa [Round, hs] at hround
  -- a byte on the wire, sent in `STATE_TX` after the round is over
  have hsent : ∀ byte b', Phase b' → b'.lms.state ≠ .recving →
      HalfDuplex (es ++ [.pin .send, .transmit byte w.board.lms.state .send]) { w with board := b' } := by
    intro byte b' hphase' hne
    refine ⟨hphase', ?_, by simpa using h.reads, ?_, ?_, h.groups⟩
    · intro byte' state dir hmem
      rcases List.mem_append.mp hmem with hold | hnew
      · exact h.transmits byte' state dir hold
      · simp only [List.mem_cons, reduceCtorEq, Event.transmit.injEq, List.not_mem_nil, or_false, false_or] at hnew
        exact ⟨hnew.2.1.trans hs, hnew.2.2⟩
    · rw [List.append_cons]
      exact (h.rounds.snoc fun _ => hover).snoc (by simp)
    · have hnone := roundReads_transmit es byte w.board.lms.state .send
      unfold Round
      split
      · exact absurd ‹_› hne
      · exact .inl hnone
      · exact hnone
  rcases sendStateMachine_cases hstep with ⟨-, rfl, rfl⟩ | ⟨-, -, byte, -, rfl, rfl⟩ | ⟨-, -, rfl, rfl⟩
  · exact hsent _ _ hphase (by simp)
  · exact hsent _ _ hphase (by simp [hs])
  · exact h.quiet hphase (by simpa [Round, hs] using hover)

section Step

variable [DecidableEq ι]

theorem HalfDuplex.update {es : List Event} {w : World ι} {i : ι} {t : Option Local} (h : HalfDuplex es w)
    (ht : ∀ l, t = some l → l.call.groupId < 8) : HalfDuplex es ⟨w.board, Function.update w.threads i t⟩ := by
  refine ⟨h.toPhase, h.transmits, h.reads, h.rounds, h.round, fun j l hl => ?_⟩
  by_cases heq : j = i
  · subst j
    exact ht l (by simpa using hl)
  · exact h.groups j l (by simpa [Function.update_of_ne heq] using hl)

theorem HalfDuplex.step {es out : List Event} {w w' : World ι} {a : Action ι} (h : HalfDuplex es w)
    (henabled : Enabled w a) (hstep : w.step a = some (w', out)) : HalfDuplex (es ++ out) w' := by
  cases a with
  | tick reg =>
    obtain ⟨b', hb, rfl⟩ := step_tick hstep
    exact h.tick hb
  | txDelay =>
    obtain ⟨b', hb, rfl⟩ := step_txDelay hstep
    exact h.txDelay henabled hb
  | call i args =>
    obtain ⟨rfl, rfl⟩ := step_call hstep
    rw [List.append_nil]
    exact h.update (by simpa using henabled.2)
  | stmt i =>
    obtain ⟨l, l', lms', hl, hexec, rfl⟩ := step_stmt hstep
    obtain ⟨hout, hcall, cmd, send, rfl⟩ := Local.exec_frame hexec
    have hgroup : ∀ m, l' = some m → m.call.groupId < 8 := fun m hm => by
      rw [hcall m hm]
      exact h.groups i l hl
    refine HalfDuplex.update (w := { w with board := _ }) ?_ hgroup
    rcases hout with rfl | rfl
    · exact h.quiet (h.toPhase.stmt cmd send) h.round
    · exact ⟨h.toPhase.stmt cmd send, by simpa using h.transmits, by simpa using h.reads,
        h.rounds.snoc (by simp), by simpa [Round, RoundOver] using h.round, h.groups⟩

theorem halfDuplex_of_reaches {as : List (Action ι)} {es : List Event} {w : World ι}
    (hreach : Reaches (system ι) as es w) : HalfDuplex es w :=
  hreach.invariant (fun _ es w => HalfDuplex es w) (fun _ hinit => .initial hinit)
    (fun h henabled hstep => h.step henabled hstep)

/-! ### No access outside an array -/

theorem lmsStateMachine_isSome (b : Board) (reg : Option UInt8) : (lmsStateMachine b reg).isSome := by
  unfold lmsStateMachine
  split
  · rfl
  · rfl
  · split <;> rfl
  · split
    · rename_i hlt
      have hread : b.lms.terminalState[b.lms.terminalIndex]? = some _ := Vector.getElem?_eq_getElem hlt
      simp [storeReply, hread]
    · rfl

theorem sendStateMachine_isSome (b : Board) : (sendStateMachine b).isSome := by
  unfold sendStateMachine
  split
  · rfl
  · dsimp only
    split
    · rename_i hle
      have hread : b.lms.cmdInfo.cmdData[b.lms.cmdInfo.cmdCurrentSendIndex]? = some _ :=
        Vector.getElem?_eq_getElem (Nat.lt_succ_of_le hle)
      simp [hread]
    · rfl

theorem Local.exec_isSome {l : Local} (hgroup : l.call.groupId < 8) (lms : LmsT) : (l.exec lms).isSome := by
  unfold Local.exec
  split
  case h_1 => split <;> rfl
  case h_8 =>
    obtain ⟨sync, hsync⟩ := genSyncFrame_of_lt hgroup
    simp [hsync]
  all_goals rfl

theorem HalfDuplex.step_isSome {es : List Event} {w : World ι} {a : Action ι} (h : HalfDuplex es w)
    (henabled : Enabled w a) : (w.step a).isSome := by
  cases a with
  | tick reg => simpa [World.step] using lmsStateMachine_isSome w.board reg
  | txDelay => simpa [World.step, timer0TxDelayCb] using sendStateMachine_isSome (timer0TxDelayStop w.board)
  | call i args => rfl
  | stmt i =>
    obtain ⟨l, hl⟩ := Option.isSome_iff_exists.mp henabled
    simpa [World.step, hl] using Local.exec_isSome (h.groups i l hl) w.board.lms

end Step

/-- In every reachable state the bus is half duplex, the sender owns a completely built frame, and no action leaves an array. -/
theorem half_duplex_and_bounds {as : List (Action Unit)} {es : List Event} {w : World Unit}
    (hreach : Reaches (system Unit) as es w) :
    HalfDuplex es w ∧ (w.board.lms.sendState = .txLs → w.board.lms.cmdInfo.Built) ∧
      ∀ a, Enabled w a → (w.step a).isSome := by
  have hduplex := halfDuplex_of_reaches hreach
  refine ⟨hduplex, fun hls => ?_, fun a => hduplex.step_isSome⟩
  obtain ⟨items, howner⟩ := owner_of_reaches (hreach.restrict fun s a _ => alone_of_subsingleton s a)
  cases howner with
  | free hss => simp [hss] at hls
  | filling _ _ hss => simp [hss] at hls
  | sending _ _ hbuilt => exact hbuilt

/-- A poll and its round of replies. -/
def onePoll : List (Action Unit) :=
  [.tick none, .tick none, .txDelay] ++ List.replicate 35 (.tick (some 0x10))

theorem onePoll_isSome : ((system Unit).exec World.start onePoll).isSome := by
  decide +kernel

theorem half_duplex_onePoll :
    HalfDuplex (((system Unit).exec World.start onePoll).get onePoll_isSome).2
      (((system Unit).exec World.start onePoll).get onePoll_isSome).1 :=
  (half_duplex_and_bounds (Reaches.of_exec World.start_initial onePoll_isSome)).1

end LightControlMonitor.Lms
