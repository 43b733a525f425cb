import LightControlMonitor.Lms.PollRound

/-!
# The replies and their slots

The receiver of the lamp bus: a register of one byte, which a crossing empties only when it reads a terminal. The ghost field `slot` is what arrived since the last crossing, so it is the byte a read should credit.

A byte that arrives in receive mode but not in one of the 32 slots of a round is never discarded. It waits in the register for the next round and is credited to terminal 0, and the byte of that terminal is lost.
-/

namespace LightControlMonitor.Lms

open Transition (Reaches Run)

variable {ι : Type}

structure Line (ι : Type) where
  world : World ι
  reg : Option UInt8
  slot : Option UInt8

inductive LineAction (ι : Type)
  | arrive (byte : UInt8)
  | act (a : Action ι)

/-- At most one byte arrives between two crossings, in receive mode only, and a crossing finds the register as it is. -/
def Line.Enabled (line : Line ι) : LineAction ι → Prop
  | .arrive _ => line.world.board.dir = .recv ∧ line.slot = none
  | .act (.tick reg) => reg = line.reg
  | .act a => Lms.Enabled line.world a

instance (line : Line ι) : (a : LineAction ι) → Decidable (line.Enabled a)
  | .arrive _ => inferInstanceAs (Decidable (line.world.board.dir = .recv ∧ line.slot = none))
  | .act (.tick reg) => inferInstanceAs (Decidable (reg = line.reg))
  | .act .txDelay => inferInstanceAs (Decidable (Lms.Enabled line.world .txDelay))
  | .act (.call i args) => inferInstanceAs (Decidable (Lms.Enabled line.world (.call i args)))
  | .act (.stmt i) => inferInstanceAs (Decidable (Lms.Enabled line.world (.stmt i)))

/-- The register after a step of the program: a read empties it. -/
def regAfter (reg : Option UInt8) (out : List Event) : Option UInt8 :=
  if receives out = [] then reg else none

def slotAfter (slot : Option UInt8) : Action ι → Option UInt8
  | .tick _ => none
  | _ => slot

def Line.Initial (line : Line ι) : Prop := line.world.Initial ∧ line.reg = none ∧ line.slot = none

theorem Line.enabled_act {line : Line ι} {a : Action ι} (henabled : line.Enabled (.act a)) :
    Lms.Enabled line.world a := by
  cases a with
  | tick reg => trivial
  | _ => exact henabled

section System

variable [DecidableEq ι]

def Line.step (line : Line ι) : LineAction ι → Option (Line ι × List Event)
  | .arrive byte => some ({ line with reg := line.reg.or (some byte), slot := some byte }, [])
  | .act a => (line.world.step a).map fun r => (⟨r.1, regAfter line.reg r.2, slotAfter line.slot a⟩, r.2)

variable (ι)

def lineSystem : Transition.System (Line ι) (LineAction ι) Event where
  init := Line.Initial
  enabled := Line.Enabled
  step := Line.step

instance (line : Line ι) (a : LineAction ι) : Decidable ((lineSystem ι).enabled line a) :=
  inferInstanceAs (Decidable (line.Enabled a))

variable {ι}

/-- If the next crossing reads a terminal, it stores the byte that arrived since the last crossing, and `0xff` if none did. -/
def Credited (line : Line ι) : Prop :=
  ∀ line' out terminal byte, line.step (.act (.tick line.reg)) = some (line', out) → .receive terminal byte ∈ out →
    line'.world.board.lms.terminalState[terminal]? = some (line.slot.getD 0xff)

/-- The byte arrives while the machine is about to read one of the 32 terminals. -/
def InSlot (line : Line ι) : LineAction ι → Prop
  | .arrive _ => line.world.board.lms.state = .recving ∧ line.world.board.lms.terminalIndex < 32
  | .act _ => True

theorem Line.step_act {line line' : Line ι} {a : Action ι} {out : List Event}
    (hstep : line.step (.act a) = some (line', out)) :
    ∃ w', line.world.step a = some (w', out) ∧ line' = ⟨w', regAfter line.reg out, slotAfter line.slot a⟩ := by
  obtain ⟨⟨w', out'⟩, hw, heq⟩ := Option.map_eq_some_iff.mp hstep
  obtain ⟨rfl, rfl⟩ := Prod.mk.inj heq
  exact ⟨w', hw, rfl⟩

/-! ### A read credits the register -/

/-- The crossings that read are those of an unfinished round. -/
theorem lmsStateMachine_receives {b b' : Board} {reg : Option UInt8} {out : List Event}
    (hstep : lmsStateMachine b reg = some (b', out)) :
    (b.lms.state = .recving ∧ b.lms.terminalIndex < 32 ∧ out = [.receive b.lms.terminalIndex (lmsUartRecvByte reg)] ∧
      b'.lms.terminalState[b.lms.terminalIndex]? = some (lmsUartRecvByte reg)) ∨
    (¬ (b.lms.state = .recving ∧ b.lms.terminalIndex < 32) ∧ ∀ terminal byte, .receive terminal byte ∉ out) := by
  rcases lmsStateMachine_cases hstep with ⟨hs, rfl, -⟩ | ⟨hs, rfl, -⟩ | ⟨hs, -, rfl, -⟩ | ⟨hs, -, rfl, -⟩ |
    ⟨hs, hlt, hstore⟩ | ⟨-, hge, rfl, -⟩
  case inr.inr.inr.inr.inl =>
    obtain ⟨hout, _, mb, -, -, rfl⟩ := storeReply_cases hstore
    refine .inl ⟨hs, hlt, hout, ?_⟩
    simp only [Vector.getElem?_setIfInBounds_self, hlt, if_true]
  case inr.inr.inr.inr.inr => exact .inr ⟨fun h => absurd h.2 (by omega), by simp⟩
  all_goals exact .inr ⟨by simp [hs], by simp⟩

/-- At a crossing that reads, the answer is credited exactly if the register and the slot agree. -/
theorem credited_iff {line : Line ι} (hstate : line.world.board.lms.state = .recving)
    (hlt : line.world.board.lms.terminalIndex < 32) :
    Credited line ↔ line.reg.getD 0xff = line.slot.getD 0xff := by
  obtain ⟨⟨b', out⟩, hb⟩ := Option.isSome_iff_exists.mp (lmsStateMachine_isSome line.world.board line.reg)
  have hstep : line.step (.act (.tick line.reg)) =
      some (⟨{ line.world with board := b' }, regAfter line.reg out, none⟩, out) := by
    simp [Line.step, World.step, hb, slotAfter]
  rcases lmsStateMachine_receives hb with ⟨-, -, hout, hstored⟩ | ⟨hnot, -⟩
  · constructor
    · intro h
      have hcredit := h _ _ _ _ hstep (hout ▸ List.mem_singleton_self _)
      rw [hstored] at hcredit
      exact Option.some.inj hcredit
    · intro hsame line' out' terminal byte hstep' hmem
      obtain ⟨rfl, rfl⟩ := Prod.mk.inj (Option.some.inj (hstep.symm.trans hstep'))
      rw [hout, List.mem_singleton, Event.receive.injEq] at hmem
      rw [hmem.1, hstored, lmsUartRecvByte, hsame]
  · exact absurd ⟨hstate, hlt⟩ hnot

theorem credited_of_not_reading {line : Line ι}
    (hnot : ¬ (line.world.board.lms.state = .recving ∧ line.world.board.lms.terminalIndex < 32)) : Credited line := by
  intro line' out terminal byte hstep hmem
  obtain ⟨w', hw, -⟩ := Line.step_act hstep
  obtain ⟨b', hb, -⟩ := step_tick hw
  rcases lmsStateMachine_receives hb with ⟨hs, hlt, -⟩ | ⟨-, hnone⟩
  · exact absurd ⟨hs, hlt⟩ hnot
  · exact absurd hmem (hnone terminal byte)

/-! ### Punctual answers -/

/-- The register holds what arrived in the open slot and nothing else. -/
structure Punctual (line : Line ι) : Prop where
  phase : Phase line.world.board
  same : line.reg = line.slot
  reading : line.slot ≠ none → line.world.board.lms.state = .recving ∧ line.world.board.lms.terminalIndex < 32

omit [DecidableEq ι] in
theorem Punctual.initial {line : Line ι} (hinit : line.Initial) : Punctual line := by
  obtain ⟨hworld, hreg, hslot⟩ := hinit
  exact ⟨.initial hworld, hreg.trans hslot.symm, fun hne => absurd hslot hne⟩

omit [DecidableEq ι] in
theorem Punctual.arrive {line : Line ι} {byte : UInt8} (h : Punctual line) (henabled : line.Enabled (.arrive byte))
    (hslot : InSlot line (.arrive byte)) :
    Punctual { line with reg := line.reg.or (some byte), slot := some byte } := by
  refine ⟨h.phase, ?_, fun _ => hslot⟩
  simp [h.same, henabled.2]

omit [DecidableEq ι] in
/-- A crossing with a byte in the slot reads it, so the register is empty behind every crossing. -/
theorem Punctual.regAfter_tick {line : Line ι} {b' : Board} {out : List Event} (h : Punctual line)
    (hstep : lmsStateMachine line.world.board line.reg = some (b', out)) : regAfter line.reg out = none := by
  rcases lmsStateMachine_receives hstep with ⟨-, -, rfl, -⟩ | ⟨hnot, -⟩
  · simp [regAfter]
  · have hnone : line.slot = none := not_not.mp fun hne => hnot (h.reading hne)
    simp [regAfter, h.same, hnone]

theorem Punctual.act {line line' : Line ι} {a : Action ι} {out : List Event} (h : Punctual line)
    (henabled : line.Enabled (.act a)) (hstep : line.step (.act a) = some (line', out)) : Punctual line' := by
  obtain ⟨w', hw, rfl⟩ := Line.step_act hstep
  have hphase := h.phase.step (Line.enabled_act henabled) hw
  cases a with
  | tick reg =>
    obtain rfl : reg = line.reg := henabled
    obtain ⟨b', hb, rfl⟩ := step_tick hw
    exact ⟨hphase, h.regAfter_tick hb, by simp [slotAfter]⟩
  | txDelay =>
    -- the timer runs in `STATE_TX` only, when no slot is open
    have hs := h.phase.pending (henabled : line.world.board.txDelay = true)
    have hnone : line.slot = none := not_not.mp fun hne => by simpa [hs] using (h.reading hne).1
    refine ⟨hphase, ?_, fun hne => absurd hnone hne⟩
    simp [regAfter, slotAfter, h.same, hnone]
  | call i args =>
    obtain ⟨rfl, rfl⟩ := step_call hw
    exact ⟨hphase, h.same, h.reading⟩
  | stmt i =>
    obtain ⟨l, l', lms', -, hexec, rfl⟩ := step_stmt hw
    obtain ⟨hout, -, cmd, send, rfl⟩ := Local.exec_frame hexec
    refine ⟨hphase, ?_, h.reading⟩
    rcases hout with rfl | rfl <;> exact h.same

theorem punctual_of_reaches {as : List (LineAction ι)} {es : List Event} {line : Line ι}
    (hreach : Reaches ((lineSystem ι).restrict InSlot) as es line) : Punctual line := by
  apply hreach.invariant (fun _ _ line => Punctual line) (fun _ hinit => .initial hinit)
  intro _ _ line a out line' h henabled hstep
  cases a with
  | arrive byte =>
    obtain ⟨rfl, -⟩ := Prod.mk.inj (Option.some.inj hstep)
    exact h.arrive henabled.1 henabled.2
  | act a => exact h.act henabled.1 hstep

/-- While every byte arrives in one of the 32 slots of a round, every answer is credited to the terminal of its slot. -/
theorem replies_credited {as : List (LineAction ι)} {es : List Event} {line : Line ι}
    (hreach : Reaches ((lineSystem ι).restrict InSlot) as es line) : Credited line := by
  have h := punctual_of_reaches hreach
  by_cases hreading : line.world.board.lms.state = .recving ∧ line.world.board.lms.terminalIndex < 32
  · rw [credited_iff hreading.1 hreading.2, h.same]
  · exact credited_of_not_reading hreading

end System

def Line.start : Line Unit := ⟨World.start, none, none⟩

theorem Line.start_initial : Line.start.Initial := ⟨World.start_initial, rfl, rfl⟩

/-- A poll, the two waiting crossings and an answer in the first slot. -/
def promptReply : List (LineAction Unit) :=
  [.act (.tick none), .act (.tick none), .act .txDelay, .act (.tick none), .act (.tick none), .arrive 0x10]

instance (line : Line Unit) : (a : LineAction Unit) → Decidable (InSlot line a)
  | .arrive _ => inferInstanceAs
      (Decidable (line.world.board.lms.state = .recving ∧ line.world.board.lms.terminalIndex < 32))
  | .act _ => inferInstanceAs (Decidable True)

instance (line : Line Unit) (a : LineAction Unit) : Decidable (((lineSystem Unit).restrict InSlot).enabled line a) :=
  inferInstanceAs (Decidable ((lineSystem Unit).enabled line a ∧ InSlot line a))

theorem promptReply_isSome : (((lineSystem Unit).restrict InSlot).exec Line.start promptReply).isSome := by
  decide +kernel

theorem replies_credited_prompt :
    Credited ((((lineSystem Unit).restrict InSlot).exec Line.start promptReply).get promptReply_isSome).1 :=
  replies_credited (Reaches.of_exec Line.start_initial promptReply_isSome)

/-- The whole first round without an answer, a byte before the crossing that ends it, and the way to the first slot of the second round. -/
def lateReply : List (LineAction Unit) :=
  [.act (.tick none), .act (.tick none), .act .txDelay] ++ List.replicate 34 (.act (.tick none)) ++
    [.arrive 0x10, .act (.tick (some 0x10)), .act (.tick (some 0x10)), .act .txDelay, .act (.tick (some 0x10)),
      .act (.tick (some 0x10))]

theorem lateReply_isSome : ((lineSystem Unit).exec Line.start lateReply).isSome := by
  decide +kernel

theorem not_credited_late :
    ¬ ∀ as es (line : Line Unit), Reaches (lineSystem Unit) as es line → Credited line := by
  intro h
  have hcredited := h _ _ _ (Reaches.of_exec Line.start_initial lateReply_isSome)
  rw [credited_iff (by decide +kernel) (by decide +kernel)] at hcredited
  revert hcredited
  decide +kernel

end LightControlMonitor.Lms
