import LightControlMonitor.Lms.Delivery
import Mathlib.Data.Fintype.Basic

/-!
# Several submitters

The shell and the CAN path both call `build_ctrl_cmd`. A thread tests `write_lock` and sets it three statements later, so two of them can pass the test, and the sender starts on a buffer that the other one is still filling. As long as a thread passes the test only while no other is past it, every frame on the wire is the frame of one submitted command.
-/

namespace LightControlMonitor.Lms

open Transition (Reaches)

variable {ι : Type}

/-- The calls of `build_ctrl_cmd`, whether they found the lock free or not. -/
def submitted (as : List (Action ι)) : List Call :=
  as.filterMap fun
    | .call _ args => some args
    | _ => none

@[simp] theorem submitted_append (as bs : List (Action ι)) : submitted (as ++ bs) = submitted as ++ submitted bs :=
  List.filterMap_append

@[simp] theorem submitted_call (i : ι) (args : Call) : submitted [.call i args] = [args] := rfl

/-- The bytes are polls and whole frames of submitted commands, and at the end a part of such a frame. -/
def Unmixed (bytes : List UInt8) (calls : List Call) : Prop :=
  ∃ items tail, bytes = itemBytes items ++ tail ∧ (∀ call ∈ itemCalls items, call ∈ calls) ∧
    (tail = [] ∨ ∃ call ∈ calls, tail <+: call.frame)

theorem Delivered.unmixed {bytes : List UInt8} {calls calls' : List Call} (h : Delivered bytes calls)
    (hmem : ∀ call ∈ calls, call ∈ calls') : Unmixed bytes calls' := by
  obtain ⟨items, rest, tail, hcalls, hbytes, htail⟩ := h
  refine ⟨items, tail, hbytes, fun call hcall => ?_, ?_⟩
  · apply hmem
    rw [hcalls]
    exact List.mem_append_left _ hcall
  · rcases htail with rfl | ⟨call, later, rfl, hprefix⟩
    · exact .inl rfl
    · refine .inr ⟨call, hmem call ?_, hprefix⟩
      rw [hcalls]
      simp

/-! ### Accepted calls were submitted -/

/-- Every call inside the function, and every call that found the lock free, was submitted. -/
structure Submitted (as : List (Action ι)) (es : List Event) (w : World ι) : Prop where
  threads : ∀ i l, w.threads i = some l → l.call ∈ submitted as
  calls : ∀ call ∈ accepted es, call ∈ submitted as

theorem Submitted.initial {w : World ι} (hinit : w.Initial) : Submitted [] [] w := by
  refine ⟨fun i l hl => ?_, fun call hmem => ?_⟩
  · rw [hinit.2.2.2 i] at hl
    contradiction
  · exact absurd hmem (List.not_mem_nil)

theorem Submitted.callback {as : List (Action ι)} {es out : List Event} {w : World ι} (h : Submitted as es w)
    (a : Action ι) (b : Board) (hout : accepted out = []) :
    Submitted (as ++ [a]) (es ++ out) { w with board := b } := by
  constructor
  · intro i l hl
    rw [submitted_append]
    exact List.mem_append_left _ (h.threads i l hl)
  · intro call hmem
    rw [accepted_append, hout, List.append_nil] at hmem
    rw [submitted_append]
    exact List.mem_append_left _ (h.calls call hmem)

variable [DecidableEq ι]

theorem Submitted.call {as : List (Action ι)} {es : List Event} {w : World ι} (h : Submitted as es w) (i : ι)
    (args : Call) : Submitted (as ++ [.call i args]) es
      { w with threads := Function.update w.threads i (some ⟨args, 0, 0, .testLock⟩) } := by
  constructor
  · intro j l hl
    rw [submitted_append, submitted_call]
    by_cases heq : j = i
    · subst j
      obtain rfl : (⟨args, 0, 0, .testLock⟩ : Local) = l := by simpa using hl
      exact List.mem_append_right _ (List.mem_singleton_self _)
    · exact List.mem_append_left _ (h.threads j l (by simpa [Function.update_of_ne heq] using hl))
  · intro call hmem
    rw [submitted_append]
    exact List.mem_append_left _ (h.calls call hmem)

theorem Submitted.stmt {as : List (Action ι)} {es out : List Event} {w : World ι} {i : ι} {l : Local}
    {l' : Option Local} {lms' : LmsT} (h : Submitted as es w) (hl : w.threads i = some l)
    (hexec : l.exec w.board.lms = some (l', lms', out)) :
    Submitted (as ++ [.stmt i]) (es ++ out) ⟨{ w.board with lms := lms' }, Function.update w.threads i l'⟩ := by
  obtain ⟨hout, hcall, -⟩ := Local.exec_frame hexec
  have hmine := h.threads i l hl
  constructor
  · intro j m hm
    rw [submitted_append]
    apply List.mem_append_left
    by_cases heq : j = i
    · subst j
      rw [hcall m (by simpa using hm)]
      exact hmine
    · exact h.threads j m (by simpa [Function.update_of_ne heq] using hm)
  · intro call hmem
    rw [submitted_append]
    apply List.mem_append_left
    rw [accepted_append] at hmem
    rcases List.mem_append.mp hmem with hold | hnew
    · exact h.calls call hold
    · rcases hout with rfl | rfl
      · exact absurd hnew List.not_mem_nil
      · rw [accepted_accept, List.mem_singleton] at hnew
        rw [hnew]
        exact hmine

theorem Submitted.step {as : List (Action ι)} {es out : List Event} {w w' : World ι} {a : Action ι}
    (h : Submitted as es w) (hstep : w.step a = some (w', out)) : Submitted (as ++ [a]) (es ++ out) w' := by
  cases a with
  | tick reg =>
    obtain ⟨b', hb, rfl⟩ := step_tick hstep
    exact h.callback _ b' (lmsStateMachine_quiet hb).2.2.2
  | txDelay =>
    obtain ⟨b', hb, rfl⟩ := step_txDelay hstep
    apply h.callback _ b'
    rcases sendStateMachine_cases hb with ⟨-, rfl, -⟩ | ⟨-, -, _, -, rfl, -⟩ | ⟨-, -, rfl, -⟩ <;> rfl
  | call i args =>
    obtain ⟨rfl, rfl⟩ := step_call hstep
    rw [List.append_nil]
    exact h.call i args
  | stmt i =>
    obtain ⟨l, l', lms', hl, hexec, rfl⟩ := step_stmt hstep
    exact h.stmt hl hexec

theorem submitted_of_reaches {as : List (Action ι)} {es : List Event} {w : World ι}
    (hreach : Reaches (system ι) as es w) : Submitted as es w :=
  hreach.invariant (fun as es w => Submitted as es w) (fun _ hinit => .initial hinit) (fun h _ hstep => h.step hstep)

theorem submitted_group {as : List (Action ι)} {es : List Event} {w : World ι} (hreach : Reaches (system ι) as es w) :
    ∀ call ∈ submitted as, call.groupId < 8 := by
  apply hreach.invariant (fun as _ _ => ∀ call ∈ submitted as, call.groupId < 8)
  · intro _ _ call hmem
    exact absurd hmem List.not_mem_nil
  · intro as _ w a _ _ h henabled _ call hmem
    rw [submitted_append] at hmem
    rcases List.mem_append.mp hmem with hold | hnew
    · exact h call hold
    · cases a with
      | call i args =>
        rw [submitted_call, List.mem_singleton] at hnew
        rw [hnew]
        exact henabled.2
      | _ => exact absurd hnew List.not_mem_nil

/-- While a thread passes the test of the lock only when no other thread is past it, no frame is mixed. -/
theorem frames_unmixed {as : List (Action ι)} {es : List Event} {w : World ι}
    (hreach : Reaches ((system ι).restrict Alone) as es w) : Unmixed (wire es) (submitted as) := by
  obtain ⟨items, howner⟩ := owner_of_reaches hreach
  exact howner.delivered.unmixed (submitted_of_reaches hreach.of_restrict).calls

/-! ### Two threads -/

instance World.decidableIdle (w : World ι) (i : ι) : Decidable (w.Idle i) :=
  inferInstanceAs (Decidable (∀ l ∈ w.threads i, ¬ l.next ≠ .testLock))

instance World.decidableAlone [Fintype ι] (w : World ι) : (a : Action ι) → Decidable (Alone w a)
  | .tick _ => inferInstanceAs (Decidable True)
  | .txDelay => inferInstanceAs (Decidable True)
  | .call _ _ => inferInstanceAs (Decidable True)
  | .stmt i => inferInstanceAs (Decidable (∀ l ∈ w.threads i,
      l.next = .testLock → w.board.lms.cmdInfo.writeLock = false → ∀ j, w.Idle j))

instance system.decidableAlone [Fintype ι] (w : World ι) (a : Action ι) :
    Decidable (((system ι).restrict Alone).enabled w a) :=
  inferInstanceAs (Decidable ((system ι).enabled w a ∧ Alone w a))

/-- A whole command of each thread, the second one while the first frame is being sent. -/
def turns : List (Action Bool) :=
  [.tick none, .tick none, .call false ⟨0, 1, 2⟩] ++ List.replicate 11 (.stmt false) ++
    [.txDelay, .tick none, .call true ⟨1, 5, 3⟩, .stmt true, .txDelay, .tick none, .txDelay]

theorem turns_isSome : (((system Bool).restrict Alone).exec World.start turns).isSome := by
  decide +kernel

theorem frames_unmixed_turns :
    Unmixed (wire ((((system Bool).restrict Alone).exec World.start turns).get turns_isSome).2) (submitted turns) :=
  frames_unmixed (Reaches.of_exec World.start_initial turns_isSome)

/-- Two threads pass the test, the sender starts on the frame of the first, and the second one fills the buffer. -/
def twoThreads : List (Action Bool) :=
  [.tick none, .tick none, .call false ⟨0, 1, 2⟩, .call true ⟨1, 5, 3⟩, .stmt true] ++
    List.replicate 11 (.stmt false) ++ [.txDelay, .tick none] ++ List.replicate 10 (.stmt true) ++
    [.txDelay, .tick none, .txDelay]

theorem twoThreads_isSome : ((system Bool).exec World.start twoThreads).isSome := by
  decide +kernel

/-- The frame on the wire starts with group 0 and goes on with segment 5. -/
theorem not_frames_unmixed :
    ¬ ∀ (as : List (Action Bool)) (es : List Event) (w : World Bool), Reaches (system Bool) as es w →
      Unmixed (wire es) (submitted as) := by
  intro h
  obtain ⟨items, tail, hbytes, hcalls, htail⟩ := h _ _ _ (Reaches.of_exec World.start_initial twoThreads_isSome)
  have hwire : wire (((system Bool).exec World.start twoThreads).get twoThreads_isSome).2 = [0x0b, 0x05, 0x30] := by
    decide +kernel
  rw [hwire] at hbytes
  rw [show submitted twoThreads = [⟨0, 1, 2⟩, ⟨1, 5, 3⟩] from rfl] at hcalls htail
  rcases items with _ | ⟨_ | call, items⟩
  · obtain rfl : [0x0b, 0x05, 0x30] = tail := by simpa [itemBytes] using hbytes
    rcases htail with hnil | ⟨call, hmem, hprefix⟩
    · exact List.cons_ne_nil _ _ hnil
    · have hall : ∀ call ∈ [(⟨0, 1, 2⟩ : Call), ⟨1, 5, 3⟩], ¬ [0x0b, 0x05, 0x30] = call.frame := by
        decide +kernel
      exact hall call hmem (List.IsPrefix.eq_of_length hprefix rfl)
  · simp [itemBytes, Item.bytes, pollByte] at hbytes
  · have hmem := hcalls call (by simp [itemCalls])
    have hall : ∀ call ∈ [(⟨0, 1, 2⟩ : Call), ⟨1, 5, 3⟩], ¬ call.frame.take 2 = [0x0b, 0x05] := by
      decide +kernel
    apply hall call hmem
    have hframe := congrArg (List.take 2) hbytes
    simpa [itemBytes, Item.bytes, Call.frame] using hframe.symm

end LightControlMonitor.Lms
