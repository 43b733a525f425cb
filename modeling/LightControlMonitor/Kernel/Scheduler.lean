import Mathlib.Data.List.Nodup
import Mathlib.Logic.Function.Basic
import LightControlMonitor.Lib.Transition

/-!
# The scheduler

`scheduler_up.c` with the functions of `thread.c` that move threads: a ready list for each priority, a word with a bit for each list that is not empty, and `rt_schedule`, which looks for the lowest bit. A step is a stretch with the interrupts off, so that an interrupt may resume threads and ask for a switch between any two of them.

Most of these functions are called with the interrupts off and are one stretch: the IPC objects, the completions, the wait queues, the work queues and the timer check hold them off around `rt_thread_resume`, `rt_thread_suspend_with_flag` and `_thread_timeout`. Only `rt_thread_startup` calls `rt_thread_resume` with the interrupts on, and it is two steps, the test of the state and the insertion. `rt_thread_detach` and `rt_thread_delete`, which take a thread out of its list in one stretch and close it in another, are left out: a thread ends in `_thread_exit`, one stretch for the thread itself.
-/

namespace LightControlMonitor.Kernel

open Transition (System Reaches)

/-! ### The lowest bit -/

def lowestBitBitmap : List Nat :=
  [0, 0, 1, 0, 2, 0, 1, 0, 3, 0, 1, 0, 2, 0, 1, 0,
    4, 0, 1, 0, 2, 0, 1, 0, 3, 0, 1, 0, 2, 0, 1, 0,
    5, 0, 1, 0, 2, 0, 1, 0, 3, 0, 1, 0, 2, 0, 1, 0,
    4, 0, 1, 0, 2, 0, 1, 0, 3, 0, 1, 0, 2, 0, 1, 0,
    6, 0, 1, 0, 2, 0, 1, 0, 3, 0, 1, 0, 2, 0, 1, 0,
    4, 0, 1, 0, 2, 0, 1, 0, 3, 0, 1, 0, 2, 0, 1, 0,
    5, 0, 1, 0, 2, 0, 1, 0, 3, 0, 1, 0, 2, 0, 1, 0,
    4, 0, 1, 0, 2, 0, 1, 0, 3, 0, 1, 0, 2, 0, 1, 0,
    7, 0, 1, 0, 2, 0, 1, 0, 3, 0, 1, 0, 2, 0, 1, 0,
    4, 0, 1, 0, 2, 0, 1, 0, 3, 0, 1, 0, 2, 0, 1, 0,
    5, 0, 1, 0, 2, 0, 1, 0, 3, 0, 1, 0, 2, 0, 1, 0,
    4, 0, 1, 0, 2, 0, 1, 0, 3, 0, 1, 0, 2, 0, 1, 0,
    6, 0, 1, 0, 2, 0, 1, 0, 3, 0, 1, 0, 2, 0, 1, 0,
    4, 0, 1, 0, 2, 0, 1, 0, 3, 0, 1, 0, 2, 0, 1, 0,
    5, 0, 1, 0, 2, 0, 1, 0, 3, 0, 1, 0, 2, 0, 1, 0,
    4, 0, 1, 0, 2, 0, 1, 0, 3, 0, 1, 0, 2, 0, 1, 0]

def rtFfs (value : BitVec 32) : Nat :=
  if value = 0 then 0
  else if value &&& 0xff ≠ 0 then lowestBitBitmap.getD (value &&& 0xff).toNat 0 + 1
  else if value &&& 0xff00 ≠ 0 then lowestBitBitmap.getD ((value &&& 0xff00) >>> 8).toNat 0 + 9
  else if value &&& 0xff0000 ≠ 0 then lowestBitBitmap.getD ((value &&& 0xff0000) >>> 16).toNat 0 + 17
  else lowestBitBitmap.getD ((value &&& 0xff000000) >>> 24).toNat 0 + 25

def IsLowest (value : BitVec 32) (i : Nat) : Prop := value.getLsbD i = true ∧ ∀ j < i, value.getLsbD j = false

theorem lowestBitBitmap_spec : ∀ b < 256, b ≠ 0 →
    b.testBit (lowestBitBitmap.getD b 0) = true ∧ ∀ j < lowestBitBitmap.getD b 0, b.testBit j = false := by
  decide +kernel

/-- The table gives the lowest bit of a byte, where the bits below that byte are clear. -/
theorem isLowest_byte {value byte : BitVec 32} {k : Nat}
    (hbyte : ∀ j, byte.getLsbD j = (decide (j < 8) && value.getLsbD (j + k))) (hne : byte ≠ 0)
    (hbelow : ∀ j < k, value.getLsbD j = false) : IsLowest value (lowestBitBitmap.getD byte.toNat 0 + k) := by
  have hsmall : byte.toNat < 256 := by
    apply Nat.lt_pow_two_of_testBit (n := 8)
    intro j hj
    have hclear := hbyte j
    rw [decide_eq_false (Nat.not_lt.mpr hj), Bool.false_and] at hclear
    exact hclear
  have hpos : byte.toNat ≠ 0 := fun heq => hne (BitVec.eq_of_toNat_eq heq)
  obtain ⟨hset, hclear⟩ := lowestBitBitmap_spec byte.toNat hsmall hpos
  have hbit := hbyte (lowestBitBitmap.getD byte.toNat 0)
  rw [BitVec.getLsbD, hset] at hbit
  obtain ⟨hinside, hvalue⟩ := Bool.and_eq_true_iff.mp hbit.symm
  have hlt := of_decide_eq_true hinside
  constructor
  · exact hvalue
  · intro j hj
    rcases Nat.lt_or_ge j k with hlt | hge
    · exact hbelow j hlt
    · obtain ⟨i, rfl⟩ := Nat.exists_eq_add_of_le' hge
      have hi : i < lowestBitBitmap.getD byte.toNat 0 := by omega
      have hlow := hbyte i
      rw [BitVec.getLsbD, hclear i hi, decide_eq_true (Nat.lt_trans hi hlt), Bool.true_and] at hlow
      exact hlow.symm

theorem getLsbD_byte (value : BitVec 32) {k : Nat} (hk : k ≤ 24) (j : Nat) :
    ((value &&& 0xff#32 <<< k) >>> k).getLsbD j = (decide (j < 8) && value.getLsbD (j + k)) := by
  have hmask : (0xff#32).getLsbD j = decide (j < 8) := by
    have hones : (0xff#32).getLsbD j = (decide (j < 32) && (2 ^ 8 - 1).testBit j) := BitVec.getLsbD_ofNat 32 255 j
    rw [hones, Nat.testBit_two_pow_sub_one, Bool.eq_iff_iff]
    simp only [Bool.and_eq_true, decide_eq_true_eq]
    omega
  rw [BitVec.getLsbD_ushiftRight, BitVec.getLsbD_and, BitVec.getLsbD_shiftLeft, Nat.add_sub_cancel_left, hmask,
    Nat.add_comm k j, Bool.eq_iff_iff]
  simp only [Bool.and_eq_true, Bool.not_eq_true', decide_eq_true_eq, decide_eq_false_iff_not]
  constructor
  · exact fun h => ⟨h.2.2, h.1⟩
  · exact fun h => ⟨h.2, ⟨by omega, by omega⟩, h.1⟩

/-- A byte that is clear adds eight clear bits to those below it. -/
theorem clear_byte {value : BitVec 32} {k : Nat} (hk : k ≤ 24) (hzero : (value &&& 0xff#32 <<< k) = 0)
    (hbelow : ∀ j < k, value.getLsbD j = false) : ∀ j < k + 8, value.getLsbD j = false := by
  intro j hj
  rcases Nat.lt_or_ge j k with hlt | hge
  · exact hbelow j hlt
  · obtain ⟨i, rfl⟩ := Nat.exists_eq_add_of_le' hge
    have hbit := getLsbD_byte value hk i
    rw [hzero, decide_eq_true (by omega : i < 8), Bool.true_and] at hbit
    rw [← hbit]
    simp

theorem shifted_ne_zero {value : BitVec 32} {k : Nat} (hne : (value &&& 0xff#32 <<< k) ≠ 0) :
    ((value &&& 0xff#32 <<< k) >>> k) ≠ 0 := by
  intro hzero
  apply hne
  apply BitVec.eq_of_getLsbD_eq
  intro i _
  rcases Nat.lt_or_ge i k with hlt | hge
  · simp [hlt]
  · obtain ⟨j, rfl⟩ := Nat.exists_eq_add_of_le hge
    rw [← BitVec.getLsbD_ushiftRight, hzero]
    simp

/-- `__rt_ffs` is the place of the lowest bit, counted from one. -/
theorem rtFfs_spec {value : BitVec 32} (hne : value ≠ 0) : ∃ i, rtFfs value = i + 1 ∧ IsLowest value i := by
  have hbyte (k : Nat) (hk : k ≤ 24) (hnonzero : (value &&& 0xff#32 <<< k) ≠ 0)
      (hbelow : ∀ j < k, value.getLsbD j = false) :
      IsLowest value (lowestBitBitmap.getD ((value &&& 0xff#32 <<< k) >>> k).toNat 0 + k) :=
    isLowest_byte (getLsbD_byte value hk) (shifted_ne_zero hnonzero) hbelow
  have hbelow₀ : ∀ j < 0, value.getLsbD j = false := by simp
  have hmask₀ : (0xff : BitVec 32) = 0xff#32 <<< 0 := by decide
  have hmask₁ : (0xff00 : BitVec 32) = 0xff#32 <<< 8 := by decide
  have hmask₂ : (0xff0000 : BitVec 32) = 0xff#32 <<< 16 := by decide
  have hmask₃ : (0xff000000 : BitVec 32) = 0xff#32 <<< 24 := by decide
  rw [rtFfs, if_neg hne, hmask₁, hmask₂, hmask₃]
  by_cases h₀ : value &&& 0xff#32 <<< 0 = 0
  · have hbelow₁ := clear_byte (Nat.zero_le _) h₀ hbelow₀
    rw [if_neg (not_not.mpr (hmask₀ ▸ h₀))]
    by_cases h₁ : value &&& 0xff#32 <<< 8 = 0
    · have hbelow₂ := clear_byte (by decide) h₁ hbelow₁
      rw [if_neg (not_not.mpr h₁)]
      by_cases h₂ : value &&& 0xff#32 <<< 16 = 0
      · have hbelow₃ := clear_byte (by decide) h₂ hbelow₂
        have h₃ : value &&& 0xff#32 <<< 24 ≠ 0 := fun h₃ =>
          hne (BitVec.eq_of_getLsbD_eq fun i hi => (clear_byte (by decide) h₃ hbelow₃ i hi).trans (by simp))
        rw [if_neg (not_not.mpr h₂)]
        exact ⟨_, rfl, hbyte 24 (by decide) h₃ hbelow₃⟩
      · rw [if_pos h₂]
        exact ⟨_, rfl, hbyte 16 (by decide) h₂ hbelow₂⟩
    · rw [if_pos h₁]
      exact ⟨_, rfl, hbyte 8 (by decide) h₁ hbelow₁⟩
  · have hlow := hbyte 0 (by decide) h₀ hbelow₀
    rw [← hmask₀, BitVec.ushiftRight_zero] at hlow
    rw [if_pos (hmask₀ ▸ h₀)]
    exact ⟨_, rfl, hlow⟩

/-! ### Threads and ready lists -/

/-- `stat` under `RT_THREAD_STAT_MASK`; `suspend` stands for the three of them. -/
inductive ThreadStat
  | init
  | close
  | ready
  | running
  | suspend
  deriving DecidableEq

/-- `yield` is `RT_THREAD_STAT_YIELD`. -/
structure Thread where
  stat : ThreadStat
  yield : Bool
  currentPriority : Fin 32
  numberMask : BitVec 32
  deriving DecidableEq

/-- `table` is `rt_thread_priority_table` and `group` is `rt_thread_ready_priority_group`. `starting` tells which threads `rt_thread_startup` has yet to insert. -/
structure Scheduler (τ : Type*) where
  threads : τ → Thread
  table : Fin 32 → List τ
  group : BitVec 32
  current : Option τ
  lockNest : Nat
  starting : τ → Bool

def priorityMask (p : Fin 32) : BitVec 32 := 1#32 <<< p.val

variable {τ : Type*} [DecidableEq τ]

def Scheduler.setThread (s : Scheduler τ) (t : τ) (thread : Thread) : Scheduler τ :=
  { s with threads := Function.update s.threads t thread }

def Scheduler.setStat (s : Scheduler τ) (t : τ) (stat : ThreadStat) : Scheduler τ :=
  s.setThread t { s.threads t with stat := stat }

def Scheduler.scheduleInsertThread (s : Scheduler τ) (t : τ) : Scheduler τ :=
  if s.current = some t then s.setStat t .running
  else
    let thread := s.threads t
    let list := s.table thread.currentPriority
    { s.setStat t .ready with
      table := Function.update s.table thread.currentPriority (if thread.yield then list ++ [t] else t :: list)
      group := s.group ||| thread.numberMask }

def Scheduler.scheduleRemoveThread (s : Scheduler τ) (t : τ) : Scheduler τ :=
  let table := fun p => (s.table p).filter fun u => u ≠ t
  { s with
    table := table
    group := if (table (s.threads t).currentPriority).isEmpty then s.group &&& ~~~(s.threads t).numberMask
      else s.group }

/-- `_scheduler_get_highest_priority_thread`; behind an empty list stands no thread. -/
def Scheduler.highestPriorityThread (s : Scheduler τ) : Option (τ × Fin 32) :=
  let number := Fin.ofNat 32 (rtFfs s.group - 1)
  (s.table number).head?.map fun t => (t, number)

/-- The current thread runs on against a ready thread of this priority. -/
def Thread.Stays (thread : Thread) (highest : Fin 32) : Prop :=
  thread.stat = .running ∧
    (thread.currentPriority < highest ∨ thread.currentPriority = highest ∧ thread.yield = false)

instance decidableStays (thread : Thread) (highest : Fin 32) : Decidable (thread.Stays highest) :=
  inferInstanceAs (Decidable (thread.stat = .running ∧
    (thread.currentPriority < highest ∨ thread.currentPriority = highest ∧ thread.yield = false)))

def Scheduler.unyield (s : Scheduler τ) (t : τ) : Scheduler τ := s.setThread t { s.threads t with yield := false }

/-- The branch of `rt_schedule` with a ready thread. The flag of the running thread is taken off before it is inserted. -/
def Scheduler.switch (s : Scheduler τ) (current first : τ) (highest : Fin 32) : Scheduler τ :=
  let thread := s.threads current
  let toThread := if thread.Stays highest then current else first
  let s := if thread.stat = .running then s.unyield current else s
  if toThread ≠ current then
    let s := { s with current := some toThread }
    let s := if thread.stat = .running ∧ ¬ thread.Stays highest then s.scheduleInsertThread current else s
    (s.scheduleRemoveThread toThread).setStat toThread .running
  else (s.scheduleRemoveThread current).setStat current .running

def Scheduler.rtSchedule (s : Scheduler τ) : Option (Scheduler τ) :=
  if s.lockNest ≠ 0 ∨ s.group = 0 then some s
  else s.current.bind fun current => s.highestPriorityThread.map fun first => s.switch current first.1 first.2

def Scheduler.rtSystemSchedulerStart (s : Scheduler τ) : Option (Scheduler τ) :=
  s.highestPriorityThread.map fun first =>
    ({ s with current := some first.1 }.scheduleRemoveThread first.1).setStat first.1 .running

/-- `rt_thread_resume` with the interrupts off, and the part of `_thread_timeout` before its `rt_schedule`. -/
def Scheduler.rtThreadResume (s : Scheduler τ) (t : τ) : Scheduler τ :=
  if (s.threads t).stat = .suspend then s.scheduleInsertThread t else s

/-- `rt_thread_startup` up to the test of its `rt_thread_resume`, which finds the state that has been stored. -/
def Scheduler.rtThreadStartup (s : Scheduler τ) (t : τ) : Scheduler τ :=
  let thread := s.threads t
  { s.setThread t { thread with
      numberMask := priorityMask thread.currentPriority, stat := .suspend, yield := false } with
    starting := Function.update s.starting t true }

/-- The rest of this `rt_thread_resume`. The thread is inserted whatever has become of its state behind the test. -/
def Scheduler.startupInsert (s : Scheduler τ) (t : τ) : Scheduler τ :=
  { s.scheduleInsertThread t with starting := Function.update s.starting t false }

/-- `rt_thread_suspend_with_flag` for the thread itself. -/
def Scheduler.rtThreadSuspend (s : Scheduler τ) (t : τ) : Scheduler τ :=
  if (s.threads t).stat = .ready ∨ (s.threads t).stat = .running then (s.scheduleRemoveThread t).setStat t .suspend
  else s

/-- `_thread_exit` up to its `rt_schedule`. -/
def Scheduler.threadExit (s : Scheduler τ) (t : τ) : Scheduler τ :=
  (s.scheduleRemoveThread t).setThread t { s.threads t with stat := .close, yield := false }

/-- `RT_THREAD_CTRL_CHANGE_PRIORITY`. -/
def Scheduler.changePriority (s : Scheduler τ) (t : τ) (p : Fin 32) : Scheduler τ :=
  let thread := { s.threads t with currentPriority := p, numberMask := priorityMask p }
  if (s.threads t).stat = .ready then ((s.scheduleRemoveThread t).setThread t thread).scheduleInsertThread t
  else s.setThread t thread

/-- `markYield` is what `rt_thread_yield` and a tick that ends the slice do before they call `rt_schedule`. -/
inductive SchedAction (τ : Type*)
  | start
  | schedule
  | markYield
  | startup (t : τ)
  | startupInsert (t : τ)
  | resume (t : τ)
  | suspend
  | exit
  | changePriority (t : τ) (p : Fin 32)
  | enterCritical
  | exitCritical

/-- A thread is started once, and stands in no list of waiting threads before it has run. -/
def SchedEnabled (s : Scheduler τ) : SchedAction τ → Prop
  | .start => s.current = none
  | .schedule => s.current ≠ none
  | .markYield => s.current ≠ none
  | .startup t => (s.threads t).stat = .init
  | .startupInsert t => s.starting t = true
  | .resume t => s.starting t = false
  | .suspend => s.current ≠ none
  | .exit => s.current ≠ none
  | .changePriority _ _ => True
  | .enterCritical => True
  | .exitCritical => True

instance decidableSchedEnabled (s : Scheduler τ) : (a : SchedAction τ) → Decidable (SchedEnabled s a)
  | .start => inferInstanceAs (Decidable (s.current = none))
  | .schedule => inferInstanceAs (Decidable (s.current ≠ none))
  | .markYield => inferInstanceAs (Decidable (s.current ≠ none))
  | .startup t => inferInstanceAs (Decidable ((s.threads t).stat = .init))
  | .startupInsert t => inferInstanceAs (Decidable (s.starting t = true))
  | .resume t => inferInstanceAs (Decidable (s.starting t = false))
  | .suspend => inferInstanceAs (Decidable (s.current ≠ none))
  | .exit => inferInstanceAs (Decidable (s.current ≠ none))
  | .changePriority _ _ => inferInstanceAs (Decidable True)
  | .enterCritical => inferInstanceAs (Decidable True)
  | .exitCritical => inferInstanceAs (Decidable True)

/-- A call of the scheduler tells which thread has the processor behind it. -/
def schedStep (s : Scheduler τ) : SchedAction τ → Option (Scheduler τ × List τ)
  | .start => s.rtSystemSchedulerStart.map fun s' => (s', s'.current.toList)
  | .schedule => s.rtSchedule.map fun s' => (s', s'.current.toList)
  | .markYield => s.current.map fun t => (s.setThread t { s.threads t with yield := true }, [])
  | .startup t => some (s.rtThreadStartup t, [])
  | .startupInsert t => some (s.startupInsert t, [])
  | .resume t => some (s.rtThreadResume t, [])
  | .suspend => s.current.map fun t => (s.rtThreadSuspend t, [])
  | .exit => s.current.map fun t => (s.threadExit t, [])
  | .changePriority t p => some (s.changePriority t p, [])
  | .enterCritical => some ({ s with lockNest := s.lockNest + 1 }, [])
  | .exitCritical => some ({ s with lockNest := s.lockNest - 1 }, [])

/-- `rt_system_scheduler_init`, with every thread initialised. -/
def Scheduler.Initial (s : Scheduler τ) : Prop :=
  (∀ t, (s.threads t).stat = .init ∧ (s.threads t).yield = false) ∧ (∀ p, s.table p = []) ∧ s.group = 0 ∧
    s.current = none ∧ s.lockNest = 0 ∧ ∀ t, s.starting t = false

variable (τ) in
def schedSystem : System (Scheduler τ) (SchedAction τ) τ where
  init := Scheduler.Initial
  enabled := SchedEnabled
  step := schedStep

instance decidableSchedSystemEnabled (s : Scheduler τ) (a : SchedAction τ) : Decidable ((schedSystem τ).enabled s a) :=
  inferInstanceAs (Decidable (SchedEnabled s a))

end LightControlMonitor.Kernel
