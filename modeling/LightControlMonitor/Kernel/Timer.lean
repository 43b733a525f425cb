import Mathlib.Logic.Function.Basic
import LightControlMonitor.Lib.Alarms
import LightControlMonitor.Lib.Transition

/-!
# Kernel timers

The hard timers of `timer.c` under `rt_tick_increase`. The tick counts modulo `2 ^ 32`, and the list is kept and checked by differences of ticks that are compared with half the range. `rt_timer_check` holds the interrupts off while it goes through the list, so that nothing starts or stops a timer then but the timeout functions it calls; before it and at all other times any thread or interrupt may.

Beside the wrapping tick runs a clock that never wraps: what the timers do is a run of its alarms, as long as every `init_tick` is below half the range, which is what the assertions demand.
-/

namespace LightControlMonitor.Kernel

open Alarms (Alarm Clock Event Run Step)
open Transition (System Reaches)

/-- `RT_TICK_MAX / 2`. -/
def RT_TICK_HALF : UInt32 := 0x7fffffff

structure RtTimer where
  initTick : UInt32
  timeoutTick : UInt32
  periodic : Bool
  activated : Bool
  deriving DecidableEq

/-- Where the tick interrupt is. While a timeout function runs, `held` says that its timer is still in the list of the one call. -/
inductive TimerPhase (ι : Type*)
  | idle
  | ticked
  | checking
  | calling (t : ι) (held : Bool)
  deriving DecidableEq

structure TimerState (ι : Type*) where
  rtTick : UInt32
  timers : ι → RtTimer
  timerList : List ι
  phase : TimerPhase ι

variable {ι : Type*} [DecidableEq ι]

def TimerState.setTimer (s : TimerState ι) (t : ι) (timer : RtTimer) : TimerState ι :=
  { s with timers := Function.update s.timers t timer }

def TimerPhase.timerRemove (phase : TimerPhase ι) (t : ι) : TimerPhase ι :=
  match phase with
  | .calling current held => if current = t then .calling current false else .calling current held
  | .idle => .idle
  | .ticked => .ticked
  | .checking => .checking

/-- `_timer_remove`, from the list of timers or from that of the running call. -/
def TimerState.timerRemove (s : TimerState ι) (t : ι) : TimerState ι :=
  { s with timerList := s.timerList.filter fun u => u ≠ t, phase := s.phase.timerRemove t }

/-- The search of `rt_timer_start` for the place of a timer. -/
def insertLoop (timers : ι → RtTimer) (timeoutTick : UInt32) (t : ι) : List ι → List ι
  | [] => [t]
  | u :: us =>
    if (timers u).timeoutTick - timeoutTick = 0 then u :: insertLoop timers timeoutTick t us
    else if (timers u).timeoutTick - timeoutTick < RT_TICK_HALF then t :: u :: us
    else u :: insertLoop timers timeoutTick t us

def TimerState.rtTimerStart (s : TimerState ι) (t : ι) : TimerState ι × List (Event ι) :=
  let timer := s.timers t
  let timeoutTick := s.rtTick + timer.initTick
  let s := (s.timerRemove t).setTimer t { timer with timeoutTick := timeoutTick, activated := true }
  ({ s with timerList := insertLoop s.timers timeoutTick t s.timerList }, [.set t timer.initTick.toNat])

def TimerState.rtTimerDetach (s : TimerState ι) (t : ι) : TimerState ι × List (Event ι) :=
  ((s.timerRemove t).setTimer t { s.timers t with activated := false }, [.cancel t])

/-- Without the flag it is `-RT_ERROR`. -/
def TimerState.rtTimerStop (s : TimerState ι) (t : ι) : TimerState ι × List (Event ι) :=
  if (s.timers t).activated then s.rtTimerDetach t else (s, [])

/-- One turn of the loop of `rt_timer_check`, up to the call of the timeout function. -/
def TimerState.checkTurn (s : TimerState ι) : TimerState ι × List (Event ι) :=
  match s.timerList with
  | [] => ({ s with phase := .idle }, [])
  | t :: rest =>
    if s.rtTick - (s.timers t).timeoutTick < RT_TICK_HALF then
      let timer := s.timers t
      let s := if timer.periodic then s else s.setTimer t { timer with activated := false }
      ({ s with timerList := rest, phase := .calling t true }, [.ring t])
    else ({ s with phase := .idle }, [])

/-- The rest of the turn, after the timeout function. -/
def TimerState.checkReturn (s : TimerState ι) (t : ι) (held : Bool) : TimerState ι × List (Event ι) :=
  let s := { s with phase := .checking }
  if held ∧ (s.timers t).periodic ∧ (s.timers t).activated then s.rtTimerStart t else (s, [])

inductive TimerAction (ι : Type*)
  | tick
  | enterCheck
  | checkTurn
  | checkReturn
  | start (t : ι)
  | stop (t : ι)
  | detach (t : ι)
  | setTime (t : ι) (time : UInt32)
  | setOneshot (t : ι)
  | setPeriodic (t : ι)

def TimerEnabled (s : TimerState ι) : TimerAction ι → Prop
  | .tick => s.phase = .idle
  | .enterCheck => s.phase = .ticked
  | .checkTurn => s.phase = .checking
  | .checkReturn => s.phase ≠ .idle ∧ s.phase ≠ .ticked ∧ s.phase ≠ .checking
  | .start _ => s.phase ≠ .checking
  | .stop _ => s.phase ≠ .checking
  | .detach _ => s.phase ≠ .checking
  | .setTime _ _ => s.phase ≠ .checking
  | .setOneshot _ => s.phase ≠ .checking
  | .setPeriodic _ => s.phase ≠ .checking

instance decidableTimerEnabled (s : TimerState ι) : (a : TimerAction ι) → Decidable (TimerEnabled s a)
  | .tick => inferInstanceAs (Decidable (s.phase = .idle))
  | .enterCheck => inferInstanceAs (Decidable (s.phase = .ticked))
  | .checkTurn => inferInstanceAs (Decidable (s.phase = .checking))
  | .checkReturn => inferInstanceAs (Decidable (s.phase ≠ .idle ∧ s.phase ≠ .ticked ∧ s.phase ≠ .checking))
  | .start _ => inferInstanceAs (Decidable (s.phase ≠ .checking))
  | .stop _ => inferInstanceAs (Decidable (s.phase ≠ .checking))
  | .detach _ => inferInstanceAs (Decidable (s.phase ≠ .checking))
  | .setTime _ _ => inferInstanceAs (Decidable (s.phase ≠ .checking))
  | .setOneshot _ => inferInstanceAs (Decidable (s.phase ≠ .checking))
  | .setPeriodic _ => inferInstanceAs (Decidable (s.phase ≠ .checking))

/-- The assertion of `RT_TIMER_CTRL_SET_TIME` fails for a time of half the range or more. -/
def timerStep (s : TimerState ι) : TimerAction ι → Option (TimerState ι × List (Event ι))
  | .tick => some ({ s with rtTick := s.rtTick + 1, phase := .ticked }, [.tick])
  | .enterCheck => some ({ s with phase := .checking }, [])
  | .checkTurn => some s.checkTurn
  | .checkReturn =>
    match s.phase with
    | .calling t held => some (s.checkReturn t held)
    | _ => none
  | .start t => some (s.rtTimerStart t)
  | .stop t => some (s.rtTimerStop t)
  | .detach t => some (s.rtTimerDetach t)
  | .setTime t time =>
    if time < RT_TICK_HALF then some (s.setTimer t { s.timers t with initTick := time }, []) else none
  | .setOneshot t => some (s.setTimer t { s.timers t with periodic := false }, [])
  | .setPeriodic t => some (s.setTimer t { s.timers t with periodic := true }, [])

/-- After `rt_timer_init` of every timer; `rt_tick_set` may have put the tick anywhere. -/
def TimerState.Initial (s : TimerState ι) : Prop :=
  s.timerList = [] ∧ s.phase = .idle ∧ ∀ t, (s.timers t).activated = false ∧ (s.timers t).initTick < RT_TICK_HALF

variable (ι) in
def timerSystem : System (TimerState ι) (TimerAction ι) (Event ι) where
  init := TimerState.Initial
  enabled := TimerEnabled
  step := timerStep

instance decidableTimerSystemEnabled (s : TimerState ι) (a : TimerAction ι) :
    Decidable ((timerSystem ι).enabled s a) :=
  inferInstanceAs (Decidable (TimerEnabled s a))

/-! ### Differences of ticks -/

theorem sub_lt_half_iff {m n : Nat} (hahead : m ≤ n + 0x7ffffffe) (hbehind : n ≤ m + 0x80000001) :
    UInt32.ofNat m - UInt32.ofNat n < RT_TICK_HALF ↔ n ≤ m := by
  rw [UInt32.lt_iff_toNat_lt, UInt32.toNat_sub, UInt32.toNat_ofNat', UInt32.toNat_ofNat', RT_TICK_HALF]
  change _ < 0x7fffffff ↔ _
  omega

theorem sub_eq_zero_iff {m n : Nat} (hahead : m ≤ n + 0x7ffffffe) (hbehind : n ≤ m + 0x80000001) :
    UInt32.ofNat m - UInt32.ofNat n = 0 ↔ m = n := by
  rw [← UInt32.toNat_inj, UInt32.toNat_sub, UInt32.toNat_ofNat', UInt32.toNat_ofNat']
  change _ = 0 ↔ _
  omega

/-! ### The list and the clock -/

/-- The timers run the alarms of a clock: the list is theirs, and each `timeout_tick` is the wrapped tick at which its alarm is due. -/
structure Timed (start : Nat) (es : List (Event ι)) (s : TimerState ι) (c : Clock ι) : Prop where
  run : Run start es c
  list : s.timerList = c.pending.map Alarm.id
  tick : s.rtTick = UInt32.ofNat c.now
  timeout : ∀ a ∈ c.pending, (s.timers a.id).timeoutTick = UInt32.ofNat a.due
  delay : ∀ a ∈ c.pending, a.delay ≤ 0x7ffffffe
  activated : ∀ a ∈ c.pending, (s.timers a.id).activated = true
  initTick : ∀ t, (s.timers t).initTick < RT_TICK_HALF
  early : s.phase = .idle → ∀ a ∈ c.pending, c.now < a.latest

variable {start : Nat} {es : List (Event ι)} {s : TimerState ι} {c : Clock ι} {t : ι}

/-- Pending alarms are due within half the range of now. -/
theorem Timed.bounds (h : Timed start es s c) {a : Alarm ι} (ha : a ∈ c.pending) :
    a.due ≤ c.now + 0x7ffffffe ∧ c.now ≤ a.due + 1 := by
  have hsince := (h.run.kept.setBy a ha).since_le
  have htime := h.run.kept.inTime a ha
  have hdelay := h.delay a ha
  unfold Alarm.latest at htime
  unfold Alarm.due
  omega

theorem initTick_le (h : Timed start es s c) (t : ι) : (s.timers t).initTick.toNat ≤ 0x7ffffffe :=
  Nat.le_of_lt_succ (UInt32.lt_iff_toNat_lt.mp (h.initTick t))

omit [DecidableEq ι] in
/-- The search goes past the alarms that are due no later. -/
theorem insertLoop_eq {timers : ι → RtTimer} {a : Alarm ι} {alarms : List (Alarm ι)}
    (htimeout : ∀ b ∈ alarms, (timers b.id).timeoutTick = UInt32.ofNat b.due)
    (hbounds : ∀ b ∈ alarms, b.due ≤ a.due + 0x7ffffffe ∧ a.due ≤ b.due + 0x80000001) :
    insertLoop timers (UInt32.ofNat a.due) a.id (alarms.map Alarm.id) =
      (alarms.orderedInsert Alarms.Sooner a).map Alarm.id := by
  induction alarms with
  | nil => rfl
  | cons b alarms ih =>
    obtain ⟨hb, hrest⟩ := List.forall_mem_cons.mp htimeout
    obtain ⟨⟨hahead, hbehind⟩, hbrest⟩ := List.forall_mem_cons.mp hbounds
    rw [List.map_cons, insertLoop, List.orderedInsert, hb, ih hrest hbrest]
    have hzero := sub_eq_zero_iff hahead hbehind
    have hhalf := sub_lt_half_iff hahead hbehind
    by_cases hlt : a.due < b.due
    · have hsooner : Alarms.Sooner a b := hlt
      rw [if_neg (fun heq => Nat.ne_of_gt hlt (hzero.mp heq)), if_pos (hhalf.mpr (Nat.le_of_lt hlt)), if_pos hsooner]
      rfl
    · have hlater : ¬ Alarms.Sooner a b := hlt
      rw [if_neg hlater]
      by_cases heq : b.due = a.due
      · rw [if_pos (hzero.mpr heq)]
        rfl
      · rw [if_neg (fun h => heq (hzero.mp h)), if_neg (fun h => by have := hhalf.mp h; omega)]
        rfl

theorem map_without (t : ι) (alarms : List (Alarm ι)) :
    (Alarms.without t alarms).map Alarm.id = (alarms.map Alarm.id).filter fun u => u ≠ t := by
  rw [Alarms.without, List.filter_map]
  rfl

theorem timerRemove_ne_idle {phase : TimerPhase ι} (hphase : phase.timerRemove t = .idle) : phase = .idle := by
  cases phase with
  | idle => rfl
  | ticked => contradiction
  | checking => contradiction
  | calling current held =>
    rw [TimerPhase.timerRemove] at hphase
    split_ifs at hphase

theorem ofNat_due (h : Timed start es s c) (t : ι) :
    s.rtTick + (s.timers t).initTick = UInt32.ofNat (Alarm.due ⟨t, c.now, (s.timers t).initTick.toNat⟩) := by
  rw [Alarm.due, UInt32.ofNat_add, UInt32.ofNat_toNat, h.tick]

theorem initTick_update {timers : ι → RtTimer} {timer : RtTimer}
    (hbound : ∀ u, (timers u).initTick < RT_TICK_HALF) (htimer : timer.initTick < RT_TICK_HALF) (u : ι) :
    (Function.update timers t timer u).initTick < RT_TICK_HALF := by
  by_cases heq : u = t
  · subst u
    rw [Function.update_self]
    exact htimer
  · rw [Function.update_of_ne heq]
    exact hbound u

theorem Timed.rtTimerStart (h : Timed start es s c) (t : ι) :
    ∃ c', Timed start (es ++ (s.rtTimerStart t).2) (s.rtTimerStart t).1 c' := by
  have hother (timer : RtTimer) (a : Alarm ι) (ha : a ∈ Alarms.without t c.pending) :
      Function.update s.timers t timer a.id = s.timers a.id :=
    Function.update_of_ne (Alarms.mem_without.mp ha).2 _ _
  have hkept {a : Alarm ι} (ha : a ∈ Alarms.without t c.pending) : a ∈ c.pending := (Alarms.mem_without.mp ha).1
  refine ⟨_, h.run.snoc (Step.set c t (s.timers t).initTick.toNat), ?_, h.tick, ?_, ?_, ?_, ?_, ?_⟩
  · have hnow := initTick_le h t
    have hsearch := @insertLoop_eq ι (Function.update s.timers t
      { s.timers t with timeoutTick := s.rtTick + (s.timers t).initTick, activated := true })
      ⟨t, c.now, (s.timers t).initTick.toNat⟩ (Alarms.without t c.pending)
      (fun a ha => (congrArg RtTimer.timeoutTick (hother _ a ha)).trans (h.timeout a (hkept ha)))
      (fun a ha => by
        have hbounds := h.bounds (hkept ha)
        rw [Alarm.due] at hbounds ⊢
        dsimp only [Alarm.due]
        omega)
    rw [map_without, ← h.list, ← ofNat_due h t] at hsearch
    exact hsearch
  · intro a ha
    rcases (List.mem_orderedInsert _).mp ha with rfl | ha
    · exact (congrArg RtTimer.timeoutTick (Function.update_self ..)).trans (ofNat_due h t)
    · exact (congrArg RtTimer.timeoutTick (hother _ a ha)).trans (h.timeout a (hkept ha))
  · intro a ha
    rcases (List.mem_orderedInsert _).mp ha with rfl | ha
    · exact initTick_le h t
    · exact h.delay a (hkept ha)
  · intro a ha
    rcases (List.mem_orderedInsert _).mp ha with rfl | ha
    · have hself := Function.update_self t { s.timers t with
        timeoutTick := s.rtTick + (s.timers t).initTick, activated := true } s.timers
      exact congrArg RtTimer.activated hself
    · exact (congrArg RtTimer.activated (hother _ a ha)).trans (h.activated a (hkept ha))
  · exact initTick_update h.initTick (h.initTick t)
  · intro hphase a ha
    have hidle := timerRemove_ne_idle hphase
    rcases (List.mem_orderedInsert _).mp ha with rfl | ha
    · exact Nat.lt_add_of_pos_right (Nat.lt_of_lt_of_le Nat.one_pos (Nat.le_max_right _ 1))
    · exact h.early hidle a (hkept ha)

theorem Timed.rtTimerDetach (h : Timed start es s c) (t : ι) :
    ∃ c', Timed start (es ++ (s.rtTimerDetach t).2) (s.rtTimerDetach t).1 c' := by
  have hother (timer : RtTimer) (a : Alarm ι) (ha : a ∈ Alarms.without t c.pending) :
      Function.update s.timers t timer a.id = s.timers a.id :=
    Function.update_of_ne (Alarms.mem_without.mp ha).2 _ _
  have hkept {a : Alarm ι} (ha : a ∈ Alarms.without t c.pending) : a ∈ c.pending := (Alarms.mem_without.mp ha).1
  refine ⟨_, h.run.snoc (Step.cancel c t), ?_, h.tick, ?_, ?_, ?_, ?_, ?_⟩
  · rw [map_without, ← h.list]
    rfl
  · exact fun a ha => (congrArg RtTimer.timeoutTick (hother _ a ha)).trans (h.timeout a (hkept ha))
  · exact fun a ha => h.delay a (hkept ha)
  · exact fun a ha => (congrArg RtTimer.activated (hother _ a ha)).trans (h.activated a (hkept ha))
  · exact initTick_update h.initTick (h.initTick t)
  · exact fun hphase a ha => h.early (timerRemove_ne_idle hphase) a (hkept ha)

theorem Timed.rtTimerStop (h : Timed start es s c) (t : ι) :
    ∃ c', Timed start (es ++ (s.rtTimerStop t).2) (s.rtTimerStop t).1 c' := by
  rw [TimerState.rtTimerStop]
  split_ifs
  · exact h.rtTimerDetach t
  · exact ⟨c, by simpa using h⟩

theorem Timed.setPhase (h : Timed start es s c) (phase : TimerPhase ι)
    (hearly : phase = .idle → ∀ a ∈ c.pending, c.now < a.latest) : Timed start es { s with phase := phase } c :=
  ⟨h.run, h.list, h.tick, h.timeout, h.delay, h.activated, h.initTick, hearly⟩

/-- A control call leaves the list and the ticks alone. -/
theorem Timed.setTimer {timer : RtTimer} (h : Timed start es s c)
    (htimeout : timer.timeoutTick = (s.timers t).timeoutTick)
    (hactivated : t ∈ s.timerList → timer.activated = (s.timers t).activated) (hinit : timer.initTick < RT_TICK_HALF) :
    Timed start es (s.setTimer t timer) c := by
  refine ⟨h.run, h.list, h.tick, fun a ha => ?_, h.delay, fun a ha => ?_, initTick_update h.initTick hinit, h.early⟩
  · rw [← h.timeout a ha]
    dsimp only [TimerState.setTimer]
    by_cases heq : a.id = t
    · rw [← heq, Function.update_self, htimeout, heq]
    · rw [Function.update_of_ne heq]
  · rw [← h.activated a ha]
    dsimp only [TimerState.setTimer]
    by_cases heq : a.id = t
    · have hmem : t ∈ s.timerList := h.list ▸ heq ▸ List.mem_map_of_mem ha
      rw [← heq, Function.update_self, hactivated hmem, heq]
    · rw [Function.update_of_ne heq]

/-- The loop calls the first timer exactly if its alarm is due, and stops only when none is. -/
theorem Timed.checkTurn (h : Timed start es s c) :
    ∃ c', Timed start (es ++ s.checkTurn.2) s.checkTurn.1 c' := by
  have hlist := h.list
  unfold TimerState.checkTurn
  split
  · rename_i hempty
    rw [hempty] at hlist
    have hpending : c.pending = [] := List.map_eq_nil_iff.mp hlist.symm
    refine ⟨c, ?_⟩
    rw [List.append_nil]
    exact h.setPhase .idle fun _ a ha => by simp [hpending] at ha
  · rename_i t rest hfirst
    rw [hfirst] at hlist
    obtain ⟨a, alarms, hpending, rfl, hrest⟩ := List.map_eq_cons_iff.mp hlist.symm
    have ha : a ∈ c.pending := hpending ▸ List.mem_cons_self
    obtain ⟨hahead, hbehind⟩ := h.bounds ha
    have hdue : s.rtTick - (s.timers a.id).timeoutTick < RT_TICK_HALF ↔ a.due ≤ c.now := by
      rw [h.tick, h.timeout a ha]
      exact sub_lt_half_iff (by omega) (by omega)
    by_cases hnow : a.due ≤ c.now
    · rw [if_pos (hdue.mpr hnow)]
      have hmem {b : Alarm ι} (hb : b ∈ alarms) : b ∈ c.pending := hpending ▸ List.mem_cons_of_mem a hb
      have hunique := h.run.kept.unique
      rw [hpending, List.map_cons, List.nodup_cons, hrest] at hunique
      have hcalled : Timed start (es ++ [.ring a.id]) { s with timerList := rest, phase := .calling a.id true }
          { c with pending := alarms } :=
        ⟨h.run.snoc (.ring c a alarms hpending hnow), hrest.symm, h.tick, fun b hb => h.timeout b (hmem hb),
          fun b hb => h.delay b (hmem hb), fun b hb => h.activated b (hmem hb), h.initTick, fun hphase => by contradiction⟩
      have hcleared : Timed start (es ++ [.ring a.id]) (TimerState.setTimer
          { s with timerList := rest, phase := .calling a.id true } a.id { s.timers a.id with activated := false })
          { c with pending := alarms } :=
        hcalled.setTimer rfl (fun hin => absurd hin hunique.1) (h.initTick a.id)
      refine ⟨{ c with pending := alarms }, ?_⟩
      by_cases hperiodic : (s.timers a.id).periodic = true
      · simp only [if_pos hperiodic]
        exact hcalled
      · simp only [if_neg hperiodic]
        exact hcleared
    · rw [if_neg (fun hlt => hnow (hdue.mp hlt))]
      refine ⟨c, ?_⟩
      rw [List.append_nil]
      refine h.setPhase .idle fun _ b hb => ?_
      have hsorted := h.run.kept.sorted
      rw [hpending] at hsorted hb
      have hlatest : b.due ≤ b.latest := Nat.add_le_add_left (Nat.le_max_left _ _) _
      have hle : a.due ≤ b.due := by
        rcases List.mem_cons.mp hb with rfl | hb
        · exact Nat.le_refl _
        · rcases (List.pairwise_cons.mp hsorted).1 b hb with hlt | ⟨heq, -⟩
          · exact Nat.le_of_lt hlt
          · exact Nat.le_of_eq heq
      omega

theorem Timed.checkReturn (h : Timed start es s c) (t : ι) (held : Bool) :
    ∃ c', Timed start (es ++ (s.checkReturn t held).2) (s.checkReturn t held).1 c' := by
  have hchecking := h.setPhase .checking fun hphase => by contradiction
  rw [TimerState.checkReturn]
  split_ifs
  · exact hchecking.rtTimerStart t
  · exact ⟨c, by simpa using hchecking⟩

theorem Timed.step {a : TimerAction ι} {s' : TimerState ι} {out : List (Event ι)} (h : Timed start es s c)
    (henabled : TimerEnabled s a) (hstep : timerStep s a = some (s', out)) : ∃ c', Timed start (es ++ out) s' c' := by
  cases a with
  | tick =>
    obtain ⟨rfl, rfl⟩ := Prod.mk.inj (Option.some.inj hstep)
    refine ⟨_, h.run.snoc (.tick c (h.early henabled)), h.list, ?_, h.timeout, h.delay, h.activated, h.initTick,
      fun hphase => by contradiction⟩
    rw [UInt32.ofNat_add, ← h.tick]
    rfl
  | enterCheck =>
    obtain ⟨rfl, rfl⟩ := Prod.mk.inj (Option.some.inj hstep)
    exact ⟨c, by simpa using h.setPhase .checking fun hphase => by contradiction⟩
  | checkTurn =>
    obtain ⟨rfl, rfl⟩ := Prod.mk.inj (Option.some.inj hstep)
    exact h.checkTurn
  | checkReturn =>
    rw [timerStep] at hstep
    split at hstep
    · obtain ⟨rfl, rfl⟩ := Prod.mk.inj (Option.some.inj hstep)
      exact h.checkReturn _ _
    · contradiction
  | start t =>
    obtain ⟨rfl, rfl⟩ := Prod.mk.inj (Option.some.inj hstep)
    exact h.rtTimerStart t
  | stop t =>
    obtain ⟨rfl, rfl⟩ := Prod.mk.inj (Option.some.inj hstep)
    exact h.rtTimerStop t
  | detach t =>
    obtain ⟨rfl, rfl⟩ := Prod.mk.inj (Option.some.inj hstep)
    exact h.rtTimerDetach t
  | setTime t time =>
    rw [timerStep] at hstep
    split_ifs at hstep with htime
    obtain ⟨rfl, rfl⟩ := Prod.mk.inj (Option.some.inj hstep)
    rw [List.append_nil]
    exact ⟨c, h.setTimer rfl (fun _ => rfl) htime⟩
  | setOneshot t =>
    obtain ⟨rfl, rfl⟩ := Prod.mk.inj (Option.some.inj hstep)
    rw [List.append_nil]
    exact ⟨c, h.setTimer rfl (fun _ => rfl) (h.initTick t)⟩
  | setPeriodic t =>
    obtain ⟨rfl, rfl⟩ := Prod.mk.inj (Option.some.inj hstep)
    rw [List.append_nil]
    exact ⟨c, h.setTimer rfl (fun _ => rfl) (h.initTick t)⟩

theorem timed_of_reaches {as : List (TimerAction ι)} (hreach : Reaches (timerSystem ι) as es s) :
    ∃ start c, Timed start es s c := by
  obtain ⟨s₀, ⟨hlist, -, htimers⟩, hrun⟩ := hreach
  refine ⟨s₀.rtTick.toNat, ?_⟩
  apply hrun.invariant (fun _ es s => ∃ c, Timed s₀.rtTick.toNat es s c)
  · exact ⟨⟨s₀.rtTick.toNat, []⟩, .nil, hlist, UInt32.ofNat_toNat.symm, by simp, by simp, by simp,
      fun t => (htimers t).2, by simp⟩
  · intro _ _ _ _ _ _ h henabled hstep
    obtain ⟨c, h⟩ := h
    exact h.step henabled hstep

/-! ### What holds of every run -/

/-- The timers are the alarms of a clock that does not wrap: the same events make a run of it, in which the pending alarms are the list in its order. -/
theorem timers_refine_alarms {as : List (TimerAction ι)} (hreach : Reaches (timerSystem ι) as es s) :
    ∃ start c, Run start es c ∧ s.timerList = c.pending.map Alarm.id ∧ s.rtTick = UInt32.ofNat c.now ∧
      ∀ a ∈ c.pending, (s.timers a.id).timeoutTick = UInt32.ofNat a.due ∧ (s.timers a.id).activated = true := by
  obtain ⟨start, c, h⟩ := timed_of_reaches hreach
  exact ⟨start, c, h.run, h.list, h.tick, fun a ha => ⟨h.timeout a ha, h.activated a ha⟩⟩

/-- A timeout function is called at the tick it was asked for, and no timer that was started and left alone is passed over. -/
theorem timers_on_time {as : List (TimerAction ι)} (hreach : Reaches (timerSystem ι) as es s) :
    (∀ es₁ t es₂, es = es₁ ++ .ring t :: es₂ → ∃ before delay after, es₁ = before ++ .set t delay :: after ∧
      (∀ e ∈ after, e.id? ≠ some t) ∧ delay ≤ Alarms.ticks after ∧ Alarms.ticks after ≤ max delay 1) ∧
    (s.phase = .idle → ∀ before t delay after, es = before ++ .set t delay :: after →
      (∀ e ∈ after, e.id? ≠ some t) → Alarms.ticks after < max delay 1) := by
  obtain ⟨start, c, h⟩ := timed_of_reaches hreach
  constructor
  · intro es₁ t es₂ hsplit
    have hrun := h.run
    rw [hsplit, List.append_cons] at hrun
    obtain ⟨c', hrun'⟩ := hrun.of_append
    exact hrun'.ring_on_time
  · intro hidle before t delay after hsplit hafter
    have hrun := h.run
    rw [hsplit] at hrun
    obtain ⟨since, hmem, hnow⟩ := hrun.pending_of_set hafter
    have hearly := h.early hidle _ hmem
    dsimp only [Alarm.latest] at hearly
    omega

/-- The tick wraps before the first timer is due. -/
def TimerState.nearWrap : TimerState Bool where
  rtTick := 0xfffffffe
  timers := fun t => ⟨if t then 2 else 3, 0, t, false⟩
  timerList := []
  phase := .idle

theorem TimerState.nearWrap_initial : TimerState.nearWrap.Initial := ⟨rfl, rfl, by decide⟩

/-- A periodic timer rings and starts again, and a one-shot timer rings a tick later. -/
def twoRings : List (TimerAction Bool) :=
  [.start true, .start false, .tick, .enterCheck, .checkTurn, .tick, .enterCheck, .checkTurn, .checkReturn, .checkTurn,
    .tick, .enterCheck, .checkTurn, .checkReturn, .checkTurn]

theorem twoRings_isSome : ((timerSystem Bool).exec TimerState.nearWrap twoRings).isSome := by decide +kernel

theorem timers_refine_alarms_wrapped :
    ∃ start c, Run start (((timerSystem Bool).exec TimerState.nearWrap twoRings).get twoRings_isSome).2 c ∧
      (((timerSystem Bool).exec TimerState.nearWrap twoRings).get twoRings_isSome).1.timerList =
        c.pending.map Alarm.id ∧
      (((timerSystem Bool).exec TimerState.nearWrap twoRings).get twoRings_isSome).1.rtTick = UInt32.ofNat c.now ∧
      ∀ a ∈ c.pending, ((((timerSystem Bool).exec TimerState.nearWrap twoRings).get twoRings_isSome).1.timers
          a.id).timeoutTick = UInt32.ofNat a.due ∧
        ((((timerSystem Bool).exec TimerState.nearWrap twoRings).get twoRings_isSome).1.timers a.id).activated = true :=
  timers_refine_alarms (Reaches.of_exec TimerState.nearWrap_initial twoRings_isSome)

theorem twoRings_events : (((timerSystem Bool).exec TimerState.nearWrap twoRings).get twoRings_isSome).2 =
    [.set true 2, .set false 3, .tick, .tick, .ring true, .set true 2, .tick, .ring false] := by
  decide +kernel

/-- The one-shot timer is called three ticks after its start. -/
theorem timers_on_time_wrapped :
    ∃ before delay after, [.set true 2, .set false 3, .tick, .tick, .ring true, .set true 2, .tick] =
        before ++ .set false delay :: after ∧
      (∀ e ∈ after, e.id? ≠ some false) ∧ delay ≤ Alarms.ticks after ∧ Alarms.ticks after ≤ max delay 1 :=
  (timers_on_time (Reaches.of_exec TimerState.nearWrap_initial twoRings_isSome)).1 _ false [] twoRings_events

end LightControlMonitor.Kernel
