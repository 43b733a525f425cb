import Mathlib.Order.Fin.Basic
import LightControlMonitor.Kernel.ReadyLists

/-!
# Who runs

`rt_schedule` gives the processor to a thread of the highest priority and loses none. Among the threads of one priority it does not take turns: the flag of a thread that yields or has used up its slice is gone when the thread is inserted, so that it joins its list at the head, and the first two threads pass the processor to each other.
-/

namespace LightControlMonitor.Kernel

open Transition (System Run Reaches)

variable {τ : Type*} [DecidableEq τ]

def Thread.Runnable (thread : Thread) : Prop := thread.stat = .ready ∨ thread.stat = .running

/-- What a call of `rt_schedule` is for. -/
structure Scheduled (s s' : Scheduler τ) : Prop where
  highest : ∃ t, s'.current = some t ∧ (s'.threads t).stat = .running ∧
    ∀ u, (s'.threads u).Runnable → (s'.threads t).currentPriority ≤ (s'.threads u).currentPriority
  kept : ∀ u, (s'.threads u).Runnable ↔ (s.threads u).Runnable

variable {s s' : Scheduler τ} {t first : τ} {p : Fin 32}

theorem switch_stays_threads (hstays : (s.threads t).Stays p) (first : τ) :
    (s.switch t first p).threads =
      Function.update s.threads t { s.threads t with yield := false, stat := .running } := by
  rw [switch_stays hstays]
  simp [Scheduler.setStat, Scheduler.setThread, Scheduler.unyield]

theorem switch_preempts_threads (hrunning : (s.threads t).stat = .running) (hstays : ¬ (s.threads t).Stays p)
    (hne : first ≠ t) : (s.switch t first p).threads =
      Function.update (Function.update s.threads t { s.threads t with yield := false, stat := .ready }) first
        { s.threads first with stat := .running } := by
  have hother : ({ s.unyield t with current := some first } : Scheduler τ).current ≠ some t :=
    fun heq => hne (Option.some.inj heq)
  rw [switch_preempts hrunning hstays hne, Scheduler.setStat, Scheduler.setThread]
  simp only [scheduleRemoveThread_threads, insert_threads hother, Function.update_of_ne hne]
  simp [Scheduler.unyield, Scheduler.setThread, Function.update_of_ne hne]

theorem switch_leaves_threads (hrunning : (s.threads t).stat ≠ .running) (hne : first ≠ t) :
    (s.switch t first p).threads = Function.update s.threads first { s.threads first with stat := .running } := by
  rw [switch_leaves hrunning hne]
  rfl

theorem switch_current (hcurrent : s.current = some t) (hne : first ≠ t) :
    (s.switch t first p).current = some (if (s.threads t).Stays p then t else first) := by
  by_cases hrunning : (s.threads t).stat = .running
  · by_cases hstays : (s.threads t).Stays p
    · rw [switch_stays hstays, if_pos hstays]
      exact hcurrent
    · rw [switch_preempts hrunning hstays hne, if_neg hstays]
      exact insert_current _ _
  · have hstays : ¬ (s.threads t).Stays p := fun h => hrunning h.1
    rw [switch_leaves hrunning hne, if_neg hstays]
    rfl

theorem switch_running (hne : first ≠ t) :
    ((s.switch t first p).threads (if (s.threads t).Stays p then t else first)).stat = .running := by
  by_cases hrunning : (s.threads t).stat = .running
  · by_cases hstays : (s.threads t).Stays p
    · rw [switch_stays_threads hstays, if_pos hstays, Function.update_self]
    · rw [switch_preempts_threads hrunning hstays hne, if_neg hstays, Function.update_self]
  · have hstays : ¬ (s.threads t).Stays p := fun h => hrunning h.1
    rw [switch_leaves_threads hrunning hne, if_neg hstays, Function.update_self]

/-- A switch changes no priority, and no thread's readiness to run. -/
theorem switch_thread (hready : (s.threads first).stat = .ready) (hne : first ≠ t) (u : τ) :
    ((s.switch t first p).threads u).currentPriority = (s.threads u).currentPriority ∧
      (((s.switch t first p).threads u).Runnable ↔ (s.threads u).Runnable) := by
  by_cases hrunning : (s.threads t).stat = .running
  · by_cases hstays : (s.threads t).Stays p
    · rw [switch_stays_threads hstays, Function.update_apply]
      split_ifs with heq
      · simp [heq, Thread.Runnable, hrunning]
      · exact ⟨rfl, Iff.rfl⟩
    · rw [switch_preempts_threads hrunning hstays hne, Function.update_apply, Function.update_apply]
      split_ifs with hfirst heq
      · simp [hfirst, Thread.Runnable, hready]
      · simp [heq, Thread.Runnable, hrunning]
      · exact ⟨rfl, Iff.rfl⟩
  · rw [switch_leaves_threads hrunning hne, Function.update_apply]
    split_ifs with hfirst
    · simp [hfirst, Thread.Runnable, hready]
    · exact ⟨rfl, Iff.rfl⟩

theorem Coherent.scheduled_switch (h : Coherent s) (hcurrent : s.current = some t) {rest : List τ}
    (htable : s.table p = first :: rest) (hhigher : ∀ q < p, s.table q = []) :
    Scheduled s (s.switch t first p) := by
  obtain ⟨hready, hpriority⟩ := (h.listed p first).mp (htable ▸ List.mem_cons_self)
  have hne : first ≠ t := fun heq => (h.current t hcurrent).1 (heq ▸ hready)
  have hbehind {u : τ} (hu : (s.threads u).stat = .ready) : p ≤ (s.threads u).currentPriority := by
    by_contra hlt
    have hmem := (h.listed _ u).mpr ⟨hu, rfl⟩
    rw [hhigher _ (not_le.mp hlt)] at hmem
    contradiction
  have hunique {u : τ} (hu : (s.threads u).stat = .running) : u = t :=
    Option.some.inj ((h.running u hu).symm.trans hcurrent)
  have hbest {u : τ} (hu : (s.threads u).Runnable) :
      (s.threads (if (s.threads t).Stays p then t else first)).currentPriority ≤ (s.threads u).currentPriority := by
    by_cases hstays : (s.threads t).Stays p
    · rw [if_pos hstays]
      have hle : (s.threads t).currentPriority ≤ p := hstays.2.elim le_of_lt fun heq => heq.1.le
      rcases hu with hu | hu
      · exact hle.trans (hbehind hu)
      · rw [hunique hu]
    · rw [if_neg hstays, hpriority]
      rcases hu with hu | hu
      · exact hbehind hu
      · exact hunique hu ▸ not_lt.mp fun hlt => hstays ⟨hunique hu ▸ hu, .inl (hunique hu ▸ hlt)⟩
  refine ⟨⟨_, switch_current hcurrent hne, switch_running hne, fun u hu => ?_⟩, fun u => (switch_thread hready hne u).2⟩
  rw [(switch_thread hready hne _).1, (switch_thread hready hne u).1]
  exact hbest ((switch_thread hready hne u).2.mp hu)

theorem rtSchedule_eq_switch (h : Coherent s) (hcurrent : s.current = some t) (hlock : s.lockNest = 0)
    (hgroup : s.group ≠ 0) : ∃ first rest p, s.rtSchedule = some (s.switch t first p) ∧ s.table p = first :: rest ∧
      ∀ q < p, s.table q = [] := by
  obtain ⟨first, rest, p, hhighest, htable, hhigher⟩ := h.highest hgroup
  refine ⟨first, rest, p, ?_, htable, hhigher⟩
  have hfree : ¬ (s.lockNest ≠ 0 ∨ s.group = 0) := fun hor => hor.elim (fun hlocked => hlocked hlock) hgroup
  rw [Scheduler.rtSchedule, if_neg hfree, hcurrent, hhighest]
  rfl

/-- A call with the scheduler unlocked never fails, leaves the processor with a thread of the highest priority, and keeps every thread that can run. -/
theorem highest_priority_runs {as : List (SchedAction τ)} {es : List τ} (hreach : Reaches (schedSystem τ) as es s)
    (hstarted : s.current ≠ none) (hlock : s.lockNest = 0) (hrunnable : ∃ u, (s.threads u).Runnable) :
    ∃ s', s.rtSchedule = some s' ∧ Scheduled s s' := by
  have h := coherent_of_reaches hreach
  obtain ⟨t, hcurrent⟩ := Option.ne_none_iff_exists'.mp hstarted
  by_cases hgroup : s.group = 0
  · have hnone (u : τ) : (s.threads u).stat ≠ .ready := by
      intro hready
      have hset := (h.group _).mpr (List.ne_nil_of_mem ((h.listed _ u).mpr ⟨hready, rfl⟩))
      simp [hgroup] at hset
    obtain ⟨u, hu⟩ := hrunnable
    have hrunning := hu.resolve_left (hnone u)
    refine ⟨s, by rw [Scheduler.rtSchedule, if_pos (.inr hgroup)], ⟨u, h.running u hrunning, hrunning, fun v hv => ?_⟩,
      fun v => Iff.rfl⟩
    have hsame := (h.running v (hv.resolve_left (hnone v))).symm.trans (h.running u hrunning)
    rw [Option.some.inj hsame]
  · obtain ⟨first, rest, p, hschedule, htable, hhigher⟩ := rtSchedule_eq_switch h hcurrent hlock hgroup
    exact ⟨_, hschedule, h.scheduled_switch hcurrent htable hhigher⟩

inductive Task
  | lamp
  | bus
  | menu
  | idle
  deriving DecidableEq

def idlePriority : Fin 32 := Fin.last 31

def taskPriority : Fin 32 := idlePriority.rev

/-- Three threads of one priority and the idle thread. -/
def Scheduler.four : Scheduler Task where
  threads := fun t => ⟨.init, false, if t = .idle then idlePriority else taskPriority, 0⟩
  table := fun _ => []
  group := 0
  current := none
  lockNest := 0
  starting := fun _ => false

theorem Scheduler.four_initial : Scheduler.four.Initial := by
  refine ⟨fun t => ⟨rfl, rfl⟩, fun p => rfl, rfl, rfl, rfl, fun t => rfl⟩

/-- An interrupt comes between the two steps of the second start. -/
def startup : List (SchedAction Task) :=
  [.startup .menu, .startupInsert .menu, .startup .bus, .resume .menu, .startupInsert .bus, .startup .lamp,
    .startupInsert .lamp, .startup .idle, .startupInsert .idle, .start]

theorem startup_isSome : ((schedSystem Task).exec Scheduler.four startup).isSome := by decide +kernel

theorem highest_priority_runs_four :
    ∃ s', (((schedSystem Task).exec Scheduler.four startup).get startup_isSome).1.rtSchedule = some s' ∧
      Scheduled (((schedSystem Task).exec Scheduler.four startup).get startup_isSome).1 s' :=
  highest_priority_runs (Reaches.of_exec Scheduler.four_initial startup_isSome) (by decide +kernel) (by decide +kernel)
    ⟨.menu, .inl (by decide +kernel)⟩

/-! ### No thread is lost -/

/-- The thread goes on waiting for nothing but the processor. -/
def NotBlocked (u : τ) (s : Scheduler τ) : SchedAction τ → Prop
  | .suspend => s.current ≠ some u
  | .exit => s.current ≠ some u
  | _ => True

instance decidableNotBlocked (u : τ) (s : Scheduler τ) : (a : SchedAction τ) → Decidable (NotBlocked u s a)
  | .start => inferInstanceAs (Decidable True)
  | .schedule => inferInstanceAs (Decidable True)
  | .markYield => inferInstanceAs (Decidable True)
  | .startup _ => inferInstanceAs (Decidable True)
  | .startupInsert _ => inferInstanceAs (Decidable True)
  | .resume _ => inferInstanceAs (Decidable True)
  | .suspend => inferInstanceAs (Decidable (s.current ≠ some u))
  | .exit => inferInstanceAs (Decidable (s.current ≠ some u))
  | .changePriority _ _ => inferInstanceAs (Decidable True)
  | .enterCritical => inferInstanceAs (Decidable True)
  | .exitCritical => inferInstanceAs (Decidable True)

instance decidableNotBlockedEnabled (u : τ) (s : Scheduler τ) (a : SchedAction τ) :
    Decidable (((schedSystem τ).restrict (NotBlocked u)).enabled s a) :=
  inferInstanceAs (Decidable (SchedEnabled s a ∧ NotBlocked u s a))

variable {u : τ}

theorem insert_threads_of_ne (hne : u ≠ t) (s : Scheduler τ) : (s.scheduleInsertThread t).threads u = s.threads u := by
  rw [Scheduler.scheduleInsertThread]
  split_ifs
  · exact setThread_of_ne hne ..
  · exact setThread_of_ne hne ..

theorem insert_runnable (s : Scheduler τ) (t : τ) : ((s.scheduleInsertThread t).threads t).Runnable := by
  rw [Scheduler.scheduleInsertThread]
  split_ifs
  · exact .inr (by simp [Scheduler.setStat])
  · exact .inl (by simp [Scheduler.setStat])

theorem Coherent.schedule_kept (h : Coherent s) (hschedule : s.rtSchedule = some s') (u : τ) :
    (s'.threads u).Runnable ↔ (s.threads u).Runnable := by
  by_cases hfree : s.lockNest ≠ 0 ∨ s.group = 0
  · rw [Scheduler.rtSchedule, if_pos hfree] at hschedule
    rw [Option.some.inj hschedule]
  · obtain ⟨hlock, hgroup⟩ := not_or.mp hfree
    obtain ⟨t, hcurrent⟩ : ∃ t, s.current = some t := by
      rw [Scheduler.rtSchedule, if_neg hfree] at hschedule
      exact (Option.bind_eq_some_iff.mp hschedule).imp fun _ h => h.1
    obtain ⟨first, rest, p, hswitch, htable, hhigher⟩ := rtSchedule_eq_switch h hcurrent (not_not.mp hlock) hgroup
    obtain rfl : s.switch t first p = s' := Option.some.inj (hswitch.symm.trans hschedule)
    exact (h.scheduled_switch hcurrent htable hhigher).kept u

theorem start_runnable (hstart : s.rtSystemSchedulerStart = some s') (hu : (s.threads u).Runnable) :
    (s'.threads u).Runnable := by
  obtain ⟨⟨first, p⟩, -, rfl⟩ := Option.map_eq_some_iff.mp hstart
  by_cases hfirst : u = first
  · exact .inr (by simp [hfirst, Scheduler.setStat])
  · rw [Scheduler.setStat, setThread_of_ne hfirst]
    exact hu

theorem markYield_runnable (t : τ) (hu : (s.threads u).Runnable) :
    ((s.setThread t { s.threads t with yield := true }).threads u).Runnable := by
  by_cases hut : u = t
  · rw [hut, setThread_self]
    exact hut ▸ hu
  · rw [setThread_of_ne hut]
    exact hu

theorem startup_runnable (hinit : (s.threads t).stat = .init) (hu : (s.threads u).Runnable) :
    ((s.rtThreadStartup t).threads u).Runnable := by
  have hne : u ≠ t := by
    rintro rfl
    simp [Thread.Runnable, hinit] at hu
  rw [Scheduler.rtThreadStartup]
  dsimp only
  rw [setThread_of_ne hne]
  exact hu

theorem insert_keeps_runnable (t : τ) (hu : (s.threads u).Runnable) :
    ((s.scheduleInsertThread t).threads u).Runnable := by
  by_cases hut : u = t
  · exact hut ▸ insert_runnable s t
  · rw [insert_threads_of_ne hut]
    exact hu

theorem resume_runnable (t : τ) (hu : (s.threads u).Runnable) : ((s.rtThreadResume t).threads u).Runnable := by
  rw [Scheduler.rtThreadResume]
  split_ifs
  · exact insert_keeps_runnable t hu
  · exact hu

theorem suspend_runnable (hne : u ≠ t) (hu : (s.threads u).Runnable) : ((s.rtThreadSuspend t).threads u).Runnable := by
  rw [Scheduler.rtThreadSuspend]
  split_ifs
  · rw [Scheduler.setStat, setThread_of_ne hne]
    exact hu
  · exact hu

theorem exit_runnable (hne : u ≠ t) (hu : (s.threads u).Runnable) : ((s.threadExit t).threads u).Runnable := by
  rw [Scheduler.threadExit, setThread_of_ne hne]
  exact hu

theorem changePriority_runnable (t : τ) (p : Fin 32) (hu : (s.threads u).Runnable) :
    ((s.changePriority t p).threads u).Runnable := by
  rw [Scheduler.changePriority]
  dsimp only
  by_cases hut : u = t
  · subst hut
    split_ifs
    · exact insert_runnable _ u
    · rw [setThread_self]
      exact hu
  · split_ifs
    · rw [insert_threads_of_ne hut, setThread_of_ne hut]
      exact hu
    · rw [setThread_of_ne hut]
      exact hu

theorem Coherent.runnable_step {a : SchedAction τ} {out : List τ} (h : Coherent s) (henabled : SchedEnabled s a)
    (hblocks : NotBlocked u s a) (hstep : schedStep s a = some (s', out)) (hu : (s.threads u).Runnable) :
    (s'.threads u).Runnable := by
  cases a with
  | start =>
    obtain ⟨s₁, hstart, heq⟩ := Option.map_eq_some_iff.mp hstep
    exact (Prod.mk.inj heq).1 ▸ start_runnable hstart hu
  | schedule =>
    obtain ⟨s₁, hschedule, heq⟩ := Option.map_eq_some_iff.mp hstep
    exact (Prod.mk.inj heq).1 ▸ (h.schedule_kept hschedule u).mpr hu
  | markYield =>
    obtain ⟨t, -, heq⟩ := Option.map_eq_some_iff.mp hstep
    exact (Prod.mk.inj heq).1 ▸ markYield_runnable t hu
  | startup t =>
    obtain ⟨rfl, -⟩ := Prod.mk.inj (Option.some.inj hstep)
    exact startup_runnable henabled hu
  | startupInsert t =>
    obtain ⟨rfl, -⟩ := Prod.mk.inj (Option.some.inj hstep)
    exact insert_keeps_runnable t hu
  | resume t =>
    obtain ⟨rfl, -⟩ := Prod.mk.inj (Option.some.inj hstep)
    exact resume_runnable t hu
  | suspend =>
    obtain ⟨t, hcurrent, heq⟩ := Option.map_eq_some_iff.mp hstep
    have hne : u ≠ t := fun hut => hblocks (hut ▸ hcurrent)
    exact (Prod.mk.inj heq).1 ▸ suspend_runnable hne hu
  | exit =>
    obtain ⟨t, hcurrent, heq⟩ := Option.map_eq_some_iff.mp hstep
    have hne : u ≠ t := fun hut => hblocks (hut ▸ hcurrent)
    exact (Prod.mk.inj heq).1 ▸ exit_runnable hne hu
  | changePriority t p =>
    obtain ⟨rfl, -⟩ := Prod.mk.inj (Option.some.inj hstep)
    exact changePriority_runnable t p hu
  | enterCritical =>
    obtain ⟨rfl, -⟩ := Prod.mk.inj (Option.some.inj hstep)
    exact hu
  | exitCritical =>
    obtain ⟨rfl, -⟩ := Prod.mk.inj (Option.some.inj hstep)
    exact hu

/-- A thread that can run has the processor or waits for it in the list of its priority, until it blocks or exits. -/
theorem runnable_until_blocked {as₀ as : List (SchedAction τ)} {es₀ es : List τ} {s₀ : Scheduler τ}
    (hreach : Reaches (schedSystem τ) as₀ es₀ s₀) (hrunnable : (s₀.threads u).Runnable)
    (hrun : Run ((schedSystem τ).restrict (NotBlocked u)) s₀ as es s) :
    s.current = some u ∧ (s.threads u).stat = .running ∨
      (s.table (s.threads u).currentPriority).count u = 1 := by
  have hinv : Coherent s ∧ (s.threads u).Runnable := by
    refine hrun.invariant (fun _ _ s => Coherent s ∧ (s.threads u).Runnable)
      ⟨coherent_of_reaches hreach, hrunnable⟩ ?_
    intro as es s a out s' ⟨hcoherent, hu⟩ ⟨henabled, hblocks⟩ hstep
    exact ⟨hcoherent.step henabled hstep, hcoherent.runnable_step henabled hblocks hstep hu⟩
  obtain ⟨hcoherent, hready | hrunning⟩ := hinv
  · exact .inr (List.count_eq_one_of_mem (hcoherent.nodup _) ((hcoherent.listed _ u).mpr ⟨hready, rfl⟩))
  · exact .inl ⟨hcoherent.running u hrunning, hrunning⟩

def waits : List (SchedAction Task) :=
  [.suspend, .schedule, .changePriority .menu idlePriority, .suspend, .schedule, .resume .bus, .schedule]

theorem waits_isSome : (((schedSystem Task).restrict (NotBlocked .menu)).exec
    (((schedSystem Task).exec Scheduler.four startup).get startup_isSome).1 waits).isSome := by
  decide +kernel

theorem runnable_until_blocked_four :
    (((((schedSystem Task).restrict (NotBlocked .menu)).exec
        (((schedSystem Task).exec Scheduler.four startup).get startup_isSome).1 waits).get
          waits_isSome).1.current = some .menu ∧
      (((((schedSystem Task).restrict (NotBlocked .menu)).exec
        (((schedSystem Task).exec Scheduler.four startup).get startup_isSome).1 waits).get
          waits_isSome).1.threads .menu).stat = .running) ∨
      (((((schedSystem Task).restrict (NotBlocked .menu)).exec
        (((schedSystem Task).exec Scheduler.four startup).get startup_isSome).1 waits).get
          waits_isSome).1.table (((((schedSystem Task).restrict (NotBlocked .menu)).exec
        (((schedSystem Task).exec Scheduler.four startup).get startup_isSome).1 waits).get
          waits_isSome).1.threads .menu).currentPriority).count .menu = 1 :=
  runnable_until_blocked (Reaches.of_exec Scheduler.four_initial startup_isSome) (.inl (by decide +kernel))
    (System.exec_run (Option.some_get waits_isSome).symm)

/-! ### Two threads at the head of a priority -/

/-- `x` has the processor and `y` is the next of its priority. -/
structure Paired (p : Fin 32) (rest : List τ) (x y : τ) (s : Scheduler τ) : Prop where
  current : s.current = some x
  running : (s.threads x).stat = .running
  priority : (s.threads x).currentPriority = p
  list : s.table p = y :: rest
  higher : ∀ q < p, s.table q = []

/-- No thread waits for anything but the processor, and those that start or come back are of a lower priority. -/
def Turns (p : Fin 32) (s : Scheduler τ) : SchedAction τ → Prop
  | .start => False
  | .schedule => True
  | .markYield => True
  | .startup _ => True
  | .startupInsert t => p < (s.threads t).currentPriority
  | .resume t => p < (s.threads t).currentPriority
  | .suspend => False
  | .exit => False
  | .changePriority _ _ => False
  | .enterCritical => True
  | .exitCritical => True

instance decidableTurns (p : Fin 32) (s : Scheduler τ) : (a : SchedAction τ) → Decidable (Turns p s a)
  | .start => inferInstanceAs (Decidable False)
  | .schedule => inferInstanceAs (Decidable True)
  | .markYield => inferInstanceAs (Decidable True)
  | .startup _ => inferInstanceAs (Decidable True)
  | .startupInsert t => inferInstanceAs (Decidable (p < (s.threads t).currentPriority))
  | .resume t => inferInstanceAs (Decidable (p < (s.threads t).currentPriority))
  | .suspend => inferInstanceAs (Decidable False)
  | .exit => inferInstanceAs (Decidable False)
  | .changePriority _ _ => inferInstanceAs (Decidable False)
  | .enterCritical => inferInstanceAs (Decidable True)
  | .exitCritical => inferInstanceAs (Decidable True)

instance decidableTurnsEnabled (p : Fin 32) (s : Scheduler τ) (a : SchedAction τ) :
    Decidable (((schedSystem τ).restrict (Turns p)).enabled s a) :=
  inferInstanceAs (Decidable (SchedEnabled s a ∧ Turns p s a))

variable {x y : τ} {rest : List τ}

theorem Paired.insert (h : Paired p rest x y s) (hne : t ≠ x) (hlower : p < (s.threads t).currentPriority) :
    Paired p rest x y (s.scheduleInsertThread t) := by
  have hcurrent : s.current ≠ some t := fun heq => hne (Option.some.inj (heq.symm.trans h.current))
  refine ⟨(insert_current s t).trans h.current, ?_, ?_, ?_, fun q hq => ?_⟩
  · rw [insert_threads hcurrent, Function.update_of_ne hne.symm]
    exact h.running
  · rw [insert_threads hcurrent, Function.update_of_ne hne.symm]
    exact h.priority
  · rw [insert_table hcurrent, Function.update_of_ne hlower.ne]
    exact h.list
  · rw [insert_table hcurrent, Function.update_of_ne (hq.trans hlower).ne]
    exact h.higher q hq

theorem Paired.resume (h : Paired p rest x y s) (hlower : p < (s.threads t).currentPriority) :
    Paired p rest x y (s.rtThreadResume t) := by
  rw [Scheduler.rtThreadResume]
  split_ifs with hsuspend
  · apply h.insert _ hlower
    rintro rfl
    rw [h.running] at hsuspend
    contradiction
  · exact h

theorem Paired.startup (h : Paired p rest x y s) (hinit : (s.threads t).stat = .init) :
    Paired p rest x y (s.rtThreadStartup t) := by
  have hne : x ≠ t := by
    rintro rfl
    rw [h.running] at hinit
    contradiction
  refine ⟨h.current, ?_, ?_, h.list, h.higher⟩
  · exact (congrArg Thread.stat (setThread_of_ne hne s _)).trans h.running
  · exact (congrArg Thread.currentPriority (setThread_of_ne hne s _)).trans h.priority

theorem Paired.startupInsert (h : Paired p rest x y s) (hcoherent : Coherent s) (hstarting : s.starting t = true)
    (hlower : p < (s.threads t).currentPriority) : Paired p rest x y (s.startupInsert t) := by
  have hne : t ≠ x := fun heq => (hcoherent.starting t hstarting).2 (heq ▸ h.current)
  have hinsert := h.insert hne hlower
  exact ⟨hinsert.current, hinsert.running, hinsert.priority, hinsert.list, hinsert.higher⟩

theorem Paired.markYield (h : Paired p rest x y s) :
    Paired p rest x y (s.setThread x { s.threads x with yield := true }) := by
  refine ⟨h.current, ?_, ?_, h.list, h.higher⟩
  · rw [setThread_self]
    exact h.running
  · rw [setThread_self]
    exact h.priority

/-- The current thread joins the list at its head, whether it yields or not. -/
theorem Paired.switch (h : Paired p rest x y s) (hcoherent : Coherent s) :
    Paired p rest x y (s.switch x y p) ∨ Paired p rest y x (s.switch x y p) := by
  have hy := (hcoherent.listed p y).mp (h.list ▸ List.mem_cons_self)
  have hne : y ≠ x := fun heq => (hcoherent.current x h.current).1 (heq ▸ hy.1)
  have hout (q : Fin 32) : x ∉ s.table q := by
    intro hmem
    have hready := ((hcoherent.listed q x).mp hmem).1
    rw [h.running] at hready
    contradiction
  have hcurrent := switch_current (p := p) h.current hne
  by_cases hstays : (s.threads x).Stays p
  · left
    have htable (q : Fin 32) : (s.switch x y p).table q = s.table q := by
      rw [switch_stays hstays]
      exact List.filter_eq_self.mpr fun u hu => decide_eq_true fun (heq : u = x) => hout q (heq ▸ hu)
    rw [if_pos hstays] at hcurrent
    refine ⟨hcurrent, ?_, ?_, (htable p).trans h.list, fun q hq => (htable q).trans (h.higher q hq)⟩
    · rw [switch_stays_threads hstays, Function.update_self]
    · rw [switch_stays_threads hstays, Function.update_self]
      exact h.priority
  · right
    have hother : ({ s.unyield x with current := some y } : Scheduler τ).current ≠ some x :=
      fun heq => hne (Option.some.inj heq)
    have hjoined : joined ({ s.unyield x with current := some y } : Scheduler τ) x = x :: y :: rest := by
      rw [joined, ← h.list]
      simp [Scheduler.unyield, Scheduler.setThread, h.priority]
    have htable (q : Fin 32) : (s.switch x y p).table q =
        (Function.update s.table p (x :: y :: rest) q).filter fun u => u ≠ y := by
      rw [switch_preempts h.running hstays hne]
      change (((_ : Scheduler τ).scheduleInsertThread x).table q).filter _ = _
      rw [insert_table hother, hjoined]
      simp [Scheduler.unyield, Scheduler.setThread, h.priority]
    have hrest : y ∉ rest := (List.nodup_cons.mp (h.list ▸ hcoherent.nodup p)).1
    have hthreads := switch_preempts_threads h.running hstays hne
    rw [if_neg hstays] at hcurrent
    refine ⟨hcurrent, ?_, ?_, ?_, fun q hq => ?_⟩
    · rw [hthreads, Function.update_self]
    · rw [hthreads, Function.update_self]
      exact hy.2
    · have hkept : rest.filter (fun u => u ≠ y) = rest :=
        List.filter_eq_self.mpr fun u hu => decide_eq_true fun (heq : u = y) => hrest (heq ▸ hu)
      rw [htable, Function.update_self, List.filter_cons_of_pos (by simpa using hne.symm),
        List.filter_cons_of_neg (by simp), hkept]
    · rw [htable, Function.update_of_ne hq.ne, h.higher q hq]
      rfl

theorem Paired.schedule (h : Paired p rest x y s) (hcoherent : Coherent s) (hschedule : s.rtSchedule = some s') :
    Paired p rest x y s' ∨ Paired p rest y x s' := by
  by_cases hlock : s.lockNest = 0
  · have hgroup : s.group ≠ 0 := by
      intro hzero
      have hset := (hcoherent.group p).mpr (by simp [h.list])
      simp [hzero] at hset
    obtain ⟨first, rest', q, hswitch, htable, hhigher⟩ := rtSchedule_eq_switch hcoherent h.current hlock hgroup
    obtain rfl : s.switch x first q = s' := Option.some.inj (hswitch.symm.trans hschedule)
    have hpq : p = q := by
      apply le_antisymm
      · apply not_lt.mp
        intro hlt
        rw [h.higher q hlt] at htable
        contradiction
      · apply not_lt.mp
        intro hlt
        have hlist := h.list
        rw [hhigher p hlt] at hlist
        contradiction
    subst q
    obtain ⟨rfl, rfl⟩ := List.cons.inj (htable.symm.trans h.list)
    exact h.switch hcoherent
  · rw [Scheduler.rtSchedule, if_pos (.inl hlock)] at hschedule
    exact .inl (Option.some.inj hschedule ▸ h)

theorem Paired.step {a : SchedAction τ} {out : List τ} (h : Paired p rest x y s) (hcoherent : Coherent s)
    (henabled : SchedEnabled s a) (hturns : Turns p s a) (hstep : schedStep s a = some (s', out)) :
    (Paired p rest x y s' ∨ Paired p rest y x s') ∧ ∀ u ∈ out, u = x ∨ u = y := by
  cases a with
  | start => exact hturns.elim
  | schedule =>
    obtain ⟨s₁, hschedule, heq⟩ := Option.map_eq_some_iff.mp hstep
    obtain ⟨rfl, rfl⟩ := Prod.mk.inj heq
    have hpaired := h.schedule hcoherent hschedule
    refine ⟨hpaired, fun u hu => ?_⟩
    rcases hpaired with hsame | hswapped
    · rw [hsame.current] at hu
      exact .inl (List.mem_singleton.mp hu)
    · rw [hswapped.current] at hu
      exact .inr (List.mem_singleton.mp hu)
  | markYield =>
    obtain ⟨t, hcurrent, heq⟩ := Option.map_eq_some_iff.mp hstep
    obtain ⟨rfl, rfl⟩ := Prod.mk.inj heq
    obtain rfl : x = t := Option.some.inj (h.current.symm.trans hcurrent)
    exact ⟨.inl h.markYield, by simp⟩
  | startup t =>
    obtain ⟨rfl, rfl⟩ := Prod.mk.inj (Option.some.inj hstep)
    exact ⟨.inl (h.startup henabled), by simp⟩
  | startupInsert t =>
    obtain ⟨rfl, rfl⟩ := Prod.mk.inj (Option.some.inj hstep)
    exact ⟨.inl (h.startupInsert hcoherent henabled hturns), by simp⟩
  | resume t =>
    obtain ⟨rfl, rfl⟩ := Prod.mk.inj (Option.some.inj hstep)
    exact ⟨.inl (h.resume hturns), by simp⟩
  | suspend => exact hturns.elim
  | exit => exact hturns.elim
  | changePriority t p => exact hturns.elim
  | enterCritical =>
    obtain ⟨rfl, rfl⟩ := Prod.mk.inj (Option.some.inj hstep)
    exact ⟨.inl ⟨h.current, h.running, h.priority, h.list, h.higher⟩, by simp⟩
  | exitCritical =>
    obtain ⟨rfl, rfl⟩ := Prod.mk.inj (Option.some.inj hstep)
    exact ⟨.inl ⟨h.current, h.running, h.priority, h.list, h.higher⟩, by simp⟩

/-- As long as the two do not block, the others of their priority are ready and never get the processor, however often the two yield and however many slices end. -/
theorem third_thread_waits {as₀ as : List (SchedAction τ)} {es₀ es : List τ} {s₀ : Scheduler τ}
    (hreach : Reaches (schedSystem τ) as₀ es₀ s₀) (hpaired : Paired p rest x y s₀)
    (hrun : Run ((schedSystem τ).restrict (Turns p)) s₀ as es s) :
    (∀ u ∈ es, u = x ∨ u = y) ∧
      ∀ u ∈ rest, (s.threads u).stat = .ready ∧ (s.threads u).currentPriority = p := by
  have hinv : Coherent s ∧ (Paired p rest x y s ∨ Paired p rest y x s) ∧ ∀ u ∈ es, u = x ∨ u = y := by
    refine hrun.invariant
      (fun _ es s => Coherent s ∧ (Paired p rest x y s ∨ Paired p rest y x s) ∧ ∀ u ∈ es, u = x ∨ u = y)
      ⟨coherent_of_reaches hreach, .inl hpaired, by simp⟩ ?_
    intro as es s a out s' ⟨hcoherent, hpair, hes⟩ ⟨henabled, hturns⟩ hstep
    refine ⟨hcoherent.step henabled hstep, ?_⟩
    rcases hpair with hpair | hpair
    · obtain ⟨hpair', hout⟩ := hpair.step hcoherent henabled hturns hstep
      exact ⟨hpair', fun u hu => (List.mem_append.mp hu).elim (hes u) (hout u)⟩
    · obtain ⟨hpair', hout⟩ := hpair.step hcoherent henabled hturns hstep
      exact ⟨hpair'.symm, fun u hu => (List.mem_append.mp hu).elim (hes u) fun hu => (hout u hu).symm⟩
  obtain ⟨hcoherent, hpair, hes⟩ := hinv
  refine ⟨hes, fun u hu => (hcoherent.listed p u).mp ?_⟩
  rcases hpair with hpair | hpair
  · exact hpair.list ▸ List.mem_cons_of_mem _ hu
  · exact hpair.list ▸ List.mem_cons_of_mem _ hu

def yields : List (SchedAction Task) :=
  [.markYield, .schedule, .enterCritical, .markYield, .schedule, .exitCritical, .schedule, .markYield, .schedule]

theorem yields_isSome : (((schedSystem Task).restrict (Turns taskPriority)).exec
    (((schedSystem Task).exec Scheduler.four startup).get startup_isSome).1 yields).isSome := by
  decide +kernel

theorem yields_events : ((((schedSystem Task).restrict (Turns taskPriority)).exec
    (((schedSystem Task).exec Scheduler.four startup).get startup_isSome).1 yields).get yields_isSome).2 =
      [.bus, .bus, .lamp, .bus] := by
  decide +kernel

theorem third_thread_waits_four :
    (∀ u ∈ [Task.bus, .bus, .lamp, .bus], u = .lamp ∨ u = .bus) ∧
      ∀ u ∈ [Task.menu], (((((schedSystem Task).restrict (Turns taskPriority)).exec
        (((schedSystem Task).exec Scheduler.four startup).get startup_isSome).1 yields).get
          yields_isSome).1.threads u).stat = .ready ∧
        (((((schedSystem Task).restrict (Turns taskPriority)).exec
          (((schedSystem Task).exec Scheduler.four startup).get startup_isSome).1 yields).get
            yields_isSome).1.threads u).currentPriority = taskPriority :=
  yields_events ▸ third_thread_waits (Reaches.of_exec Scheduler.four_initial startup_isSome)
    ⟨by decide +kernel, by decide +kernel, by decide +kernel, by decide +kernel, by decide +kernel⟩
    (System.exec_run (Option.some_get yields_isSome).symm)

end LightControlMonitor.Kernel
