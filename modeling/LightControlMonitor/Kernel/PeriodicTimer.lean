import LightControlMonitor.Kernel.Timer

/-!
# Periodic timers

`rt_timer_check` starts a periodic timer again from the tick of the interrupt, behind its timeout function. A timer that is left alone is called at every multiple of its period, whatever the other timers and their timeout functions do.
-/

namespace LightControlMonitor.Kernel

open Alarms (Alarm Clock Event)
open Transition (System Reaches)

variable {ι : Type*} [DecidableEq ι]

/-- The action does not stop, restart or change the timer. -/
def TimerAction.Leaves (t : ι) : TimerAction ι → Prop
  | .start u => u ≠ t
  | .stop u => u ≠ t
  | .detach u => u ≠ t
  | .setTime u _ => u ≠ t
  | .setOneshot u => u ≠ t
  | .setPeriodic _ => True
  | .tick => True
  | .enterCheck => True
  | .checkTurn => True
  | .checkReturn => True

/-- The timer since its start: it waits for the next multiple of its period, or its timeout function runs at one. -/
structure Steady (t : ι) (period : Nat) (es : List (Event ι)) (s : TimerState ι) : Prop where
  periodic : (s.timers t).periodic = true
  initTick : (s.timers t).initTick.toNat = period
  activated : (s.timers t).activated = true
  rings : ∀ before after, es = before ++ .ring t :: after →
    Alarms.ticks before = period * (before.count (.ring t) + 1)
  calling : s.phase = .calling t true → Alarms.ticks es = period * es.count (.ring t)
  waiting : s.phase ≠ .calling t true → ∃ before after, .set t period :: es = before ++ .set t period :: after ∧
    (∀ e ∈ after, e.id? ≠ some t) ∧ Alarms.ticks before = period * es.count (.ring t)

variable {t u : ι} {period start : Nat} {es : List (Event ι)} {s s' : TimerState ι} {e : Event ι} {c : Clock ι}

theorem Steady.congr (h : Steady t period es s) (htimer : s'.timers t = s.timers t)
    (hphase : s'.phase = .calling t true ↔ s.phase = .calling t true) : Steady t period es s' :=
  ⟨htimer ▸ h.periodic, htimer ▸ h.initTick, htimer ▸ h.activated, h.rings, fun hp => h.calling (hphase.mp hp),
    fun hp => h.waiting fun hq => hp (hphase.mpr hq)⟩

omit [DecidableEq ι] in
/-- The last event of a history, or one before it. -/
theorem snoc_split {before after : List (Event ι)} (hsplit : es ++ [e] = before ++ .ring t :: after) :
    es = before ∧ e = .ring t ∨ ∃ after', es = before ++ .ring t :: after' := by
  rcases List.eq_nil_or_concat after with rfl | ⟨after', x, rfl⟩
  · obtain ⟨hes, he⟩ := List.append_inj' hsplit rfl
    exact .inl ⟨hes, List.singleton_inj.mp he⟩
  · rw [List.concat_eq_append, ← List.cons_append, ← List.append_assoc] at hsplit
    exact .inr ⟨after', (List.append_inj' hsplit rfl).1⟩

/-- What happens to other timers does not concern it, and no tick passes while its timeout function runs. -/
theorem Steady.snoc (h : Steady t period es s) (he : e.id? ≠ some t) (htick : s.phase = .calling t true → e ≠ .tick) :
    Steady t period (es ++ [e]) s := by
  have hcount : (es ++ [e]).count (.ring t) = es.count (.ring t) := by
    have hne : e ≠ .ring t := fun heq => he (heq ▸ rfl)
    rw [List.count_append, List.count_singleton, if_neg (by simpa using hne), Nat.add_zero]
  refine ⟨h.periodic, h.initTick, h.activated, fun before after hsplit => ?_, fun hphase => ?_, fun hphase => ?_⟩
  · rcases snoc_split hsplit with ⟨-, rfl⟩ | ⟨after', hes⟩
    · exact absurd rfl he
    · exact h.rings before after' hes
  · have hzero : Alarms.ticks [e] = 0 := List.count_eq_zero.mpr (by simpa using Ne.symm (htick hphase))
    rw [hcount, Alarms.ticks_append, hzero, Nat.add_zero]
    exact h.calling hphase
  · obtain ⟨before, after, hsplit, hafter, hticks⟩ := h.waiting hphase
    refine ⟨before, after ++ [e], ?_, ?_, hcount ▸ hticks⟩
    · rw [← List.cons_append, hsplit, List.append_assoc, List.cons_append]
    · intro x hx
      rcases List.mem_append.mp hx with hx | hx
      · exact hafter x hx
      · exact List.mem_singleton.mp hx ▸ he

theorem ticks_split {before after : List (Event ι)} (hsplit : .set t period :: es = before ++ .set t period :: after) :
    Alarms.ticks es = Alarms.ticks before + Alarms.ticks after := by
  have hset (es : List (Event ι)) : Alarms.ticks (.set t period :: es) = Alarms.ticks es :=
    List.count_cons_of_ne (by simp)
  rw [← hset es, hsplit, Alarms.ticks_append, hset]

/-- It is called when one period has passed since it was set. -/
theorem Steady.ring {es₀ : List (Event ι)} (h : Steady t period es s) (hpos : 0 < period)
    (hrun : Alarms.Run start (es₀ ++ .set t period :: es ++ [.ring t]) c) (hphase : s.phase ≠ .calling t true)
    (htimer : s'.timers t = s.timers t) (hcalling : s'.phase = .calling t true) :
    Steady t period (es ++ [.ring t]) s' := by
  obtain ⟨before, after, hsplit, hafter, hticks⟩ := h.waiting hphase
  rw [hsplit, ← List.append_assoc] at hrun
  obtain ⟨hlow, hhigh⟩ := hrun.ring_after_set hafter
  have htotal := ticks_split hsplit
  have hnext : Alarms.ticks es = period * (es.count (.ring t) + 1) := by
    rw [htotal, hticks, Nat.mul_add, Nat.mul_one]
    omega
  refine ⟨htimer ▸ h.periodic, htimer ▸ h.initTick, htimer ▸ h.activated, fun before after hsplit => ?_, fun _ => ?_,
    fun hp => absurd hcalling hp⟩
  · rcases snoc_split hsplit with ⟨rfl, -⟩ | ⟨after', hes⟩
    · exact hnext
    · exact h.rings before after' hes
  · rw [List.count_append, List.count_singleton_self, Alarms.ticks_append, hnext]
    rfl

/-- Behind its timeout function it is set again, at the same tick. -/
theorem Steady.restart (h : Steady t period es s) (hphase : s.phase = .calling t true)
    (hperiodic : (s'.timers t).periodic = true) (hinit : (s'.timers t).initTick.toNat = period)
    (hactivated : (s'.timers t).activated = true) (hwaiting : s'.phase ≠ .calling t true) :
    Steady t period (es ++ [.set t period]) s' := by
  have hcount : (es ++ [Event.set t period]).count (.ring t) = es.count (.ring t) := by
    rw [List.count_append, List.count_singleton, if_neg (by simp), Nat.add_zero]
  refine ⟨hperiodic, hinit, hactivated, fun before after hsplit => ?_, fun hp => absurd hp hwaiting, fun _ => ?_⟩
  · rcases snoc_split hsplit with ⟨-, heq⟩ | ⟨after', hes⟩
    · contradiction
    · exact h.rings before after' hes
  · refine ⟨.set t period :: es, [], rfl, by simp, ?_⟩
    rw [hcount, ← h.calling hphase]
    exact List.count_cons_of_ne (by simp)

/-! ### The steps of the timers -/

theorem timerRemove_calling (hne : u ≠ t) (phase : TimerPhase ι) :
    phase.timerRemove u = .calling t true ↔ phase = .calling t true := by
  cases phase with
  | idle => rfl
  | ticked => rfl
  | checking => rfl
  | calling current held =>
    rw [TimerPhase.timerRemove]
    split_ifs with heq
    · subst current
      simp [hne]
    · rfl

theorem timerRemove_self (phase : TimerPhase ι) : phase.timerRemove t ≠ .calling t true := by
  cases phase with
  | idle => simp [TimerPhase.timerRemove]
  | ticked => simp [TimerPhase.timerRemove]
  | checking => simp [TimerPhase.timerRemove]
  | calling current held =>
    rw [TimerPhase.timerRemove]
    split_ifs with heq
    · simp
    · simp [heq]

theorem Steady.startOther (h : Steady t period es s) (hne : u ≠ t) :
    Steady t period (es ++ (s.rtTimerStart u).2) (s.rtTimerStart u).1 := by
  have hid : (Event.set u (s.timers u).initTick.toNat).id? ≠ some t := by simpa [Event.id?] using hne
  exact (h.snoc hid fun _ => by simp).congr (Function.update_of_ne (Ne.symm hne) ..) (timerRemove_calling hne s.phase)

theorem Steady.detachOther (h : Steady t period es s) (hne : u ≠ t) :
    Steady t period (es ++ (s.rtTimerDetach u).2) (s.rtTimerDetach u).1 := by
  have hid : (Event.cancel u).id? ≠ some t := by simpa [Event.id?] using hne
  exact (h.snoc hid fun _ => by simp).congr (Function.update_of_ne (Ne.symm hne) ..) (timerRemove_calling hne s.phase)

theorem Steady.setOther {timer : RtTimer} (h : Steady t period es s) (hne : u ≠ t) :
    Steady t period (es ++ []) (s.setTimer u timer) := by
  rw [List.append_nil]
  exact h.congr (Function.update_of_ne (Ne.symm hne) ..) Iff.rfl

/-- A turn ends the loop, or it calls one timer and changes no other. -/
theorem checkTurn_cases (s : TimerState ι) :
    s.checkTurn = ({ s with phase := .idle }, []) ∨ ∃ u, s.checkTurn.2 = [.ring u] ∧
      s.checkTurn.1.phase = .calling u true ∧ ((s.timers u).periodic = true → s.checkTurn.1.timers u = s.timers u) ∧
      ∀ v, v ≠ u → s.checkTurn.1.timers v = s.timers v := by
  unfold TimerState.checkTurn
  split
  · exact .inl rfl
  · rename_i u rest _
    split_ifs
    · by_cases hperiodic : (s.timers u).periodic = true
      · dsimp only
        rw [if_pos hperiodic]
        exact .inr ⟨u, rfl, rfl, fun _ => rfl, fun _ _ => rfl⟩
      · dsimp only
        rw [if_neg hperiodic]
        exact .inr ⟨u, rfl, rfl, fun hp => absurd hp hperiodic, fun v hv => Function.update_of_ne hv ..⟩
    · exact .inl rfl

theorem Steady.checkTurn {es₀ : List (Event ι)} (h : Steady t period es s) (hpos : 0 < period)
    (hphase : s.phase = .checking) (hrun : Alarms.Run start (es₀ ++ .set t period :: es ++ s.checkTurn.2) c) :
    Steady t period (es ++ s.checkTurn.2) s.checkTurn.1 := by
  have hchecking : s.phase ≠ .calling t true := by simp [hphase]
  rcases checkTurn_cases s with hstop | ⟨u, hout, hcalling, hperiodic, hothers⟩
  · rw [hstop, List.append_nil]
    exact h.congr rfl (by simp [hphase])
  · rw [hout] at hrun ⊢
    by_cases heq : u = t
    · subst u
      exact h.ring hpos hrun hchecking (hperiodic h.periodic) hcalling
    · have hid : (Event.ring u).id? ≠ some t := by simpa [Event.id?] using heq
      exact (h.snoc hid fun _ => by simp).congr (hothers t (Ne.symm heq)) (by simp [hphase, hcalling, heq])

theorem Steady.checkReturn {held : Bool} (h : Steady t period es s) (hphase : s.phase = .calling u held) :
    Steady t period (es ++ (s.checkReturn u held).2) (s.checkReturn u held).1 := by
  rw [TimerState.checkReturn]
  by_cases heq : u = t
  · subst u
    cases held with
    | false =>
      rw [if_neg (by simp), List.append_nil]
      exact h.congr rfl (by simp [hphase])
    | true =>
      rw [if_pos ⟨rfl, h.periodic, h.activated⟩]
      have hself : (TimerState.rtTimerStart { s with phase := .checking } t).1.timers t =
          { s.timers t with timeoutTick := s.rtTick + (s.timers t).initTick, activated := true } :=
        Function.update_self ..
      have hset : (TimerState.rtTimerStart { s with phase := .checking } t).2 = [.set t period] := by
        rw [← h.initTick]
        rfl
      have hwaiting : (TimerState.rtTimerStart { s with phase := .checking } t).1.phase ≠ .calling t true := by
        intro heq
        contradiction
      rw [hset]
      exact h.restart hphase (hself ▸ h.periodic) (hself ▸ h.initTick) (hself ▸ rfl) hwaiting
  · have hchecking : Steady t period es { s with phase := .checking } := h.congr rfl (by simp [hphase, heq])
    split_ifs
    · exact hchecking.startOther heq
    · rw [List.append_nil]
      exact hchecking

theorem Steady.step {es₀ out : List (Event ι)} {a : TimerAction ι} (h : Steady t period es s) (hpos : 0 < period)
    (hrun : Alarms.Run start (es₀ ++ .set t period :: es ++ out) c) (hleaves : a.Leaves t)
    (henabled : TimerEnabled s a) (hstep : timerStep s a = some (s', out)) : Steady t period (es ++ out) s' := by
  cases a with
  | tick =>
    obtain ⟨rfl, rfl⟩ := Prod.mk.inj (Option.some.inj hstep)
    have hidle : s.phase = .idle := henabled
    exact (h.snoc (by simp [Event.id?]) (by simp [hidle])).congr rfl (by simp [hidle])
  | enterCheck =>
    obtain ⟨rfl, rfl⟩ := Prod.mk.inj (Option.some.inj hstep)
    have hticked : s.phase = .ticked := henabled
    rw [List.append_nil]
    exact h.congr rfl (by simp [hticked])
  | checkTurn =>
    obtain ⟨rfl, rfl⟩ := Prod.mk.inj (Option.some.inj hstep)
    exact h.checkTurn hpos henabled hrun
  | checkReturn =>
    rw [timerStep] at hstep
    split at hstep
    · rename_i hphase
      obtain ⟨rfl, rfl⟩ := Prod.mk.inj (Option.some.inj hstep)
      exact h.checkReturn hphase
    · contradiction
  | start u =>
    obtain ⟨rfl, rfl⟩ := Prod.mk.inj (Option.some.inj hstep)
    exact h.startOther hleaves
  | stop u =>
    rw [timerStep, TimerState.rtTimerStop] at hstep
    split_ifs at hstep
    · obtain ⟨rfl, rfl⟩ := Prod.mk.inj (Option.some.inj hstep)
      exact h.detachOther hleaves
    · obtain ⟨rfl, rfl⟩ := Prod.mk.inj (Option.some.inj hstep)
      rw [List.append_nil]
      exact h
  | detach u =>
    obtain ⟨rfl, rfl⟩ := Prod.mk.inj (Option.some.inj hstep)
    exact h.detachOther hleaves
  | setTime u time =>
    rw [timerStep] at hstep
    split_ifs at hstep
    obtain ⟨rfl, rfl⟩ := Prod.mk.inj (Option.some.inj hstep)
    exact h.setOther hleaves
  | setOneshot u =>
    obtain ⟨rfl, rfl⟩ := Prod.mk.inj (Option.some.inj hstep)
    exact h.setOther hleaves
  | setPeriodic u =>
    obtain ⟨rfl, rfl⟩ := Prod.mk.inj (Option.some.inj hstep)
    by_cases heq : u = t
    · subst u
      have hself : (s.setTimer t { s.timers t with periodic := true }).timers t = s.timers t := by
        refine (Function.update_self ..).trans ?_
        rw [← h.periodic]
      rw [List.append_nil]
      exact h.congr hself Iff.rfl
    · exact h.setOther heq

theorem Steady.started (hperiodic : (s.timers t).periodic = true) :
    Steady t (s.timers t).initTick.toNat [] (s.rtTimerStart t).1 := by
  have hself : (s.rtTimerStart t).1.timers t =
      { s.timers t with timeoutTick := s.rtTick + (s.timers t).initTick, activated := true } :=
    Function.update_self ..
  refine ⟨hself ▸ hperiodic, hself ▸ rfl, hself ▸ rfl, by simp, fun hphase => ?_, fun _ => ?_⟩
  · exact absurd hphase (timerRemove_self s.phase)
  · exact ⟨[], [], rfl, by simp, rfl⟩

/-- Between two ticks no multiple of the period is owed. -/
theorem Steady.count_eq {es₀ : List (Event ι)} (h : Steady t period es s) (hpos : 0 < period)
    (htimed : Timed start (es₀ ++ .set t period :: es) s c) (hidle : s.phase = .idle) :
    es.count (.ring t) = Alarms.ticks es / period := by
  obtain ⟨before, after, hsplit, hafter, hticks⟩ := h.waiting (by simp [hidle])
  have hrun := htimed.run
  rw [hsplit, ← List.append_assoc] at hrun
  obtain ⟨since, hmem, hnow⟩ := hrun.pending_of_set hafter
  have hearly := htimed.early hidle _ hmem
  dsimp only [Alarm.latest] at hearly
  rw [ticks_split hsplit, hticks, Nat.mul_add_div hpos, Nat.div_eq_of_lt (by omega), Nat.add_zero]

/-- A periodic timer that is started and left alone is called at the multiples of its period, counted from its start, and at each of them. -/
theorem periodic_no_drift {as as' : List (TimerAction ι)} {es₀ : List (Event ι)} {s₀ : TimerState ι}
    (hreach : Reaches (timerSystem ι) as es₀ s₀)
    (hperiodic : (s₀.timers t).periodic = true) (hpos : 0 < (s₀.timers t).initTick.toNat)
    (hrun : Transition.Run (timerSystem ι) (s₀.rtTimerStart t).1 as' es s) (hleaves : ∀ a ∈ as', a.Leaves t) :
    (∀ before after, es = before ++ .ring t :: after →
      Alarms.ticks before = (s₀.timers t).initTick.toNat * (before.count (.ring t) + 1)) ∧
    (s.phase = .idle → es.count (.ring t) = Alarms.ticks es / (s₀.timers t).initTick.toNat) := by
  obtain ⟨start, c₀, htimed⟩ := timed_of_reaches hreach
  obtain ⟨c₁, hstarted⟩ := htimed.rtTimerStart t
  have hsteady : ∃ c, Timed start (es₀ ++ .set t (s₀.timers t).initTick.toNat :: es) s c ∧
      Steady t (s₀.timers t).initTick.toNat es s := by
    refine hrun.invariant (fun as es s => (∀ a ∈ as, a.Leaves t) →
      ∃ c, Timed start (es₀ ++ .set t (s₀.timers t).initTick.toNat :: es) s c ∧
        Steady t (s₀.timers t).initTick.toNat es s) ?_ ?_ hleaves
    · exact fun _ => ⟨c₁, hstarted, .started hperiodic⟩
    · intro as es s a out s' h henabled hstep hall
      obtain ⟨c, htimed, hsteady⟩ := h fun x hx => hall x (List.mem_append_left _ hx)
      obtain ⟨c', htimed'⟩ := htimed.step henabled hstep
      rw [List.append_assoc, List.cons_append] at htimed'
      have hrun := htimed'.run
      rw [← List.cons_append, ← List.append_assoc] at hrun
      exact ⟨c', htimed', hsteady.step hpos hrun (hall a (List.mem_append_right _ (List.mem_singleton_self a))) henabled
        hstep⟩
  obtain ⟨c, htimed', hsteady⟩ := hsteady
  exact ⟨hsteady.rings, hsteady.count_eq hpos htimed'⟩

theorem twoRings_rest :
    ((timerSystem Bool).exec (TimerState.nearWrap.rtTimerStart true).1 (twoRings.drop 1)).map Prod.snd =
      some [.set false 3, .tick, .tick, .ring true, .set true 2, .tick, .ring false] := by
  decide +kernel

/-- Three ticks after its start, the timer of period 2 has been called once, after two of them. -/
theorem periodic_no_drift_wrapped :
    ∃ s : TimerState Bool,
      (∀ before after, [Event.set false 3, .tick, .tick, .ring true, .set true 2, .tick, .ring false] =
          before ++ .ring true :: after →
        Alarms.ticks before = (TimerState.nearWrap.timers true).initTick.toNat * (before.count (.ring true) + 1)) ∧
      (s.phase = .idle → [Event.set false 3, .tick, .tick, .ring true, .set true 2, .tick, .ring false].count
          (.ring true) =
        Alarms.ticks [Event.set false 3, .tick, .tick, .ring true, .set true 2, .tick, .ring false] /
          (TimerState.nearWrap.timers true).initTick.toNat) := by
  obtain ⟨⟨s, es⟩, hexec, rfl⟩ := Option.map_eq_some_iff.mp twoRings_rest
  have hleaves : ∀ a ∈ twoRings.drop 1, a.Leaves true := by simp [twoRings, TimerAction.Leaves]
  exact ⟨s, periodic_no_drift ⟨_, TimerState.nearWrap_initial, .nil⟩ rfl (by decide)
    (Transition.System.exec_run hexec) hleaves⟩

end LightControlMonitor.Kernel
