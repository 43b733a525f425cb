import LightControlMonitor.Kernel.Scheduler

/-!
# The ready lists

Every ready thread stands once in the list of its priority and nothing else does, and the bits of the word say which lists are not empty. Every operation keeps this, whatever its thread did before, and so `rt_schedule` finds a thread of the highest priority.
-/

namespace LightControlMonitor.Kernel

open Transition (System Reaches)

variable {τ : Type*} [DecidableEq τ]

/-- A thread that has been started has the mask of its priority. -/
def Thread.MaskFits (thread : Thread) : Prop :=
  thread.stat ≠ .init → thread.numberMask = priorityMask thread.currentPriority

structure Queued (s : Scheduler τ) : Prop where
  listed : ∀ p t, t ∈ s.table p ↔ (s.threads t).stat = .ready ∧ (s.threads t).currentPriority = p
  nodup : ∀ p, (s.table p).Nodup
  group : ∀ p : Fin 32, s.group.getLsbD p = true ↔ s.table p ≠ []
  mask : ∀ t, (s.threads t).MaskFits

/-- The current thread is not waiting for the processor, and no other has it. Nothing happens to a thread that is being started. -/
structure Coherent (s : Scheduler τ) : Prop extends Queued s where
  current : ∀ t, s.current = some t → (s.threads t).stat ≠ .ready ∧ (s.threads t).stat ≠ .init
  running : ∀ t, (s.threads t).stat = .running → s.current = some t
  starting : ∀ t, s.starting t = true → (s.threads t).stat = .suspend ∧ s.current ≠ some t

variable {s s' : Scheduler τ} {t u : τ} {p q : Fin 32} {thread : Thread}

theorem getLsbD_priorityMask (p q : Fin 32) : (priorityMask p).getLsbD q = decide (p = q) := by
  revert p q
  decide +kernel

@[simp] theorem setThread_self (s : Scheduler τ) (t : τ) (thread : Thread) :
    (s.setThread t thread).threads t = thread :=
  Function.update_self ..

theorem setThread_of_ne (hne : u ≠ t) (s : Scheduler τ) (thread : Thread) :
    (s.setThread t thread).threads u = s.threads u :=
  Function.update_of_ne hne ..

/-- Another thread record that is listed where the old one is. -/
theorem Queued.setThread (h : Queued s)
    (hlisted : ∀ p, (thread.stat = .ready ∧ thread.currentPriority = p) ↔
      ((s.threads t).stat = .ready ∧ (s.threads t).currentPriority = p))
    (hmask : thread.MaskFits) : Queued (s.setThread t thread) := by
  refine ⟨fun p u => ?_, h.nodup, h.group, fun u => ?_⟩
  · by_cases heq : u = t
    · subst u
      rw [setThread_self, hlisted p]
      exact h.listed p t
    · rw [setThread_of_ne heq]
      exact h.listed p u
  · by_cases heq : u = t
    · subst u
      rw [setThread_self]
      exact hmask
    · rw [setThread_of_ne heq]
      exact h.mask u

/-- Where a thread joins the list of its priority. -/
def joined (s : Scheduler τ) (t : τ) : List τ :=
  if (s.threads t).yield then s.table (s.threads t).currentPriority ++ [t]
  else t :: s.table (s.threads t).currentPriority

omit [DecidableEq τ] in
theorem mem_joined : u ∈ joined s t ↔ u = t ∨ u ∈ s.table (s.threads t).currentPriority := by
  rw [joined]
  split_ifs
  · rw [List.mem_append, List.mem_singleton, or_comm]
  · rw [List.mem_cons]

omit [DecidableEq τ] in
theorem nodup_joined (hnew : t ∉ s.table (s.threads t).currentPriority)
    (hnodup : (s.table (s.threads t).currentPriority).Nodup) : (joined s t).Nodup := by
  rw [joined]
  split_ifs
  · exact hnodup.append (List.nodup_singleton t) (List.disjoint_singleton.mpr hnew)
  · exact List.nodup_cons.mpr ⟨hnew, hnodup⟩

theorem insert_threads (hcurrent : s.current ≠ some t) :
    (s.scheduleInsertThread t).threads = Function.update s.threads t { s.threads t with stat := .ready } := by
  rw [Scheduler.scheduleInsertThread, if_neg hcurrent]
  rfl

theorem insert_table (hcurrent : s.current ≠ some t) :
    (s.scheduleInsertThread t).table = Function.update s.table (s.threads t).currentPriority (joined s t) := by
  rw [Scheduler.scheduleInsertThread, if_neg hcurrent]
  rfl

theorem insert_group (hcurrent : s.current ≠ some t) :
    (s.scheduleInsertThread t).group = s.group ||| (s.threads t).numberMask := by
  rw [Scheduler.scheduleInsertThread, if_neg hcurrent]

theorem Queued.insert (h : Queued s) (hcurrent : s.current ≠ some t) (hready : (s.threads t).stat ≠ .ready)
    (hmask : (s.threads t).numberMask = priorityMask (s.threads t).currentPriority) :
    Queued (s.scheduleInsertThread t) := by
  have htable (p : Fin 32) : (s.scheduleInsertThread t).table p =
      if p = (s.threads t).currentPriority then joined s t else s.table p := by
    rw [insert_table hcurrent, Function.update_apply]
  have hthreads := insert_threads hcurrent
  have hnot (p : Fin 32) : t ∉ s.table p := fun hmem => hready ((h.listed p t).mp hmem).1
  refine ⟨fun p u => ?_, fun p => ?_, fun p => ?_, fun u => ?_⟩
  · rw [htable, hthreads]
    by_cases heq : u = t
    · subst u
      rw [Function.update_self]
      split_ifs with hp
      · simp [mem_joined, hp]
      · simp [hnot p, Ne.symm hp]
    · rw [Function.update_of_ne heq, ← h.listed p u]
      split_ifs with hp
      · rw [mem_joined, hp]
        simp [heq]
      · rfl
  · rw [htable]
    split_ifs
    · exact nodup_joined (hnot _) (h.nodup _)
    · exact h.nodup p
  · rw [htable, insert_group hcurrent, BitVec.getLsbD_or, hmask, getLsbD_priorityMask, Bool.or_eq_true, decide_eq_true_iff, h.group]
    split_ifs with heq
    · subst p
      have hne : joined s t ≠ [] := List.ne_nil_of_mem (mem_joined.mpr (.inl rfl))
      simp [hne]
    · simp [Ne.symm heq]
  · rw [hthreads]
    by_cases heq : u = t
    · subst u
      rw [Function.update_self]
      exact fun _ => hmask
    · rw [Function.update_of_ne heq]
      exact h.mask u

/-- A thread that is taken out of its list and is not ready behind it. -/
theorem Queued.take (h : Queued s) (hmask : (s.threads t).numberMask = priorityMask (s.threads t).currentPriority)
    (hready : thread.stat ≠ .ready) (hfits : thread.MaskFits) :
    Queued ((s.scheduleRemoveThread t).setThread t thread) := by
  have hmem (p : Fin 32) (u : τ) : u ∈ (s.scheduleRemoveThread t).table p ↔ u ∈ s.table p ∧ u ≠ t := by
    simp [Scheduler.scheduleRemoveThread]
  refine ⟨fun p u => ?_, fun p => (h.nodup p).filter _, fun p => ?_, fun u => ?_⟩
  · rw [Scheduler.setThread, hmem]
    by_cases heq : u = t
    · subst u
      simp [hready]
    · rw [h.listed p u]
      simp [heq, Scheduler.scheduleRemoveThread]
  · have hcleared : (s.group &&& ~~~priorityMask (s.threads t).currentPriority).getLsbD p =
        (s.group.getLsbD p && !decide ((s.threads t).currentPriority = p)) := by
      rw [BitVec.getLsbD_and, BitVec.getLsbD_not, getLsbD_priorityMask, decide_eq_true p.isLt, Bool.true_and]
    change (if ((s.table (s.threads t).currentPriority).filter fun u => u ≠ t).isEmpty then
      s.group &&& ~~~(s.threads t).numberMask else s.group).getLsbD p = true ↔ (s.table p).filter (fun u => u ≠ t) ≠ []
    by_cases heq : (s.threads t).currentPriority = p
    · subst p
      split_ifs with hempty
      · rw [hmask, hcleared, List.isEmpty_iff.mp hempty]
        simp
      · rw [List.isEmpty_iff] at hempty
        have hne : s.table (s.threads t).currentPriority ≠ [] := fun hnil => hempty (by rw [hnil]; rfl)
        simp only [(h.group _).mpr hne, hempty, ne_eq, not_false_eq_true]
    · have hother : (s.table p).filter (fun u => u ≠ t) = s.table p := by
        apply List.filter_eq_self.mpr
        intro u hu
        have hne : u ≠ t := fun hut => heq (hut ▸ ((h.listed p u).mp hu).2)
        simpa using hne
      rw [hother, ← h.group p]
      split_ifs
      · rw [hmask, hcleared]
        simp [heq]
      · rfl
  · by_cases heq : u = t
    · subst u
      rw [setThread_self]
      exact hfits
    · rw [setThread_of_ne heq]
      exact h.mask u

@[simp] theorem scheduleRemoveThread_threads (s : Scheduler τ) (t : τ) :
    (s.scheduleRemoveThread t).threads = s.threads := rfl

@[simp] theorem insert_current (s : Scheduler τ) (t : τ) : (s.scheduleInsertThread t).current = s.current := by
  rw [Scheduler.scheduleInsertThread]
  split_ifs <;> rfl

/-- What the thread was before it is inserted does not matter. -/
theorem insert_setStat (s : Scheduler τ) (t : τ) (stat : ThreadStat) :
    (s.setStat t stat).scheduleInsertThread t = s.scheduleInsertThread t := by
  simp only [Scheduler.scheduleInsertThread, Scheduler.setStat, Scheduler.setThread, Function.update_self,
    Function.update_idem]

omit [DecidableEq τ] in
theorem Queued.withCurrent (h : Queued s) (current : Option τ) : Queued { s with current := current } :=
  ⟨h.listed, h.nodup, h.group, h.mask⟩

/-- A thread that has started and is made to run, or to wait for something else than the processor. -/
theorem Queued.takeStat (h : Queued s) {stat : ThreadStat} (hstat : stat ≠ .ready)
    (hinit : (s.threads t).stat ≠ .init) : Queued ((s.scheduleRemoveThread t).setStat t stat) := by
  have hmask := h.mask t hinit
  exact h.take hmask hstat fun _ => hmask

theorem Queued.unyield (h : Queued s) (t : τ) : Queued (s.unyield t) :=
  h.setThread (fun _ => Iff.rfl) (h.mask t)

@[simp] theorem setThread_setStat (s : Scheduler τ) (t : τ) (thread : Thread) (stat : ThreadStat) :
    (s.setThread t thread).setStat t stat = s.setThread t { thread with stat := stat } := by
  simp only [Scheduler.setStat, Scheduler.setThread, Function.update_self, Function.update_idem]

/-! ### The switch -/

omit [DecidableEq τ] in
/-- The word leads to the first thread of the highest list that is not empty. -/
theorem Queued.highest (h : Queued s) (hgroup : s.group ≠ 0) :
    ∃ first rest p, s.highestPriorityThread = some (first, p) ∧ s.table p = first :: rest ∧
      ∀ q < p, s.table q = [] := by
  obtain ⟨i, hffs, hset, hbelow⟩ := rtFfs_spec hgroup
  have hi : i < 32 := BitVec.lt_of_getLsbD hset
  have hnumber : Fin.ofNat 32 (rtFfs s.group - 1) = ⟨i, hi⟩ := by
    rw [hffs, Nat.add_sub_cancel]
    exact Fin.ext (Nat.mod_eq_of_lt hi)
  obtain ⟨first, rest, hlist⟩ := List.exists_cons_of_ne_nil ((h.group ⟨i, hi⟩).mp hset)
  refine ⟨first, rest, ⟨i, hi⟩, ?_, hlist, fun q hq => ?_⟩
  · rw [Scheduler.highestPriorityThread, hnumber, hlist]
    rfl
  · by_contra hne
    have hbit := (h.group q).mpr hne
    rw [hbelow q.val hq] at hbit
    contradiction

theorem switch_stays (hstays : (s.threads t).Stays p) (first : τ) :
    s.switch t first p = ((s.unyield t).scheduleRemoveThread t).setStat t .running := by
  simp only [Scheduler.switch, if_pos hstays, if_pos hstays.1, ne_eq, not_true_eq_false, if_false]

theorem switch_preempts {first : τ} (hrunning : (s.threads t).stat = .running) (hstays : ¬ (s.threads t).Stays p)
    (hne : first ≠ t) : s.switch t first p =
      ((({ s.unyield t with current := some first } : Scheduler τ).scheduleInsertThread t).scheduleRemoveThread
        first).setStat first .running := by
  simp only [Scheduler.switch, if_neg hstays, if_pos hrunning, ne_eq, hne, not_false_eq_true, if_true,
    if_pos (And.intro hrunning hstays)]

theorem switch_leaves {first : τ} (hrunning : (s.threads t).stat ≠ .running) (hne : first ≠ t) :
    s.switch t first p =
      (({ s with current := some first } : Scheduler τ).scheduleRemoveThread first).setStat first .running := by
  have hstays : ¬ (s.threads t).Stays p := fun h => hrunning h.1
  simp only [Scheduler.switch, if_neg hstays, hrunning, false_and, if_false, ne_eq, hne,
    not_false_eq_true, if_true]

/-! ### Every operation keeps the lists -/

omit [DecidableEq τ] in
theorem Coherent.not_starting (h : Coherent s) (hstat : (s.threads t).stat ≠ .suspend) : s.starting t = false := by
  by_contra hstarting
  exact hstat (h.starting t (Bool.not_eq_false _ ▸ hstarting)).1

omit [DecidableEq τ] in
theorem Coherent.current_not_starting (h : Coherent s) (hcurrent : s.current = some t) : s.starting t = false := by
  by_contra hstarting
  exact (h.starting t (Bool.not_eq_false _ ▸ hstarting)).2 hcurrent

/-- A change of one thread's record, while the same thread has the processor. -/
theorem Coherent.update (h : Coherent s) (hqueued : Queued s')
    (hthreads : s'.threads = Function.update s.threads t thread) (hsame : s'.current = s.current)
    (hcurrent : s.current = some t → thread.stat ≠ .ready ∧ thread.stat ≠ .init)
    (hrunning : thread.stat = .running → s.current = some t)
    (hothers : ∀ u ≠ t, s'.starting u = s.starting u)
    (hstarting : s'.starting t = true → thread.stat = .suspend ∧ s.current ≠ some t) : Coherent s' := by
  refine ⟨hqueued, fun u hu => ?_, fun u hu => ?_, fun u hu => ?_⟩
  · rw [hsame] at hu
    rw [hthreads]
    by_cases heq : u = t
    · subst u
      rw [Function.update_self]
      exact hcurrent hu
    · rw [Function.update_of_ne heq]
      exact h.current u hu
  · rw [hsame]
    rw [hthreads] at hu
    by_cases heq : u = t
    · subst u
      rw [Function.update_self] at hu
      exact hrunning hu
    · rw [Function.update_of_ne heq] at hu
      exact h.running u hu
  · rw [hsame, hthreads]
    by_cases heq : u = t
    · subst u
      rw [Function.update_self]
      exact hstarting hu
    · rw [Function.update_of_ne heq]
      exact h.starting u (hothers u heq ▸ hu)

/-- The same for a thread that is not being started. -/
theorem Coherent.updateStarted (h : Coherent s) (hqueued : Queued s')
    (hthreads : s'.threads = Function.update s.threads t thread) (hsame : s'.current = s.current)
    (hcurrent : s.current = some t → thread.stat ≠ .ready ∧ thread.stat ≠ .init)
    (hrunning : thread.stat = .running → s.current = some t)
    (hkept : s'.starting = s.starting) (hstarted : s.starting t = false) : Coherent s' := by
  refine h.update hqueued hthreads hsame hcurrent hrunning (fun u _ => congrFun hkept u) fun hstarting => ?_
  rw [hkept, hstarted] at hstarting
  contradiction

@[simp] theorem insert_starting (s : Scheduler τ) (t : τ) : (s.scheduleInsertThread t).starting = s.starting := by
  rw [Scheduler.scheduleInsertThread]
  split_ifs <;> rfl

theorem Coherent.insert (h : Coherent s) (hsuspend : (s.threads t).stat = .suspend) (hstarted : s.starting t = false) :
    Coherent (s.scheduleInsertThread t) := by
  have hmask := h.mask t (by simp [hsuspend])
  by_cases hcurrent : s.current = some t
  · have hinsert : s.scheduleInsertThread t = s.setStat t .running := by
      rw [Scheduler.scheduleInsertThread, if_pos hcurrent]
    rw [hinsert]
    refine h.updateStarted (h.toQueued.setThread (fun p => ?_) fun _ => hmask) rfl rfl (fun _ => by simp)
      (fun _ => hcurrent) rfl hstarted
    simp [hsuspend]
  · exact h.updateStarted (h.toQueued.insert hcurrent (by simp [hsuspend]) hmask) (insert_threads hcurrent)
      (insert_current s t) (fun hu => absurd hu hcurrent) (by simp) (insert_starting s t) hstarted

theorem Coherent.resume (h : Coherent s) (hstarted : s.starting t = false) : Coherent (s.rtThreadResume t) := by
  rw [Scheduler.rtThreadResume]
  split_ifs with hsuspend
  · exact h.insert hsuspend hstarted
  · exact h

theorem Coherent.startup (h : Coherent s) (hinit : (s.threads t).stat = .init) : Coherent (s.rtThreadStartup t) := by
  have hcurrent : s.current ≠ some t := fun hcurrent => (h.current t hcurrent).2 hinit
  have hqueued : Queued (s.setThread t { s.threads t with
      numberMask := priorityMask (s.threads t).currentPriority, stat := .suspend, yield := false }) :=
    h.toQueued.setThread (fun p => by simp [hinit]) fun _ => rfl
  exact h.update ⟨hqueued.listed, hqueued.nodup, hqueued.group, hqueued.mask⟩ rfl rfl (fun hu => absurd hu hcurrent)
    (by simp) (fun u hne => Function.update_of_ne hne ..) fun _ => ⟨rfl, hcurrent⟩

/-- The test before the insertion has found the thread as it still is. -/
theorem Coherent.startupInsert (h : Coherent s) (hstarting : s.starting t = true) : Coherent (s.startupInsert t) := by
  obtain ⟨hsuspend, hcurrent⟩ := h.starting t hstarting
  have hqueued := h.toQueued.insert hcurrent (by simp [hsuspend]) (h.mask t (by simp [hsuspend]))
  refine h.update ⟨hqueued.listed, hqueued.nodup, hqueued.group, hqueued.mask⟩ (insert_threads hcurrent)
    (insert_current s t) (fun hu => absurd hu hcurrent) (by simp) (fun u hne => Function.update_of_ne hne ..) ?_
  simp [Scheduler.startupInsert]

theorem Coherent.suspend (h : Coherent s) (hcurrent : s.current = some t) : Coherent (s.rtThreadSuspend t) := by
  rw [Scheduler.rtThreadSuspend]
  split_ifs
  · exact h.updateStarted (h.toQueued.takeStat (by simp) (h.current t hcurrent).2) rfl rfl (fun _ => by simp) (by simp)
      rfl (h.current_not_starting hcurrent)
  · exact h

theorem Coherent.exit (h : Coherent s) (hcurrent : s.current = some t) : Coherent (s.threadExit t) := by
  have hmask := h.mask t (h.current t hcurrent).2
  exact h.updateStarted (h.toQueued.take hmask (by simp) fun _ => hmask) rfl rfl (fun _ => by simp) (by simp) rfl
    (h.current_not_starting hcurrent)

theorem Coherent.changePriority (h : Coherent s) (t : τ) (p : Fin 32) : Coherent (s.changePriority t p) := by
  rw [Scheduler.changePriority]
  dsimp only
  split_ifs with hready
  · have hstarted := h.not_starting (t := t) (by simp [hready])
    have htaken : Coherent ((s.scheduleRemoveThread t).setThread t { s.threads t with
        stat := .suspend, currentPriority := p, numberMask := priorityMask p }) :=
      h.updateStarted (h.toQueued.take (h.mask t (by simp [hready])) (by simp) fun _ => rfl) rfl rfl (fun _ => by simp)
        (by simp) rfl hstarted
    rw [← insert_setStat _ t .suspend, setThread_setStat]
    exact htaken.insert (by simp) hstarted
  · refine h.update (h.toQueued.setThread (fun q => ?_) fun _ => rfl) rfl rfl (h.current t) (h.running t)
      (fun _ _ => rfl) (h.starting t)
    simp [hready]

/-- The processor is handed to a ready thread while no thread runs. -/
theorem Coherent.give (hqueued : Queued s) (hcurrent : s.current = some t) (hready : (s.threads t).stat = .ready)
    (hothers : ∀ u, (s.threads u).stat ≠ .running)
    (hstarting : ∀ u, s.starting u = true → (s.threads u).stat = .suspend) :
    Coherent ((s.scheduleRemoveThread t).setStat t .running) := by
  refine ⟨hqueued.takeStat (by simp) (by simp [hready]), fun u hu => ?_, fun u hu => ?_, fun u hu => ?_⟩
  · obtain rfl : t = u := Option.some.inj (hcurrent.symm.trans hu)
    simp [Scheduler.setStat]
  · by_cases heq : u = t
    · exact heq ▸ hcurrent
    · rw [Scheduler.setStat, setThread_of_ne heq] at hu
      exact absurd hu (hothers u)
  · have hsuspend := hstarting u hu
    have hne : u ≠ t := by
      rintro rfl
      rw [hready] at hsuspend
      contradiction
    rw [Scheduler.setStat, setThread_of_ne hne]
    exact ⟨hsuspend, fun heq => hne (Option.some.inj (heq.symm.trans hcurrent))⟩

omit [DecidableEq τ] in
theorem mem_of_highest {first : τ} (hhighest : s.highestPriorityThread = some (first, p)) : first ∈ s.table p := by
  obtain ⟨t, hhead, heq⟩ := Option.map_eq_some_iff.mp hhighest
  obtain ⟨rfl, rfl⟩ := Prod.mk.inj heq
  exact List.mem_of_head? hhead

theorem Coherent.schedulerStart (h : Coherent s) (hcurrent : s.current = none)
    (hstart : s.rtSystemSchedulerStart = some s') : Coherent s' := by
  obtain ⟨⟨first, p⟩, hhighest, rfl⟩ := Option.map_eq_some_iff.mp hstart
  have hready := ((h.listed p first).mp (mem_of_highest hhighest)).1
  refine Coherent.give (h.toQueued.withCurrent _) rfl hready (fun u hu => ?_) fun u hu => (h.starting u hu).1
  have hnone := h.running u hu
  rw [hcurrent] at hnone
  contradiction

theorem Coherent.switch {first : τ} (h : Coherent s) (hcurrent : s.current = some t) (hmem : first ∈ s.table p) :
    Coherent (s.switch t first p) := by
  have hready := ((h.listed p first).mp hmem).1
  have hne : first ≠ t := fun heq => (h.current t hcurrent).1 (heq ▸ hready)
  have hunique (u : τ) (hu : (s.threads u).stat = .running) : u = t :=
    Option.some.inj ((h.running u hu).symm.trans hcurrent)
  by_cases hrunning : (s.threads t).stat = .running
  · by_cases hstays : (s.threads t).Stays p
    · rw [switch_stays hstays]
      have hstarted := h.current_not_starting hcurrent
      have hunyield : Coherent (s.unyield t) :=
        h.updateStarted (h.toQueued.unyield t) rfl rfl (h.current t) (h.running t) rfl hstarted
      exact hunyield.updateStarted (hunyield.toQueued.takeStat (by simp) (by simp [Scheduler.unyield, hrunning])) rfl
        rfl (fun _ => by simp) (fun _ => hcurrent) rfl hstarted
    · rw [switch_preempts hrunning hstays hne]
      have hother : ({ s.unyield t with current := some first } : Scheduler τ).current ≠ some t :=
        fun heq => hne (Option.some.inj heq)
      refine Coherent.give (((h.toQueued.unyield t).withCurrent _).insert hother ?_ ?_) (insert_current _ _) ?_
        (fun u hu => ?_) fun u hu => ?_
      · simp [Scheduler.unyield, hrunning]
      · exact (h.toQueued.unyield t).mask t (by simp [Scheduler.unyield, hrunning])
      · rw [insert_threads hother, Function.update_of_ne hne]
        simpa [Scheduler.unyield, setThread_of_ne hne] using hready
      · rw [insert_threads hother] at hu
        by_cases heq : u = t
        · subst u
          simp at hu
        · rw [Function.update_of_ne heq] at hu
          simp only [Scheduler.unyield, setThread_of_ne heq] at hu
          exact heq (hunique u hu)
      · rw [insert_starting] at hu
        have hsuspend := h.starting u hu
        have heq : u ≠ t := fun heq => hsuspend.2 (heq ▸ hcurrent)
        rw [insert_threads hother, Function.update_of_ne heq]
        simpa [Scheduler.unyield, setThread_of_ne heq] using hsuspend.1
  · rw [switch_leaves hrunning hne]
    exact Coherent.give (h.toQueued.withCurrent _) rfl hready (fun u hu => hrunning (hunique u hu ▸ hu))
      fun u hu => (h.starting u hu).1

theorem Coherent.schedule (h : Coherent s) (hschedule : s.rtSchedule = some s') : Coherent s' := by
  rw [Scheduler.rtSchedule] at hschedule
  split_ifs at hschedule
  · exact Option.some.inj hschedule ▸ h
  · obtain ⟨t, hcurrent, hrest⟩ := Option.bind_eq_some_iff.mp hschedule
    obtain ⟨⟨first, p⟩, hhighest, rfl⟩ := Option.map_eq_some_iff.mp hrest
    exact h.switch hcurrent (mem_of_highest hhighest)

omit [DecidableEq τ] in
theorem Coherent.initial (hinit : s.Initial) : Coherent s := by
  obtain ⟨hthreads, htable, hgroup, hcurrent, -, hstarting⟩ := hinit
  refine ⟨⟨fun p t => ?_, fun p => ?_, fun p => ?_, fun t hstarted => absurd (hthreads t).1 hstarted⟩, ?_,
    fun t ht => ?_, ?_⟩
  · simp [htable, (hthreads t).1]
  · simp [htable]
  · simp [htable, hgroup]
  · simp [hcurrent]
  · simp [(hthreads t).1] at ht
  · simp [hstarting]

theorem Coherent.step {a : SchedAction τ} {out : List τ} (h : Coherent s) (henabled : SchedEnabled s a)
    (hstep : schedStep s a = some (s', out)) : Coherent s' := by
  cases a with
  | start =>
    obtain ⟨s₁, hstart, heq⟩ := Option.map_eq_some_iff.mp hstep
    exact (Prod.mk.inj heq).1 ▸ h.schedulerStart henabled hstart
  | schedule =>
    obtain ⟨s₁, hschedule, heq⟩ := Option.map_eq_some_iff.mp hstep
    exact (Prod.mk.inj heq).1 ▸ h.schedule hschedule
  | markYield =>
    obtain ⟨t, hcurrent, heq⟩ := Option.map_eq_some_iff.mp hstep
    obtain ⟨rfl, -⟩ := Prod.mk.inj heq
    exact h.updateStarted (h.toQueued.setThread (fun _ => Iff.rfl) (h.mask t)) rfl rfl (h.current t) (h.running t) rfl
      (h.current_not_starting hcurrent)
  | startup t =>
    obtain ⟨rfl, -⟩ := Prod.mk.inj (Option.some.inj hstep)
    exact h.startup henabled
  | startupInsert t =>
    obtain ⟨rfl, -⟩ := Prod.mk.inj (Option.some.inj hstep)
    exact h.startupInsert henabled
  | resume t =>
    obtain ⟨rfl, -⟩ := Prod.mk.inj (Option.some.inj hstep)
    exact h.resume henabled
  | suspend =>
    obtain ⟨t, hcurrent, heq⟩ := Option.map_eq_some_iff.mp hstep
    exact (Prod.mk.inj heq).1 ▸ h.suspend hcurrent
  | exit =>
    obtain ⟨t, hcurrent, heq⟩ := Option.map_eq_some_iff.mp hstep
    exact (Prod.mk.inj heq).1 ▸ h.exit hcurrent
  | changePriority t p =>
    obtain ⟨rfl, -⟩ := Prod.mk.inj (Option.some.inj hstep)
    exact h.changePriority t p
  | enterCritical =>
    obtain ⟨rfl, -⟩ := Prod.mk.inj (Option.some.inj hstep)
    exact ⟨⟨h.listed, h.nodup, h.group, h.mask⟩, h.current, h.running, h.starting⟩
  | exitCritical =>
    obtain ⟨rfl, -⟩ := Prod.mk.inj (Option.some.inj hstep)
    exact ⟨⟨h.listed, h.nodup, h.group, h.mask⟩, h.current, h.running, h.starting⟩

theorem coherent_of_reaches {as : List (SchedAction τ)} {es : List τ} (hreach : Reaches (schedSystem τ) as es s) :
    Coherent s :=
  hreach.invariant (fun _ _ s => Coherent s) (fun _ => Coherent.initial) fun h henabled hstep => h.step henabled hstep

end LightControlMonitor.Kernel
