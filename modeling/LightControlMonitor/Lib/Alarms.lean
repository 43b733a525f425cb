import Mathlib.Data.List.Induction
import Mathlib.Data.List.Sort

/-!
# Alarms on an unbounded clock

An alarm is set for some ticks from now and rings when they have passed, before the clock goes on. The pending alarms stand in the order in which they are due, and among those due together in the order in which they were set. `Run` says which histories such a clock has.

A delay of zero asks for now: the alarm rings at once or, if nobody looks any more at this tick, at the next one.
-/

namespace Alarms

structure Alarm (ι : Type*) where
  id : ι
  since : Nat
  delay : Nat

variable {ι : Type*}

def Alarm.due (a : Alarm ι) : Nat := a.since + a.delay

/-- The last tick at which the alarm is in time. -/
def Alarm.latest (a : Alarm ι) : Nat := a.since + max a.delay 1

def Sooner (a b : Alarm ι) : Prop := a.due < b.due

instance decidableSooner : DecidableRel (Sooner (ι := ι)) := fun a b => inferInstanceAs (Decidable (a.due < b.due))

structure Clock (ι : Type*) where
  now : Nat
  pending : List (Alarm ι)

inductive Event (ι : Type*)
  | tick
  | set (id : ι) (delay : Nat)
  | cancel (id : ι)
  | ring (id : ι)
  deriving DecidableEq

def Event.id? : Event ι → Option ι
  | .tick => none
  | .set id _ => some id
  | .cancel id => some id
  | .ring id => some id

variable [DecidableEq ι]

def without (id : ι) (alarms : List (Alarm ι)) : List (Alarm ι) := alarms.filter fun a => a.id ≠ id

inductive Step : Clock ι → Event ι → Clock ι → Prop
  | tick (c : Clock ι) : (∀ a ∈ c.pending, c.now < a.latest) → Step c .tick { c with now := c.now + 1 }
  | set (c : Clock ι) (id : ι) (delay : Nat) :
      Step c (.set id delay) { c with pending := (without id c.pending).orderedInsert Sooner ⟨id, c.now, delay⟩ }
  | cancel (c : Clock ι) (id : ι) : Step c (.cancel id) { c with pending := without id c.pending }
  | ring (c : Clock ι) (a : Alarm ι) (rest : List (Alarm ι)) : c.pending = a :: rest → a.due ≤ c.now →
      Step c (.ring a.id) { c with pending := rest }

inductive Run (start : Nat) : List (Event ι) → Clock ι → Prop
  | nil : Run start [] ⟨start, []⟩
  | snoc {es : List (Event ι)} {c c' : Clock ι} {e : Event ι} : Run start es c → Step c e c' → Run start (es ++ [e]) c'

def ticks (es : List (Event ι)) : Nat := es.count .tick

@[simp] theorem ticks_append (es es' : List (Event ι)) : ticks (es ++ es') = ticks es + ticks es' := List.count_append

variable {start : Nat} {es : List (Event ι)} {c c' : Clock ι} {e : Event ι} {id : ι} {a : Alarm ι}
  {alarms : List (Alarm ι)}

theorem mem_without : a ∈ without id alarms ↔ a ∈ alarms ∧ a.id ≠ id := by simp [without]

/-! ### The order -/

/-- Due no later, and set no later where they are due together. -/
def Ahead (a b : Alarm ι) : Prop := a.due < b.due ∨ a.due = b.due ∧ a.since ≤ b.since

omit [DecidableEq ι] in
theorem pairwise_orderedInsert (hsorted : alarms.Pairwise Ahead) (hnewest : ∀ b ∈ alarms, b.since ≤ a.since) :
    (alarms.orderedInsert Sooner a).Pairwise Ahead := by
  induction alarms with
  | nil => exact List.pairwise_singleton _ _
  | cons b alarms ih =>
    obtain ⟨hhead, htail⟩ := List.pairwise_cons.mp hsorted
    obtain ⟨hb, hrest⟩ := List.forall_mem_cons.mp hnewest
    rw [List.orderedInsert]
    split_ifs with hlt
    · refine List.pairwise_cons.mpr ⟨fun x hx => .inl ?_, hsorted⟩
      rcases List.mem_cons.mp hx with rfl | hx
      · exact hlt
      · rcases hhead x hx with hless | ⟨heq, -⟩
        · exact Nat.lt_trans hlt hless
        · exact Nat.lt_of_lt_of_eq hlt heq
    · refine List.pairwise_cons.mpr ⟨fun x hx => ?_, ih htail hrest⟩
      rcases (List.mem_orderedInsert _).mp hx with rfl | hx
      · rcases Nat.lt_or_eq_of_le (Nat.le_of_not_lt hlt) with hless | heq
        · exact .inl hless
        · exact .inr ⟨heq, hb⟩
      · exact hhead x hx

/-! ### The history of a pending alarm -/

/-- The alarm was set in this history and nothing has concerned it since. -/
def SetBy (es : List (Event ι)) (now : Nat) (a : Alarm ι) : Prop :=
  ∃ before after, es = before ++ .set a.id a.delay :: after ∧ (∀ e ∈ after, e.id? ≠ some a.id) ∧
    a.since + ticks after = now

theorem SetBy.snoc {now : Nat} (h : SetBy es now a) (he : e.id? ≠ some a.id) :
    SetBy (es ++ [e]) (now + ticks [e]) a := by
  obtain ⟨before, after, rfl, hafter, hnow⟩ := h
  refine ⟨before, after ++ [e], by simp, ?_, ?_⟩
  · intro x hx
    rcases List.mem_append.mp hx with hx | hx
    · exact hafter x hx
    · exact List.mem_singleton.mp hx ▸ he
  · rw [ticks_append, ← hnow, Nat.add_assoc]

theorem SetBy.since_le {now : Nat} (h : SetBy es now a) : a.since ≤ now := by
  obtain ⟨-, after, -, -, hnow⟩ := h
  exact hnow ▸ Nat.le_add_right _ _

structure Kept (es : List (Event ι)) (c : Clock ι) : Prop where
  setBy : ∀ a ∈ c.pending, SetBy es c.now a
  unique : (c.pending.map Alarm.id).Nodup
  inTime : ∀ a ∈ c.pending, c.now ≤ a.latest
  sorted : c.pending.Pairwise Ahead

theorem Kept.without (h : Kept es c) (id : ι) (he : e.id? = some id) :
    Kept (es ++ [e]) { c with pending := without id c.pending } := by
  have hticks : ticks [e] = 0 := by
    cases e with
    | tick => contradiction
    | set _ _ => rfl
    | cancel _ => rfl
    | ring _ => rfl
  refine ⟨fun a ha => ?_, ?_, fun a ha => h.inTime a (mem_without.mp ha).1, h.sorted.filter _⟩
  · obtain ⟨hmem, hne⟩ := mem_without.mp ha
    have hkept := (h.setBy a hmem).snoc (e := e) (by rw [he]; simpa using Ne.symm hne)
    rwa [hticks, Nat.add_zero] at hkept
  · exact h.unique.sublist (List.filter_sublist.map _)

theorem Kept.step (h : Kept es c) (hstep : Step c e c') : Kept (es ++ [e]) c' := by
  cases hstep with
  | tick hearly =>
    exact ⟨fun a ha => (h.setBy a ha).snoc (by simp [Event.id?]), h.unique, hearly, h.sorted⟩
  | set id delay =>
    have hkept := h.without id (e := .set id delay) rfl
    refine ⟨fun a ha => ?_, ?_, fun a ha => ?_, ?_⟩
    · rcases (List.mem_orderedInsert _).mp ha with rfl | ha
      · exact ⟨es, [], rfl, by simp, rfl⟩
      · exact hkept.setBy a ha
    · have hperm := (List.perm_orderedInsert Sooner ⟨id, c.now, delay⟩ (Alarms.without id c.pending)).map Alarm.id
      refine hperm.nodup_iff.mpr (List.nodup_cons.mpr ⟨?_, hkept.unique⟩)
      intro hmem
      obtain ⟨a, ha, heq⟩ := List.mem_map.mp hmem
      exact (mem_without.mp ha).2 heq
    · rcases (List.mem_orderedInsert _).mp ha with rfl | ha
      · exact Nat.le_add_right _ _
      · exact hkept.inTime a ha
    · exact pairwise_orderedInsert hkept.sorted fun b hb => (hkept.setBy b hb).since_le
  | cancel id => exact h.without id rfl
  | ring a rest hpending hdue =>
    obtain ⟨hset, hunique, htime, hsorted⟩ := h
    rw [hpending] at hset hunique htime hsorted
    rw [List.map_cons, List.nodup_cons] at hunique
    refine ⟨fun b hb => ?_, hunique.2, fun b hb => htime b (List.mem_cons_of_mem a hb), (List.pairwise_cons.mp hsorted).2⟩
    have hne : a.id ≠ b.id := fun heq => hunique.1 (heq ▸ List.mem_map_of_mem hb)
    exact (hset b (List.mem_cons_of_mem a hb)).snoc (by simpa [Event.id?] using hne)

theorem Run.kept (hrun : Run start es c) : Kept es c := by
  induction hrun with
  | nil => exact ⟨by simp, List.nodup_nil, by simp, List.Pairwise.nil⟩
  | snoc _ hstep ih => exact ih.step hstep

theorem Run.of_snoc (hrun : Run start (es ++ [e]) c) : ∃ c', Run start es c' ∧ Step c' e c := by
  generalize hes : es ++ [e] = whole at hrun
  cases hrun with
  | nil => simp at hes
  | snoc hrun hstep =>
    obtain ⟨rfl, hlast⟩ := List.append_inj' hes rfl
    obtain rfl := List.singleton_inj.mp hlast
    exact ⟨_, hrun, hstep⟩

theorem Run.of_append {es' : List (Event ι)} (hrun : Run start (es ++ es') c) : ∃ c', Run start es c' := by
  induction es' using List.reverseRecOn generalizing c with
  | nil => exact ⟨c, by simpa using hrun⟩
  | append_singleton es' e ih =>
    rw [← List.append_assoc] at hrun
    obtain ⟨c', hrun', -⟩ := hrun.of_snoc
    exact ih hrun'

/-! ### On time -/

/-- An alarm that rings was set as many ticks ago as its delay says, and nothing has concerned it in between. -/
theorem Run.ring_on_time (hrun : Run start (es ++ [.ring id]) c) :
    ∃ before delay after, es = before ++ .set id delay :: after ∧ (∀ e ∈ after, e.id? ≠ some id) ∧
      delay ≤ ticks after ∧ ticks after ≤ max delay 1 := by
  obtain ⟨c', hrun', hstep⟩ := hrun.of_snoc
  cases hstep with
  | ring a rest hpending hdue =>
    have hmem : a ∈ c'.pending := hpending ▸ List.mem_cons_self
    obtain ⟨before, after, hsplit, hafter, hnow⟩ := hrun'.kept.setBy a hmem
    have htime := hrun'.kept.inTime a hmem
    unfold Alarm.due at hdue
    unfold Alarm.latest at htime
    exact ⟨before, a.delay, after, hsplit, hafter, by omega, by omega⟩

/-- An alarm that was set and has not been concerned since is pending. -/
theorem Run.pending_of_set {before after : List (Event ι)} {delay : Nat}
    (hrun : Run start (before ++ .set id delay :: after) c) (hafter : ∀ e ∈ after, e.id? ≠ some id) :
    ∃ since, ⟨id, since, delay⟩ ∈ c.pending ∧ since + ticks after = c.now := by
  induction after using List.reverseRecOn generalizing c with
  | nil =>
    obtain ⟨c', -, hstep⟩ := hrun.of_snoc
    cases hstep with
    | set id delay => exact ⟨_, (List.mem_orderedInsert _).mpr (.inl rfl), rfl⟩
  | append_singleton after e ih =>
    have hassoc : before ++ Event.set id delay :: (after ++ [e]) = before ++ Event.set id delay :: after ++ [e] := by simp
    rw [hassoc] at hrun
    obtain ⟨c', hrun', hstep⟩ := hrun.of_snoc
    obtain ⟨since, hmem, hnow⟩ := ih hrun' fun x hx => hafter x (List.mem_append_left _ hx)
    have he := hafter e (List.mem_append_right _ (List.mem_singleton_self e))
    rw [ticks_append]
    refine ⟨since, ?_⟩
    cases hstep with
    | tick hearly => exact ⟨hmem, by rw [← Nat.add_assoc, hnow]; rfl⟩
    | set id' delay' =>
      have hne : id ≠ id' := by simpa [Event.id?] using Ne.symm he
      exact ⟨(List.mem_orderedInsert _).mpr (.inr (mem_without.mpr ⟨hmem, hne⟩)), hnow⟩
    | cancel id' =>
      have hne : id ≠ id' := by simpa [Event.id?] using Ne.symm he
      exact ⟨mem_without.mpr ⟨hmem, hne⟩, hnow⟩
    | ring a rest hpending hdue =>
      rw [hpending] at hmem
      rcases List.mem_cons.mp hmem with rfl | hrest
      · simp [Event.id?] at he
      · exact ⟨hrest, hnow⟩

/-- The alarm that rings is the one that was set last. -/
theorem Run.ring_after_set {before after : List (Event ι)} {delay : Nat}
    (hrun : Run start (before ++ .set id delay :: after ++ [.ring id]) c) (hafter : ∀ e ∈ after, e.id? ≠ some id) :
    delay ≤ ticks after ∧ ticks after ≤ max delay 1 := by
  obtain ⟨c', hrun', hstep⟩ := hrun.of_snoc
  obtain ⟨since, hmem, hnow⟩ := hrun'.pending_of_set hafter
  cases hstep with
  | ring a rest hpending hdue =>
    have hunique := hrun'.kept.unique
    rw [hpending, List.map_cons, List.nodup_cons] at hunique
    have hself : (⟨a.id, since, delay⟩ : Alarm ι) = a := by
      rw [hpending] at hmem
      rcases List.mem_cons.mp hmem with heq | hrest
      · exact heq
      · exact absurd (List.mem_map_of_mem (f := Alarm.id) hrest) hunique.1
    have htime := hrun'.kept.inTime a (hpending ▸ List.mem_cons_self)
    rw [← hself] at hdue htime
    dsimp only [Alarm.due, Alarm.latest] at hdue htime
    omega

end Alarms
