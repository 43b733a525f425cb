import LightControlMonitor.Lib.Transition
import LightControlMonitor.Can.Message

/-!
# The clock and its synchronisation

The clock is a pair of seconds and milliseconds. The timer callback `timeout` counts it up every millisecond, in interrupt context, and `ccr_sync_time` sets it in a thread, the seconds first. Between the two writes the milliseconds are still the old ones, and a tick that finds 999 of them carries into the seconds that were just set. Without such a tick the synchronised clock is off by at most the ticks that ran during the handler.
-/

namespace LightControlMonitor.Can

open Transition (Reaches)

/-- The fields of `myCAN` that `timeout` counts. -/
structure ClockT where
  seconds : UInt32
  ms : UInt16
  timer : UInt16

/-- The clock runs round after this many milliseconds. -/
def clockWrap : Nat := 2 ^ 32 * 1000

def ClockT.value (p : ClockT) : Nat := p.seconds.toNat * 1000 + p.ms.toNat

def timeout (p : ClockT) : ClockT :=
  let ms := if p.ms < 65530 then p.ms + 1 else p.ms
  let timer := if p.timer < 65530 then p.timer + 1 else p.timer
  { seconds := if 1000 ≤ ms then p.seconds + 1 else p.seconds
    ms := if 1000 ≤ ms then 0 else ms
    timer := if 1000 < timer then timer - 1000 else timer }

/-! ### The statements of `ccr_sync_time` -/

inductive SyncTimeStmt
  | copySeconds
  | setSeconds
  | copyMs
  | setMs
  | setLen
  deriving DecidableEq

/-- The handler: the data of its frame, its buffer and the statement it executes next. Only the histories look at `ticks`, the callbacks that have interrupted it. -/
structure SyncTime where
  data : Bytes8
  tmpdata : DataBox
  next : SyncTimeStmt
  ticks : Nat

def frameSeconds (data : Bytes8) : UInt32 := u32 (data.get 2) (data.get 3) (data.get 4) (data.get 5)

def frameMs (data : Bytes8) : UInt16 := u16 (data.get 6) (data.get 7)

/-- One statement of `ccr_sync_time`. The handler is `none` once it has returned. -/
def SyncTime.exec (l : SyncTime) (p : ClockT) : Option SyncTime × ClockT :=
  match l.next with
  | .copySeconds =>
    (some { l with
      tmpdata := #v[l.data.get 2, l.data.get 3, l.data.get 4, l.data.get 5], next := .setSeconds }, p)
  | .setSeconds =>
    (some { l with next := .copyMs },
      { p with seconds := l.tmpdata.u32 })
  | .copyMs =>
    (some { l with
      tmpdata := l.tmpdata.copy2 (l.data.get 6) (l.data.get 7), next := .setMs }, p)
  | .setMs => (some { l with next := .setLen }, { p with ms := l.tmpdata.u16 })
  | .setLen => (none, p)

/-- The rest of a handler that is not interrupted, at most `fuel` statements. -/
def SyncTime.finish : Nat → SyncTime → ClockT → Option ClockT
  | 0, _, _ => none
  | fuel + 1, l, p =>
    match l.exec p with
    | (none, p') => some p'
    | (some m, p') => SyncTime.finish fuel m p'

/-- The statements make up the handler, whatever its buffer held before. -/
theorem ccrSyncTime_eq_finish (u : CanUserData) (s : MyCan) (data : Bytes8) (tmpdata : DataBox)
    (timer : UInt16) :
    ccrSyncTime (some u) s data =
      (SyncTime.finish 5 ⟨u.data, tmpdata, .copySeconds, 0⟩ ⟨s.para.seconds, s.para.ms, timer⟩).map fun p =>
        ({ s with para.seconds := p.seconds, para.ms := p.ms }, data, -1) := rfl

/-! ### The system -/

/-- Only the condition on runs looks at `settled`: the last frame, if there was one, carried less than 1000 ms. -/
structure ClockWorld where
  clock : ClockT
  handler : Option SyncTime
  settled : Bool

inductive ClockAction
  | tick
  | sync (data : Bytes8) (tmpdata : DataBox)
  | stmt

/-- A handler has returned: its frame, the ticks during the handler and the clock it leaves. -/
structure Synced where
  seconds : Nat
  ms : Nat
  ticks : Nat
  value : Nat
  deriving DecidableEq

/-- Behind `myCANInit`, with the record as the image has it. -/
def ClockWorld.Initial (w : ClockWorld) : Prop :=
  w.clock = ⟨0, 0, 0⟩ ∧ w.handler = none ∧ w.settled = true

def ClockWorld.Enabled (w : ClockWorld) : ClockAction → Prop
  | .tick => True
  | .sync _ _ => w.handler = none
  | .stmt => w.handler.isSome

def SyncTime.tick (l : SyncTime) : SyncTime := { l with ticks := l.ticks + 1 }

def SyncTime.synced (l : SyncTime) (p : ClockT) : Synced :=
  { seconds := (frameSeconds l.data).toNat, ms := (frameMs l.data).toNat, ticks := l.ticks, value := p.value }

def ClockWorld.step (w : ClockWorld) : ClockAction → Option (ClockWorld × List Synced)
  | .tick => some ({ w with clock := timeout w.clock, handler := w.handler.map SyncTime.tick }, [])
  | .sync data tmpdata => some ({ w with handler := some ⟨data, tmpdata, .copySeconds, 0⟩ }, [])
  | .stmt => w.handler.map fun l =>
    match l.exec w.clock with
    | (some m, p) => ({ w with clock := p, handler := some m }, [])
    | (none, p) => ({ clock := p, handler := none, settled := frameMs l.data < 1000 }, [l.synced p])

def clockSystem : Transition.System ClockWorld ClockAction Synced where
  init := ClockWorld.Initial
  enabled := ClockWorld.Enabled
  step := ClockWorld.step

/-- The clock is between the time of the frame and that time and the ticks of the handler, round the wrap. -/
def Synced.Atomic (e : Synced) : Prop :=
  ∃ j ≤ e.ticks, e.value = (e.seconds * 1000 + e.ms + j) % clockWrap

/-- Every frame with less than 1000 ms sets the clock, and outside the handler every tick advances it by one. -/
structure ClockAtomic (es : List Synced) (w : ClockWorld) : Prop where
  synced : ∀ e ∈ es, e.ms < 1000 → e.Atomic
  advances : w.handler = none → w.settled = true → (timeout w.clock).value = (w.clock.value + 1) % clockWrap

/-- No tick carries into the seconds between the two writes of a handler. -/
def NoCarry (w : ClockWorld) : ClockAction → Prop
  | .tick => ∀ l, w.handler = some l → l.next = .copyMs ∨ l.next = .setMs → w.clock.ms < 999
  | _ => True

/-! ### A tick -/

theorem timeout_of_lt {p : ClockT} (hms : p.ms < 999) :
    (timeout p).seconds = p.seconds ∧ (timeout p).ms.toNat = p.ms.toNat + 1 := by
  have hlt : p.ms.toNat < 999 := hms
  have hsmall : p.ms < 65530 := UInt16.lt_iff_toNat_lt.mpr (by simpa using hlt.trans (by decide))
  have hnext : (p.ms + 1).toNat = p.ms.toNat + 1 := by
    rw [UInt16.toNat_add]
    simp
    omega
  have hbelow : ¬ 1000 ≤ p.ms + 1 := by
    rw [UInt16.le_iff_toNat_le, hnext]
    simp
    omega
  simp [timeout, hsmall, hbelow, hnext]

theorem timeout_carry {p : ClockT} (hms : p.ms = 999) : (timeout p).seconds = p.seconds + 1 ∧ (timeout p).ms = 0 := by
  simp [timeout, hms]

theorem timeout_value {p : ClockT} (hms : p.ms < 1000) :
    (timeout p).ms < 1000 ∧ (timeout p).value = (p.value + 1) % clockWrap := by
  have hseconds := p.seconds.toNat_lt
  have hlt : p.ms.toNat < 1000 := hms
  rcases Nat.lt_or_eq_of_le (Nat.le_of_lt_succ hlt) with hbelow | hlast
  · obtain ⟨hs, hm⟩ := timeout_of_lt hbelow
    refine ⟨UInt16.lt_iff_toNat_lt.mpr (by rw [hm]; exact Nat.succ_lt_succ hbelow), ?_⟩
    rw [ClockT.value, ClockT.value, hs, hm, clockWrap, Nat.mod_eq_of_lt (by omega), Nat.add_assoc]
  · obtain ⟨hs, hm⟩ := timeout_carry (UInt16.toNat_inj.mp hlast)
    refine ⟨hm ▸ by decide, ?_⟩
    have hadd : (p.seconds + 1).toNat = (p.seconds.toNat + 1) % 2 ^ 32 := UInt32.toNat_add _ _
    have hzero : (0 : UInt16).toNat = 0 := rfl
    rw [ClockT.value, ClockT.value, hs, hm, hlast, hadd, hzero, clockWrap]
    omega

/-! ### The invariant -/

/-- What the statements before `l.next` have done, and the ticks since. -/
def SyncTime.Progress (l : SyncTime) (p : ClockT) : Prop :=
  match l.next with
  | .copySeconds => True
  | .setSeconds =>
    l.tmpdata.u32 = frameSeconds l.data
  | .copyMs => p.seconds = frameSeconds l.data
  | .setMs => p.seconds = frameSeconds l.data ∧ l.tmpdata.u16 = frameMs l.data
  | .setLen => frameMs l.data < 1000 → p.ms < 1000 ∧ (l.synced p).Atomic

theorem SyncTime.Progress.tick {l : SyncTime} {p : ClockT} (h : l.Progress p)
    (hcarry : l.next = .copyMs ∨ l.next = .setMs → p.ms < 999) : l.tick.Progress (timeout p) := by
  obtain ⟨data, tmpdata, next, ticks⟩ := l
  cases next with
  | copySeconds => trivial
  | setSeconds => exact h
  | copyMs => exact (timeout_of_lt (hcarry (.inl rfl))).1.trans h
  | setMs => exact ⟨(timeout_of_lt (hcarry (.inr rfl))).1.trans h.1, h.2⟩
  | setLen =>
    intro hframe
    obtain ⟨hms, j, hj, hvalue⟩ := h hframe
    obtain ⟨hms', hvalue'⟩ := timeout_value hms
    refine ⟨hms', j + 1, Nat.succ_le_succ hj, ?_⟩
    change p.value = ((frameSeconds data).toNat * 1000 + (frameMs data).toNat + j) % clockWrap at hvalue
    change (timeout p).value = ((frameSeconds data).toNat * 1000 + (frameMs data).toNat + (j + 1)) % clockWrap
    rw [hvalue', hvalue, Nat.mod_add_mod, Nat.add_assoc]

theorem SyncTime.Progress.exec {l m : SyncTime} {p p' : ClockT} (h : l.Progress p)
    (hexec : l.exec p = (some m, p')) : m.Progress p' := by
  obtain ⟨data, tmpdata, next, ticks⟩ := l
  cases next with
  | setLen => simp [SyncTime.exec] at hexec
  | setMs =>
    obtain ⟨hm, rfl⟩ := Prod.mk.inj hexec
    obtain rfl := Option.some.inj hm
    obtain ⟨hseconds, hms⟩ := h
    intro hframe
    change p.seconds = frameSeconds data at hseconds
    change tmpdata.u16 = frameMs data at hms
    change tmpdata.u16 < 1000 ∧ Synced.Atomic _
    have hlt : (frameMs data).toNat < 1000 := hframe
    have hbound := (frameSeconds data).toNat_lt
    rw [hms]
    refine ⟨hframe, 0, Nat.zero_le _, ?_⟩
    simp only [SyncTime.synced, ClockT.value, hseconds]
    rw [Nat.add_zero, clockWrap, Nat.mod_eq_of_lt (by omega)]
  | _ =>
    obtain ⟨hm, rfl⟩ := Prod.mk.inj hexec
    obtain rfl := Option.some.inj hm
    first | exact trivial | exact h | exact ⟨h, rfl⟩ | rfl

theorem SyncTime.exec_none {l : SyncTime} {p p' : ClockT} (hexec : l.exec p = (none, p')) :
    l.next = .setLen ∧ p' = p := by
  obtain ⟨data, tmpdata, next, ticks⟩ := l
  cases next with
  | setLen => exact ⟨rfl, (Prod.mk.inj hexec).2.symm⟩
  | _ => simp [SyncTime.exec] at hexec

structure ClockInv (es : List Synced) (w : ClockWorld) : Prop where
  synced : ∀ e ∈ es, e.ms < 1000 → e.Atomic
  idle : w.handler = none → w.settled = true → w.clock.ms < 1000
  running : ∀ l, w.handler = some l → l.Progress w.clock

theorem ClockInv.initial {w : ClockWorld} (hinit : w.Initial) : ClockInv [] w := by
  obtain ⟨hclock, hhandler, -⟩ := hinit
  refine ⟨by simp, fun _ _ => ?_, by simp [hhandler]⟩
  rw [hclock]
  decide

theorem ClockInv.tick {es : List Synced} {w : ClockWorld} (h : ClockInv es w) (hcarry : NoCarry w .tick) :
    ClockInv es { w with clock := timeout w.clock, handler := w.handler.map SyncTime.tick } := by
  refine ⟨h.synced, fun hnone hsettled => ?_, fun m hm => ?_⟩
  · exact (timeout_value (h.idle (Option.map_eq_none_iff.mp hnone) hsettled)).1
  · obtain ⟨l, hl, rfl⟩ := Option.map_eq_some_iff.mp hm
    exact (h.running l hl).tick (hcarry l hl)

theorem ClockInv.stmt {es out : List Synced} {w w' : ClockWorld} (h : ClockInv es w)
    (hstep : w.step .stmt = some (w', out)) : ClockInv (es ++ out) w' := by
  obtain ⟨l, hl, heq⟩ := Option.map_eq_some_iff.mp hstep
  have hprogress := h.running l hl
  rcases hexec : l.exec w.clock with ⟨_ | m, p⟩
  · -- the handler returns
    rw [hexec] at heq
    obtain ⟨rfl, rfl⟩ := Prod.mk.inj heq
    obtain ⟨hnext, rfl⟩ := l.exec_none hexec
    rw [SyncTime.Progress, hnext] at hprogress
    refine ⟨fun e hmem hms => ?_, fun _ hsettled => (hprogress (by simpa using hsettled)).1, by simp⟩
    rcases List.mem_append.mp hmem with hold | hnew
    · exact h.synced e hold hms
    · obtain rfl := List.mem_singleton.mp hnew
      exact (hprogress hms).2
  · rw [hexec] at heq
    obtain ⟨rfl, rfl⟩ := Prod.mk.inj heq
    rw [List.append_nil]
    refine ⟨h.synced, by simp, fun l' hl' => ?_⟩
    obtain rfl := Option.some.inj hl'
    exact hprogress.exec hexec

theorem clockInv_of_reaches {as : List ClockAction} {es : List Synced} {w : ClockWorld}
    (hreach : Reaches (clockSystem.restrict NoCarry) as es w) : ClockInv es w := by
  apply hreach.invariant (fun _ es w => ClockInv es w) (fun _ hinit => .initial hinit)
  intro _ es w a out w' h henabled hstep
  cases a with
  | tick =>
    obtain ⟨rfl, rfl⟩ := Prod.mk.inj (Option.some.inj hstep)
    rw [List.append_nil]
    exact h.tick henabled.2
  | sync data tmpdata =>
    obtain ⟨rfl, rfl⟩ := Prod.mk.inj (Option.some.inj hstep)
    rw [List.append_nil]
    refine ⟨h.synced, by simp, fun l hl => ?_⟩
    obtain rfl := Option.some.inj hl
    trivial
  | stmt => exact h.stmt hstep

/-- While no tick carries into the seconds between the two writes of a handler, the clock is set and counted as if the handler were one step. -/
theorem clock_atomic {as : List ClockAction} {es : List Synced} {w : ClockWorld}
    (hreach : Reaches (clockSystem.restrict NoCarry) as es w) : ClockAtomic es w := by
  have h := clockInv_of_reaches hreach
  exact ⟨h.synced, fun hnone hsettled => (timeout_value (h.idle hnone hsettled)).2⟩

/-! ### A tick between the writes -/

instance ClockWorld.decidableEnabled (w : ClockWorld) : (a : ClockAction) → Decidable (w.Enabled a)
  | .tick => inferInstanceAs (Decidable True)
  | .sync _ _ => decidable_of_iff (w.handler.isNone = true) Option.isNone_iff_eq_none
  | .stmt => inferInstanceAs (Decidable (w.handler.isSome = true))

instance ClockWorld.decidableNoCarry (w : ClockWorld) : (a : ClockAction) → Decidable (NoCarry w a)
  | .tick => inferInstanceAs (Decidable (∀ l ∈ w.handler, l.next = .copyMs ∨ l.next = .setMs → w.clock.ms < 999))
  | .sync _ _ => inferInstanceAs (Decidable True)
  | .stmt => inferInstanceAs (Decidable True)

instance clockSystem.decidableEnabled (w : ClockWorld) (a : ClockAction) : Decidable (clockSystem.enabled w a) :=
  inferInstanceAs (Decidable (w.Enabled a))

instance clockSystem.decidableRestrict (w : ClockWorld) (a : ClockAction) :
    Decidable ((clockSystem.restrict NoCarry).enabled w a) :=
  inferInstanceAs (Decidable (w.Enabled a ∧ NoCarry w a))

def ClockWorld.start : ClockWorld := { clock := ⟨0, 0, 0⟩, handler := none, settled := true }

theorem ClockWorld.start_initial : ClockWorld.start.Initial := ⟨rfl, rfl, rfl⟩

/-- A clock frame with `seconds` below 256 and the two bytes of its milliseconds. -/
def clockFrame (seconds msLo msHi : UInt8) : ClockAction :=
  .sync #v[0xff, 0x01, seconds, 0, 0, 0, msLo, msHi] #v[0, 0, 0, 0]

/-- The clock at 999 ms, then a frame with 5 s and 0 ms and one tick behind its first `written` statements. -/
def syncAtLastMs (written : Nat) : List ClockAction :=
  clockFrame 0 0xe7 0x03 :: List.replicate 5 .stmt ++ clockFrame 5 0 0 :: List.replicate written .stmt ++
    .tick :: List.replicate (5 - written) .stmt

theorem syncAtLastMs_isSome : ((clockSystem.restrict NoCarry).exec .start (syncAtLastMs 1)).isSome := by
  decide +kernel

theorem clock_atomic_before :
    ClockAtomic (((clockSystem.restrict NoCarry).exec .start (syncAtLastMs 1)).get syncAtLastMs_isSome).2
      (((clockSystem.restrict NoCarry).exec .start (syncAtLastMs 1)).get syncAtLastMs_isSome).1 :=
  clock_atomic (Reaches.of_exec ClockWorld.start_initial syncAtLastMs_isSome)

theorem syncAtLastMs_carry_isSome : (clockSystem.exec .start (syncAtLastMs 2)).isSome := by
  decide +kernel

/-- The tick between the writes makes 6 s of 5 s. -/
theorem not_clock_atomic :
    ¬ ∀ as es (w : ClockWorld), Reaches clockSystem as es w → ClockAtomic es w := by
  intro h
  have hsynced := (h _ _ _ (Reaches.of_exec ClockWorld.start_initial syncAtLastMs_carry_isSome)).synced
  have hmem : (⟨5, 0, 1, 6000⟩ : Synced) ∈
      ((clockSystem.exec .start (syncAtLastMs 2)).get syncAtLastMs_carry_isSome).2 := by
    decide +kernel
  obtain ⟨j, hj, hvalue⟩ := hsynced _ hmem (by decide)
  simp only [clockWrap] at hj hvalue
  omega

end LightControlMonitor.Can
