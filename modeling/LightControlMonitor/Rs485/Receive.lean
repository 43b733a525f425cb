import LightControlMonitor.Lib.Transition

/-!
# The receiver of the RS-485 ports

`rs_485_receive` on a port opened with receive interrupts, one action for each step that another context can see. An interrupt appends its byte to the driver buffer and releases the semaphore before the thread goes on. `_serial_int_rx` takes one byte at a time, so interrupts also fall between the bytes of one read.

Every loop clears the semaphore first and reads after that. A byte that arrives before the read has looked for the last time is read, and one that arrives later leaves the semaphore released, so the thread never waits beside a byte.
-/

namespace LightControlMonitor.Rs485

open Transition (Run)

/-- The point the thread has reached; `read rc` is inside `rt_device_read` with `rc` bytes taken, and `waiting` is suspended in `rt_sem_take`. -/
inductive Point
  | reset
  | read (rc : Nat)
  | take
  | waiting (ticks : Int)
  | woken
  | returned
  deriving DecidableEq

/-- The variables of `rs_485_receive`, the bytes it has written to its buffer, the bytes in the driver buffer and the value of the semaphore. -/
structure RxState where
  point : Point
  buf : List UInt8
  len : Nat
  bufsz : Nat
  timeout : Int
  fifo : List UInt8
  value : Nat
  deriving DecidableEq

def RT_TICK_PER_SECOND : Int := 1000
def RT_WAITING_FOREVER : Int := -1
def RT_SEM_VALUE_MAX : Nat := 0xffff

def rtTickFromMillisecond (ms : Int) : Int :=
  if ms < 0 then RT_WAITING_FOREVER
  else RT_TICK_PER_SECOND * (ms / 1000) + (RT_TICK_PER_SECOND * (ms % 1000) + 999) / 1000

/-- A byte that arrived, and an `rt_sem_take` that failed. -/
inductive RxEvent
  | byte (b : UInt8)
  | timeout
  deriving DecidableEq

/-- `rt_sem_control` with `RT_IPC_CMD_RESET`. -/
def rtSemReset (s : RxState) : RxState := { s with value := 0, point := .read 0 }

/-- The rest of the loop behind `rt_device_read`. -/
def readReturned (bytesTimeout : Int) (s : RxState) (rc : Nat) : RxState :=
  if 0 < rc then
    { s with
      timeout := bytesTimeout, len := s.len + rc, bufsz := s.bufsz - rc
      point := if s.bufsz - rc = 0 then .returned else .reset }
  else { s with point := .take }

/-- One round of the loop of `_serial_int_rx`. -/
def serialIntRx (bytesTimeout : Int) (s : RxState) (rc : Nat) : RxState :=
  if rc < s.bufsz then
    match s.fifo with
    | [] => readReturned bytesTimeout s rc
    | ch :: rest => { s with buf := s.buf ++ [ch], fifo := rest, point := .read (rc + 1) }
  else readReturned bytesTimeout s rc

def rtSemTake (bytesTimeout : Int) (s : RxState) : RxState × List RxEvent :=
  if 0 < s.value then ({ s with value := s.value - 1, timeout := bytesTimeout, point := .reset }, [])
  else if rtTickFromMillisecond s.timeout = 0 then ({ s with point := .returned }, [.timeout])
  else ({ s with point := .waiting (rtTickFromMillisecond s.timeout) }, [])

/-- `rt_sem_release`: a suspended thread is resumed instead of the value counted up. -/
def rtSemRelease (s : RxState) : RxState :=
  match s.point with
  | .waiting _ => { s with point := .woken }
  | _ => { s with value := if s.value < RT_SEM_VALUE_MAX then s.value + 1 else s.value }

/-- The receive interrupt with the callback `uart0_ind_cb`. -/
def arrive (s : RxState) (b : UInt8) : RxState := rtSemRelease { s with fifo := s.fifo ++ [b] }

def threadStep (bytesTimeout : Int) (s : RxState) : RxState × List RxEvent :=
  match s.point with
  | .reset => (rtSemReset s, [])
  | .read rc => (serialIntRx bytesTimeout s rc, [])
  | .take => rtSemTake bytesTimeout s
  | .woken => ({ s with timeout := bytesTimeout, point := .reset }, [])
  | .waiting _ => (s, [])
  | .returned => (s, [])

/-- An interrupt, a step of the thread, a read that ends early with the bytes it has, and the timer of a suspended thread. -/
inductive RxAction
  | arrive (b : UInt8)
  | thread
  | shortRead
  | expire

def RxAction.IsArrival : RxAction → Prop
  | .arrive _ => True
  | _ => False

instance RxAction.IsArrival.instDecidable : (a : RxAction) → Decidable a.IsArrival
  | .arrive _ => inferInstanceAs (Decidable True)
  | .thread => inferInstanceAs (Decidable False)
  | .shortRead => inferInstanceAs (Decidable False)
  | .expire => inferInstanceAs (Decidable False)

def stepsOf (as : List RxAction) : Nat := as.countP fun a => ¬ a.IsArrival

def Point.Runs : Point → Prop
  | .waiting _ => False
  | .returned => False
  | _ => True

def Point.taken : Point → Nat
  | .read rc => rc
  | _ => 0

def Point.ticks : Point → Int
  | .waiting ticks => ticks
  | _ => 0

def RxEnabled (s : RxState) : RxAction → Prop
  | .arrive _ => True
  | .thread => s.point.Runs
  | .shortRead => 0 < s.point.taken
  | .expire => 0 < s.point.ticks

def rxStep (bytesTimeout : Int) (s : RxState) : RxAction → RxState × List RxEvent
  | .arrive b => (arrive s b, [.byte b])
  | .thread => threadStep bytesTimeout s
  | .shortRead => (readReturned bytesTimeout s s.point.taken, [])
  | .expire => ({ s with point := .returned }, [.timeout])

/-- The call with the driver buffer and the semaphore as it finds them. -/
def RxState.call (fifo : List UInt8) (value : Nat) (bufsz : Nat) (timeout : Int) : RxState where
  point := .reset
  buf := []
  len := 0
  bufsz := bufsz
  timeout := timeout
  fifo := fifo
  value := value

def rs485System (bytesTimeout : Int) : Transition.System RxState RxAction RxEvent where
  init s := ∃ fifo value bufsz timeout, 0 < bufsz ∧ s = .call fifo value bufsz timeout
  enabled := RxEnabled
  step s a := some (rxStep bytesTimeout s a)

instance Point.Runs.instDecidable : (p : Point) → Decidable p.Runs
  | .reset => inferInstanceAs (Decidable True)
  | .read _ => inferInstanceAs (Decidable True)
  | .take => inferInstanceAs (Decidable True)
  | .waiting _ => inferInstanceAs (Decidable False)
  | .woken => inferInstanceAs (Decidable True)
  | .returned => inferInstanceAs (Decidable False)

instance rs485System.instDecidable (bytesTimeout : Int) (s : RxState) (a : RxAction) :
    Decidable ((rs485System bytesTimeout).enabled s a) :=
  match a with
  | .arrive _ => inferInstanceAs (Decidable True)
  | .thread => inferInstanceAs (Decidable s.point.Runs)
  | .shortRead => inferInstanceAs (Decidable (0 < s.point.taken))
  | .expire => inferInstanceAs (Decidable (0 < s.point.ticks))

def arrived (es : List RxEvent) : List UInt8 :=
  es.filterMap fun
    | .byte b => some b
    | .timeout => none

/-- The buffer holds all the bytes there were before the timeout, and there was one timeout. -/
def ReadAllBeforeTimeout (start : List UInt8) (es : List RxEvent) (buf : List UInt8) : Prop :=
  ∃ before after, es = before ++ .timeout :: after ∧ .timeout ∉ before ∧ .timeout ∉ after ∧
    buf = start ++ arrived before

/-- What the caller gets: the next bytes of the stream, not more than it asked for, and fewer only when nothing was left at the timeout. -/
structure Received (start : List UInt8) (bufsz : Nat) (es : List RxEvent) (s : RxState) : Prop where
  length : s.len = s.buf.length
  le : s.len ≤ bufsz
  stream : s.buf ++ s.fifo = start ++ arrived es
  nothingLeft : s.len < bufsz → ReadAllBeforeTimeout start es s.buf

/-! ### What a step of the call can do -/

/-- The steps that are not interrupts, with the branch of the source each one takes. -/
inductive Moves (bytesTimeout : Int) (s : RxState) : RxState → List RxEvent → Prop
  | reset (hpoint : s.point = .reset) : Moves bytesTimeout s { s with value := 0, point := .read 0 } []
  | byte {rc : Nat} {ch : UInt8} {rest : List UInt8} (hpoint : s.point = .read rc) (hroom : rc < s.bufsz)
      (hfifo : s.fifo = ch :: rest) :
      Moves bytesTimeout s { s with buf := s.buf ++ [ch], fifo := rest, point := .read (rc + 1) } []
  | full {rc : Nat} (hpoint : s.point = .read rc) (hrc : 0 < rc) (hfull : s.bufsz - rc = 0) :
      Moves bytesTimeout s
        { s with timeout := bytesTimeout, len := s.len + rc, bufsz := s.bufsz - rc, point := .returned } []
  | again {rc : Nat} (hpoint : s.point = .read rc) (hrc : 0 < rc) (hroom : 0 < s.bufsz - rc) :
      Moves bytesTimeout s
        { s with timeout := bytesTimeout, len := s.len + rc, bufsz := s.bufsz - rc, point := .reset } []
  | nothing (hpoint : s.point = .read 0) (hempty : s.fifo = []) : Moves bytesTimeout s { s with point := .take } []
  | through (hpoint : s.point = .take) (hvalue : 0 < s.value) :
      Moves bytesTimeout s { s with value := s.value - 1, timeout := bytesTimeout, point := .reset } []
  | suspend {ticks : Int} (hpoint : s.point = .take) (hvalue : s.value = 0) :
      Moves bytesTimeout s { s with point := .waiting ticks } []
  | giveUp (hpoint : s.point = .take) (hvalue : s.value = 0) :
      Moves bytesTimeout s { s with point := .returned } [.timeout]
  | expire {ticks : Int} (hpoint : s.point = .waiting ticks) :
      Moves bytesTimeout s { s with point := .returned } [.timeout]
  | woken (hpoint : s.point = .woken) : Moves bytesTimeout s { s with timeout := bytesTimeout, point := .reset } []

section

variable {bytesTimeout : Int} {s : RxState}

theorem moves_readReturned {rc : Nat} (hpoint : s.point = .read rc) (hrc : 0 < rc) :
    Moves bytesTimeout s (readReturned bytesTimeout s rc) [] := by
  rw [readReturned, if_pos hrc]
  by_cases hfull : s.bufsz - rc = 0
  · rw [if_pos hfull]
    exact .full hpoint hrc hfull
  · rw [if_neg hfull]
    exact .again hpoint hrc (Nat.pos_of_ne_zero hfull)

theorem moves_serialIntRx {rc : Nat} (hpoint : s.point = .read rc) (hpos : 0 < s.bufsz) :
    Moves bytesTimeout s (serialIntRx bytesTimeout s rc) [] := by
  unfold serialIntRx
  split
  · rename_i hroom
    split
    · rename_i hempty
      cases rc with
      | zero => exact .nothing hpoint hempty
      | succ rc => exact moves_readReturned hpoint (Nat.succ_pos rc)
    · rename_i ch rest hfifo
      exact .byte hpoint hroom hfifo
  · rename_i hfull
    exact moves_readReturned hpoint (by omega)

theorem moves_rtSemTake (hpoint : s.point = .take) :
    Moves bytesTimeout s (rtSemTake bytesTimeout s).1 (rtSemTake bytesTimeout s).2 := by
  unfold rtSemTake
  split
  · rename_i hvalue
    exact .through hpoint hvalue
  · rename_i hvalue
    have hzero : s.value = 0 := Nat.eq_zero_of_not_pos hvalue
    split
    · exact .giveUp hpoint hzero
    · exact .suspend hpoint hzero

theorem moves_rxStep {a : RxAction} (hpos : s.point ≠ .returned → 0 < s.bufsz) (henabled : RxEnabled s a)
    (hstep : ¬ a.IsArrival) : Moves bytesTimeout s (rxStep bytesTimeout s a).1 (rxStep bytesTimeout s a).2 := by
  cases a with
  | arrive b => exact absurd trivial hstep
  | thread =>
    rw [rxStep]
    unfold threadStep
    split
    · rename_i hpoint
      exact .reset hpoint
    · rename_i rc hpoint
      exact moves_serialIntRx hpoint (hpos (by simp [hpoint]))
    · rename_i hpoint
      exact moves_rtSemTake hpoint
    · rename_i hpoint
      exact .woken hpoint
    · rename_i ticks hpoint
      simp [RxEnabled, Point.Runs, hpoint] at henabled
    · rename_i hpoint
      simp [RxEnabled, Point.Runs, hpoint] at henabled
  | shortRead =>
    rw [RxEnabled] at henabled
    cases hpoint : s.point with
    | read rc =>
      rw [hpoint] at henabled
      rw [rxStep, hpoint]
      exact moves_readReturned hpoint henabled
    | _ => simp [Point.taken, hpoint] at henabled
  | expire =>
    rw [RxEnabled] at henabled
    cases hpoint : s.point with
    | waiting ticks => exact .expire hpoint
    | _ => simp [Point.ticks, hpoint] at henabled

theorem arrive_fifo (s : RxState) (b : UInt8) : (arrive s b).fifo = s.fifo ++ [b] := by
  unfold arrive rtSemRelease
  split <;> rfl

end

/-! ### The invariant -/

@[simp] theorem arrived_append (es fs : List RxEvent) : arrived (es ++ fs) = arrived es ++ arrived fs :=
  List.filterMap_append

/-- What holds at every point of the call. A thread that is about to wait beside a byte finds the semaphore released, and a suspended thread has no byte beside it. -/
structure Tracked (start : List UInt8) (total : Nat) (es : List RxEvent) (s : RxState) : Prop where
  stream : s.buf ++ s.fifo = start ++ arrived es
  length : s.buf.length = s.len + s.point.taken
  room : s.len + s.bufsz = total
  fits : s.point.taken ≤ s.bufsz
  unread : s.point ≠ .returned → 0 < s.bufsz ∧ .timeout ∉ es
  released : s.point = .take → s.fifo ≠ [] → 0 < s.value
  suspended : ∀ ticks, s.point = .waiting ticks → s.fifo = []
  closed : s.point = .returned → s.bufsz = 0 ∨ ReadAllBeforeTimeout start es s.buf

variable {start : List UInt8} {total : Nat} {es : List RxEvent} {s : RxState} {bytesTimeout : Int}

theorem Tracked.call {fifo : List UInt8} {value bufsz : Nat} {timeout : Int} (hpos : 0 < bufsz) :
    Tracked fifo bufsz [] (.call fifo value bufsz timeout) where
  stream := by simp [RxState.call, arrived]
  length := rfl
  room := Nat.zero_add bufsz
  fits := Nat.zero_le bufsz
  unread _ := ⟨hpos, List.not_mem_nil⟩
  released htake := by contradiction
  suspended _ hwaiting := by contradiction
  closed hreturned := by contradiction

theorem ReadAllBeforeTimeout.byte {buf : List UInt8} (h : ReadAllBeforeTimeout start es buf) (b : UInt8) :
    ReadAllBeforeTimeout start (es ++ [.byte b]) buf := by
  obtain ⟨before, after, rfl, hbefore, hafter, hbuf⟩ := h
  refine ⟨before, after ++ [.byte b], by simp, hbefore, ?_, hbuf⟩
  simpa using hafter

theorem Tracked.arrive (h : Tracked start total es s) (b : UInt8) :
    Tracked start total (es ++ [RxEvent.byte b]) (arrive s b) := by
  have hstream : s.buf ++ (s.fifo ++ [b]) = start ++ arrived (es ++ [RxEvent.byte b]) := by
    rw [← List.append_assoc, h.stream, arrived_append, List.append_assoc]
    rfl
  have hunread : s.point ≠ .returned → 0 < s.bufsz ∧ .timeout ∉ es ++ [RxEvent.byte b] := by
    intro hne
    simpa using h.unread hne
  obtain ⟨point, buf, len, bufsz, timeout, fifo, value⟩ := s
  have hcount : 0 < if value < RT_SEM_VALUE_MAX then value + 1 else value := by
    split
    · exact Nat.succ_pos value
    · rename_i hmax
      exact Nat.lt_of_lt_of_le (by decide) (Nat.le_of_not_lt hmax)
  cases point with
  | waiting ticks =>
    exact ⟨hstream, h.length, h.room, h.fits, fun _ => hunread (by simp),
      fun htake => by contradiction, fun _ hwaiting => by contradiction, fun hreturned => by contradiction⟩
  | returned =>
    exact ⟨hstream, h.length, h.room, h.fits, fun hne => absurd rfl hne, fun htake => by contradiction,
      fun _ hwaiting => by contradiction, fun hreturned => (h.closed hreturned).imp_right fun hall => hall.byte b⟩
  | _ =>
    exact ⟨hstream, h.length, h.room, h.fits, fun _ => hunread (by simp),
      fun _ _ => hcount, fun _ hwaiting => by contradiction, fun hreturned => by contradiction⟩

theorem Tracked.timedOut (h : Tracked start total es s) (htaken : s.point.taken = 0) (hpoint : s.point ≠ .returned)
    (hempty : s.fifo = []) : Tracked start total (es ++ [RxEvent.timeout]) { s with point := .returned } where
  stream := by
    rw [arrived_append, show arrived [.timeout] = [] from rfl, List.append_nil]
    exact h.stream
  length := by
    have hlength := h.length
    rwa [htaken] at hlength
  room := h.room
  fits := Nat.zero_le _
  unread hne := absurd rfl hne
  released htake := by contradiction
  suspended _ hwaiting := by contradiction
  closed _ := by
    have hstream := h.stream
    rw [hempty, List.append_nil] at hstream
    exact .inr ⟨es, [], rfl, (h.unread hpoint).2, List.not_mem_nil, hstream⟩

/-- A step that takes no byte to a point that does not wait, or to any point beside an empty driver buffer. -/
theorem Tracked.goto (h : Tracked start total es s) {point : Point} (timeout : Int) (value : Nat)
    (htaken : s.point.taken = 0) (hne : s.point ≠ .returned) (hnext : point.taken = 0 ∧ point ≠ .returned)
    (hempty : point = .reset ∨ point = .read 0 ∨ s.fifo = []) :
    Tracked start total es { s with point, timeout, value } where
  stream := h.stream
  length := by
    have hlength := h.length
    rwa [htaken, ← hnext.1] at hlength
  room := h.room
  fits := Nat.le_trans (Nat.le_of_eq hnext.1) (Nat.zero_le _)
  unread _ := h.unread hne
  released htake hread := by
    subst htake
    simp [hread] at hempty
  suspended ticks hwaiting := by
    subst hwaiting
    simpa using hempty
  closed hreturned := absurd hreturned hnext.2

theorem Tracked.empty_of_take (h : Tracked start total es s) (hpoint : s.point = .take) (hvalue : s.value = 0) :
    s.fifo = [] := by
  by_contra hne
  exact Nat.ne_of_gt (h.released hpoint hne) hvalue

theorem Tracked.byte (h : Tracked start total es s) {rc : Nat} {ch : UInt8} {rest : List UInt8}
    (hpoint : s.point = .read rc) (hspace : rc < s.bufsz) (hfifo : s.fifo = ch :: rest) :
    Tracked start total es { s with buf := s.buf ++ [ch], fifo := rest, point := .read (rc + 1) } where
  stream := by
    have hstream := h.stream
    rw [hfifo] at hstream
    simpa using hstream
  length := by
    have hlength := h.length
    rw [hpoint] at hlength
    rw [List.length_append, hlength]
    exact Nat.add_assoc _ _ 1
  room := h.room
  fits := hspace
  unread _ := h.unread (by simp [hpoint])
  released htake := by contradiction
  suspended _ hwaiting := by contradiction
  closed hreturned := by contradiction

/-- The bytes of a read count as received, and the call returns or goes on with what is left of the buffer. -/
theorem Tracked.received (h : Tracked start total es s) {rc : Nat} {point : Point} (timeout : Int)
    (hpoint : s.point = .read rc) (hnext : point = .returned ∧ s.bufsz - rc = 0 ∨ point = .reset ∧ 0 < s.bufsz - rc) :
    Tracked start total es { s with timeout, len := s.len + rc, bufsz := s.bufsz - rc, point } := by
  have hlength := h.length
  have hroom := h.room
  have hfits := h.fits
  have hunread := h.unread (by simp [hpoint])
  rw [hpoint, Point.taken] at hlength hfits
  have htotal : s.len + rc + (s.bufsz - rc) = total := by omega
  rcases hnext with ⟨rfl, hfull⟩ | ⟨rfl, hspace⟩
  · exact ⟨h.stream, hlength, htotal, Nat.zero_le _, fun hne => absurd rfl hne, fun htake => by contradiction,
      fun _ hwaiting => by contradiction, fun _ => .inl hfull⟩
  · exact ⟨h.stream, hlength, htotal, Nat.zero_le _, fun _ => ⟨hspace, hunread.2⟩, fun htake => by contradiction,
      fun _ hwaiting => by contradiction, fun hreturned => by contradiction⟩

theorem Tracked.moves {s' : RxState} {out : List RxEvent} (h : Tracked start total es s)
    (hmoves : Moves bytesTimeout s s' out) : Tracked start total (es ++ out) s' := by
  cases hmoves with
  | reset hpoint =>
    rw [List.append_nil]
    exact h.goto s.timeout 0 (by rw [hpoint]; rfl) (by simp [hpoint]) ⟨rfl, by simp⟩ (.inr (.inl rfl))
  | byte hpoint hspace hfifo =>
    rw [List.append_nil]
    exact h.byte hpoint hspace hfifo
  | full hpoint hrc hfull =>
    rw [List.append_nil]
    exact h.received bytesTimeout hpoint (.inl ⟨rfl, hfull⟩)
  | again hpoint hrc hspace =>
    rw [List.append_nil]
    exact h.received bytesTimeout hpoint (.inr ⟨rfl, hspace⟩)
  | nothing hpoint hempty =>
    rw [List.append_nil]
    exact h.goto s.timeout s.value (by rw [hpoint]; rfl) (by simp [hpoint]) ⟨rfl, by simp⟩ (.inr (.inr hempty))
  | through hpoint hvalue =>
    rw [List.append_nil]
    exact h.goto bytesTimeout (s.value - 1) (by rw [hpoint]; rfl) (by simp [hpoint]) ⟨rfl, by simp⟩ (.inl rfl)
  | suspend hpoint hvalue =>
    rw [List.append_nil]
    exact h.goto s.timeout s.value (by rw [hpoint]; rfl) (by simp [hpoint]) ⟨rfl, by simp⟩
      (.inr (.inr (h.empty_of_take hpoint hvalue)))
  | giveUp hpoint hvalue => exact h.timedOut (by rw [hpoint]; rfl) (by simp [hpoint]) (h.empty_of_take hpoint hvalue)
  | expire hpoint => exact h.timedOut (by rw [hpoint]; rfl) (by simp [hpoint]) (h.suspended _ hpoint)
  | woken hpoint =>
    rw [List.append_nil]
    exact h.goto bytesTimeout s.value (by rw [hpoint]; rfl) (by simp [hpoint]) ⟨rfl, by simp⟩ (.inl rfl)

/-! ### The call ends -/

/-- A byte lies beside a thread that the semaphore lets through. -/
structure Signalled (s : RxState) : Prop where
  looking : s.point = .read 0 ∨ s.point = .take → 0 < s.value → s.fifo ≠ []
  woken : s.point = .woken → s.fifo ≠ []

theorem Signalled.arrive (s : RxState) (b : UInt8) : Signalled (arrive s b) := by
  have hne : (Rs485.arrive s b).fifo ≠ [] := by simp [arrive_fifo]
  exact ⟨fun _ _ => hne, fun _ => hne⟩

theorem Signalled.moves {s' : RxState} {out : List RxEvent} (h : Signalled s) (hmoves : Moves bytesTimeout s s' out) :
    Signalled s' := by
  cases hmoves with
  | reset => exact ⟨fun _ hvalue => absurd hvalue (Nat.lt_irrefl 0), fun hwoken => by contradiction⟩
  | nothing hpoint hempty =>
    exact ⟨fun _ hvalue => h.looking (.inl hpoint) hvalue, fun hwoken => by contradiction⟩
  | _ => exact ⟨fun hlooking => by simp at hlooking, fun hwoken => by contradiction⟩

/-- The steps between here and the next byte taken. -/
def RxState.distance (s : RxState) : Nat :=
  match s.point with
  | .reset => if s.fifo = [] then 6 else 1
  | .read 0 => if s.fifo = [] then 5 else 0
  | .read (_ + 1) => 7
  | .take => 4
  | .waiting _ => 3
  | .woken => 2
  | .returned => 0

/-- A bound on the steps the call still takes. -/
def RxState.budget (s : RxState) : Nat := 8 * (s.bufsz - s.point.taken) + s.distance

theorem budget_arrive (s : RxState) (b : UInt8) : (arrive s b).budget ≤ s.budget := by
  obtain ⟨point, buf, len, bufsz, timeout, fifo, value⟩ := s
  rcases point with _ | rc | _ | ticks | _ | _
  · by_cases hempty : fifo = [] <;> simp [arrive, rtSemRelease, RxState.budget, RxState.distance, hempty]
  · cases rc with
    | zero => by_cases hempty : fifo = [] <;> simp [arrive, rtSemRelease, RxState.budget, RxState.distance, hempty]
    | succ rc => simp [arrive, rtSemRelease, RxState.budget, RxState.distance]
  all_goals simp [arrive, rtSemRelease, RxState.budget, RxState.distance, Point.taken]

theorem budget_moves {s' : RxState} {out : List RxEvent} (h : Signalled s) (hmoves : Moves bytesTimeout s s' out) :
    s'.budget < s.budget := by
  cases hmoves with
  | reset hpoint =>
    by_cases hempty : s.fifo = [] <;> simp [RxState.budget, RxState.distance, Point.taken, hpoint, hempty]
  | byte hpoint hroom hfifo =>
    rename_i rc ch rest
    cases rc <;> simp [RxState.budget, RxState.distance, Point.taken, hpoint, hfifo] <;> omega
  | full hpoint hrc hfull =>
    obtain ⟨rc, rfl⟩ := Nat.exists_eq_add_one_of_ne_zero (Nat.ne_of_gt hrc)
    simp [RxState.budget, RxState.distance, Point.taken, hpoint, hfull]
  | again hpoint hrc hroom =>
    obtain ⟨rc, rfl⟩ := Nat.exists_eq_add_one_of_ne_zero (Nat.ne_of_gt hrc)
    by_cases hempty : s.fifo = [] <;> simp [RxState.budget, RxState.distance, Point.taken, hpoint, hempty]
  | nothing hpoint hempty => simp [RxState.budget, RxState.distance, Point.taken, hpoint, hempty]
  | through hpoint hvalue =>
    have hread := h.looking (.inr hpoint) hvalue
    simp [RxState.budget, RxState.distance, Point.taken, hpoint, hread]
  | woken hpoint =>
    have hread := h.woken hpoint
    simp [RxState.budget, RxState.distance, Point.taken, hpoint, hread]
  | suspend hpoint => simp [RxState.budget, RxState.distance, Point.taken, hpoint]
  | giveUp hpoint => simp [RxState.budget, RxState.distance, Point.taken, hpoint]
  | expire hpoint => simp [RxState.budget, RxState.distance, Point.taken, hpoint]

theorem stepsOf_concat (as : List RxAction) (a : RxAction) :
    stepsOf (as ++ [a]) = stepsOf as + if a.IsArrival then 0 else 1 := by
  rw [stepsOf, List.countP_append]
  by_cases harrival : a.IsArrival <;> simp [harrival, stepsOf]

structure Spent (start : List UInt8) (total : Nat) (as : List RxAction) (es : List RxEvent) (s : RxState) : Prop where
  tracked : Tracked start total es s
  signalled : Signalled s
  budget : stepsOf as + s.budget ≤ 8 * total + 6

theorem Spent.step {as : List RxAction} (h : Spent start total as es s) {a : RxAction} (henabled : RxEnabled s a) :
    Spent start total (as ++ [a]) (es ++ (rxStep bytesTimeout s a).2) (rxStep bytesTimeout s a).1 := by
  have hbudget := h.budget
  by_cases harrival : a.IsArrival
  · cases a with
    | arrive b =>
      refine ⟨h.tracked.arrive b, .arrive s b, ?_⟩
      rw [stepsOf_concat, if_pos harrival]
      exact Nat.le_trans (Nat.add_le_add_left (budget_arrive s b) _) hbudget
    | _ => contradiction
  · have hmoves : Moves bytesTimeout s _ _ := moves_rxStep (fun hne => (h.tracked.unread hne).1) henabled harrival
    refine ⟨h.tracked.moves hmoves, h.signalled.moves hmoves, ?_⟩
    rw [stepsOf_concat, if_neg harrival]
    have hless := budget_moves h.signalled hmoves
    omega

theorem spent_of_run {fifo : List UInt8} {value bufsz : Nat} {timeout : Int} {as : List RxAction} {t : RxState}
    (hpos : 0 < bufsz) (hrun : Run (rs485System bytesTimeout) (.call fifo value bufsz timeout) as es t) :
    Spent fifo bufsz as es t := by
  refine hrun.invariant (Spent fifo bufsz) ⟨.call hpos, ?_, ?_⟩ ?_
  · exact ⟨fun hlooking => by simp [RxState.call] at hlooking, fun hwoken => by contradiction⟩
  · by_cases hempty : fifo = [] <;>
      simp [stepsOf, RxState.budget, RxState.distance, RxState.call, Point.taken, hempty]
  · intro as es s a out u hspent henabled hstep
    obtain ⟨rfl, rfl⟩ := Prod.mk.inj (Option.some.inj hstep)
    exact hspent.step henabled

/-- For every interleaving: what the call returns is the next bytes of the stream with nothing left unread at a timeout, the thread never waits beside a byte, and the call takes a bounded number of steps. -/
theorem receive_sound (fifo : List UInt8) (value : Nat) {bufsz : Nat} (hpos : 0 < bufsz) (timeout bytesTimeout : Int)
    {as : List RxAction} {es : List RxEvent} {t : RxState}
    (hrun : Run (rs485System bytesTimeout) (.call fifo value bufsz timeout) as es t) :
    (t.point = .returned → Received fifo bufsz es t) ∧ (∀ ticks, t.point = .waiting ticks → t.fifo = []) ∧
      stepsOf as ≤ 8 * bufsz + 6 := by
  have hspent := spent_of_run hpos hrun
  have htracked := hspent.tracked
  have hroom := htracked.room
  refine ⟨fun hreturned => ?_, htracked.suspended, Nat.le_trans (Nat.le_add_right _ _) hspent.budget⟩
  have hlength := htracked.length
  rw [hreturned] at hlength
  refine ⟨hlength.symm, by omega, htracked.stream, fun hless => ?_⟩
  exact (htracked.closed hreturned).resolve_left (by omega)

/-- Four bytes are wanted, one is there, a second one arrives behind a read that found nothing, and no other comes. -/
def lateByte : List RxAction :=
  List.replicate 5 .thread ++ [.arrive 0x02] ++ List.replicate 7 .thread ++ [.expire]

theorem receive_sound_lateByte :
    Received [0x01] 4 [.byte 0x02, .timeout]
      { point := .returned, buf := [0x01, 0x02], len := 2, bufsz := 2, timeout := 20, fifo := [], value := 0 } := by
  have hexec : (rs485System 20).exec (.call [0x01] 0 4 1000) lateByte = some
      ({ point := .returned, buf := [0x01, 0x02], len := 2, bufsz := 2, timeout := 20, fifo := [], value := 0 },
        [.byte 0x02, .timeout]) := by decide
  exact (receive_sound [0x01] 0 (by decide) 1000 20 (Transition.System.exec_run hexec)).1 rfl

end LightControlMonitor.Rs485
