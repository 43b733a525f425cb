import LightControlMonitor.Lib.Transition
import LightControlMonitor.Can.Message

/-!
# The CAN receive thread

One bus of `mycan.c`: the receive FIFO of the CAN layer, which starts with `rt_device_open`, the callback that `can_rx_thread` registers later, the semaphore it releases and the loop of the thread. A full FIFO loses its oldest frame. Every frame gets the number of its arrival, which only the histories look at.

The thread reads one frame for every count of the semaphore, so it keeps up as long as the count is the length of the FIFO. A frame that arrives before the callback is registered leaves the FIFO one ahead for ever, and a frame that is lost in a full FIFO leaves a count without a frame, for which the thread parses its last frame once more.
-/

namespace LightControlMonitor.Can

open Transition (Reaches)

def RT_CANMSG_BOX_SZ : Nat := 16
def RT_SEM_VALUE_MAX : Nat := 65535

/-- Where `can_rx_thread` is. -/
inductive RxPc
  | notStarted
  | setRxIndicate
  | semTake
  | clearFail
  | read
  | parse
  deriving DecidableEq

/-- A frame and the number of its arrival. -/
abbrev Arrival := Nat × RtCanMsg

/-- `rxmsg` of the thread; a frame that never arrived has no number. -/
abbrev Held := Option Nat × RtCanMsg

structure RxBus where
  opened : Bool
  rxIndicate : Bool
  fifo : List Arrival
  sem : Nat
  pc : RxPc
  rxmsg : Held
  commFailFlag : Bool
  arrivals : Nat

inductive RxEvent
  | arrive (arrival : Arrival)
  | overwrite (number : Nat)
  | parse (rxmsg : Held)

inductive RxAction
  | create
  | arrive (msg : RtCanMsg)
  | thread
  | timeout

def rtSemRelease (sem : Nat) : Nat := if sem < RT_SEM_VALUE_MAX then sem + 1 else sem

/-- `can_thtead_create` before it opens the device; `rxmsg` is the zeroed local of the thread. -/
def RxBus.Initial (b : RxBus) : Prop :=
  b.opened = false ∧ b.rxIndicate = false ∧ b.fifo = [] ∧ b.sem = 0 ∧ b.pc = .notStarted ∧ b.rxmsg.1 = none ∧
    b.arrivals = 0

/-- The thread waits in `rt_sem_take`. -/
def RxBus.Blocked (b : RxBus) : Prop := b.pc = .semTake ∧ b.sem = 0

instance (b : RxBus) : Decidable b.Blocked := inferInstanceAs (Decidable (b.pc = .semTake ∧ b.sem = 0))

def RxBus.Enabled (b : RxBus) : RxAction → Prop
  | .create => b.pc = .notStarted
  | .arrive _ => b.opened = true
  | .thread => b.pc ≠ .notStarted ∧ ¬ b.Blocked
  | .timeout => b.Blocked

instance (b : RxBus) : (a : RxAction) → Decidable (b.Enabled a)
  | .create => inferInstanceAs (Decidable (b.pc = .notStarted))
  | .arrive _ => inferInstanceAs (Decidable (b.opened = true))
  | .thread => inferInstanceAs (Decidable (b.pc ≠ .notStarted ∧ ¬ b.Blocked))
  | .timeout => inferInstanceAs (Decidable b.Blocked)

/-- `rt_hw_can_isr` for one received frame. -/
def RxBus.arrive (b : RxBus) (msg : RtCanMsg) : RxBus × List RxEvent :=
  let arrival : Arrival := (b.arrivals, msg)
  let lost := if b.fifo.length < RT_CANMSG_BOX_SZ then none else b.fifo.head?
  ({ b with
      fifo := Fifo.push RT_CANMSG_BOX_SZ b.fifo arrival, arrivals := b.arrivals + 1
      sem := if b.rxIndicate then rtSemRelease b.sem else b.sem },
    .arrive arrival :: (lost.map fun old => RxEvent.overwrite old.1).toList)

/-- The top of the loop writes −1 to `hdr_index`. -/
def Held.rewind (rxmsg : Held) : Held := (rxmsg.1, { rxmsg.2 with hdrIndex := -1 })

/-- The next statement of `can_rx_thread`. -/
def RxBus.threadStep (b : RxBus) : RxBus × List RxEvent :=
  match b.pc with
  | .notStarted => (b, [])
  | .setRxIndicate => ({ b with rxIndicate := true, pc := .semTake, rxmsg := b.rxmsg.rewind }, [])
  | .semTake => ({ b with sem := b.sem - 1, pc := .clearFail }, [])
  | .clearFail => ({ b with commFailFlag := false, pc := .read }, [])
  | .read =>
    match b.fifo with
    | [] => ({ b with pc := .parse }, [])
    | (number, msg) :: rest => ({ b with fifo := rest, rxmsg := (some number, msg), pc := .parse }, [])
  | .parse => ({ b with pc := .semTake, rxmsg := b.rxmsg.rewind }, [.parse b.rxmsg])

def RxBus.step (b : RxBus) : RxAction → Option (RxBus × List RxEvent)
  | .create =>
    some (if b.opened then { b with pc := .setRxIndicate } else { b with opened := true }, [])
  | .arrive msg => some (b.arrive msg)
  | .thread => some b.threadStep
  | .timeout => some ({ b with commFailFlag := true }, [])

def rxSystem : Transition.System RxBus RxAction RxEvent where
  init := RxBus.Initial
  enabled := RxBus.Enabled
  step := RxBus.step

instance (b : RxBus) (a : RxAction) : Decidable (rxSystem.enabled b a) := inferInstanceAs (Decidable (b.Enabled a))

/-! ### The histories -/

def arrived (es : List RxEvent) : List Arrival :=
  es.filterMap fun
    | .arrive arrival => some arrival
    | _ => none

def overwritten (es : List RxEvent) : List Nat :=
  es.filterMap fun
    | .overwrite number => some number
    | _ => none

/-- What was passed to `can_msg_parse`. -/
def parsed (es : List RxEvent) : List (Held) :=
  es.filterMap fun
    | .parse rxmsg => some rxmsg
    | _ => none

@[simp] theorem arrived_append (es fs : List RxEvent) : arrived (es ++ fs) = arrived es ++ arrived fs :=
  List.filterMap_append

@[simp] theorem parsed_append (es fs : List RxEvent) : parsed (es ++ fs) = parsed es ++ parsed fs :=
  List.filterMap_append

@[simp] theorem parsed_parse (rxmsg : Held) : parsed [.parse rxmsg] = [rxmsg] := rfl

@[simp] theorem arrived_parse (rxmsg : Held) : arrived [.parse rxmsg] = [] := rfl

@[simp] theorem arrived_arrive (b : RxBus) (msg : RtCanMsg) : arrived (b.arrive msg).2 = [(b.arrivals, msg)] := by
  unfold RxBus.arrive
  dsimp only
  split
  · rfl
  · cases b.fifo.head? <;> rfl

@[simp] theorem parsed_arrive (b : RxBus) (msg : RtCanMsg) : parsed (b.arrive msg).2 = [] := by
  unfold RxBus.arrive
  dsimp only
  split
  · rfl
  · cases b.fifo.head? <;> rfl

/-- An arrival as the thread sees it. -/
def Arrival.seen (arrival : Arrival) : Held := (some arrival.1, arrival.2)

/-- The frame between `rt_device_read` and `can_msg_parse`. -/
def RxBus.inHand (b : RxBus) : List (Held) := if b.pc = .parse then [b.rxmsg] else []

/-- Every frame that was not overwritten is parsed once, in the order of arrival, and none is left behind when the thread waits. -/
structure ProcessedOnce (es : List RxEvent) (b : RxBus) : Prop where
  numbered : (arrived es).map (·.1) = List.range b.arrivals
  once : ∃ done : List Arrival, parsed es = done.map Arrival.seen ∧ done.Sublist (arrived es) ∧ ∀ arrival ∈ arrived es,
    arrival ∈ done ∨ arrival.1 ∈ overwritten es ∨ arrival.seen ∈ b.inHand ∨ arrival ∈ b.fifo
  noLag : b.Blocked → b.fifo = []

/-- A frame arrives when the callback is registered and the FIFO has room. -/
def Timely (b : RxBus) : RxAction → Prop
  | .arrive _ => b.rxIndicate = true ∧ b.fifo.length < RT_CANMSG_BOX_SZ
  | _ => True

instance (b : RxBus) : (a : RxAction) → Decidable (Timely b a)
  | .arrive _ => inferInstanceAs (Decidable (b.rxIndicate = true ∧ b.fifo.length < RT_CANMSG_BOX_SZ))
  | .create => inferInstanceAs (Decidable True)
  | .thread => inferInstanceAs (Decidable True)
  | .timeout => inferInstanceAs (Decidable True)

instance (b : RxBus) (a : RxAction) : Decidable ((rxSystem.restrict Timely).enabled b a) :=
  inferInstanceAs (Decidable (rxSystem.enabled b a ∧ Timely b a))

/-! ### The semaphore counts the FIFO -/

/-- The counts the thread has taken without having read their frames. -/
def RxPc.taken : RxPc → Nat
  | .clearFail => 1
  | .read => 1
  | _ => 0

structure Agree (es : List RxEvent) (b : RxBus) : Prop where
  numbered : (arrived es).map (·.1) = List.range b.arrivals
  room : b.fifo.length ≤ RT_CANMSG_BOX_SZ
  count : b.fifo.length = b.sem + b.pc.taken
  history : parsed es ++ b.inHand ++ b.fifo.map Arrival.seen = (arrived es).map Arrival.seen

theorem Agree.initial {b : RxBus} (hinit : b.Initial) : Agree [] b := by
  obtain ⟨-, -, hfifo, hsem, hpc, -, harrivals⟩ := hinit
  refine ⟨by simp [arrived, harrivals], by simp [hfifo], by simp [hfifo, hsem, hpc, RxPc.taken], ?_⟩
  simp [RxBus.inHand, hpc, hfifo, arrived, parsed]

/-- A step that moves the thread and nothing else. -/
theorem Agree.move {es : List RxEvent} {b b' : RxBus} (h : Agree es b) (harrivals : b'.arrivals = b.arrivals)
    (hfifo : b'.fifo = b.fifo) (hcount : b'.sem + b'.pc.taken = b.sem + b.pc.taken)
    (hhand : b'.inHand = b.inHand) : Agree (es ++ []) b' := by
  rw [List.append_nil]
  exact ⟨harrivals ▸ h.numbered, hfifo ▸ h.room, by rw [hfifo, hcount, h.count], by rw [hhand, hfifo, h.history]⟩

theorem Agree.arrive {es : List RxEvent} {b : RxBus} (h : Agree es b) (msg : RtCanMsg)
    (hregistered : b.rxIndicate = true) (hroom : b.fifo.length < RT_CANMSG_BOX_SZ) :
    Agree (es ++ (b.arrive msg).2) (b.arrive msg).1 := by
  have hfifo : (b.arrive msg).1.fifo = b.fifo ++ [(b.arrivals, msg)] := Fifo.push_of_lt hroom _
  have hcount := h.count
  have hlt : b.sem < RT_SEM_VALUE_MAX := by
    unfold RT_CANMSG_BOX_SZ at hroom
    unfold RT_SEM_VALUE_MAX
    omega
  have hsem : (b.arrive msg).1.sem = b.sem + 1 := by
    simp [RxBus.arrive, hregistered, rtSemRelease, hlt]
  refine ⟨?_, ?_, ?_, ?_⟩
  · rw [arrived_append, arrived_arrive, List.map_append, h.numbered]
    exact List.range_succ.symm
  · rw [hfifo, List.length_append, List.length_singleton]
    omega
  · change _ = (b.arrive msg).1.sem + b.pc.taken
    rw [hfifo, hsem, List.length_append, List.length_singleton]
    omega
  · change _ ++ b.inHand ++ _ = _
    rw [parsed_append, parsed_arrive, List.append_nil, arrived_append, arrived_arrive, hfifo, List.map_append,
      List.map_append, ← h.history, List.append_assoc, List.append_assoc, List.append_assoc]

/-- The count just taken stands for a frame. -/
theorem Agree.read_fifo_ne_nil {es : List RxEvent} {b : RxBus} (h : Agree es b) (hpc : b.pc = .read) : b.fifo ≠ [] := by
  intro hempty
  have hcount := h.count
  simp [hpc, hempty, RxPc.taken] at hcount

theorem Agree.read {es : List RxEvent} {b : RxBus} {number : Nat} {msg : RtCanMsg} {rest : List Arrival}
    (h : Agree es b) (hpc : b.pc = .read) (hfifo : b.fifo = (number, msg) :: rest) :
    Agree es { b with fifo := rest, rxmsg := (some number, msg), pc := .parse } := by
  have hcount := h.count
  have hhistory := h.history
  have hroom := h.room
  have hhand : b.inHand = [] := by simp [RxBus.inHand, hpc]
  rw [hpc, hfifo, List.length_cons] at hcount
  rw [hhand, List.append_nil, hfifo] at hhistory
  rw [hfifo, List.length_cons] at hroom
  refine ⟨h.numbered, by exact (Nat.le_succ _).trans hroom, ?_, ?_⟩
  · simp only [RxPc.taken] at hcount ⊢
    omega
  · simpa [RxBus.inHand, Arrival.seen] using hhistory

theorem Agree.parse {es : List RxEvent} {b : RxBus} (h : Agree es b) (hpc : b.pc = .parse) :
    Agree (es ++ [RxEvent.parse b.rxmsg]) { b with pc := .semTake, rxmsg := b.rxmsg.rewind } := by
  have hcount := h.count
  have hhistory := h.history
  have hhand : b.inHand = [b.rxmsg] := by simp [RxBus.inHand, hpc]
  rw [hpc] at hcount
  rw [hhand] at hhistory
  refine ⟨?_, h.room, hcount, ?_⟩
  · simpa using h.numbered
  · simpa [RxBus.inHand] using hhistory

theorem Agree.thread {es : List RxEvent} {b : RxBus} (h : Agree es b) (hrunning : ¬ b.Blocked) :
    Agree (es ++ b.threadStep.2) b.threadStep.1 := by
  unfold RxBus.threadStep
  split
  · exact h.move rfl rfl rfl rfl
  · rename_i hpc
    exact h.move rfl rfl (by simp [hpc, RxPc.taken]) (by simp [RxBus.inHand, hpc])
  · rename_i hpc
    have hpos : b.sem ≠ 0 := fun hzero => hrunning ⟨hpc, hzero⟩
    refine h.move rfl rfl ?_ (by simp [RxBus.inHand, hpc])
    simp only [hpc, RxPc.taken]
    omega
  · rename_i hpc
    exact h.move rfl rfl (by simp [hpc, RxPc.taken]) (by simp [RxBus.inHand, hpc])
  · rename_i hpc
    split
    · rename_i hempty
      exact absurd hempty (h.read_fifo_ne_nil hpc)
    · rename_i number msg rest hfifo
      rw [List.append_nil]
      exact h.read hpc hfifo
  · rename_i hpc
    exact h.parse hpc

theorem agree_of_reaches {as : List RxAction} {es : List RxEvent} {b : RxBus}
    (hreach : Reaches (rxSystem.restrict Timely) as es b) : Agree es b := by
  apply hreach.invariant (fun _ es b => Agree es b) (fun _ hinit => .initial hinit)
  intro _ es b a out b' h henabled hstep
  obtain ⟨henabled, htimely⟩ := henabled
  cases a with
  | create =>
    have hpc : b.pc = .notStarted := henabled
    obtain ⟨rfl, rfl⟩ := Prod.mk.inj (Option.some.inj hstep)
    split
    · exact h.move rfl rfl (by simp [hpc, RxPc.taken]) (by simp [RxBus.inHand, hpc])
    · exact h.move rfl rfl rfl rfl
  | arrive msg =>
    obtain ⟨rfl, rfl⟩ := Prod.mk.inj (Option.some.inj hstep)
    exact h.arrive msg htimely.1 htimely.2
  | thread =>
    obtain ⟨rfl, rfl⟩ := Prod.mk.inj (Option.some.inj hstep)
    exact h.thread henabled.2
  | timeout =>
    obtain ⟨rfl, rfl⟩ := Prod.mk.inj (Option.some.inj hstep)
    exact h.move rfl rfl rfl rfl

theorem Agree.processedOnce {es : List RxEvent} {b : RxBus} (h : Agree es b) : ProcessedOnce es b := by
  have hinjective : Function.Injective Arrival.seen := by
    rintro ⟨m, f⟩ ⟨n, g⟩ heq
    obtain ⟨hnumber, rfl⟩ := Prod.mk.inj heq
    exact Prod.ext (Option.some.inj hnumber) rfl
  refine ⟨h.numbered, ?_, fun ⟨hpc, hsem⟩ => ?_⟩
  · have hhistory := h.history
    rw [List.append_assoc] at hhistory
    obtain ⟨done, waiting, hsplit, hdone, hwaiting⟩ := List.map_eq_append_iff.mp hhistory.symm
    refine ⟨done, hdone.symm, hsplit ▸ List.sublist_append_left .., fun arrival hmem => ?_⟩
    rw [hsplit] at hmem
    rcases List.mem_append.mp hmem with hold | hnew
    · exact .inl hold
    · have hseen : arrival.seen ∈ waiting.map Arrival.seen := List.mem_map_of_mem hnew
      rw [hwaiting] at hseen
      rcases List.mem_append.mp hseen with hhand | hfifo
      · exact .inr (.inr (.inl hhand))
      · exact .inr (.inr (.inr ((List.mem_map_of_injective hinjective).mp hfifo)))
  · have hcount := h.count
    rw [hpc, hsem] at hcount
    exact List.eq_nil_of_length_eq_zero hcount

/-- While every frame arrives behind the registration and finds room, every frame is processed once and without lag. -/
theorem frames_processed_once {as : List RxAction} {es : List RxEvent} {b : RxBus}
    (hreach : Reaches (rxSystem.restrict Timely) as es b) : ProcessedOnce es b :=
  (agree_of_reaches hreach).processedOnce

def RxBus.start : RxBus where
  opened := false
  rxIndicate := false
  fifo := []
  sem := 0
  pc := .notStarted
  rxmsg := (none, { id := 0, ide := false, rtr := false, len := 0, hdrIndex := 0, data := Vector.replicate 8 0 })
  commFailFlag := false
  arrivals := 0

theorem RxBus.start_initial : RxBus.start.Initial := ⟨rfl, rfl, rfl, rfl, rfl, rfl, rfl⟩

/-- A request for the IO word to all nodes. -/
def ioRequest : RtCanMsg :=
  { id := 0x401, ide := false, rtr := false, len := 2, hdrIndex := 0, data := #v[0xff, 0x02, 0, 0, 0, 0, 0, 0] }

/-- Start-up, one frame and its way to the parser. -/
def oneFrame : List RxAction :=
  [.create, .create, .thread, .arrive ioRequest, .thread, .thread, .thread, .thread]

theorem oneFrame_isSome : ((rxSystem.restrict Timely).exec .start oneFrame).isSome := by
  decide +kernel

theorem frames_processed_once_one :
    ProcessedOnce (((rxSystem.restrict Timely).exec .start oneFrame).get oneFrame_isSome).2
      (((rxSystem.restrict Timely).exec .start oneFrame).get oneFrame_isSome).1 :=
  frames_processed_once (Reaches.of_exec RxBus.start_initial oneFrame_isSome)

/-- A frame between the opening of the device and the registration. -/
def earlyFrame : List RxAction := [.create, .arrive ioRequest, .create, .thread]

theorem earlyFrame_isSome : (rxSystem.exec .start earlyFrame).isSome := by
  decide +kernel

/-- The thread waits for the semaphore with the frame in the FIFO. -/
theorem not_processed_once_early :
    ¬ ∀ as es (b : RxBus), Reaches rxSystem as es b → ProcessedOnce es b := by
  intro h
  have hnil := (h _ _ _ (Reaches.of_exec RxBus.start_initial earlyFrame_isSome)).noLag (by decide +kernel)
  have hlength : (((rxSystem.exec .start earlyFrame).get earlyFrame_isSome).1.fifo).length = 1 := by
    decide +kernel
  rw [hnil] at hlength
  contradiction

/-- Seventeen frames before the thread runs: the first is lost and the last is parsed twice. -/
example :
    (rxSystem.exec .start ([.create, .create, .thread] ++ List.replicate 17 (.arrive ioRequest) ++
      List.replicate 68 .thread)).map (fun run => (parsed run.2).map (·.1)) =
      some ((List.range' 1 16).map some ++ [some 16]) := by
  decide +kernel

end LightControlMonitor.Can
