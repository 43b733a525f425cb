import LightControlMonitor.Lib.Fifo
import LightControlMonitor.Lib.RingBuffer
import LightControlMonitor.Lib.Transition

/-!
# The receive buffer of a serial port

The receive path of `rt_hw_serial_isr` and `_serial_int_rx` of `serial.c`, on a port with a buffer of at least two bytes. The two indices are equal for an empty buffer and never for one that holds something, because the interrupt that makes them equal moves the read index on and so gives up the oldest byte. So a buffer of `bufsz` bytes keeps the newest `bufsz - 1` bytes that were not read, and `is_full` never decides anything.
-/

namespace LightControlMonitor.Kernel

open Transition (System Reaches)

/-- `struct rt_serial_rx_fifo`. -/
structure SerialRxFifo where
  buffer : Nat → UInt8
  putIndex : Nat
  getIndex : Nat
  isFull : Bool

def nextIndex (bufsz index : Nat) : Nat :=
  if (index + 1) % 0x10000 ≥ bufsz then 0 else (index + 1) % 0x10000

/-- One byte of the loop of `rt_hw_serial_isr`. -/
def SerialRxFifo.isrByte (f : SerialRxFifo) (bufsz : Nat) (ch : UInt8) : SerialRxFifo :=
  let stored := { f with buffer := Function.update f.buffer f.putIndex ch, putIndex := nextIndex bufsz f.putIndex }
  if stored.putIndex = stored.getIndex then { stored with getIndex := nextIndex bufsz f.getIndex, isFull := true }
  else stored

/-- One byte of the loop of `_serial_int_rx`; `none` is the break on no data. -/
def SerialRxFifo.intRx (f : SerialRxFifo) (bufsz : Nat) : Option (SerialRxFifo × UInt8) :=
  if f.getIndex = f.putIndex ∧ f.isFull = false then none
  else some ({ f with getIndex := nextIndex bufsz f.getIndex, isFull := false }, f.buffer f.getIndex)

/-- The length that `rt_hw_serial_isr` hands to `rx_indicate`. -/
def SerialRxFifo.rxLength (f : SerialRxFifo) (bufsz : Nat) : Nat :=
  if f.putIndex ≥ f.getIndex then f.putIndex - f.getIndex else bufsz - (f.getIndex - f.putIndex)

/-- A byte arrives, the callback is invoked, a thread reads a byte. -/
inductive SerialAction
  | isrByte (ch : UInt8)
  | indicate
  | intRx

inductive SerialEvent
  | arrived (ch : UInt8)
  | indicated (rxLength : Nat)
  | read (ch : UInt8)
  | noData
  deriving DecidableEq

def serialStep (bufsz : Nat) (f : SerialRxFifo) : SerialAction → Option (SerialRxFifo × List SerialEvent)
  | .isrByte ch => some (f.isrByte bufsz ch, [.arrived ch])
  | .indicate => some (f, [.indicated (f.rxLength bufsz)])
  | .intRx =>
    match f.intRx bufsz with
    | none => some (f, [.noData])
    | some (f', ch) => some (f', [.read ch])

/-- The buffer of an opened port. -/
def serialSystem (bufsz : Nat) : System SerialRxFifo SerialAction SerialEvent where
  init f := f.putIndex = 0 ∧ f.getIndex = 0 ∧ f.isFull = false
  enabled _ _ := True
  step := serialStep bufsz

/-- What an event means for the bytes that were kept and not yet read. -/
inductive ByteStep (cap : Nat) : List UInt8 → SerialEvent → List UInt8 → Prop
  | arrived {q : List UInt8} {ch : UInt8} : ByteStep cap q (.arrived ch) (Fifo.push cap q ch)
  | indicated {q : List UInt8} : ByteStep cap q (.indicated q.length) q
  | read {q : List UInt8} {ch : UInt8} : ByteStep cap (ch :: q) (.read ch) q
  | noData : ByteStep cap [] .noData []

inductive Bytes (cap : Nat) : List SerialEvent → List UInt8 → Prop
  | nil : Bytes cap [] []
  | snoc {es : List SerialEvent} {q q' : List UInt8} {e : SerialEvent} (hbytes : Bytes cap es q)
      (hstep : ByteStep cap q e q') : Bytes cap (es ++ [e]) q'

/-! ### The ring with a free slot -/

/-- The buffer holds `q` and has a free slot. -/
structure SerialRxFifo.Holds (f : SerialRxFifo) (bufsz : Nat) (q : List UInt8) : Prop where
  ring : RingBuffer.Holds f.buffer bufsz f.getIndex f.putIndex q
  length_lt : q.length < bufsz
  isFull_ne : f.isFull = true → q ≠ []

variable {f : SerialRxFifo} {bufsz : Nat} {q : List UInt8}

theorem nextIndex_eq (hbufsz : bufsz < 0x10000) {index : Nat} (hlt : index < bufsz) :
    nextIndex bufsz index = RingBuffer.advance bufsz index := by
  unfold nextIndex
  rw [Nat.mod_eq_of_lt (by omega)]
  rfl

/-- The places of a ring meet when it is empty or full. -/
theorem place_eq_iff {size out n : Nat} (hout : out < size) (hn : n ≤ size) :
    (out + n) % size = out ↔ n = 0 ∨ n = size := by
  constructor
  · intro heq
    by_contra hne
    have hdiff : (out + 0) % size ≠ (out + n) % size := RingBuffer.place_ne out (by omega) (by omega)
    rw [Nat.add_zero, Nat.mod_eq_of_lt hout] at hdiff
    exact hdiff heq.symm
  · rintro (rfl | rfl)
    · exact Nat.mod_eq_of_lt hout
    · rw [Nat.add_mod_right, Nat.mod_eq_of_lt hout]

theorem SerialRxFifo.Holds.isrByte (h : f.Holds bufsz q) (hbufsz : 1 < bufsz ∧ bufsz < 0x10000) (ch : UInt8) :
    (f.isrByte bufsz ch).Holds bufsz (Fifo.push (bufsz - 1) q ch) := by
  have hput := h.ring.put h.length_lt ch
  have hlength := h.length_lt
  have hmeet := place_eq_iff h.ring.out_lt (n := q.length + 1) (by omega)
  have hinto : RingBuffer.advance bufsz f.putIndex = (f.getIndex + (q.length + 1)) % bufsz := by
    simpa using hput.into_eq
  unfold SerialRxFifo.isrByte Fifo.push
  dsimp only
  rw [nextIndex_eq hbufsz.2 h.ring.into_lt, nextIndex_eq hbufsz.2 h.ring.out_lt, hinto]
  by_cases hfull : q.length + 1 = bufsz
  · rw [if_pos (hmeet.mpr (.inr hfull)), if_neg (by omega)]
    rw [hinto] at hput
    cases q with
    | nil =>
      rw [List.length_nil] at hfull
      omega
    | cons oldest q =>
      refine ⟨hput.take.2, ?_, fun _ => by simp⟩
      simpa using hlength
  · rw [if_neg (fun heq => hfull ((hmeet.mp heq).resolve_left (Nat.succ_ne_zero _))), if_pos (by omega)]
    rw [hinto] at hput
    refine ⟨hput, ?_, fun _ => by simp⟩
    rw [List.length_append, List.length_singleton]
    omega

theorem SerialRxFifo.Holds.intRx_none (h : f.Holds bufsz []) : f.intRx bufsz = none := by
  have hmeet : f.getIndex = f.putIndex := by
    rw [h.ring.into_eq, List.length_nil, Nat.add_zero, Nat.mod_eq_of_lt h.ring.out_lt]
  have hfull : f.isFull = false := Bool.eq_false_iff.mpr fun hfull => h.isFull_ne hfull rfl
  exact if_pos ⟨hmeet, hfull⟩

theorem SerialRxFifo.Holds.intRx_some {ch : UInt8} (h : f.Holds bufsz (ch :: q)) (hbufsz : bufsz < 0x10000) :
    ∃ f', f.intRx bufsz = some (f', ch) ∧ f'.Holds bufsz q := by
  have hlength := h.length_lt
  obtain ⟨hch, hrest⟩ := h.ring.take
  have hapart : ¬ (f.getIndex = f.putIndex ∧ f.isFull = false) := by
    rintro ⟨hmeet, -⟩
    rw [h.ring.into_eq] at hmeet
    rcases (place_eq_iff h.ring.out_lt hlength.le).mp hmeet.symm with hnil | hround
    · simp at hnil
    · omega
  refine ⟨_, by rw [SerialRxFifo.intRx, if_neg hapart, hch], ?_, by rw [List.length_cons] at hlength; omega, by simp⟩
  rw [nextIndex_eq hbufsz h.ring.out_lt]
  exact hrest

theorem SerialRxFifo.Holds.rxLength (h : f.Holds bufsz q) : f.rxLength bufsz = q.length := by
  have hlength := h.length_lt
  have hout := h.ring.out_lt
  have hinto := h.ring.into_eq
  unfold SerialRxFifo.rxLength
  rcases Nat.lt_or_ge (f.getIndex + q.length) bufsz with hlt | hge
  · rw [Nat.mod_eq_of_lt hlt] at hinto
    rw [if_pos (by omega)]
    omega
  · rw [Nat.mod_eq_sub_mod hge, Nat.mod_eq_of_lt (by omega)] at hinto
    rw [if_neg (by omega)]
    omega

/-- In every run of a port with room for two bytes the bytes read are the newest `bufsz - 1` that were waiting, in the order of their arrival, the callback is told how many there are, and no index leaves the buffer. -/
theorem serial_keeps_newest (hbufsz : 1 < bufsz ∧ bufsz < 0x10000) {as : List SerialAction} {es : List SerialEvent}
    (hreach : Reaches (serialSystem bufsz) as es f) :
    ∃ q, Bytes (bufsz - 1) es q ∧ q.length ≤ bufsz - 1 ∧ f.putIndex < bufsz ∧ f.getIndex < bufsz := by
  have hholds : ∃ q, Bytes (bufsz - 1) es q ∧ f.Holds bufsz q := by
    refine hreach.invariant (fun _ es f => ∃ q, Bytes (bufsz - 1) es q ∧ f.Holds bufsz q) ?_ ?_
    · rintro f ⟨hput, hget, hfull⟩
      refine ⟨[], .nil, ?_, by rw [List.length_nil]; omega, by simp [hfull]⟩
      rw [hput, hget]
      exact RingBuffer.Holds.empty f.buffer (by omega)
    · rintro as es f a out f' ⟨q, hbytes, h⟩ - hstep
      cases a with
      | isrByte ch =>
        obtain ⟨rfl, rfl⟩ := Prod.mk.inj (Option.some.inj hstep)
        exact ⟨_, hbytes.snoc .arrived, h.isrByte hbufsz ch⟩
      | indicate =>
        obtain ⟨rfl, rfl⟩ := Prod.mk.inj (Option.some.inj hstep)
        rw [h.rxLength]
        exact ⟨q, hbytes.snoc .indicated, h⟩
      | intRx =>
        change serialStep bufsz f .intRx = some (f', out) at hstep
        cases q with
        | nil =>
          rw [serialStep, h.intRx_none] at hstep
          obtain ⟨rfl, rfl⟩ := Prod.mk.inj (Option.some.inj hstep)
          exact ⟨[], hbytes.snoc .noData, h⟩
        | cons ch q =>
          obtain ⟨f'', hread, h''⟩ := h.intRx_some hbufsz.2
          rw [serialStep, hread] at hstep
          obtain ⟨rfl, rfl⟩ := Prod.mk.inj (Option.some.inj hstep)
          exact ⟨q, hbytes.snoc .read, h''⟩
  obtain ⟨q, hbytes, h⟩ := hholds
  have hlength := h.length_lt
  exact ⟨q, hbytes, by omega, h.ring.into_lt, h.ring.out_lt⟩

instance serialSystem.decidableEnabled (bufsz : Nat) (f : SerialRxFifo) (a : SerialAction) :
    Decidable ((serialSystem bufsz).enabled f a) :=
  inferInstanceAs (Decidable True)

/-- Three bytes reach a buffer of three before the thread reads: the oldest is given up. -/
theorem serial_keeps_newest_overrun :
    ∃ f, Reaches (serialSystem 3) [.isrByte 1, .isrByte 2, .isrByte 3, .indicate, .intRx]
        [.arrived 1, .arrived 2, .arrived 3, .indicated 2, .read 2] f ∧
      ∃ q, Bytes 2 [.arrived 1, .arrived 2, .arrived 3, .indicated 2, .read 2] q ∧ q.length ≤ 2 := by
  have hreach : Reaches (serialSystem 3) [.isrByte 1, .isrByte 2, .isrByte 3, .indicate, .intRx]
      [.arrived 1, .arrived 2, .arrived 3, .indicated 2, .read 2] _ :=
    ⟨{ buffer := fun _ => 0, putIndex := 0, getIndex := 0, isFull := false }, ⟨rfl, rfl, rfl⟩, System.exec_run rfl⟩
  obtain ⟨q, hbytes, hlength, -⟩ := serial_keeps_newest (by decide) hreach
  exact ⟨_, hreach, q, hbytes, hlength⟩

end LightControlMonitor.Kernel
