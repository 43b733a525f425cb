import LightControlMonitor.Kernel.RtList
import LightControlMonitor.Lib.Transition
import Mathlib.Data.List.Perm.Basic

/-!
# The receive box of a CAN port

The message box that `rt_can_open` allocates, the receive part of `rt_hw_can_isr` and `_can_int_rx` of `can.c`. The slots of the box are the nodes of two lists, free and used. Interrupts are disabled while a slot is taken from a list or put into one, but not in between, so the interrupt and the reader each hold a slot for a moment that is in neither list.

`RT_CAN_USING_HDR` adds a list for each filter bank; the only filter the application sets names no bank, so no such list is connected, every `hdrlist` is a ring of its own and the readers ask with `hdr_index` -1. The frames of the port have the bank that the controller gives, and the assertion of `rt_hw_can_isr` that it is one of the port's is not modelled.

`boxSystem` is what the box is for: a queue of frames, where a frame that finds every slot occupied takes the slot of the oldest waiting one. The box does the same in every run, action by action.
-/

namespace LightControlMonitor.Kernel

open Transition (System Reaches)

variable {μ : Type*}

/-- The list nodes: the two headers in `struct rt_can_rx_fifo` and the slots of its buffer. -/
inductive CanNode
  | freelist
  | uselist
  | buffer (i : Nat)
  deriving DecidableEq

/-- The receive interrupt: before it, with its frame and the slot it has found for it, and behind putting the slot into the list. -/
inductive Isr (σ μ : Type*)
  | idle
  | holding (slot : Option σ) (msg : μ)
  | indicate
  deriving DecidableEq

/-- `struct rt_can_rx_fifo` with the slots held by the interrupt and by the reader. -/
structure CanRx (μ : Type*) where
  heap : RtHeap CanNode
  data : CanNode → μ
  freenumbers : Nat
  isr : Isr CanNode μ
  reading : Option CanNode

/-- The lists as `rt_can_open` builds them in whatever memory it is given. -/
def rtCanOpen (heap : RtHeap CanNode) (msgboxsz : Nat) : RtHeap CanNode :=
  (List.range msgboxsz).foldl (fun h i => rtListInsertBefore h .freelist (.buffer i))
    (rtListInit (rtListInit heap .freelist) .uselist)

/-- A frame is received and finds a slot; the slot is put into the list; the callback is invoked; a slot is taken for reading; its frame is copied and the slot given back. -/
inductive CanRxAction (μ : Type*)
  | isrTake (msg : μ)
  | isrPut
  | isrIndicate
  | readTake
  | readPut

/-- A frame received, a frame overwritten, a frame no slot was found for, a call of `rx_indicate`, a frame read, and a read that found none. -/
inductive CanRxEvent (μ : Type*)
  | arrived (msg : μ)
  | dropped (msg : μ)
  | lost (msg : μ)
  | indicated (count : Nat)
  | read (msg : μ)
  | noData

def CanRx.Enabled (s : CanRx μ) : CanRxAction μ → Prop
  | .isrTake _ => s.isr = .idle
  | .isrPut => s.isr ≠ .idle ∧ s.isr ≠ .indicate
  | .isrIndicate => s.isr = .indicate
  | .readTake => s.reading = none
  | .readPut => s.reading ≠ none

/-- `rt_hw_can_isr` up to the end of its first critical section; `none` is its failed assertion. -/
def CanRx.isrTake (s : CanRx μ) (msg : μ) : Option (CanRx μ × List (CanRxEvent μ)) :=
  if rtListIsempty s.heap .freelist = false then
    let listmsg := s.heap.next .freelist
    if 0 < s.freenumbers then
      some ({ s with
          heap := rtListRemove s.heap listmsg, freenumbers := s.freenumbers - 1, isr := .holding (some listmsg) msg },
        [.arrived msg])
    else none
  else if rtListIsempty s.heap .uselist = false then
    let listmsg := s.heap.next .uselist
    some ({ s with heap := rtListRemove s.heap listmsg, isr := .holding (some listmsg) msg },
      [.arrived msg, .dropped (s.data listmsg)])
  else some ({ s with isr := .holding none msg }, [.arrived msg, .lost msg])

def CanRx.isrPut (s : CanRx μ) : CanRx μ :=
  match s.isr with
  | .holding (some listmsg) msg =>
    { s with
      data := Function.update s.data listmsg msg
      heap := rtListInsertBefore s.heap .uselist listmsg
      isr := .indicate }
  | _ => { s with isr := .indicate }

/-- `rt_list_len` with fuel for every node. -/
def CanRx.isrIndicate (s : CanRx μ) (msgboxsz : Nat) : Option (CanRx μ × List (CanRxEvent μ)) :=
  (rtListLen s.heap .uselist (msgboxsz + 1) .uselist).map fun len =>
    ({ s with isr := .idle }, if 0 < len then [.indicated len] else [])

def CanRx.readTake (s : CanRx μ) : CanRx μ × List (CanRxEvent μ) :=
  if rtListIsempty s.heap .uselist = false then
    let listmsg := s.heap.next .uselist
    ({ s with heap := rtListRemove s.heap listmsg, reading := some listmsg }, [])
  else (s, [.noData])

/-- `_can_int_rx` behind its first critical section; `none` is its failed assertion. -/
def CanRx.readPut (s : CanRx μ) (msgboxsz : Nat) : Option (CanRx μ × List (CanRxEvent μ)) :=
  s.reading.bind fun listmsg =>
    if s.freenumbers + 1 ≤ msgboxsz then
      some ({ s with
          heap := rtListInsertBefore s.heap .freelist listmsg, freenumbers := s.freenumbers + 1, reading := none },
        [.read (s.data listmsg)])
    else none

def canRxStep (msgboxsz : Nat) (s : CanRx μ) : CanRxAction μ → Option (CanRx μ × List (CanRxEvent μ))
  | .isrTake msg => s.isrTake msg
  | .isrPut => some (s.isrPut, [])
  | .isrIndicate => s.isrIndicate msgboxsz
  | .readTake => some s.readTake
  | .readPut => s.readPut msgboxsz

def canRxSystem (μ : Type*) (msgboxsz : Nat) : System (CanRx μ) (CanRxAction μ) (CanRxEvent μ) where
  init s := (∃ heap, s.heap = rtCanOpen heap msgboxsz) ∧ s.freenumbers = msgboxsz ∧ s.isr = .idle ∧ s.reading = none
  enabled := CanRx.Enabled
  step := canRxStep msgboxsz

/-! ### What the box is for -/

structure Box (μ : Type*) where
  waiting : List μ
  isr : Isr Unit μ
  reading : Option μ

def Box.Enabled (b : Box μ) : CanRxAction μ → Prop
  | .isrTake _ => b.isr = .idle
  | .isrPut => b.isr ≠ .idle ∧ b.isr ≠ .indicate
  | .isrIndicate => b.isr = .indicate
  | .readTake => b.reading = none
  | .readPut => b.reading ≠ none

/-- A frame overwrites the oldest waiting one when the waiting frames and the one being read occupy all slots. -/
def Box.isrTake (b : Box μ) (msgboxsz : Nat) (msg : μ) : Box μ × List (CanRxEvent μ) :=
  if b.waiting.length + b.reading.toList.length < msgboxsz then
    ({ b with isr := .holding (some ()) msg }, [.arrived msg])
  else
    match b.waiting with
    | oldest :: rest => ({ b with waiting := rest, isr := .holding (some ()) msg }, [.arrived msg, .dropped oldest])
    | [] => ({ b with isr := .holding none msg }, [.arrived msg, .lost msg])

def Box.isrPut (b : Box μ) : Box μ :=
  match b.isr with
  | .holding (some ()) msg => { b with waiting := b.waiting ++ [msg], isr := .indicate }
  | _ => { b with isr := .indicate }

def boxStep (msgboxsz : Nat) (b : Box μ) : CanRxAction μ → Option (Box μ × List (CanRxEvent μ))
  | .isrTake msg => some (b.isrTake msgboxsz msg)
  | .isrPut => some (b.isrPut, [])
  | .isrIndicate =>
    some ({ b with isr := .idle }, if 0 < b.waiting.length then [.indicated b.waiting.length] else [])
  | .readTake =>
    match b.waiting with
    | oldest :: rest => some ({ b with waiting := rest, reading := some oldest }, [])
    | [] => some (b, [.noData])
  | .readPut => b.reading.map fun msg => ({ b with reading := none }, [.read msg])

def boxSystem (μ : Type*) (msgboxsz : Nat) : System (Box μ) (CanRxAction μ) (CanRxEvent μ) where
  init b := b = ⟨[], .idle, none⟩
  enabled := Box.Enabled
  step := boxStep msgboxsz

/-! ### The slots -/

def Isr.slot {σ : Type*} : Isr σ μ → Option σ
  | .holding slot _ => slot
  | _ => none

theorem Isr.eq_holding {σ : Type*} {isr : Isr σ μ} (h : isr ≠ .idle ∧ isr ≠ .indicate) :
    ∃ slot msg, isr = .holding slot msg := by
  cases isr with
  | idle => exact absurd rfl h.1
  | holding slot msg => exact ⟨slot, msg, rfl⟩
  | indicate => exact absurd rfl h.2

def Isr.forget {σ : Type*} : Isr σ μ → Isr Unit μ
  | .idle => .idle
  | .holding slot msg => .holding (slot.map fun _ => ()) msg
  | .indicate => .indicate

/-- The slots in neither list. -/
def CanRx.held (s : CanRx μ) : List CanNode := s.isr.slot.toList ++ s.reading.toList

/-- The lists are `free` and `used`, every slot is in one of them or held, and the used ones hold the waiting frames. -/
structure CanRx.Holds (s : CanRx μ) (msgboxsz : Nat) (b : Box μ) (free used : List CanNode) : Prop where
  freeRing : s.heap.Ring .freelist free
  useRing : s.heap.Ring .uselist used
  slots : (free ++ used ++ s.held).Perm ((List.range msgboxsz).map CanNode.buffer)
  freenumbers_eq : s.freenumbers = free.length
  waiting_eq : used.map s.data = b.waiting
  isr_eq : s.isr.forget = b.isr
  reading_eq : s.reading.map s.data = b.reading

section Holds

variable {s : CanRx μ} {msgboxsz : Nat} {b : Box μ} {free used : List CanNode} {n : CanNode}

theorem CanRx.Holds.nodup (h : s.Holds msgboxsz b free used) : (free ++ used ++ s.held).Nodup :=
  h.slots.nodup_iff.mpr (List.nodup_range.map fun _ _ heq => CanNode.buffer.inj heq)

theorem CanRx.Holds.buffer_of_mem (h : s.Holds msgboxsz b free used) (hn : n ∈ free ++ used ++ s.held) :
    n ≠ .freelist ∧ n ≠ .uselist := by
  obtain ⟨i, -, rfl⟩ := List.mem_map.mp (h.slots.mem_iff.mp hn)
  exact ⟨CanNode.noConfusion, CanNode.noConfusion⟩

theorem CanRx.Holds.length_eq (h : s.Holds msgboxsz b free used) :
    free.length + used.length + (s.isr.slot.toList.length + s.reading.toList.length) = msgboxsz := by
  have hlength := h.slots.length_eq
  rw [List.length_append, List.length_append, List.length_map, List.length_range, CanRx.held,
    List.length_append] at hlength
  exact hlength

theorem CanRx.Holds.disjoint (h : s.Holds msgboxsz b free used) :
    (CanNode.freelist :: free).Disjoint (CanNode.uselist :: used) := by
  have hnodup := (List.nodup_append'.mp h.nodup).1
  intro x hfree hused
  rcases List.mem_cons.mp hfree with rfl | hfree
  · rcases List.mem_cons.mp hused with heq | hused
    · exact CanNode.noConfusion heq
    · exact (h.buffer_of_mem (by simp [hused])).1 rfl
  · rcases List.mem_cons.mp hused with rfl | hused
    · exact (h.buffer_of_mem (by simp [hfree])).2 rfl
    · exact (List.nodup_append'.mp hnodup).2.2 hfree hused

theorem CanRx.Holds.waiting_length (h : s.Holds msgboxsz b free used) : b.waiting.length = used.length := by
  rw [← h.waiting_eq, List.length_map]

theorem CanRx.Holds.reading_length (h : s.Holds msgboxsz b free used) :
    b.reading.toList.length = s.reading.toList.length := by
  rw [← h.reading_eq]
  cases s.reading <;> rfl

/-- A held slot is in no list. -/
theorem CanRx.Holds.held_notMem (h : s.Holds msgboxsz b free used) (hn : n ∈ s.held) :
    n ∉ CanNode.freelist :: free ∧ n ∉ CanNode.uselist :: used := by
  have hheader := h.buffer_of_mem (List.mem_append_right _ hn)
  have hdisjoint := (List.nodup_append'.mp h.nodup).2.2
  rw [List.mem_cons, List.mem_cons, not_or, not_or]
  exact ⟨⟨hheader.1, fun hfree => hdisjoint (List.mem_append_left _ hfree) hn⟩, hheader.2,
    fun hused => hdisjoint (List.mem_append_right _ hused) hn⟩

end Holds

/-! ### Steps -/

section Steps

variable {s : CanRx μ} {msgboxsz : Nat} {b : Box μ} {free used : List CanNode}

/-- A step of the box as a step of the queue. -/
def Simulated (msgboxsz : Nat) (s : CanRx μ) (b : Box μ) (a : CanRxAction μ) : Prop :=
  ∃ s' b' out, canRxStep msgboxsz s a = some (s', out) ∧ boxStep msgboxsz b a = some (b', out) ∧
    ∃ free used, s'.Holds msgboxsz b' free used

theorem CanRx.Holds.isrTake (h : s.Holds msgboxsz b free used) (hidle : s.isr = .idle) (msg : μ) :
    Simulated msgboxsz s b (.isrTake msg) := by
  have hlength := h.length_eq
  have hwaiting := h.waiting_length
  have hreading := h.reading_length
  have hslots := h.slots
  rw [CanRx.held, hidle] at hslots
  rw [hidle] at hlength
  change free.length + used.length + (0 + s.reading.toList.length) = msgboxsz at hlength
  change (free ++ used ++ s.reading.toList).Perm _ at hslots
  cases free with
  | cons listmsg free =>
    obtain ⟨hsome, hnext⟩ := rtListIsempty_cons h.freeRing
    obtain ⟨hfree, huse⟩ := h.freeRing.takeFirst h.useRing fun _ hused hfree => h.disjoint hfree hused
    have hcount := h.freenumbers_eq
    rw [List.length_cons] at hlength hcount
    have hstep : canRxStep msgboxsz s (.isrTake msg) =
        some ({ s with
            heap := rtListRemove s.heap listmsg, freenumbers := s.freenumbers - 1, isr := .holding (some listmsg) msg },
          [.arrived msg]) := by
      rw [canRxStep, CanRx.isrTake, if_pos hsome, hnext]
      exact if_pos (by omega)
    have hbox : boxStep msgboxsz b (.isrTake msg) =
        some ({ b with isr := .holding (some ()) msg }, [.arrived msg]) := by
      rw [boxStep, Box.isrTake, if_pos (by omega)]
    refine ⟨_, _, _, hstep, hbox, free, used, hfree, huse, ?_, ?_, h.waiting_eq, rfl, h.reading_eq⟩
    · have hmoved : (free ++ used ++ listmsg :: s.reading.toList).Perm (listmsg :: (free ++ used ++ s.reading.toList)) :=
        List.perm_middle
      exact hmoved.trans hslots
    · dsimp only
      omega
  | nil =>
    have hempty : ¬ rtListIsempty s.heap .freelist = false := by simp [rtListIsempty_nil h.freeRing]
    rw [List.length_nil] at hlength
    have hfull : ¬ b.waiting.length + b.reading.toList.length < msgboxsz := by omega
    cases used with
    | cons listmsg used =>
      obtain ⟨hsome, hnext⟩ := rtListIsempty_cons h.useRing
      obtain ⟨huse, hfree⟩ := h.useRing.takeFirst h.freeRing h.disjoint
      have hwaits := h.waiting_eq
      rw [List.map_cons] at hwaits
      have hstep : canRxStep msgboxsz s (.isrTake msg) =
          some ({ s with heap := rtListRemove s.heap listmsg, isr := .holding (some listmsg) msg },
            [.arrived msg, .dropped (s.data listmsg)]) := by
        rw [canRxStep, CanRx.isrTake, if_neg hempty, if_pos hsome, hnext]
      have hbox : boxStep msgboxsz b (.isrTake msg) =
          some ({ b with waiting := used.map s.data, isr := .holding (some ()) msg },
            [.arrived msg, .dropped (s.data listmsg)]) := by
        rw [boxStep, Box.isrTake, if_neg hfull, ← hwaits]
      refine ⟨_, _, _, hstep, hbox, [], used, hfree, huse, ?_, h.freenumbers_eq, rfl, rfl, h.reading_eq⟩
      have hmoved : ([] ++ used ++ listmsg :: s.reading.toList).Perm (listmsg :: ([] ++ used ++ s.reading.toList)) :=
        List.perm_middle
      exact hmoved.trans hslots
    | nil =>
      have hwaits : b.waiting = [] := h.waiting_eq.symm
      have hnone : ¬ rtListIsempty s.heap .uselist = false := by simp [rtListIsempty_nil h.useRing]
      have hstep : canRxStep msgboxsz s (.isrTake msg) =
          some ({ s with isr := .holding none msg }, [.arrived msg, .lost msg]) := by
        rw [canRxStep, CanRx.isrTake, if_neg hempty, if_neg hnone]
      have hbox : boxStep msgboxsz b (.isrTake msg) =
          some ({ b with isr := .holding none msg }, [.arrived msg, .lost msg]) := by
        rw [boxStep, Box.isrTake, if_neg hfull, hwaits]
      exact ⟨_, _, _, hstep, hbox, [], [], h.freeRing, h.useRing, hslots, h.freenumbers_eq, hwaits.symm, rfl,
        h.reading_eq⟩

theorem CanRx.Holds.isrPut (h : s.Holds msgboxsz b free used) (hholding : s.isr ≠ .idle ∧ s.isr ≠ .indicate) :
    Simulated msgboxsz s b .isrPut := by
  obtain ⟨slot, msg, hisr⟩ := Isr.eq_holding hholding
  have hbisr := h.isr_eq
  have hslots := h.slots
  rw [hisr] at hbisr
  rw [CanRx.held, hisr] at hslots
  cases slot with
  | none =>
    refine ⟨_, _, [], by rw [canRxStep, CanRx.isrPut, hisr], by rw [boxStep, Box.isrPut, ← hbisr, Isr.forget, Option.map_none], free,
      used, ?_⟩
    exact ⟨h.freeRing, h.useRing, hslots, h.freenumbers_eq, h.waiting_eq, rfl, h.reading_eq⟩
  | some listmsg =>
    have hheld : listmsg ∈ s.held := by simp [CanRx.held, hisr, Isr.slot]
    obtain ⟨hnotFree, hnotUsed⟩ := h.held_notMem hheld
    have hstep : canRxStep msgboxsz s .isrPut =
        some ({ s with
            data := Function.update s.data listmsg msg, heap := rtListInsertBefore s.heap .uselist listmsg
            isr := .indicate }, []) := by
      rw [canRxStep, CanRx.isrPut, hisr]
    have hbox : boxStep msgboxsz b .isrPut = some ({ b with waiting := b.waiting ++ [msg], isr := .indicate }, []) := by
      rw [boxStep, Box.isrPut, ← hbisr]
      rfl
    refine ⟨_, _, _, hstep, hbox, free, used ++ [listmsg], ?_, h.useRing.insertBefore hnotUsed, ?_, h.freenumbers_eq,
      ?_, rfl, ?_⟩
    · exact h.freeRing.insertBefore_frame h.useRing h.disjoint hnotFree
    · refine List.Perm.trans (List.Perm.of_eq ?_) hslots
      simp [CanRx.held, Isr.slot]
    · have hkept : used.map (Function.update s.data listmsg msg) = used.map s.data :=
        List.map_congr_left fun x hx =>
          Function.update_of_ne (fun heq : x = listmsg => hnotUsed (heq ▸ List.mem_cons_of_mem _ hx)) msg s.data
      rw [List.map_append, List.map_singleton, ← h.waiting_eq, ← hkept]
      exact congrArg _ (congrArg (fun x => [x]) (Function.update_self listmsg msg s.data))
    · rw [← h.reading_eq]
      cases hreading : s.reading with
      | none => rfl
      | some other =>
        have hne : other ≠ listmsg := by
          have hnodup := (List.nodup_append'.mp h.nodup).2.1
          rintro rfl
          simp [CanRx.held, hisr, hreading, Isr.slot] at hnodup
        exact congrArg some (Function.update_of_ne hne msg s.data)

theorem CanRx.Holds.isrIndicate (h : s.Holds msgboxsz b free used) (hindicate : s.isr = .indicate) :
    Simulated msgboxsz s b .isrIndicate := by
  have hlength := h.length_eq
  have hslots := h.slots
  rw [CanRx.held, hindicate] at hslots
  have hlen : rtListLen s.heap .uselist (msgboxsz + 1) .uselist = some b.waiting.length := by
    rw [h.waiting_length]
    exact rtListLen_eq h.useRing (by omega)
  have hstep : canRxStep msgboxsz s .isrIndicate =
      some ({ s with isr := .idle }, if 0 < b.waiting.length then [.indicated b.waiting.length] else []) := by
    rw [canRxStep, CanRx.isrIndicate, hlen, Option.map_some]
  exact ⟨_, _, _, hstep, rfl, free, used, h.freeRing, h.useRing, hslots, h.freenumbers_eq, h.waiting_eq, rfl,
    h.reading_eq⟩

theorem CanRx.Holds.readTake (h : s.Holds msgboxsz b free used) (hnone : s.reading = none) :
    Simulated msgboxsz s b .readTake := by
  have hslots := h.slots
  rw [CanRx.held, hnone] at hslots
  cases used with
  | cons listmsg used =>
    obtain ⟨hsome, hnext⟩ := rtListIsempty_cons h.useRing
    obtain ⟨huse, hfree⟩ := h.useRing.takeFirst h.freeRing h.disjoint
    have hwaits := h.waiting_eq
    rw [List.map_cons] at hwaits
    have hstep : canRxStep msgboxsz s .readTake =
        some ({ s with heap := rtListRemove s.heap listmsg, reading := some listmsg }, []) := by
      rw [canRxStep, CanRx.readTake, if_pos hsome, hnext]
    have hbox : boxStep msgboxsz b .readTake =
        some ({ b with waiting := used.map s.data, reading := some (s.data listmsg) }, []) := by
      rw [boxStep, ← hwaits]
    refine ⟨_, _, _, hstep, hbox, free, used, hfree, huse, ?_, h.freenumbers_eq, rfl, h.isr_eq, rfl⟩
    refine List.Perm.trans ?_ hslots
    rw [CanRx.held, List.append_assoc, List.append_assoc]
    refine List.Perm.append_left free ?_
    rw [Option.toList_none, List.append_nil, ← List.append_assoc]
    exact List.perm_append_singleton listmsg (used ++ s.isr.slot.toList)
  | nil =>
    have hwaits : b.waiting = [] := h.waiting_eq.symm
    have hempty : ¬ rtListIsempty s.heap .uselist = false := by simp [rtListIsempty_nil h.useRing]
    exact ⟨s, b, [.noData], by rw [canRxStep, CanRx.readTake, if_neg hempty], by rw [boxStep, hwaits], free, [], h⟩

theorem CanRx.Holds.readPut (h : s.Holds msgboxsz b free used) (hsome : s.reading ≠ none) :
    Simulated msgboxsz s b .readPut := by
  obtain ⟨listmsg, hreading⟩ := Option.ne_none_iff_exists'.mp hsome
  have hheld : listmsg ∈ s.held := by simp [CanRx.held, hreading]
  obtain ⟨hnotFree, hnotUsed⟩ := h.held_notMem hheld
  have hlength := h.length_eq
  have hcount := h.freenumbers_eq
  have hbreading := h.reading_eq
  have hslots := h.slots
  rw [hreading] at hlength hbreading
  rw [CanRx.held, hreading] at hslots
  change free.length + used.length + (s.isr.slot.toList.length + 1) = msgboxsz at hlength
  have hstep : canRxStep msgboxsz s .readPut =
      some ({ s with
          heap := rtListInsertBefore s.heap .freelist listmsg, freenumbers := s.freenumbers + 1, reading := none },
        [.read (s.data listmsg)]) := by
    rw [canRxStep, CanRx.readPut, hreading, Option.bind_some, if_pos (by omega)]
  have hbox : boxStep msgboxsz b .readPut = some ({ b with reading := none }, [.read (s.data listmsg)]) := by
    rw [boxStep, ← hbreading, Option.map_some, Option.map_some]
  refine ⟨_, _, _, hstep, hbox, free ++ [listmsg], used, h.freeRing.insertBefore hnotFree, ?_, ?_, ?_, h.waiting_eq,
    h.isr_eq, rfl⟩
  · exact h.useRing.insertBefore_frame h.freeRing (fun _ hused hfree => h.disjoint hfree hused) hnotUsed
  · refine List.Perm.trans ?_ hslots
    rw [CanRx.held, Option.toList_none, List.append_nil, Option.toList_some, List.append_assoc, List.append_assoc,
      List.append_assoc]
    refine List.Perm.append_left free ?_
    rw [← List.append_assoc used]
    exact (List.perm_append_singleton listmsg (used ++ s.isr.slot.toList)).symm
  · rw [List.length_append, List.length_singleton, ← hcount]

end Steps

theorem CanRx.Holds.step {s : CanRx μ} {msgboxsz : Nat} {b : Box μ} {free used : List CanNode}
    (h : s.Holds msgboxsz b free used) {a : CanRxAction μ} (henabled : s.Enabled a) : Simulated msgboxsz s b a := by
  cases a with
  | isrTake msg => exact h.isrTake henabled msg
  | isrPut => exact h.isrPut henabled
  | isrIndicate => exact h.isrIndicate henabled
  | readTake => exact h.readTake henabled
  | readPut => exact h.readPut henabled

theorem CanRx.Holds.enabled {s : CanRx μ} {msgboxsz : Nat} {b : Box μ} {free used : List CanNode}
    (h : s.Holds msgboxsz b free used) {a : CanRxAction μ} (henabled : s.Enabled a) : b.Enabled a := by
  have hisr := h.isr_eq
  have hreading := h.reading_eq
  cases a with
  | isrTake msg =>
    rw [show s.isr = .idle from henabled] at hisr
    exact hisr.symm
  | isrPut =>
    obtain ⟨slot, msg, hholding⟩ := Isr.eq_holding henabled
    rw [hholding] at hisr
    change b.isr ≠ .idle ∧ b.isr ≠ .indicate
    rw [← hisr]
    exact ⟨(nomatch ·), (nomatch ·)⟩
  | isrIndicate =>
    rw [show s.isr = .indicate from henabled] at hisr
    exact hisr.symm
  | readTake =>
    rw [show s.reading = none from henabled] at hreading
    exact hreading.symm
  | readPut =>
    obtain ⟨listmsg, hsome⟩ := Option.ne_none_iff_exists'.mp henabled
    rw [hsome] at hreading
    change b.reading ≠ none
    rw [← hreading]
    exact Option.some_ne_none _

/-! ### The lists after opening -/

theorem rtCanOpen_rings (heap : RtHeap CanNode) (n : Nat) :
    (rtCanOpen heap n).Ring .freelist ((List.range n).map CanNode.buffer) ∧ (rtCanOpen heap n).Ring .uselist [] := by
  induction n with
  | zero =>
    have hfree := rtListInit_ring heap CanNode.freelist
    refine ⟨hfree.congr (fun x hx => ?_) fun x hx => ?_, rtListInit_ring _ _⟩
    · obtain rfl := List.mem_singleton.mp hx
      simp [rtCanOpen, rtListInit, RtHeap.setNext, RtHeap.setPrev]
    · obtain rfl := List.mem_singleton.mp hx
      simp [rtCanOpen, rtListInit, RtHeap.setNext, RtHeap.setPrev]
  | succ n ih =>
    have hopen : rtCanOpen heap (n + 1) = rtListInsertBefore (rtCanOpen heap n) .freelist (.buffer n) := by
      rw [rtCanOpen, List.range_succ, List.foldl_append]
      rfl
    rw [hopen, List.range_succ, List.map_append, List.map_singleton]
    exact ⟨ih.1.insertBefore (by simp), ih.2.insertBefore_frame ih.1 (by simp) (by simp)⟩

theorem holds_of_reaches {msgboxsz : Nat} {as : List (CanRxAction μ)} {es : List (CanRxEvent μ)} {s : CanRx μ}
    (hreach : Reaches (canRxSystem μ msgboxsz) as es s) :
    ∃ b, Reaches (boxSystem μ msgboxsz) as es b ∧ ∃ free used, s.Holds msgboxsz b free used := by
  refine hreach.invariant
    (fun as es s => ∃ b, Reaches (boxSystem μ msgboxsz) as es b ∧ ∃ free used, s.Holds msgboxsz b free used) ?_ ?_
  · rintro s ⟨⟨heap, hheap⟩, hcount, hisr, hreading⟩
    obtain ⟨hfree, huse⟩ := rtCanOpen_rings heap msgboxsz
    refine ⟨_, ⟨_, rfl, .nil⟩, (List.range msgboxsz).map CanNode.buffer, [], hheap ▸ hfree, hheap ▸ huse, ?_, ?_, rfl, ?_,
      ?_⟩
    · rw [CanRx.held, hisr, hreading]
      exact List.Perm.of_eq (by simp [Isr.slot])
    · rw [hcount, List.length_map, List.length_range]
    · rw [hisr]
      rfl
    · rw [hreading]
      rfl
  · rintro as es s a out s' ⟨b, hbox, free, used, h⟩ henabled hstep
    obtain ⟨s'', b', out', hs, hb, hholds⟩ := h.step henabled
    obtain ⟨rfl, rfl⟩ := Prod.mk.inj (Option.some.inj (hs.symm.trans hstep))
    obtain ⟨b₀, hinit, hrun⟩ := hbox
    exact ⟨b', ⟨b₀, hinit, hrun.snoc (h.enabled henabled) hb⟩, hholds⟩

/-- Every run of the box is a run of the queue with the same actions and the same events, and no assertion fails on the way. -/
theorem can_fifo_refines_box {msgboxsz : Nat} {as : List (CanRxAction μ)} {es : List (CanRxEvent μ)} {s : CanRx μ}
    (hreach : Reaches (canRxSystem μ msgboxsz) as es s) :
    (∃ b, Reaches (boxSystem μ msgboxsz) as es b) ∧
      ∀ a, (canRxSystem μ msgboxsz).enabled s a → ((canRxSystem μ msgboxsz).step s a).isSome := by
  obtain ⟨b, hbox, free, used, h⟩ := holds_of_reaches hreach
  refine ⟨⟨b, hbox⟩, fun a henabled => ?_⟩
  obtain ⟨s', b', out, hs, -⟩ := h.step henabled
  exact Option.isSome_iff_exists.mpr ⟨_, hs⟩

instance canRxSystem.decidableEnabled [DecidableEq μ] (msgboxsz : Nat) (s : CanRx μ) :
    (a : CanRxAction μ) → Decidable ((canRxSystem μ msgboxsz).enabled s a)
  | .isrTake _ => inferInstanceAs (Decidable (s.isr = .idle))
  | .isrPut => inferInstanceAs (Decidable (s.isr ≠ .idle ∧ s.isr ≠ .indicate))
  | .isrIndicate => inferInstanceAs (Decidable (s.isr = .indicate))
  | .readTake => inferInstanceAs (Decidable (s.reading = none))
  | .readPut => inferInstanceAs (Decidable (s.reading ≠ none))

/-- A frame arrives in a box of two slots while the reader holds one of them and the other is waiting. -/
theorem can_fifo_refines_box_overwritten :
    ∃ (s : CanRx Nat) (b : Box Nat), Reaches (canRxSystem Nat 2)
        [.isrTake 7, .isrPut, .isrIndicate, .readTake, .isrTake 8, .isrPut, .isrIndicate, .isrTake 9, .readPut, .isrPut]
        [.arrived 7, .indicated 1, .arrived 8, .indicated 1, .arrived 9, .dropped 8, .read 7] s ∧
      Reaches (boxSystem Nat 2)
        [.isrTake 7, .isrPut, .isrIndicate, .readTake, .isrTake 8, .isrPut, .isrIndicate, .isrTake 9, .readPut, .isrPut]
        [.arrived 7, .indicated 1, .arrived 8, .indicated 1, .arrived 9, .dropped 8, .read 7] b := by
  have hreach : Reaches (canRxSystem Nat 2)
      [.isrTake 7, .isrPut, .isrIndicate, .readTake, .isrTake 8, .isrPut, .isrIndicate, .isrTake 9, .readPut, .isrPut]
      [.arrived 7, .indicated 1, .arrived 8, .indicated 1, .arrived 9, .dropped 8, .read 7] _ :=
    ⟨⟨rtCanOpen ⟨id, id⟩ 2, fun _ => 0, 2, .idle, none⟩, ⟨⟨_, rfl⟩, rfl, rfl, rfl⟩, System.exec_run rfl⟩
  obtain ⟨⟨b, hbox⟩, -⟩ := can_fifo_refines_box hreach
  exact ⟨_, b, hreach, hbox⟩

/-! ### The frames of the queue -/

def arrivedOf (es : List (CanRxEvent μ)) : List μ :=
  es.filterMap fun e =>
    match e with
    | .arrived msg => some msg
    | _ => none

def readOf (es : List (CanRxEvent μ)) : List μ :=
  es.filterMap fun e =>
    match e with
    | .read msg => some msg
    | _ => none

/-- The frames overwritten in the box, and the frames for which there was no slot at all. -/
def droppedOf (es : List (CanRxEvent μ)) : List μ :=
  es.filterMap fun e =>
    match e with
    | .dropped msg => some msg
    | .lost msg => some msg
    | _ => none

/-- The frame an interrupt is about to put into the box. -/
def Isr.coming : Isr Unit μ → Option μ
  | .holding (some ()) msg => some msg
  | _ => none

/-- The frames in the box, the oldest first. -/
def Box.frames (b : Box μ) : List μ := b.reading.toList ++ b.waiting ++ b.isr.coming.toList

/-- The frames read and the frames in the box are frames that arrived, in their order, and every other frame that arrived was dropped. -/
structure Box.Inv (b : Box μ) (msgboxsz : Nat) (es : List (CanRxEvent μ)) : Prop where
  sublist : (readOf es ++ b.frames).Sublist (arrivedOf es)
  count : (arrivedOf es).length = (readOf es).length + b.frames.length + (droppedOf es).length
  length_le : b.frames.length ≤ msgboxsz
  not_lost : 1 < msgboxsz → ∀ msg, CanRxEvent.lost msg ∉ es

section Queue

variable {b b' : Box μ} {msgboxsz : Nat} {es out : List (CanRxEvent μ)}

theorem arrivedOf_append (es fs : List (CanRxEvent μ)) : arrivedOf (es ++ fs) = arrivedOf es ++ arrivedOf fs :=
  List.filterMap_append

theorem readOf_append (es fs : List (CanRxEvent μ)) : readOf (es ++ fs) = readOf es ++ readOf fs :=
  List.filterMap_append

theorem droppedOf_append (es fs : List (CanRxEvent μ)) : droppedOf (es ++ fs) = droppedOf es ++ droppedOf fs :=
  List.filterMap_append

/-- A step that only moves frames, of which `read` leave the box. -/
theorem Box.Inv.move (h : b.Inv msgboxsz es) (harrived : arrivedOf out = []) (hdropped : droppedOf out = [])
    (hframes : readOf out ++ b'.frames = b.frames) : b'.Inv msgboxsz (es ++ out) where
  sublist := by
    rw [readOf_append, arrivedOf_append, harrived, List.append_nil, List.append_assoc, hframes]
    exact h.sublist
  count := by
    have hlength := congrArg List.length hframes
    rw [List.length_append] at hlength
    rw [arrivedOf_append, readOf_append, droppedOf_append, harrived, hdropped, List.append_nil, List.append_nil,
      List.length_append, h.count]
    omega
  length_le := by
    have hlength := congrArg List.length hframes
    rw [List.length_append] at hlength
    exact Nat.le_trans (Nat.le_of_add_left_le (Nat.le_of_eq hlength)) h.length_le
  not_lost hmany msg hmem := by
    rcases List.mem_append.mp hmem with hold | hnew
    · exact h.not_lost hmany msg hold
    · have hmsg : msg ∈ droppedOf out := List.mem_filterMap.mpr ⟨_, hnew, rfl⟩
      rw [hdropped] at hmsg
      exact List.not_mem_nil hmsg

/-- An interrupt that finds a slot keeps the frames in `kept`, a part of those in the box, and adds its own. -/
theorem Box.Inv.arrive (h : b.Inv msgboxsz es) {msg : μ} (kept dropped : List μ) (hkept : kept.Sublist b.frames)
    (hcount : kept.length + dropped.length = b.frames.length) (hroom : kept.length < msgboxsz)
    (hframes : b'.frames = kept ++ [msg]) :
    b'.Inv msgboxsz (es ++ .arrived msg :: dropped.map CanRxEvent.dropped) := by
  have harrived : arrivedOf (.arrived msg :: dropped.map CanRxEvent.dropped) = [msg] := by
    refine congrArg (msg :: ·) (List.filterMap_eq_nil_iff.mpr fun e he => ?_)
    obtain ⟨m, -, rfl⟩ := List.mem_map.mp he
    rfl
  have hread : readOf (.arrived msg :: dropped.map CanRxEvent.dropped) = [] := by
    refine List.filterMap_eq_nil_iff.mpr fun e he => ?_
    rcases List.mem_cons.mp he with rfl | he
    · rfl
    · obtain ⟨m, -, rfl⟩ := List.mem_map.mp he
      rfl
  have hdropped : droppedOf (.arrived msg :: dropped.map CanRxEvent.dropped) = dropped := by
    rw [droppedOf, List.filterMap_cons_none rfl, List.filterMap_map]
    exact List.filterMap_some
  refine ⟨?_, ?_, ?_, fun hmany lost hmem => ?_⟩
  · rw [readOf_append, arrivedOf_append, harrived, hread, List.append_nil, hframes, ← List.append_assoc]
    exact (((List.Sublist.refl _).append hkept).trans h.sublist).append (List.Sublist.refl _)
  · rw [arrivedOf_append, readOf_append, droppedOf_append, harrived, hread, hdropped, hframes, List.length_append,
      h.count, List.append_nil, List.length_append, List.length_append]
    omega
  · rw [hframes, List.length_append, List.length_singleton]
    exact hroom
  · rcases List.mem_append.mp hmem with hold | hnew
    · exact h.not_lost hmany lost hold
    · simp at hnew

/-- With a single slot, an interrupt that finds it at the reader loses its frame. -/
theorem Box.Inv.lose (h : b.Inv msgboxsz es) {msg : μ} (hsmall : msgboxsz ≤ 1) (hframes : b'.frames = b.frames) :
    b'.Inv msgboxsz (es ++ [.arrived msg, .lost msg]) where
  sublist := by
    have hread : readOf (es ++ [.arrived msg, .lost msg]) = readOf es := (readOf_append es _).trans (List.append_nil _)
    rw [hread, arrivedOf_append, hframes]
    exact h.sublist.trans (List.sublist_append_left _ _)
  count := by
    rw [arrivedOf_append, readOf_append, droppedOf_append, hframes, List.length_append, h.count, List.length_append,
      List.length_append]
    rfl
  length_le := hframes ▸ h.length_le
  not_lost hmany := absurd hmany (Nat.not_lt.mpr hsmall)

theorem Box.Inv.isrTake (h : b.Inv msgboxsz es) (hidle : b.isr = .idle) (msg : μ) :
    (b.isrTake msgboxsz msg).1.Inv msgboxsz (es ++ (b.isrTake msgboxsz msg).2) := by
  have hframes : b.frames = b.reading.toList ++ b.waiting := by
    rw [Box.frames, hidle]
    exact List.append_nil _
  unfold Box.isrTake
  split_ifs with hroom
  · refine h.arrive b.frames [] (List.Sublist.refl _) rfl ?_ ?_
    · rw [hframes, List.length_append]
      omega
    · rw [hframes]
      rfl
  · have hle := h.length_le
    rw [hframes, List.length_append] at hle
    cases hwaiting : b.waiting with
    | cons oldest rest =>
      rw [hwaiting, List.length_cons] at hle
      refine h.arrive (b.reading.toList ++ rest) [oldest] ?_ ?_ ?_ rfl
      · rw [hframes, hwaiting]
        exact (List.Sublist.refl _).append (List.sublist_cons_self oldest rest)
      · rw [hframes, hwaiting, List.length_append, List.length_append]
        rfl
      · rw [List.length_append]
        omega
    | nil =>
      have hone : b.reading.toList.length ≤ 1 := by cases b.reading <;> simp
      rw [hwaiting, List.length_nil] at hroom
      refine h.lose (by omega) ?_
      rw [hframes, Box.frames, hwaiting]
      exact List.append_nil _

theorem Box.Inv.step (h : b.Inv msgboxsz es) {a : CanRxAction μ} (henabled : b.Enabled a)
    (hstep : boxStep msgboxsz b a = some (b', out)) : b'.Inv msgboxsz (es ++ out) := by
  cases a with
  | isrTake msg =>
    have hstep : b.isrTake msgboxsz msg = (b', out) := Option.some.inj hstep
    have hinv := h.isrTake henabled msg
    rwa [hstep] at hinv
  | isrPut =>
    obtain ⟨rfl, rfl⟩ := Prod.mk.inj (Option.some.inj hstep)
    obtain ⟨slot, msg, hholding⟩ := Isr.eq_holding henabled
    refine h.move rfl rfl ?_
    rw [Box.isrPut, Box.frames, Box.frames, hholding]
    cases slot with
    | none => rfl
    | some slot =>
      change b.reading.toList ++ (b.waiting ++ [msg]) ++ [] = b.reading.toList ++ b.waiting ++ [msg]
      rw [List.append_nil, List.append_assoc]
  | isrIndicate =>
    obtain ⟨rfl, rfl⟩ := Prod.mk.inj (Option.some.inj hstep)
    have hisr : b.isr = .indicate := henabled
    refine h.move ?_ ?_ ?_
    · split_ifs <;> rfl
    · split_ifs <;> rfl
    · rw [Box.frames, Box.frames, hisr]
      split_ifs <;> rfl
  | readTake =>
    have hnone : b.reading = none := henabled
    rw [boxStep] at hstep
    cases hwaiting : b.waiting with
    | cons oldest rest =>
      rw [hwaiting] at hstep
      obtain ⟨rfl, rfl⟩ := Prod.mk.inj (Option.some.inj hstep)
      refine h.move rfl rfl ?_
      rw [Box.frames, Box.frames, hnone, hwaiting]
      rfl
    | nil =>
      rw [hwaiting] at hstep
      obtain ⟨rfl, rfl⟩ := Prod.mk.inj (Option.some.inj hstep)
      exact h.move rfl rfl rfl
  | readPut =>
    obtain ⟨msg, hreading, heq⟩ := Option.map_eq_some_iff.mp hstep
    obtain ⟨rfl, rfl⟩ := Prod.mk.inj heq
    refine h.move rfl rfl ?_
    rw [Box.frames, Box.frames, hreading]
    rfl

end Queue

theorem Box.inv_of_reaches {msgboxsz : Nat} {as : List (CanRxAction μ)} {es : List (CanRxEvent μ)} {b : Box μ}
    (hreach : Reaches (boxSystem μ msgboxsz) as es b) : b.Inv msgboxsz es := by
  refine hreach.invariant (fun _ es b => b.Inv msgboxsz es) ?_ ?_
  · rintro b rfl
    exact ⟨List.Sublist.refl _, rfl, Nat.zero_le _, fun _ _ => List.not_mem_nil⟩
  · intro as es b a out b' h henabled hstep
    exact h.step henabled hstep

/-- The frames read are frames that arrived, in the order of their arrival, and of the others that arrived only the dropped ones and at most `msgboxsz` in the box are missing. With more than one slot, every frame finds one. -/
theorem can_frames_in_order {msgboxsz : Nat} {as : List (CanRxAction μ)} {es : List (CanRxEvent μ)} {s : CanRx μ}
    (hreach : Reaches (canRxSystem μ msgboxsz) as es s) :
    (readOf es).Sublist (arrivedOf es) ∧
      (arrivedOf es).length ≤ (readOf es).length + (droppedOf es).length + msgboxsz ∧
      (1 < msgboxsz → ∀ msg, CanRxEvent.lost msg ∉ es) := by
  obtain ⟨b, hbox, -⟩ := holds_of_reaches hreach
  have hinv := Box.inv_of_reaches hbox
  refine ⟨(List.sublist_append_left _ _).trans hinv.sublist, ?_, hinv.not_lost⟩
  have hcount := hinv.count
  have hlength := hinv.length_le
  omega

/-- A frame is read while the interrupt holds the slot for the next one. -/
theorem can_frames_in_order_held :
    ∃ s : CanRx Nat, Reaches (canRxSystem Nat 2)
        [.isrTake 7, .isrPut, .isrIndicate, .isrTake 8, .readTake, .isrPut, .readPut]
        [.arrived 7, .indicated 1, .arrived 8, .read 7] s ∧ [7].Sublist [7, 8] := by
  have hreach : Reaches (canRxSystem Nat 2)
      [.isrTake 7, .isrPut, .isrIndicate, .isrTake 8, .readTake, .isrPut, .readPut]
      [.arrived 7, .indicated 1, .arrived 8, .read 7] _ :=
    ⟨⟨rtCanOpen ⟨id, id⟩ 2, fun _ => 0, 2, .idle, none⟩, ⟨⟨_, rfl⟩, rfl, rfl, rfl⟩, System.exec_run rfl⟩
  exact ⟨_, hreach, (can_frames_in_order hreach).1⟩

end LightControlMonitor.Kernel
