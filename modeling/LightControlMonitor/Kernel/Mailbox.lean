import LightControlMonitor.Lib.Fifo
import LightControlMonitor.Lib.RingBuffer
import LightControlMonitor.Lib.Transition

/-!
# Mailboxes

`_rt_mb_send_wait`, `rt_mb_urgent` and `_rt_mb_recv` of `ipc.c` on a mailbox with `RT_IPC_FLAG_FIFO`, used by any number of threads. Each of them works on the mailbox with the interrupts disabled until it returns or suspends its thread, so a call is a sequence of attempts with other calls in between. Which thread makes a call does not matter to the mailbox.

The ring of the mailbox is a queue that loses, repeats and reorders nothing, and a thread is never left suspended beside something to do: for every mail in the mailbox some resumed receiver has yet to look, as long as a receiver is suspended.
-/

namespace LightControlMonitor.Kernel

open Transition (System Reaches)

variable {α : Type*}

/-- `RT_UINT16_MAX`. -/
def RT_MB_ENTRY_MAX : Nat := 0xffff

/-- The fields of `struct rt_mailbox` that make up the ring. -/
structure Mailbox (α : Type*) where
  msgPool : Nat → α
  size : Nat
  entry : Nat
  inOffset : Nat
  outOffset : Nat

/-- The assignments of `rt_mb_init`. -/
def rtMbInit (msgPool : Nat → α) (size : Nat) : Mailbox α where
  msgPool := msgPool
  size := size % 0x10000
  entry := 0
  inOffset := 0
  outOffset := 0

/-- `_rt_mb_send_wait` behind the loop, as far as the ring; the result is whether the count has not overflowed. -/
def Mailbox.put (mb : Mailbox α) (value : α) : Mailbox α × Bool :=
  let inOffset := (mb.inOffset + 1) % 0x10000
  let stored := { mb with
    msgPool := Function.update mb.msgPool mb.inOffset value
    inOffset := if inOffset ≥ mb.size then 0 else inOffset }
  if mb.entry < RT_MB_ENTRY_MAX then ({ stored with entry := mb.entry + 1 }, true) else (stored, false)

/-- `rt_mb_urgent` on a mailbox that is not full. -/
def Mailbox.putUrgent (mb : Mailbox α) (value : α) : Mailbox α :=
  let outOffset := if mb.outOffset > 0 then mb.outOffset - 1 else mb.size - 1
  { mb with
    outOffset := outOffset
    msgPool := Function.update mb.msgPool outOffset value
    entry := (mb.entry + 1) % 0x10000 }

/-- `_rt_mb_recv` behind the loop, as far as the ring. -/
def Mailbox.take (mb : Mailbox α) : Mailbox α × α :=
  let outOffset := (mb.outOffset + 1) % 0x10000
  ({ mb with
      outOffset := if outOffset ≥ mb.size then 0 else outOffset
      entry := if mb.entry > 0 then mb.entry - 1 else mb.entry },
    mb.msgPool mb.outOffset)

/-! ### The calls -/

/-- The mailbox, the suspended threads with the timeouts they wait with, and the threads that were resumed and have not yet looked again; a sender carries its mail. -/
structure MbState (α : Type*) where
  mb : Mailbox α
  suspendThread : List Int
  suspendSenderThread : List (α × Int)
  resumedReceivers : List Int
  resumedSenders : List (α × Int)

/-- A mail accepted, a mail accepted at the front, a mail refused with `-RT_EFULL`, a mail received, a receive that found none, and a call that ended by its timer. -/
inductive MbEvent (α : Type*)
  | sent (value : α)
  | urgent (value : α)
  | full (value : α)
  | received (value : α)
  | empty
  | timeout

/-- `_ipc_list_resume` on the suspended receivers, where there are any. -/
def MbState.resumeReceiver (s : MbState α) : MbState α :=
  match s.suspendThread with
  | [] => s
  | timeout :: rest => { s with suspendThread := rest, resumedReceivers := s.resumedReceivers ++ [timeout] }

/-- `_ipc_list_resume` on the suspended senders, where there are any. -/
def MbState.resumeSender (s : MbState α) : MbState α :=
  match s.suspendSenderThread with
  | [] => s
  | sender :: rest => { s with suspendSenderThread := rest, resumedSenders := s.resumedSenders ++ [sender] }

/-- `_rt_mb_send_wait` from a test of the mailbox up to its return or suspension. -/
def MbState.send (s : MbState α) (value : α) (timeout : Int) : MbState α × List (MbEvent α) :=
  if s.mb.entry = s.mb.size then
    if timeout = 0 then (s, [.full value])
    else ({ s with suspendSenderThread := s.suspendSenderThread ++ [(value, timeout)] }, [])
  else
    let stored := s.mb.put value
    if stored.2 then (MbState.resumeReceiver { s with mb := stored.1 }, [.sent value])
    else ({ s with mb := stored.1 }, [.full value])

def MbState.rtMbUrgent (s : MbState α) (value : α) : MbState α × List (MbEvent α) :=
  if s.mb.entry = s.mb.size then (s, [.full value])
  else (MbState.resumeReceiver { s with mb := s.mb.putUrgent value }, [.urgent value])

/-- `_rt_mb_recv` from a test of the mailbox up to its return or suspension. -/
def MbState.recv (s : MbState α) (timeout : Int) : MbState α × List (MbEvent α) :=
  if s.mb.entry = 0 then
    if timeout = 0 then (s, [.empty]) else ({ s with suspendThread := s.suspendThread ++ [timeout] }, [])
  else (MbState.resumeSender { s with mb := s.mb.take.1 }, [.received s.mb.take.2])

/-- A call, a resumed thread that looks again with the timeout it has left, and the timer of a suspended thread. -/
inductive MbAction (α : Type*)
  | send (value : α) (timeout : Int)
  | urgent (value : α)
  | recv (timeout : Int)
  | senderRuns (i : Nat) (left : Int)
  | receiverRuns (i : Nat) (left : Int)
  | senderExpires (i : Nat)
  | receiverExpires (i : Nat)

/-- What `timeout` may be after a wait: unchanged when it is forever, else no more than before and not negative. -/
def TimeLeft (timeout left : Int) : Prop := if timeout > 0 then 0 ≤ left ∧ left ≤ timeout else left = timeout

def MbEnabled (s : MbState α) : MbAction α → Prop
  | .senderRuns i left => ∃ sender ∈ s.resumedSenders[i]?, TimeLeft sender.2 left
  | .receiverRuns i left => ∃ timeout ∈ s.resumedReceivers[i]?, TimeLeft timeout left
  | .senderExpires i => ∃ sender ∈ s.suspendSenderThread[i]?, 0 < sender.2
  | .receiverExpires i => ∃ timeout ∈ s.suspendThread[i]?, 0 < timeout
  | _ => True

def mbStep (s : MbState α) : MbAction α → Option (MbState α × List (MbEvent α))
  | .send value timeout => some (s.send value timeout)
  | .urgent value => some (s.rtMbUrgent value)
  | .recv timeout => some (s.recv timeout)
  | .senderRuns i left =>
    s.resumedSenders[i]?.map fun sender =>
      MbState.send { s with resumedSenders := s.resumedSenders.eraseIdx i } sender.1 left
  | .receiverRuns i left => some (MbState.recv { s with resumedReceivers := s.resumedReceivers.eraseIdx i } left)
  | .senderExpires i => some ({ s with suspendSenderThread := s.suspendSenderThread.eraseIdx i }, [.timeout])
  | .receiverExpires i => some ({ s with suspendThread := s.suspendThread.eraseIdx i }, [.timeout])

/-- A mailbox of the given size, just initialized, whatever is in its pool. -/
def mbSystem (α : Type*) (size : Nat) : System (MbState α) (MbAction α) (MbEvent α) where
  init s := ∃ msgPool, s = ⟨rtMbInit msgPool size, [], [], [], []⟩
  enabled := MbEnabled
  step := mbStep

/-! ### The queue -/

/-- What an event means for the queue of the mails that were accepted and not yet received. -/
inductive MailStep (size : Nat) : List α → MbEvent α → List α → Prop
  | sent {q : List α} {value : α} (hroom : q.length < size) : MailStep size q (.sent value) (q ++ [value])
  | urgent {q : List α} {value : α} (hroom : q.length < size) : MailStep size q (.urgent value) (value :: q)
  | full {q : List α} {value : α} (hfull : q.length = size) : MailStep size q (.full value) q
  | received {q : List α} {value : α} : MailStep size (value :: q) (.received value) q
  | empty : MailStep size [] .empty []
  | timeout {q : List α} : MailStep size q .timeout q

inductive Mails (size : Nat) : List (MbEvent α) → List α → Prop
  | nil : Mails size [] []
  | snoc {es : List (MbEvent α)} {q q' : List α} {e : MbEvent α} (hmails : Mails size es q)
      (hstep : MailStep size q e q') : Mails size (es ++ [e]) q'

/-! ### The ring -/

/-- The mailbox holds the mails `q`; a mailbox of size 0 is always full. -/
structure Mailbox.Holds (mb : Mailbox α) (q : List α) : Prop where
  size_lt : mb.size < 0x10000
  entry_eq : mb.entry = q.length
  length_le : q.length ≤ mb.size
  ring : 0 < mb.size → RingBuffer.Holds mb.msgPool mb.size mb.outOffset mb.inOffset q

theorem Mailbox.Holds.init (msgPool : Nat → α) (size : Nat) : (rtMbInit msgPool size).Holds [] where
  size_lt := Nat.mod_lt _ (by decide)
  entry_eq := rfl
  length_le := Nat.zero_le _
  ring hpos := RingBuffer.Holds.empty msgPool hpos

variable {mb : Mailbox α} {q : List α}

/-- An offset moves without overflowing. -/
theorem offset_eq {size offset : Nat} (hsize : size < 0x10000) (hlt : offset < size) :
    (if (offset + 1) % 0x10000 ≥ size then 0 else (offset + 1) % 0x10000) = RingBuffer.advance size offset := by
  rw [Nat.mod_eq_of_lt (by omega)]
  rfl

theorem Mailbox.Holds.put (h : mb.Holds q) (hroom : q.length < mb.size) (value : α) :
    (mb.put value).2 = true ∧ (mb.put value).1.size = mb.size ∧ (mb.put value).1.Holds (q ++ [value]) := by
  have hring := h.ring (by omega)
  have hentry : mb.entry < RT_MB_ENTRY_MAX := by
    have hsize := h.size_lt
    have hcount := h.entry_eq
    unfold RT_MB_ENTRY_MAX
    omega
  unfold Mailbox.put
  dsimp only
  rw [if_pos hentry, offset_eq h.size_lt hring.into_lt]
  refine ⟨rfl, rfl, h.size_lt, ?_, ?_, fun _ => hring.put hroom value⟩
  · rw [List.length_append, List.length_singleton, h.entry_eq]
  · rw [List.length_append, List.length_singleton]
    exact hroom

theorem Mailbox.Holds.putUrgent (h : mb.Holds q) (hroom : q.length < mb.size) (value : α) :
    (mb.putUrgent value).size = mb.size ∧ (mb.putUrgent value).Holds (value :: q) := by
  have hring := h.ring (by omega)
  refine ⟨rfl, h.size_lt, ?_, hroom, fun _ => hring.putBack hroom value⟩
  have hsize := h.size_lt
  have hcount := h.entry_eq
  change (mb.entry + 1) % 0x10000 = q.length + 1
  rw [Nat.mod_eq_of_lt (by omega), hcount]

theorem Mailbox.Holds.take {value : α} (h : mb.Holds (value :: q)) :
    mb.take.2 = value ∧ mb.take.1.size = mb.size ∧ mb.take.1.Holds q := by
  have hlength := h.length_le
  rw [List.length_cons] at hlength
  have hring := h.ring (by omega)
  obtain ⟨hvalue, hrest⟩ := hring.take
  have hentry : mb.entry = q.length + 1 := h.entry_eq
  unfold Mailbox.take
  dsimp only
  rw [offset_eq h.size_lt hring.out_lt]
  refine ⟨hvalue, rfl, h.size_lt, ?_, Nat.le_of_succ_le hlength, fun _ => hrest⟩
  dsimp only
  rw [if_pos (by omega), hentry, Nat.add_sub_cancel]

/-! ### Suspended threads -/

/-- The mailbox holds `q`; as long as receivers are suspended there is a resumed one for every mail, and as long as senders are suspended one for every free place, not counting `owed` of them. -/
structure MbState.Awake (s : MbState α) (q : List α) (owedReceivers owedSenders : Nat) : Prop where
  holds : s.mb.Holds q
  receivers : s.suspendThread ≠ [] → q.length ≤ s.resumedReceivers.length + owedReceivers
  senders : s.suspendSenderThread ≠ [] → s.mb.size ≤ q.length + s.resumedSenders.length + owedSenders

theorem MbState.Awake.mono {s : MbState α} {m n m' n' : Nat} (h : s.Awake q m n) (hm : m ≤ m') (hn : n ≤ n') :
    s.Awake q m' n' where
  holds := h.holds
  receivers hne := (h.receivers hne).trans (Nat.add_le_add_left hm _)
  senders hne := (h.senders hne).trans (Nat.add_le_add_left hn _)

theorem MbState.Awake.resumeReceiver {s : MbState α} {n : Nat} (h : s.Awake q 1 n) : s.resumeReceiver.Awake q 0 n := by
  unfold MbState.resumeReceiver
  split
  · rename_i hnone
    exact ⟨h.holds, fun hne => absurd hnone hne, h.senders⟩
  · rename_i timeout rest hsome
    refine ⟨h.holds, fun _ => ?_, h.senders⟩
    have hcount := h.receivers (by rw [hsome]; exact List.cons_ne_nil timeout rest)
    rw [List.length_append, List.length_singleton]
    exact hcount

theorem MbState.Awake.resumeSender {s : MbState α} {m : Nat} (h : s.Awake q m 1) : s.resumeSender.Awake q m 0 := by
  unfold MbState.resumeSender
  split
  · rename_i hnone
    exact ⟨h.holds, h.receivers, fun hne => absurd hnone hne⟩
  · rename_i sender rest hsome
    refine ⟨h.holds, h.receivers, fun _ => ?_⟩
    have hcount := h.senders (by rw [hsome]; exact List.cons_ne_nil sender rest)
    rw [List.length_append, List.length_singleton]
    exact hcount

@[simp]
theorem MbState.resumeReceiver_mb (s : MbState α) : s.resumeReceiver.mb = s.mb := by
  unfold MbState.resumeReceiver
  split <;> rfl

@[simp]
theorem MbState.resumeSender_mb (s : MbState α) : s.resumeSender.mb = s.mb := by
  unfold MbState.resumeSender
  split <;> rfl

/-! ### Attempts -/

/-- The state keeps the size, the events so far leave `q`, and no thread is left suspended. -/
def MbState.Keeps (s : MbState α) (size : Nat) (es : List (MbEvent α)) : Prop :=
  s.mb.size = size ∧ ∃ q, Mails size es q ∧ s.Awake q 0 0

variable {s : MbState α} {size : Nat} {es : List (MbEvent α)}

theorem MbState.Awake.send (h : s.Awake q 0 1) (hsize : s.mb.size = size) (hmails : Mails size es q) (value : α)
    (timeout : Int) : (s.send value timeout).1.Keeps size (es ++ (s.send value timeout).2) := by
  have hentry := h.holds.entry_eq
  have hlength := h.holds.length_le
  unfold MbState.send
  by_cases hfull : s.mb.entry = s.mb.size
  · rw [if_pos hfull]
    split_ifs
    · refine ⟨hsize, q, hmails.snoc (.full (by omega)), h.holds, h.receivers, fun _ => ?_⟩
      dsimp only
      omega
    · rw [List.append_nil]
      refine ⟨hsize, q, hmails, h.holds, h.receivers, fun _ => ?_⟩
      dsimp only
      omega
  · rw [if_neg hfull]
    obtain ⟨hcounted, hsize', hholds⟩ := h.holds.put (by omega) value
    dsimp only
    rw [if_pos hcounted]
    have hstored : MbState.Awake { s with mb := (s.mb.put value).1 } (q ++ [value]) 1 0 := by
      refine ⟨hholds, fun hne => ?_, fun hne => ?_⟩
      · have hcount := h.receivers hne
        rw [List.length_append, List.length_singleton]
        exact Nat.succ_le_succ hcount
      · have hcount := h.senders hne
        rw [List.length_append, List.length_singleton]
        dsimp only
        omega
    refine ⟨?_, _, hmails.snoc (.sent (by omega)), hstored.resumeReceiver⟩
    rw [MbState.resumeReceiver_mb]
    exact hsize'.trans hsize

theorem MbState.Awake.rtMbUrgent (h : s.Awake q 0 0) (hsize : s.mb.size = size) (hmails : Mails size es q) (value : α) :
    (s.rtMbUrgent value).1.Keeps size (es ++ (s.rtMbUrgent value).2) := by
  have hentry := h.holds.entry_eq
  have hlength := h.holds.length_le
  unfold MbState.rtMbUrgent
  by_cases hfull : s.mb.entry = s.mb.size
  · rw [if_pos hfull]
    exact ⟨hsize, q, hmails.snoc (.full (by omega)), h⟩
  · rw [if_neg hfull]
    obtain ⟨hsize', hholds⟩ := h.holds.putUrgent (by omega) value
    have hstored : MbState.Awake { s with mb := s.mb.putUrgent value } (value :: q) 1 0 := by
      refine ⟨hholds, fun hne => ?_, fun hne => ?_⟩
      · exact Nat.succ_le_succ (h.receivers hne)
      · have hcount := h.senders hne
        rw [List.length_cons]
        dsimp only
        omega
    refine ⟨?_, _, hmails.snoc (.urgent (by omega)), hstored.resumeReceiver⟩
    rw [MbState.resumeReceiver_mb]
    exact hsize'.trans hsize

theorem MbState.Awake.recv (h : s.Awake q 1 0) (hsize : s.mb.size = size) (hmails : Mails size es q) (timeout : Int) :
    (s.recv timeout).1.Keeps size (es ++ (s.recv timeout).2) := by
  have hentry := h.holds.entry_eq
  unfold MbState.recv
  cases q with
  | nil =>
    rw [if_pos (show s.mb.entry = 0 from hentry)]
    split_ifs
    · exact ⟨hsize, [], hmails.snoc .empty, h.holds, fun _ => Nat.zero_le _, h.senders⟩
    · rw [List.append_nil]
      exact ⟨hsize, [], hmails, h.holds, fun _ => Nat.zero_le _, h.senders⟩
  | cons value q =>
    rw [List.length_cons] at hentry
    rw [if_neg (by omega)]
    obtain ⟨hvalue, hsize', hholds⟩ := h.holds.take
    have htaken : MbState.Awake { s with mb := s.mb.take.1 } q 0 1 := by
      refine ⟨hholds, fun hne => ?_, fun hne => ?_⟩
      · have hcount := h.receivers hne
        rw [List.length_cons] at hcount
        exact Nat.le_of_succ_le_succ hcount
      · have hcount := h.senders hne
        rw [List.length_cons] at hcount
        dsimp only at hcount ⊢
        omega
    refine ⟨?_, q, ?_, htaken.resumeSender⟩
    · rw [MbState.resumeSender_mb]
      exact hsize'.trans hsize
    · rw [hvalue]
      exact hmails.snoc .received

theorem length_eraseIdx_of_some {β : Type*} {l : List β} {i : Nat} {x : β} (hx : l[i]? = some x) :
    (l.eraseIdx i).length + 1 = l.length := by
  obtain ⟨hlt, -⟩ := List.getElem?_eq_some_iff.mp hx
  rw [List.length_eraseIdx_of_lt hlt]
  omega

theorem mem_of_eraseIdx_ne_nil {β : Type*} {l : List β} {i : Nat} (hne : l.eraseIdx i ≠ []) : l ≠ [] := by
  rintro rfl
  exact hne List.eraseIdx_nil

theorem MbState.Keeps.step {a : MbAction α} {s' : MbState α} {out : List (MbEvent α)} (h : s.Keeps size es)
    (henabled : MbEnabled s a) (hstep : mbStep s a = some (s', out)) : s'.Keeps size (es ++ out) := by
  obtain ⟨hsize, q, hmails, hawake⟩ := h
  cases a with
  | send value timeout =>
    obtain ⟨rfl, rfl⟩ := Prod.mk.inj (Option.some.inj hstep)
    exact (hawake.mono (Nat.le_refl 0) (Nat.zero_le 1)).send hsize hmails value timeout
  | urgent value =>
    obtain ⟨rfl, rfl⟩ := Prod.mk.inj (Option.some.inj hstep)
    exact hawake.rtMbUrgent hsize hmails value
  | recv timeout =>
    obtain ⟨rfl, rfl⟩ := Prod.mk.inj (Option.some.inj hstep)
    exact (hawake.mono (Nat.zero_le 1) (Nat.le_refl 0)).recv hsize hmails timeout
  | senderRuns i left =>
    obtain ⟨sender, hsender, -⟩ := henabled
    rw [mbStep, Option.mem_def.mp hsender, Option.map_some] at hstep
    obtain ⟨rfl, rfl⟩ := Prod.mk.inj (Option.some.inj hstep)
    have herased : MbState.Awake { s with resumedSenders := s.resumedSenders.eraseIdx i } q 0 1 := by
      refine ⟨hawake.holds, hawake.receivers, fun hne => ?_⟩
      have hcount := hawake.senders hne
      have hlength := length_eraseIdx_of_some (Option.mem_def.mp hsender)
      dsimp only
      omega
    exact herased.send hsize hmails sender.1 left
  | receiverRuns i left =>
    obtain ⟨timeout, htimeout, -⟩ := henabled
    obtain ⟨rfl, rfl⟩ := Prod.mk.inj (Option.some.inj hstep)
    have herased : MbState.Awake { s with resumedReceivers := s.resumedReceivers.eraseIdx i } q 1 0 := by
      refine ⟨hawake.holds, fun hne => ?_, hawake.senders⟩
      have hcount := hawake.receivers hne
      have hlength := length_eraseIdx_of_some (Option.mem_def.mp htimeout)
      dsimp only
      omega
    exact herased.recv hsize hmails left
  | senderExpires i =>
    obtain ⟨rfl, rfl⟩ := Prod.mk.inj (Option.some.inj hstep)
    exact ⟨hsize, q, hmails.snoc .timeout, hawake.holds, hawake.receivers,
      fun hne => hawake.senders (mem_of_eraseIdx_ne_nil hne)⟩
  | receiverExpires i =>
    obtain ⟨rfl, rfl⟩ := Prod.mk.inj (Option.some.inj hstep)
    exact ⟨hsize, q, hmails.snoc .timeout, hawake.holds, fun hne => hawake.receivers (mem_of_eraseIdx_ne_nil hne),
      hawake.senders⟩

theorem keeps_of_reaches {as : List (MbAction α)} (hreach : Reaches (mbSystem α size) as es s) :
    s.Keeps (size % 0x10000) es := by
  refine hreach.invariant (fun _ es s => s.Keeps (size % 0x10000) es) ?_ ?_
  · rintro s ⟨msgPool, rfl⟩
    exact ⟨rfl, [], .nil, .init msgPool size, fun hne => absurd rfl hne, fun hne => absurd rfl hne⟩
  · exact fun h henabled hstep => h.step henabled hstep

/-- A send that does not wait leaves a full mailbox alone. -/
theorem Mailbox.Holds.send (h : s.mb.Holds q) (value : α) :
    (s.send value 0).1.mb.Holds (Fifo.offer s.mb.size q value) := by
  have hentry := h.entry_eq
  have hlength := h.length_le
  unfold MbState.send Fifo.offer
  by_cases hfull : s.mb.entry = s.mb.size
  · rw [if_pos hfull, if_pos rfl, if_neg (by omega)]
    exact h
  · obtain ⟨hcounted, -, hholds⟩ := h.put (by omega) value
    rw [if_neg hfull, if_pos (by omega : q.length < s.mb.size), if_pos hcounted]
    dsimp only
    rw [MbState.resumeReceiver_mb]
    exact hholds

/-- Whatever calls are made and however they are interleaved, the mails received are the mails accepted, each once and in the order of the queue, a mail is refused only when the mailbox is full, and the places of the ring stay inside the pool. A send that does not wait is `Fifo.offer` on the queue. -/
theorem mails_in_order {as : List (MbAction α)} (hreach : Reaches (mbSystem α size) as es s) :
    ∃ q, Mails (size % 0x10000) es q ∧ s.mb.entry = q.length ∧ q.length ≤ size % 0x10000 ∧
      (0 < s.mb.size → s.mb.inOffset < s.mb.size ∧ s.mb.outOffset < s.mb.size) ∧
      ∀ value, (s.send value 0).1.mb.Holds (Fifo.offer (size % 0x10000) q value) := by
  obtain ⟨hsize, q, hmails, hawake⟩ := keeps_of_reaches hreach
  have hholds := hawake.holds
  refine ⟨q, hmails, hholds.entry_eq, hsize ▸ hholds.length_le, fun hpos => ?_, fun value => ?_⟩
  · exact ⟨(hholds.ring hpos).into_lt, (hholds.ring hpos).out_lt⟩
  · rw [← hsize]
    exact hholds.send value

instance TimeLeft.decidable (timeout left : Int) : Decidable (TimeLeft timeout left) :=
  inferInstanceAs (Decidable (if timeout > 0 then 0 ≤ left ∧ left ≤ timeout else left = timeout))

instance mbSystem.decidableEnabled (size : Nat) (s : MbState α) :
    (a : MbAction α) → Decidable ((mbSystem α size).enabled s a)
  | .send _ _ => inferInstanceAs (Decidable True)
  | .urgent _ => inferInstanceAs (Decidable True)
  | .recv _ => inferInstanceAs (Decidable True)
  | .senderRuns i left => inferInstanceAs (Decidable (∃ sender ∈ s.resumedSenders[i]?, TimeLeft sender.2 left))
  | .receiverRuns i left => inferInstanceAs (Decidable (∃ timeout ∈ s.resumedReceivers[i]?, TimeLeft timeout left))
  | .senderExpires i => inferInstanceAs (Decidable (∃ sender ∈ s.suspendSenderThread[i]?, 0 < sender.2))
  | .receiverExpires i => inferInstanceAs (Decidable (∃ timeout ∈ s.suspendThread[i]?, 0 < timeout))

/-- A receiver waits, a mail resumes it, and another call takes a second mail before it looks. -/
theorem mails_in_order_resumed :
    ∃ s : MbState Nat, Reaches (mbSystem Nat 2) [.recv (-1), .send 7 0, .send 8 0, .recv 0, .receiverRuns 0 (-1)]
        [.sent 7, .sent 8, .received 7, .received 8] s ∧
      ∃ q, Mails 2 [.sent 7, .sent 8, .received 7, .received 8] q ∧ s.mb.entry = q.length := by
  have hreach : Reaches (mbSystem Nat 2) [.recv (-1), .send 7 0, .send 8 0, .recv 0, .receiverRuns 0 (-1)]
      [.sent 7, .sent 8, .received 7, .received 8] _ :=
    ⟨_, ⟨fun _ => 0, rfl⟩, System.exec_run rfl⟩
  obtain ⟨q, hmails, hentry, -⟩ := mails_in_order hreach
  exact ⟨_, hreach, q, hmails, hentry⟩

/-- No wake-up is lost: while a receiver is suspended every mail has a resumed receiver that will look, and while a sender is suspended every free place has a resumed sender. -/
theorem no_wakeup_lost {as : List (MbAction α)} (hreach : Reaches (mbSystem α size) as es s) :
    (s.suspendThread ≠ [] → s.mb.entry ≤ s.resumedReceivers.length) ∧
      (s.suspendSenderThread ≠ [] → s.mb.size - s.mb.entry ≤ s.resumedSenders.length) := by
  obtain ⟨-, q, -, hawake⟩ := keeps_of_reaches hreach
  have hentry := hawake.holds.entry_eq
  constructor
  · intro hne
    have hcount := hawake.receivers hne
    omega
  · intro hne
    have hcount := hawake.senders hne
    omega

/-- Two receivers wait and one mail resumes the first of them. -/
theorem no_wakeup_lost_resumed :
    ∃ s : MbState Nat, Reaches (mbSystem Nat 2) [.recv (-1), .recv (-1), .send 7 0] [.sent 7] s ∧
      s.suspendThread = [-1] ∧ s.mb.entry ≤ s.resumedReceivers.length := by
  have hreach : Reaches (mbSystem Nat 2) [.recv (-1), .recv (-1), .send 7 0] [.sent 7] _ :=
    ⟨_, ⟨fun _ => 0, rfl⟩, System.exec_run rfl⟩
  exact ⟨_, hreach, rfl, (no_wakeup_lost hreach).1 (List.cons_ne_nil _ _)⟩

end LightControlMonitor.Kernel
