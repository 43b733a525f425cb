import LightControlMonitor.Kernel.RtList
import LightControlMonitor.Kernel.Semaphore
import Mathlib.Data.List.Perm.Subperm

/-!
# The senders of a CAN port

`_can_int_tx`, the transmit part of `rt_hw_can_isr` and the completions of `completion.c` it waits with, for any number of threads that write to one port. The entries of the buffer stand for the mailboxes of the controller. A sender takes a token of the semaphore and then the first entry of the free list, loads its frame through `sendmsg` and waits for the interrupt of its mailbox; it gives the entry back before the token. Every piece of this between two critical sections is a step of its own.

`lineSystem` is what the port is for: one sender alone, whose frames go out one at a time. Whatever the others do, every sender sees a line of its own.
-/

namespace LightControlMonitor.Kernel

open Transition (System Reaches)

variable {τ μ : Type*}

def RT_WAITING_FOREVER : Int := -1

/-! ### Completions -/

structure Completion (τ : Type*) where
  flag : Bool
  suspendedList : List τ

def rtCompletionInit : Completion τ where
  flag := false
  suspendedList := []

/-- `rt_completion_wait` without a timeout up to its return or suspension, and whether it returns; `none` is its failed assertion. -/
def Completion.wait (completion : Completion τ) (thread : τ) : Option (Completion τ × Bool) :=
  if completion.flag = false then
    if completion.suspendedList.isEmpty then
      some ({ completion with suspendedList := completion.suspendedList ++ [thread] }, false)
    else none
  else some ({ completion with flag := false }, true)

/-- `rt_completion_done`, with the thread it resumes. -/
def Completion.done (completion : Completion τ) : Completion τ × Option τ :=
  if completion.flag = true then (completion, none)
  else
    match completion.suspendedList with
    | [] => ({ completion with flag := true }, none)
    | thread :: rest => ({ flag := true, suspendedList := rest }, some thread)

/-! ### The port -/

/-- The list nodes: the header in `struct rt_can_tx_fifo` and the entries of its buffer. -/
inductive TxNode
  | freelist
  | buffer (no : Nat)
  deriving DecidableEq

/-- `RT_CAN_SND_RESULT_OK`, `RT_CAN_SND_RESULT_ERR` and `RT_CAN_SND_RESULT_WAIT`. -/
inductive SndResult
  | ok
  | err
  | wait
  deriving DecidableEq

/-- `struct rt_can_sndbxinx_list` without its list node. -/
structure Sndbxinx (τ : Type*) where
  completion : Completion τ
  result : SndResult

/-- The places in `_can_int_tx` between its critical sections. -/
inductive TxPc
  | take
  | semWait
  | remove
  | prepare (no : Nat)
  | send (no : Nat)
  | refused (no : Nat)
  | wait (no : Nat)
  | suspended (no : Nat)
  | resumed (no : Nat)
  | putBack (no : Nat)
  | release (ok : Bool)
  deriving DecidableEq

/-- A call of `_can_int_tx`: the frames from `data` on, and the number of frames behind it. -/
structure TxCall (μ : Type*) where
  pc : TxPc
  data : List μ
  sent : Nat

/-- `struct rt_can_tx_fifo`, the calls in progress and what the mailboxes of the controller have to send, each frame with the thread that loaded it. -/
structure CanTx (τ μ : Type*) where
  heap : RtHeap TxNode
  buffer : Nat → Sndbxinx τ
  sem : Semaphore τ
  calls : τ → Option (TxCall μ)
  boxes : Nat → Option (τ × μ)

/-- The list as `rt_can_open` builds it in whatever memory it is given. -/
def rtCanOpenTx (heap : RtHeap TxNode) (sndboxnumber : Nat) : RtHeap TxNode :=
  (List.range sndboxnumber).foldl (fun h i => rtListInsertBefore h .freelist (.buffer i)) (rtListInit heap .freelist)

/-- A call of `rt_can_write`; a thread at its next critical section; a thread in `sendmsg`, which returns `RT_EOK` or not; a mailbox that has sent its frame or failed to. -/
inductive CanTxAction (τ μ : Type*)
  | write (t : τ) (data : List μ)
  | run (t : τ)
  | send (t : τ) (accepted : Bool)
  | isr (no : Nat) (sent : Bool)

/-- What happens to the frames of one thread: a call, a frame loaded into a mailbox, sent by it or not, a frame counted as sent or as dropped, and the return with the number of frames. -/
inductive LineEvent (μ : Type*)
  | called (data : List μ)
  | accepted (msg : μ)
  | transmitted (msg : μ)
  | failed (msg : μ)
  | sent (msg : μ)
  | dropped (msg : μ)
  | returned (count : Nat)

def TxPc.runs : TxPc → Bool
  | .semWait => false
  | .send _ => false
  | .suspended _ => false
  | _ => true

def TxPc.sends : TxPc → Bool
  | .send _ => true
  | _ => false

def CanTx.Enabled (s : CanTx τ μ) : CanTxAction τ μ → Prop
  | .write t _ => (s.calls t).isNone = true
  | .run t => (s.calls t).any (·.pc.runs) = true
  | .send t _ => (s.calls t).any (·.pc.sends) = true
  | .isr no _ => (s.boxes no).isSome = true

section Step

variable [DecidableEq τ]

def CanTx.setCall (s : CanTx τ μ) (t : τ) (call : Option (TxCall μ)) : CanTx τ μ :=
  { s with calls := Function.update s.calls t call }

/-- A suspended thread, if there is one, may run again from `pc`. -/
def CanTx.resume (s : CanTx τ μ) (thread : Option τ) (pc : TxPc) : CanTx τ μ :=
  match thread with
  | some t => s.setCall t ((s.calls t).map fun call => { call with pc := pc })
  | none => s

/-- `rt_can_write` with `RT_DEVICE_FLAG_INT_TX` and without `privmode`. -/
def CanTx.rtCanWrite (s : CanTx τ μ) (t : τ) (data : List μ) : CanTx τ μ × List (τ × LineEvent μ) :=
  if data.isEmpty then (s, [(t, .called data), (t, .returned 0)])
  else (s.setCall t (some { pc := .take, data, sent := 0 }), [(t, .called data)])

/-- `rt_sem_release` and the end of the loop body. -/
def CanTx.release (s : CanTx τ μ) (t : τ) (call : TxCall μ) (ok : Bool) : Option (CanTx τ μ × List (τ × LineEvent μ)) :=
  let releasing := s.sem.release
  let s := CanTx.resume { s with sem := releasing.1 } releasing.2.1 .remove
  match call.data with
  | [] => none
  | msg :: rest =>
    if ok then
      if rest.isEmpty then some (s.setCall t none, [(t, .sent msg), (t, .returned (call.sent + 1))])
      else some (s.setCall t (some { pc := .take, data := rest, sent := call.sent + 1 }), [(t, .sent msg)])
    else some (s.setCall t none, [(t, .dropped msg), (t, .returned call.sent)])

/-- `_can_int_tx` through its next critical section; `none` is a failed assertion, or an entry taken from an empty list. -/
def CanTx.run (s : CanTx τ μ) (t : τ) (call : TxCall μ) : Option (CanTx τ μ × List (τ × LineEvent μ)) :=
  match call.pc with
  | .take =>
    let taking := s.sem.take t RT_WAITING_FOREVER
    let pc := if taking.2 = .suspended then .semWait else .remove
    some (CanTx.setCall { s with sem := taking.1 } t (some { call with pc }), [])
  | .remove =>
    match s.heap.next .freelist with
    | .freelist => none
    | .buffer no =>
      some (CanTx.setCall { s with heap := rtListRemove s.heap (.buffer no) } t (some { call with pc := .prepare no }), [])
  | .prepare no =>
    let entry := { completion := rtCompletionInit, result := .wait }
    some (CanTx.setCall { s with buffer := Function.update s.buffer no entry } t (some { call with pc := .send no }), [])
  | .refused no =>
    some (CanTx.setCall { s with heap := rtListInsertBefore s.heap .freelist (.buffer no) } t
      (some { call with pc := .release false }), [])
  | .wait no =>
    ((s.buffer no).completion.wait t).map fun waiting =>
      let entry := { s.buffer no with completion := waiting.1 }
      let pc := if waiting.2 then .putBack no else .suspended no
      (CanTx.setCall { s with buffer := Function.update s.buffer no entry } t (some { call with pc }), [])
  | .resumed no =>
    let entry := { s.buffer no with completion := { (s.buffer no).completion with flag := false } }
    some (CanTx.setCall { s with buffer := Function.update s.buffer no entry } t (some { call with pc := .putBack no }), [])
  | .putBack no =>
    let heap := if rtListIsempty s.heap (.buffer no) then s.heap else rtListRemove s.heap (.buffer no)
    let ok := decide ((s.buffer no).result = .ok)
    some (CanTx.setCall { s with heap := rtListInsertBefore heap .freelist (.buffer no) } t
      (some { call with pc := .release ok }), [])
  | .release ok => s.release t call ok
  | .semWait => none
  | .send _ => none
  | .suspended _ => none

/-- `sendmsg` on the entry that was taken, which loads the frame into the mailbox when it returns `RT_EOK`. -/
def CanTx.sendmsg (s : CanTx τ μ) (t : τ) (call : TxCall μ) (accepted : Bool) :
    Option (CanTx τ μ × List (τ × LineEvent μ)) :=
  match call.pc, call.data with
  | .send no, msg :: _ =>
    if accepted then
      some (CanTx.setCall { s with boxes := Function.update s.boxes no (some (t, msg)) } t
        (some { call with pc := .wait no }), [(t, .accepted msg)])
    else some (s.setCall t (some { call with pc := .refused no }), [])
  | _, _ => none

/-- `rt_hw_can_isr` with `RT_CAN_EVENT_TX_DONE` or `RT_CAN_EVENT_TX_FAIL`. -/
def CanTx.isr (s : CanTx τ μ) (no : Nat) (sent : Bool) (loaded : τ × μ) : CanTx τ μ × List (τ × LineEvent μ) :=
  let completing := (s.buffer no).completion.done
  let entry := { completion := completing.1, result := if sent then .ok else .err }
  let s := { s with boxes := Function.update s.boxes no none, buffer := Function.update s.buffer no entry }
  (CanTx.resume s completing.2 (.resumed no),
    [(loaded.1, if sent then .transmitted loaded.2 else .failed loaded.2)])

def canTxStep (s : CanTx τ μ) : CanTxAction τ μ → Option (CanTx τ μ × List (τ × LineEvent μ))
  | .write t data => some (s.rtCanWrite t data)
  | .run t => (s.calls t).bind fun call => s.run t call
  | .send t accepted => (s.calls t).bind fun call => s.sendmsg t call accepted
  | .isr no sent => (s.boxes no).map fun loaded => s.isr no sent loaded

/-- A port just opened; `rt_sem_init` asserts the bound. -/
def canTxSystem (τ μ : Type*) [DecidableEq τ] (sndboxnumber : Nat) :
    System (CanTx τ μ) (CanTxAction τ μ) (τ × LineEvent μ) where
  init s := sndboxnumber < 0x10000 ∧ (∃ heap, s.heap = rtCanOpenTx heap sndboxnumber) ∧
    s.sem = rtSemInit sndboxnumber ∧ (∀ t, s.calls t = none) ∧ ∀ no, s.boxes no = none
  enabled := CanTx.Enabled
  step := canTxStep

end Step

/-! ### What the port is for -/

/-- A frame that no mailbox has accepted yet, one in a mailbox, and one whose fate is known. -/
inductive LinePhase
  | ready
  | onBus
  | finished (ok : Bool)

structure LineCall (μ : Type*) where
  phase : LinePhase
  data : List μ
  sent : Nat

inductive LineAction (μ : Type*)
  | write (data : List μ)
  | accept
  | refuse
  | bus (sent : Bool)
  | report

/-- A single sender and its call in progress. -/
def lineStep : Option (LineCall μ) → LineAction μ → Option (Option (LineCall μ) × List (LineEvent μ))
  | none, .write [] => some (none, [.called [], .returned 0])
  | none, .write (msg :: rest) => some (some ⟨.ready, msg :: rest, 0⟩, [.called (msg :: rest)])
  | some ⟨.ready, msg :: rest, sent⟩, .accept => some (some ⟨.onBus, msg :: rest, sent⟩, [.accepted msg])
  | some ⟨.ready, data, sent⟩, .refuse => some (some ⟨.finished false, data, sent⟩, [])
  | some ⟨.onBus, msg :: rest, sent⟩, .bus true => some (some ⟨.finished true, msg :: rest, sent⟩, [.transmitted msg])
  | some ⟨.onBus, msg :: rest, sent⟩, .bus false => some (some ⟨.finished false, msg :: rest, sent⟩, [.failed msg])
  | some ⟨.finished true, [msg], sent⟩, .report => some (none, [.sent msg, .returned (sent + 1)])
  | some ⟨.finished true, msg :: rest, sent⟩, .report => some (some ⟨.ready, rest, sent + 1⟩, [.sent msg])
  | some ⟨.finished false, msg :: _, sent⟩, .report => some (none, [.dropped msg, .returned sent])
  | _, _ => none

def lineSystem (μ : Type*) : System (Option (LineCall μ)) (LineAction μ) (LineEvent μ) where
  init call := call = none
  enabled call a := (lineStep call a).isSome = true
  step := lineStep

def TxPc.phase (result : Nat → SndResult) : TxPc → LinePhase
  | .refused _ => .finished false
  | .wait no => if result no = .wait then .onBus else .finished (result no = .ok)
  | .suspended no => if result no = .wait then .onBus else .finished (result no = .ok)
  | .resumed no => if result no = .wait then .onBus else .finished (result no = .ok)
  | .putBack no => if result no = .wait then .onBus else .finished (result no = .ok)
  | .release ok => .finished ok
  | _ => .ready

/-- How far the call of a thread has come, as seen by the thread. -/
def CanTx.line (s : CanTx τ μ) (t : τ) : Option (LineCall μ) :=
  (s.calls t).map fun call =>
    { phase := call.pc.phase fun no => (s.buffer no).result, data := call.data, sent := call.sent }

def eventsOf [DecidableEq τ] (t : τ) (es : List (τ × LineEvent μ)) : List (LineEvent μ) :=
  es.filterMap fun e => if e.1 = t then some e.2 else none

/-! ### The entries -/

/-- The entry a thread has taken from the list. -/
def TxPc.no : TxPc → Option Nat
  | .prepare no => some no
  | .send no => some no
  | .refused no => some no
  | .wait no => some no
  | .suspended no => some no
  | .resumed no => some no
  | .putBack no => some no
  | _ => none

def CanTx.holds (s : CanTx τ μ) (t : τ) : Option Nat := (s.calls t).bind fun call => call.pc.no

/-- Every entry is in the list or taken by one thread, and a taken entry is a list of its own. -/
structure Nodes (heap : RtHeap TxNode) (holds : τ → Option Nat) (n : Nat) (free : List TxNode) : Prop where
  ring : heap.Ring .freelist free
  free_lt : ∀ x ∈ free, ∃ no < n, x = .buffer no
  held : ∀ t no, holds t = some no → no < n ∧ .buffer no ∉ free ∧ heap.Ring (.buffer no) []
  owner : ∀ t t' no, holds t = some no → holds t' = some no → t = t'
  cover : ∀ no < n, .buffer no ∈ free ∨ ∃ t, holds t = some no

section Nodes

variable [DecidableEq τ] {heap : RtHeap TxNode} {holds : τ → Option Nat} {n no : Nat} {free : List TxNode} {x : TxNode}
  {t : τ}

omit [DecidableEq τ] in
theorem Nodes.length_le (h : Nodes heap holds n free) : free.length ≤ n := by
  have hnodup := (List.nodup_cons.mp h.ring.nodup).2
  have hsubset : free ⊆ (List.range n).map TxNode.buffer := by
    intro x hx
    obtain ⟨no, hlt, rfl⟩ := h.free_lt x hx
    exact List.mem_map_of_mem (List.mem_range.mpr hlt)
  have hle := (List.subperm_of_subset hnodup hsubset).length_le
  rwa [List.length_map, List.length_range] at hle

theorem Nodes.take (h : Nodes heap holds n (x :: free)) (ht : holds t = none) :
    ∃ no, x = .buffer no ∧ Nodes (rtListRemove heap (.buffer no)) (Function.update holds t (some no)) n free := by
  obtain ⟨no, hlt, rfl⟩ := h.free_lt x List.mem_cons_self
  have hremoved := RtHeap.Ring.remove [] h.ring
  have hnotMem : TxNode.buffer no ∉ free :=
    (List.nodup_cons.mp (List.nodup_cons.mp h.ring.nodup).2).1
  refine ⟨no, rfl, hremoved.1, fun y hy => h.free_lt y (List.mem_cons_of_mem _ hy), ?_, ?_, ?_⟩
  · intro t' no' hholds
    rw [Function.update_apply] at hholds
    split_ifs at hholds with heq
    · obtain rfl := Option.some.inj hholds
      exact ⟨hlt, hnotMem, hremoved.2⟩
    · obtain ⟨hlt', hnot, halone⟩ := h.held t' no' hholds
      rw [List.mem_cons, not_or] at hnot
      have hentered : heap.Ring (.buffer no) (free ++ [.freelist]) := RtHeap.Ring.rotate [] h.ring
      refine ⟨hlt', hnot.2, halone.remove_frame hentered (by simp) ?_⟩
      intro y hy hmem
      obtain rfl := List.mem_singleton.mp hy
      rw [List.mem_cons, List.mem_append, List.mem_singleton] at hmem
      rcases hmem with heq | hfree | heq
      · exact hnot.1 heq
      · exact hnot.2 hfree
      · exact TxNode.noConfusion heq
  · intro t₁ t₂ no' h₁ h₂
    rw [Function.update_apply] at h₁ h₂
    have hfresh : ∀ t', holds t' ≠ some no := fun t' hholds => (h.held t' no hholds).2.1 List.mem_cons_self
    split_ifs at h₁ h₂ with heq₁ heq₂ heq₂
    · rw [heq₁, heq₂]
    · exact absurd (h₂.trans h₁.symm) (hfresh t₂)
    · exact absurd (h₁.trans h₂.symm) (hfresh t₁)
    · exact h.owner t₁ t₂ no' h₁ h₂
  · intro no' hlt'
    rcases h.cover no' hlt' with hfree | ⟨t', hholds⟩
    · rcases List.mem_cons.mp hfree with heq | hfree
      · obtain rfl := TxNode.buffer.inj heq
        exact .inr ⟨t, Function.update_self t _ _⟩
      · exact .inl hfree
    · refine .inr ⟨t', ?_⟩
      have hne : t' ≠ t := by
        rintro rfl
        rw [ht] at hholds
        contradiction
      rw [Function.update_of_ne hne, hholds]

theorem Nodes.put (h : Nodes heap holds n free) (ht : holds t = some no) :
    Nodes (rtListInsertBefore heap .freelist (.buffer no)) (Function.update holds t none) n (free ++ [.buffer no]) := by
  obtain ⟨hlt, hnotMem, halone⟩ := h.held t no ht
  have hnew : TxNode.buffer no ∉ TxNode.freelist :: free := by
    rw [List.mem_cons, not_or]
    exact ⟨TxNode.noConfusion, hnotMem⟩
  refine ⟨h.ring.insertBefore hnew, ?_, ?_, ?_, ?_⟩
  · intro x hx
    rcases List.mem_append.mp hx with hx | hx
    · exact h.free_lt x hx
    · exact ⟨no, hlt, List.mem_singleton.mp hx⟩
  · intro t' no' hholds
    rw [Function.update_apply] at hholds
    split_ifs at hholds with heq
    obtain ⟨hlt', hnot, halone'⟩ := h.held t' no' hholds
    have hne : no' ≠ no := fun hsame => heq (h.owner t' t no (hsame ▸ hholds) ht)
    have hneNode : TxNode.buffer no' ≠ TxNode.buffer no := fun hsame => hne (TxNode.buffer.inj hsame)
    refine ⟨hlt', ?_, ?_⟩
    · rw [List.mem_append, List.mem_singleton, not_or]
      exact ⟨hnot, hneNode⟩
    · refine halone'.insertBefore_frame h.ring ?_ ?_
      · intro y hy hmem
        obtain rfl := List.mem_singleton.mp hy
        rcases List.mem_cons.mp hmem with heq | hfree
        · exact TxNode.noConfusion heq
        · exact hnot hfree
      · rw [List.mem_singleton]
        exact Ne.symm hneNode
  · intro t₁ t₂ no' h₁ h₂
    rw [Function.update_apply] at h₁ h₂
    split_ifs at h₁ h₂
    exact h.owner t₁ t₂ no' h₁ h₂
  · intro no' hlt'
    rcases h.cover no' hlt' with hfree | ⟨t', hholds⟩
    · exact .inl (List.mem_append_left _ hfree)
    · by_cases heq : t' = t
      · rw [heq, ht] at hholds
        obtain rfl := Option.some.inj hholds
        exact .inl (List.mem_append_right _ (List.mem_singleton.mpr rfl))
      · exact .inr ⟨t', by rw [Function.update_of_ne heq, hholds]⟩

end Nodes

/-! ### The tokens -/

/-- A thread with a token and no entry, a thread that waits for a token, and any other. -/
inductive TxRole
  | token
  | waiting
  | other
  deriving DecidableEq

def TxPc.role : TxPc → TxRole
  | .remove => .token
  | .release _ => .token
  | .semWait => .waiting
  | _ => .other

theorem TxPc.role_eq_waiting {pc : TxPc} : pc.role = .waiting ↔ pc = .semWait := by
  cases pc <;> simp [TxPc.role]

def CanTx.role (s : CanTx τ μ) (t : τ) : TxRole := (s.calls t).elim .other fun call => call.pc.role

/-- For every entry in the list there is a token in the semaphore or at one of the threads `tokens`. -/
structure Tokens (sem : Semaphore τ) (role : τ → TxRole) (count : Nat) (tokens : List τ) : Prop where
  nodup : tokens.Nodup
  mem_iff : ∀ t, t ∈ tokens ↔ role t = .token
  count_eq : count = sem.value + tokens.length
  waitingNodup : sem.suspendThread.Nodup
  waiting_iff : ∀ t, t ∈ sem.suspendThread ↔ role t = .waiting
  value_eq : sem.suspendThread ≠ [] → sem.value = 0

section Tokens

variable [DecidableEq τ] {sem : Semaphore τ} {role : τ → TxRole} {count : Nat} {tokens : List τ} {t : τ}

theorem update_role_iff {r r' : TxRole} {x : τ} :
    Function.update role t r x = r' ↔ x = t ∧ r = r' ∨ x ≠ t ∧ role x = r' := by
  rw [Function.update_apply]
  split_ifs with heq
  · simp [heq]
  · simp [heq]

theorem Tokens.gain (h : Tokens sem role count tokens) (ht : role t = .other) :
    Tokens sem (Function.update role t .token) (count + 1) (t :: tokens) where
  nodup := List.nodup_cons.mpr ⟨fun hmem => by simp [(h.mem_iff t).mp hmem] at ht, h.nodup⟩
  mem_iff x := by
    rw [List.mem_cons, update_role_iff, h.mem_iff x]
    by_cases heq : x = t <;> simp [heq]
  count_eq := by
    rw [List.length_cons, h.count_eq]
    omega
  waitingNodup := h.waitingNodup
  waiting_iff x := by
    rw [update_role_iff, h.waiting_iff x]
    by_cases heq : x = t
    · simp [heq, ht]
    · simp [heq]
  value_eq := h.value_eq

theorem Tokens.spend (h : Tokens sem role (count + 1) tokens) (ht : role t = .token) :
    Tokens sem (Function.update role t .other) count (tokens.erase t) where
  nodup := h.nodup.erase t
  mem_iff x := by
    rw [h.nodup.mem_erase_iff, update_role_iff, h.mem_iff x]
    by_cases heq : x = t <;> simp [heq]
  count_eq := by
    have hcount := h.count_eq
    have hlength := List.length_erase_of_mem ((h.mem_iff t).mpr ht)
    have hpos := List.length_pos_of_mem ((h.mem_iff t).mpr ht)
    omega
  waitingNodup := h.waitingNodup
  waiting_iff x := by
    rw [update_role_iff, h.waiting_iff x]
    by_cases heq : x = t
    · simp [heq, ht]
    · simp [heq]
  value_eq := h.value_eq

/-- `rt_sem_take` by a thread without a token. -/
theorem Tokens.take (h : Tokens sem role count tokens) (ht : role t = .other) :
    ∃ tokens', Tokens (sem.take t RT_WAITING_FOREVER).1
      (Function.update role t
        (if (sem.take t RT_WAITING_FOREVER).2 = .suspended then .waiting else .token)) count tokens' := by
  unfold Semaphore.take
  by_cases hvalue : sem.value > 0
  · rw [if_pos hvalue]
    have hgained := h.gain ht
    have hempty : sem.suspendThread = [] := by
      by_contra hne
      have hzero := h.value_eq hne
      omega
    refine ⟨t :: tokens, hgained.nodup, hgained.mem_iff, ?_, hgained.waitingNodup, hgained.waiting_iff, ?_⟩
    · have hcount := hgained.count_eq
      dsimp only
      omega
    · exact fun hne => absurd hempty hne
  · rw [if_neg hvalue, if_neg (by decide)]
    refine ⟨tokens, h.nodup, fun x => ?_, h.count_eq, ?_, fun x => ?_, fun _ => Nat.eq_zero_of_not_pos hvalue⟩
    · rw [h.mem_iff x]
      refine Iff.trans ?_ update_role_iff.symm
      by_cases heq : x = t
      · simp [heq, ht]
      · simp [heq]
    · have hnotMem : t ∉ sem.suspendThread := fun hmem => by simp [(h.waiting_iff t).mp hmem] at ht
      rw [← List.concat_eq_append]
      exact h.waitingNodup.concat hnotMem
    · rw [List.mem_append, List.mem_singleton, h.waiting_iff x]
      refine Iff.trans ?_ update_role_iff.symm
      by_cases heq : x = t <;> simp [heq]

/-- `rt_sem_release` by a thread with a token, in a system with no more entries than the semaphore can count. -/
theorem Tokens.release (h : Tokens sem role count tokens) (ht : role t = .token) (hsmall : count ≤ RT_SEM_VALUE_MAX) :
    (sem.release.2.1 = none ∧ ∃ tokens', Tokens sem.release.1 (Function.update role t .other) count tokens') ∨
      ∃ t', sem.release.2.1 = some t' ∧ role t' = .waiting ∧
        ∃ tokens', Tokens sem.release.1 (Function.update (Function.update role t' .token) t .other) count tokens' := by
  have hmem := (h.mem_iff t).mpr ht
  have hlength := List.length_erase_of_mem hmem
  have hpos := List.length_pos_of_mem hmem
  have hcount := h.count_eq
  unfold Semaphore.release
  cases hwaiting : sem.suspendThread with
  | nil =>
    rw [if_pos (by omega)]
    refine .inl ⟨rfl, tokens.erase t, h.nodup.erase t, fun x => ?_, ?_, List.nodup_nil, fun x => ?_, fun hne => absurd rfl hne⟩
    · rw [h.nodup.mem_erase_iff, update_role_iff, h.mem_iff x]
      by_cases heq : x = t <;> simp [heq]
    · dsimp only
      omega
    · have hnone := h.waiting_iff x
      rw [hwaiting] at hnone
      rw [update_role_iff, ← hnone]
      simp
  | cons t' rest =>
    have hfirst : role t' = .waiting := (h.waiting_iff t').mp (by rw [hwaiting]; exact List.mem_cons_self)
    have hne : t' ≠ t := by
      rintro rfl
      rw [ht] at hfirst
      contradiction
    have hnotMem : t' ∉ tokens := fun hmem => by simp [(h.mem_iff t').mp hmem] at hfirst
    have hnodup := h.waitingNodup
    rw [hwaiting, List.nodup_cons] at hnodup
    refine .inr ⟨t', rfl, hfirst, t' :: tokens.erase t, ?_, fun x => ?_, ?_, hnodup.2, fun x => ?_, fun _ => ?_⟩
    · exact List.nodup_cons.mpr ⟨fun hmem => hnotMem (List.mem_of_mem_erase hmem), h.nodup.erase t⟩
    · rw [List.mem_cons, h.nodup.mem_erase_iff, update_role_iff, update_role_iff, h.mem_iff x]
      by_cases heq : x = t
      · simp [heq, hne.symm]
      · by_cases heq' : x = t' <;> simp [heq, heq', hne]
    · dsimp only
      rw [List.length_cons]
      omega
    · have hwaits := h.waiting_iff x
      rw [hwaiting, List.mem_cons] at hwaits
      rw [update_role_iff, update_role_iff]
      by_cases heq : x = t
      · subst heq
        simp only [ht, hne.symm, false_or] at hwaits
        simp [hwaits]
      · by_cases heq' : x = t'
        · subst heq'
          simp [hne, hnodup.1]
        · simp only [heq', false_or] at hwaits
          simp [heq, heq', hwaits]
    · exact h.value_eq (by rw [hwaiting]; exact List.cons_ne_nil t' rest)

end Tokens

/-! ### The mailboxes -/

/-- The mailbox has the first of the frames `data` to send for `t`. -/
structure OnBus (buffer : Nat → Sndbxinx τ) (boxes : Nat → Option (τ × μ)) (t : τ) (data : List μ) (no : Nat)
    (suspendedList : List τ) : Prop where
  box : boxes no = data.head?.map (t, ·)
  result : (buffer no).result = .wait
  completion : (buffer no).completion = ⟨false, suspendedList⟩

/-- The mailbox is empty again and has its result. -/
structure Settled (buffer : Nat → Sndbxinx τ) (boxes : Nat → Option (τ × μ)) (no : Nat) : Prop where
  box : boxes no = none
  result : (buffer no).result ≠ .wait

/-- What a thread may rely on at each place. -/
def TxPc.Relies (buffer : Nat → Sndbxinx τ) (boxes : Nat → Option (τ × μ)) (t : τ) (data : List μ) : TxPc → Prop
  | .prepare no => boxes no = none
  | .send no => boxes no = none ∧ (buffer no).result = .wait ∧ (buffer no).completion = rtCompletionInit
  | .refused no => boxes no = none
  | .wait no => OnBus buffer boxes t data no [] ∨ Settled buffer boxes no ∧ (buffer no).completion.flag = true
  | .suspended no => OnBus buffer boxes t data no [t]
  | .resumed no => Settled buffer boxes no
  | .putBack no => Settled buffer boxes no
  | _ => True

def TxPc.waitsFor (pc : TxPc) (no : Nat) : Prop := pc = .wait no ∨ pc = .suspended no

/-- Every thread may rely on what its place says, and every loaded mailbox has a thread that waits for it. -/
structure CanTx.Boxes (s : CanTx τ μ) : Prop where
  relies : ∀ t call, s.calls t = some call → call.data ≠ [] ∧ call.pc.Relies s.buffer s.boxes t call.data
  loaded : ∀ no t msg, s.boxes no = some (t, msg) → ∃ call, s.calls t = some call ∧ call.pc.waitsFor no

section Boxes

variable {s s' : CanTx τ μ} {t : τ}

theorem TxPc.Relies.congr {buffer buffer' : Nat → Sndbxinx τ} {boxes boxes' : Nat → Option (τ × μ)} {data : List μ}
    {pc : TxPc} (h : pc.Relies buffer boxes t data)
    (hsame : ∀ no, pc.no = some no → buffer' no = buffer no ∧ boxes' no = boxes no) :
    pc.Relies buffer' boxes' t data := by
  cases pc with
  | prepare no => exact (hsame no rfl).2.trans h
  | refused no => exact (hsame no rfl).2.trans h
  | send no =>
    obtain ⟨hbuffer, hboxes⟩ := hsame no rfl
    rw [TxPc.Relies, hbuffer, hboxes]
    exact h
  | wait no =>
    obtain ⟨hbuffer, hboxes⟩ := hsame no rfl
    rcases h with ⟨hbox, hresult, hcompletion⟩ | ⟨⟨hbox, hresult⟩, hflag⟩
    · exact .inl ⟨hboxes.trans hbox, hbuffer ▸ hresult, hbuffer ▸ hcompletion⟩
    · exact .inr ⟨⟨hboxes.trans hbox, hbuffer ▸ hresult⟩, hbuffer ▸ hflag⟩
  | suspended no =>
    obtain ⟨hbuffer, hboxes⟩ := hsame no rfl
    exact ⟨hboxes.trans h.box, hbuffer ▸ h.result, hbuffer ▸ h.completion⟩
  | resumed no => exact ⟨(hsame no rfl).2.trans h.box, (hsame no rfl).1 ▸ h.result⟩
  | putBack no => exact ⟨(hsame no rfl).2.trans h.box, (hsame no rfl).1 ▸ h.result⟩
  | take => trivial
  | semWait => trivial
  | remove => trivial
  | release ok => trivial

theorem TxPc.phase_congr {result result' : Nat → SndResult} {pc : TxPc}
    (hsame : ∀ no, pc.no = some no → result' no = result no) : pc.phase result' = pc.phase result := by
  cases pc with
  | wait no => rw [TxPc.phase, TxPc.phase, hsame no rfl]
  | suspended no => rw [TxPc.phase, TxPc.phase, hsame no rfl]
  | resumed no => rw [TxPc.phase, TxPc.phase, hsame no rfl]
  | putBack no => rw [TxPc.phase, TxPc.phase, hsame no rfl]
  | _ => rfl

theorem TxPc.waitsFor.no_eq {pc : TxPc} {no : Nat} (h : pc.waitsFor no) : pc.no = some no := by
  rcases h with rfl | rfl <;> rfl

/-- A step of one thread that touches no entry but its own, `owned`, leaves the others what they rely on and see. -/
theorem CanTx.Boxes.step (h : s.Boxes) (owned : Option Nat)
    (howned : ∀ no, owned = some no → ∀ t', t' ≠ t → s.holds t' ≠ some no)
    (hcalls : ∀ t', t' ≠ t → s'.calls t' = s.calls t')
    (hentries : ∀ no, owned ≠ some no → s'.buffer no = s.buffer no ∧ s'.boxes no = s.boxes no)
    (hrelies : ∀ call, s'.calls t = some call → call.data ≠ [] ∧ call.pc.Relies s'.buffer s'.boxes t call.data)
    (hfrom : ∀ call no, s.calls t = some call → call.pc.waitsFor no → owned = some no)
    (hloaded : ∀ no, owned = some no → ∀ t' msg, s'.boxes no = some (t', msg) →
      t' = t ∧ ∃ call, s'.calls t = some call ∧ call.pc.waitsFor no) :
    s'.Boxes ∧ ∀ t', t' ≠ t → s'.line t' = s.line t' := by
  have hothers : ∀ t' call, t' ≠ t → s.calls t' = some call → ∀ no, call.pc.no = some no →
      s'.buffer no = s.buffer no ∧ s'.boxes no = s.boxes no := by
    intro t' call hne hcall no hno
    refine hentries no fun heq => howned no heq t' hne ?_
    rw [CanTx.holds, hcall]
    exact hno
  refine ⟨⟨fun t' call hcall => ?_, fun no t' msg hbox => ?_⟩, fun t' hne => ?_⟩
  · by_cases heq : t' = t
    · subst heq
      exact hrelies call hcall
    · rw [hcalls t' heq] at hcall
      obtain ⟨hdata, hold⟩ := h.relies t' call hcall
      exact ⟨hdata, hold.congr (hothers t' call heq hcall)⟩
  · by_cases heq : owned = some no
    · obtain ⟨rfl, hwaits⟩ := hloaded no heq t' msg hbox
      exact hwaits
    · rw [(hentries no heq).2] at hbox
      obtain ⟨call, hcall, hwaits⟩ := h.loaded no t' msg hbox
      have hne : t' ≠ t := fun hsame => heq (hfrom call no (hsame ▸ hcall) hwaits)
      exact ⟨call, (hcalls t' hne).trans hcall, hwaits⟩
  · rw [CanTx.line, CanTx.line, hcalls t' hne]
    cases hcall : s.calls t' with
    | none => rfl
    | some call =>
      rw [Option.map_some, Option.map_some, TxPc.phase_congr fun no hno => ?_]
      rw [(hothers t' call hne hcall no hno).1]

end Boxes

/-! ### Steps -/

/-- The entries, the tokens and the mailboxes of a reachable state. -/
structure CanTx.Inv (s : CanTx τ μ) (n : Nat) : Prop where
  small : n < 0x10000
  lists : ∃ free tokens, Nodes s.heap s.holds n free ∧ Tokens s.sem s.role free.length tokens
  boxes : s.Boxes

/-- The line of `t` has emitted `outs` in at most one step, and no other line has moved. -/
structure CanTx.Acts (s s' : CanTx τ μ) (t : τ) (outs : List (LineEvent μ)) : Prop where
  own : s'.line t = s.line t ∧ outs = [] ∨ ∃ a, lineStep (s.line t) a = some (s'.line t, outs)
  others : ∀ t', t' ≠ t → s'.line t' = s.line t'

def Carried (n : Nat) (s : CanTx τ μ) (t : τ) (r : Option (CanTx τ μ × List (τ × LineEvent μ))) : Prop :=
  ∃ s' outs, r = some (s', outs.map (t, ·)) ∧ s'.Inv n ∧ s.Acts s' t outs

section Steps

variable [DecidableEq τ] {s : CanTx τ μ} {n no : Nat} {t : τ} {call : TxCall μ}

theorem CanTx.setCall_self (s : CanTx τ μ) (t : τ) (call : Option (TxCall μ)) : (s.setCall t call).calls t = call := by
  simp [CanTx.setCall]

theorem CanTx.setCall_of_ne (s : CanTx τ μ) {x : τ} (hne : x ≠ t) (call : Option (TxCall μ)) :
    (s.setCall t call).calls x = s.calls x := by
  simp [CanTx.setCall, hne]

theorem CanTx.holds_setCall (s : CanTx τ μ) (t : τ) (call : Option (TxCall μ)) :
    (s.setCall t call).holds = Function.update s.holds t (call.bind fun call => call.pc.no) := by
  funext x
  by_cases heq : x = t
  · rw [heq, CanTx.holds, CanTx.setCall_self, Function.update_self]
  · rw [CanTx.holds, CanTx.setCall_of_ne s heq, Function.update_of_ne heq]
    rfl

theorem CanTx.role_setCall (s : CanTx τ μ) (t : τ) (call : Option (TxCall μ)) :
    (s.setCall t call).role = Function.update s.role t (call.elim .other fun call => call.pc.role) := by
  funext x
  by_cases heq : x = t
  · rw [heq, CanTx.role, CanTx.setCall_self, Function.update_self]
  · rw [CanTx.role, CanTx.setCall_of_ne s heq, Function.update_of_ne heq]
    rfl

omit [DecidableEq τ] in
theorem CanTx.line_eq (hcall : s.calls t = some call) :
    s.line t = some ⟨call.pc.phase fun no => (s.buffer no).result, call.data, call.sent⟩ := by
  rw [CanTx.line, hcall]
  rfl

omit [DecidableEq τ] in
theorem CanTx.holds_eq (hcall : s.calls t = some call) : s.holds t = call.pc.no := by
  rw [CanTx.holds, hcall]
  rfl

omit [DecidableEq τ] in
theorem CanTx.role_eq (hcall : s.calls t = some call) : s.role t = call.pc.role := by
  rw [CanTx.role, hcall]
  rfl

omit [DecidableEq τ] in
theorem CanTx.Inv.alone (h : s.Inv n) (hcall : s.calls t = some call) (hno : call.pc.no = some no) (t' : τ)
    (hne : t' ≠ t) : s.holds t' ≠ some no := by
  obtain ⟨free, tokens, hnodes, -⟩ := h.lists
  exact fun hholds => hne (hnodes.owner t' t no hholds ((CanTx.holds_eq hcall).trans hno))

theorem TxPc.role_of_no {pc : TxPc} (hno : pc.no = some no) : pc.role = .other := by
  cases pc <;> first | rfl | contradiction

/-- A step of a thread on the entry it has taken, which keeps the entry. -/
theorem CanTx.Inv.onEntry (h : s.Inv n) (hcall : s.calls t = some call) (hno : call.pc.no = some no) {pc : TxPc}
    (hno' : pc.no = some no) (entry : Sndbxinx τ) (box : Option (τ × μ))
    (hrelies : pc.Relies (Function.update s.buffer no entry) (Function.update s.boxes no box) t call.data)
    (hbox : ∀ t' msg, box = some (t', msg) → t' = t ∧ pc.waitsFor no) :
    let s' := CanTx.setCall
      { s with buffer := Function.update s.buffer no entry, boxes := Function.update s.boxes no box } t
      (some { call with pc := pc })
    s'.Inv n ∧ ∀ t', t' ≠ t → s'.line t' = s.line t' := by
  intro s'
  have hself : s'.calls t = some { call with pc := pc } := CanTx.setCall_self _ t _
  have hown : s'.boxes no = box := by simp [s', CanTx.setCall]
  have hstep : s'.Boxes ∧ ∀ t', t' ≠ t → s'.line t' = s.line t' := by
    refine h.boxes.step (some no) (fun no' heq => ?_) (fun t' hne => CanTx.setCall_of_ne _ hne _) (fun no' hne => ?_)
      (fun call' hcall' => ?_) (fun call' no' hcall' hwaits => ?_) (fun no' heq t' msg hloaded => ?_)
    · obtain rfl := Option.some.inj heq
      exact h.alone hcall hno
    · have hne' : no' ≠ no := fun heq => hne (congrArg some heq.symm)
      exact ⟨Function.update_of_ne hne' _ _, Function.update_of_ne hne' _ _⟩
    · obtain rfl := Option.some.inj (hself.symm.trans hcall')
      exact ⟨(h.boxes.relies t call hcall).1, hrelies⟩
    · obtain rfl := Option.some.inj (hcall.symm.trans hcall')
      exact hno.symm.trans hwaits.no_eq
    · obtain rfl := Option.some.inj heq
      obtain ⟨rfl, hwaits⟩ := hbox t' msg (hown.symm.trans hloaded)
      exact ⟨rfl, _, hself, hwaits⟩
  refine ⟨⟨h.small, ?_, hstep.1⟩, hstep.2⟩
  obtain ⟨free, tokens, hnodes, htokens⟩ := h.lists
  refine ⟨free, tokens, ?_, ?_⟩
  · have hsame : Function.update s.holds t pc.no = s.holds :=
      Function.update_eq_self_iff.mpr (hno'.trans ((CanTx.holds_eq hcall).trans hno).symm)
    rw [CanTx.holds_setCall]
    exact hsame.symm ▸ hnodes
  · have hsame : Function.update s.role t pc.role = s.role :=
      Function.update_eq_self_iff.mpr
        ((TxPc.role_of_no hno').trans ((CanTx.role_eq hcall).trans (TxPc.role_of_no hno)).symm)
    rw [CanTx.role_setCall]
    exact hsame.symm ▸ htokens

/-- A step of a thread that touches no mailbox. -/
theorem CanTx.Boxes.move (h : s.Boxes) (hnot : ∀ call no, s.calls t = some call → ¬ call.pc.waitsFor no)
    (call' : Option (TxCall μ))
    (hrelies : ∀ call, call' = some call → call.data ≠ [] ∧ call.pc.Relies s.buffer s.boxes t call.data)
    (heap : RtHeap TxNode) (sem : Semaphore τ) :
    let s' := CanTx.setCall { s with heap, sem } t call'
    s'.Boxes ∧ ∀ t', t' ≠ t → s'.line t' = s.line t' := by
  intro s'
  refine h.step none (fun _ heq => by contradiction) (fun t' hne => CanTx.setCall_of_ne _ hne _)
    (fun _ _ => ⟨rfl, rfl⟩) (fun call hcall => ?_) (fun call no hcall hwaits => ?_) (fun _ heq => by contradiction)
  · exact hrelies call ((CanTx.setCall_self _ _ _).symm.trans hcall)
  · exact absurd hwaits (hnot call no hcall)

omit [DecidableEq τ] in
/-- What is left to show of a step that takes no entry and gives none back. -/
theorem CanTx.Inv.of_lists (h : s.Inv n) {s' : CanTx τ μ} (hheap : s'.heap = s.heap) (hholds : s'.holds = s.holds)
    (htokens : ∀ free tokens, Tokens s.sem s.role free tokens → ∃ tokens', Tokens s'.sem s'.role free tokens')
    (hboxes : s'.Boxes) : s'.Inv n where
  small := h.small
  lists := by
    obtain ⟨free, tokens, hnodes, hold⟩ := h.lists
    obtain ⟨tokens', hnew⟩ := htokens free.length tokens hold
    exact ⟨free, tokens', by rwa [hheap, hholds], hnew⟩
  boxes := hboxes

theorem CanTx.Inv.rtCanWrite (h : s.Inv n) (hnone : s.calls t = none) (data : List μ) :
    Carried n s t (some (s.rtCanWrite t data)) := by
  have hline : s.line t = none := by rw [CanTx.line, hnone]; rfl
  unfold CanTx.rtCanWrite
  cases data with
  | nil =>
    refine ⟨s, [.called [], .returned 0], rfl, h, .inr ⟨.write [], ?_⟩, fun _ _ => rfl⟩
    rw [hline]
    rfl
  | cons msg rest =>
    have hnot : ∀ call no, s.calls t = some call → ¬ call.pc.waitsFor no := by
      intro call no hcall
      rw [hnone] at hcall
      contradiction
    obtain ⟨hboxes, hlines⟩ := h.boxes.move hnot (some ⟨.take, msg :: rest, 0⟩) (fun call hcall => by
      obtain rfl := Option.some.inj hcall
      exact ⟨List.cons_ne_nil msg rest, trivial⟩) s.heap s.sem
    refine ⟨s.setCall t (some ⟨.take, msg :: rest, 0⟩), [.called (msg :: rest)], rfl, ?_, .inr ⟨.write (msg :: rest), ?_⟩,
      hlines⟩
    · refine h.of_lists rfl ?_ (fun free tokens htokens => ⟨tokens, ?_⟩) hboxes
      · rw [CanTx.holds_setCall]
        exact Function.update_eq_self_iff.mpr (by rw [CanTx.holds, hnone]; rfl)
      · rw [CanTx.role_setCall]
        have hsame : Function.update s.role t .other = s.role :=
          Function.update_eq_self_iff.mpr (by rw [CanTx.role, hnone]; rfl)
        exact hsame.symm ▸ htokens
    · rw [hline, CanTx.line_eq (CanTx.setCall_self s t _)]
      rfl

omit [DecidableEq τ] in
theorem CanTx.not_waits (hcall : s.calls t = some call) (hpc : ∀ no, ¬ call.pc.waitsFor no) (call' : TxCall μ) (no : Nat)
    (hcall' : s.calls t = some call') : ¬ call'.pc.waitsFor no := by
  obtain rfl := Option.some.inj (hcall.symm.trans hcall')
  exact hpc no

omit [DecidableEq τ] in
/-- A step that the thread does not notice, beyond being at another place. -/
theorem CanTx.line_move (hcall : s.calls t = some call) {s' : CanTx τ μ} {pc : TxPc}
    (hcall' : s'.calls t = some { call with pc := pc })
    (hphase : pc.phase (fun no => (s'.buffer no).result) = call.pc.phase fun no => (s.buffer no).result) :
    s'.line t = s.line t := by
  rw [CanTx.line_eq hcall, CanTx.line_eq hcall', hphase]

theorem CanTx.Inv.take (h : s.Inv n) (hcall : s.calls t = some call) (hpc : call.pc = .take) :
    Carried n s t (s.run t call) := by
  have hdata := (h.boxes.relies t call hcall).1
  have hholds : s.holds t = none := by rw [CanTx.holds_eq hcall, hpc]; rfl
  have hrole : s.role t = .other := by rw [CanTx.role_eq hcall, hpc]; rfl
  unfold CanTx.run
  rw [hpc]
  dsimp only
  generalize htaking : s.sem.take t RT_WAITING_FOREVER = taking
  generalize hplace : (if taking.2 = .suspended then TxPc.semWait else .remove) = pc
  have hpcs : pc = .semWait ∨ pc = .remove := by
    rw [← hplace]
    split_ifs
    · exact .inl rfl
    · exact .inr rfl
  have hno : pc.no = none := by rcases hpcs with rfl | rfl <;> rfl
  have hphase : ∀ result, pc.phase result = TxPc.take.phase result := by rcases hpcs with rfl | rfl <;> exact fun _ => rfl
  have hboxes := h.boxes.move (CanTx.not_waits hcall (by simp [TxPc.waitsFor, hpc]))
    (some { call with pc := pc }) (fun call' hcall' => by
      obtain rfl := Option.some.inj hcall'
      exact ⟨hdata, by rcases hpcs with rfl | rfl <;> trivial⟩) s.heap taking.1
  refine ⟨_, [], rfl, ?_, .inl ⟨?_, rfl⟩, hboxes.2⟩
  · refine h.of_lists rfl ?_ (fun free tokens htokens => ?_) hboxes.1
    · rw [CanTx.holds_setCall]
      exact Function.update_eq_self_iff.mpr (hno.trans hholds.symm)
    · obtain ⟨tokens', hnew⟩ := htokens.take hrole
      refine ⟨tokens', ?_⟩
      rw [CanTx.role_setCall]
      rw [htaking] at hnew
      have hsame : pc.role = if taking.2 = .suspended then .waiting else .token := by
        rw [← hplace]
        split_ifs <;> rfl
      change Tokens taking.1 (Function.update s.role t pc.role) free tokens'
      rwa [hsame]
  · refine CanTx.line_move hcall (CanTx.setCall_self _ t _) ?_
    rw [hphase, hpc]
    rfl

theorem CanTx.Inv.remove (h : s.Inv n) (hcall : s.calls t = some call) (hpc : call.pc = .remove) :
    Carried n s t (s.run t call) := by
  have hrole : s.role t = .token := by rw [CanTx.role_eq hcall, hpc]; rfl
  have hholds : s.holds t = none := by rw [CanTx.holds_eq hcall, hpc]; rfl
  obtain ⟨free, tokens, hnodes, htokens⟩ := h.lists
  have hpos := List.length_pos_of_mem ((htokens.mem_iff t).mpr hrole)
  have hcount := htokens.count_eq
  cases free with
  | nil =>
    rw [List.length_nil] at hcount
    omega
  | cons x free =>
    have hfirst := (rtListIsempty_cons hnodes.ring).2
    obtain ⟨no, rfl, htaken⟩ := hnodes.take hholds
    have hbox : s.boxes no = none := by
      rw [Option.eq_none_iff_forall_ne_some]
      rintro ⟨t', msg⟩ hbox
      obtain ⟨call', hcall', hwaits⟩ := h.boxes.loaded no t' msg hbox
      exact (hnodes.held t' no ((CanTx.holds_eq hcall').trans hwaits.no_eq)).2.1 List.mem_cons_self
    have hboxes := h.boxes.move (CanTx.not_waits hcall (by simp [TxPc.waitsFor, hpc]))
      (some { call with pc := .prepare no }) (fun call' hcall' => by
        obtain rfl := Option.some.inj hcall'
        exact ⟨(h.boxes.relies t call hcall).1, hbox⟩) (rtListRemove s.heap (.buffer no)) s.sem
    unfold CanTx.run
    rw [hpc]
    dsimp only
    rw [hfirst]
    refine ⟨_, [], rfl, ⟨h.small, ⟨free, tokens.erase t, ?_, ?_⟩, hboxes.1⟩, .inl ⟨?_, rfl⟩, hboxes.2⟩
    · rw [CanTx.holds_setCall]
      exact htaken
    · rw [CanTx.role_setCall]
      exact htokens.spend hrole
    · exact CanTx.line_move hcall (CanTx.setCall_self _ t _) (by rw [hpc]; rfl)

/-- A thread gives its entry back, whether `sendmsg` refused it or its frame has its result. -/
theorem CanTx.Inv.putBack (h : s.Inv n) (hcall : s.calls t = some call) (hno : call.pc.no = some no)
    (hnot : ∀ no, ¬ call.pc.waitsFor no) {ok : Bool}
    (hphase : .finished ok = call.pc.phase fun no => (s.buffer no).result) :
    Carried n s t (some (CanTx.setCall { s with heap := rtListInsertBefore s.heap .freelist (.buffer no) } t
      (some { call with pc := .release ok }), [])) := by
  have hholds : s.holds t = some no := (CanTx.holds_eq hcall).trans hno
  have hrole : s.role t = .other := (CanTx.role_eq hcall).trans (TxPc.role_of_no hno)
  obtain ⟨free, tokens, hnodes, htokens⟩ := h.lists
  have hboxes := h.boxes.move (CanTx.not_waits hcall hnot) (some { call with pc := .release ok }) (fun call' hcall' => by
      obtain rfl := Option.some.inj hcall'
      exact ⟨(h.boxes.relies t call hcall).1, trivial⟩) (rtListInsertBefore s.heap .freelist (.buffer no)) s.sem
  refine ⟨_, [], rfl, ⟨h.small, ⟨free ++ [.buffer no], t :: tokens, ?_, ?_⟩, hboxes.1⟩, .inl ⟨?_, rfl⟩, hboxes.2⟩
  · rw [CanTx.holds_setCall]
    exact hnodes.put hholds
  · rw [CanTx.role_setCall, List.length_append, List.length_singleton]
    exact htokens.gain hrole
  · exact CanTx.line_move hcall (CanTx.setCall_self _ t _) hphase

omit [DecidableEq τ] in
theorem CanTx.call_of_role (hrole : s.role t ≠ .other) : ∃ call, s.calls t = some call ∧ s.role t = call.pc.role := by
  rw [CanTx.role] at hrole ⊢
  cases hcall : s.calls t with
  | none => simp [hcall] at hrole
  | some call => exact ⟨call, rfl, rfl⟩

/-- The state behind the `rt_sem_release` of `t`, before `t` goes on. -/
structure Released (s s₁ : CanTx τ μ) (n : Nat) (t : τ) : Prop where
  calls : s₁.calls t = s.calls t
  others : ∀ x, s₁.calls x = s.calls x ∨
    ∃ call, s.calls x = some call ∧ call.pc = .semWait ∧ s₁.calls x = some { call with pc := .remove }
  lines : ∀ x, s₁.line x = s.line x
  boxes : s₁.Boxes
  lists : ∃ free tokens, Nodes s₁.heap s₁.holds n free ∧
    Tokens s₁.sem (Function.update s₁.role t .other) free.length tokens

theorem CanTx.Inv.semRelease (h : s.Inv n) (hrole : s.role t = .token) :
    Released s (CanTx.resume { s with sem := s.sem.release.1 } s.sem.release.2.1 .remove) n t := by
  obtain ⟨free, tokens, hnodes, htokens⟩ := h.lists
  have hsmall : free.length ≤ RT_SEM_VALUE_MAX := by
    have hle := hnodes.length_le
    have hlt := h.small
    unfold RT_SEM_VALUE_MAX
    omega
  rcases htokens.release hrole hsmall with ⟨hnone, tokens', hnew⟩ | ⟨t', hsome, hwaiting, tokens', hnew⟩
  · rw [hnone]
    exact ⟨rfl, fun _ => .inl rfl, fun _ => rfl, ⟨h.boxes.relies, h.boxes.loaded⟩, free, tokens', hnodes, hnew⟩
  · obtain ⟨call', hcall', hrole'⟩ := CanTx.call_of_role (by rw [hwaiting]; decide : s.role t' ≠ .other)
    have hpc' : call'.pc = .semWait := TxPc.role_eq_waiting.mp (hrole'.symm.trans hwaiting)
    have hne : t ≠ t' := by
      rintro rfl
      rw [hrole] at hwaiting
      contradiction
    have hresume : CanTx.resume { s with sem := s.sem.release.1 } s.sem.release.2.1 .remove =
        CanTx.setCall { s with sem := s.sem.release.1 } t' (some { call' with pc := .remove }) := by
      rw [hsome, CanTx.resume]
      dsimp only
      rw [hcall', Option.map_some]
    obtain ⟨hboxes, hlines⟩ := h.boxes.move (CanTx.not_waits hcall' (by simp [TxPc.waitsFor, hpc']))
      (some { call' with pc := .remove }) (fun call₁ hcall₁ => by
        obtain rfl := Option.some.inj hcall₁
        exact ⟨(h.boxes.relies t' call' hcall').1, trivial⟩) s.heap s.sem.release.1
    rw [hresume]
    refine ⟨CanTx.setCall_of_ne _ hne _, fun x => ?_, fun x => ?_, hboxes, free, tokens', ?_, ?_⟩
    · by_cases heq : x = t'
      · rw [heq]
        exact .inr ⟨call', hcall', hpc', CanTx.setCall_self _ _ _⟩
      · exact .inl (CanTx.setCall_of_ne _ heq _)
    · by_cases heq : x = t'
      · rw [heq]
        exact CanTx.line_move hcall' (CanTx.setCall_self _ t' _) (by rw [hpc']; rfl)
      · exact hlines x heq
    · have hsame : Function.update s.holds t' none = s.holds :=
        Function.update_eq_self_iff.mpr (by rw [CanTx.holds_eq hcall', hpc']; rfl)
      rw [CanTx.holds_setCall]
      exact hsame.symm ▸ hnodes
    · rw [CanTx.role_setCall]
      exact hnew

/-- The thread starts over with its next frame or returns. -/
theorem Released.goOn {s₁ : CanTx τ μ} (h : Released s s₁ n t) (hsmall : n < 0x10000) (hcall : s.calls t = some call)
    {ok : Bool} (hpc : call.pc = .release ok) (next : Option (TxCall μ)) (outs : List (LineEvent μ))
    (hnext : ∀ call, next = some call → call.data ≠ [] ∧ call.pc = .take)
    (haction : ∃ a, lineStep (s.line t) a = some (next.map fun call => ⟨.ready, call.data, call.sent⟩, outs)) :
    Carried n s t (some (s₁.setCall t next, outs.map (t, ·))) := by
  have hcall₁ : s₁.calls t = some call := h.calls.trans hcall
  have hholds : s₁.holds t = none := by rw [CanTx.holds_eq hcall₁, hpc]; rfl
  have hplace : (next.bind fun call => call.pc.no) = none ∧ (next.elim .other fun call => call.pc.role) = TxRole.other ∧
      (s₁.setCall t next).line t = next.map fun call => ⟨.ready, call.data, call.sent⟩ := by
    rw [CanTx.line, CanTx.setCall_self]
    cases next with
    | none => exact ⟨rfl, rfl, rfl⟩
    | some call' =>
      rw [Option.bind_some, Option.elim_some, Option.map_some, Option.map_some, (hnext call' rfl).2]
      exact ⟨rfl, rfl, rfl⟩
  obtain ⟨free, tokens, hnodes, htokens⟩ := h.lists
  obtain ⟨hboxes, hlines⟩ := h.boxes.move (CanTx.not_waits hcall₁ (by simp [TxPc.waitsFor, hpc])) next
    (fun call' hcall' => ⟨(hnext call' hcall').1, by rw [(hnext call' hcall').2]; trivial⟩) s₁.heap s₁.sem
  refine ⟨_, outs, rfl, ⟨hsmall, ⟨free, tokens, ?_, ?_⟩, hboxes⟩, .inr ?_, fun t' hne => ?_⟩
  · have hsame : Function.update s₁.holds t none = s₁.holds := Function.update_eq_self_iff.mpr hholds.symm
    rw [CanTx.holds_setCall, hplace.1, hsame]
    exact hnodes
  · rw [CanTx.role_setCall, hplace.2.1]
    exact htokens
  · rw [hplace.2.2]
    exact haction
  · exact (hlines t' hne).trans (h.lines t')

theorem CanTx.Inv.release (h : s.Inv n) (hcall : s.calls t = some call) {ok : Bool} (hpc : call.pc = .release ok) :
    Carried n s t (s.release t call ok) := by
  have hreleased := h.semRelease (by rw [CanTx.role_eq hcall, hpc]; rfl : s.role t = .token)
  have hline : s.line t = some ⟨.finished ok, call.data, call.sent⟩ := by
    rw [CanTx.line_eq hcall, hpc]
    rfl
  unfold CanTx.release
  dsimp only
  cases hmsgs : call.data with
  | nil => exact absurd hmsgs (h.boxes.relies t call hcall).1
  | cons msg rest =>
    rw [hmsgs] at hline
    cases ok with
    | false =>
      refine hreleased.goOn h.small hcall hpc none [.dropped msg, .returned call.sent] (fun _ hnone => by contradiction)
        ⟨.report, ?_⟩
      rw [hline]
      rfl
    | true =>
      cases rest with
      | nil =>
        refine hreleased.goOn h.small hcall hpc none [.sent msg, .returned (call.sent + 1)]
          (fun _ hnone => by contradiction) ⟨.report, ?_⟩
        rw [hline]
        rfl
      | cons msg' rest =>
        refine hreleased.goOn h.small hcall hpc (some ⟨.take, msg' :: rest, call.sent + 1⟩) [.sent msg]
          (fun call' hcall' => ?_) ⟨.report, ?_⟩
        · obtain rfl := Option.some.inj hcall'
          exact ⟨List.cons_ne_nil msg' rest, rfl⟩
        · rw [hline]
          rfl

theorem CanTx.Inv.prepare (h : s.Inv n) (hcall : s.calls t = some call) (hpc : call.pc = .prepare no) :
    Carried n s t (s.run t call) := by
  have hrelies := (h.boxes.relies t call hcall).2
  rw [hpc] at hrelies
  have hbox : s.boxes no = none := hrelies
  obtain ⟨hinv, hlines⟩ := h.onEntry hcall (by rw [hpc]; rfl : call.pc.no = some no) (rfl : (TxPc.send no).no = some no)
    { completion := rtCompletionInit, result := .wait } none
    ⟨Function.update_self no _ _, by rw [Function.update_self], by rw [Function.update_self]⟩
    (fun _ _ hnone => by contradiction)
  have hsame : Function.update s.boxes no none = s.boxes := Function.update_eq_self_iff.mpr hbox.symm
  rw [hsame] at hinv hlines
  unfold CanTx.run
  rw [hpc]
  exact ⟨_, [], rfl, hinv, .inl ⟨CanTx.line_move hcall (CanTx.setCall_self _ t _) (by rw [hpc]; rfl), rfl⟩, hlines⟩

/-- The thread clears the flag of its completion, whether it was suspended or not. -/
theorem CanTx.Inv.awake (h : s.Inv n) (hcall : s.calls t = some call) (hpc : call.pc = .wait no ∨ call.pc = .resumed no)
    (hsettled : Settled s.buffer s.boxes no) :
    let entry := { s.buffer no with completion := { (s.buffer no).completion with flag := false } }
    Carried n s t (some (CanTx.setCall { s with buffer := Function.update s.buffer no entry } t
      (some { call with pc := .putBack no }), [])) := by
  intro entry
  have hno : call.pc.no = some no := by rcases hpc with hpc | hpc <;> rw [hpc] <;> rfl
  obtain ⟨hinv, hlines⟩ := h.onEntry hcall hno (rfl : (TxPc.putBack no).no = some no) entry (s.boxes no)
    ⟨by rw [Function.update_self]; exact hsettled.box, by rw [Function.update_self]; exact hsettled.result⟩
    (fun t' msg hloaded => by rw [hsettled.box] at hloaded; contradiction)
  rw [Function.update_eq_self] at hinv hlines
  refine ⟨_, [], rfl, hinv, .inl ⟨CanTx.line_move hcall (CanTx.setCall_self _ t _) ?_, rfl⟩, hlines⟩
  rcases hpc with hpc | hpc <;> rw [hpc] <;> simp [TxPc.phase, CanTx.setCall, entry]

theorem CanTx.Inv.wait (h : s.Inv n) (hcall : s.calls t = some call) (hpc : call.pc = .wait no) :
    Carried n s t (s.run t call) := by
  obtain ⟨hdata, hrelies⟩ := h.boxes.relies t call hcall
  rw [hpc] at hrelies
  unfold CanTx.run
  rw [hpc]
  rcases hrelies with ⟨hbox, hresult, hcompletion⟩ | ⟨hsettled, hflag⟩
  · have hwait : (s.buffer no).completion.wait t = some (⟨false, [t]⟩, false) := by
      rw [hcompletion]
      rfl
    obtain ⟨msg, rest, hmsgs⟩ := List.exists_cons_of_ne_nil hdata
    obtain ⟨hinv, hlines⟩ := h.onEntry hcall (by rw [hpc]; rfl : call.pc.no = some no)
      (rfl : (TxPc.suspended no).no = some no) { s.buffer no with completion := ⟨false, [t]⟩ } (s.boxes no)
      ⟨by rw [Function.update_self]; exact hbox, by rw [Function.update_self]; exact hresult,
        by rw [Function.update_self]⟩
      (fun t' msg' hloaded => by
        rw [hbox, hmsgs] at hloaded
        exact ⟨(Prod.mk.inj (Option.some.inj hloaded)).1.symm, .inr rfl⟩)
    rw [Function.update_eq_self] at hinv hlines
    dsimp only
    rw [hwait, Option.map_some]
    refine ⟨_, [], rfl, hinv, .inl ⟨CanTx.line_move hcall (CanTx.setCall_self _ t _) ?_, rfl⟩, hlines⟩
    rw [hpc]
    simp [TxPc.phase, CanTx.setCall, hresult]
  · have hwait : (s.buffer no).completion.wait t = some ({ (s.buffer no).completion with flag := false }, true) := by
      rw [Completion.wait, hflag]
      rfl
    dsimp only
    rw [hwait, Option.map_some]
    exact h.awake hcall (.inl hpc) hsettled

theorem CanTx.Inv.settle (h : s.Inv n) (hcall : s.calls t = some call) (hpc : call.pc = .putBack no) :
    Carried n s t (s.run t call) := by
  have hrelies := (h.boxes.relies t call hcall).2
  rw [hpc] at hrelies
  have hsettled : Settled s.buffer s.boxes no := hrelies
  obtain ⟨free, tokens, hnodes, -⟩ := h.lists
  have hno : call.pc.no = some no := by rw [hpc]; rfl
  have halone := (hnodes.held t no ((CanTx.holds_eq hcall).trans hno)).2.2
  unfold CanTx.run
  rw [hpc]
  dsimp only
  rw [if_pos (rtListIsempty_nil halone)]
  refine h.putBack hcall hno (by simp [TxPc.waitsFor, hpc]) ?_
  rw [hpc, TxPc.phase, if_neg hsettled.result]

theorem CanTx.Inv.run (h : s.Inv n) (hcall : s.calls t = some call) (hruns : call.pc.runs = true) :
    Carried n s t (s.run t call) := by
  cases hpc : call.pc with
  | take => exact h.take hcall hpc
  | remove => exact h.remove hcall hpc
  | prepare no => exact h.prepare hcall hpc
  | wait no => exact h.wait hcall hpc
  | putBack no => exact h.settle hcall hpc
  | refused no =>
    unfold CanTx.run
    rw [hpc]
    exact h.putBack hcall (by rw [hpc]; rfl) (by simp [TxPc.waitsFor, hpc]) (by rw [hpc]; rfl)
  | resumed no =>
    have hrelies := (h.boxes.relies t call hcall).2
    rw [hpc] at hrelies
    unfold CanTx.run
    rw [hpc]
    exact h.awake hcall (.inr hpc) hrelies
  | release ok =>
    unfold CanTx.run
    rw [hpc]
    exact h.release hcall hpc
  | semWait => rw [hpc] at hruns; contradiction
  | send no => rw [hpc] at hruns; contradiction
  | suspended no => rw [hpc] at hruns; contradiction

theorem CanTx.Inv.sendmsg (h : s.Inv n) (hcall : s.calls t = some call) (hsends : call.pc.sends = true)
    (accepted : Bool) : Carried n s t (s.sendmsg t call accepted) := by
  obtain ⟨hdata, hrelies⟩ := h.boxes.relies t call hcall
  cases hpc : call.pc with
  | send no =>
    rw [hpc] at hrelies
    obtain ⟨hbox, hresult, hcompletion⟩ := hrelies
    have hno : call.pc.no = some no := by rw [hpc]; rfl
    have hline : s.line t = some ⟨.ready, call.data, call.sent⟩ := by
      rw [CanTx.line_eq hcall, hpc]
      rfl
    cases hmsgs : call.data with
    | nil => exact absurd hmsgs hdata
    | cons msg rest =>
      unfold CanTx.sendmsg
      rw [hpc, hmsgs]
      rw [hmsgs] at hline
      dsimp only
      cases accepted with
      | true =>
        obtain ⟨hinv, hlines⟩ := h.onEntry hcall hno (rfl : (TxPc.wait no).no = some no) (s.buffer no) (some (t, msg))
          (.inl ⟨by rw [Function.update_self, hmsgs]; rfl, by rw [Function.update_self]; exact hresult,
            by rw [Function.update_self]; exact hcompletion⟩)
          (fun t' msg' hloaded => ⟨(Prod.mk.inj (Option.some.inj hloaded)).1.symm, .inl rfl⟩)
        rw [Function.update_eq_self] at hinv hlines
        rw [if_pos rfl]
        refine ⟨_, [.accepted msg], rfl, hmsgs ▸ hinv, .inr ⟨.accept, ?_⟩, hmsgs ▸ hlines⟩
        rw [hline, CanTx.line_eq (CanTx.setCall_self _ t _)]
        simp [lineStep, TxPc.phase, CanTx.setCall, hresult]
      | false =>
        obtain ⟨hinv, hlines⟩ := h.onEntry hcall hno (rfl : (TxPc.refused no).no = some no) (s.buffer no) (s.boxes no)
          (by rw [TxPc.Relies, Function.update_self]; exact hbox)
          (fun t' msg' hloaded => by rw [hbox] at hloaded; contradiction)
        rw [Function.update_eq_self, Function.update_eq_self] at hinv hlines
        rw [if_neg Bool.false_ne_true]
        refine ⟨_, [], rfl, hmsgs ▸ hinv, .inr ⟨.refuse, ?_⟩, hmsgs ▸ hlines⟩
        rw [hline, CanTx.line_eq (CanTx.setCall_self _ t _)]
        simp [lineStep, TxPc.phase]
  | _ => rw [hpc] at hsends; contradiction

/-- Where the interrupt of its mailbox leaves a thread. -/
def TxPc.woken : TxPc → TxPc
  | .suspended no => .resumed no
  | pc => pc

omit [DecidableEq τ] in
/-- A loaded mailbox has the next frame of a thread that waits for it, suspended or not yet. -/
theorem CanTx.Boxes.onBus (h : s.Boxes) {msg : μ} (hbox : s.boxes no = some (t, msg)) :
    ∃ call rest, s.calls t = some call ∧ call.data = msg :: rest ∧ call.pc.waitsFor no ∧
      OnBus s.buffer s.boxes t call.data no (if call.pc = .suspended no then [t] else []) := by
  obtain ⟨call, hcall, hwaits⟩ := h.loaded no t msg hbox
  obtain ⟨hdata, hrelies⟩ := h.relies t call hcall
  have hbus : OnBus s.buffer s.boxes t call.data no (if call.pc = .suspended no then [t] else []) := by
    rcases hwaits with hpc | hpc <;> rw [hpc] at hrelies ⊢
    · rcases hrelies with hbus | ⟨hsettled, -⟩
      · exact hbus
      · rw [hsettled.box] at hbox
        contradiction
    · rw [if_pos rfl]
      exact hrelies
  obtain ⟨msg', rest, hmsgs⟩ := List.exists_cons_of_ne_nil hdata
  have hhead := hbox.symm.trans hbus.box
  rw [hmsgs] at hhead
  obtain rfl := (Prod.mk.inj (Option.some.inj hhead)).2
  exact ⟨call, rest, hcall, hmsgs, hwaits, hbus⟩

theorem CanTx.isr_eq {msg : μ} {data : List μ} (hcall : s.calls t = some call) (hwaits : call.pc.waitsFor no)
    (hbus : OnBus s.buffer s.boxes t data no (if call.pc = .suspended no then [t] else [])) (sent : Bool) :
    s.isr no sent (t, msg) =
      (CanTx.setCall
        { s with
          buffer := Function.update s.buffer no ⟨⟨true, []⟩, if sent then .ok else .err⟩
          boxes := Function.update s.boxes no none } t (some { call with pc := call.pc.woken }),
        [(t, if sent then .transmitted msg else .failed msg)]) := by
  rw [CanTx.isr, hbus.completion]
  rcases hwaits with hpc | hpc <;> rw [hpc]
  · have hself : Function.update s.calls t (some { call with pc := .wait no }) = s.calls :=
      Function.update_eq_self_iff.mpr (by rw [hcall, ← hpc])
    change _ = (CanTx.setCall _ t (some { call with pc := .wait no }), _)
    rw [CanTx.setCall, hself]
    rfl
  · rw [if_pos rfl]
    change (CanTx.setCall _ t ((s.calls t).map fun call => { call with pc := .resumed no }), _) = _
    rw [hcall]
    rfl

theorem CanTx.Inv.isr (h : s.Inv n) {msg : μ} (hbox : s.boxes no = some (t, msg)) (sent : Bool) :
    Carried n s t (some (s.isr no sent (t, msg))) := by
  obtain ⟨call, rest, hcall, hmsgs, hwaits, hbus⟩ := h.boxes.onBus hbox
  have hwoken : call.pc.woken = .wait no ∨ call.pc.woken = .resumed no := by
    rcases hwaits with hpc | hpc <;> rw [hpc]
    · exact .inl rfl
    · exact .inr rfl
  have hno : call.pc.woken.no = some no := by rcases hwoken with hpc | hpc <;> rw [hpc] <;> rfl
  have hsettled : Settled (Function.update s.buffer no ⟨⟨true, []⟩, if sent then .ok else .err⟩)
      (Function.update s.boxes no none) no := by
    refine ⟨Function.update_self no _ _, ?_⟩
    rw [Function.update_self]
    cases sent <;> exact SndResult.noConfusion
  obtain ⟨hinv, hlines⟩ := h.onEntry hcall hwaits.no_eq hno ⟨⟨true, []⟩, if sent then .ok else .err⟩ none
    (by
      rcases hwoken with hpc | hpc <;> rw [hpc]
      · exact .inr ⟨hsettled, by rw [Function.update_self]⟩
      · exact hsettled)
    (fun _ _ hnone => by contradiction)
  rw [CanTx.isr_eq hcall hwaits hbus]
  refine ⟨_, [if sent then .transmitted msg else .failed msg], rfl, hinv, .inr ⟨.bus sent, ?_⟩, hlines⟩
  have hbefore : call.pc.phase (fun no => (s.buffer no).result) = .onBus := by
    rcases hwaits with hpc | hpc <;> rw [hpc, TxPc.phase, if_pos hbus.result]
  have hbehind : call.pc.woken.phase (fun i =>
      (Function.update s.buffer no ⟨⟨true, []⟩, if sent then .ok else .err⟩ i).result) = .finished sent := by
    rcases hwoken with hpc | hpc <;> rw [hpc] <;> cases sent <;> simp [TxPc.phase]
  rw [CanTx.line_eq hcall, CanTx.line_eq (CanTx.setCall_self _ t _), hbefore]
  change lineStep (some ⟨_, call.data, call.sent⟩) _ = some (some ⟨call.pc.woken.phase fun i =>
      (Function.update s.buffer no ⟨⟨true, []⟩, if sent then .ok else .err⟩ i).result, call.data, call.sent⟩, _)
  rw [hbehind, hmsgs]
  cases sent <;> rfl

theorem CanTx.Inv.step (h : s.Inv n) {a : CanTxAction τ μ} (henabled : s.Enabled a) :
    ∃ t, Carried n s t (canTxStep s a) := by
  cases a with
  | write t data =>
    exact ⟨t, h.rtCanWrite (Option.isNone_iff_eq_none.mp henabled) data⟩
  | run t =>
    obtain ⟨call, hcall, hruns⟩ := (Option.any_eq_true _ _).mp henabled
    refine ⟨t, ?_⟩
    rw [canTxStep, hcall, Option.bind_some]
    exact h.run hcall hruns
  | send t accepted =>
    obtain ⟨call, hcall, hsends⟩ := (Option.any_eq_true _ _).mp henabled
    refine ⟨t, ?_⟩
    rw [canTxStep, hcall, Option.bind_some]
    exact h.sendmsg hcall hsends accepted
  | isr no sent =>
    obtain ⟨⟨t, msg⟩, hbox⟩ := Option.isSome_iff_exists.mp henabled
    refine ⟨t, ?_⟩
    rw [canTxStep, hbox, Option.map_some]
    exact h.isr hbox sent

end Steps

/-! ### Runs -/

theorem rtCanOpenTx_ring (heap : RtHeap TxNode) (n : Nat) :
    (rtCanOpenTx heap n).Ring .freelist ((List.range n).map TxNode.buffer) := by
  induction n with
  | zero => exact rtListInit_ring heap TxNode.freelist
  | succ n ih =>
    have hopen : rtCanOpenTx heap (n + 1) = rtListInsertBefore (rtCanOpenTx heap n) .freelist (.buffer n) := by
      rw [rtCanOpenTx, List.range_succ, List.foldl_append]
      rfl
    rw [hopen, List.range_succ, List.map_append, List.map_singleton]
    exact ih.insertBefore (by simp)

variable [DecidableEq τ] {n : Nat} {as : List (CanTxAction τ μ)} {es : List (τ × LineEvent μ)} {s : CanTx τ μ}

theorem CanTx.Inv.init (hinit : (canTxSystem τ μ n).init s) : s.Inv n := by
  obtain ⟨hsmall, ⟨heap, hheap⟩, hsem, hcalls, hboxes⟩ := hinit
  have hholds : ∀ t, s.holds t = none := fun t => by rw [CanTx.holds, hcalls]; rfl
  have hrole : ∀ t, s.role t = .other := fun t => by rw [CanTx.role, hcalls]; rfl
  have hvalue : s.sem.value = n := by rw [hsem]; exact Nat.mod_eq_of_lt hsmall
  have hwaiting : s.sem.suspendThread = [] := by rw [hsem]; rfl
  refine ⟨hsmall, ⟨(List.range n).map TxNode.buffer, [], ?_, ?_⟩, ?_, ?_⟩
  · refine ⟨hheap ▸ rtCanOpenTx_ring heap n, fun x hx => ?_, fun t no hno => ?_, fun t t' no hno => ?_, fun no hlt => ?_⟩
    · obtain ⟨no, hno, rfl⟩ := List.mem_map.mp hx
      exact ⟨no, List.mem_range.mp hno, rfl⟩
    · rw [hholds] at hno
      contradiction
    · rw [hholds] at hno
      contradiction
    · exact .inl (List.mem_map_of_mem (List.mem_range.mpr hlt))
  · refine ⟨List.nodup_nil, fun t => ?_, ?_, ?_, fun t => ?_, fun hne => absurd hwaiting hne⟩
    · rw [hrole]
      simp
    · rw [List.length_map, List.length_range, hvalue]
      rfl
    · rw [hwaiting]
      exact List.nodup_nil
    · rw [hrole, hwaiting]
      simp
  · intro t call hcall
    rw [hcalls] at hcall
    contradiction
  · intro no t msg hbox
    rw [hboxes] at hbox
    contradiction

theorem eventsOf_append (t : τ) (es out : List (τ × LineEvent μ)) :
    eventsOf t (es ++ out) = eventsOf t es ++ eventsOf t out :=
  List.filterMap_append

theorem eventsOf_own (t : τ) (outs : List (LineEvent μ)) : eventsOf t (outs.map (t, ·)) = outs := by
  simp [eventsOf, List.filterMap_map]

theorem eventsOf_of_ne {t t' : τ} (hne : t' ≠ t) (outs : List (LineEvent μ)) : eventsOf t' (outs.map (t, ·)) = [] := by
  refine List.filterMap_eq_nil_iff.mpr fun e he => ?_
  obtain ⟨e, -, rfl⟩ := List.mem_map.mp he
  exact if_neg (Ne.symm hne)

theorem CanTx.Inv.of_reaches (hreach : Reaches (canTxSystem τ μ n) as es s) :
    s.Inv n ∧ ∀ t, ∃ as', Reaches (lineSystem μ) as' (eventsOf t es) (s.line t) := by
  refine hreach.invariant
    (fun _ es s => s.Inv n ∧ ∀ t, ∃ as', Reaches (lineSystem μ) as' (eventsOf t es) (s.line t)) ?_ ?_
  · intro s hinit
    refine ⟨.init hinit, fun t => ⟨[], none, rfl, ?_⟩⟩
    have hline : s.line t = none := by rw [CanTx.line, hinit.2.2.2.1]; rfl
    rw [hline]
    exact .nil
  · rintro as es s a out s' ⟨hinv, hlines⟩ henabled hstep
    obtain ⟨t, s'', outs, hnext, hinv', hown, hothers⟩ := hinv.step henabled
    obtain ⟨rfl, rfl⟩ := Prod.mk.inj (Option.some.inj (hnext.symm.trans hstep))
    refine ⟨hinv', fun t' => ?_⟩
    obtain ⟨as', line, hline, hrun⟩ := hlines t'
    rw [eventsOf_append]
    by_cases heq : t' = t
    · subst heq
      rw [eventsOf_own]
      rcases hown with ⟨hsame, rfl⟩ | ⟨a', hmoves⟩
      · rw [hsame, List.append_nil]
        exact ⟨as', line, hline, hrun⟩
      · have henabled' : (lineSystem μ).enabled (s.line t') a' := by
          change (lineStep _ _).isSome = true
          rw [hmoves]
          rfl
        exact ⟨as' ++ [a'], line, hline, hrun.snoc henabled' hmoves⟩
    · rw [eventsOf_of_ne heq, List.append_nil, hothers t' heq]
      exact ⟨as', line, hline, hrun⟩

/-- However any number of threads write to the port, what happens to the frames of each is a run of a line of its own. No assertion fails, an entry is always found behind the semaphore, and a frame is only ever loaded into an empty mailbox that no other thread has taken. -/
theorem can_senders_refine_line (hreach : Reaches (canTxSystem τ μ n) as es s) :
    (∀ t, ∃ as', Reaches (lineSystem μ) as' (eventsOf t es) (s.line t)) ∧
      (∀ a, (canTxSystem τ μ n).enabled s a → ((canTxSystem τ μ n).step s a).isSome) ∧
      ∀ t call no, s.calls t = some call → call.pc = .send no →
        no < n ∧ s.boxes no = none ∧ ∀ t', s.holds t' = some no → t' = t := by
  obtain ⟨hinv, hlines⟩ := CanTx.Inv.of_reaches hreach
  refine ⟨hlines, fun a henabled => ?_, fun t call no hcall hpc => ?_⟩
  · obtain ⟨t, s', outs, hnext, -⟩ := hinv.step henabled
    exact Option.isSome_iff_exists.mpr ⟨_, hnext⟩
  · obtain ⟨free, tokens, hnodes, -⟩ := hinv.lists
    have hholds : s.holds t = some no := by rw [CanTx.holds_eq hcall, hpc]; rfl
    have hrelies := (hinv.boxes.relies t call hcall).2
    rw [hpc] at hrelies
    exact ⟨(hnodes.held t no hholds).1, hrelies.1, fun t' hholds' => hnodes.owner t' t no hholds' hholds⟩

instance canTxSystem.decidableEnabled (n : Nat) (s : CanTx τ μ) :
    (a : CanTxAction τ μ) → Decidable ((canTxSystem τ μ n).enabled s a)
  | .write t _ => inferInstanceAs (Decidable ((s.calls t).isNone = true))
  | .run t => inferInstanceAs (Decidable ((s.calls t).any (·.pc.runs) = true))
  | .send t _ => inferInstanceAs (Decidable ((s.calls t).any (·.pc.sends) = true))
  | .isr no _ => inferInstanceAs (Decidable ((s.boxes no).isSome = true))

/-- Two threads write to a port with one mailbox, and the second waits while the frame of the first is on the bus. -/
theorem can_senders_refine_line_waiting :
    ∃ s : CanTx Bool Nat, Reaches (canTxSystem Bool Nat 1)
        [.write true [7], .write false [8], .run true, .run true, .run true, .send true true, .run false, .isr 0 true]
        [(true, .called [7]), (false, .called [8]), (true, .accepted 7), (true, .transmitted 7)] s ∧
      ∃ as', Reaches (lineSystem Nat) as' [.called [8]] (s.line false) := by
  have hreach : Reaches (canTxSystem Bool Nat 1)
      [.write true [7], .write false [8], .run true, .run true, .run true, .send true true, .run false, .isr 0 true]
      [(true, .called [7]), (false, .called [8]), (true, .accepted 7), (true, .transmitted 7)] _ :=
    ⟨⟨rtCanOpenTx ⟨id, id⟩ 1, fun _ => ⟨rtCompletionInit, .ok⟩, rtSemInit 1, fun _ => none, fun _ => none⟩,
      ⟨by decide, ⟨_, rfl⟩, rfl, fun _ => rfl, fun _ => rfl⟩, System.exec_run rfl⟩
  exact ⟨_, hreach, (can_senders_refine_line hreach).1 false⟩

end LightControlMonitor.Kernel
