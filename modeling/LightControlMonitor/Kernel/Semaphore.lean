import LightControlMonitor.Lib.Transition
import Mathlib.Data.List.Nodup
import Mathlib.Logic.Function.Basic

/-!
# Semaphores

`_rt_sem_take`, `rt_sem_release` and the reset of `rt_sem_control` of `ipc.c` on a semaphore with `RT_IPC_FLAG_FIFO`, used by any number of threads. A release with a thread suspended hands its token to the first of them and leaves the value at 0, so the value is never positive beside a waiting thread and no token is lost or made up.
-/

namespace LightControlMonitor.Kernel

open Transition (System Reaches)

variable {τ : Type*}

def RT_SEM_VALUE_MAX : Nat := 0xffff

structure Semaphore (τ : Type*) where
  value : Nat
  suspendThread : List τ

def rtSemInit (value : Nat) : Semaphore τ where
  value := value % 0x10000
  suspendThread := []

/-- How `_rt_sem_take` leaves its critical section. -/
inductive SemTake
  | taken
  | timeout
  | suspended
  deriving DecidableEq

def Semaphore.take (sem : Semaphore τ) (thread : τ) (timeout : Int) : Semaphore τ × SemTake :=
  if sem.value > 0 then ({ sem with value := sem.value - 1 }, .taken)
  else if timeout = 0 then (sem, .timeout)
  else ({ sem with suspendThread := sem.suspendThread ++ [thread] }, .suspended)

/-- `rt_sem_release`, with the thread it resumes and whether it returns `RT_EOK`. -/
def Semaphore.release (sem : Semaphore τ) : Semaphore τ × Option τ × Bool :=
  match sem.suspendThread with
  | thread :: rest => ({ sem with suspendThread := rest }, some thread, true)
  | [] =>
    if sem.value < RT_SEM_VALUE_MAX then ({ sem with value := sem.value + 1 }, none, true) else (sem, none, false)

/-- `rt_sem_control` with `RT_IPC_CMD_RESET`, and the threads it resumes with `-RT_ERROR`. -/
def Semaphore.reset (sem : Semaphore τ) (value : Nat) : Semaphore τ × List τ :=
  (rtSemInit value, sem.suspendThread)

/-! ### The calls -/

/-- A semaphore with the timeouts its threads wait with. -/
structure SemState (τ : Type*) where
  sem : Semaphore τ
  timer : τ → Int

inductive SemAction (τ : Type*)
  | take (thread : τ) (timeout : Int)
  | release
  | expire (thread : τ)
  | reset (value : Nat)

/-- A take that found a token, one that would not wait, a thread suspended, and resumed by its timer, with a token or with `-RT_ERROR`, a release accepted and one refused with `-RT_EFULL`, and a reset. -/
inductive SemEvent (τ : Type*)
  | taken (thread : τ)
  | timeout (thread : τ)
  | suspended (thread : τ)
  | expired (thread : τ)
  | resumed (thread : τ)
  | failed (thread : τ)
  | released
  | full
  | reset (value : Nat)

variable [DecidableEq τ]

def SemEnabled (s : SemState τ) : SemAction τ → Prop
  | .take thread _ => thread ∉ s.sem.suspendThread
  | .expire thread => thread ∈ s.sem.suspendThread ∧ 0 < s.timer thread
  | .release => True
  | .reset _ => True

def SemState.take (s : SemState τ) (thread : τ) (timeout : Int) : SemState τ × List (SemEvent τ) :=
  let taking := s.sem.take thread timeout
  match taking.2 with
  | .taken => ({ s with sem := taking.1 }, [.taken thread])
  | .timeout => ({ s with sem := taking.1 }, [.timeout thread])
  | .suspended =>
    ({ sem := taking.1, timer := Function.update s.timer thread timeout }, [.suspended thread])

def SemState.release (s : SemState τ) : SemState τ × List (SemEvent τ) :=
  let releasing := s.sem.release
  ({ s with sem := releasing.1 },
    (if releasing.2.2 then .released else .full) :: releasing.2.1.toList.map .resumed)

def semStep (s : SemState τ) : SemAction τ → SemState τ × List (SemEvent τ)
  | .take thread timeout => s.take thread timeout
  | .release => s.release
  | .expire thread =>
    ({ s with sem := { s.sem with suspendThread := s.sem.suspendThread.erase thread } }, [.expired thread])
  | .reset value =>
    ({ s with sem := (s.sem.reset value).1 }, (s.sem.reset value).2.map .failed ++ [.reset value])

/-- A semaphore just initialized. -/
def semSystem (τ : Type*) [DecidableEq τ] (value : Nat) : System (SemState τ) (SemAction τ) (SemEvent τ) where
  init s := s.sem = rtSemInit value
  enabled := SemEnabled
  step s a := some (semStep s a)

/-! ### Tokens -/

/-- The tokens there have been since the last reset: its value and the releases accepted after it. -/
def supplyOf (value : Nat) (es : List (SemEvent τ)) : Nat :=
  es.foldl (fun n e =>
    match e with
    | .released => n + 1
    | .reset v => v % 0x10000
    | _ => n) (value % 0x10000)

/-- The tokens that threads have got since the last reset. -/
def grantedOf (es : List (SemEvent τ)) : Nat :=
  es.foldl (fun n e =>
    match e with
    | .taken _ => n + 1
    | .resumed _ => n + 1
    | .reset _ => 0
    | _ => n) 0

def suspendedOf (es : List (SemEvent τ)) : List τ :=
  es.filterMap fun e =>
    match e with
    | .suspended thread => some thread
    | _ => none

def resumedOf (es : List (SemEvent τ)) : List τ :=
  es.filterMap fun e =>
    match e with
    | .resumed thread => some thread
    | _ => none

/-- The threads whose wait a timer or a reset has ended. -/
def endedOf (es : List (SemEvent τ)) : List τ :=
  es.filterMap fun e =>
    match e with
    | .expired thread => some thread
    | .failed thread => some thread
    | _ => none

/-- Every token is in the value or was granted, no thread waits beside one, the threads are served in the order in which they were suspended, and no wait is lost. -/
structure SemState.Inv (s : SemState τ) (value : Nat) (es : List (SemEvent τ)) : Prop where
  tokens : grantedOf es + s.sem.value = supplyOf value es
  value_le : s.sem.value ≤ RT_SEM_VALUE_MAX
  waiting : s.sem.suspendThread ≠ [] → s.sem.value = 0
  order : (resumedOf es ++ s.sem.suspendThread).Sublist (suspendedOf es)
  accounted : ∀ thread, (suspendedOf es).count thread =
    (resumedOf es).count thread + s.sem.suspendThread.count thread + (endedOf es).count thread

section Steps

variable {s : SemState τ} {value : Nat} {es : List (SemEvent τ)}

omit [DecidableEq τ] in
theorem supplyOf_append (es out : List (SemEvent τ)) :
    supplyOf value (es ++ out) = out.foldl (fun n e =>
      match e with
      | .released => n + 1
      | .reset v => v % 0x10000
      | _ => n) (supplyOf value es) :=
  List.foldl_append

omit [DecidableEq τ] in
theorem grantedOf_append (es out : List (SemEvent τ)) :
    grantedOf (es ++ out) = out.foldl (fun n e =>
      match e with
      | .taken _ => n + 1
      | .resumed _ => n + 1
      | .reset _ => 0
      | _ => n) (grantedOf es) :=
  List.foldl_append

omit [DecidableEq τ] in
theorem suspendedOf_append (es out : List (SemEvent τ)) : suspendedOf (es ++ out) = suspendedOf es ++ suspendedOf out :=
  List.filterMap_append

omit [DecidableEq τ] in
theorem resumedOf_append (es out : List (SemEvent τ)) : resumedOf (es ++ out) = resumedOf es ++ resumedOf out :=
  List.filterMap_append

omit [DecidableEq τ] in
theorem endedOf_append (es out : List (SemEvent τ)) : endedOf (es ++ out) = endedOf es ++ endedOf out :=
  List.filterMap_append

omit [DecidableEq τ] in
/-- Threads woken by a reset change no account. -/
theorem foldl_failed {β : Type*} (f : β → SemEvent τ → β) (hf : ∀ b thread, f b (.failed thread) = b) (b : β)
    (threads : List τ) : (threads.map SemEvent.failed).foldl f b = b := by
  induction threads with
  | nil => rfl
  | cons thread threads ih => rw [List.map_cons, List.foldl_cons, hf, ih]

omit [DecidableEq τ] in
theorem suspendedOf_failed (threads : List τ) : suspendedOf (threads.map SemEvent.failed) = [] := by
  refine List.filterMap_eq_nil_iff.mpr fun e he => ?_
  obtain ⟨thread, -, rfl⟩ := List.mem_map.mp he
  rfl

omit [DecidableEq τ] in
theorem resumedOf_failed (threads : List τ) : resumedOf (threads.map SemEvent.failed) = [] := by
  refine List.filterMap_eq_nil_iff.mpr fun e he => ?_
  obtain ⟨thread, -, rfl⟩ := List.mem_map.mp he
  rfl

omit [DecidableEq τ] in
theorem endedOf_failed (threads : List τ) : endedOf (threads.map SemEvent.failed) = threads := by
  rw [endedOf, List.filterMap_map]
  exact List.filterMap_some

/-- A step that suspends, resumes and ends no thread leaves the order and the account of the waits as they are. -/
theorem SemState.Inv.quiet {s' : SemState τ} {out : List (SemEvent τ)} (h : s.Inv value es)
    (htokens : grantedOf (es ++ out) + s'.sem.value = supplyOf value (es ++ out))
    (hvalue : s'.sem.value ≤ RT_SEM_VALUE_MAX) (hwaiting : s'.sem.suspendThread ≠ [] → s'.sem.value = 0)
    (hsame : s'.sem.suspendThread = s.sem.suspendThread) (hsuspended : suspendedOf out = [])
    (hresumed : resumedOf out = []) (hended : endedOf out = []) : s'.Inv value (es ++ out) := by
  refine ⟨htokens, hvalue, hwaiting, ?_, fun thread => ?_⟩
  · rw [resumedOf_append, suspendedOf_append, hsuspended, hresumed, hsame, List.append_nil, List.append_nil]
    exact h.order
  · rw [resumedOf_append, suspendedOf_append, endedOf_append, hsuspended, hresumed, hended, hsame, List.append_nil,
      List.append_nil, List.append_nil]
    exact h.accounted thread

theorem SemState.Inv.take (h : s.Inv value es) (thread : τ) (timeout : Int) :
    (s.take thread timeout).1.Inv value (es ++ (s.take thread timeout).2) := by
  have htokens := h.tokens
  unfold SemState.take Semaphore.take
  by_cases hvalue : s.sem.value > 0
  · have hempty : s.sem.suspendThread = [] := by
      by_contra hne
      have hzero := h.waiting hne
      omega
    rw [if_pos hvalue]
    refine h.quiet ?_ (Nat.le_trans (Nat.sub_le _ _) h.value_le) (fun hne => absurd hempty hne) rfl rfl rfl rfl
    rw [grantedOf_append, supplyOf_append]
    change grantedOf es + 1 + (s.sem.value - 1) = supplyOf value es
    omega
  · rw [if_neg hvalue]
    split_ifs
    · refine h.quiet ?_ h.value_le h.waiting rfl rfl rfl rfl
      rw [grantedOf_append, supplyOf_append]
      exact htokens
    · refine ⟨?_, h.value_le, fun _ => Nat.eq_zero_of_not_pos hvalue, ?_, fun other => ?_⟩
      · rw [grantedOf_append, supplyOf_append]
        exact htokens
      · rw [resumedOf_append, suspendedOf_append]
        have hmore := h.order.append (List.Sublist.refl [thread])
        simpa [resumedOf, suspendedOf] using hmore
      · have haccounted := h.accounted other
        rw [resumedOf_append, suspendedOf_append, endedOf_append]
        change (suspendedOf es ++ [thread]).count other = (resumedOf es ++ []).count other +
          (s.sem.suspendThread ++ [thread]).count other + (endedOf es ++ []).count other
        simp only [List.count_append, List.append_nil]
        omega

theorem SemState.Inv.release (h : s.Inv value es) : s.release.1.Inv value (es ++ s.release.2) := by
  have htokens := h.tokens
  unfold SemState.release Semaphore.release
  cases hwaiting : s.sem.suspendThread with
  | cons thread rest =>
    have hzero := h.waiting (by rw [hwaiting]; exact List.cons_ne_nil thread rest)
    have horder := h.order
    rw [hwaiting] at horder
    refine ⟨?_, h.value_le, fun _ => hzero, ?_, fun other => ?_⟩
    · rw [grantedOf_append, supplyOf_append]
      change grantedOf es + 1 + s.sem.value = supplyOf value es + 1
      omega
    · rw [resumedOf_append, suspendedOf_append]
      simpa [resumedOf, suspendedOf] using horder
    · have haccounted := h.accounted other
      rw [hwaiting, ← List.singleton_append, List.count_append] at haccounted
      rw [resumedOf_append, suspendedOf_append, endedOf_append]
      change (suspendedOf es ++ []).count other = (resumedOf es ++ [thread]).count other + rest.count other +
        (endedOf es ++ []).count other
      simp only [List.count_append, List.append_nil]
      omega
  | nil =>
    by_cases hroom : s.sem.value < RT_SEM_VALUE_MAX
    · rw [if_pos hroom]
      refine h.quiet ?_ hroom (fun hne => absurd rfl hne) hwaiting.symm rfl rfl rfl
      rw [grantedOf_append, supplyOf_append]
      change grantedOf es + (s.sem.value + 1) = supplyOf value es + 1
      omega
    · rw [if_neg hroom]
      refine h.quiet ?_ h.value_le (fun hne => absurd hwaiting hne) rfl rfl rfl rfl
      rw [grantedOf_append, supplyOf_append]
      exact htokens

theorem SemState.Inv.expire {thread : τ} (h : s.Inv value es) (hmem : thread ∈ s.sem.suspendThread) :
    (semStep s (.expire thread)).1.Inv value (es ++ [.expired thread]) := by
  refine ⟨?_, h.value_le, fun hne => h.waiting ?_, ?_, fun other => ?_⟩
  · rw [grantedOf_append, supplyOf_append]
    exact h.tokens
  · intro hempty
    exact hne (by simp [semStep, hempty])
  · rw [resumedOf_append, suspendedOf_append]
    have hfewer := ((List.Sublist.refl (resumedOf es)).append
      (List.erase_sublist (a := thread) (l := s.sem.suspendThread))).trans h.order
    simpa [resumedOf, suspendedOf, semStep] using hfewer
  · have haccounted := h.accounted other
    have hsplit := (List.perm_cons_erase hmem).count_eq other
    rw [← List.singleton_append, List.count_append] at hsplit
    rw [resumedOf_append, suspendedOf_append, endedOf_append]
    change (suspendedOf es ++ []).count other = (resumedOf es ++ []).count other +
      (s.sem.suspendThread.erase thread).count other + (endedOf es ++ [thread]).count other
    simp only [List.count_append, List.append_nil]
    omega

theorem SemState.Inv.reset (h : s.Inv value es) (v : Nat) :
    (semStep s (.reset v)).1.Inv value (es ++ (semStep s (.reset v)).2) := by
  have hout : (semStep s (.reset v)).2 = s.sem.suspendThread.map .failed ++ [.reset v] := rfl
  rw [hout]
  refine ⟨?_, Nat.le_of_lt_succ (Nat.mod_lt v (by decide)), fun hne => absurd rfl hne, ?_, fun other => ?_⟩
  · rw [grantedOf_append, supplyOf_append, List.foldl_append, List.foldl_append, foldl_failed _ (fun _ _ => rfl),
      foldl_failed _ (fun _ _ => rfl)]
    exact Nat.zero_add _
  · rw [resumedOf_append, suspendedOf_append, resumedOf_append, suspendedOf_append, resumedOf_failed,
      suspendedOf_failed]
    have hfront := (List.sublist_append_left (resumedOf es) s.sem.suspendThread).trans h.order
    simpa [resumedOf, suspendedOf, semStep, Semaphore.reset, rtSemInit] using hfront
  · have haccounted := h.accounted other
    rw [resumedOf_append, suspendedOf_append, endedOf_append, resumedOf_append, suspendedOf_append, endedOf_append,
      resumedOf_failed, suspendedOf_failed, endedOf_failed]
    change (suspendedOf es ++ ([] ++ [])).count other = (resumedOf es ++ ([] ++ [])).count other + [].count other +
      (endedOf es ++ (s.sem.suspendThread ++ [])).count other
    simp only [List.count_append, List.append_nil, List.count_nil]
    omega

theorem SemState.Inv.step (h : s.Inv value es) {a : SemAction τ} (henabled : SemEnabled s a) :
    (semStep s a).1.Inv value (es ++ (semStep s a).2) := by
  cases a with
  | take thread timeout => exact h.take thread timeout
  | release => exact h.release
  | expire thread => exact h.expire henabled.1
  | reset v => exact h.reset v

end Steps

/-- In every run the tokens granted and the tokens left are the tokens there have been since the last reset, a thread is suspended only while no token is left, and the threads resumed are the threads suspended in their order, except those that a timer or a reset has ended. -/
theorem sem_tokens {value : Nat} {as : List (SemAction τ)} {es : List (SemEvent τ)} {s : SemState τ}
    (hreach : Reaches (semSystem τ value) as es s) :
    grantedOf es + s.sem.value = supplyOf value es ∧ s.sem.value ≤ RT_SEM_VALUE_MAX ∧
      (s.sem.suspendThread ≠ [] → s.sem.value = 0) ∧
      (resumedOf es ++ s.sem.suspendThread).Sublist (suspendedOf es) ∧
      ∀ thread, (suspendedOf es).count thread =
        (resumedOf es).count thread + s.sem.suspendThread.count thread + (endedOf es).count thread := by
  have hinv : s.Inv value es := by
    refine hreach.invariant (fun _ es s => s.Inv value es) (fun s hinit => ?_) ?_
    · have hsem : s.sem = rtSemInit value := hinit
      constructor
      · rw [hsem]
        exact Nat.zero_add _
      · rw [hsem]
        exact Nat.le_of_lt_succ (Nat.mod_lt value (by decide))
      · rw [hsem]
        exact fun hne => absurd rfl hne
      · rw [hsem]
        exact List.Sublist.refl []
      · rw [hsem]
        exact fun thread => rfl
    · intro as es s a out s' h henabled hstep
      have hnext : semStep s a = (s', out) := Option.some.inj hstep
      have hinv := h.step henabled
      rwa [hnext] at hinv
  exact ⟨hinv.tokens, hinv.value_le, hinv.waiting, hinv.order, hinv.accounted⟩

instance semSystem.decidableEnabled (value : Nat) (s : SemState τ) :
    (a : SemAction τ) → Decidable ((semSystem τ value).enabled s a)
  | .take thread _ => inferInstanceAs (Decidable (thread ∉ s.sem.suspendThread))
  | .expire thread => inferInstanceAs (Decidable (thread ∈ s.sem.suspendThread ∧ 0 < s.timer thread))
  | .release => inferInstanceAs (Decidable True)
  | .reset _ => inferInstanceAs (Decidable True)

def semRun : List (SemAction Nat) :=
  [.take 1 (-1), .take 2 5, .take 3 (-1), .expire 2, .release, .take 2 5, .reset 0]

def semEvents : List (SemEvent Nat) :=
  [.taken 1, .suspended 2, .suspended 3, .expired 2, .released, .resumed 3, .suspended 2, .failed 2, .reset 0]

/-- Of three threads that want the only token, one has given up when it is released; its second wait ends with a reset. -/
theorem sem_tokens_expired :
    ∃ s : SemState Nat, Reaches (semSystem Nat 1) semRun semEvents s ∧
      grantedOf semEvents + s.sem.value = supplyOf 1 semEvents ∧
      (suspendedOf semEvents).count 2 =
        (resumedOf semEvents).count 2 + s.sem.suspendThread.count 2 + (endedOf semEvents).count 2 := by
  have hreach : Reaches (semSystem Nat 1) semRun semEvents _ :=
    ⟨⟨rtSemInit 1, fun _ => 0⟩, rfl, System.exec_run rfl⟩
  have htokens := sem_tokens hreach
  exact ⟨_, hreach, htokens.1, htokens.2.2.2.2 2⟩

end LightControlMonitor.Kernel
