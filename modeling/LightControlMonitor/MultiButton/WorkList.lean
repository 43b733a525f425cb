import LightControlMonitor.Lib.Chain
import LightControlMonitor.Lib.Transition
import Mathlib.Data.Fintype.Card

/-!
# The list of started buttons

`button_start`, `button_stop` and the loop of `button_ticks` over `head_handle` and the `next` pointers. `button_ticks` runs in the interrupt of a timer, so it may run between the two stores of `button_start`. The handle is linked to the rest of the list before it becomes the head, so the interrupt finds the list as it was before the call or as it is after it.

The loops have fuel for one step more than there are handles. A list that visits no handle twice never uses it up.
-/

namespace LightControlMonitor.MultiButton

open Transition (System Reaches)
open Chain (Seg)

variable {H : Type*} [DecidableEq H]

/-- `head_handle` and the field `next` of every handle. -/
structure WorkList (H : Type*) where
  headHandle : Option H
  next : H → Option H

/-- A `struct Button**`: the head, or the field `next` of a handle. -/
inductive Link (H : Type*)
  | head
  | next (handle : H)

def WorkList.read (w : WorkList H) : Link H → Option H
  | .head => w.headHandle
  | .next handle => w.next handle

def WorkList.write (w : WorkList H) (target : Option H) : Link H → WorkList H
  | .head => { w with headHandle := target }
  | .next handle => { w with next := Function.update w.next handle target }

/-- The search of `button_start`. -/
def WorkList.isStarted (w : WorkList H) (handle : H) : Nat → Option H → Option Bool
  | 0, _ => none
  | _ + 1, none => some false
  | fuel + 1, some target => if target = handle then some true else w.isStarted handle fuel (w.next target)

/-- The first store of `button_start`. -/
def WorkList.linkNext (w : WorkList H) (handle : H) : WorkList H := w.write w.headHandle (.next handle)

/-- The second store of `button_start`. -/
def WorkList.linkHead (w : WorkList H) (handle : H) : WorkList H := w.write (some handle) .head

def WorkList.buttonStart (w : WorkList H) (fuel : Nat) (handle : H) : Option (WorkList H × Int) :=
  (w.isStarted handle fuel w.headHandle).map fun started =>
    if started then (w, -1) else ((w.linkNext handle).linkHead handle, 0)

/-- The loop of `button_stop`. -/
def WorkList.stopLoop (w : WorkList H) (handle : H) : Nat → Link H → Option (WorkList H)
  | 0, _ => none
  | fuel + 1, curr =>
    match w.read curr with
    | none => some w
    | some entry =>
      if entry = handle then some (w.write (w.next entry) curr) else w.stopLoop handle fuel (.next entry)

/-- The handles that the loop of `button_ticks` visits. -/
def WorkList.ticksLoop (w : WorkList H) : Nat → Option H → Option (List H)
  | 0, _ => none
  | _ + 1, none => some []
  | fuel + 1, some target => (w.ticksLoop fuel (w.next target)).map (target :: ·)

/-! ### The operations on a list without repetitions -/

/-- The list is `handles`, the head first. -/
structure WorkList.Holds (w : WorkList H) (handles : List H) : Prop where
  seg : Seg w.next w.headHandle handles none
  nodup : handles.Nodup

theorem WorkList.isStarted_eq {w : WorkList H} {p : Option H} {handles : List H} {fuel : Nat}
    (hseg : Seg w.next p handles none) (hfuel : handles.length < fuel) (handle : H) :
    w.isStarted handle fuel p = some (decide (handle ∈ handles)) := by
  induction handles generalizing p fuel with
  | nil =>
    obtain ⟨fuel, rfl⟩ := Nat.exists_eq_add_of_lt hfuel
    obtain rfl : p = none := hseg
    simp [isStarted]
  | cons target handles ih =>
    obtain ⟨rfl, hrest⟩ := hseg
    cases fuel with
    | zero => exact absurd hfuel (Nat.not_lt_zero _)
    | succ fuel =>
      rw [isStarted, ih hrest (Nat.lt_of_succ_lt_succ hfuel)]
      by_cases htarget : target = handle
      · simp [htarget]
      · simp [htarget, Ne.symm htarget]

omit [DecidableEq H] in
theorem WorkList.ticksLoop_eq {w : WorkList H} {p : Option H} {handles : List H} {fuel : Nat}
    (hseg : Seg w.next p handles none) (hfuel : handles.length < fuel) : w.ticksLoop fuel p = some handles := by
  induction handles generalizing p fuel with
  | nil =>
    obtain ⟨fuel, rfl⟩ := Nat.exists_eq_add_of_lt hfuel
    obtain rfl : p = none := hseg
    simp [ticksLoop]
  | cons target handles ih =>
    obtain ⟨rfl, hrest⟩ := hseg
    cases fuel with
    | zero => exact absurd hfuel (Nat.not_lt_zero _)
    | succ fuel => rw [ticksLoop, ih hrest (Nat.lt_of_succ_lt_succ hfuel), Option.map_some]

theorem WorkList.Holds.linkNext {w : WorkList H} {handles : List H} (hw : w.Holds handles) {handle : H}
    (hnew : handle ∉ handles) : (w.linkNext handle).Holds handles :=
  ⟨hw.seg.update_of_notMem hnew, hw.nodup⟩

theorem WorkList.Holds.linkHead {w : WorkList H} {handles : List H} (hw : w.Holds handles) {handle : H}
    (hnew : handle ∉ handles) (hnext : w.next handle = w.headHandle) : (w.linkHead handle).Holds (handle :: handles) :=
  ⟨⟨rfl, by rw [show (w.linkHead handle).next handle = w.headHandle from hnext]; exact hw.seg⟩,
    List.nodup_cons.mpr ⟨hnew, hw.nodup⟩⟩

/-- The link behind the handles `before`. -/
def lastLink (before : List H) : Link H :=
  match before.getLast? with
  | none => .head
  | some handle => .next handle

omit [DecidableEq H] in
theorem lastLink_append_singleton (front : List H) (handle : H) : lastLink (front ++ [handle]) = .next handle := by
  simp [lastLink]

omit [DecidableEq H] in
theorem WorkList.read_lastLink {w : WorkList H} {before : List H} {p : Option H}
    (hseg : Seg w.next w.headHandle before p) : w.read (lastLink before) = p := by
  rcases List.eq_nil_or_concat' before with rfl | ⟨front, handle, rfl⟩
  · exact hseg
  · obtain ⟨r, -, -, hlast⟩ := Chain.seg_append.mp hseg
    rw [lastLink_append_singleton]
    exact hlast

/-- Storing the link of a handle behind the handles in front of it takes it out of the list. -/
theorem WorkList.Holds.unlink {w : WorkList H} {before rest : List H} {handle : H}
    (hw : w.Holds (before ++ handle :: rest)) : (w.write (w.next handle) (lastLink before)).Holds (before ++ rest) := by
  obtain ⟨hseg, hnodup⟩ := hw
  have hsublist : (before ++ rest).Nodup :=
    hnodup.sublist ((List.sublist_cons_self handle rest).append_left before)
  refine ⟨?_, hsublist⟩
  obtain ⟨r, hbefore, rfl, hrest⟩ := Chain.seg_append.mp hseg
  rcases List.eq_nil_or_concat' before with rfl | ⟨front, last, rfl⟩
  · exact hrest
  · obtain ⟨q, hfront, rfl, -⟩ := Chain.seg_append.mp hbefore
    rw [List.append_assoc, List.nodup_append'] at hsublist
    obtain ⟨-, hlast, hdisjoint⟩ := hsublist
    have hnotFront : last ∉ front := fun h => hdisjoint h List.mem_cons_self
    have hnotRest : last ∉ rest := (List.nodup_cons.mp hlast).1
    rw [lastLink_append_singleton]
    refine Chain.seg_append.mpr ⟨w.next handle, Chain.seg_append.mpr ⟨some last, ?_, rfl, ?_⟩, ?_⟩
    · exact hfront.update_of_notMem hnotFront
    · exact Function.update_self last (w.next handle) w.next
    · exact hrest.update_of_notMem hnotRest

theorem WorkList.Holds.stopLoop {w : WorkList H} (handle : H) (before : List H) {rest : List H} {fuel : Nat}
    (hw : w.Holds (before ++ rest)) (hbefore : handle ∉ before) (hfuel : rest.length < fuel) :
    ∃ w', w.stopLoop handle fuel (lastLink before) = some w' ∧ w'.Holds ((before ++ rest).erase handle) := by
  induction rest generalizing before fuel with
  | nil =>
    obtain ⟨fuel, rfl⟩ := Nat.exists_eq_add_of_lt hfuel
    obtain ⟨r, hseg, rfl⟩ := Chain.seg_append.mp hw.seg
    refine ⟨w, ?_, ?_⟩
    · simp [WorkList.stopLoop, WorkList.read_lastLink hseg]
    · rw [List.append_nil] at hw ⊢
      rwa [List.erase_of_not_mem hbefore]
  | cons entry rest ih =>
    cases fuel with
    | zero => exact absurd hfuel (Nat.not_lt_zero _)
    | succ fuel =>
      obtain ⟨r, hseg, rfl, -⟩ := Chain.seg_append.mp hw.seg
      rw [WorkList.stopLoop, WorkList.read_lastLink hseg]
      dsimp only
      by_cases hentry : entry = handle
      · subst hentry
        rw [if_pos rfl]
        refine ⟨_, rfl, ?_⟩
        rw [List.erase_append_right _ hbefore, List.erase_cons_head]
        exact hw.unlink
      · rw [if_neg hentry]
        have hnext := ih (before ++ [entry]) (by rwa [List.append_assoc]) (by simp [hbefore, Ne.symm hentry])
          (Nat.lt_of_succ_lt_succ hfuel)
        rw [List.append_assoc] at hnext
        rwa [lastLink_append_singleton] at hnext

/-! ### Calls and interrupts -/

/-- The list, and the handle that `button_start` has linked to the list but not yet made its head. -/
structure WorkState (H : Type*) where
  workList : WorkList H
  starting : Option H

inductive WorkAction (H : Type*)
  | start (handle : H)
  | setHead
  | stop (handle : H)
  | ticks

/-- A handle that entered the list, one that `button_start` refused with -1, one that was stopped, and the handles one interrupt visited. -/
inductive WorkEvent (H : Type*)
  | started (handle : H)
  | refused (handle : H)
  | stopped (handle : H)
  | visited (handles : List H)

/-- The calls come from one thread, so none begins inside another; the interrupt may come at any time. -/
def WorkEnabled (s : WorkState H) : WorkAction H → Prop
  | .start _ => s.starting = none
  | .setHead => s.starting ≠ none
  | .stop _ => s.starting = none
  | .ticks => True

def workStep (fuel : Nat) (s : WorkState H) : WorkAction H → Option (WorkState H × List (WorkEvent H))
  | .start handle =>
    (s.workList.isStarted handle fuel s.workList.headHandle).map fun started =>
      if started then (s, [.refused handle])
      else ({ workList := s.workList.linkNext handle, starting := some handle }, [])
  | .setHead =>
    s.starting.map fun handle => ({ workList := s.workList.linkHead handle, starting := none }, [.started handle])
  | .stop handle =>
    (s.workList.stopLoop handle fuel .head).map fun w => ({ s with workList := w }, [.stopped handle])
  | .ticks => (s.workList.ticksLoop fuel s.workList.headHandle).map fun handles => (s, [.visited handles])

def workSystem (H : Type*) [DecidableEq H] [Fintype H] : System (WorkState H) (WorkAction H) (WorkEvent H) where
  init s := s.workList.headHandle = none ∧ s.starting = none
  enabled := WorkEnabled
  step := workStep (Fintype.card H + 1)

/-- The handles started and not stopped since, the latest first. -/
def startedOf (es : List (WorkEvent H)) : List H :=
  es.foldl (fun handles e =>
    match e with
    | .started handle => handle :: handles
    | .stopped handle => handles.erase handle
    | _ => handles) []

theorem startedOf_snoc (es : List (WorkEvent H)) (e : WorkEvent H) :
    startedOf (es ++ [e]) =
      match e with
      | .started handle => handle :: startedOf es
      | .stopped handle => (startedOf es).erase handle
      | _ => startedOf es := by
  unfold startedOf
  rw [List.foldl_append, List.foldl_cons, List.foldl_nil]

/-- The list is the started handles, and a handle on its way into it is none of them and linked to its head. -/
structure WorkState.Holds (s : WorkState H) (handles : List H) : Prop where
  list : s.workList.Holds handles
  starting_notMem : ∀ handle, s.starting = some handle → handle ∉ handles
  starting_next : ∀ handle, s.starting = some handle → s.workList.next handle = s.workList.headHandle

omit [DecidableEq H] in
theorem WorkState.Holds.length_lt [Fintype H] {s : WorkState H} {handles : List H} (hs : s.Holds handles) :
    handles.length < Fintype.card H + 1 :=
  Nat.lt_succ_of_le hs.list.nodup.length_le_card

section Steps

variable [Fintype H] {s s' : WorkState H} {handles : List H} {out : List (WorkEvent H)}

theorem WorkState.Holds.start (hs : s.Holds handles) (handle : H) :
    workStep (Fintype.card H + 1) s (.start handle) =
      if handle ∈ handles then some (s, [.refused handle])
      else some ({ workList := s.workList.linkNext handle, starting := some handle }, []) := by
  rw [workStep, WorkList.isStarted_eq hs.list.seg hs.length_lt, Option.map_some]
  by_cases hmem : handle ∈ handles <;> simp [hmem]

theorem WorkState.Holds.ticks (hs : s.Holds handles) :
    workStep (Fintype.card H + 1) s .ticks = some (s, [.visited handles]) := by
  rw [workStep, WorkList.ticksLoop_eq hs.list.seg hs.length_lt, Option.map_some]

theorem WorkState.Holds.stop (hs : s.Holds handles) (hidle : s.starting = none) (handle : H) :
    ∃ w, workStep (Fintype.card H + 1) s (.stop handle) = some ({ s with workList := w }, [.stopped handle]) ∧
      WorkState.Holds { s with workList := w } (handles.erase handle) := by
  obtain ⟨w, hstop, hw⟩ :=
    WorkList.Holds.stopLoop handle [] hs.list List.not_mem_nil hs.length_lt
  refine ⟨w, ?_, hw, ?_, ?_⟩
  · rw [workStep]
    exact congrArg (Option.map _) hstop
  · intro h hstarting
    exact absurd (hidle.symm.trans hstarting) (by simp)
  · intro h hstarting
    exact absurd (hidle.symm.trans hstarting) (by simp)

end Steps

theorem workState_holds [Fintype H] {as : List (WorkAction H)} {es : List (WorkEvent H)} {s : WorkState H}
    (hreach : Reaches (workSystem H) as es s) : s.Holds (startedOf es) := by
  refine hreach.invariant (fun _ es s => s.Holds (startedOf es)) ?_ ?_
  · rintro s ⟨hhead, hstarting⟩
    exact ⟨⟨hhead, List.nodup_nil⟩, by simp [hstarting], by simp [hstarting]⟩
  · intro as es s a out s' hs henabled hstep
    cases a with
    | start handle =>
      rw [show (workSystem H).step s (.start handle) = _ from hs.start handle] at hstep
      split_ifs at hstep with hmem
      · obtain ⟨rfl, rfl⟩ := Prod.mk.inj (Option.some.inj hstep)
        rwa [startedOf_snoc]
      · obtain ⟨rfl, rfl⟩ := Prod.mk.inj (Option.some.inj hstep)
        rw [List.append_nil]
        refine ⟨hs.list.linkNext hmem, ?_, ?_⟩
        · rintro h ⟨⟩
          exact hmem
        · rintro h ⟨⟩
          exact Function.update_self handle s.workList.headHandle s.workList.next
    | setHead =>
      obtain ⟨handle, hstarting, hs'⟩ := Option.map_eq_some_iff.mp hstep
      obtain ⟨rfl, rfl⟩ := Prod.mk.inj hs'
      rw [startedOf_snoc]
      refine ⟨hs.list.linkHead (hs.starting_notMem handle hstarting) (hs.starting_next handle hstarting), ?_, ?_⟩
      · simp
      · simp
    | stop handle =>
      obtain ⟨w, hstop, hw⟩ := hs.stop henabled handle
      obtain ⟨rfl, rfl⟩ := Prod.mk.inj (Option.some.inj (hstop.symm.trans hstep))
      rwa [startedOf_snoc]
    | ticks =>
      obtain ⟨rfl, rfl⟩ := Prod.mk.inj (Option.some.inj (hs.ticks.symm.trans hstep))
      rwa [startedOf_snoc]

/-- At every point of a run, also between the two stores of `button_start`, an interrupt visits the handles that are started and not stopped, each once and the latest first; no loop runs on, and a call refuses exactly the handles that are started. -/
theorem work_list_serves_started [Fintype H] {as : List (WorkAction H)} {es : List (WorkEvent H)} {s : WorkState H}
    (hreach : Reaches (workSystem H) as es s) :
    (startedOf es).Nodup ∧ (workSystem H).step s .ticks = some (s, [.visited (startedOf es)]) ∧
      (∀ a, (workSystem H).enabled s a → ((workSystem H).step s a).isSome) ∧
      ∀ handle, (workSystem H).enabled s (.start handle) →
        ((workSystem H).step s (.start handle) = some (s, [.refused handle]) ↔ handle ∈ startedOf es) := by
  have hs := workState_holds hreach
  refine ⟨hs.list.nodup, hs.ticks, ?_, ?_⟩
  · intro a henabled
    cases a with
    | start handle =>
      rw [show (workSystem H).step s (.start handle) = _ from hs.start handle]
      split_ifs <;> rfl
    | setHead =>
      obtain ⟨handle, hstarting⟩ := Option.ne_none_iff_exists'.mp henabled
      simp [workSystem, workStep, hstarting]
    | stop handle =>
      obtain ⟨w, hstop, -⟩ := hs.stop henabled handle
      exact Option.isSome_iff_exists.mpr ⟨_, hstop⟩
    | ticks => exact Option.isSome_iff_exists.mpr ⟨_, hs.ticks⟩
  · intro handle _
    rw [show (workSystem H).step s (.start handle) = _ from hs.start handle]
    split_ifs with hmem
    · simp [hmem]
    · simp [hmem]

instance workSystem.decidableEnabled [Fintype H] (s : WorkState H) :
    (a : WorkAction H) → Decidable ((workSystem H).enabled s a)
  | .start _ => inferInstanceAs (Decidable (s.starting = none))
  | .setHead => inferInstanceAs (Decidable (s.starting ≠ none))
  | .stop _ => inferInstanceAs (Decidable (s.starting = none))
  | .ticks => inferInstanceAs (Decidable True)

/-- Two handles are started, and the interrupt comes between the stores of the second call. -/
theorem work_list_serves_started_between_stores :
    (workSystem (Fin 2)).step
        { workList := (((WorkList.mk none fun _ => none).linkNext 0).linkHead 0).linkNext 1, starting := some 1 } .ticks =
      some ({ workList := (((WorkList.mk none fun _ => none).linkNext 0).linkHead 0).linkNext 1, starting := some 1 },
        [.visited [0]]) := by
  have hreach : Reaches (workSystem (Fin 2)) [.start 0, .setHead, .start 1] [.started 0]
      { workList := (((WorkList.mk none fun _ => none).linkNext 0).linkHead 0).linkNext 1, starting := some 1 } :=
    ⟨{ workList := WorkList.mk none fun _ => none, starting := none }, ⟨rfl, rfl⟩, System.exec_run rfl⟩
  exact (work_list_serves_started hreach).2.1

end LightControlMonitor.MultiButton
