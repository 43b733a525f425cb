import LightControlMonitor.Hmi.Menu
import LightControlMonitor.MultiButton.Clicks
import LightControlMonitor.MultiButton.WorkList
import Mathlib.Data.List.Infix

/-!
# The keys of the display

`buttons_init` and the timer interrupt of `key_function.c` beside the display loop. Only `SINGLE_CLICK` has a callback, so a key function runs exactly when a series of presses with one press modulo 16 ends, and within one interrupt in the order of the list: enter, down, up, set.

The menu system of `Menu.lean` lets any key function run at any moment. Every run of the display loop with the real keys is one of its runs, and it is the one in which the callbacks of the clicked keys run, each at the tick that ends its click.
-/

namespace LightControlMonitor.MultiButton

open Transition (System Run Reaches)
open Hmi (Key KeyFunction MenuLoop MenuEvent MenuAction menuSystem keyCb)

/-- What the timer interrupt and the display loop share; `button` and `workList` belong to the interrupt. -/
structure KeyedMenu where
  menu : MenuLoop
  button : Key → Button
  workList : WorkList Key

/-- An event of the display, and a callback `key_set_cb` to `key_enter_cb`. -/
inductive KeyedEvent
  | menu (e : MenuEvent)
  | clicked (key : Key)

/-- The list that the loop of `buttons_init` builds. -/
def buttonsInit : Option (WorkList Key) :=
  [Key.set, Key.up, Key.down, Key.enter].foldlM (fun w key => (w.buttonStart 5 key).map Prod.fst)
    { headHandle := none, next := fun _ => none }

/-- `button_handler` of one key, with the callback attached to `SINGLE_CLICK`. -/
def keyTick (pins : Key → Bool) (s : KeyedMenu) (key : Key) : Option (KeyedMenu × List KeyedEvent) :=
  let handled := buttonHandler (s.button key) (pins key)
  let called := handled.2.filter (· = .singleClick)
  (called.foldlM (fun menu _ => keyCb key menu) s.menu).map fun menu =>
    ({ s with menu := menu, button := Function.update s.button key handled.1 },
      called.flatMap fun _ => [KeyedEvent.clicked key, KeyedEvent.menu MenuEvent.key])

def keyTicks (pins : Key → Bool) : List Key → KeyedMenu → Option (KeyedMenu × List KeyedEvent)
  | [], s => some (s, [])
  | key :: keys, s =>
    (keyTick pins s key).bind fun next => (keyTicks pins keys next.1).map fun last => (last.1, next.2 ++ last.2)

inductive KeyedAction
  | loop
  | ticks (pins : Key → Bool)

/-- A statement of the display loop, or `button_ticks` with what the pins of the keys read. -/
def keyedStep (s : KeyedMenu) : KeyedAction → Option (KeyedMenu × List KeyedEvent)
  | .loop => s.menu.loopStep.map fun next => ({ s with menu := next.1 }, next.2.map .menu)
  | .ticks pins => (s.workList.ticksLoop 5 s.workList.headHandle).bind fun keys => keyTicks pins keys s

/-- The pins read `levels` in `buttons_init`; the active level is 0. -/
def keyedSystem (levels : Key → Bool) : System KeyedMenu KeyedAction KeyedEvent where
  init s := s.menu = .start ∧ (∀ key, s.button key = buttonInit (levels key) false) ∧ buttonsInit = some s.workList
  enabled _ _ := True
  step := keyedStep

/-! ### The specification -/

/-- The keys of the list of `button_ticks` in its order. -/
def keyOrder : List Key := [.enter, .down, .up, .set]

open Classical in
/-- The keys whose readings end a single click. -/
noncomputable def clickedKeys (levels : Key → Bool) (pins : List (Key → Bool)) : List Key :=
  keyOrder.filter fun key => ∃ n, SeriesEnds (levels key) false (pins.map (· key)) n ∧ n % 16 = 1

/-- The single clicks of a history of readings, in the order of the ticks. -/
noncomputable def clicks (levels : Key → Bool) (pins : List (Key → Bool)) : List Key :=
  pins.inits.flatMap (clickedKeys levels)

/-- The display loop beside the callbacks of the keys. -/
inductive CallbackAction
  | loop
  | key (key : Key)

def callbackSystem : System MenuLoop CallbackAction MenuEvent where
  init s := s = .start
  enabled _ _ := True
  step s
    | .loop => s.loopStep
    | .key key => (keyCb key s).map fun s' => (s', [.key])

def pinsOf (as : List KeyedAction) : List (Key → Bool) :=
  as.filterMap fun a =>
    match a with
    | .loop => none
    | .ticks pins => some pins

/-- What a history of the interrupts and the loop comes to: the statements of the loop, and for each interrupt the callbacks of the keys whose single click its readings end. -/
noncomputable def callbacks (levels : Key → Bool) (as : List KeyedAction) : List CallbackAction :=
  as.inits.flatMap fun before =>
    match before.getLast? with
    | none => []
    | some .loop => [.loop]
    | some (.ticks _) => (clickedKeys levels (pinsOf before)).map .key

def clickedOf (es : List KeyedEvent) : List Key :=
  es.filterMap fun e =>
    match e with
    | .menu _ => none
    | .clicked key => some key

def menuOf (es : List KeyedEvent) : List MenuEvent :=
  es.filterMap fun e =>
    match e with
    | .menu e => some e
    | .clicked _ => none

theorem not_seriesEnds_nil (level active : Bool) (n : Nat) : ¬ SeriesEnds level active [] n := by
  rintro ⟨m, presses, -, -, hdrop⟩
  simpa [debouncedLevels] using congrArg List.length hdrop

theorem clicks_nil (levels : Key → Bool) : clicks levels [] = [] := by
  simp [clicks, clickedKeys, not_seriesEnds_nil]

theorem clicks_snoc (levels : Key → Bool) (pins : List (Key → Bool)) (read : Key → Bool) :
    clicks levels (pins ++ [read]) = clicks levels pins ++ clickedKeys levels (pins ++ [read]) := by
  simp [clicks, List.inits_append]

theorem callbacks_loop (levels : Key → Bool) (as : List KeyedAction) :
    callbacks levels (as ++ [.loop]) = callbacks levels as ++ [.loop] := by
  simp [callbacks, List.inits_append]

theorem callbacks_ticks (levels : Key → Bool) (as : List KeyedAction) (pins : Key → Bool) :
    callbacks levels (as ++ [.ticks pins]) =
      callbacks levels as ++ (clickedKeys levels (pinsOf as ++ [pins])).map .key := by
  simp [callbacks, List.inits_append, pinsOf]

theorem exists_run_of_keyCb {key : Key} {s s' : MenuLoop} (hcall : keyCb key s = some s') :
    ∃ keyFunction : KeyFunction, s' = keyFunction.run s := by
  obtain ⟨row, -, hrest⟩ := Option.bind_eq_some_iff.mp hcall
  obtain ⟨keyFunction, -, hrun⟩ := Option.bind_eq_some_iff.mp hrest
  exact ⟨keyFunction, (Option.some.inj hrun).symm⟩

theorem menu_of_callbacks {bs : List CallbackAction} {es : List MenuEvent} {s : MenuLoop}
    (hreach : Reaches callbackSystem bs es s) : ∃ as, Reaches menuSystem as es s := by
  apply hreach.invariant (fun _ es s => ∃ as, Reaches menuSystem as es s)
  · exact fun s hinit => ⟨[], s, hinit, .nil⟩
  · rintro bs es s a out s' ⟨as, h⟩ - hstep
    cases a with
    | loop =>
      have hloop : menuSystem.step s .loop = some (s', out) := hstep
      exact ⟨as ++ [.loop], h.append (.single trivial hloop)⟩
    | key key =>
      obtain ⟨s₁, hcall, heq⟩ := Option.map_eq_some_iff.mp hstep
      obtain ⟨rfl, rfl⟩ := Prod.mk.inj heq
      obtain ⟨keyFunction, rfl⟩ := exists_run_of_keyCb hcall
      exact ⟨as ++ [.key keyFunction], h.append (.single trivial rfl)⟩

/-! ### One interrupt -/

/-- A tick calls the callback of a single click at most once. -/
theorem Button.machine_singleClick (b : Button) :
    b.machine.2.filter (· = .singleClick) = [] ∨ b.machine.2.filter (· = .singleClick) = [.singleClick] := by
  unfold machine
  repeat' split
  all_goals simp

theorem buttonHandler_singleClick (b : Button) (read : Bool) :
    (buttonHandler b read).2.filter (· = .singleClick) =
      if .singleClick ∈ (buttonHandler b read).2 then [.singleClick] else [] := by
  rcases (b.count.debounce read).machine_singleClick with h | h
  · rw [buttonHandler, h, if_neg]
    intro hmem
    exact List.filter_eq_nil_iff.mp h _ hmem (by simp)
  · rw [buttonHandler, h, if_pos]
    exact (List.mem_filter.mp (h ▸ List.mem_singleton_self PressEvent.singleClick)).1

/-- What one interrupt has done to the keys it has visited. -/
structure Ticked (pins : Key → Bool) (keys : List Key) (s s' : KeyedMenu) (out : List KeyedEvent) : Prop where
  menu : Run callbackSystem s.menu ((clickedOf out).map .key) (menuOf out) s'.menu
  workList : s'.workList = s.workList
  button : ∀ key, s'.button key = if key ∈ keys then (buttonHandler (s.button key) (pins key)).1 else s.button key
  clicked : clickedOf out = keys.filter fun key => .singleClick ∈ (buttonHandler (s.button key) (pins key)).2

theorem keyTick_spec (pins : Key → Bool) {s : KeyedMenu} {bs : List CallbackAction} {es : List MenuEvent}
    (hreach : Reaches callbackSystem bs es s.menu) (key : Key) :
    ∃ s' out, keyTick pins s key = some (s', out) ∧ Ticked pins [key] s s' out := by
  have hbutton : ∀ k, Function.update s.button key (buttonHandler (s.button key) (pins key)).1 k =
      if k ∈ [key] then (buttonHandler (s.button k) (pins k)).1 else s.button k := by
    intro k
    by_cases hk : k = key
    · subst hk
      simp
    · simp [hk]
  unfold keyTick
  dsimp only
  rw [buttonHandler_singleClick]
  by_cases hclick : .singleClick ∈ (buttonHandler (s.button key) (pins key)).2
  · obtain ⟨as, hmenu⟩ := menu_of_callbacks hreach
    obtain ⟨keyFunction, hrun⟩ := Hmi.keyCb_eq_run hmenu key
    have hcall : callbackSystem.step s.menu (.key key) = some (keyFunction.run s.menu, [.key]) := by
      change (keyCb key s.menu).map _ = _
      rw [hrun, Option.map_some]
    rw [if_pos hclick]
    refine ⟨_, _, by simp [hrun]; exact ⟨rfl, rfl⟩, ?_⟩
    exact ⟨.single trivial hcall, rfl, hbutton, by simp [clickedOf, hclick]⟩
  · rw [if_neg hclick]
    refine ⟨_, _, by simp; exact ⟨rfl, rfl⟩, ?_⟩
    exact ⟨.nil, rfl, hbutton, by simp [clickedOf, hclick]⟩

theorem keyTicks_spec (pins : Key → Bool) {keys : List Key} (hnodup : keys.Nodup) {s : KeyedMenu}
    {bs : List CallbackAction} {es : List MenuEvent} (hreach : Reaches callbackSystem bs es s.menu) :
    ∃ s' out, keyTicks pins keys s = some (s', out) ∧ Ticked pins keys s s' out := by
  induction keys generalizing s bs es with
  | nil => exact ⟨s, [], rfl, .nil, rfl, by simp, rfl⟩
  | cons key keys ih =>
    obtain ⟨hnotMem, hrest⟩ := List.nodup_cons.mp hnodup
    obtain ⟨mid, out, hmid, hrun₁, hlist₁, hbutton₁, hclicked₁⟩ := keyTick_spec pins hreach key
    obtain ⟨s', out', hlast, hrun₂, hlist₂, hbutton₂, hclicked₂⟩ := ih hrest (hreach.append hrun₁)
    have hothers : ∀ k ∈ keys, mid.button k = s.button k := by
      intro k hk
      rw [hbutton₁, if_neg]
      rintro hmem
      exact hnotMem (List.mem_singleton.mp hmem ▸ hk)
    refine ⟨s', out ++ out', by rw [keyTicks, hmid, Option.bind_some, hlast, Option.map_some], ?_, ?_, ?_, ?_⟩
    · simpa [menuOf, clickedOf] using hrun₁.append hrun₂
    · rw [hlist₂, hlist₁]
    · intro k
      rw [hbutton₂]
      by_cases hk : k ∈ keys
      · rw [if_pos hk, if_pos (List.mem_cons_of_mem key hk), hothers k hk]
      · rw [if_neg hk, hbutton₁]
        simp [hk]
    · have hclicked : clickedOf (out ++ out') = clickedOf out ++ clickedOf out' := List.filterMap_append
      change clickedOf (out ++ out') = ([key] ++ keys).filter _
      rw [hclicked, hclicked₁, hclicked₂, List.filter_append]
      congr 1
      exact List.filter_congr fun k hk => by rw [hothers k hk]

/-! ### Runs -/

structure KeyedInv (levels : Key → Bool) (as : List KeyedAction) (es : List KeyedEvent) (s : KeyedMenu) : Prop where
  menu : Reaches callbackSystem (callbacks levels as) (menuOf es) s.menu
  workList : buttonsInit = some s.workList
  button : ∀ key, s.button key = ((buttonInit (levels key) false).polls ((pinsOf as).map (· key))).1
  clicked : clickedOf es = clicks levels (pinsOf as)

theorem ticksLoop_buttonsInit {w : WorkList Key} (hinit : buttonsInit = some w) :
    w.ticksLoop 5 w.headHandle = some keyOrder := by
  have horder : buttonsInit.bind (fun w => w.ticksLoop 5 w.headHandle) = some keyOrder := rfl
  rwa [hinit] at horder

theorem KeyedInv.ticks {levels : Key → Bool} {as : List KeyedAction} {es : List KeyedEvent} {s : KeyedMenu}
    (h : KeyedInv levels as es s) (pins : Key → Bool) :
    ∃ s' out, keyedStep s (.ticks pins) = some (s', out) ∧ KeyedInv levels (as ++ [.ticks pins]) (es ++ out) s' := by
  obtain ⟨hreach, hlist, hbutton, hclicked⟩ := h
  obtain ⟨s', out, hticks, hrun, hlist', hbutton', hclicked'⟩ :=
    keyTicks_spec pins (by decide : keyOrder.Nodup) hreach
  have hpins : pinsOf (as ++ [.ticks pins]) = pinsOf as ++ [pins] := by simp [pinsOf]
  have hkeys : clickedOf out = clickedKeys levels (pinsOf as ++ [pins]) := by
    rw [hclicked']
    refine List.filter_congr fun key _ => ?_
    rw [hbutton, List.map_append, List.map_singleton]
    exact decide_eq_decide.mpr (single_click_iff (levels key) false _ (pins key))
  refine ⟨s', out, by rw [keyedStep, ticksLoop_buttonsInit hlist, Option.bind_some, hticks], ?_, ?_, ?_, ?_⟩
  · rw [callbacks_ticks, ← hkeys]
    simpa [menuOf] using hreach.append hrun
  · rw [hlist, hlist']
  · intro key
    have hkey : key ∈ keyOrder := by cases key <;> decide
    rw [hbutton', if_pos hkey, hpins, List.map_append, List.map_singleton, Button.polls_snoc, hbutton]
  · have happend : clickedOf (es ++ out) = clickedOf es ++ clickedOf out := List.filterMap_append
    rw [happend, hpins, clicks_snoc, hclicked, hkeys]

theorem keyedInv_of_reaches {levels : Key → Bool} {as : List KeyedAction} {es : List KeyedEvent} {s : KeyedMenu}
    (hreach : Reaches (keyedSystem levels) as es s) : KeyedInv levels as es s := by
  refine hreach.invariant (KeyedInv levels) ?_ ?_
  · rintro s ⟨hmenu, hbutton, hlist⟩
    exact ⟨⟨.start, rfl, by rw [hmenu]; exact .nil⟩, hlist, hbutton, (clicks_nil levels).symm⟩
  · intro as es s a out s' h _ hstep
    cases a with
    | loop =>
      obtain ⟨hmenu, hlist, hbutton, hclicked⟩ := h
      obtain ⟨⟨menu, drawn⟩, hloop, hs'⟩ := Option.map_eq_some_iff.mp hstep
      obtain ⟨rfl, rfl⟩ := Prod.mk.inj hs'
      have hpins : pinsOf (as ++ [KeyedAction.loop]) = pinsOf as := by simp [pinsOf]
      have hdrawn : menuOf (es ++ drawn.map KeyedEvent.menu) = menuOf es ++ drawn := by
        simp [menuOf, List.filterMap_map]
      have hnone : clickedOf (es ++ drawn.map KeyedEvent.menu) = clickedOf es := by
        simp [clickedOf, List.filterMap_map]
      refine ⟨?_, hlist, ?_, ?_⟩
      · rw [hdrawn, callbacks_loop]
        exact hmenu.append (.single trivial hloop)
      · rw [hpins]
        exact hbutton
      · rw [hpins, hnone, hclicked]
    | ticks pins =>
      obtain ⟨s'', out', hticks, hinv⟩ := h.ticks pins
      obtain ⟨rfl, rfl⟩ := Prod.mk.inj (Option.some.inj (hticks.symm.trans hstep))
      exact hinv

/-- The run of the display with its keys is the run of the display loop in which the callbacks are called for exactly the single clicks on each pin, at the ticks that end them. No interrupt and no statement of the loop goes wrong, and what happens is a run of the menu system. -/
theorem keys_run_menu {levels : Key → Bool} {as : List KeyedAction} {es : List KeyedEvent} {s : KeyedMenu}
    (hreach : Reaches (keyedSystem levels) as es s) :
    Reaches callbackSystem (callbacks levels as) (menuOf es) s.menu ∧ (∃ bs, Reaches menuSystem bs (menuOf es) s.menu) ∧
      clickedOf es = clicks levels (pinsOf as) ∧ ∀ a, ((keyedSystem levels).step s a).isSome := by
  have hinv := keyedInv_of_reaches hreach
  obtain ⟨bs, hmenu⟩ := menu_of_callbacks hinv.menu
  refine ⟨hinv.menu, ⟨bs, hmenu⟩, hinv.clicked, ?_⟩
  intro a
  cases a with
  | loop =>
    change (s.menu.loopStep.map _).isSome
    rw [Option.isSome_map]
    exact Hmi.menuStep_isSome hmenu .loop
  | ticks pins =>
    obtain ⟨s', out, hticks, -⟩ := hinv.ticks pins
    exact Option.isSome_iff_exists.mpr ⟨_, hticks⟩

instance keyedSystem.decidableEnabled (levels : Key → Bool) (s : KeyedMenu) (a : KeyedAction) :
    Decidable ((keyedSystem levels).enabled s a) :=
  inferInstanceAs (Decidable True)

/-- An iteration of the loop begins, and the key up is pressed for five ticks. -/
def press : List KeyedAction :=
  .loop :: (List.replicate 5 (.ticks fun key => key ≠ .up) ++ List.replicate 64 (.ticks fun _ => true)) ++ [.loop]

theorem buttonsInit_isSome : buttonsInit.isSome := rfl

theorem press_isSome : ((keyedSystem fun _ => true).exec
    ⟨.start, fun _ => buttonInit true false, buttonsInit.get buttonsInit_isSome⟩ press).isSome := by
  decide +kernel

theorem keys_run_menu_press :
    ∃ es s, clickedOf es = [.up] ∧ s.menu.curMenu = 3 ∧
      Reaches callbackSystem (callbacks (fun _ => true) press) (menuOf es) s.menu ∧
      (∃ bs, Reaches menuSystem bs (menuOf es) s.menu) ∧ clickedOf es = clicks (fun _ => true) (pinsOf press) ∧
      ∀ a, ((keyedSystem fun _ => true).step s a).isSome := by
  have hinit : (keyedSystem fun _ => true).init
      ⟨.start, fun _ => buttonInit true false, buttonsInit.get buttonsInit_isSome⟩ :=
    ⟨rfl, fun _ => rfl, (Option.some_get buttonsInit_isSome).symm⟩
  exact ⟨_, _, by decide +kernel, by decide +kernel, keys_run_menu (Reaches.of_exec hinit press_isSome)⟩

end LightControlMonitor.MultiButton
