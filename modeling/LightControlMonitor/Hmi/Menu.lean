import LightControlMonitor.Lib.Transition

/-!
# The current menu

`hmi_test` of `hmi.c` and the key functions of `key_function.c`. The keys are polled in the interrupt of a timer, so a key function runs between any two statements of the display loop, and the loop reads `g_cur_menu` three times in an iteration: in its test, where it remembers the menu, and where it calls the page function.

Only the test decides whether the panel is cleared. A menu that is left after the test and entered again before the next one has been drawn over without a trace, and the pages of both menus stay on the panel.
-/

namespace LightControlMonitor.Hmi

open Transition (System Reaches)

def MENU_HOME : Nat := 0
def MENU_SETTING : Nat := 4
def MENU_NUM : Nat := 5

structure HmiState where
  showResultFlag : Bool
  resetFactoryFlag : Bool
  writeEepromFlag : Bool
  deriving DecidableEq

/-- The entries of `display_table`. -/
inductive PageFunc
  | lmsStatusDisp
  | viDisp
  | upsDisp
  | ioDisp
  | settingsDisp
  deriving DecidableEq

def displayTable : List PageFunc := [.lmsStatusDisp, .viDisp, .upsDisp, .ioDisp, .settingsDisp]

/-- The statements of the loop of `hmi_test` in program order. -/
inductive Place
  | test
  | setLastMenu
  | clear
  | setFirstrun
  | resetShowResult
  | display
  | delay
  deriving DecidableEq

/-- What the loop and the key functions share. `shown` is the index the last call through `display_table` read; only the condition on the keys looks at it. -/
structure MenuLoop where
  curMenu : Nat
  lastMenu : Nat
  firstrun : Bool
  hmiData : HmiState
  place : Place
  shown : Nat
  deriving DecidableEq

/-! ### The keys -/

def pageDown (curMenu : Nat) : Nat := if curMenu < MENU_NUM - 2 then curMenu + 1 else MENU_HOME

def pageUp (curMenu : Nat) : Nat := if curMenu > 0 then curMenu - 1 else MENU_NUM - 2

def pageHome : Nat := 0

def pageSettings : Nat := MENU_SETTING

/-- The entries of `key_func_table`. -/
inductive KeyFunction
  | pageSettings
  | pageUp
  | pageDown
  | pageHome
  | menuHomeKeyEnterFunc
  | menuUpsKeySetFunc
  | menuUpsKeyEnterFunc
  | menuIoKeySetFunc
  | menuIoKeyEnterFunc
  | menuSettingKeySetFunc
  | menuSettingKeyUpFunc
  | menuSettingDownFunc
  | menuSettingKeyEnterFunc
  deriving DecidableEq

def keyFuncTable : List (List KeyFunction) :=
  [[.pageSettings, .pageUp, .pageDown, .pageHome],
    [.pageSettings, .pageUp, .pageDown, .menuHomeKeyEnterFunc],
    [.menuUpsKeySetFunc, .pageUp, .pageDown, .menuUpsKeyEnterFunc],
    [.menuIoKeySetFunc, .pageUp, .pageDown, .menuIoKeyEnterFunc],
    [.menuSettingKeySetFunc, .menuSettingKeyUpFunc, .menuSettingDownFunc, .menuSettingKeyEnterFunc]]

def KeyFunction.run (s : MenuLoop) : KeyFunction → MenuLoop
  | .pageSettings => { s with curMenu := Hmi.pageSettings }
  | .pageUp => { s with curMenu := Hmi.pageUp s.curMenu }
  | .pageDown => { s with curMenu := Hmi.pageDown s.curMenu }
  | .pageHome => { s with curMenu := Hmi.pageHome }
  | .menuHomeKeyEnterFunc => { s with curMenu := Hmi.pageHome }
  | .menuUpsKeySetFunc => s
  | .menuUpsKeyEnterFunc => { s with hmiData.showResultFlag := true }
  | .menuIoKeySetFunc => s
  | .menuIoKeyEnterFunc => { s with hmiData.showResultFlag := true }
  | .menuSettingKeySetFunc => { s with hmiData.writeEepromFlag := true }
  | .menuSettingKeyUpFunc => { s with curMenu := Hmi.pageUp s.curMenu, hmiData.resetFactoryFlag := false }
  | .menuSettingDownFunc => { s with curMenu := Hmi.pageDown s.curMenu, hmiData.resetFactoryFlag := false }
  | .menuSettingKeyEnterFunc => { s with curMenu := Hmi.pageHome, hmiData.resetFactoryFlag := false }

inductive Key
  | set
  | up
  | down
  | enter
  deriving DecidableEq

def Key.index : Key → Nat
  | .set => 0
  | .up => 1
  | .down => 2
  | .enter => 3

/-- `key_set_cb`, `key_up_cb`, `key_down_cb` and `key_enter_cb`. -/
def keyCb (key : Key) (s : MenuLoop) : Option MenuLoop := do
  let row ← keyFuncTable[s.curMenu]?
  let keyFunction ← row[key.index]?
  some (keyFunction.run s)

/-! ### The system -/

/-- What happens on the panel and around it: an iteration starts, the panel is cleared, a page function draws, a key function runs. -/
inductive MenuEvent
  | iteration
  | clear
  | draw (page : PageFunc)
  | key
  deriving DecidableEq

/-- One statement of the loop. `lms_status_disp` ends its first run. -/
def MenuLoop.loopStep (s : MenuLoop) : Option (MenuLoop × List MenuEvent) :=
  match s.place with
  | .test => some ({ s with place := if s.curMenu ≠ s.lastMenu then .setLastMenu else .display }, [.iteration])
  | .setLastMenu => some ({ s with lastMenu := s.curMenu, place := .clear }, [])
  | .clear => some ({ s with place := .setFirstrun }, [.clear])
  | .setFirstrun => some ({ s with firstrun := true, place := .resetShowResult }, [])
  | .resetShowResult => some ({ s with hmiData.showResultFlag := false, place := .display }, [])
  | .display =>
    displayTable[s.curMenu]?.map fun page =>
      ({ s with
        firstrun := if page = .lmsStatusDisp then false else s.firstrun
        shown := s.curMenu
        place := .delay }, [.draw page])
  | .delay => some ({ s with place := .test }, [])

inductive MenuAction
  | loop
  | key (keyFunction : KeyFunction)

def MenuLoop.step (s : MenuLoop) : MenuAction → Option (MenuLoop × List MenuEvent)
  | .loop => s.loopStep
  | .key keyFunction => some (keyFunction.run s, [.key])

def MenuLoop.start : MenuLoop where
  curMenu := 0
  lastMenu := MENU_NUM
  firstrun := true
  hmiData := { showResultFlag := false, resetFactoryFlag := false, writeEepromFlag := false }
  place := .test
  shown := MENU_NUM

def menuSystem : System MenuLoop MenuAction MenuEvent where
  init s := s = .start
  enabled _ _ := True
  step := MenuLoop.step

/-- The pages drawn since the panel was last cleared. -/
def drawn (es : List MenuEvent) : List PageFunc :=
  es.foldl (fun pages e =>
    match e with
    | .clear => []
    | .draw page => pages ++ [page]
    | _ => pages) []

/-- No key function has run since the last iteration started. -/
def quiet (es : List MenuEvent) : Bool :=
  es.foldl (fun quiet e =>
    match e with
    | .iteration => true
    | .key => false
    | _ => quiet) false

/-- Everything on the panel was drawn by the page function of `menu`. -/
def Shows (menu : Nat) (es : List MenuEvent) : Prop := ∀ page ∈ drawn es, displayTable[menu]? = some page

instance Shows.decidable (menu : Nat) (es : List MenuEvent) : Decidable (Shows menu es) :=
  inferInstanceAs (Decidable (∀ page ∈ drawn es, _))

/-- An iteration that no key function interrupted ends with the page of the current menu. -/
def PageOfMenu (es : List MenuEvent) (s : MenuLoop) : Prop :=
  s.place = .test → quiet es = true → Shows s.curMenu es

/-- A test that finds the remembered menu finds the menu that was drawn last. -/
def NotDrawnOver (s : MenuLoop) : MenuAction → Prop
  | .loop => s.place = .test → s.curMenu = s.lastMenu → s.shown = s.lastMenu
  | .key _ => True

instance MenuLoop.decidableNotDrawnOver (s : MenuLoop) : (a : MenuAction) → Decidable (NotDrawnOver s a)
  | .loop => inferInstanceAs (Decidable (_ → _ → _))
  | .key _ => inferInstanceAs (Decidable True)

instance menuSystem.decidableEnabled (s : MenuLoop) (a : MenuAction) : Decidable (menuSystem.enabled s a) :=
  inferInstanceAs (Decidable True)

instance menuSystem.decidableRestrict (s : MenuLoop) (a : MenuAction) :
    Decidable ((menuSystem.restrict NotDrawnOver).enabled s a) :=
  inferInstanceAs (Decidable (True ∧ NotDrawnOver s a))

/-! ### The menus -/

theorem pageDown_lt (curMenu : Nat) : pageDown curMenu < MENU_NUM := by
  unfold pageDown MENU_HOME MENU_NUM
  split <;> omega

theorem pageUp_lt {curMenu : Nat} (hcur : curMenu < MENU_NUM) : pageUp curMenu < MENU_NUM := by
  unfold pageUp MENU_NUM
  unfold MENU_NUM at hcur
  split <;> omega

theorem KeyFunction.run_curMenu_lt {s : MenuLoop} (hcur : s.curMenu < MENU_NUM) (keyFunction : KeyFunction) :
    (keyFunction.run s).curMenu < MENU_NUM := by
  cases keyFunction with
  | pageDown | menuSettingDownFunc => exact pageDown_lt s.curMenu
  | pageUp | menuSettingKeyUpFunc => exact pageUp_lt hcur
  | pageSettings => exact (by decide : MENU_SETTING < MENU_NUM)
  | pageHome | menuHomeKeyEnterFunc | menuSettingKeyEnterFunc => exact (by decide : 0 < MENU_NUM)
  | _ => exact hcur

theorem loopStep_curMenu {s s' : MenuLoop} {out : List MenuEvent} (hstep : s.loopStep = some (s', out)) :
    s'.curMenu = s.curMenu := by
  unfold MenuLoop.loopStep at hstep
  split at hstep
  case h_6 =>
    obtain ⟨page, -, hs⟩ := Option.map_eq_some_iff.mp hstep
    obtain ⟨rfl, rfl⟩ := Prod.mk.inj hs
    rfl
  all_goals
    obtain ⟨rfl, rfl⟩ := Prod.mk.inj (Option.some.inj hstep)
    rfl

/-- The tables are read within their bounds. -/
theorem curMenu_lt_of_reaches {as : List MenuAction} {es : List MenuEvent} {s : MenuLoop}
    (hreach : Reaches menuSystem as es s) : s.curMenu < MENU_NUM := by
  refine hreach.invariant (fun _ _ s => s.curMenu < MENU_NUM) ?_ ?_
  · rintro s rfl
    decide
  · intro as es s a out s' hcur _ hstep
    cases a with
    | loop => exact (loopStep_curMenu hstep).symm ▸ hcur
    | key keyFunction =>
      obtain ⟨rfl, rfl⟩ := Prod.mk.inj (Option.some.inj hstep)
      exact keyFunction.run_curMenu_lt hcur

theorem menuStep_isSome {as : List MenuAction} {es : List MenuEvent} {s : MenuLoop}
    (hreach : Reaches menuSystem as es s) (a : MenuAction) : (s.step a).isSome := by
  have hcur : s.curMenu < displayTable.length := curMenu_lt_of_reaches hreach
  cases a with
  | loop =>
    change s.loopStep.isSome
    unfold MenuLoop.loopStep
    split <;> simp [hcur]
  | key keyFunction => rfl

/-- A key press is the call of one key function. -/
theorem keyCb_eq_run {as : List MenuAction} {es : List MenuEvent} {s : MenuLoop} (hreach : Reaches menuSystem as es s)
    (key : Key) : ∃ keyFunction : KeyFunction, keyCb key s = some (keyFunction.run s) := by
  have hcur := curMenu_lt_of_reaches hreach
  have hentry : ∀ menu < MENU_NUM, ((keyFuncTable[menu]?.bind fun row => row[key.index]?)).isSome := by
    cases key <;> decide
  obtain ⟨keyFunction, hfound⟩ := Option.isSome_iff_exists.mp (hentry _ hcur)
  obtain ⟨row, hrow, hkey⟩ := Option.bind_eq_some_iff.mp hfound
  refine ⟨keyFunction, ?_⟩
  simp only [keyCb, hrow, hkey, Option.bind_eq_bind, Option.bind_some]

/-! ### The history of the panel -/

@[simp] theorem drawn_iteration (es : List MenuEvent) : drawn (es ++ [.iteration]) = drawn es := by
  simp [drawn]

@[simp] theorem drawn_clear (es : List MenuEvent) : drawn (es ++ [.clear]) = [] := by
  simp [drawn]

@[simp] theorem drawn_draw (es : List MenuEvent) (page : PageFunc) :
    drawn (es ++ [.draw page]) = drawn es ++ [page] := by
  simp [drawn]

@[simp] theorem drawn_key (es : List MenuEvent) : drawn (es ++ [.key]) = drawn es := by
  simp [drawn]

@[simp] theorem quiet_clear (es : List MenuEvent) : quiet (es ++ [.clear]) = quiet es := by
  simp [quiet]

@[simp] theorem quiet_draw (es : List MenuEvent) (page : PageFunc) : quiet (es ++ [.draw page]) = quiet es := by
  simp [quiet]

@[simp] theorem quiet_key (es : List MenuEvent) : quiet (es ++ [.key]) = false := by
  simp [quiet]

theorem Shows.draw {menu : Nat} {es : List MenuEvent} {page : PageFunc} (hshows : Shows menu es)
    (hpage : displayTable[menu]? = some page) : Shows menu (es ++ [.draw page]) := by
  intro drawnPage hdrawn
  rw [drawn_draw, List.mem_append, List.mem_singleton] at hdrawn
  rcases hdrawn with hold | rfl
  · exact hshows drawnPage hold
  · exact hpage

/-! ### The invariant -/

/-- Behind `oled_clear`, or behind a test that has left the panel as it is. -/
def Place.Cleared (place : Place) : Prop := place = .setFirstrun ∨ place = .resetShowResult ∨ place = .display

/-- Behind the call of the page function. -/
def Place.Displayed (place : Place) : Prop := place = .delay ∨ place = .test

/-- What is on the panel and what a quiet iteration remembers of the menu. -/
structure MenuInv (es : List MenuEvent) (s : MenuLoop) : Prop where
  cleared : s.place.Cleared → Shows s.lastMenu es
  displayed : s.place.Displayed → s.shown = s.lastMenu → Shows s.lastMenu es
  quietCleared : quiet es = true → s.place = .clear ∨ s.place.Cleared → s.curMenu = s.lastMenu
  quietDisplayed : quiet es = true → s.place.Displayed → s.curMenu = s.lastMenu ∧ s.shown = s.lastMenu

theorem MenuInv.start : MenuInv [] .start where
  cleared := by simp [MenuLoop.start, Place.Cleared]
  displayed := by simp [Shows, drawn]
  quietCleared := by simp [quiet]
  quietDisplayed := by simp [quiet]

theorem MenuInv.key {es : List MenuEvent} {s : MenuLoop} (h : MenuInv es s) (keyFunction : KeyFunction) :
    MenuInv (es ++ [.key]) (keyFunction.run s) := by
  have hkeep : (keyFunction.run s).place = s.place ∧ (keyFunction.run s).lastMenu = s.lastMenu ∧
      (keyFunction.run s).shown = s.shown := by
    cases keyFunction <;> exact ⟨rfl, rfl, rfl⟩
  obtain ⟨hplace, hlast, hshown⟩ := hkeep
  refine ⟨?_, ?_, by simp, by simp⟩
  · rw [hplace, hlast]
    simpa [Shows] using h.cleared
  · rw [hplace, hlast, hshown]
    simpa [Shows] using h.displayed

theorem MenuInv.test {es : List MenuEvent} {s : MenuLoop} (h : MenuInv es s) (hplace : s.place = .test)
    (hkept : s.curMenu = s.lastMenu → s.shown = s.lastMenu) :
    MenuInv (es ++ [.iteration]) { s with place := if s.curMenu ≠ s.lastMenu then .setLastMenu else .display } := by
  by_cases hsame : s.curMenu = s.lastMenu
  · -- The panel is kept, and what it shows is the remembered menu.
    have hshows := h.displayed (.inr hplace) (hkept hsame)
    refine ⟨fun _ => ?_, ?_, fun _ _ => hsame, ?_⟩
    · simpa [Shows] using hshows
    · simp [hsame, Place.Displayed]
    · simp [hsame, Place.Displayed]
  · refine ⟨?_, ?_, ?_, ?_⟩ <;> simp [hsame, Place.Cleared, Place.Displayed]

theorem MenuInv.clear {es : List MenuEvent} {s : MenuLoop} (h : MenuInv es s) (hplace : s.place = .clear) :
    MenuInv (es ++ [.clear]) { s with place := .setFirstrun } := by
  refine ⟨fun _ => by simp [Shows], ?_, ?_, ?_⟩
  · simp [Place.Displayed]
  · simpa [Place.Cleared] using fun hquiet => h.quietCleared hquiet (.inl hplace)
  · simp [Place.Displayed]

theorem MenuInv.display {es : List MenuEvent} {s : MenuLoop} (h : MenuInv es s) (hplace : s.place = .display)
    {page : PageFunc} (hpage : displayTable[s.curMenu]? = some page) (firstrun : Bool) :
    MenuInv (es ++ [.draw page]) { s with firstrun := firstrun, shown := s.curMenu, place := .delay } := by
  have hhere : s.place.Cleared := .inr (.inr hplace)
  refine ⟨?_, ?_, ?_, ?_⟩
  · simp [Place.Cleared]
  · intro _ hshown
    exact (h.cleared hhere).draw (hshown ▸ hpage)
  · simp [Place.Cleared]
  · intro hquiet _
    rw [quiet_draw] at hquiet
    have hlast := h.quietCleared hquiet (.inr hhere)
    exact ⟨hlast, hlast⟩

theorem MenuInv.loop {es out : List MenuEvent} {s s' : MenuLoop} (h : MenuInv es s)
    (hkept : NotDrawnOver s .loop) (hstep : s.loopStep = some (s', out)) : MenuInv (es ++ out) s' := by
  unfold MenuLoop.loopStep at hstep
  split at hstep
  case h_1 hplace =>
    obtain ⟨rfl, rfl⟩ := Prod.mk.inj (Option.some.inj hstep)
    exact h.test hplace (hkept hplace)
  case h_2 =>
    obtain ⟨rfl, rfl⟩ := Prod.mk.inj (Option.some.inj hstep)
    refine ⟨?_, ?_, fun _ _ => rfl, ?_⟩ <;> simp [Place.Cleared, Place.Displayed]
  case h_3 hplace =>
    obtain ⟨rfl, rfl⟩ := Prod.mk.inj (Option.some.inj hstep)
    exact h.clear hplace
  case h_4 hplace =>
    obtain ⟨rfl, rfl⟩ := Prod.mk.inj (Option.some.inj hstep)
    have hhere : s.place.Cleared := .inl hplace
    rw [List.append_nil]
    refine ⟨fun _ => h.cleared hhere, ?_, fun hquiet _ => h.quietCleared hquiet (.inr hhere), ?_⟩ <;>
      simp [Place.Displayed]
  case h_5 hplace =>
    obtain ⟨rfl, rfl⟩ := Prod.mk.inj (Option.some.inj hstep)
    have hhere : s.place.Cleared := .inr (.inl hplace)
    rw [List.append_nil]
    refine ⟨fun _ => h.cleared hhere, ?_, fun hquiet _ => h.quietCleared hquiet (.inr hhere), ?_⟩ <;>
      simp [Place.Displayed]
  case h_6 hplace =>
    obtain ⟨page, hpage, hs⟩ := Option.map_eq_some_iff.mp hstep
    obtain ⟨rfl, rfl⟩ := Prod.mk.inj hs
    exact h.display hplace hpage _
  case h_7 hplace =>
    obtain ⟨rfl, rfl⟩ := Prod.mk.inj (Option.some.inj hstep)
    have hhere : s.place.Displayed := .inl hplace
    rw [List.append_nil]
    refine ⟨?_, fun _ => h.displayed hhere, ?_, fun hquiet _ => h.quietDisplayed hquiet hhere⟩ <;>
      simp [Place.Cleared]

theorem menuInv_of_reaches {as : List MenuAction} {es : List MenuEvent} {s : MenuLoop}
    (hreach : Reaches (menuSystem.restrict NotDrawnOver) as es s) : MenuInv es s := by
  refine hreach.invariant (fun _ es s => MenuInv es s) ?_ ?_
  · rintro s rfl
    exact .start
  · intro as es s a out s' h henabled hstep
    cases a with
    | loop => exact h.loop henabled.2 hstep
    | key keyFunction =>
      obtain ⟨rfl, rfl⟩ := Prod.mk.inj (Option.some.inj hstep)
      exact h.key keyFunction

/-- As long as no menu is left behind the test and entered again before the next one, a quiet iteration ends with the page of the current menu alone on the panel. -/
theorem page_of_menu {as : List MenuAction} {es : List MenuEvent} {s : MenuLoop}
    (hreach : Reaches (menuSystem.restrict NotDrawnOver) as es s) : PageOfMenu es s := by
  intro hplace hquiet
  have h := menuInv_of_reaches hreach
  obtain ⟨hcur, hshown⟩ := h.quietDisplayed hquiet (.inr hplace)
  rw [hcur]
  exact h.displayed (.inr hplace) hshown

/-- The first iteration, a press of the down key and an iteration that clears the panel for it. -/
def nextMenu : List MenuAction :=
  List.replicate 7 .loop ++ .key .pageDown :: List.replicate 7 .loop

theorem nextMenu_isSome : ((menuSystem.restrict NotDrawnOver).exec .start nextMenu).isSome := by
  decide +kernel

theorem page_of_menu_next :
    PageOfMenu (((menuSystem.restrict NotDrawnOver).exec .start nextMenu).get nextMenu_isSome).2
      (((menuSystem.restrict NotDrawnOver).exec .start nextMenu).get nextMenu_isSome).1 :=
  page_of_menu (Reaches.of_exec rfl nextMenu_isSome)

/-- The first iteration; then down between the test and the call of the page function, up during the delay, and a quiet iteration. -/
def thereAndBack : List MenuAction :=
  List.replicate 7 .loop ++ [.loop, .key .pageDown, .loop, .key .pageUp, .loop] ++ List.replicate 3 .loop

theorem thereAndBack_isSome : (menuSystem.exec .start thereAndBack).isSome := by
  decide +kernel

/-- The page of the currents is drawn over the page of the lamps and stays there. -/
theorem not_page_of_menu : ¬ ∀ as es (s : MenuLoop), Reaches menuSystem as es s → PageOfMenu es s := by
  intro h
  have hpage := h _ _ _ (Reaches.of_exec rfl thereAndBack_isSome) (by decide +kernel) (by decide +kernel)
  revert hpage
  decide +kernel

end LightControlMonitor.Hmi
