import Mathlib.Data.List.Basic
import Mathlib.Data.List.Induction
import Mathlib.Tactic.SplitIfs

/-!
# The state machine of a button

`button_init` and `button_handler` of `multi_button.c`. The handler reads the pin once in every tick, debounces the level, and only then looks at it, so the machine never sees a reading itself but the debounced level of the tick. That level is a value the last three readings agreed on, and which events a tick reports depends on the debounced levels alone.
-/

namespace LightControlMonitor.MultiButton

def DEBOUNCE_TICKS : Nat := 3
def SHORT_TICKS : Nat := 60
def LONG_TICKS : Nat := 200

inductive PressEvent
  | pressDown
  | pressUp
  | pressRepeat
  | singleClick
  | doubleClick
  | longPressStart
  | longPressHold
  | nonePress
  deriving DecidableEq

/-- The fields of `struct Button` that the handler works on; `repeats` is the field `repeat`, of four bits, and `state` and `debounceCnt` have three. -/
structure Button where
  ticks : Nat
  repeats : Nat
  event : PressEvent
  state : Nat
  debounceCnt : Nat
  activeLevel : Bool
  buttonLevel : Bool
  deriving DecidableEq

/-- `button_init`, where the pin reads `level`. -/
def buttonInit (level activeLevel : Bool) : Button where
  ticks := 0
  repeats := 0
  event := .nonePress
  state := 0
  debounceCnt := 0
  activeLevel := activeLevel
  buttonLevel := level

/-! ### The parts of `button_handler` -/

def Button.count (b : Button) : Button :=
  if 0 < b.state then { b with ticks := (b.ticks + 1) % 0x10000 } else b

def Button.debounce (b : Button) (readGpioLevel : Bool) : Button :=
  if readGpioLevel ≠ b.buttonLevel then
    if DEBOUNCE_TICKS ≤ (b.debounceCnt + 1) % 8 then { b with buttonLevel := readGpioLevel, debounceCnt := 0 }
    else { b with debounceCnt := (b.debounceCnt + 1) % 8 }
  else { b with debounceCnt := 0 }

/-- The switch, with the callbacks it calls in their order. -/
def Button.machine (b : Button) : Button × List PressEvent :=
  match b.state with
  | 0 =>
    if b.buttonLevel = b.activeLevel then
      ({ b with event := .pressDown, ticks := 0, repeats := 1, state := 1 }, [.pressDown])
    else ({ b with event := .nonePress }, [])
  | 1 =>
    if b.buttonLevel ≠ b.activeLevel then ({ b with event := .pressUp, ticks := 0, state := 2 }, [.pressUp])
    else if b.ticks > LONG_TICKS then ({ b with event := .longPressStart, state := 5 }, [.longPressStart])
    else (b, [])
  | 2 =>
    if b.buttonLevel = b.activeLevel then
      ({ b with event := .pressDown, repeats := (b.repeats + 1) % 16, ticks := 0, state := 3 },
        [.pressDown, .pressRepeat])
    else if b.ticks > SHORT_TICKS then
      if b.repeats = 1 then ({ b with event := .singleClick, state := 0 }, [.singleClick])
      else if b.repeats = 2 then ({ b with event := .doubleClick, state := 0 }, [.doubleClick])
      else ({ b with state := 0 }, [])
    else (b, [])
  | 3 =>
    if b.buttonLevel ≠ b.activeLevel then
      if b.ticks < SHORT_TICKS then ({ b with event := .pressUp, ticks := 0, state := 2 }, [.pressUp])
      else ({ b with event := .pressUp, state := 0 }, [.pressUp])
    else if b.ticks > SHORT_TICKS then ({ b with state := 0 }, [])
    else (b, [])
  | 5 =>
    if b.buttonLevel = b.activeLevel then ({ b with event := .longPressHold }, [.longPressHold])
    else ({ b with event := .pressUp, state := 0 }, [.pressUp])
  | _ => ({ b with state := 0 }, [])

def buttonHandler (b : Button) (readGpioLevel : Bool) : Button × List PressEvent :=
  (b.count.debounce readGpioLevel).machine

/-! ### Ticks -/

/-- One tick for each of the levels, with the callbacks called. -/
def ticksOf (tick : Button → Bool → Button × List PressEvent) (b : Button) (levels : List Bool) :
    Button × List PressEvent :=
  levels.foldl (fun acc level => ((tick acc.1 level).1, acc.2 ++ (tick acc.1 level).2)) (b, [])

theorem ticksOf_snoc (tick : Button → Bool → Button × List PressEvent) (b : Button) (levels : List Bool) (level : Bool) :
    ticksOf tick b (levels ++ [level]) =
      ((tick (ticksOf tick b levels).1 level).1,
        (ticksOf tick b levels).2 ++ (tick (ticksOf tick b levels).1 level).2) := by
  unfold ticksOf
  rw [List.foldl_append, List.foldl_cons, List.foldl_nil]

def Button.polls (b : Button) (readings : List Bool) : Button × List PressEvent := ticksOf buttonHandler b readings

/-- A tick at which the debounced level is `level`. -/
def Button.follow (b : Button) (level : Bool) : Button × List PressEvent :=
  ({ b.count with buttonLevel := level } : Button).machine

def Button.follows (b : Button) (levels : List Bool) : Button × List PressEvent := ticksOf Button.follow b levels

theorem Button.polls_snoc (b : Button) (readings : List Bool) (read : Bool) :
    b.polls (readings ++ [read]) =
      ((buttonHandler (b.polls readings).1 read).1,
        (b.polls readings).2 ++ (buttonHandler (b.polls readings).1 read).2) :=
  ticksOf_snoc buttonHandler b readings read

theorem Button.follows_snoc (b : Button) (levels : List Bool) (level : Bool) :
    b.follows (levels ++ [level]) =
      (((b.follows levels).1.follow level).1, (b.follows levels).2 ++ ((b.follows levels).1.follow level).2) :=
  ticksOf_snoc Button.follow b levels level

/-! ### What each part leaves alone -/

@[simp]
theorem Button.count_debounceCnt (b : Button) : b.count.debounceCnt = b.debounceCnt := by
  unfold count
  split <;> rfl

@[simp]
theorem Button.count_buttonLevel (b : Button) : b.count.buttonLevel = b.buttonLevel := by
  unfold count
  split <;> rfl

@[simp]
theorem Button.count_activeLevel (b : Button) : b.count.activeLevel = b.activeLevel := by
  unfold count
  split <;> rfl

@[simp]
theorem Button.debounce_activeLevel (b : Button) (level : Bool) : (b.debounce level).activeLevel = b.activeLevel := by
  unfold debounce
  split_ifs <;> rfl

/-- The switch neither reads the debounce counter nor writes it. -/
theorem Button.machine_debounceCnt (b : Button) (n : Nat) :
    ({ b with debounceCnt := n } : Button).machine = ({ b.machine.1 with debounceCnt := n }, b.machine.2) := by
  obtain ⟨ticks, repeats, event, state, debounceCnt, activeLevel, buttonLevel⟩ := b
  rcases state with _ | _ | _ | _ | _ | _ | state
  all_goals
    simp only [machine]
    try split_ifs
  all_goals rfl

@[simp]
theorem Button.machine_buttonLevel (b : Button) : b.machine.1.buttonLevel = b.buttonLevel := by
  unfold machine
  repeat' split
  all_goals rfl

@[simp]
theorem Button.machine_activeLevel (b : Button) : b.machine.1.activeLevel = b.activeLevel := by
  unfold machine
  repeat' split
  all_goals rfl

@[simp]
theorem Button.machine_fst_debounceCnt (b : Button) : b.machine.1.debounceCnt = b.debounceCnt := by
  unfold machine
  repeat' split
  all_goals rfl

/-! ### The debounced level -/

/-- The value that the latest three readings in a row agreed on, newest reading first; `level` where no three did. -/
def lastTriple (level : Bool) : List Bool → Bool
  | a :: b :: c :: rest => if a = b ∧ b = c then a else lastTriple level (b :: c :: rest)
  | _ => level

theorem lastTriple_cons_of_ne {level v w : Bool} {rest : List Bool} (hne : v ≠ w) :
    lastTriple level (v :: w :: rest) = lastTriple level (w :: rest) := by
  cases rest with
  | nil => rfl
  | cons x rest => rw [lastTriple, if_neg (fun h => hne h.1)]

theorem lastTriple_cons_cons_of_ne {level v w : Bool} {rest : List Bool} (hne : v ≠ w) :
    lastTriple level (v :: v :: w :: rest) = lastTriple level (v :: w :: rest) := by
  rw [lastTriple, if_neg (fun h => hne h.2)]

/-- A reading of the debounced level leaves the debounced level. -/
theorem lastTriple_cons_self (level : Bool) (h : List Bool) :
    lastTriple level (lastTriple level h :: h) = lastTriple level h := by
  match h with
  | [] => rfl
  | [_] => rfl
  | v :: w :: rest =>
    rw [lastTriple]
    split_ifs <;> rfl

theorem DEBOUNCE_TICKS_pos : 0 < DEBOUNCE_TICKS := by decide

/-- The debounce counter counts the latest readings that differ from the debounced level. -/
structure Debounced (level : Bool) (history : List Bool) (b : Button) : Prop where
  level_eq : b.buttonLevel = lastTriple level history
  counted : ∃ older, history = List.replicate b.debounceCnt (!b.buttonLevel) ++ older ∧ older.head? ≠ some (!b.buttonLevel)
  cnt_lt : b.debounceCnt < DEBOUNCE_TICKS

/-- Fewer than three readings that differ from the debounced level do not change it. -/
theorem lastTriple_differs {level v : Bool} {cnt : Nat} {older : List Bool} (hcnt : cnt + 1 < DEBOUNCE_TICKS)
    (holder : older.head? ≠ some v) :
    lastTriple level (v :: (List.replicate cnt v ++ older)) = lastTriple level (List.replicate cnt v ++ older) := by
  unfold DEBOUNCE_TICKS at hcnt
  match cnt, older with
  | 0, [] => rfl
  | 0, w :: rest => exact lastTriple_cons_of_ne (fun h => holder (h ▸ rfl))
  | 1, [] => rfl
  | 1, w :: rest => exact lastTriple_cons_cons_of_ne (fun h => holder (h ▸ rfl))

theorem Debounced.debounce {level : Bool} {history : List Bool} {b : Button} (hb : Debounced level history b)
    (read : Bool) : Debounced level (read :: history) (b.debounce read) := by
  obtain ⟨hlevel, ⟨older, hhistory, holder⟩, hlt⟩ := hb
  unfold Button.debounce
  by_cases hread : read = b.buttonLevel
  · rw [if_neg (not_not.mpr hread)]
    subst hread
    exact ⟨by rw [hlevel, lastTriple_cons_self], ⟨b.buttonLevel :: history, rfl, by simp⟩, DEBOUNCE_TICKS_pos⟩
  · rw [if_pos hread]
    obtain rfl : read = !b.buttonLevel := Bool.eq_not.mpr hread
    have hmod : (b.debounceCnt + 1) % 8 = b.debounceCnt + 1 :=
      Nat.mod_eq_of_lt (by unfold DEBOUNCE_TICKS at hlt; omega)
    rw [hmod]
    split_ifs with hfull
    · -- The third differing reading in a row.
      have hcnt : b.debounceCnt = 2 := by unfold DEBOUNCE_TICKS at hlt hfull; omega
      rw [hcnt] at hhistory
      refine ⟨?_, ⟨_ :: history, rfl, by simp⟩, DEBOUNCE_TICKS_pos⟩
      subst hhistory
      exact (if_pos ⟨rfl, rfl⟩).symm
    · refine ⟨?_, ⟨older, by rw [hhistory]; rfl, holder⟩, Nat.lt_of_not_le hfull⟩
      rw [hhistory, lastTriple_differs (Nat.lt_of_not_le hfull) holder, ← hhistory]
      exact hlevel

theorem Debounced.handler {level : Bool} {history : List Bool} {b : Button} (hb : Debounced level history b)
    (read : Bool) : Debounced level (read :: history) (buttonHandler b read).1 := by
  have hcount : Debounced level history b.count := by
    obtain ⟨hlevel, hcounted, hlt⟩ := hb
    exact ⟨by simpa using hlevel, by simpa using hcounted, by simpa using hlt⟩
  obtain ⟨hlevel, hcounted, hlt⟩ := hcount.debounce read
  unfold buttonHandler
  exact ⟨by simpa using hlevel, by simpa using hcounted, by simpa using hlt⟩

theorem Debounced.polls (level activeLevel : Bool) (readings : List Bool) :
    Debounced level readings.reverse ((buttonInit level activeLevel).polls readings).1 := by
  induction readings using List.reverseRecOn with
  | nil => exact ⟨rfl, ⟨[], rfl, by simp⟩, DEBOUNCE_TICKS_pos⟩
  | append_singleton readings read ih =>
    rw [Button.polls_snoc, List.reverse_append]
    exact ih.handler read

/-! ### The events follow the debounced levels -/

/-- The debounced level of every tick, the first tick first; the readings are given newest first. -/
def debouncedLevels (level : Bool) : List Bool → List Bool
  | [] => []
  | read :: history => debouncedLevels level history ++ [lastTriple level (read :: history)]

theorem length_debouncedLevels (level : Bool) (history : List Bool) :
    (debouncedLevels level history).length = history.length := by
  induction history with
  | nil => rfl
  | cons read history ih => rw [debouncedLevels, List.length_append, ih, List.length_singleton, List.length_cons]

theorem debouncedLevels_take (level : Bool) (readings : List Bool) (m : Nat) :
    debouncedLevels level (readings.take m).reverse = (debouncedLevels level readings.reverse).take m := by
  induction readings using List.reverseRecOn with
  | nil => simp [debouncedLevels]
  | append_singleton readings read ih =>
    have hlen := length_debouncedLevels level readings.reverse
    rw [List.length_reverse] at hlen
    rw [List.reverse_append, List.reverse_singleton, List.singleton_append, debouncedLevels]
    rcases Nat.lt_or_ge readings.length m with hm | hm
    · rw [List.take_of_length_le (by rw [List.length_append, List.length_singleton]; omega),
        List.take_of_length_le (by rw [List.length_append, List.length_singleton]; omega), List.reverse_append]
      rfl
    · rw [List.take_append_of_le_length hm, ih, List.take_append_of_le_length (by omega)]

/-- The button without the state of its debouncing. -/
def Button.settled (b : Button) : Button := { b with debounceCnt := 0 }

theorem Button.follow_settled (b : Button) (read : Bool) :
    b.settled.follow (b.count.debounce read).buttonLevel =
      ((buttonHandler b read).1.settled, (buttonHandler b read).2) := by
  have hcount : b.settled.count = b.count.settled := by
    unfold settled count
    split <;> rfl
  have hlevel : ({ b.count.settled with buttonLevel := (b.count.debounce read).buttonLevel } : Button) =
      (b.count.debounce read).settled := by
    unfold settled debounce
    split_ifs <;> rfl
  rw [follow, hcount, hlevel]
  exact machine_debounceCnt _ 0

/-- A run of the handler is a run on the debounced levels. -/
theorem polls_eq_follows (level activeLevel : Bool) (readings : List Bool) :
    (buttonInit level activeLevel).follows (debouncedLevels level readings.reverse) =
      (((buttonInit level activeLevel).polls readings).1.settled,
        ((buttonInit level activeLevel).polls readings).2) := by
  induction readings using List.reverseRecOn with
  | nil => rfl
  | append_singleton readings read ih =>
    have hlevel := ((Debounced.polls level activeLevel readings).handler read).level_eq
    rw [buttonHandler, Button.machine_buttonLevel] at hlevel
    rw [List.reverse_append, List.reverse_singleton, List.singleton_append, debouncedLevels,
      Button.follows_snoc, ih, Button.polls_snoc, ← hlevel]
    dsimp only
    rw [Button.follow_settled]

/-- Whatever the pin reads, the debounced level is the value of the latest three equal readings in a row, and the callbacks are those of a button that read the debounced levels directly; shorter glitches are never seen. -/
theorem glitches_unseen (level activeLevel : Bool) (readings : List Bool) :
    ((buttonInit level activeLevel).polls readings).1.buttonLevel = lastTriple level readings.reverse ∧
      ((buttonInit level activeLevel).polls readings).1.debounceCnt < DEBOUNCE_TICKS ∧
      ((buttonInit level activeLevel).polls readings).2 =
        ((buttonInit level activeLevel).follows (debouncedLevels level readings.reverse)).2 := by
  have hdebounced := Debounced.polls level activeLevel readings
  refine ⟨hdebounced.level_eq, hdebounced.cnt_lt, ?_⟩
  rw [polls_eq_follows]

end LightControlMonitor.MultiButton
