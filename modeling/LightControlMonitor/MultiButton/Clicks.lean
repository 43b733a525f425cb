import LightControlMonitor.MultiButton.Handler
import Mathlib.Order.Nat

/-!
# When a click is reported

The exact histories after which the state machine of a button reports `SINGLE_CLICK` or `DOUBLE_CLICK`. A click is reported once the button has been released for `SHORT_TICKS + 2` ticks after a series of presses. The first press of a series may last up to the long press, every further one has to be shorter than `SHORT_TICKS`, and so has the pause in front of it.

The presses are counted in four bits, so it is the number of presses modulo 16 that decides: seventeen presses are a single click.
-/

namespace LightControlMonitor.MultiButton

/-- Debounced levels of `n` presses in a row, up to the end of the last press. -/
inductive Presses (active : Bool) : Nat → List Bool → Prop
  | first {k : Nat} (hpos : 1 ≤ k) (hle : k ≤ LONG_TICKS + 1) : Presses active 1 (List.replicate k active)
  | again {n j k : Nat} {levels : List Bool} (hbefore : Presses active n levels)
      (hpause : 1 ≤ j ∧ j ≤ SHORT_TICKS + 1) (hpress : 1 ≤ k ∧ k < SHORT_TICKS) :
      Presses active (n + 1) (levels ++ List.replicate j (!active) ++ List.replicate k active)

/-- The click of a series of presses. -/
def clicksOf (n : Nat) : List PressEvent :=
  if n % 16 = 1 then [.singleClick] else if n % 16 = 2 then [.doubleClick] else []

/-- A button in the given state of the machine. -/
structure Button.At (b : Button) (active : Bool) (state ticks repeats : Nat) : Prop where
  active_eq : b.activeLevel = active
  state_eq : b.state = state
  ticks_eq : b.ticks = ticks
  repeats_eq : b.repeats = repeats

/-! ### One tick in each state -/

section Ticks

variable {b : Button} {active : Bool} {ticks repeats : Nat}

theorem Button.follow_of_state_pos (hstate : 0 < b.state) (hticks : b.ticks ≤ LONG_TICKS) (level : Bool) :
    b.follow level = ({ b with ticks := b.ticks + 1, buttonLevel := level } : Button).machine := by
  have hmod : (b.ticks + 1) % 0x10000 = b.ticks + 1 :=
    Nat.mod_eq_of_lt (by unfold LONG_TICKS at hticks; omega)
  rw [follow, count, if_pos hstate, hmod]

theorem follow_rest_press (hactive : b.activeLevel = active) (hstate : b.state = 0) :
    (b.follow active).1.At active 1 0 1 ∧ (b.follow active).2 = [.pressDown] := by
  subst hactive
  refine ⟨?_, ?_⟩
  · constructor <;> simp [Button.follow, Button.count, Button.machine, hstate]
  · simp [Button.follow, Button.count, Button.machine, hstate]

theorem follow_rest_release (hactive : b.activeLevel = active) (hstate : b.state = 0) :
    (b.follow !active).1.state = 0 ∧ (b.follow !active).2 = [] := by
  subst hactive
  constructor <;> simp [Button.follow, Button.count, Button.machine, hstate]

theorem Button.At.hold (hb : b.At active 1 ticks repeats) (hticks : ticks < LONG_TICKS) :
    (b.follow active).1.At active 1 (ticks + 1) repeats ∧ (b.follow active).2 = [] := by
  obtain ⟨rfl, hstate, rfl, rfl⟩ := hb
  rw [follow_of_state_pos (by omega) hticks.le]
  have hlong : ¬ LONG_TICKS < b.ticks + 1 := by omega
  refine ⟨?_, ?_⟩
  · constructor <;> simp [machine, hstate, hlong]
  · simp [machine, hstate, hlong]

theorem Button.At.long (hb : b.At active 1 LONG_TICKS repeats) :
    (b.follow active).1.state = 5 ∧ (b.follow active).2 = [.longPressStart] := by
  obtain ⟨rfl, hstate, hticks, rfl⟩ := hb
  rw [follow_of_state_pos (by omega) hticks.le]
  simp [machine, hstate, hticks]

theorem Button.At.release (hb : b.At active 1 ticks repeats) (hticks : ticks ≤ LONG_TICKS) :
    (b.follow !active).1.At active 2 0 repeats ∧ (b.follow !active).2 = [.pressUp] := by
  obtain ⟨rfl, hstate, rfl, rfl⟩ := hb
  rw [follow_of_state_pos (by omega) hticks]
  refine ⟨?_, ?_⟩
  · constructor <;> simp [machine, hstate]
  · simp [machine, hstate]

theorem Button.At.pause (hb : b.At active 2 ticks repeats) (hticks : ticks < SHORT_TICKS) :
    (b.follow !active).1.At active 2 (ticks + 1) repeats ∧ (b.follow !active).2 = [] := by
  obtain ⟨rfl, hstate, rfl, rfl⟩ := hb
  unfold SHORT_TICKS at hticks
  rw [follow_of_state_pos (by omega) (by unfold LONG_TICKS; omega)]
  have hshort : ¬ SHORT_TICKS < b.ticks + 1 := by unfold SHORT_TICKS; omega
  refine ⟨?_, ?_⟩
  · constructor <;> simp [machine, hstate, hshort]
  · simp [machine, hstate, hshort]

theorem Button.At.press (hb : b.At active 2 ticks repeats) (hticks : ticks ≤ SHORT_TICKS) :
    (b.follow active).1.At active 3 0 ((repeats + 1) % 16) ∧ (b.follow active).2 = [.pressDown, .pressRepeat] := by
  obtain ⟨rfl, hstate, rfl, rfl⟩ := hb
  rw [follow_of_state_pos (by omega) (hticks.trans (by decide))]
  refine ⟨?_, ?_⟩
  · constructor <;> simp [machine, hstate]
  · simp [machine, hstate]

theorem Button.At.click {n : Nat} (hb : b.At active 2 SHORT_TICKS (n % 16)) :
    (b.follow !active).1.state = 0 ∧ (b.follow !active).2 = clicksOf n := by
  obtain ⟨rfl, hstate, hticks, hrepeats⟩ := hb
  rw [follow_of_state_pos (by omega) (by rw [hticks]; decide)]
  simp only [machine, hstate, hticks, hrepeats, clicksOf]
  split_ifs with h₁ h₂ h₃ h₄
  all_goals simp_all

theorem Button.At.holdAgain (hb : b.At active 3 ticks repeats) (hticks : ticks < SHORT_TICKS) :
    (b.follow active).1.At active 3 (ticks + 1) repeats ∧ (b.follow active).2 = [] := by
  obtain ⟨rfl, hstate, rfl, rfl⟩ := hb
  unfold SHORT_TICKS at hticks
  rw [follow_of_state_pos (by omega) (by unfold LONG_TICKS; omega)]
  have hshort : ¬ SHORT_TICKS < b.ticks + 1 := by unfold SHORT_TICKS; omega
  refine ⟨?_, ?_⟩
  · constructor <;> simp [machine, hstate, hshort]
  · simp [machine, hstate, hshort]

theorem Button.At.releaseAgain (hb : b.At active 3 ticks repeats) (hticks : ticks + 1 < SHORT_TICKS) :
    (b.follow !active).1.At active 2 0 repeats ∧ (b.follow !active).2 = [.pressUp] := by
  obtain ⟨rfl, hstate, rfl, rfl⟩ := hb
  rw [follow_of_state_pos (by omega) (by unfold SHORT_TICKS at hticks; unfold LONG_TICKS; omega)]
  refine ⟨?_, ?_⟩
  · constructor <;> simp [machine, hstate, hticks]
  · simp [machine, hstate, hticks]

/-- A further press that is too long ends the series without a click, with the button still held. -/
theorem Button.At.lapse (hb : b.At active 3 SHORT_TICKS repeats) :
    (b.follow active).1.state = 0 ∧ (b.follow active).2 = [] := by
  obtain ⟨rfl, hstate, hticks, rfl⟩ := hb
  rw [follow_of_state_pos (by omega) (by rw [hticks]; decide)]
  simp [machine, hstate, hticks]

theorem Button.At.releaseLate (hb : b.At active 3 ticks repeats) (hlate : SHORT_TICKS ≤ ticks + 1)
    (hticks : ticks ≤ SHORT_TICKS) : (b.follow !active).1.state = 0 ∧ (b.follow !active).2 = [.pressUp] := by
  obtain ⟨rfl, hstate, rfl, rfl⟩ := hb
  rw [follow_of_state_pos (by omega) (hticks.trans (by decide))]
  simp [machine, hstate, Nat.not_lt.mpr hlate]

theorem follow_long (hstate : b.state = 5) (level : Bool) :
    ((b.follow level).1.state = 5 ∨ (b.follow level).1.state = 0) ∧
      ((b.follow level).2 = [.longPressHold] ∨ (b.follow level).2 = [.pressUp]) := by
  simp only [Button.follow, Button.count, hstate, Button.machine]
  split_ifs <;> simp_all

end Ticks

/-! ### Blocks of ticks -/

theorem Button.follows_append (b : Button) (levels more : List Bool) :
    (b.follows (levels ++ more)).1 = ((b.follows levels).1.follows more).1 := by
  induction more using List.reverseRecOn with
  | nil => rw [List.append_nil]; rfl
  | append_singleton more level ih => rw [← List.append_assoc, follows_snoc, follows_snoc, ih]

theorem Button.follows_cons (b : Button) (level : Bool) (levels : List Bool) :
    (b.follows (level :: levels)).1 = ((b.follow level).1.follows levels).1 :=
  follows_append b [level] levels

variable {b : Button} {active : Bool} {ticks repeats : Nat}

theorem Button.At.holds (hb : b.At active 1 ticks repeats) {k : Nat} (hk : ticks + k ≤ LONG_TICKS) :
    (b.follows (List.replicate k active)).1.At active 1 (ticks + k) repeats := by
  induction k with
  | zero => exact hb
  | succ k ih =>
    rw [List.replicate_succ', follows_snoc]
    exact ((ih (by omega)).hold (by omega)).1

theorem Button.At.pauses (hb : b.At active 2 ticks repeats) {k : Nat} (hk : ticks + k ≤ SHORT_TICKS) :
    (b.follows (List.replicate k !active)).1.At active 2 (ticks + k) repeats := by
  induction k with
  | zero => exact hb
  | succ k ih =>
    rw [List.replicate_succ', follows_snoc]
    exact ((ih (by omega)).pause (by omega)).1

theorem Button.At.holdsAgain (hb : b.At active 3 ticks repeats) {k : Nat} (hk : ticks + k ≤ SHORT_TICKS) :
    (b.follows (List.replicate k active)).1.At active 3 (ticks + k) repeats := by
  induction k with
  | zero => exact hb
  | succ k ih =>
    rw [List.replicate_succ', follows_snoc]
    exact ((ih (by omega)).holdAgain (by omega)).1

/-- The first released tick after `n` presses. -/
theorem Presses.released {n : Nat} {levels : List Bool} (hpresses : Presses active n levels)
    (hactive : b.activeLevel = active) (hrest : b.state = 0) :
    (b.follows (levels ++ [!active])).1.At active 2 0 (n % 16) := by
  induction hpresses with
  | @first k hpos hle =>
    obtain ⟨k, rfl⟩ := Nat.exists_eq_add_of_le' hpos
    have hpress := (follow_rest_press hactive hrest).1
    have hhold := hpress.holds (k := k) (by omega)
    rw [List.replicate_succ, List.cons_append, Button.follows_cons, Button.follows_snoc]
    exact (hhold.release (by omega)).1
  | @again n j k levels _ hpause hpress ih =>
    obtain ⟨j, rfl⟩ := Nat.exists_eq_add_of_le' hpause.1
    obtain ⟨k, rfl⟩ := Nat.exists_eq_add_of_le' hpress.1
    have hpaused := ih.pauses (k := j) (by omega)
    have hpressed := (hpaused.press (by omega)).1
    have hheld := hpressed.holdsAgain (k := k) (by omega)
    have hreleased := (hheld.releaseAgain (by omega)).1
    have hsplit : levels ++ List.replicate (j + 1) (!active) ++ List.replicate (k + 1) active ++ [!active] =
        (levels ++ [!active]) ++ (List.replicate j (!active) ++ (active :: List.replicate k active ++ [!active])) := by
      simp [List.replicate_succ]
    rw [hsplit, Button.follows_append, Button.follows_append, List.cons_append, Button.follows_cons,
      Button.follows_snoc]
    simpa using hreleased

/-- A series of presses from rest and a long enough pause end with the click of the series. -/
theorem Presses.clicked {n : Nat} {levels : List Bool} (hpresses : Presses active n levels)
    (hactive : b.activeLevel = active) (hrest : b.state = 0) :
    ((b.follows (levels ++ List.replicate (SHORT_TICKS + 1) !active)).1.follow !active).2 = clicksOf n := by
  have hpaused := (hpresses.released hactive hrest).pauses (k := SHORT_TICKS) (by omega)
  rw [List.replicate_succ, ← List.singleton_append, ← List.append_assoc, Button.follows_append]
  rw [Nat.zero_add] at hpaused
  exact hpaused.click.2

/-! ### The history of a series -/

/-- The debounced levels since the machine was last at rest. -/
inductive Since (active : Bool) (b : Button) : List Bool → Prop
  | down {ticks : Nat} (hat : b.At active 1 ticks 1) (hticks : ticks ≤ LONG_TICKS) :
      Since active b (List.replicate (ticks + 1) active)
  | up {ticks n : Nat} {levels : List Bool} (hat : b.At active 2 ticks (n % 16)) (hticks : ticks ≤ SHORT_TICKS)
      (hpresses : Presses active n levels) : Since active b (levels ++ List.replicate (ticks + 1) !active)
  | again {ticks n j : Nat} {levels : List Bool} (hat : b.At active 3 ticks ((n + 1) % 16))
      (hticks : ticks ≤ SHORT_TICKS) (hpresses : Presses active n levels) (hpause : 1 ≤ j ∧ j ≤ SHORT_TICKS + 1) :
      Since active b (levels ++ List.replicate j (!active) ++ List.replicate (ticks + 1) active)

theorem replicate_append_self {α : Type} (n : Nat) (x : α) : List.replicate n x ++ [x] = List.replicate (n + 1) x :=
  List.replicate_succ'.symm

theorem Since.follow_active {levels : List Bool} (hsince : Since active b levels) :
    (b.follow active).1.state = 0 ∨ (b.follow active).1.state = 5 ∨
      Since active (b.follow active).1 (levels ++ [active]) := by
  cases hsince with
  | @down ticks hat hticks =>
    rcases hticks.lt_or_eq with hlt | rfl
    · rw [replicate_append_self]
      exact .inr (.inr (.down (hat.hold hlt).1 hlt))
    · exact .inr (.inl hat.long.1)
  | @up ticks n levels hat hticks hpresses =>
    have hat' := (hat.press hticks).1
    rw [Nat.mod_add_mod] at hat'
    exact .inr (.inr (.again hat' (Nat.zero_le _) hpresses ⟨by omega, by omega⟩))
  | @again ticks n j levels hat hticks hpresses hpause =>
    rcases hticks.lt_or_eq with hlt | rfl
    · rw [List.append_assoc, replicate_append_self]
      exact .inr (.inr (.again (hat.holdAgain hlt).1 hlt hpresses hpause))
    · exact .inl hat.lapse.1

theorem Since.follow_released {levels : List Bool} (hsince : Since active b levels) :
    (b.follow !active).1.state = 0 ∨ Since active (b.follow !active).1 (levels ++ [!active]) := by
  cases hsince with
  | @down ticks hat hticks =>
    have hat' := (hat.release hticks).1
    exact .inr (.up (n := 1) hat' (Nat.zero_le _) (.first (by omega) (by omega)))
  | @up ticks n levels hat hticks hpresses =>
    rcases hticks.lt_or_eq with hlt | rfl
    · rw [List.append_assoc, replicate_append_self]
      exact .inr (.up (hat.pause hlt).1 hlt hpresses)
    · exact .inl hat.click.1
  | @again ticks n j levels hat hticks hpresses hpause =>
    rcases Nat.lt_or_ge (ticks + 1) SHORT_TICKS with hlt | hge
    · exact .inr (.up (n := n + 1) (hat.releaseAgain hlt).1 (Nat.zero_le _) (.again hpresses hpause ⟨by omega, hlt⟩))
    · exact .inl (hat.releaseLate hge hticks).1

/-- A series that is not over reports no click except after its pause. -/
theorem Since.click {levels : List Bool} {level : Bool} {e : PressEvent} (hsince : Since active b levels)
    (hclick : e = .singleClick ∨ e = .doubleClick) (he : e ∈ (b.follow level).2) :
    level = (!active) ∧ ∃ n presses, Presses active n presses ∧
      levels = presses ++ List.replicate (SHORT_TICKS + 1) (!active) ∧ e ∈ clicksOf n := by
  by_cases hlevel : level = active
  · subst hlevel
    have hnone : ∀ l : List PressEvent, e ∈ l → l = [] ∨ l = [.longPressStart] ∨ l = [.pressDown, .pressRepeat] → False := by
      rintro l hmem (rfl | rfl | rfl) <;> rcases hclick with rfl | rfl <;> simp at hmem
    exfalso
    apply hnone _ he
    cases hsince with
    | @down ticks hat hticks =>
      rcases hticks.lt_or_eq with hlt | rfl
      · exact .inl (hat.hold hlt).2
      · exact .inr (.inl hat.long.2)
    | up hat hticks hpresses => exact .inr (.inr (hat.press hticks).2)
    | @again ticks n j levels hat hticks hpresses hpause =>
      rcases hticks.lt_or_eq with hlt | rfl
      · exact .inl (hat.holdAgain hlt).2
      · exact .inl hat.lapse.2
  · obtain rfl := Bool.eq_not.mpr hlevel
    refine ⟨rfl, ?_⟩
    have hnone : ∀ l : List PressEvent, e ∈ l → l = [] ∨ l = [.pressUp] → False := by
      rintro l hmem (rfl | rfl) <;> rcases hclick with rfl | rfl <;> simp at hmem
    cases hsince with
    | down hat hticks => exact (hnone _ he (.inr (hat.release hticks).2)).elim
    | @up ticks n levels hat hticks hpresses =>
      rcases hticks.lt_or_eq with hlt | rfl
      · exact (hnone _ he (.inl (hat.pause hlt).2)).elim
      · exact ⟨n, levels, hpresses, rfl, hat.click.2 ▸ he⟩
    | @again ticks n j levels hat hticks hpresses hpause =>
      rcases Nat.lt_or_ge (ticks + 1) SHORT_TICKS with hlt | hge
      · exact (hnone _ he (.inr (hat.releaseAgain hlt).2)).elim
      · exact (hnone _ he (.inr (hat.releaseLate hge hticks).2)).elim

@[simp]
theorem Button.follow_activeLevel (b : Button) (level : Bool) : (b.follow level).1.activeLevel = b.activeLevel := by
  rw [follow, machine_activeLevel]
  exact b.count_activeLevel

theorem Button.follows_activeLevel (b : Button) (levels : List Bool) :
    (b.follows levels).1.activeLevel = b.activeLevel := by
  induction levels using List.reverseRecOn with
  | nil => rfl
  | append_singleton levels level ih => rw [follows_snoc, follow_activeLevel, ih]

/-- A run on the debounced levels `levels` has ended at rest or in a long press, or a series of presses is going on since some tick at which the machine was at rest. -/
def Tracked (start : Button) (levels : List Bool) : Prop :=
  (start.follows levels).1.state = 0 ∨ (start.follows levels).1.state = 5 ∨
    ∃ m, m ≤ levels.length ∧ (start.follows (levels.take m)).1.state = 0 ∧
      Since start.activeLevel (start.follows levels).1 (levels.drop m)

theorem tracked (start : Button) (hrest : start.state = 0) (levels : List Bool) : Tracked start levels := by
  induction levels using List.reverseRecOn with
  | nil => exact .inl hrest
  | append_singleton levels level ih =>
    have hactive := start.follows_activeLevel levels
    unfold Tracked
    rw [Button.follows_snoc]
    dsimp only
    rcases ih with hstate | hstate | ⟨m, hm, hm0, hsince⟩
    · by_cases hlevel : level = start.activeLevel
      · subst hlevel
        refine .inr (.inr ⟨levels.length, by rw [List.length_append]; omega, ?_, ?_⟩)
        · rw [List.take_left' rfl]
          exact hstate
        · rw [List.drop_left' rfl]
          exact @Since.down _ _ 0 (follow_rest_press hactive hstate).1 (Nat.zero_le _)
      · obtain rfl := Bool.eq_not.mpr hlevel
        exact .inl (follow_rest_release hactive hstate).1
    · rcases (follow_long hstate level).1 with h | h
      · exact .inr (.inl h)
      · exact .inl h
    · have hnext : (start.follows levels).1.follow level |>.1.state = 0 ∨
          ((start.follows levels).1.follow level).1.state = 5 ∨
          Since start.activeLevel ((start.follows levels).1.follow level).1 (levels.drop m ++ [level]) := by
        by_cases hlevel : level = start.activeLevel
        · subst hlevel
          exact hsince.follow_active
        · obtain rfl := Bool.eq_not.mpr hlevel
          exact hsince.follow_released.imp_right .inr
      refine hnext.imp_right (Or.imp_right fun h => ⟨m, by rw [List.length_append]; omega, ?_, ?_⟩)
      · rw [List.take_append_of_le_length hm]
        exact hm0
      · rw [List.drop_append_of_le_length hm]
        exact h

/-- The clicks of a run on debounced levels. -/
theorem follow_click_iff (start : Button) (hrest : start.state = 0) (levels : List Bool) (level : Bool) {e : PressEvent}
    (hclick : e = .singleClick ∨ e = .doubleClick) :
    e ∈ ((start.follows levels).1.follow level).2 ↔
      ∃ m n presses, (start.follows (levels.take m)).1.state = 0 ∧ Presses start.activeLevel n presses ∧
        (levels ++ [level]).drop m = presses ++ List.replicate (SHORT_TICKS + 2) (!start.activeLevel) ∧
        e ∈ clicksOf n := by
  have hactive := start.follows_activeLevel levels
  constructor
  · intro he
    rcases tracked start hrest levels with hstate | hstate | ⟨m, hm, hm0, hsince⟩
    · exfalso
      by_cases hlevel : level = start.activeLevel
      · subst hlevel
        rw [(follow_rest_press hactive hstate).2] at he
        rcases hclick with rfl | rfl <;> simp at he
      · obtain rfl := Bool.eq_not.mpr hlevel
        rw [(follow_rest_release hactive hstate).2] at he
        simp at he
    · exfalso
      rcases (follow_long hstate level).2 with h | h
      all_goals
        rw [h] at he
        rcases hclick with rfl | rfl <;> simp at he
    · obtain ⟨rfl, n, presses, hpresses, hdrop, hn⟩ := hsince.click hclick he
      refine ⟨m, n, presses, hm0, hpresses, ?_, hn⟩
      rw [List.drop_append_of_le_length hm, hdrop, List.append_assoc, replicate_append_self]
  · rintro ⟨m, n, presses, hm0, hpresses, hdrop, hn⟩
    have hm : m ≤ levels.length := by
      by_contra hm
      rw [List.drop_of_length_le (by rw [List.length_append, List.length_singleton]; omega)] at hdrop
      simpa using congrArg List.length hdrop
    rw [List.drop_append_of_le_length hm, List.replicate_succ', ← List.append_assoc] at hdrop
    obtain ⟨hdrop', hlast⟩ := List.append_inj' hdrop rfl
    obtain rfl := List.singleton_inj.mp hlast
    have hclicked := hpresses.clicked (start.follows_activeLevel (levels.take m)) hm0
    rw [← hdrop', ← Button.follows_append, List.take_append_drop] at hclicked
    rw [hclicked]
    exact hn

/-! ### Readings of the pin -/

/-- The readings end a series of `n` presses: since some tick at which the machine was at rest, the debounced levels are the presses and the pause behind them. -/
def SeriesEnds (level active : Bool) (readings : List Bool) (n : Nat) : Prop :=
  ∃ m presses, ((buttonInit level active).polls (readings.take m)).1.state = 0 ∧ Presses active n presses ∧
    (debouncedLevels level readings.reverse).drop m = presses ++ List.replicate (SHORT_TICKS + 2) (!active)

theorem follows_state (level active : Bool) (readings : List Bool) :
    ((buttonInit level active).follows (debouncedLevels level readings.reverse)).1.state =
      ((buttonInit level active).polls readings).1.state := by
  rw [polls_eq_follows]
  rfl

theorem handler_click_iff (level active : Bool) (readings : List Bool) (read : Bool) {e : PressEvent}
    (hclick : e = .singleClick ∨ e = .doubleClick) :
    e ∈ (buttonHandler ((buttonInit level active).polls readings).1 read).2 ↔
      ∃ n, SeriesEnds level active (readings ++ [read]) n ∧ e ∈ clicksOf n := by
  have hnext : debouncedLevels level (readings ++ [read]).reverse =
      debouncedLevels level readings.reverse ++ [lastTriple level (read :: readings.reverse)] := by
    rw [List.reverse_append]
    rfl
  have hevents : (buttonHandler ((buttonInit level active).polls readings).1 read).2 =
      (((buttonInit level active).follows (debouncedLevels level readings.reverse)).1.follow
        (lastTriple level (read :: readings.reverse))).2 := by
    have hlevel := ((Debounced.polls level active readings).handler read).level_eq
    rw [buttonHandler, Button.machine_buttonLevel] at hlevel
    rw [polls_eq_follows, ← hlevel]
    dsimp only
    rw [Button.follow_settled]
  rw [hevents, follow_click_iff (buttonInit level active) rfl _ _ hclick]
  constructor
  · rintro ⟨m, n, presses, hrest, hpresses, hdrop, hn⟩
    have hm : m ≤ readings.length := by
      by_contra hm
      have hlen := length_debouncedLevels level readings.reverse
      rw [List.length_reverse] at hlen
      rw [List.drop_of_length_le (by rw [List.length_append, List.length_singleton]; omega)] at hdrop
      simpa using congrArg List.length hdrop
    refine ⟨n, ⟨m, presses, ?_, hpresses, ?_⟩, hn⟩
    · rw [List.take_append_of_le_length hm, ← follows_state, debouncedLevels_take]
      exact hrest
    · rw [hnext]
      exact hdrop
  · rintro ⟨n, ⟨m, presses, hrest, hpresses, hdrop⟩, hn⟩
    have hm : m ≤ readings.length := by
      by_contra hm
      have hlen := length_debouncedLevels level (readings ++ [read]).reverse
      rw [List.length_reverse, List.length_append, List.length_singleton] at hlen
      rw [List.drop_of_length_le (by omega)] at hdrop
      simpa using congrArg List.length hdrop
    refine ⟨m, n, presses, ?_, hpresses, ?_, hn⟩
    · rw [← debouncedLevels_take, follows_state]
      rw [List.take_append_of_le_length hm] at hrest
      exact hrest
    · rw [← hnext]
      exact hdrop

theorem singleClick_mem_clicksOf (n : Nat) : .singleClick ∈ clicksOf n ↔ n % 16 = 1 := by
  unfold clicksOf
  split_ifs <;> simp_all

theorem doubleClick_mem_clicksOf (n : Nat) : .doubleClick ∈ clicksOf n ↔ n % 16 = 2 := by
  unfold clicksOf
  split_ifs <;> simp_all

theorem single_click_iff (level active : Bool) (readings : List Bool) (read : Bool) :
    .singleClick ∈ (buttonHandler ((buttonInit level active).polls readings).1 read).2 ↔
      ∃ n, SeriesEnds level active (readings ++ [read]) n ∧ n % 16 = 1 := by
  rw [handler_click_iff level active readings read (.inl rfl)]
  exact exists_congr fun n => and_congr_right fun _ => singleClick_mem_clicksOf n

/-- The tick that reads `read` reports a single click exactly when it ends a series whose number of presses is one modulo 16, and a double click exactly when that number is two. -/
theorem clicks_reported (level active : Bool) (readings : List Bool) (read : Bool) :
    (.singleClick ∈ (buttonHandler ((buttonInit level active).polls readings).1 read).2 ↔
        ∃ n, SeriesEnds level active (readings ++ [read]) n ∧ n % 16 = 1) ∧
      (.doubleClick ∈ (buttonHandler ((buttonInit level active).polls readings).1 read).2 ↔
        ∃ n, SeriesEnds level active (readings ++ [read]) n ∧ n % 16 = 2) := by
  refine ⟨single_click_iff level active readings read, ?_⟩
  rw [handler_click_iff level active readings read (.inr rfl)]
  exact exists_congr fun n => and_congr_right fun _ => doubleClick_mem_clicksOf n

end LightControlMonitor.MultiButton
