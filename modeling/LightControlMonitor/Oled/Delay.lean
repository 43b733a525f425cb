import Mathlib.Logic.Function.Iterate

/-!
# The delay of the display bus

`delay_us` of `spi_driver.c` over the SysTick counter. The counter goes down to 0 and starts again at the reload value, one less than the clock cycles of a system tick. The elapsed time is corrected for a start at `0xffffff`, so behind the first restart the loop takes the time for over.
-/

namespace LightControlMonitor.Oled

def SystemCoreClock : Nat := 200000000
def RT_TICK_PER_SECOND : Nat := 1000

/-- The cycles from one restart of the counter to the next. -/
def period : Nat := SystemCoreClock / RT_TICK_PER_SECOND

/-- `us_ticks` as `spi_gpio_init` leaves it. -/
def usTicks : Nat := SystemCoreClock / 1000000

/-- One cycle of the counter with the reload value of `SystemClock_Config`. -/
def countDown (val : Nat) : Nat := if val = 0 then period - 1 else val - 1

/-- `SysTick->VAL` some cycles after it has been `val`. -/
def sysTickVal (val cycles : Nat) : Nat := countDown^[cycles] val

def elapsedTicks (start current : Nat) : Nat :=
  if current ≤ start then start - current else (start + (0xffffff - current)) % 0x100000000

/-- The loop over the instants of its reads, in cycles after the first one of `delay_us`: the instant whose read ends it. -/
def delayLoop (start ticks : Nat) : List Nat → Option Nat
  | [] => none
  | t :: rest =>
    if elapsedTicks start (sysTickVal start t) < ticks then delayLoop start ticks rest else some t

def delayUs (start us : Nat) (samples : List Nat) : Option Nat := delayLoop start (us * usTicks % 0x100000000) samples

def NeverEarly (start us : Nat) (samples : List Nat) : Prop :=
  ∀ t, delayUs start us samples = some t → us * usTicks ≤ t

/-! ### The counter -/

theorem period_eq : period = 200000 := rfl

theorem countDown_spec {val : Nat} (hval : val < period) :
    countDown val < period ∧ (countDown val + 1) % period = val := by
  unfold countDown
  rw [period_eq] at *
  split <;> omega

theorem sysTickVal_spec {val : Nat} (hval : val < period) (cycles : Nat) :
    sysTickVal val cycles < period ∧ (sysTickVal val cycles + cycles) % period = val := by
  induction cycles with
  | zero => exact ⟨hval, Nat.mod_eq_of_lt hval⟩
  | succ cycles ih =>
    have hstep := countDown_spec ih.1
    rw [sysTickVal, Function.iterate_succ_apply', ← sysTickVal]
    rw [period_eq] at *
    omega

theorem elapsedTicks_before {start t : Nat} (hstart : start < period) (ht : t ≤ start) :
    elapsedTicks start (sysTickVal start t) = t := by
  have hval := sysTickVal_spec hstart t
  rw [period_eq] at *
  unfold elapsedTicks
  split <;> omega

/-- From the first restart to the end of the period it measures more than a period. -/
theorem elapsedTicks_after {start t : Nat} (ht : start < t) (hlt : t < period) :
    period < elapsedTicks start (sysTickVal start t) := by
  have hval := sysTickVal_spec (Nat.lt_trans ht hlt) t
  rw [period_eq] at *
  unfold elapsedTicks
  split <;> omega

/-! ### The loop -/

theorem delayLoop_eq_some {start ticks t : Nat} {samples : List Nat} (hends : delayLoop start ticks samples = some t) :
    t ∈ samples ∧ ticks ≤ elapsedTicks start (sysTickVal start t) := by
  induction samples with
  | nil => contradiction
  | cons first rest ih =>
    rw [delayLoop] at hends
    split at hends
    · obtain ⟨hmem, hle⟩ := ih hends
      exact ⟨List.mem_cons_of_mem first hmem, hle⟩
    · rename_i hnot
      obtain rfl := Option.some.inj hends
      exact ⟨List.mem_cons_self, Nat.le_of_not_lt hnot⟩

theorem delayLoop_le {start ticks t : Nat} {samples : List Nat} (hsorted : samples.Pairwise (· < ·)) (hmem : t ∈ samples)
    (henough : ticks ≤ elapsedTicks start (sysTickVal start t)) :
    ∃ u ≤ t, delayLoop start ticks samples = some u := by
  induction samples with
  | nil => contradiction
  | cons first rest ih =>
    obtain ⟨hfirst, hrest⟩ := List.pairwise_cons.mp hsorted
    rw [delayLoop]
    obtain rfl | htail := List.mem_cons.mp hmem
    · exact ⟨t, Nat.le_refl t, if_neg (Nat.not_lt.mpr henough)⟩
    · split
      · exact ih hrest htail
      · exact ⟨first, Nat.le_of_lt (hfirst t htail), rfl⟩

/-- The delay is long enough exactly when no read falls between the restart of the counter and the end of the time. -/
theorem neverEarly_iff {start us : Nat} {samples : List Nat} (hstart : start < period) (hus : us * usTicks < period)
    (hsorted : samples.Pairwise (· < ·)) :
    NeverEarly start us samples ↔ ∀ t ∈ samples, ¬ (start < t ∧ t < us * usTicks) := by
  have hticks : us * usTicks % 0x100000000 = us * usTicks := Nat.mod_eq_of_lt (Nat.lt_trans hus (by decide))
  rw [NeverEarly, delayUs, hticks]
  constructor
  · rintro hnever t hmem ⟨hrestart, hearly⟩
    have hmore := elapsedTicks_after hrestart (Nat.lt_trans hearly hus)
    obtain ⟨u, hle, hends⟩ := delayLoop_le hsorted hmem (Nat.le_of_lt (Nat.lt_trans hus hmore))
    exact absurd (hnever u hends) (Nat.not_le.mpr (Nat.lt_of_le_of_lt hle hearly))
  · intro hclear t hends
    obtain ⟨hmem, henough⟩ := delayLoop_eq_some hends
    by_cases hbefore : t ≤ start
    · rwa [elapsedTicks_before hstart hbefore] at henough
    · by_contra hearly
      exact hclear t hmem ⟨Nat.lt_of_not_le hbefore, Nat.lt_of_not_le hearly⟩

theorem neverEarly_iff_halfPeriod :
    NeverEarly 100000 2 [100, 500] ↔ ∀ t ∈ [100, 500], ¬ (100000 < t ∧ t < 2 * usTicks) :=
  neverEarly_iff (by decide) (by decide) (by decide)

/-- The counter restarts after 10 cycles, and a read 20 cycles after the first one ends a delay of 400. -/
theorem not_neverEarly_restart : ¬ NeverEarly 10 2 [20] := by
  intro h
  have hearly := h 20 (by decide)
  revert hearly
  decide

end LightControlMonitor.Oled
