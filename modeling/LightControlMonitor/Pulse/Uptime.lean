import LightControlMonitor.Lib.Rounding
import LightControlMonitor.Pulse.Capture
import Mathlib.Data.Rat.Floor
import Mathlib.Tactic.NormNum
import Mathlib.Tactic.Positivity
import Mathlib.Tactic.Ring

/-!
# The capture timer over the uptime

`rt_hwtimer_read` computes the time since the timer was started in `float` seconds, and the capture timer is started once. The readings of a pulse are therefore two numbers with 24 significant digits, and their difference is off by up to the spacing of such numbers, which doubles with every power of two of the uptime. Below 1024 s the spacing is at most 61 µs; above it is at least 122 µs, and the first falling edge whose width can be off by more than 100 µs comes 40 µs later.
-/

namespace LightControlMonitor.Pulse

open Rounding

/-- The elapsed time in seconds as `rt_hwtimer_read` holds it. -/
def floatSeconds (elapsedUs : Nat) : ℚ := nearest 24 ((elapsedUs : ℚ) / 1000000)

/-- `rt_hwtimer_read`, `elapsedUs` microseconds after the timer was started. -/
def rtHwtimerRead (elapsedUs : Nat) : HwtimerVal :=
  let t := floatSeconds elapsedUs
  let sec := ⌊t⌋₊
  ⟨sec, ⌊(t - sec) * 1000000⌋₊⟩

def measure (c : Capture) (fall width : Nat) : Capture :=
  (int1Callback (int1Callback c false (rtHwtimerRead fall)).1 true (rtHwtimerRead (fall + width))).1

/-- The width is measured within 100 µs, and the pulse it places is armed at the next falling edge. -/
def Accurate (fall width : Nat) : Prop :=
  ∀ c, |((measure c fall width).icr1Time : ℤ) - width| ≤ 100 ∧
    ∀ read, (int1Callback (measure c fall width) false read).2 =
      [.startTimer2CrossPulse ((measure c fall width).icr1Time / 2 - 5000)]

/-! ### The reading in microseconds -/

/-- The reading, its seconds and microseconds put together. -/
def shownUs (elapsedUs : Nat) : Nat := ⌊floatSeconds elapsedUs * 1000000⌋₊

theorem floatSeconds_nonneg (elapsedUs : Nat) : 0 ≤ floatSeconds elapsedUs :=
  nearest_nonneg 24 (by positivity)

theorem rtHwtimerRead_usec (elapsedUs : Nat) : (rtHwtimerRead elapsedUs).usec = shownUs elapsedUs % 1000000 := by
  have hnonneg := floatSeconds_nonneg elapsedUs
  change ⌊(floatSeconds elapsedUs - ⌊floatSeconds elapsedUs⌋₊) * 1000000⌋₊ =
    ⌊floatSeconds elapsedUs * 1000000⌋₊ % 1000000
  generalize floatSeconds elapsedUs = t at *
  have hsec := Nat.floor_le hnonneg
  have hfract := Nat.lt_floor_add_one t
  have hsplit : t * 1000000 = (t - ⌊t⌋₊) * 1000000 + ((⌊t⌋₊ * 1000000 : ℕ) : ℚ) := by
    push_cast
    ring
  have husec : ⌊(t - ⌊t⌋₊) * 1000000⌋₊ < 1000000 := by
    rw [Nat.floor_lt (by linarith)]
    push_cast
    linarith
  rw [hsplit, Nat.floor_add_natCast (by linarith)]
  omega

theorem abs_floatSeconds_sub_le {elapsedUs : Nat} {e : ℤ} (hlt : (elapsedUs : ℚ) / 1000000 < 2 ^ e) :
    |floatSeconds elapsedUs * 1000000 - elapsedUs| ≤ 2 ^ (e - 24) / 2 * 1000000 := by
  have herror := abs_nearest_sub_le_of_lt (p := 24) (show (0 : ℚ) ≤ elapsedUs / 1000000 by positivity) hlt
  have hscale : floatSeconds elapsedUs * 1000000 - elapsedUs =
      (floatSeconds elapsedUs - elapsedUs / 1000000) * 1000000 := by
    ring
  rw [hscale, abs_mul, abs_of_pos (show (0 : ℚ) < 1000000 by norm_num)]
  exact mul_le_mul_of_nonneg_right herror (by norm_num)

/-- Below `2 ^ e` seconds a reading is off by half a spacing, and one more where it is cut to microseconds. -/
theorem shownUs_near {elapsedUs bound : Nat} {e : ℤ} (hlt : (elapsedUs : ℚ) / 1000000 < 2 ^ e)
    (hbound : (2 : ℚ) ^ (e - 24) / 2 * 1000000 < bound) :
    elapsedUs ≤ shownUs elapsedUs + bound ∧ shownUs elapsedUs < elapsedUs + bound := by
  obtain ⟨hlow, hhigh⟩ := abs_le.mp (abs_floatSeconds_sub_le hlt)
  have hle := Nat.floor_le (mul_nonneg (floatSeconds_nonneg elapsedUs) (show (0 : ℚ) ≤ 1000000 by norm_num))
  have hgt := Nat.lt_floor_add_one (floatSeconds elapsedUs * 1000000)
  have hlow' : (elapsedUs : ℚ) < (shownUs elapsedUs : ℚ) + bound + 1 := by
    unfold shownUs
    linarith
  have hhigh' : (shownUs elapsedUs : ℚ) < elapsedUs + bound := by
    unfold shownUs
    linarith
  constructor
  · exact Nat.lt_succ_iff.mp (by exact_mod_cast hlow')
  · exact_mod_cast hhigh'

theorem shownUs_near_first {elapsedUs : Nat} (hlt : elapsedUs < 1024000000) :
    elapsedUs ≤ shownUs elapsedUs + 31 ∧ shownUs elapsedUs < elapsedUs + 31 := by
  have hcast : (elapsedUs : ℚ) < 1024000000 := by exact_mod_cast hlt
  exact shownUs_near (e := 10) (by norm_num; linarith) (by norm_num)

theorem shownUs_near_second {elapsedUs : Nat} (hlt : elapsedUs < 2048000000) :
    elapsedUs ≤ shownUs elapsedUs + 62 ∧ shownUs elapsedUs < elapsedUs + 62 := by
  have hcast : (elapsedUs : ℚ) < 2048000000 := by exact_mod_cast hlt
  exact shownUs_near (e := 11) (by norm_num; linarith) (by norm_num)

/-- From 1024 s on a reading is a multiple of `2 ^ -13` seconds. -/
theorem floatSeconds_eq {elapsedUs n : Nat} (hle : 1024000000 ≤ elapsedUs) (hlt : elapsedUs < 2048000000)
    (hnear : |(elapsedUs : ℚ) / 1000000 - n * 2 ^ (-13 : ℤ)| < 2 ^ (-13 : ℤ) / 2) :
    floatSeconds elapsedUs = n * 2 ^ (-13 : ℤ) := by
  have hcast : (1024000000 : ℚ) ≤ elapsedUs := by exact_mod_cast hle
  have hcast' : (elapsedUs : ℚ) < 2048000000 := by exact_mod_cast hlt
  have hspacing : spacing 24 ((elapsedUs : ℚ) / 1000000) = 2 ^ (-13 : ℤ) := by
    rw [spacing_eq (e := 10) (by norm_num; linarith) (by norm_num; linarith)]
    norm_num
  have hnearest := nearest_eq (p := 24) (x := (elapsedUs : ℚ) / 1000000) (n := (n : ℤ))
    (by rw [hspacing]; exact_mod_cast hnear)
  rw [floatSeconds, hnearest, hspacing]
  norm_num

/-- In the first 61 µs after 1024 s the timer shows 1024 s. -/
theorem shownUs_after_1024 {elapsedUs : Nat} (hle : 1024000000 ≤ elapsedUs) (hlt : elapsedUs ≤ 1024000061) :
    shownUs elapsedUs = 1024000000 := by
  have hcast : (1024000000 : ℚ) ≤ elapsedUs := by exact_mod_cast hle
  have hcast' : (elapsedUs : ℚ) ≤ 1024000061 := by exact_mod_cast hlt
  have hseconds := floatSeconds_eq (n := 8388608) hle (by omega) (by
    rw [abs_lt]
    norm_num
    constructor <;> linarith)
  rw [shownUs, hseconds]
  norm_num

/-! ### The width -/

/-- The measured width is the difference of the readings. -/
theorem measure_icr1Time {c : Capture} {fall width : Nat} (hpos : shownUs fall < shownUs (fall + width))
    (hlt : shownUs (fall + width) < shownUs fall + 1000000) :
    (measure c fall width).icr1Time = shownUs (fall + width) - shownUs fall := by
  rw [measure, int1Callback_rising_icr1Time, (int1Callback_falling c _).1, rtHwtimerRead_usec, rtHwtimerRead_usec]
  have hwidth := @captureWidth_mod (shownUs fall) (shownUs (fall + width) - shownUs fall) (by omega) (by omega)
  rwa [Nat.add_sub_cancel' hpos.le] at hwidth

/-- A width within 100 µs of a valid one is accepted. -/
theorem accurate_of_shown {fall width : Nat} (hmin : 11000 ≤ width) (hmax : width ≤ 19000)
    (hlow : shownUs fall + width ≤ shownUs (fall + width) + 100)
    (hhigh : shownUs (fall + width) ≤ shownUs fall + width + 100) : Accurate fall width := by
  intro c
  have hicr : (measure c fall width).icr1Time = shownUs (fall + width) - shownUs fall :=
    measure_icr1Time (by omega) (by omega)
  refine ⟨?_, fun read => ?_⟩
  · rw [hicr, abs_le]
    omega
  · have hmin' : minCaptureWidth ≤ (measure c fall width).icr1Time := by
      rw [hicr, minCaptureWidth]
      omega
    have hmax' : (measure c fall width).icr1Time ≤ maxCaptureWidth := by
      rw [hicr, maxCaptureWidth]
      omega
    obtain ⟨hflag, hcross, -⟩ := int1Callback_rising (int1Callback_rising_icr1Time _ _).symm hmin' hmax'
    change (measure c fall width).calibrateFlag = true at hflag
    change (measure c fall width).crossPulseUs = (measure c fall width).icr1Time / 2 - 5000 at hcross
    rw [(int1Callback_falling _ read).2.2.2, if_pos hflag, hcross]

theorem accurate_of_lt {fall width : Nat} (hfall : fall < 1024000040) (hmin : 11000 ≤ width) (hmax : width ≤ 19000) :
    Accurate fall width := by
  have hend := shownUs_near_second (show fall + width < 2048000000 by omega)
  rcases Nat.lt_or_ge fall 1024000000 with hfirst | hsecond
  · have hstart := shownUs_near_first hfirst
    exact accurate_of_shown hmin hmax (by omega) (by omega)
  · have hstart := shownUs_after_1024 hsecond (by omega)
    exact accurate_of_shown hmin hmax (by omega) (by omega)

/-- At 40 µs after 1024 s the falling edge is shown 40 µs early and the rising edge 61 µs late. -/
theorem not_accurate_1024 : ¬ Accurate 1024000040 12106 := by
  intro h
  have hstart : shownUs 1024000040 = 1024000000 := shownUs_after_1024 (by omega) (by omega)
  have hend : shownUs (1024000040 + 12106) = 1024012207 := by
    have hseconds : floatSeconds (1024000040 + 12106) = (8388708 : ℕ) * 2 ^ (-13 : ℤ) :=
      floatSeconds_eq (by omega) (by omega) (by
        rw [abs_lt]
        norm_num)
    rw [shownUs, hseconds, Nat.floor_eq_iff (by positivity)]
    norm_num
  have herror := (h .start).1
  rw [measure_icr1Time (by omega) (by omega), hstart, hend] at herror
  revert herror
  decide

/-- Every width at every falling edge up to some uptime is measured well exactly if that uptime is below 1024 s and 40 µs. -/
theorem accurate_iff (uptime : Nat) :
    (∀ fall width, fall ≤ uptime → 11000 ≤ width → width ≤ 19000 → Accurate fall width) ↔ uptime < 1024000040 := by
  constructor
  · intro h
    by_contra hlong
    exact not_accurate_1024 (h _ _ (Nat.not_lt.mp hlong) (by decide) (by decide))
  · intro hshort fall width hfall
    exact accurate_of_lt (hfall.trans_lt hshort)

theorem not_accurate_uptime :
    ¬ ∀ fall width, 11000 ≤ width → width ≤ 19000 → Accurate fall width := fun h =>
  not_accurate_1024 (h _ _ (by decide) (by decide))

end LightControlMonitor.Pulse
