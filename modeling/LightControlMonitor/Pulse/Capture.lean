import Mathlib.Algebra.Order.Group.Nat
import Mathlib.Data.List.Basic

/-!
# The zero-cross capture

`pulse_generate.c`: the edges of the comparator measure the low width of the mains signal, and the width places the zero-cross pulse of the next period. The callbacks share the static variables of `int1_callback` and the flag `g_calibrate_flag`; what they order from the hardware and from the lamp bus is their list of effects.

The times are `uint32_t`. The readings of the capture timer are a parameter of `int1Callback`, because how exact they are is a property of the timer driver.
-/

namespace LightControlMonitor.Pulse

/-- `rt_hwtimerval_t`, of a time that is not negative. -/
structure HwtimerVal where
  sec : Nat
  usec : Nat
  deriving DecidableEq

structure Capture where
  calibrateFlag : Bool
  t1Us : Nat
  t2Us : Nat
  crossPulseUs : Nat
  icr1Time : Nat
  t1Max : Nat
  t2Max : Nat
  deriving DecidableEq

/-- The statics as the image has them. -/
def Capture.start : Capture where
  calibrateFlag := false
  t1Us := 0
  t2Us := 0
  crossPulseUs := 0
  icr1Time := 0
  t1Max := 0
  t2Max := 0

inductive Effect
  | pulseOn
  | startTimer2CrossPulse (delayUs : Nat)
  | startTimer3PulseWidth (delayUs : Nat)
  | sampleCurrent
  | lmsStateMachine
  deriving DecidableEq

/-- Subtraction of `uint32_t`. -/
def sub32 (a b : Nat) : Nat := (a + 2 ^ 32 - b) % 2 ^ 32

/-- `MinCaptureCurWidth_ms * 1000` and `MaxCaptureCurWidth_ms * 1000`. The comparison is made in `float`, which has both bounds exactly and rounds monotonically, so it is the comparison of the integers. -/
def minCaptureWidth : Nat := 10500
def maxCaptureWidth : Nat := 19500

/-- The width between two readings of the microseconds within the second. -/
def captureWidth (t1Us t2Us : Nat) : Nat :=
  if t2Us > t1Us then sub32 t2Us t1Us else (sub32 1000000 t1Us + t2Us) % 2 ^ 32

/-- `int1_callback` at an edge that leaves the pin at `pinLevel`, with the reading of `timer1_ICR1`. -/
def int1Callback (c : Capture) (pinLevel : Bool) (timeoutS : HwtimerVal) : Capture × List Effect :=
  if pinLevel = false then
    ({ c with t1Max := if c.t1Us > c.t1Max then c.t1Us else c.t1Max, t1Us := timeoutS.usec },
      if c.calibrateFlag then [.startTimer2CrossPulse c.crossPulseUs] else [])
  else
    let width := captureWidth c.t1Us timeoutS.usec
    let measured := { c with
      t2Us := timeoutS.usec, t2Max := if timeoutS.usec > c.t2Max then timeoutS.usec else c.t2Max, icr1Time := width }
    if width ≥ minCaptureWidth ∧ width ≤ maxCaptureWidth then
      ({ measured with crossPulseUs := sub32 (width / 2) (5 * 1000), calibrateFlag := true }, [])
    else (measured, [])

def timer2CrossPulseCb (c : Capture) : Capture × List Effect :=
  if c.calibrateFlag then
    ({ c with calibrateFlag := false },
      [.pulseOn, .startTimer3PulseWidth 1000, .startTimer2CrossPulse 10000, .sampleCurrent, .lmsStateMachine])
  else (c, [.pulseOn, .startTimer3PulseWidth 1000, .lmsStateMachine])

/-! ### Widths -/

theorem sub32_of_le {a b : Nat} (hle : b ≤ a) (ha : a < 2 ^ 32) : sub32 a b = a - b := by
  unfold sub32
  omega

/-- The microseconds within the second are enough to measure less than a second. -/
theorem captureWidth_mod {start width : Nat} (hpos : 0 < width) (hlt : width < 1000000) :
    captureWidth (start % 1000000) ((start + width) % 1000000) = width := by
  have hstart := Nat.mod_lt start (show 0 < 1000000 by decide)
  have hend := Nat.mod_lt (start + width) (show 0 < 1000000 by decide)
  unfold captureWidth
  split
  · rw [sub32_of_le (by omega) (by omega)]
    omega
  · rw [sub32_of_le (by omega) (by omega)]
    omega

/-! ### Edges -/

theorem int1Callback_falling (c : Capture) (read : HwtimerVal) :
    (int1Callback c false read).1.t1Us = read.usec ∧
      (int1Callback c false read).1.calibrateFlag = c.calibrateFlag ∧
      (int1Callback c false read).1.crossPulseUs = c.crossPulseUs ∧
      (int1Callback c false read).2 = if c.calibrateFlag then [.startTimer2CrossPulse c.crossPulseUs] else [] :=
  ⟨rfl, rfl, rfl, rfl⟩

theorem int1Callback_rising_icr1Time (c : Capture) (read : HwtimerVal) :
    (int1Callback c true read).1.icr1Time = captureWidth c.t1Us read.usec := by
  simp only [int1Callback, Bool.true_eq_false, if_false]
  split <;> rfl

theorem int1Callback_rising_effects (c : Capture) (read : HwtimerVal) : (int1Callback c true read).2 = [] := by
  simp only [int1Callback, Bool.true_eq_false, if_false]
  split <;> rfl

/-- A rising edge that ends a valid width sets the flag and the delay of the next pulse. -/
theorem int1Callback_rising {c : Capture} {read : HwtimerVal} {width : Nat}
    (hwidth : captureWidth c.t1Us read.usec = width) (hmin : minCaptureWidth ≤ width) (hmax : width ≤ maxCaptureWidth) :
    (int1Callback c true read).1.calibrateFlag = true ∧
      (int1Callback c true read).1.crossPulseUs = width / 2 - 5000 ∧ (int1Callback c true read).2 = [] := by
  have hvalid : width ≥ minCaptureWidth ∧ width ≤ maxCaptureWidth := ⟨hmin, hmax⟩
  have hcross : sub32 (width / 2) (5 * 1000) = width / 2 - 5000 := by
    unfold minCaptureWidth at hmin
    unfold maxCaptureWidth at hmax
    exact sub32_of_le (by omega) (by omega)
  simp only [int1Callback, Bool.true_eq_false, if_false, hwidth, if_pos hvalid, hcross, and_self]

end LightControlMonitor.Pulse
