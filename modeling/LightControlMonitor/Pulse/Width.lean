import LightControlMonitor.Pulse.Ticks

/-!
# Widths of a second and more

With exact readings of the capture timer the rising edge measures the time since the falling edge modulo a second, because it looks at the microseconds within the second only. A pause of whole seconds and a half wave, when the loop current comes back, is taken for a half wave.
-/

namespace LightControlMonitor.Pulse

/-- The statics behind a falling edge at `t1` and `n` expirations of the cross-pulse timer. -/
def lowPhase (c : Capture) (t1 n : Nat) : Capture :=
  (fun c => (timer2CrossPulseCb c).1)^[n] (int1Callback c false (exactRead t1)).1

/-- A rising edge at `t2` sets the flag and the delay to the place of the next pulse if the width is that of a half wave, and leaves both alone otherwise. -/
def GenuineOnly (t1 t2 : Nat) : Prop :=
  ∀ c n, ((int1Callback (lowPhase c t1 n) true (exactRead t2)).1.calibrateFlag,
      (int1Callback (lowPhase c t1 n) true (exactRead t2)).1.crossPulseUs) =
    if 10500 ≤ t2 - t1 ∧ t2 - t1 ≤ 19500 then (true, (t2 - t1) / 2 - 5000)
    else ((lowPhase c t1 n).calibrateFlag, (lowPhase c t1 n).crossPulseUs)

theorem lowPhase_t1Us (c : Capture) (t1 n : Nat) : (lowPhase c t1 n).t1Us = t1 % 1000000 := by
  induction n with
  | zero => rfl
  | succ n ih =>
    have hcb : ∀ c : Capture, (timer2CrossPulseCb c).1.t1Us = c.t1Us := by
      intro c
      unfold timer2CrossPulseCb
      split <;> rfl
    rw [lowPhase, Function.iterate_succ_apply', hcb]
    exact ih

/-- The width is measured modulo a second, and a second for whole seconds. -/
theorem captureWidth_exact {t1 t2 : Nat} (hle : t1 ≤ t2) :
    captureWidth (t1 % 1000000) (t2 % 1000000) =
      if (t2 - t1) % 1000000 = 0 then 1000000 else (t2 - t1) % 1000000 := by
  have hstart := Nat.mod_lt t1 (show 0 < 1000000 by decide)
  have hend := Nat.mod_lt t2 (show 0 < 1000000 by decide)
  unfold captureWidth
  split
  · rw [sub32_of_le (by omega) (by omega)]
    split <;> omega
  · rw [sub32_of_le (by omega) (by omega)]
    split <;> omega

/-- A rising edge that ends no valid width leaves the flag and the delay alone. -/
theorem int1Callback_rising_invalid {c : Capture} {read : HwtimerVal}
    (hwidth : ¬ (minCaptureWidth ≤ captureWidth c.t1Us read.usec ∧ captureWidth c.t1Us read.usec ≤ maxCaptureWidth)) :
    (int1Callback c true read).1.calibrateFlag = c.calibrateFlag ∧
      (int1Callback c true read).1.crossPulseUs = c.crossPulseUs := by
  simp only [int1Callback, Bool.true_eq_false, if_false]
  rw [if_neg hwidth]
  exact ⟨rfl, rfl⟩

/-- The rising edge measures whole seconds and the rest apart. -/
theorem rising_genuine {c : Capture} {t1 t2 : Nat} (hlt : t1 < t2) (hc : c.t1Us = t1 % 1000000) :
    ((int1Callback c true (exactRead t2)).1.calibrateFlag, (int1Callback c true (exactRead t2)).1.crossPulseUs) =
      if 10500 ≤ (t2 - t1) % 1000000 ∧ (t2 - t1) % 1000000 ≤ 19500 then (true, (t2 - t1) % 1000000 / 2 - 5000)
      else (c.calibrateFlag, c.crossPulseUs) := by
  have hwidth : captureWidth c.t1Us (exactRead t2).usec =
      if (t2 - t1) % 1000000 = 0 then 1000000 else (t2 - t1) % 1000000 := by
    rw [hc]
    exact captureWidth_exact hlt.le
  split
  · rename_i hgenuine
    rw [if_neg (by omega)] at hwidth
    obtain ⟨hflag, hcross, -⟩ := int1Callback_rising hwidth hgenuine.1 hgenuine.2
    rw [hflag, hcross]
  · rename_i hother
    have hinvalid : ¬ (minCaptureWidth ≤ captureWidth c.t1Us (exactRead t2).usec ∧
        captureWidth c.t1Us (exactRead t2).usec ≤ maxCaptureWidth) := by
      rw [hwidth, minCaptureWidth, maxCaptureWidth]
      split <;> omega
    obtain ⟨hflag, hcross⟩ := int1Callback_rising_invalid hinvalid
    rw [hflag, hcross]

/-- Exactly the pauses of whole seconds and a half wave are mistaken. -/
theorem genuine_only_iff {t1 t2 : Nat} (hlt : t1 < t2) :
    GenuineOnly t1 t2 ↔
      t2 - t1 < 1000000 ∨ ¬ (10500 ≤ (t2 - t1) % 1000000 ∧ (t2 - t1) % 1000000 ≤ 19500) := by
  constructor
  · intro hgenuine
    by_contra hpause
    rw [not_or, not_not, Nat.not_lt] at hpause
    have hstart := hgenuine .start 0
    rw [rising_genuine hlt (lowPhase_t1Us ..), if_pos hpause.2, if_neg (by omega)] at hstart
    exact Bool.noConfusion (Prod.mk.inj hstart).1
  · intro hcond c n
    rw [rising_genuine hlt (lowPhase_t1Us ..)]
    by_cases hshort : t2 - t1 < 1000000
    · rw [Nat.mod_eq_of_lt hshort]
    · rw [if_neg (hcond.resolve_left hshort), if_neg (by omega)]

theorem genuine_only_half_wave :
    GenuineOnly 995000 1007000 ↔
      1007000 - 995000 < 1000000 ∨ ¬ (10500 ≤ (1007000 - 995000) % 1000000 ∧ (1007000 - 995000) % 1000000 ≤ 19500) :=
  genuine_only_iff (by decide)

/-- A pause of a second and twelve milliseconds. -/
theorem not_genuine_only : ¬ ∀ t1 t2, t1 < t2 → GenuineOnly t1 t2 := by
  intro h
  exact absurd (h 0 1012000 (by decide) .start 0) (by decide)

end LightControlMonitor.Pulse
