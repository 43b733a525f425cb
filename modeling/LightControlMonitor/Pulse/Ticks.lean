import LightControlMonitor.Pulse.Capture

/-!
# The zero crossings of a mains period

The bench: falling edges of the comparator every 20 ms, rising edges when the low width is over, the cross-pulse timer as an ideal one-shot and exact readings of the capture timer. An edge and an expiration at the same moment are served in the order of their interrupt priorities, the edge first.

The flag that the rising edge sets is meant for the first pulse of the next period. When the rising edge comes before the second pulse of its own period, that pulse takes the flag: it starts the timer once more, the next falling edge finds the flag cleared, and the next period has one crossing.
-/

namespace LightControlMonitor.Pulse

/-- The falling edge that opens period `k`. -/
def fallTime (k : Nat) : Nat := 20000 * k

/-- The edges in order: even ones fall, odd ones rise. -/
def edgeTime (w : Nat → Nat) (n : Nat) : Nat :=
  if n % 2 = 0 then fallTime (n / 2) else fallTime (n / 2) + w (n / 2)

def exactRead (t : Nat) : HwtimerVal := ⟨t / 1000000, t % 1000000⟩

structure Bench where
  capture : Capture
  timer2 : Option Nat
  nextEdge : Nat

/-- A start of the one-shot replaces a pending one. -/
def armTimer2 (now : Nat) (timer2 : Option Nat) (effects : List Effect) : Option Nat :=
  effects.foldl (fun timer2 effect =>
    match effect with
    | .startTimer2CrossPulse delay => some (now + delay)
    | _ => timer2) timer2

/-- When something happens next. -/
def Bench.time (w : Nat → Nat) (b : Bench) : Nat :=
  match b.timer2 with
  | some expiry => min expiry (edgeTime w b.nextEdge)
  | none => edgeTime w b.nextEdge

def Bench.edge (w : Nat → Nat) (b : Bench) : Bench × List (Nat × Effect) :=
  let now := edgeTime w b.nextEdge
  let r := int1Callback b.capture (b.nextEdge % 2 = 1) (exactRead now)
  (⟨r.1, armTimer2 now b.timer2 r.2, b.nextEdge + 1⟩, r.2.map fun effect => (now, effect))

def Bench.fire (b : Bench) (now : Nat) : Bench × List (Nat × Effect) :=
  let r := timer2CrossPulseCb b.capture
  ({ b with capture := r.1, timer2 := armTimer2 now none r.2 }, r.2.map fun effect => (now, effect))

def Bench.step (w : Nat → Nat) (b : Bench) : Bench × List (Nat × Effect) :=
  match b.timer2 with
  | some expiry => if expiry < edgeTime w b.nextEdge then b.fire expiry else b.edge w
  | none => b.edge w

def Bench.start : Bench := ⟨.start, none, 0⟩

/-- The first `n` interrupts and what they ordered, with the time. -/
def Bench.run (w : Nat → Nat) : Nat → Bench × List (Nat × Effect)
  | 0 => (.start, [])
  | n + 1 => ((Bench.run w n).1.step w |>.1, (Bench.run w n).2 ++ ((Bench.run w n).1.step w).2)

/-- The calls of `lms_state_machine` in period `k`. -/
def crossings (k : Nat) (history : List (Nat × Effect)) : Nat :=
  history.countP fun e => e.2 = .lmsStateMachine ∧ fallTime k ≤ e.1 ∧ e.1 < fallTime (k + 1)

/-- In the whole run period `k` has exactly two crossings. -/
def TwoCrossings (w : Nat → Nat) (k : Nat) : Prop := ∃ N, ∀ n, N ≤ n → crossings k (Bench.run w n).2 = 2

/-- Every low width is one the capture accepts. -/
def ValidWidths (w : Nat → Nat) : Prop := ∀ k, minCaptureWidth ≤ w k ∧ w k ≤ maxCaptureWidth

/-! ### One interrupt -/

theorem edgeTime_fall (w : Nat → Nat) (k : Nat) : edgeTime w (2 * k) = fallTime k := by
  rw [edgeTime, if_pos (by omega), Nat.mul_div_cancel_left k (by decide)]

theorem edgeTime_rise (w : Nat → Nat) (k : Nat) : edgeTime w (2 * k + 1) = fallTime k + w k := by
  rw [edgeTime, if_neg (by omega), show (2 * k + 1) / 2 = k by omega]

theorem ValidWidths.edgeTime_lt {w : Nat → Nat} (hw : ValidWidths w) (n : Nat) : edgeTime w n < edgeTime w (n + 1) := by
  have hwidth := hw (n / 2)
  unfold minCaptureWidth maxCaptureWidth at hwidth
  rcases Nat.mod_two_eq_zero_or_one n with heven | hodd
  · rw [show n = 2 * (n / 2) by omega, edgeTime_fall, edgeTime_rise]
    omega
  · rw [show n = 2 * (n / 2) + 1 by omega, edgeTime_rise, show 2 * (n / 2) + 1 + 1 = 2 * (n / 2 + 1) by omega,
      edgeTime_fall, fallTime, fallTime]
    omega

theorem armTimer2_ge {now t : Nat} {timer2 : Option Nat} {effects : List Effect}
    (hold : ∀ s, timer2 = some s → now ≤ s) (harm : armTimer2 now timer2 effects = some t) : now ≤ t := by
  induction effects generalizing timer2 with
  | nil => exact hold t harm
  | cons effect effects ih =>
    rw [armTimer2, List.foldl_cons] at harm
    refine ih ?_ harm
    cases effect with
    | startTimer2CrossPulse delay =>
      rintro s ⟨⟩
      exact Nat.le_add_right now delay
    | _ => exact hold

/-- A bench whose timer and next edge are not before `t` has nothing to do before `t`. -/
theorem Bench.le_time {w : Nat → Nat} {b : Bench} {t : Nat} (htimer : ∀ s, b.timer2 = some s → t ≤ s)
    (hedge : t ≤ edgeTime w b.nextEdge) : t ≤ b.time w := by
  unfold Bench.time
  split
  · exact le_min (htimer _ ‹_›) hedge
  · exact hedge

/-- Interrupts come in the order of their times. -/
theorem Bench.step_time {w : Nat → Nat} (hw : ValidWidths w) (b : Bench) :
    (∀ e ∈ (b.step w).2, e.1 = b.time w) ∧ b.time w ≤ (b.step w).1.time w := by
  have hnext := hw.edgeTime_lt b.nextEdge
  have hedge : (∀ s, b.timer2 = some s → edgeTime w b.nextEdge ≤ s) →
      (∀ e ∈ (b.edge w).2, e.1 = edgeTime w b.nextEdge) ∧ edgeTime w b.nextEdge ≤ (b.edge w).1.time w := by
    intro htimer
    refine ⟨?_, Bench.le_time (fun s => armTimer2_ge htimer) hnext.le⟩
    intro e he
    obtain ⟨effect, -, rfl⟩ := List.mem_map.mp he
    rfl
  unfold Bench.step Bench.time
  split
  · rename_i expiry htimer
    split
    · rename_i hlt
      rw [min_eq_left hlt.le]
      refine ⟨?_, Bench.le_time (fun s => armTimer2_ge (by simp)) hlt.le⟩
      intro e he
      obtain ⟨effect, -, rfl⟩ := List.mem_map.mp he
      rfl
    · rename_i hge
      rw [min_eq_right (Nat.not_lt.mp hge)]
      apply hedge
      intro s hs
      obtain rfl := Option.some.inj (htimer.symm.trans hs)
      exact Nat.not_lt.mp hge
  · rename_i htimer
    exact hedge (by simp [htimer])

/-- What is ordered after a moment is ordered at that time or later. -/
theorem Bench.run_add {w : Nat → Nat} (hw : ValidWidths w) (n m : Nat) :
    ∃ later, (Bench.run w (n + m)).2 = (Bench.run w n).2 ++ later ∧
      (∀ e ∈ later, (Bench.run w n).1.time w ≤ e.1) ∧ (Bench.run w n).1.time w ≤ (Bench.run w (n + m)).1.time w := by
  induction m with
  | zero => exact ⟨[], by simp, by simp, le_refl _⟩
  | succ m ih =>
    obtain ⟨later, hlater, htimes, hle⟩ := ih
    obtain ⟨hnow, hstep⟩ := Bench.step_time hw (Bench.run w (n + m)).1
    refine ⟨later ++ ((Bench.run w (n + m)).1.step w).2, ?_, ?_, hle.trans hstep⟩
    · rw [← Nat.add_assoc, Bench.run, hlater, List.append_assoc]
    · intro e he
      rcases List.mem_append.mp he with hold | hnew
      · exact htimes e hold
      · exact hle.trans (hnow e hnew).ge

section Crossings

variable {k : Nat}

theorem crossings_append (es fs : List (Nat × Effect)) : crossings k (es ++ fs) = crossings k es + crossings k fs :=
  List.countP_append

theorem crossings_before {es : List (Nat × Effect)} (hpast : ∀ e ∈ es, e.1 < fallTime k) : crossings k es = 0 := by
  rw [crossings, List.countP_eq_zero]
  intro e he
  have := hpast e he
  simp only [decide_eq_true_eq]
  omega

theorem crossings_after {es : List (Nat × Effect)} (hlater : ∀ e ∈ es, fallTime (k + 1) ≤ e.1) :
    crossings k es = 0 := by
  rw [crossings, List.countP_eq_zero]
  intro e he
  have := hlater e he
  simp only [decide_eq_true_eq]
  omega

theorem crossings_arm (t delay : Nat) : crossings k [(t, .startTimer2CrossPulse delay)] = 0 := by
  simp [crossings]

/-- The cross-pulse callback runs the machine of the lamp bus once. -/
theorem crossings_fire (c : Capture) (t : Nat) :
    crossings k ((timer2CrossPulseCb c).2.map fun effect => (t, effect)) =
      if fallTime k ≤ t ∧ t < fallTime (k + 1) then 1 else 0 := by
  unfold timer2CrossPulseCb crossings
  split <;> simp [List.countP_cons]

end Crossings

/-! ### One period -/

theorem Bench.step_edge {w : Nat → Nat} {b : Bench} (htimer : ∀ t, b.timer2 = some t → edgeTime w b.nextEdge ≤ t) :
    b.step w = b.edge w := by
  unfold Bench.step
  split
  · exact if_neg (Nat.not_lt.mpr (htimer _ ‹_›))
  · rfl

theorem Bench.step_fall {w : Nat → Nat} (c : Capture) {k : Nat} (timer2 : Option Nat)
    (htimer : ∀ t, timer2 = some t → fallTime k ≤ t) :
    Bench.step w ⟨c, timer2, 2 * k⟩ =
      (⟨(int1Callback c false (exactRead (fallTime k))).1,
          if c.calibrateFlag then some (fallTime k + c.crossPulseUs) else timer2, 2 * k + 1⟩,
        if c.calibrateFlag then [(fallTime k, .startTimer2CrossPulse c.crossPulseUs)] else []) := by
  rw [Bench.step_edge (by simpa [edgeTime_fall] using htimer)]
  simp only [Bench.edge, edgeTime_fall, show decide (2 * k % 2 = 1) = false from by simp]
  rw [(int1Callback_falling c _).2.2.2]
  split <;> rfl

theorem Bench.step_rise {w : Nat → Nat} (hw : ValidWidths w) {c : Capture} {k : Nat} (timer2 : Option Nat)
    (hfall : c.t1Us = fallTime k % 1000000) (htimer : ∀ t, timer2 = some t → fallTime k + w k ≤ t) :
    ∃ c', Bench.step w ⟨c, timer2, 2 * k + 1⟩ = (⟨c', timer2, 2 * (k + 1)⟩, []) ∧
      c'.calibrateFlag = true ∧ c'.crossPulseUs = w k / 2 - 5000 := by
  obtain ⟨hmin, hmax⟩ := hw k
  have hwidth : captureWidth c.t1Us (exactRead (fallTime k + w k)).usec = w k := by
    rw [hfall]
    unfold minCaptureWidth at hmin
    unfold maxCaptureWidth at hmax
    exact captureWidth_mod (by omega) (by omega)
  obtain ⟨hflag, hcross, heffects⟩ := int1Callback_rising hwidth hmin hmax
  refine ⟨_, ?_, hflag, hcross⟩
  rw [Bench.step_edge (by simpa [edgeTime_rise] using htimer)]
  simp only [Bench.edge, edgeTime_rise, show decide ((2 * k + 1) % 2 = 1) = true from by simp, heffects]
  rfl

theorem Bench.step_fire {w : Nat → Nat} (c : Capture) {t n : Nat} (hfirst : t < edgeTime w n) :
    Bench.step w ⟨c, some t, n⟩ =
      (⟨{ c with calibrateFlag := false }, if c.calibrateFlag then some (t + 10000) else none, n⟩,
        (timer2CrossPulseCb c).2.map fun effect => (t, effect)) := by
  simp only [Bench.step, Bench.fire, if_pos hfirst]
  rcases hflag : c.calibrateFlag with _ | _
  · have hsame : { c with calibrateFlag := false } = c := by rw [← hflag]
    simp only [timer2CrossPulseCb, hflag, Bool.false_eq_true, if_false, hsame]
    rfl
  · simp only [timer2CrossPulseCb, hflag, if_true]
    rfl

theorem Bench.run_succ {w : Nat → Nat} {n : Nat} {b b' : Bench} {es out : List (Nat × Effect)}
    (hrun : Bench.run w n = (b, es)) (hstep : b.step w = (b', out)) : Bench.run w (n + 1) = (b', es ++ out) := by
  rw [Bench.run, hrun, hstep]

/-- The effects of one step at the end of a history that is over before `u`. -/
theorem times_lt_append {es : List (Nat × Effect)} {effects : List Effect} {t u : Nat} (hes : ∀ e ∈ es, e.1 < u)
    (ht : t < u) : ∀ e ∈ es ++ effects.map (t, ·), e.1 < u := by
  intro e he
  rcases List.mem_append.mp he with hold | hnew
  · exact hes e hold
  · obtain ⟨effect, -, rfl⟩ := List.mem_map.mp hnew
    exact ht

/-- The falling edge of period `k` comes next; it finds the flag set and the delay of the last width. -/
def Ready (w : Nat → Nat) (k n : Nat) : Prop :=
  ∃ c es, Bench.run w n = (⟨c, none, 2 * k⟩, es) ∧ c.calibrateFlag = true ∧
    c.crossPulseUs = w (k - 1) / 2 - 5000 ∧ ∀ e ∈ es, e.1 < fallTime k

/-- Once the edge of a later period is next, the crossings of a period are final. -/
theorem Ready.final {w : Nat → Nat} (hw : ValidWidths w) {j k n : Nat} (h : Ready w k n) (hjk : j < k) :
    TwoCrossings w j ↔ crossings j (Bench.run w n).2 = 2 := by
  obtain ⟨c, es, hrun, -, -, -⟩ := h
  have hstable : ∀ m, crossings j (Bench.run w (n + m)).2 = crossings j (Bench.run w n).2 := by
    intro m
    obtain ⟨later, hlater, htimes, -⟩ := Bench.run_add hw n m
    have hzero : crossings j later = 0 := crossings_after fun e he => by
      have hle := htimes e he
      rw [hrun] at hle
      have hedge : edgeTime w (2 * k) ≤ e.1 := hle
      rw [edgeTime_fall] at hedge
      unfold fallTime at hedge ⊢
      omega
    rw [hlater, crossings_append, hzero, Nat.add_zero]
  constructor
  · rintro ⟨N, hN⟩
    rw [← hstable N]
    exact hN _ (Nat.le_add_left ..)
  · intro htwo
    refine ⟨n, fun m hm => ?_⟩
    obtain ⟨d, rfl⟩ := Nat.exists_eq_add_of_le hm
    rw [hstable, htwo]

theorem ready_one {w : Nat → Nat} (hw : ValidWidths w) : Ready w 1 2 := by
  have hfall := Bench.run_succ (w := w) (n := 0) rfl (Bench.step_fall (k := 0) Capture.start none (by simp))
  obtain ⟨c, hrise, hflag, hcross⟩ := Bench.step_rise hw (k := 0) none
    (c := (int1Callback Capture.start false (exactRead (fallTime 0))).1) rfl (by simp)
  exact ⟨c, _, Bench.run_succ hfall hrise, hflag, hcross, by simp [Capture.start]⟩

/-- The falling edge and the first pulse of a period. -/
theorem Ready.first_pulse {w : Nat → Nat} (hw : ValidWidths w) {k n : Nat} (h : Ready w k n) :
    ∃ c es, Bench.run w (n + 2) = (⟨c, some (fallTime k + (w (k - 1) / 2 - 5000) + 10000), 2 * k + 1⟩, es) ∧
      c.calibrateFlag = false ∧ c.t1Us = fallTime k % 1000000 ∧
      (∀ e ∈ es, e.1 < fallTime k + w k) ∧ ∀ j, k ≤ j → crossings j es = if j = k then 1 else 0 := by
  obtain ⟨c, es, hrun, hflag, hcross, hpast⟩ := h
  obtain ⟨hmin, hmax⟩ := hw (k - 1)
  obtain ⟨hmin', -⟩ := hw k
  unfold minCaptureWidth at hmin hmin'
  unfold maxCaptureWidth at hmax
  have hfall := Bench.run_succ hrun (Bench.step_fall c none (by simp))
  rw [if_pos hflag, if_pos hflag, hcross] at hfall
  have hfirst : fallTime k + (w (k - 1) / 2 - 5000) < edgeTime w (2 * k + 1) := by
    rw [edgeTime_rise]
    omega
  have hfire := Bench.run_succ hfall (Bench.step_fire _ hfirst)
  have hflag' : (int1Callback c false (exactRead (fallTime k))).1.calibrateFlag = true := hflag
  rw [if_pos hflag'] at hfire
  refine ⟨_, _, hfire, rfl, rfl, ?_, fun j hj => ?_⟩
  · apply times_lt_append
    · apply @times_lt_append _ [_]
      · exact fun e he => (hpast e he).trans_le (Nat.le_add_right ..)
      · omega
    · omega
  · have hbefore : crossings j es = 0 :=
      crossings_before fun e he => (hpast e he).trans_le (Nat.mul_le_mul_left 20000 hj)
    rw [crossings_append, crossings_append, hbefore, crossings_arm, crossings_fire]
    unfold fallTime
    split <;> split <;> omega

/-- The last pulse of a period, which finds the flag cleared, and the rising edge behind it. -/
theorem ready_of_last_pulse {w : Nat → Nat} (hw : ValidWidths w) {k n t : Nat} {c : Capture} {es : List (Nat × Effect)}
    (hrun : Bench.run w n = (⟨c, some t, 2 * k + 1⟩, es)) (hflag : c.calibrateFlag = false)
    (hfall : c.t1Us = fallTime k % 1000000) (hge : fallTime k ≤ t) (hlt : t < fallTime k + w k)
    (hpast : ∀ e ∈ es, e.1 < fallTime k + w k) :
    Ready w (k + 1) (n + 2) ∧ crossings k (Bench.run w (n + 2)).2 = crossings k es + 1 := by
  obtain ⟨-, hmax⟩ := hw k
  unfold maxCaptureWidth at hmax
  have hnext : fallTime (k + 1) = fallTime k + 20000 := Nat.mul_succ ..
  have hfire := Bench.run_succ hrun (Bench.step_fire c (by rwa [edgeTime_rise]))
  rw [hflag, if_neg Bool.false_ne_true] at hfire
  obtain ⟨c', hrise, hflag', hcross'⟩ := Bench.step_rise hw none
    (c := { c with calibrateFlag := false }) hfall (by simp)
  have hdone := Bench.run_succ hfire hrise
  refine ⟨⟨c', _, hdone, hflag', hcross', ?_⟩, ?_⟩
  · rw [List.append_nil]
    apply times_lt_append
    · exact fun e he => (hpast e he).trans (by omega)
    · omega
  · rw [hdone, List.append_nil, crossings_append, crossings_fire, if_pos ⟨hge, by omega⟩]

/-- The rising edge comes after the second pulse: the next period is like this one. -/
theorem Ready.regular {w : Nat → Nat} (hw : ValidWidths w) {k n : Nat} (h : Ready w k n)
    (hlate : w (k - 1) / 2 + 5000 < w k) : Ready w (k + 1) (n + 4) ∧ crossings k (Bench.run w (n + 4)).2 = 2 := by
  obtain ⟨c, es, hrun, hflag, hfall, hpast, hcount⟩ := h.first_pulse hw
  obtain ⟨hmin, -⟩ := hw (k - 1)
  unfold minCaptureWidth at hmin
  obtain ⟨hready, hcrossings⟩ := ready_of_last_pulse hw hrun hflag hfall (by omega) (by omega) hpast
  refine ⟨hready, hcrossings.trans ?_⟩
  rw [hcount k le_rfl, if_pos rfl]

/-- The rising edge comes before the second pulse, which then takes its flag and starts the timer once more; the next falling edge finds the flag cleared. -/
theorem Ready.overtaken {w : Nat → Nat} (hw : ValidWidths w) {k n : Nat} (h : Ready w k n)
    (hearly : w k ≤ w (k - 1) / 2 + 5000) :
    ∃ c es, Bench.run w (n + 5) = (⟨c, some (fallTime k + w (k - 1) / 2 + 5000 + 10000), 2 * (k + 1) + 1⟩, es) ∧
      c.calibrateFlag = false ∧ c.t1Us = fallTime (k + 1) % 1000000 ∧ ∀ e ∈ es, e.1 < fallTime (k + 1) := by
  obtain ⟨c, es, hrun, hflag, hfall, hpast, -⟩ := h.first_pulse hw
  obtain ⟨hmin, hmax⟩ := hw (k - 1)
  obtain ⟨hmin', hmax'⟩ := hw k
  unfold minCaptureWidth at hmin hmin'
  unfold maxCaptureWidth at hmax hmax'
  have hnext : fallTime (k + 1) = fallTime k + 20000 := Nat.mul_succ ..
  have hsecond : fallTime k + (w (k - 1) / 2 - 5000) + 10000 = fallTime k + w (k - 1) / 2 + 5000 := by omega
  rw [hsecond] at hrun
  obtain ⟨c₁, hrise, hflag₁, -⟩ := Bench.step_rise hw (some (fallTime k + w (k - 1) / 2 + 5000)) hfall (by
    rintro t ⟨⟩
    omega)
  have hrun₁ := Bench.run_succ hrun hrise
  -- the second pulse takes the flag
  have hrun₂ := Bench.run_succ hrun₁ (Bench.step_fire c₁ (by
    rw [edgeTime_fall]
    omega))
  rw [if_pos hflag₁] at hrun₂
  have hrun₃ := Bench.run_succ hrun₂ (Bench.step_fall (k := k + 1) { c₁ with calibrateFlag := false } _ (by
    rintro t ⟨⟩
    omega))
  simp only [Bool.false_eq_true, if_false] at hrun₃
  refine ⟨_, _, hrun₃, rfl, rfl, ?_⟩
  simp only [List.append_nil]
  apply times_lt_append
  · exact fun e he => (hpast e he).trans (by omega)
  · omega

/-- The period behind a second pulse that took the flag has one crossing. -/
theorem Ready.irregular {w : Nat → Nat} (hw : ValidWidths w) {k n : Nat} (h : Ready w k n)
    (hearly : w k ≤ w (k - 1) / 2 + 5000) :
    Ready w (k + 2) (n + 7) ∧ crossings (k + 1) (Bench.run w (n + 7)).2 = 1 := by
  obtain ⟨c, es, hrun, hflag, hfall, hpast⟩ := h.overtaken hw hearly
  obtain ⟨hmin, hmax⟩ := hw (k - 1)
  obtain ⟨hmin', -⟩ := hw (k + 1)
  unfold minCaptureWidth at hmin hmin'
  unfold maxCaptureWidth at hmax
  have hnext : fallTime (k + 1) = fallTime k + 20000 := Nat.mul_succ ..
  obtain ⟨hready, hcrossings⟩ := ready_of_last_pulse hw hrun hflag hfall (by omega) (by omega)
    (fun e he => (hpast e he).trans_le (Nat.le_add_right ..))
  refine ⟨hready, hcrossings.trans ?_⟩
  rw [crossings_before hpast]

/-- Every period is reached if the rising edges of all periods reached come after the second pulse. -/
theorem exists_ready {w : Nat → Nat} (hw : ValidWidths w)
    (hlate : ∀ k n, 1 ≤ k → Ready w k n → w (k - 1) / 2 + 5000 < w k) {k : Nat} (hk : 1 ≤ k) : ∃ n, Ready w k n := by
  induction k, hk using Nat.le_induction with
  | base => exact ⟨2, ready_one hw⟩
  | succ k hk ih =>
    obtain ⟨n, hn⟩ := ih
    exact ⟨n + 4, (hn.regular hw (hlate k n hk hn)).1⟩

/-- A period with its two crossings leads to the next one; otherwise the period behind it has one. -/
theorem late_of_two_crossings {w : Nat → Nat} (hw : ValidWidths w) (htwo : ∀ k, 1 ≤ k → TwoCrossings w k) :
    ∀ k, 1 ≤ k → w (k - 1) / 2 + 5000 < w k := by
  have hlate : ∀ k n, 1 ≤ k → Ready w k n → w (k - 1) / 2 + 5000 < w k := by
    intro k n _ hn
    by_contra hearly
    obtain ⟨hnext, hone⟩ := hn.irregular hw (Nat.not_lt.mp hearly)
    have htwo' := (hnext.final hw (Nat.lt_succ_self (k + 1))).mp (htwo (k + 1) (by omega))
    exact absurd (hone.symm.trans htwo') (by decide)
  intro k hk
  obtain ⟨n, hn⟩ := exists_ready hw hlate hk
  exact hlate k n hk hn

theorem two_crossings_of_late {w : Nat → Nat} (hw : ValidWidths w) (hlate : ∀ k, 1 ≤ k → w (k - 1) / 2 + 5000 < w k) :
    ∀ k, 1 ≤ k → TwoCrossings w k := by
  intro k hk
  obtain ⟨n, hn⟩ := exists_ready hw (fun k _ hk _ => hlate k hk) hk
  obtain ⟨hnext, htwo⟩ := hn.regular hw (hlate k hk)
  exact (hnext.final hw (Nat.lt_succ_self k)).mpr htwo

/-- Every period has two crossings exactly if every rising edge comes after the second pulse of its period, which the width before has placed. -/
theorem two_crossings_iff {w : Nat → Nat} (hw : ValidWidths w) :
    (∀ k, 1 ≤ k → TwoCrossings w k) ↔ ∀ k, 1 ≤ k → w (k - 1) / 2 + 5000 < w k :=
  ⟨late_of_two_crossings hw, two_crossings_of_late hw⟩

theorem two_crossings_constant : TwoCrossings (fun _ => 15000) 1 :=
  (two_crossings_iff fun _ => by decide).mpr (fun _ _ => by decide) 1 le_rfl

/-- The widest low width, then the narrowest: the third period has one crossing. -/
theorem not_two_crossings_step :
    ¬ ∀ w, ValidWidths w → ∀ k, 1 ≤ k → TwoCrossings w k := by
  intro h
  have hw : ValidWidths (fun k => if k = 0 then 19500 else 10500) := by
    intro k
    dsimp only
    split <;> decide
  have hone := late_of_two_crossings hw (h _ hw) 1 le_rfl
  simp at hone

end LightControlMonitor.Pulse
