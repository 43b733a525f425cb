import LightControlMonitor.Lib.Transition
import LightControlMonitor.Pulse.Capture

/-!
# Delays of the zero-cross pulse

The delay a falling edge arms was computed at an earlier rising edge, and the callback of the cross-pulse timer takes the flag back in between. Both callbacks run statement by statement here and in any order of their statements, so nothing rests on the priorities of the two interrupts.

An edge comes whenever `int1_callback` is not running, with either level of the pin and with any reading, and the timer expires whenever its callback is not running, whether it was started or not. The acceptance window alone keeps the delays in range.
-/

namespace LightControlMonitor.Pulse

open Transition

/-! ### The statements -/

/-- The statements of `int1_callback` behind the reading of the capture timer. The callback of that timer reads it into the same `timeout_s`, so the microseconds are those that the assignment finds there. -/
inductive Int1Stmt
  | t1Max (usec : Nat)
  | t1Us (usec : Nat)
  | testFlag
  | startTimer2
  | t2Us (usec : Nat)
  | t2Max
  | icr1Time
  | testWidth
  | crossPulseUs
  | calibrateFlag
  deriving DecidableEq

def Int1Stmt.first (pinLevel : Bool) (timeoutS : HwtimerVal) : Int1Stmt :=
  if pinLevel = false then .t1Max timeoutS.usec else .t2Us timeoutS.usec

/-- One statement, and the one behind it; `none` is the end of the callback. -/
def Int1Stmt.exec (c : Capture) : Int1Stmt → Option Int1Stmt × Capture × List Effect
  | .t1Max usec => (some (.t1Us usec), { c with t1Max := if c.t1Us > c.t1Max then c.t1Us else c.t1Max }, [])
  | .t1Us usec => (some .testFlag, { c with t1Us := usec }, [])
  | .testFlag => (if c.calibrateFlag then some .startTimer2 else none, c, [])
  | .startTimer2 => (none, c, [.startTimer2CrossPulse c.crossPulseUs])
  | .t2Us usec => (some .t2Max, { c with t2Us := usec }, [])
  | .t2Max => (some .icr1Time, { c with t2Max := if c.t2Us > c.t2Max then c.t2Us else c.t2Max }, [])
  | .icr1Time => (some .testWidth, { c with icr1Time := captureWidth c.t1Us c.t2Us }, [])
  | .testWidth =>
    (if c.icr1Time ≥ minCaptureWidth ∧ c.icr1Time ≤ maxCaptureWidth then some .crossPulseUs else none, c, [])
  | .crossPulseUs => (some .calibrateFlag, { c with crossPulseUs := sub32 (c.icr1Time / 2) (5 * 1000) }, [])
  | .calibrateFlag => (none, { c with calibrateFlag := true }, [])

/-- The statements of `timer2_crossPulse_cb`. -/
inductive CrossPulseStmt
  | pulseOn
  | startTimer3
  | testFlag
  | startTimer2
  | calibrateFlag
  | sampleCurrent
  | lmsStateMachine
  deriving DecidableEq

def CrossPulseStmt.exec (c : Capture) : CrossPulseStmt → Option CrossPulseStmt × Capture × List Effect
  | .pulseOn => (some .startTimer3, c, [.pulseOn])
  | .startTimer3 => (some .testFlag, c, [.startTimer3PulseWidth 1000])
  | .testFlag => (some (if c.calibrateFlag then .startTimer2 else .lmsStateMachine), c, [])
  | .startTimer2 => (some .calibrateFlag, c, [.startTimer2CrossPulse 10000])
  | .calibrateFlag => (some .sampleCurrent, { c with calibrateFlag := false }, [])
  | .sampleCurrent => (some .lmsStateMachine, c, [.sampleCurrent])
  | .lmsStateMachine => (none, c, [.lmsStateMachine])

/-! ### The system -/

structure Callbacks where
  capture : Capture
  int1 : Option Int1Stmt
  crossPulse : Option CrossPulseStmt
  deriving DecidableEq

inductive CallbackAction
  | edge (pinLevel : Bool) (timeoutS : HwtimerVal)
  | int1
  | expire
  | crossPulse
  deriving DecidableEq

/-- An effect with the callback it is of. -/
inductive CallbackEvent
  | int1 (effect : Effect)
  | crossPulse (effect : Effect)
  deriving DecidableEq

def Callbacks.start : Callbacks := ⟨.start, none, none⟩

def Callbacks.Enabled (s : Callbacks) : CallbackAction → Prop
  | .edge _ _ => s.int1 = none
  | .int1 => s.int1.isSome
  | .expire => s.crossPulse = none
  | .crossPulse => s.crossPulse.isSome

instance Callbacks.Enabled.instDecidable (s : Callbacks) : (a : CallbackAction) → Decidable (s.Enabled a)
  | .edge _ _ => inferInstanceAs (Decidable (s.int1 = none))
  | .int1 => inferInstanceAs (Decidable (s.int1.isSome = true))
  | .expire => inferInstanceAs (Decidable (s.crossPulse = none))
  | .crossPulse => inferInstanceAs (Decidable (s.crossPulse.isSome = true))

def Callbacks.step (s : Callbacks) : CallbackAction → Option (Callbacks × List CallbackEvent)
  | .edge pinLevel timeoutS => some ({ s with int1 := some (.first pinLevel timeoutS) }, [])
  | .int1 =>
    s.int1.map fun stmt =>
      let r := stmt.exec s.capture
      ({ s with int1 := r.1, capture := r.2.1 }, r.2.2.map .int1)
  | .expire => some ({ s with crossPulse := some .pulseOn }, [])
  | .crossPulse =>
    s.crossPulse.map fun stmt =>
      let r := stmt.exec s.capture
      ({ s with crossPulse := r.1, capture := r.2.1 }, r.2.2.map .crossPulse)

def callbackSystem : System Callbacks CallbackAction CallbackEvent where
  init s := s = .start
  enabled := Callbacks.Enabled
  step := Callbacks.step

instance callbackSystem.instDecidable (s : Callbacks) (a : CallbackAction) : Decidable (callbackSystem.enabled s a) :=
  inferInstanceAs (Decidable (s.Enabled a))

/-! ### Callbacks that are not interrupted -/

@[simp] theorem exec_nil (s : Callbacks) : callbackSystem.exec s [] = some (s, []) := rfl

@[simp] theorem exec_edge (c : Capture) (crossPulse : Option CrossPulseStmt) (pinLevel : Bool) (timeoutS : HwtimerVal)
    (as : List CallbackAction) : callbackSystem.exec ⟨c, none, crossPulse⟩ (.edge pinLevel timeoutS :: as) =
      callbackSystem.exec ⟨c, some (.first pinLevel timeoutS), crossPulse⟩ as := by
  simp [System.exec, callbackSystem, Callbacks.Enabled, Callbacks.step]

@[simp] theorem exec_int1 (c : Capture) (stmt : Int1Stmt) (crossPulse : Option CrossPulseStmt)
    (as : List CallbackAction) : callbackSystem.exec ⟨c, some stmt, crossPulse⟩ (.int1 :: as) =
      (callbackSystem.exec ⟨(stmt.exec c).2.1, (stmt.exec c).1, crossPulse⟩ as).map
        fun last => (last.1, (stmt.exec c).2.2.map .int1 ++ last.2) := rfl

@[simp] theorem exec_expire (c : Capture) (int1 : Option Int1Stmt) (as : List CallbackAction) :
    callbackSystem.exec ⟨c, int1, none⟩ (.expire :: as) = callbackSystem.exec ⟨c, int1, some .pulseOn⟩ as := by
  simp [System.exec, callbackSystem, Callbacks.Enabled, Callbacks.step]

@[simp] theorem exec_crossPulse (c : Capture) (int1 : Option Int1Stmt) (stmt : CrossPulseStmt)
    (as : List CallbackAction) : callbackSystem.exec ⟨c, int1, some stmt⟩ (.crossPulse :: as) =
      (callbackSystem.exec ⟨(stmt.exec c).2.1, int1, (stmt.exec c).1⟩ as).map
        fun last => (last.1, (stmt.exec c).2.2.map .crossPulse ++ last.2) := rfl

/-- The statements make up `int1_callback`. -/
theorem run_int1Callback (c : Capture) (crossPulse : Option CrossPulseStmt) (pinLevel : Bool) (timeoutS : HwtimerVal) :
    ∃ as, Run callbackSystem ⟨c, none, crossPulse⟩ (.edge pinLevel timeoutS :: as)
      ((int1Callback c pinLevel timeoutS).2.map .int1) ⟨(int1Callback c pinLevel timeoutS).1, none, crossPulse⟩ := by
  cases pinLevel with
  | false =>
    by_cases hflag : c.calibrateFlag = true
    · refine ⟨List.replicate 4 .int1, System.exec_run ?_⟩
      simp [List.replicate, Int1Stmt.first, Int1Stmt.exec, int1Callback, hflag]
    · refine ⟨List.replicate 3 .int1, System.exec_run ?_⟩
      simp [List.replicate, Int1Stmt.first, Int1Stmt.exec, int1Callback, hflag]
  | true =>
    by_cases hvalid : captureWidth c.t1Us timeoutS.usec ≥ minCaptureWidth ∧
        captureWidth c.t1Us timeoutS.usec ≤ maxCaptureWidth
    · refine ⟨List.replicate 6 .int1, System.exec_run ?_⟩
      simp [List.replicate, Int1Stmt.first, Int1Stmt.exec, int1Callback, hvalid]
    · refine ⟨List.replicate 4 .int1, System.exec_run ?_⟩
      simp [List.replicate, Int1Stmt.first, Int1Stmt.exec, int1Callback, hvalid]

/-- The statements make up `timer2_crossPulse_cb`. -/
theorem run_timer2CrossPulseCb (c : Capture) (int1 : Option Int1Stmt) :
    ∃ as, Run callbackSystem ⟨c, int1, none⟩ (.expire :: as) ((timer2CrossPulseCb c).2.map .crossPulse)
      ⟨(timer2CrossPulseCb c).1, int1, none⟩ := by
  by_cases hflag : c.calibrateFlag = true
  · refine ⟨List.replicate 7 .crossPulse, System.exec_run ?_⟩
    simp [List.replicate, CrossPulseStmt.exec, timer2CrossPulseCb, hflag]
  · refine ⟨List.replicate 4 .crossPulse, System.exec_run ?_⟩
    simp [List.replicate, CrossPulseStmt.exec, timer2CrossPulseCb, hflag]

/-! ### The invariant -/

/-- The delays of the widths that are accepted. -/
def DelayInRange (delayUs : Nat) : Prop := 250 ≤ delayUs ∧ delayUs ≤ 4750

/-- What a statement of `int1_callback` finds, as far as the delay depends on it. -/
def Int1Stmt.Finds (c : Capture) : Int1Stmt → Prop
  | .crossPulseUs => minCaptureWidth ≤ c.icr1Time ∧ c.icr1Time ≤ maxCaptureWidth
  | .startTimer2 | .calibrateFlag => DelayInRange c.crossPulseUs
  | _ => True

structure Armed (es : List CallbackEvent) (s : Callbacks) : Prop where
  flag : s.capture.calibrateFlag = true → DelayInRange s.capture.crossPulseUs
  finds : ∀ stmt ∈ s.int1, stmt.Finds s.capture
  passed : ∀ delayUs, .int1 (.startTimer2CrossPulse delayUs) ∈ es → DelayInRange delayUs

/-- The subtraction does not wrap for a width that is accepted. -/
theorem delayInRange_of_width {width : Nat} (hmin : minCaptureWidth ≤ width) (hmax : width ≤ maxCaptureWidth) :
    DelayInRange (sub32 (width / 2) (5 * 1000)) := by
  unfold minCaptureWidth at hmin
  unfold maxCaptureWidth at hmax
  rw [sub32_of_le (by omega) (by omega)]
  constructor <;> omega

theorem Int1Stmt.exec_flag {c : Capture} {stmt : Int1Stmt}
    (hflag : c.calibrateFlag = true → DelayInRange c.crossPulseUs) (hfinds : stmt.Finds c) :
    (stmt.exec c).2.1.calibrateFlag = true → DelayInRange (stmt.exec c).2.1.crossPulseUs := by
  cases stmt with
  | crossPulseUs => exact fun _ => delayInRange_of_width hfinds.1 hfinds.2
  | calibrateFlag => exact fun _ => hfinds
  | _ => exact hflag

theorem Int1Stmt.exec_finds {c : Capture} {stmt : Int1Stmt}
    (hflag : c.calibrateFlag = true → DelayInRange c.crossPulseUs) (hfinds : stmt.Finds c) :
    ∀ next ∈ (stmt.exec c).1, next.Finds (stmt.exec c).2.1 := by
  intro next hnext
  cases stmt with
  | testFlag =>
    obtain ⟨hset, heq⟩ := Option.ite_none_right_eq_some.mp hnext
    obtain rfl := Option.some.inj heq
    exact hflag hset
  | testWidth =>
    obtain ⟨hvalid, heq⟩ := Option.ite_none_right_eq_some.mp hnext
    obtain rfl := Option.some.inj heq
    exact hvalid
  | crossPulseUs =>
    obtain rfl := Option.some.inj hnext
    exact delayInRange_of_width hfinds.1 hfinds.2
  | startTimer2 | calibrateFlag => contradiction
  | _ =>
    obtain rfl := Option.some.inj hnext
    trivial

theorem Int1Stmt.exec_passed {c : Capture} {stmt : Int1Stmt} (hfinds : stmt.Finds c) {delayUs : Nat}
    (hmem : .startTimer2CrossPulse delayUs ∈ (stmt.exec c).2.2) : DelayInRange delayUs := by
  cases stmt with
  | startTimer2 =>
    obtain rfl := Effect.startTimer2CrossPulse.inj (List.mem_singleton.mp hmem)
    exact hfinds
  | _ => exact absurd hmem List.not_mem_nil

/-- The callback of the timer takes the flag back and writes nothing else. -/
theorem CrossPulseStmt.exec_capture (c : Capture) (stmt : CrossPulseStmt) :
    (stmt.exec c).2.1 = c ∨ (stmt.exec c).2.1 = { c with calibrateFlag := false } := by
  cases stmt with
  | calibrateFlag => exact .inr rfl
  | _ => exact .inl rfl

theorem Int1Stmt.finds_clearFlag {c : Capture} {stmt : Int1Stmt} (h : stmt.Finds c) :
    stmt.Finds { c with calibrateFlag := false } := by
  cases stmt <;> exact h

theorem Armed.start : Armed [] .start := by
  refine ⟨fun hset => ?_, fun stmt hstmt => ?_, fun delayUs hmem => ?_⟩
  · contradiction
  · contradiction
  · contradiction

theorem Armed.int1 {es : List CallbackEvent} {s : Callbacks} {stmt : Int1Stmt} (h : Armed es s)
    (hstmt : s.int1 = some stmt) : Armed (es ++ (stmt.exec s.capture).2.2.map .int1)
      { s with int1 := (stmt.exec s.capture).1, capture := (stmt.exec s.capture).2.1 } := by
  have hfinds : stmt.Finds s.capture := h.finds stmt hstmt
  refine ⟨Int1Stmt.exec_flag h.flag hfinds, Int1Stmt.exec_finds h.flag hfinds, fun delayUs hmem => ?_⟩
  rcases List.mem_append.mp hmem with hold | hnew
  · exact h.passed delayUs hold
  · obtain ⟨effect, heffect, heq⟩ := List.mem_map.mp hnew
    obtain rfl := CallbackEvent.int1.inj heq
    exact Int1Stmt.exec_passed hfinds heffect

theorem Armed.crossPulse {es : List CallbackEvent} {s : Callbacks} (h : Armed es s) (stmt : CrossPulseStmt) :
    Armed (es ++ (stmt.exec s.capture).2.2.map .crossPulse)
      { s with crossPulse := (stmt.exec s.capture).1, capture := (stmt.exec s.capture).2.1 } := by
  have hpassed : ∀ delayUs, .int1 (.startTimer2CrossPulse delayUs) ∈
      es ++ (stmt.exec s.capture).2.2.map .crossPulse → DelayInRange delayUs := by
    intro delayUs hmem
    rcases List.mem_append.mp hmem with hold | hnew
    · exact h.passed delayUs hold
    · obtain ⟨effect, -, heq⟩ := List.mem_map.mp hnew
      contradiction
  rcases CrossPulseStmt.exec_capture s.capture stmt with hsame | hclear
  · exact ⟨by rw [hsame]; exact h.flag, by rw [hsame]; exact h.finds, hpassed⟩
  · refine ⟨?_, ?_, hpassed⟩
    · rw [hclear]
      intro hset
      contradiction
    · rw [hclear]
      exact fun stmt hstmt => Int1Stmt.finds_clearFlag (h.finds stmt hstmt)

theorem Armed.step {es : List CallbackEvent} {s s' : Callbacks} {a : CallbackAction} {out : List CallbackEvent}
    (h : Armed es s) (hstep : s.step a = some (s', out)) : Armed (es ++ out) s' := by
  cases a with
  | edge pinLevel timeoutS =>
    obtain ⟨rfl, rfl⟩ := Prod.mk.inj (Option.some.inj hstep)
    rw [List.append_nil]
    refine ⟨h.flag, fun stmt hstmt => ?_, h.passed⟩
    obtain rfl := Option.some.inj hstmt
    cases pinLevel <;> trivial
  | int1 =>
    obtain ⟨stmt, hstmt, heq⟩ := Option.map_eq_some_iff.mp hstep
    obtain ⟨rfl, rfl⟩ := Prod.mk.inj heq
    exact h.int1 hstmt
  | expire =>
    obtain ⟨rfl, rfl⟩ := Prod.mk.inj (Option.some.inj hstep)
    rw [List.append_nil]
    exact ⟨h.flag, h.finds, h.passed⟩
  | crossPulse =>
    obtain ⟨stmt, -, heq⟩ := Option.map_eq_some_iff.mp hstep
    obtain ⟨rfl, rfl⟩ := Prod.mk.inj heq
    exact h.crossPulse stmt

/-- Whatever the edges and the readings are, a set flag stands for a delay of 250 to 4750 µs, and so is every delay that `int1_callback` arms. -/
theorem armed_delays {as : List CallbackAction} {es : List CallbackEvent} {s : Callbacks}
    (hreach : Reaches callbackSystem as es s) :
    (s.capture.calibrateFlag = true → 250 ≤ s.capture.crossPulseUs ∧ s.capture.crossPulseUs ≤ 4750) ∧
      ∀ delayUs, .int1 (.startTimer2CrossPulse delayUs) ∈ es → 250 ≤ delayUs ∧ delayUs ≤ 4750 := by
  have hinit : ∀ s, callbackSystem.init s → Armed [] s := by
    rintro s rfl
    exact .start
  have harmed : Armed es s := hreach.invariant (fun _ es s => Armed es s) hinit (fun h _ hstep => h.step hstep)
  exact ⟨harmed.flag, harmed.passed⟩

/-- A half wave of 12 ms. The timer expires between the delay and the flag, and its callback takes the flag back between the test of the next falling edge and the start of the timer. -/
def consumedFlag : List CallbackAction :=
  [.edge false ⟨0, 995000⟩, .int1, .int1, .int1, .edge true ⟨1, 7000⟩, .int1, .int1, .int1, .int1, .int1, .expire,
    .crossPulse, .crossPulse, .int1, .crossPulse, .edge false ⟨1, 15000⟩, .int1, .int1, .int1, .crossPulse, .crossPulse,
    .int1]

theorem armed_delays_consumed :
    ∃ es s, Reaches callbackSystem consumedFlag es s ∧ s.capture.calibrateFlag = false ∧
      .int1 (.startTimer2CrossPulse 1000) ∈ es ∧ 250 ≤ 1000 ∧ 1000 ≤ 4750 := by
  have hreach : Reaches callbackSystem consumedFlag
      [.crossPulse .pulseOn, .crossPulse (.startTimer3PulseWidth 1000), .crossPulse (.startTimer2CrossPulse 10000),
        .int1 (.startTimer2CrossPulse 1000)]
      ⟨⟨false, 15000, 7000, 1000, 12000, 995000, 7000⟩, none, some .sampleCurrent⟩ :=
    ⟨.start, rfl, System.exec_run (by decide)⟩
  exact ⟨_, _, hreach, rfl, by decide, (armed_delays hreach).2 1000 (by decide)⟩

end LightControlMonitor.Pulse
