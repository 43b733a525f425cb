import LightControlMonitor.Adc.CalRms
import LightControlMonitor.Lib.Ring
import Mathlib.Algebra.BigOperators.Group.List.Lemmas
import Mathlib.Algebra.Field.Rat
import Mathlib.Data.Rat.Floor

/-!
# The window of the measurement

`cal_rms` with rational numbers for its floats. How a float becomes an integer of 16 bits stays an argument, because the language leaves it open outside the range of the integer.

The slots are a ring, so their average is that of the newest values whatever the place of the oldest one is. The window starts again at its first slot exactly when the load is published, and thus the twenty values behind a publication are those of the calls since the one before.
-/

namespace LightControlMonitor.Adc

open Transition (System Reaches)

def mean (values : List ℚ) : ℚ := values.sum / RMS_WINDOWN_SIZE

structure SysPara where
  inA1 : ℚ
  inB : ℚ
  unA : ℚ
  unB : ℚ

/-- `x * 1.0f / 4095 * 3.3f`. -/
def adcVoltage (x : UInt32) : ℚ := x.toNat * 1 / 4095 * (33 / 10)

/-- What becomes `rms_adc_cal_voltage_avg`: tenths of a volt and hundredths of an ampere. -/
def calibrated (para : SysPara) (j : Channel) (average : ℚ) : ℚ :=
  match j with
  | .uLoad => (average * para.unA + para.unB) * 10
  | .iLoad => (average * para.inA1 + para.inB) * 100

def rationals (conv : ℚ → UInt16) : Floats ℚ SysPara where
  zero := 0
  adcVoltage := adcVoltage
  power x := adcVoltage x * (428 / 100) + 704 / 100
  mean := mean
  calibrated := calibrated
  conv := conv

def rmsVoltage (cur : Buffer) (j : Channel) : ℚ := adcVoltage (rms cur j)

def powerValue (cur : Buffer) : ℚ := adcVoltage (meanPower cur) * (428 / 100) + 704 / 100

/-- A call with the calibration that is in force. -/
structure Call where
  cur : Buffer
  para : SysPara

def measurementSystem (conv : ℚ → UInt16) : System (Measurement ℚ) Call (Reading ℚ) where
  init s := s = .start (rationals conv)
  enabled _ _ := True
  step s call := (calRms (rationals conv) s call.cur call.para).map fun r => (r.1, [r.2])

/-! ### The values behind a reading -/

def meanOf (f : Buffer → ℚ) (window : List Call) : ℚ := mean (window.map (f ·.cur))

/-- The load of the calls of a window: the calibrated and converted averages, with the dead bands, and the power. -/
def Load.ofWindow (conv : ℚ → UInt16) (window : List Call) (para : SysPara) : Load :=
  let avg := fun j => conv (calibrated para j (meanOf (rmsVoltage · j) window))
  { localILoad := if avg .iLoad ≤ 110 then 0 else avg .iLoad
    localVLoad := if avg .uLoad ≤ 200 then 0 else avg .uLoad
    localActivePower := conv (meanOf powerValue window) }

/-- What the last one of the calls reads. -/
def Reading.ofCalls (conv : ℚ → UInt16) (calls : List Call) (para : SysPara) : Reading ℚ where
  value j := calibrated para j (meanOf (rmsVoltage · j) (calls.rtake RMS_WINDOWN_SIZE))
  published :=
    if RMS_WINDOWN_SIZE ∣ calls.length then some (.ofWindow conv (calls.rtake RMS_WINDOWN_SIZE) para) else none

/-- The place of the next value is below the size of the window, the slots behind the windows are the means of the last twenty values, every twentieth call publishes what it computes from the last twenty calls, and what is published stays until the next publication. -/
structure SlidingWindow (conv : ℚ → UInt16) (calls : List Call) (readings : List (Reading ℚ)) (s : Measurement ℚ) :
    Prop where
  count_lt : s.count < RMS_WINDOWN_SIZE
  total : ∀ call, ((measurementSystem conv).step s call).isSome
  voltage : RMS_WINDOWN_SIZE ≤ calls.length →
    ∀ j, (s.rmsAdcVoltage j).average = meanOf (rmsVoltage · j) (calls.rtake RMS_WINDOWN_SIZE)
  power : RMS_WINDOWN_SIZE ≤ calls.length → s.pAdcValue.average = meanOf powerValue (calls.rtake RMS_WINDOWN_SIZE)
  published : ∀ n, readings[n]?.map (·.published) = calls[n]?.map fun call =>
    if RMS_WINDOWN_SIZE ∣ n + 1 then
      some (.ofWindow conv ((calls.take (n + 1)).rtake RMS_WINDOWN_SIZE) call.para)
    else none
  load : s.load = (readings.filterMap (·.published)).getLastD (Measurement.start (rationals conv)).load

/-! ### The slots -/

/-- The window holds the newest values, the zeros of the start before the first of them, and the slot behind it their mean. -/
structure Slots.Holds (slots : Slots ℚ) (values : List ℚ) (count : Nat) : Prop where
  ring : Ring.Holds (List.replicate RMS_WINDOWN_SIZE 0 ++ values) slots.window count
  average : slots.average = mean (values.rtake RMS_WINDOWN_SIZE)

/-- The zeros before the first value do not count in the sum of the newest ones. -/
theorem sum_rtake_replicate (n : Nat) (values : List ℚ) :
    ((List.replicate n 0 ++ values).rtake n).sum = (values.rtake n).sum := by
  rw [List.rtake, List.rtake, List.length_append, List.length_replicate, Nat.add_sub_cancel_left, List.drop_append,
    List.length_replicate, List.sum_append, List.drop_replicate, List.sum_replicate, nsmul_zero, zero_add]

theorem Slots.Holds.start : Slots.Holds (Vector.replicate _ 0) [] 0 where
  ring := by
    rw [List.append_nil]
    exact Ring.Holds.start (by decide)
  average := by
    rw [Slots.average, mean, List.rtake_nil]
    simp [Vector.get]

theorem Slots.Holds.write {slots : Slots ℚ} {values : List ℚ} {count : Nat} (h : slots.Holds values count)
    (hcount : count < RMS_WINDOWN_SIZE + 1) (x : ℚ) :
    (slots.write mean count hcount x).Holds (values ++ [x]) ((count + 1) % RMS_WINDOWN_SIZE) := by
  have hring : Ring.Holds (List.replicate RMS_WINDOWN_SIZE 0 ++ (values ++ [x]))
      (slots.write mean count hcount x).window ((count + 1) % RMS_WINDOWN_SIZE) := by
    have := h.ring.write x
    rwa [← Slots.write_window mean slots hcount, List.append_assoc, Slots.length_window] at this
  refine ⟨hring, ?_⟩
  rw [Slots.write_average, mean, hring.sum_eq, Slots.length_window, sum_rtake_replicate, mean]

/-! ### A call -/

/-- The two voltages and the power are written in step. -/
structure Measurement.Holds (s : Measurement ℚ) (calls : List Call) : Prop where
  count : s.count = calls.length % RMS_WINDOWN_SIZE
  voltage : ∀ j, (s.rmsAdcVoltage j).Holds (calls.map fun call => rmsVoltage call.cur j) s.count
  power : s.pAdcValue.Holds (calls.map fun call => powerValue call.cur) s.count

theorem Measurement.Holds.start (conv : ℚ → UInt16) : (Measurement.start (rationals conv)).Holds [] :=
  ⟨rfl, fun _ => .start, .start⟩

theorem Measurement.Holds.count_lt {s : Measurement ℚ} {calls : List Call} (h : s.Holds calls) :
    s.count < RMS_WINDOWN_SIZE := by
  rw [h.count]
  exact Nat.mod_lt _ (by decide)

theorem Slots.Holds.meanOf {slots : Slots ℚ} {f : Buffer → ℚ} {calls : List Call} {count : Nat}
    (h : slots.Holds (calls.map fun call => f call.cur) count) :
    slots.average = Adc.meanOf f (calls.rtake RMS_WINDOWN_SIZE) := by
  rw [h.average, Adc.meanOf, List.rtake, List.rtake, List.map_drop, List.length_map]

/-- A call reads what the history says, keeps the slots and changes the load by a publication only. -/
theorem calRms_holds (conv : ℚ → UInt16) {s : Measurement ℚ} {calls : List Call} (h : s.Holds calls) (call : Call) :
    ∃ s', calRms (rationals conv) s call.cur call.para = some (s', .ofCalls conv (calls ++ [call]) call.para) ∧
      s'.Holds (calls ++ [call]) ∧
      s'.load = (Reading.ofCalls conv (calls ++ [call]) call.para).published.getD s.load := by
  have hlt : s.count < RMS_WINDOWN_SIZE + 1 := Nat.lt_succ_of_lt h.count_lt
  have hvoltage : ∀ j, ((s.rmsAdcVoltage j).write (rationals conv).mean s.count hlt
      ((rationals conv).adcVoltage (rms call.cur j))).Holds
        ((calls ++ [call]).map fun call => rmsVoltage call.cur j) ((s.count + 1) % RMS_WINDOWN_SIZE) := by
    intro j
    rw [List.map_append]
    exact (h.voltage j).write hlt _
  have hpower : (s.pAdcValue.write (rationals conv).mean s.count hlt
      ((rationals conv).power (meanPower call.cur))).Holds
        ((calls ++ [call]).map fun call => powerValue call.cur) ((s.count + 1) % RMS_WINDOWN_SIZE) := by
    rw [List.map_append]
    exact h.power.write hlt _
  have hcount : (calls ++ [call]).length % RMS_WINDOWN_SIZE = (s.count + 1) % RMS_WINDOWN_SIZE := by
    rw [List.length_append, List.length_singleton, h.count, Nat.mod_add_mod]
  have hvalue : ∀ j, ((s.rmsAdcVoltage j).write (rationals conv).mean s.count hlt
      ((rationals conv).adcVoltage (rms call.cur j))).average =
        Adc.meanOf (rmsVoltage · j) ((calls ++ [call]).rtake RMS_WINDOWN_SIZE) := fun j => (hvoltage j).meanOf
  have hdvd : RMS_WINDOWN_SIZE ∣ (calls ++ [call]).length ↔ RMS_WINDOWN_SIZE ≤ s.count + 1 := by
    have := h.count_lt
    rw [Nat.dvd_iff_mod_eq_zero, hcount]
    simp only [RMS_WINDOWN_SIZE] at this ⊢
    omega
  rw [calRms, dif_pos hlt]
  dsimp only
  by_cases hfull : RMS_WINDOWN_SIZE ≤ s.count + 1
  · have hnext : (s.count + 1) % RMS_WINDOWN_SIZE = 0 := by
      rw [← hcount]
      exact Nat.mod_eq_zero_of_dvd (hdvd.mpr hfull)
    rw [hnext] at hvoltage hpower
    simp only [if_pos hfull, hvalue, hpower.meanOf, Reading.ofCalls, if_pos (hdvd.mpr hfull)]
    exact ⟨_, rfl, ⟨(hcount.trans hnext).symm, hvoltage, hpower⟩, rfl⟩
  · have hnext : (s.count + 1) % RMS_WINDOWN_SIZE = s.count + 1 := Nat.mod_eq_of_lt (Nat.not_le.mp hfull)
    rw [hnext] at hvoltage hpower
    simp only [if_neg hfull, hvalue, Reading.ofCalls, if_neg (mt hdvd.mp hfull)]
    exact ⟨_, rfl, ⟨(hcount.trans hnext).symm, hvoltage, hpower⟩, rfl⟩

/-! ### Runs -/

/-- What a run reads. -/
def readingsOf (conv : ℚ → UInt16) (calls : List Call) : List (Reading ℚ) :=
  calls.mapIdx fun n call => .ofCalls conv (calls.take (n + 1)) call.para

theorem readingsOf_snoc (conv : ℚ → UInt16) (calls : List Call) (call : Call) :
    readingsOf conv (calls ++ [call]) = readingsOf conv calls ++ [.ofCalls conv (calls ++ [call]) call.para] := by
  have hearlier : (calls.mapIdx fun n c => Reading.ofCalls conv ((calls ++ [call]).take (n + 1)) c.para) =
      readingsOf conv calls := by
    apply List.mapIdx_eq_mapIdx_iff.mpr
    intro n hn
    rw [List.take_append_of_le_length hn]
  rw [readingsOf, List.mapIdx_concat, hearlier, List.take_of_length_le (by simp)]

/-- The slots and the load behind a run, and what the run has read. -/
structure Measured (conv : ℚ → UInt16) (calls : List Call) (readings : List (Reading ℚ)) (s : Measurement ℚ) :
    Prop where
  holds : s.Holds calls
  readings_eq : readings = readingsOf conv calls
  load : s.load = (readings.filterMap (·.published)).getLastD (Measurement.start (rationals conv)).load

theorem measured {conv : ℚ → UInt16} {calls : List Call} {readings : List (Reading ℚ)} {s : Measurement ℚ}
    (hreach : Reaches (measurementSystem conv) calls readings s) : Measured conv calls readings s := by
  refine hreach.invariant (Measured conv) ?_ ?_
  · rintro s rfl
    exact ⟨.start conv, rfl, rfl⟩
  · intro calls readings s call out s' h _ hstep
    obtain ⟨next, hnext, hholds, hload⟩ := calRms_holds conv h.holds call
    change (calRms (rationals conv) s call.cur call.para).map _ = _ at hstep
    rw [hnext, Option.map_some, Option.some.injEq, Prod.mk.injEq] at hstep
    obtain ⟨rfl, rfl⟩ := hstep
    refine ⟨hholds, by rw [readingsOf_snoc, h.readings_eq], ?_⟩
    rw [hload, h.load, List.filterMap_append]
    cases hpublished : (Reading.ofCalls conv (calls ++ [call]) call.para).published with
    | none => simp [hpublished]
    | some load => simp [hpublished]

/-- The means and the publications of the last twenty calls, in every run. -/
theorem sliding_window {conv : ℚ → UInt16} {calls : List Call} {readings : List (Reading ℚ)} {s : Measurement ℚ}
    (hreach : Reaches (measurementSystem conv) calls readings s) : SlidingWindow conv calls readings s := by
  obtain ⟨hholds, rfl, hload⟩ := measured hreach
  refine ⟨hholds.count_lt, fun call => ?_, fun _ j => (hholds.voltage j).meanOf, fun _ => hholds.power.meanOf,
    fun n => ?_, hload⟩
  · obtain ⟨next, hnext, -⟩ := calRms_holds conv hholds call
    change ((calRms (rationals conv) s call.cur call.para).map _).isSome
    rw [hnext]
    rfl
  · rw [readingsOf, List.getElem?_mapIdx, Option.map_map]
    by_cases hn : n < calls.length
    · rw [List.getElem?_eq_getElem hn, Option.map_some, Option.map_some]
      simp only [Function.comp, Reading.ofCalls, List.length_take_of_le hn]
    · rw [List.getElem?_eq_none (Nat.not_lt.mp hn)]
      rfl

instance measurementSystem.decidableEnabled (conv : ℚ → UInt16) (s : Measurement ℚ) (call : Call) :
    Decidable ((measurementSystem conv).enabled s call) := inferInstanceAs (Decidable True)

/-- The conversion, with what the hardware makes of the numbers above the range. -/
def truncated (x : ℚ) : UInt16 := UInt16.ofNat ⌊x⌋₊

/-- Twenty calls at the top of the range, with a calibration of one volt and one ampere to the volt. -/
def twentyCalls : List Call := List.replicate 20 ⟨fullScale, { inA1 := 1, inB := 0, unA := 1, unB := 0 }⟩

theorem twentyCalls_isSome :
    ((measurementSystem truncated).exec (.start (rationals truncated)) twentyCalls).isSome := by
  decide +kernel

theorem sliding_window_twenty :
    SlidingWindow truncated twentyCalls
      (((measurementSystem truncated).exec (.start (rationals truncated)) twentyCalls).get twentyCalls_isSome).2
      (((measurementSystem truncated).exec (.start (rationals truncated)) twentyCalls).get twentyCalls_isSome).1 :=
  sliding_window (Reaches.of_exec rfl twentyCalls_isSome)

end LightControlMonitor.Adc
