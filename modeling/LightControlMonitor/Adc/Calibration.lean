import LightControlMonitor.Adc.Window

/-!
# The factory calibration

What the readings are with `sys_default_para`. The voltage has an offset of -9.04 V, so a window with little voltage calibrates to a number below zero, which no integer of 16 bits without a sign represents; the dead band that would hide it comes behind the conversion. A window calibrates to zero volts or more exactly if the roots of its mean squares sum to at least 389.
-/

namespace LightControlMonitor.Adc

open Transition (Reaches)

/-- What the language says of the conversion of a float: it drops the fraction of a number in the range and can do anything with others. -/
structure ToUInt16 where
  conv : ℚ → UInt16
  trunc : ∀ x, -1 < x → x < 65536 → (conv x).toNat = ⌊x⌋₊

def sysDefaultPara : SysPara where
  inA1 := 1042 / 100
  inB := 0
  unA := 5777 / 10
  unB := -904 / 100

/-- What a dead band makes of a value. -/
def deadBand (limit value : Nat) : Nat := if value ≤ limit then 0 else value

/-- The numbers that are converted are in the range, and what is published is their whole part but for the dead bands. -/
structure Reading.Representable (r : Reading ℚ) : Prop where
  range : ∀ j, 0 ≤ r.value j ∧ r.value j ≤ 65535
  iLoad : ∀ load ∈ r.published, load.localILoad.toNat = deadBand 110 ⌊r.value .iLoad⌋₊
  vLoad : ∀ load ∈ r.published, load.localVLoad.toNat = deadBand 200 ⌊r.value .uLoad⌋₊

/-- The roots of the mean squares of a channel, over the calls of a window. -/
def effectives (window : List Call) (j : Channel) : List Nat := window.map fun call => effective call.cur j

/-- In every window there is enough voltage to make up for the offset. -/
def AboveOffset (calls : List Call) : Prop :=
  ∀ n < calls.length, 389 ≤ (effectives ((calls.take (n + 1)).rtake RMS_WINDOWN_SIZE) .uLoad).sum

/-! ### The range -/

theorem sum_rmsVoltage {window : List Call} (hbits : ∀ call ∈ window, TwelveBit call.cur) (j : Channel) :
    (window.map fun call => rmsVoltage call.cur j).sum = (effectives window j).sum * (33 / 40950) := by
  induction window with
  | nil => simp [effectives]
  | cons call window ih =>
    have hcall : TwelveBit call.cur := hbits call List.mem_cons_self
    have hrest := ih fun c hc => hbits c (List.mem_cons_of_mem _ hc)
    rw [List.map_cons, List.sum_cons, hrest, rmsVoltage, adcVoltage, toNat_rms hcall, effectives, effectives,
      List.map_cons, List.sum_cons]
    push_cast
    ring

theorem meanOf_rmsVoltage {window : List Call} (hbits : ∀ call ∈ window, TwelveBit call.cur) (j : Channel) :
    meanOf (rmsVoltage · j) window = (effectives window j).sum * (33 / 819000) := by
  rw [meanOf, mean, sum_rmsVoltage hbits, RMS_WINDOWN_SIZE]
  push_cast
  ring

theorem effectives_sum_le {window : List Call} (hbits : ∀ call ∈ window, TwelveBit call.cur)
    (hlength : window.length ≤ RMS_WINDOWN_SIZE) (j : Channel) : (effectives window j).sum ≤ 45100 := by
  have hle : ∀ n ∈ effectives window j, n ≤ 2255 := by
    intro n hn
    obtain ⟨call, hcall, rfl⟩ := List.mem_map.mp hn
    exact effective_le (hbits call hcall) j
  calc (effectives window j).sum
      ≤ (effectives window j).length * 2255 := List.sum_le_card_nsmul _ _ hle
    _ ≤ RMS_WINDOWN_SIZE * 2255 := Nat.mul_le_mul_right _ (by rwa [effectives, List.length_map])

theorem calibrated_uLoad (n : Nat) :
    calibrated sysDefaultPara .uLoad (n * (33 / 819000)) = (190641 * n - 74037600) / 819000 := by
  simp only [calibrated, sysDefaultPara]
  ring

theorem calibrated_iLoad (n : Nat) :
    calibrated sysDefaultPara .iLoad (n * (33 / 819000)) = 34386 * n / 819000 := by
  simp only [calibrated, sysDefaultPara]
  ring

/-- The offset of the voltage is the value of a sum between 388 and 389. -/
theorem calibrated_uLoad_nonneg {n : Nat} :
    0 ≤ calibrated sysDefaultPara .uLoad (n * (33 / 819000)) ↔ 389 ≤ n := by
  rw [calibrated_uLoad, le_div_iff₀ (by norm_num), zero_mul, sub_nonneg]
  norm_cast
  omega

theorem calibrated_uLoad_le {n : Nat} (hn : n ≤ 45100) :
    calibrated sysDefaultPara .uLoad (n * (33 / 819000)) ≤ 65535 := by
  have hcast : (n : ℚ) ≤ 45100 := by exact_mod_cast hn
  rw [calibrated_uLoad, div_le_iff₀ (by norm_num)]
  linarith

theorem calibrated_iLoad_range {n : Nat} (hn : n ≤ 45100) :
    0 ≤ calibrated sysDefaultPara .iLoad (n * (33 / 819000)) ∧
      calibrated sysDefaultPara .iLoad (n * (33 / 819000)) ≤ 65535 := by
  have hcast : (n : ℚ) ≤ 45100 := by exact_mod_cast hn
  rw [calibrated_iLoad, div_le_iff₀ (by norm_num)]
  constructor
  · positivity
  · linarith

/-! ### The readings -/

theorem toNat_deadBand (limit value : UInt16) :
    (if value ≤ limit then 0 else value).toNat = deadBand limit.toNat value.toNat := by
  by_cases hle : value ≤ limit
  · rw [if_pos hle, deadBand, if_pos (UInt16.le_iff_toNat_le.mp hle)]
    rfl
  · rw [if_neg hle, deadBand, if_neg (mt UInt16.le_iff_toNat_le.mpr hle)]

section Factory

variable (conv : ToUInt16) {calls : List Call}

theorem ToUInt16.toNat_conv {x : ℚ} (hrange : 0 ≤ x ∧ x ≤ 65535) : (conv.conv x).toNat = ⌊x⌋₊ :=
  conv.trunc x (by linarith [hrange.1]) (by linarith [hrange.2])

theorem mem_published {para : SysPara} {load : Load} (hload : load ∈ (Reading.ofCalls conv.conv calls para).published) :
    load = .ofWindow conv.conv (calls.rtake RMS_WINDOWN_SIZE) para := by
  simp only [Reading.ofCalls] at hload
  split at hload
  · exact (Option.mem_some.mp hload).symm
  · contradiction

/-- Numbers in the range are published as they should be. -/
theorem representable_of_range {para : SysPara}
    (hrange : ∀ j, 0 ≤ (Reading.ofCalls conv.conv calls para).value j ∧
      (Reading.ofCalls conv.conv calls para).value j ≤ 65535) :
    (Reading.ofCalls conv.conv calls para).Representable := by
  refine ⟨hrange, fun load hload => ?_, fun load hload => ?_⟩
  · rw [mem_published conv hload, ← conv.toNat_conv (hrange .iLoad)]
    exact toNat_deadBand 110 _
  · rw [mem_published conv hload, ← conv.toNat_conv (hrange .uLoad)]
    exact toNat_deadBand 200 _

/-- A reading is representable if the voltages of its window make up for the offset. -/
theorem ofCalls_representable_iff (hbits : ∀ call ∈ calls, TwelveBit call.cur) :
    (Reading.ofCalls conv.conv calls sysDefaultPara).Representable ↔
      389 ≤ (effectives (calls.rtake RMS_WINDOWN_SIZE) .uLoad).sum := by
  have hwindow : ∀ call ∈ calls.rtake RMS_WINDOWN_SIZE, TwelveBit call.cur := fun call hcall =>
    hbits call (List.mem_of_mem_drop hcall)
  have hvalue : ∀ j, (Reading.ofCalls conv.conv calls sysDefaultPara).value j =
      calibrated sysDefaultPara j ((effectives (calls.rtake RMS_WINDOWN_SIZE) j).sum * (33 / 819000)) := by
    intro j
    rw [← meanOf_rmsVoltage hwindow]
    rfl
  have hsum : ∀ j, (effectives (calls.rtake RMS_WINDOWN_SIZE) j).sum ≤ 45100 :=
    effectives_sum_le hwindow ((Ring.length_rtake ..).trans_le (Nat.min_le_left ..))
  constructor
  · intro h
    have hnonneg := (h.range .uLoad).1
    rwa [hvalue, calibrated_uLoad_nonneg] at hnonneg
  · intro hle
    apply representable_of_range conv
    rintro (_ | _)
    · rw [hvalue]
      exact ⟨calibrated_uLoad_nonneg.mpr hle, calibrated_uLoad_le (hsum _)⟩
    · rw [hvalue]
      exact calibrated_iLoad_range (hsum _)

theorem readingsOf_representable_iff (hbits : ∀ call ∈ calls, TwelveBit call.cur)
    (hpara : ∀ call ∈ calls, call.para = sysDefaultPara) :
    (∀ r ∈ readingsOf conv.conv calls, r.Representable) ↔ AboveOffset calls := by
  have hreading : ∀ n (hn : n < calls.length),
      (Reading.ofCalls conv.conv (calls.take (n + 1)) calls[n].para).Representable ↔
        389 ≤ (effectives ((calls.take (n + 1)).rtake RMS_WINDOWN_SIZE) .uLoad).sum := by
    intro n hn
    rw [hpara _ (List.getElem_mem hn)]
    exact ofCalls_representable_iff conv fun call hcall => hbits call (List.mem_of_mem_take hcall)
  constructor
  · intro h n hn
    exact (hreading n hn).mp (h _ (List.mem_mapIdx.mpr ⟨n, hn, rfl⟩))
  · intro h r hr
    obtain ⟨n, hn, rfl⟩ := List.mem_mapIdx.mp hr
    exact (hreading n hn).mpr (h n hn)

/-- All readings of a history are representable exactly if no window of it falls below the offset of the voltage. -/
theorem readings_representable {readings : List (Reading ℚ)} {s : Measurement ℚ}
    (hbits : ∀ call ∈ calls, TwelveBit call.cur) (hpara : ∀ call ∈ calls, call.para = sysDefaultPara)
    (hreach : Reaches (measurementSystem conv.conv) calls readings s) :
    (∀ r ∈ readings, r.Representable) ↔ AboveOffset calls := by
  rw [(measured hreach).readings_eq]
  exact readingsOf_representable_iff conv hbits hpara

end Factory

def truncation : ToUInt16 where
  conv := truncated
  trunc := by
    intro x _ hlt
    have hfloor : ⌊x⌋₊ < 2 ^ 16 := (Nat.floor_lt' (by decide)).mpr (by exact_mod_cast hlt)
    rw [truncated, UInt16.toNat_ofNat', Nat.mod_eq_of_lt hfloor]

def factoryCall (cur : Buffer) : Call := ⟨cur, sysDefaultPara⟩

theorem factoryCall_isSome (cur : Buffer) :
    ((measurementSystem truncation.conv).exec (.start (rationals truncation.conv)) [factoryCall cur]).isSome := rfl

theorem readings_representable_fullScale :
    (∀ r ∈ (((measurementSystem truncation.conv).exec (.start (rationals truncation.conv)) [factoryCall fullScale]).get
      (factoryCall_isSome _)).2, r.Representable) ↔ AboveOffset [factoryCall fullScale] :=
  readings_representable truncation (by simp [factoryCall, fullScale_twelveBit]) (by simp [factoryCall])
    (Reaches.of_exec rfl (factoryCall_isSome _))

/-- No load: every sample is the reference. -/
def noLoad : Buffer := constant 1840

theorem noLoad_twelveBit : TwelveBit noLoad := constant_twelveBit (by decide)

theorem noLoad_effective (j : Channel) : effective noLoad j = 0 := by
  have hdeviation : ∀ k, noLoad.deviation k j = 0 := by
    intro k
    rw [Buffer.deviation, noLoad, constant_sample]
    rfl
  have hsquares : exactSquares noLoad j = 0 := Finset.sum_eq_zero fun k _ => by rw [hdeviation, sq, mul_zero]
  rw [effective, hsquares]
  decide

/-- Without a load the first call converts -90.4. -/
theorem not_readings_representable :
    ¬ ∀ (conv : ToUInt16) (calls : List Call) (readings : List (Reading ℚ)) (s : Measurement ℚ),
      (∀ call ∈ calls, TwelveBit call.cur) → (∀ call ∈ calls, call.para = sysDefaultPara) →
        Reaches (measurementSystem conv.conv) calls readings s → ∀ r ∈ readings, r.Representable := by
  intro h
  have hbits : ∀ call ∈ [factoryCall noLoad], TwelveBit call.cur := by
    simp [factoryCall, noLoad_twelveBit]
  have hpara : ∀ call ∈ [factoryCall noLoad], call.para = sysDefaultPara := by
    simp [factoryCall]
  have hreach := Reaches.of_exec (M := measurementSystem truncation.conv) rfl (factoryCall_isSome noLoad)
  have hreadings := h truncation _ _ _ hbits hpara hreach
  rw [(measured hreach).readings_eq, readingsOf_representable_iff truncation hbits hpara] at hreadings
  have hsum := hreadings 0 (by simp)
  have hzero : effectives (([factoryCall noLoad].take 1).rtake RMS_WINDOWN_SIZE) .uLoad = [effective noLoad .uLoad] :=
    rfl
  rw [hzero, noLoad_effective] at hsum
  exact absurd hsum (by decide)

end LightControlMonitor.Adc
