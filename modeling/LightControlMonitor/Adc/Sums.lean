import Mathlib.Algebra.BigOperators.Fin
import Mathlib.Algebra.Order.BigOperators.Group.Finset
import Mathlib.Data.Nat.Sqrt
import Mathlib.Tactic.Linarith

/-!
# The sums over a buffer

The loop of `cal_rms` over the interleaved samples: the squares of both channels and the products, in the integers of 32 bits that the code uses. The squares of 200 samples of twelve bits stay far below the bound, so their sum and its root are exact. The products are summed without their signs: a sum below zero is read as one close to the bound, and the division by the number of samples makes a large power of a small negative one.
-/

namespace LightControlMonitor.Adc

def VREFCONST : Int := 1840
def SAMPLES : Nat := 200
def ADC_CANNEL_NUM : Nat := 2

/-- `E_U_LOAD_RMS` and `E_I_LOAD_RMS`. -/
inductive Channel
  | uLoad
  | iLoad
  deriving DecidableEq

/-- The values of the two. -/
def index : Channel → Nat
  | .uLoad => 0
  | .iLoad => 1

/-- What `get_dma_data` copies: the samples of the two channels in turn. -/
abbrev Buffer := Vector UInt16 (SAMPLES * ADC_CANNEL_NUM)

theorem place_lt (k : Fin SAMPLES) (j : Channel) : k.val * ADC_CANNEL_NUM + index j < SAMPLES * ADC_CANNEL_NUM := by
  have hk := k.isLt
  cases j <;> simp only [index, SAMPLES, ADC_CANNEL_NUM] at hk ⊢ <;> omega

/-- `cur[i + j]`, where `i` is `k` times the number of channels. -/
def Buffer.sample (cur : Buffer) (k : Fin SAMPLES) (j : Channel) : UInt16 :=
  cur.get ⟨k.val * ADC_CANNEL_NUM + index j, place_lt k j⟩

/-- `tmp`. -/
def Buffer.deviation (cur : Buffer) (k : Fin SAMPLES) (j : Channel) : Int := (cur.sample k j).toNat - VREFCONST

/-- `sample_square` and `temp_active_power`. -/
structure Sums where
  sampleSquare : Channel → UInt32
  tempActivePower : UInt32

/-- One turn of the loop over the pairs of samples. -/
def Sums.add (cur : Buffer) (sums : Sums) (k : Fin SAMPLES) : Sums :=
  let sampleValue := fun j => UInt32.ofInt (cur.deviation k j)
  let tmpSquare := fun j => UInt32.ofInt (cur.deviation k j * cur.deviation k j)
  { sampleSquare := fun j => sums.sampleSquare j + tmpSquare j
    tempActivePower := sums.tempActivePower + sampleValue .uLoad * sampleValue .iLoad }

def sums (cur : Buffer) : Sums := (List.finRange SAMPLES).foldl (Sums.add cur) ⟨fun _ => 0, 0⟩

/-- `temp_active_power / SAMPLES`. -/
def meanPower (cur : Buffer) : UInt32 := (sums cur).tempActivePower / UInt32.ofNat SAMPLES

def rms (cur : Buffer) (j : Channel) : UInt32 :=
  UInt32.ofNat (Nat.sqrt ((sums cur).sampleSquare j / UInt32.ofNat SAMPLES).toNat)

def TwelveBit (cur : Buffer) : Prop := ∀ i, cur.get i < 4096

/-! ### Exact sums -/

/-- The signed sum of the products. -/
def exactPower (cur : Buffer) : Int := ∑ k, cur.deviation k .uLoad * cur.deviation k .iLoad

def exactSquares (cur : Buffer) (j : Channel) : Int := ∑ k, cur.deviation k j ^ 2

/-- The root of the mean square deviation. -/
def effective (cur : Buffer) (j : Channel) : Nat := Nat.sqrt ((exactSquares cur j).toNat / SAMPLES)

theorem foldl_add (cur : Buffer) (l : List (Fin SAMPLES)) (s : Sums) :
    (∀ j, (l.foldl (Sums.add cur) s).sampleSquare j =
        s.sampleSquare j + UInt32.ofInt (l.map fun k => cur.deviation k j ^ 2).sum) ∧
      (l.foldl (Sums.add cur) s).tempActivePower =
        s.tempActivePower + UInt32.ofInt (l.map fun k => cur.deviation k .uLoad * cur.deviation k .iLoad).sum := by
  induction l generalizing s with
  | nil => exact ⟨fun j => (UInt32.add_zero _).symm, (UInt32.add_zero _).symm⟩
  | cons k l ih =>
    obtain ⟨hsquare, hpower⟩ := ih (Sums.add cur s k)
    rw [List.foldl_cons]
    constructor
    · intro j
      rw [hsquare, List.map_cons, List.sum_cons, UInt32.ofInt_add, ← UInt32.add_assoc, sq]
      rfl
    · rw [hpower, List.map_cons, List.sum_cons, UInt32.ofInt_add, UInt32.ofInt_mul, ← UInt32.add_assoc]
      rfl

theorem sums_sampleSquare (cur : Buffer) (j : Channel) :
    (sums cur).sampleSquare j = UInt32.ofInt (exactSquares cur j) := by
  rw [sums, (foldl_add cur _ _).1, exactSquares, Fin.sum_univ_def]
  exact UInt32.zero_add _

theorem sums_tempActivePower (cur : Buffer) : (sums cur).tempActivePower = UInt32.ofInt (exactPower cur) := by
  rw [sums, (foldl_add cur _ _).2, exactPower, Fin.sum_univ_def]
  exact UInt32.zero_add _

theorem sum_bounds {f : Fin SAMPLES → Int} {lower upper : Int} (hf : ∀ k, lower ≤ f k ∧ f k ≤ upper) :
    200 * lower ≤ ∑ k, f k ∧ ∑ k, f k ≤ 200 * upper := by
  have hlower := Finset.univ.card_nsmul_le_sum f lower fun k _ => (hf k).1
  have hupper := Finset.univ.sum_le_card_nsmul f upper fun k _ => (hf k).2
  rw [Finset.card_fin, nsmul_eq_mul] at hlower hupper
  exact ⟨hlower, hupper⟩

theorem toNat_ofInt {n : Int} (hnonneg : 0 ≤ n) (hlt : n < 2 ^ 32) : (UInt32.ofInt n).toNat = n.toNat := by
  rw [UInt32.ofInt, UInt32.toNat_ofNat', Int.emod_eq_of_lt hnonneg hlt, Nat.mod_eq_of_lt (by omega)]

section TwelveBit

variable {cur : Buffer} (hcur : TwelveBit cur)

include hcur

theorem deviation_bounds (k : Fin SAMPLES) (j : Channel) : -1840 ≤ cur.deviation k j ∧ cur.deviation k j ≤ 2255 := by
  have hsample : (cur.sample k j).toNat < 4096 := hcur _
  unfold Buffer.deviation VREFCONST
  omega

theorem exactSquares_bounds (j : Channel) : 0 ≤ exactSquares cur j ∧ exactSquares cur j ≤ 200 * 2255 ^ 2 := by
  have hsquare : ∀ k, 0 ≤ cur.deviation k j ^ 2 ∧ cur.deviation k j ^ 2 ≤ 2255 ^ 2 := by
    intro k
    obtain ⟨hlower, hupper⟩ := deviation_bounds hcur k j
    exact ⟨sq_nonneg _, by nlinarith⟩
  exact sum_bounds hsquare

theorem exactPower_bounds : 200 * -(1840 * 2255) ≤ exactPower cur ∧ exactPower cur ≤ 200 * 2255 ^ 2 := by
  apply sum_bounds
  intro k
  obtain ⟨hlowerU, hupperU⟩ := deviation_bounds hcur k .uLoad
  obtain ⟨hlowerI, hupperI⟩ := deviation_bounds hcur k .iLoad
  rcases le_total 0 (cur.deviation k .uLoad) with hpos | hneg
  · constructor <;> nlinarith
  · constructor <;> nlinarith

/-! ### The active power -/

omit hcur in
theorem toNat_meanPower (cur : Buffer) : (meanPower cur).toNat = (UInt32.ofInt (exactPower cur)).toNat / 200 := by
  rw [meanPower, UInt32.toNat_div, sums_tempActivePower]
  rfl

/-- A sum below zero wraps, and its quotient is large. -/
theorem meanPower_of_neg (hneg : exactPower cur < 0) :
    ((meanPower cur).toNat : Int) ≠ (exactPower cur).tdiv SAMPLES := by
  obtain ⟨hlower, -⟩ := exactPower_bounds hcur
  have hwrapped : (UInt32.ofInt (exactPower cur)).toNat = (exactPower cur + 2 ^ 32).toNat := by
    rw [UInt32.ofInt, UInt32.toNat_ofNat', show exactPower cur % 2 ^ 32 = exactPower cur + 2 ^ 32 by omega,
      Nat.mod_eq_of_lt (by omega)]
  have hquotient : 0 ≤ (-exactPower cur).tdiv SAMPLES := Int.tdiv_nonneg (by omega) (by decide)
  rw [Int.neg_tdiv] at hquotient
  rw [toNat_meanPower cur, hwrapped]
  omega

/-- The integer that becomes the power keeps its sign exactly if there is none to keep. -/
theorem meanPower_eq_iff :
    ((meanPower cur).toNat : Int) = (exactPower cur).tdiv SAMPLES ↔ 0 ≤ exactPower cur := by
  constructor
  · intro heq
    exact not_lt.mp fun hneg => meanPower_of_neg hcur hneg heq
  · intro hnonneg
    obtain ⟨-, hupper⟩ := exactPower_bounds hcur
    rw [toNat_meanPower cur, toNat_ofInt hnonneg (by omega), Int.tdiv_eq_ediv_of_nonneg hnonneg]
    change _ = exactPower cur / 200
    omega

/-! ### The effective values -/

theorem toNat_sampleSquare (j : Channel) : ((sums cur).sampleSquare j).toNat = (exactSquares cur j).toNat := by
  obtain ⟨hnonneg, hupper⟩ := exactSquares_bounds hcur j
  rw [sums_sampleSquare, toNat_ofInt hnonneg (by omega)]

theorem effective_le (j : Channel) : effective cur j ≤ 2255 := by
  obtain ⟨-, hupper⟩ := exactSquares_bounds hcur j
  have hmean : (exactSquares cur j).toNat / SAMPLES ≤ 2255 * 2255 := by
    apply Nat.div_le_of_le_mul
    rw [SAMPLES]
    omega
  exact (Nat.sqrt_le_sqrt hmean).trans (Nat.sqrt_eq 2255).le

theorem toNat_rms (j : Channel) : (rms cur j).toNat = effective cur j := by
  rw [rms, UInt32.toNat_div, toNat_sampleSquare hcur, UInt32.toNat_ofNat']
  exact Nat.mod_eq_of_lt (lt_of_le_of_lt (effective_le hcur j) (by decide))

/-- The squares are summed exactly, and their root is at most the largest deviation. -/
theorem rms_exact (j : Channel) :
    ((sums cur).sampleSquare j).toNat = exactSquares cur j ∧
      (rms cur j).toNat = Nat.sqrt ((exactSquares cur j).toNat / SAMPLES) ∧ (rms cur j).toNat ≤ 2255 := by
  refine ⟨?_, toNat_rms hcur j, (toNat_rms hcur j).trans_le (effective_le hcur j)⟩
  rw [toNat_sampleSquare hcur, Int.toNat_of_nonneg (exactSquares_bounds hcur j).1]

end TwelveBit

/-- The same sample throughout. -/
def constant (sample : UInt16) : Buffer := Vector.replicate _ sample

theorem constant_sample (sample : UInt16) (k : Fin SAMPLES) (j : Channel) : (constant sample).sample k j = sample := by
  have hplace := place_lt k j
  change (Vector.replicate _ _)[k.val * ADC_CANNEL_NUM + index j] = _
  rw [Vector.getElem_replicate]

theorem constant_twelveBit {sample : UInt16} (hsample : sample < 4096) : TwelveBit (constant sample) := by
  intro i
  change (Vector.replicate _ _)[i.val] < 4096
  rwa [Vector.getElem_replicate]

/-- Both channels at the top of their range. -/
def fullScale : Buffer := constant 4095

theorem fullScale_twelveBit : TwelveBit fullScale := constant_twelveBit (by decide)

theorem meanPower_eq_iff_fullScale :
    ((meanPower fullScale).toNat : Int) = (exactPower fullScale).tdiv SAMPLES ↔ 0 ≤ exactPower fullScale :=
  meanPower_eq_iff fullScale_twelveBit

theorem rms_exact_fullScale :
    ((sums fullScale).sampleSquare .uLoad).toNat = exactSquares fullScale .uLoad ∧
      (rms fullScale .uLoad).toNat = Nat.sqrt ((exactSquares fullScale .uLoad).toNat / SAMPLES) ∧
      (rms fullScale .uLoad).toNat ≤ 2255 :=
  rms_exact fullScale_twelveBit .uLoad

/-- The voltage one step above its centre, the current one step below. -/
def opposite : Buffer := Vector.ofFn fun i => if i.val % 2 = 0 then 1841 else 1839

theorem opposite_twelveBit : TwelveBit opposite := by
  intro i
  change (Vector.ofFn _)[i.val] < 4096
  rw [Vector.getElem_ofFn]
  split <;> decide

theorem opposite_sample (k : Fin SAMPLES) (j : Channel) :
    opposite.sample k j = if index j = 0 then 1841 else 1839 := by
  have hplace := place_lt k j
  change (Vector.ofFn _)[k.val * ADC_CANNEL_NUM + index j] = _
  rw [Vector.getElem_ofFn]
  cases j <;> simp [index, ADC_CANNEL_NUM, Nat.add_mod]

/-- The sum -200 becomes 21474835. -/
theorem not_meanPower_eq : ¬ ∀ cur, TwelveBit cur → ((meanPower cur).toNat : Int) = (exactPower cur).tdiv SAMPLES := by
  intro h
  have hproduct : ∀ k, opposite.deviation k .uLoad * opposite.deviation k .iLoad = -1 := by
    intro k
    rw [Buffer.deviation, Buffer.deviation, opposite_sample, opposite_sample]
    decide
  have hneg : exactPower opposite < 0 :=
    (sum_bounds fun k => ⟨(hproduct k).ge, (hproduct k).le⟩).2.trans_lt (by decide)
  exact meanPower_of_neg opposite_twelveBit hneg (h opposite opposite_twelveBit)

end LightControlMonitor.Adc
