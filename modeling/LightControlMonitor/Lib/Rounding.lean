import Mathlib.Algebra.Order.Floor.Ring
import Mathlib.Data.Int.Log
import Mathlib.Tactic.Linarith

/-!
# Rounding to significant binary digits

`nearest p x` is the number with `p` significant binary digits that is nearest to `x`, and of two nearest ones the one whose last digit is even. The exponent is unbounded. Such numbers are the multiples of `spacing p x` in the binade of `x`, so the error is at most half a spacing, and a spacing is small as long as `x` is.
-/

namespace Rounding

variable {K : Type*} [Field K] [LinearOrder K] [IsStrictOrderedRing K] [FloorRing K]

/-- The nearest integer, ties to the even one. -/
def roundEven (x : K) : ℤ :=
  if Int.fract x < 1 / 2 then ⌊x⌋ else if 1 / 2 < Int.fract x then ⌊x⌋ + 1 else ⌊x⌋ + ⌊x⌋ % 2

/-- The distance of neighbouring numbers with `p` significant digits at `x`. -/
def spacing (p : ℕ) (x : K) : K := 2 ^ (Int.log 2 x + 1 - p)

def nearest (p : ℕ) (x : K) : K := roundEven (x / spacing p x) * spacing p x

theorem abs_roundEven_sub_le (x : K) : |(roundEven x : K) - x| ≤ 1 / 2 := by
  have hsplit := Int.floor_add_fract x
  have hnonneg := Int.fract_nonneg x
  have hlt := Int.fract_lt_one x
  unfold roundEven
  split
  · rw [abs_le]
    constructor <;> linarith
  · split
    · rw [abs_le]
      push_cast
      constructor <;> linarith
    · have hhalf : Int.fract x = 1 / 2 := le_antisymm (not_lt.mp ‹_›) (not_lt.mp ‹_›)
      rw [abs_le]
      rcases Int.emod_two_eq_zero_or_one ⌊x⌋ with heven | hodd
      · rw [heven]
        push_cast
        constructor <;> linarith
      · rw [hodd]
        push_cast
        constructor <;> linarith

/-- Two integers nearer than half to one number are the same. -/
theorem roundEven_eq_of_abs_lt {x : K} {n : ℤ} (hnear : |x - n| < 1 / 2) : roundEven x = n := by
  have hround := abs_le.mp (abs_roundEven_sub_le x)
  have hn := abs_lt.mp hnear
  have hlt : ((roundEven x : ℤ) : K) < ((n + 1 : ℤ) : K) := by
    push_cast
    linarith
  have hgt : ((n - 1 : ℤ) : K) < ((roundEven x : ℤ) : K) := by
    push_cast
    linarith
  have := Int.cast_lt.mp hlt
  have := Int.cast_lt.mp hgt
  omega

theorem roundEven_nonneg {x : K} (hx : 0 ≤ x) : 0 ≤ roundEven x := by
  have hround := abs_le.mp (abs_roundEven_sub_le x)
  have hgt : ((-1 : ℤ) : K) < ((roundEven x : ℤ) : K) := by
    push_cast
    linarith
  have := Int.cast_lt.mp hgt
  omega

theorem spacing_pos (p : ℕ) (x : K) : 0 < spacing p x := zpow_pos two_pos _

theorem spacing_le {p : ℕ} {x : K} {e : ℤ} (hx : 0 < x) (hlt : x < 2 ^ e) : spacing p x ≤ 2 ^ (e - p) := by
  have hlog : Int.log 2 x < e := (Int.lt_zpow_iff_log_lt (by decide) hx).mp (by exact_mod_cast hlt)
  exact zpow_le_zpow_right₀ (by norm_num) (by omega)

theorem spacing_eq {p : ℕ} {x : K} {e : ℤ} (hle : 2 ^ e ≤ x) (hlt : x < 2 ^ (e + 1)) :
    spacing p x = 2 ^ (e + 1 - p) := by
  have hx : 0 < x := (zpow_pos two_pos e).trans_le hle
  have hupper : Int.log 2 x < e + 1 := (Int.lt_zpow_iff_log_lt (by decide) hx).mp (by exact_mod_cast hlt)
  have hlower : e ≤ Int.log 2 x := (Int.zpow_le_iff_le_log (by decide) hx).mp (by exact_mod_cast hle)
  rw [spacing, show Int.log 2 x = e by omega]

theorem nearest_nonneg (p : ℕ) {x : K} (hx : 0 ≤ x) : 0 ≤ nearest p x := by
  have hspacing := spacing_pos p x
  have hround : (0 : K) ≤ roundEven (x / spacing p x) := by
    exact_mod_cast roundEven_nonneg (div_nonneg hx hspacing.le)
  exact mul_nonneg hround hspacing.le

/-- The error is at most half a spacing. -/
theorem abs_nearest_sub_le (p : ℕ) (x : K) : |nearest p x - x| ≤ spacing p x / 2 := by
  have hspacing := spacing_pos p x
  have hsplit : nearest p x - x = (roundEven (x / spacing p x) - x / spacing p x) * spacing p x := by
    rw [sub_mul, div_mul_cancel₀ x hspacing.ne']
    rfl
  rw [hsplit, abs_mul, abs_of_pos hspacing]
  have := mul_le_mul_of_nonneg_right (abs_roundEven_sub_le (x / spacing p x)) hspacing.le
  linarith

/-- Below `2 ^ e` the error is at most half of the spacing of the binade below `2 ^ e`. -/
theorem abs_nearest_sub_le_of_lt {p : ℕ} {x : K} {e : ℤ} (hx : 0 ≤ x) (hlt : x < 2 ^ e) :
    |nearest p x - x| ≤ 2 ^ (e - p) / 2 := by
  rcases hx.eq_or_lt with rfl | hpos
  · have hzero : roundEven (0 : K) = 0 := roundEven_eq_of_abs_lt (by norm_num)
    have hnearest : nearest p (0 : K) = 0 := by
      rw [nearest, zero_div, hzero, Int.cast_zero, zero_mul]
    rw [hnearest, sub_zero, abs_zero]
    exact (half_pos (zpow_pos two_pos _)).le
  · have := abs_nearest_sub_le p x
    have := spacing_le (p := p) hpos hlt
    linarith

/-- A multiple of the spacing that is nearer than half of it is the result. -/
theorem nearest_eq {p : ℕ} {x : K} {n : ℤ} (hnear : |x - n * spacing p x| < spacing p x / 2) :
    nearest p x = n * spacing p x := by
  have hspacing := spacing_pos p x
  have hround : roundEven (x / spacing p x) = n := by
    apply roundEven_eq_of_abs_lt
    have hsplit : x / spacing p x - n = (x - n * spacing p x) / spacing p x := by
      rw [sub_div, mul_div_cancel_right₀ (n : K) hspacing.ne']
    rw [hsplit, abs_div, abs_of_pos hspacing, div_lt_iff₀ hspacing]
    linarith
  rw [nearest, hround]

end Rounding
