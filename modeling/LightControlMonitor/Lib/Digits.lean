import Mathlib.Data.Nat.Digits.Lemmas

/-!
# Fixed-point notation

The digits of a number cut at a fixed place: below it the low digits, filled up with zeros, and above it the digits of the quotient.
-/

namespace Digits

variable {b : Nat}

/-- The `d` lowest digits of a number, the lowest first. -/
def low (b d n : Nat) : List Nat := (List.range d).map fun i => n / b ^ i % b

@[simp] theorem length_low (b d n : Nat) : (low b d n).length = d := by
  rw [low, List.length_map, List.length_range]

theorem take_digits (hb : 1 < b) {d n : Nat} (hd : d ≤ (Nat.digits b n).length) :
    (Nat.digits b n).take d = low b d n := by
  apply List.ext_getElem
  · rw [List.length_take, Nat.min_eq_left hd, length_low]
  · intro i hi hi'
    have hlt : i < (Nat.digits b n).length := by
      rw [length_low] at hi'
      exact hi'.trans_le hd
    have hdigit := Nat.getD_digits n i hb
    rw [List.getD_eq_getElem?_getD, List.getElem?_eq_getElem hlt, Option.getD_some] at hdigit
    simpa [low] using hdigit

theorem drop_digits (hb : 1 < b) (d n : Nat) : (Nat.digits b n).drop d = Nat.digits b (n / b ^ d) := by
  induction d generalizing n with
  | zero => rw [List.drop_zero, pow_zero, Nat.div_one]
  | succ d ih =>
    by_cases hn : n = 0
    · simp [hn]
    · rw [Nat.digits_def' hb (Nat.pos_of_ne_zero hn), List.drop_succ_cons, ih, pow_succ', Nat.div_div_eq_div_mul]

end Digits
