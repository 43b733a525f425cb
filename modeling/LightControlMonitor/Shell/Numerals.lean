import LightControlMonitor.Shell.Commands
import Mathlib.Data.Int.ModEq
import Mathlib.Data.Nat.Digits.Defs

/-!
# Decimal arguments

What `my_atoi` makes of a decimal number. A numeral is a sign and a list of digits, the highest first, of any length; its characters are what the shell passes, and its value is the integer it stands for.
-/

namespace LightControlMonitor.Shell

structure Numeral where
  negative : Bool
  digits : List (Fin 10)

/-- The character of a digit. -/
def digitChar (d : Fin 10) : UInt8 := UInt8.ofNat (0x30 + d.val)

def Numeral.chars (n : Numeral) : List UInt8 :=
  (if n.negative then [0x2d] else []) ++ n.digits.map digitChar

def Numeral.magnitude (n : Numeral) : Nat := Nat.ofDigits 10 (n.digits.reverse.map Fin.val)

def Numeral.value (n : Numeral) : Int := if n.negative then -(n.magnitude : Int) else n.magnitude

/-! ### Every integer has a numeral -/

/-- The digits of a number, the lowest first; zero has none. -/
def lowDigits (m : Nat) : List (Fin 10) := (Nat.digits 10 m).map fun d => Fin.ofNat 10 d

def Numeral.ofInt (z : Int) : Numeral := ⟨decide (z < 0), (lowDigits z.natAbs).reverse⟩

theorem map_val_lowDigits (m : Nat) : (lowDigits m).map Fin.val = Nat.digits 10 m := by
  rw [lowDigits, List.map_map]
  refine (List.map_congr_left fun d hd => ?_).trans (List.map_id _)
  exact Nat.mod_eq_of_lt (Nat.digits_lt_base (by decide) hd)

theorem Numeral.value_ofInt (z : Int) : (Numeral.ofInt z).value = z := by
  have hmagnitude : (Numeral.ofInt z).magnitude = z.natAbs := by
    rw [magnitude, ofInt, List.reverse_reverse, map_val_lowDigits, Nat.ofDigits_digits]
  rw [value, hmagnitude, ofInt]
  split
  · rename_i hneg
    have := of_decide_eq_true hneg
    omega
  · rename_i hnonneg
    have := of_decide_eq_false (Bool.eq_false_of_not_eq_true hnonneg)
    omega

/-! ### The parser -/

theorem toNat_digitChar (d : Fin 10) : (digitChar d).toNat = 0x30 + d.val :=
  UInt8.toNat_ofNat_of_lt' (show 0x30 + d.val < 256 by omega)

theorem digitChar_ne_minus (d : Fin 10) : digitChar d ≠ 0x2d := by
  intro heq
  have htoNat := toNat_digitChar d
  rw [heq] at htoNat
  exact absurd htoNat (by change 0x2d ≠ 0x30 + d.val; omega)

/-- One more character is one more step of the fold. -/
theorem charSum_append_singleton (str : List UInt8) (c : UInt8) :
    charSum (str ++ [c]) = 10 * charSum str + ((c.toNat : Int) - 48) := by
  simp only [charSum, List.foldl_append, List.foldl_cons, List.foldl_nil]

theorem charSum_digits (digits : List (Fin 10)) :
    charSum (digits.map digitChar) = (Nat.ofDigits 10 (digits.reverse.map Fin.val) : Nat) := by
  induction digits using List.reverseRecOn with
  | nil => rfl
  | append_singleton digits d ih =>
    rw [List.map_append, List.map_singleton, charSum_append_singleton, ih, toNat_digitChar, List.reverse_append,
      List.reverse_singleton, List.singleton_append, List.map_cons, Nat.ofDigits_cons]
    push_cast
    omega

/-- A string that starts with no sign is read as digits. -/
theorem decimalValue_of_digits (digits : List (Fin 10)) :
    decimalValue (digits.map digitChar) = charSum (digits.map digitChar) := by
  cases digits with
  | nil => rfl
  | cons d digits =>
    rw [List.map_cons, decimalValue]
    intro rest heq
    exact digitChar_ne_minus d (List.cons.inj heq).1

theorem decimalValue_chars (n : Numeral) : decimalValue n.chars = n.value := by
  obtain ⟨negative, digits⟩ := n
  cases negative with
  | true =>
    change -charSum (digits.map digitChar) = -(Nat.ofDigits 10 (digits.reverse.map Fin.val) : Nat)
    rw [charSum_digits]
  | false =>
    change decimalValue (digits.map digitChar) = (Nat.ofDigits 10 (digits.reverse.map Fin.val) : Nat)
    rw [decimalValue_of_digits, charSum_digits]

theorem toInt_toInt16_ofInt (z : Int) : (UInt16.ofInt z).toInt16.toInt = z.bmod 65536 := by
  have hnonneg : 0 ≤ z % 65536 := Int.emod_nonneg z (by decide)
  change (UInt16.ofNat (z % 65536).toNat).toInt16.toInt = z.bmod 65536
  rw [UInt16.toInt16_ofNat', Int16.toInt_ofNat', Int.toNat_of_nonneg hnonneg]
  exact Int.emod_bmod z 65536

theorem toInt_myAtoi (n : Numeral) : (myAtoi n.chars).toInt = n.value.bmod 65536 := by
  rw [myAtoi_eq, toInt_toInt16_ofInt, decimalValue_chars]

/-- `my_atoi` is exact modulo `2 ^ 16`, so it reads back every notation of an integer of 16 bits. -/
theorem myAtoi_numeral :
    (∀ n : Numeral, (myAtoi n.chars).toInt ≡ n.value [ZMOD 65536] ∧ (n.digits = [] → myAtoi n.chars = 0)) ∧
      ∀ z : Int, -32768 ≤ z → z ≤ 32767 →
        (Numeral.ofInt z).value = z ∧ ∀ n : Numeral, n.value = z → (myAtoi n.chars).toInt = z := by
  refine ⟨fun n => ⟨?_, fun hdigits => ?_⟩, fun z hlow hhigh => ⟨Numeral.value_ofInt z, ?_⟩⟩
  · rw [toInt_myAtoi]
    exact Int.bmod_emod
  · rw [Numeral.chars, hdigits]
    cases n.negative <;> rfl
  · rintro n rfl
    rw [toInt_myAtoi]
    exact Int.bmod_eq_of_le (by omega) (by omega)

/-- The sign is applied to 32768, which no signed number of 16 bits holds. -/
theorem myAtoi_lowest : (myAtoi [0x2d, 0x33, 0x32, 0x37, 0x36, 0x38]).toInt = -32768 :=
  (myAtoi_numeral.2 (-32768) (by decide) (by decide)).2 ⟨true, [3, 2, 7, 6, 8]⟩ (by decide)

end LightControlMonitor.Shell
