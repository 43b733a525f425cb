import Mathlib.Logic.Basic

/-!
# Words sent bit by bit

A word shifted out of one register, the highest bit first, and into another. After as many bits as it is wide, the other register holds the word, whatever was in it before.
-/

namespace ShiftRegister

variable {w : Nat}

/-- The bits that `n` shifts to the left push out. -/
def out : Nat → BitVec w → List Bool
  | 0, _ => []
  | n + 1, x => x.msb :: out n (x <<< 1)

def input (reg : BitVec w) (bits : List Bool) : BitVec w := bits.foldl BitVec.shiftConcat reg

theorem input_out_succ (reg : BitVec w) (n : Nat) (x : BitVec w) :
    input reg (out (n + 1) x) = input (reg.shiftConcat x.msb) (out n (x <<< 1)) :=
  rfl

/-- After `n` bits the lowest `n` places hold the highest bits of the word, and the old contents have moved up. -/
theorem getLsbD_input_out {n i : Nat} (hn : n ≤ w) (hi : i < w) (reg x : BitVec w) :
    (input reg (out n x)).getLsbD i = if i < n then x.getLsbD (w - n + i) else reg.getLsbD (i - n) := by
  induction n generalizing reg x with
  | zero => rfl
  | succ n ih =>
    rw [input_out_succ, ih (by omega)]
    rcases Nat.lt_trichotomy i n with hlt | rfl | hgt
    · rw [if_pos hlt, if_pos (by omega), BitVec.getLsbD_shiftLeft]
      have hplace : w - n + i - 1 = w - (n + 1) + i := by omega
      simp [hplace, show w - n + i < w by omega, show w - n ≠ 0 by omega]
    · rw [if_neg (Nat.lt_irrefl i), if_pos (Nat.lt_succ_self i), BitVec.getLsbD_shiftConcat, Nat.sub_self]
      have hplace : w - (i + 1) + i = w - 1 := by omega
      simp [hplace, BitVec.msb_eq_getLsbD_last, show 0 < w by omega]
    · rw [if_neg (by omega), if_neg (by omega), BitVec.getLsbD_shiftConcat]
      have hplace : i - n - 1 = i - (n + 1) := by omega
      simp [hplace, show i - n < w by omega, show i - n ≠ 0 by omega]

theorem input_out (reg x : BitVec w) : input reg (out w x) = x := by
  apply BitVec.eq_of_getLsbD_eq
  intro i hi
  rw [getLsbD_input_out (Nat.le_refl w) hi, if_pos hi, Nat.sub_self, Nat.zero_add]

end ShiftRegister
