import Mathlib.Logic.Basic

/-!
# Flags of a word

A word of `n` bits as `n` flags: what `w |= 1 << i` and `w &= ~(1 << i)` do to the flag `i` and to every other.
-/

namespace Flags

variable {n : Nat}

def set (w : BitVec n) (i : Nat) : BitVec n := w ||| (1#n <<< i)

def clear (w : BitVec n) (i : Nat) : BitVec n := w &&& ~~~(1#n <<< i)

def put (w : BitVec n) (i : Nat) (on : Bool) : BitVec n := if on then set w i else clear w i

theorem getLsbD_one_shiftLeft {i j : Nat} (hj : j < n) : (1#n <<< i).getLsbD j = decide (j = i) := by
  rw [BitVec.getLsbD_shiftLeft, BitVec.getLsbD_one]
  by_cases heq : j = i
  · simp [heq, show i < n by omega, show 0 < n by omega]
  · simp only [heq, decide_false]
    by_cases hlt : j < i
    · simp [hlt]
    · simp [show j - i ≠ 0 by omega]

theorem getLsbD_set (w : BitVec n) {i : Nat} (hi : i < n) (j : Nat) :
    (set w i).getLsbD j = if j = i then true else w.getLsbD j := by
  rw [set, BitVec.getLsbD_or]
  by_cases hj : j < n
  · rw [getLsbD_one_shiftLeft hj]
    by_cases heq : j = i <;> simp [heq]
  · have hne : j ≠ i := by omega
    simp [hne, BitVec.getLsbD_of_ge _ _ (Nat.le_of_not_lt hj)]

theorem getLsbD_clear (w : BitVec n) (i j : Nat) :
    (clear w i).getLsbD j = if j = i then false else w.getLsbD j := by
  rw [clear, BitVec.getLsbD_and]
  by_cases hj : j < n
  · rw [BitVec.getLsbD_not, getLsbD_one_shiftLeft hj]
    by_cases heq : j = i <;> simp [heq, hj]
  · simp [BitVec.getLsbD_of_ge _ _ (Nat.le_of_not_lt hj)]

theorem getLsbD_put (w : BitVec n) {i : Nat} (hi : i < n) (on : Bool) (j : Nat) :
    (put w i on).getLsbD j = if j = i then on else w.getLsbD j := by
  cases on with
  | true => exact getLsbD_set w hi j
  | false => exact getLsbD_clear w i j

/-- The test of a flag against its mask. -/
theorem and_one_shiftLeft_eq (w : BitVec n) {i : Nat} (hi : i < n) :
    w &&& (1#n <<< i) = 1#n <<< i ↔ w.getLsbD i = true := by
  constructor
  · intro heq
    have hbit := congrArg (fun v => v.getLsbD i) heq
    simpa [getLsbD_one_shiftLeft hi] using hbit
  · intro hbit
    apply BitVec.eq_of_getLsbD_eq
    intro j hj
    rw [BitVec.getLsbD_and, getLsbD_one_shiftLeft hj]
    by_cases heq : j = i
    · simp [heq, hbit]
    · simp [heq]

end Flags
