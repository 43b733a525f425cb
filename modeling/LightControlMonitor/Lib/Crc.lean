import Mathlib.Data.Nat.Bitwise
import Mathlib.Logic.Function.Iterate

/-!
# Checks that are linear in exclusive or

A cyclic redundancy check runs a shift register over the words of a message. Shifting is additive for exclusive or, and that alone makes the check of a sum the sum of the checks. So what an error does to the check depends on the error and not on the message it hits.
-/

namespace Crc

/-- One shift of a register that loses its lowest bit; a lost 1 is fed back through the taps `poly`. -/
def shift {w : Nat} (poly reg : BitVec w) : BitVec w :=
  if reg.getLsbD 0 then (reg >>> 1) ^^^ poly else reg >>> 1

theorem shift_xor {w : Nat} (poly : BitVec w) : Function.Semiconj₂ (shift poly) (· ^^^ ·) (· ^^^ ·) := by
  intro x y
  simp only [shift, BitVec.getLsbD_xor, BitVec.ushiftRight_xor_distrib]
  cases x.getLsbD 0 <;> cases y.getLsbD 0 <;> simp
  · ac_rfl
  · ac_rfl
  · rw [BitVec.xor_comm (y >>> 1), BitVec.xor_assoc, ← BitVec.xor_assoc poly, BitVec.xor_self, BitVec.zero_xor]

section Check

variable {α : Type*} (add : α → α → α) (step : α → α)

/-- The register after a message: every word is added and then `step` taken. -/
def check (reg : α) (message : List α) : α := message.foldl (fun reg word => step (add reg word)) reg

/-- Two messages of one length, added word by word. -/
theorem check_zipWith [Std.Associative add] [Std.Commutative add] (hstep : Function.Semiconj₂ step add add)
    {m n : List α} (hlength : m.length = n.length) (x y : α) :
    check add step (add x y) (List.zipWith add m n) = add (check add step x m) (check add step y n) := by
  induction m generalizing n x y with
  | nil =>
    obtain rfl := List.length_eq_zero_iff.mp hlength.symm
    rfl
  | cons a m ih =>
    obtain ⟨b, n, rfl⟩ := List.exists_cons_of_length_eq_add_one hlength.symm
    have hregister : step (add (add x y) (add a b)) = add (step (add x a)) (step (add y b)) := by
      rw [← hstep]
      congr 1
      ac_rfl
    change check add step (step (add (add x y) (add a b))) (List.zipWith add m n) = _
    rw [hregister]
    exact ih (Nat.succ.inj hlength) _ _

end Check

/-! ### Bursts -/

/-- An error that changes at least one bit and only bits of `len` neighbours. -/
def Burst {w : Nat} (len : Nat) (mask : BitVec w) : Prop :=
  mask ≠ 0 ∧ ∃ start, ∀ i, mask.getLsbD i = true → start ≤ i ∧ i < start + len

theorem burst_of_lt {w len : Nat} {mask : BitVec w} (hne : mask ≠ 0) (start : Nat)
    (hwindow : ∀ i < w, mask.getLsbD i = true → start ≤ i ∧ i < start + len) : Burst len mask :=
  ⟨hne, start, fun i hset => hwindow i (BitVec.lt_of_getLsbD hset) hset⟩

/-- A burst is a non-zero pattern of `len` bits, moved to a place where it fits the word. -/
theorem Burst.eq_shiftLeft {w len : Nat} {mask : BitVec w} (hburst : Burst len mask) (hlen : len ≤ w) :
    ∃ start ≤ w - len, ∃ pattern < 2 ^ len, pattern ≠ 0 ∧ mask = BitVec.ofNat w pattern <<< start := by
  obtain ⟨hne, start, hwindow⟩ := hburst
  have hclear : ∀ i, i < min start (w - len) ∨ min start (w - len) + len ≤ i → mask.getLsbD i = false := by
    intro i hi
    by_contra hset
    rw [Bool.not_eq_false] at hset
    have := hwindow i hset
    have := BitVec.lt_of_getLsbD hset
    omega
  have hpattern : (mask.toNat >>> min start (w - len)) < 2 ^ len := by
    apply Nat.lt_pow_two_of_testBit
    intro i hi
    rw [Nat.testBit_shiftRight, BitVec.testBit_toNat]
    exact hclear _ (.inr (by omega))
  have hmask : mask = BitVec.ofNat w (mask.toNat >>> min start (w - len)) <<< min start (w - len) := by
    apply BitVec.eq_of_getLsbD_eq
    intro i hi
    rw [BitVec.getLsbD_shiftLeft, BitVec.getLsbD_ofNat, Nat.testBit_shiftRight, BitVec.testBit_toNat]
    by_cases hlow : i < min start (w - len)
    · rw [hclear i (.inl hlow)]
      simp [hlow]
    · rw [Nat.add_sub_cancel' (Nat.not_lt.mp hlow)]
      simp only [hi, hlow, decide_true, decide_false, Bool.not_false, Bool.true_and]
      rw [decide_eq_true (show i - min start (w - len) < w by omega), Bool.true_and]
  refine ⟨min start (w - len), Nat.min_le_right .., _, hpattern, fun hzero => hne ?_, hmask⟩
  rw [hmask, hzero]
  exact BitVec.zero_shiftLeft _

end Crc
