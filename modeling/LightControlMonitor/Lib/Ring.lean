import Mathlib.Algebra.BigOperators.Group.List.Basic
import Mathlib.Data.List.DropRight
import Mathlib.Data.List.Rotate

/-!
# Rings of slots

Slots that are written in turn, the first one again after the last. Read from the place that is written next, they are the newest entries of everything that was ever in them, the first content included, oldest first. So a sum over the slots is the sum of the newest entries.
-/

namespace Ring

variable {α : Type*}

/-- The slots, read from the place that is written next, are the newest entries of the history. -/
structure Holds (history slots : List α) (place : Nat) : Prop where
  place_lt : place < slots.length
  newest : slots.rotate place = history.rtake slots.length

theorem Holds.start {slots : List α} (hne : slots ≠ []) : Holds slots slots 0 where
  place_lt := List.length_pos_iff.mpr hne
  newest := by
    rw [List.rotate_zero, List.rtake, Nat.sub_self, List.drop_zero]

theorem length_rtake (l : List α) (n : Nat) : (l.rtake n).length = min n l.length := by
  rw [List.rtake, List.length_drop]
  omega

theorem rotate_set {slots : List α} {place : Nat} (hlt : place < slots.length) (x : α) :
    (slots.set place x).rotate (place + 1) = (slots.rotate place).tail ++ [x] := by
  rw [List.rotate_eq_drop_append_take (by rwa [List.length_set]), List.rotate_eq_drop_append_take hlt.le,
    List.drop_set_of_lt (by omega), List.tail_append_of_ne_nil (by simpa using hlt), List.tail_drop, List.append_assoc]
  congr 1
  rw [List.take_set, List.take_succ_eq_append_getElem hlt, List.set_append_right _ _ (List.length_take_le ..)]
  simp [hlt.le]

/-- A write overwrites the oldest entry. -/
theorem Holds.write {history slots : List α} {place : Nat} (h : Holds history slots place) (x : α) :
    Holds (history ++ [x]) (slots.set place x) ((place + 1) % slots.length) where
  place_lt := by
    rw [List.length_set]
    exact Nat.mod_lt _ (Nat.zero_lt_of_lt h.place_lt)
  newest := by
    have hmod : (slots.set place x).rotate ((place + 1) % slots.length) = (slots.set place x).rotate (place + 1) := by
      have := List.rotate_mod (slots.set place x) (place + 1)
      rwa [List.length_set] at this
    have hroom : slots.length ≤ history.length := by
      have hlength := congrArg List.length h.newest
      rw [List.length_rotate, length_rtake] at hlength
      omega
    obtain ⟨n, hn⟩ : ∃ n, slots.length = n + 1 := ⟨slots.length - 1, by have := h.place_lt; omega⟩
    rw [hmod, rotate_set h.place_lt, h.newest, List.length_set, hn, List.rtake_concat_succ, List.rtake, List.rtake,
      List.tail_drop]
    congr 2
    omega

theorem Holds.sum_eq [AddCommMonoid α] {history slots : List α} {place : Nat} (h : Holds history slots place) :
    slots.sum = (history.rtake slots.length).sum := by
  rw [← h.newest]
  exact (List.rotate_perm slots place).sum_eq.symm

end Ring
