import Mathlib.Data.List.Basic

/-!
# Bounded queues

The two ways a producer that may not wait treats a full queue: `offer` leaves it alone and the new entry is lost, `push` makes room by dropping the oldest entry. The oldest entry is the head.
-/

namespace Fifo

variable {α : Type*}

/-- Append to a queue of at most `cap` entries; a full queue is left as it is. -/
def offer (cap : Nat) (q : List α) (x : α) : List α :=
  if q.length < cap then q ++ [x] else q

/-- Append to a queue of at most `cap` entries; a full queue loses its oldest entry. -/
def push (cap : Nat) (q : List α) (x : α) : List α :=
  if q.length < cap then q ++ [x] else q.tail ++ [x]

theorem push_of_lt {cap : Nat} {q : List α} (hroom : q.length < cap) (x : α) : push cap q x = q ++ [x] :=
  if_pos hroom

theorem length_offer_le (cap : Nat) (q : List α) (x : α) : (offer cap q x).length ≤ q.length + 1 := by
  unfold offer
  split
  · exact Nat.le_of_eq List.length_append
  · exact Nat.le_succ _

theorem mem_offer_of_mem {cap : Nat} {q : List α} {x y : α} (hy : y ∈ q) : y ∈ offer cap q x := by
  unfold offer
  split
  · exact List.mem_append_left _ hy
  · exact hy

theorem mem_or_eq_of_mem_offer {cap : Nat} {q : List α} {x y : α} (hy : y ∈ offer cap q x) : y ∈ q ∨ y = x := by
  unfold offer at hy
  split at hy
  · simpa using hy
  · exact .inl hy

theorem mem_offer_self {cap : Nat} {q : List α} {x : α} (h : q.length < cap ∨ x ∈ q) : x ∈ offer cap q x := by
  unfold offer
  split
  · simp
  · exact h.resolve_left ‹_›

end Fifo
