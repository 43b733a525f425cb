import Mathlib.Data.List.Range
import Mathlib.Logic.Function.Basic
import Mathlib.Order.Nat

/-!
# Ring buffers

A queue in an array of slots whose oldest entry is at the place `out` and whose next entry goes to the place `into`. Both places move by `advance`, which compares with the size instead of dividing. `Holds slots size out into q` says that the slots hold the queue `q`; the entries are written, taken, put back in front and overwritten as the lemmas say.
-/

namespace RingBuffer

variable {α : Type*}

def advance (size place : Nat) : Nat := if size ≤ place + 1 then 0 else place + 1

def retreat (size place : Nat) : Nat := if 0 < place then place - 1 else size - 1

theorem advance_eq_mod {size place : Nat} (hlt : place < size) : advance size place = (place + 1) % size := by
  unfold advance
  split
  · rw [show place + 1 = size by omega, Nat.mod_self]
  · rw [Nat.mod_eq_of_lt (by omega)]

theorem advance_lt {size place : Nat} (hlt : place < size) : advance size place < size := by
  rw [advance_eq_mod hlt]
  exact Nat.mod_lt _ (Nat.zero_lt_of_lt hlt)

theorem retreat_lt {size place : Nat} (hlt : place < size) : retreat size place < size := by
  unfold retreat
  split <;> omega

theorem advance_retreat {size place : Nat} (hlt : place < size) : advance size (retreat size place) = place := by
  unfold advance retreat
  split <;> split <;> omega

/-- Entries less than a round apart are in different slots. -/
theorem place_ne {size : Nat} (out : Nat) {i j : Nat} (hij : i < j) (hround : j < i + size) : (out + i) % size ≠ (out + j) % size := by
  intro heq
  have hdvd := Nat.sub_mod_eq_zero_of_mod_eq heq.symm
  rw [show out + j - (out + i) = j - i by omega, Nat.mod_eq_of_lt (by omega)] at hdvd
  omega

/-- The first `n` entries from the place `out` on. -/
def entries (slots : Nat → α) (size out n : Nat) : List α :=
  (List.range n).map fun i => slots ((out + i) % size)

theorem entries_succ (slots : Nat → α) (size out n : Nat) :
    entries slots size out (n + 1) = entries slots size out n ++ [slots ((out + n) % size)] := by
  rw [entries, List.range_succ, List.map_append, List.map_singleton, entries]

theorem entries_succ' (slots : Nat → α) {size out : Nat} (hout : out < size) (n : Nat) :
    entries slots size out (n + 1) = slots out :: entries slots size (advance size out) n := by
  have hplace : ∀ i, (advance size out + i) % size = (out + (i + 1)) % size := by
    intro i
    rw [advance_eq_mod hout, Nat.mod_add_mod, Nat.add_assoc, Nat.add_comm 1 i]
  rw [entries, List.range_succ_eq_map, List.map_cons, List.map_map, Nat.add_zero, Nat.mod_eq_of_lt hout]
  exact congrArg _ (List.map_congr_left fun i _ => by rw [Function.comp_apply, hplace])

theorem entries_update (slots : Nat → α) {size out n place : Nat} (hplace : ∀ i < n, (out + i) % size ≠ place) (x : α) :
    entries (Function.update slots place x) size out n = entries slots size out n :=
  List.map_congr_left fun i hi => Function.update_of_ne (hplace i (List.mem_range.mp hi)) x slots

structure Holds (slots : Nat → α) (size out into : Nat) (q : List α) : Prop where
  out_lt : out < size
  into_eq : into = (out + q.length) % size
  length_le : q.length ≤ size
  entries_eq : entries slots size out q.length = q

variable {slots : Nat → α} {size out into : Nat} {q : List α}

theorem Holds.empty (slots : Nat → α) {place : Nat} (hlt : place < size) : Holds slots size place place [] :=
  ⟨hlt, (Nat.mod_eq_of_lt hlt).symm, Nat.zero_le _, rfl⟩

theorem Holds.into_lt (h : Holds slots size out into q) : into < size := by
  rw [h.into_eq]
  exact Nat.mod_lt _ (Nat.zero_lt_of_lt h.out_lt)

theorem Holds.put (h : Holds slots size out into q) (hroom : q.length < size) (x : α) :
    Holds (Function.update slots into x) size out (advance size into) (q ++ [x]) := by
  obtain ⟨hout, hinto, -, hentries⟩ := h
  have hinto' : into < size := hinto ▸ Nat.mod_lt _ (Nat.zero_lt_of_lt hout)
  refine ⟨hout, ?_, ?_, ?_⟩
  · rw [advance_eq_mod hinto', hinto, Nat.mod_add_mod, List.length_append, List.length_singleton, Nat.add_assoc]
  · rw [List.length_append, List.length_singleton]
    omega
  · rw [List.length_append, List.length_singleton, entries_succ, ← hinto, Function.update_self, entries_update, hentries]
    intro i hi
    rw [hinto]
    exact place_ne out hi (by omega)

theorem Holds.take {x : α} (h : Holds slots size out into (x :: q)) :
    slots out = x ∧ Holds slots size (advance size out) into q := by
  obtain ⟨hout, hinto, hlength, hentries⟩ := h
  rw [List.length_cons, entries_succ' slots hout] at hentries
  obtain ⟨hx, hq⟩ := List.cons.inj hentries
  refine ⟨hx, advance_lt hout, ?_, (Nat.le_succ _).trans hlength, hq⟩
  rw [hinto, List.length_cons, advance_eq_mod hout, Nat.mod_add_mod, Nat.add_assoc, Nat.add_comm 1]

theorem Holds.putBack (h : Holds slots size out into q) (hroom : q.length < size) (x : α) :
    Holds (Function.update slots (retreat size out) x) size (retreat size out) into (x :: q) := by
  obtain ⟨hout, hinto, -, hentries⟩ := h
  have hshift : ∀ i, (out + i) % size = (retreat size out + (i + 1)) % size := by
    intro i
    rw [Nat.add_comm i 1, ← Nat.add_assoc, ← Nat.mod_add_mod (retreat size out + 1), ← advance_eq_mod (retreat_lt hout),
      advance_retreat hout]
  refine ⟨retreat_lt hout, by rw [hinto, hshift, List.length_cons], hroom, ?_⟩
  rw [List.length_cons, entries_succ' _ (retreat_lt hout), Function.update_self, advance_retreat hout, entries_update,
    hentries]
  intro i hi
  have hne : (retreat size out + 0) % size ≠ (retreat size out + (i + 1)) % size :=
    place_ne (retreat size out) (Nat.succ_pos i) (by omega)
  rw [Nat.add_zero, Nat.mod_eq_of_lt (retreat_lt hout)] at hne
  rw [hshift]
  exact hne.symm

end RingBuffer
