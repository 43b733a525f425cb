import Mathlib.Data.List.Nodup
import Mathlib.Logic.Function.Basic

/-!
# The lists of the kernel

`rt_list_t` of `rtservice.h`: doubly linked rings, where the header of a list is a node of the ring and a node in no list is a ring of its own. `Ring h l xs` says that the ring of `l` goes through the nodes `xs` and back. A ring may be entered at any of its nodes, which is why `rt_list_remove` needs no header.
-/

namespace LightControlMonitor.Kernel

variable {N : Type*} [DecidableEq N]

/-- The fields `next` and `prev` of every node. -/
structure RtHeap (N : Type*) where
  next : N → N
  prev : N → N

def RtHeap.setNext (h : RtHeap N) (n target : N) : RtHeap N := { h with next := Function.update h.next n target }

def RtHeap.setPrev (h : RtHeap N) (n target : N) : RtHeap N := { h with prev := Function.update h.prev n target }

def rtListInit (h : RtHeap N) (l : N) : RtHeap N := (h.setNext l l).setPrev l l

def rtListInsertBefore (h : RtHeap N) (l n : N) : RtHeap N :=
  let h := h.setNext (h.prev l) n
  let h := h.setPrev n (h.prev l)
  let h := h.setPrev l n
  h.setNext n l

def rtListRemove (h : RtHeap N) (n : N) : RtHeap N :=
  let h := h.setPrev (h.next n) (h.prev n)
  let h := h.setNext (h.prev n) (h.next n)
  let h := h.setPrev n n
  h.setNext n n

def rtListIsempty (h : RtHeap N) (l : N) : Bool := h.next l = l

/-- The loop of `rt_list_len` from the node `p` on. -/
def rtListLen (h : RtHeap N) (l : N) : Nat → N → Option Nat
  | 0, _ => none
  | fuel + 1, p => if h.next p ≠ l then (rtListLen h l fuel (h.next p)).map (· + 1) else some 0

/-! ### Paths and rings -/

def RtHeap.Linked (h : RtHeap N) (a b : N) : Prop := h.next a = b ∧ h.prev b = a

/-- From `a` through the nodes `xs` to `b`. -/
def RtHeap.Path (h : RtHeap N) : N → List N → N → Prop
  | a, [], b => h.Linked a b
  | a, x :: xs, b => h.Linked a x ∧ h.Path x xs b

structure RtHeap.Ring (h : RtHeap N) (l : N) (xs : List N) : Prop where
  path : h.Path l xs l
  nodup : (l :: xs).Nodup

variable {h h' : RtHeap N} {a b l n : N} {xs ys : List N}

omit [DecidableEq N] in
theorem RtHeap.path_append : h.Path a (xs ++ n :: ys) b ↔ h.Path a xs n ∧ h.Path n ys b := by
  induction xs generalizing a with
  | nil => rfl
  | cons x xs ih => rw [List.cons_append, RtHeap.Path, RtHeap.Path, ih, and_assoc]

omit [DecidableEq N] in
/-- A path depends on the links out of its nodes and back into them. -/
theorem RtHeap.Path.congr (hpath : h.Path a xs b) (hnext : ∀ x ∈ a :: xs, h'.next x = h.next x)
    (hprev : ∀ x ∈ xs ++ [b], h'.prev x = h.prev x) : h'.Path a xs b := by
  induction xs generalizing a with
  | nil => exact ⟨(hnext a List.mem_cons_self).trans hpath.1, (hprev b List.mem_cons_self).trans hpath.2⟩
  | cons x xs ih =>
    obtain ⟨⟨hout, hback⟩, hrest⟩ := hpath
    refine ⟨⟨?_, ?_⟩, ?_⟩
    · exact (hnext a List.mem_cons_self).trans hout
    · exact (hprev x List.mem_cons_self).trans hback
    · exact ih hrest (fun y hy => hnext y (List.mem_cons_of_mem a hy)) fun y hy => hprev y (List.mem_cons_of_mem x hy)

omit [DecidableEq N] in
theorem RtHeap.Path.next_eq (hpath : h.Path a xs b) : h.next a = (xs ++ [b]).head (by simp) := by
  cases xs with
  | nil => exact hpath.1
  | cons x xs => exact hpath.1.1

omit [DecidableEq N] in
theorem RtHeap.Ring.congr (hring : h.Ring l xs) (hnext : ∀ x ∈ l :: xs, h'.next x = h.next x)
    (hprev : ∀ x ∈ l :: xs, h'.prev x = h.prev x) : h'.Ring l xs where
  path := hring.path.congr hnext fun x hx => by
    rw [List.mem_append, List.mem_singleton] at hx
    rcases hx with hx | rfl
    · exact hprev x (List.mem_cons_of_mem l hx)
    · exact hprev x List.mem_cons_self
  nodup := hring.nodup

omit [DecidableEq N] in
/-- The same ring, entered at another of its nodes. -/
theorem RtHeap.Ring.rotate (xs : List N) (hring : h.Ring l (xs ++ n :: ys)) : h.Ring n (ys ++ l :: xs) where
  path := by
    obtain ⟨hxs, hys⟩ := RtHeap.path_append.mp hring.path
    exact RtHeap.path_append.mpr ⟨hys, hxs⟩
  nodup := by
    have hperm : (l :: (xs ++ n :: ys)).Perm (n :: (ys ++ l :: xs)) := by
      rw [← List.cons_append, ← List.cons_append]
      exact List.perm_append_comm
    exact hperm.nodup_iff.mp hring.nodup

/-! ### The operations -/

theorem rtListInit_ring (h : RtHeap N) (l : N) : (rtListInit h l).Ring l [] :=
  ⟨by simp [rtListInit, RtHeap.Path, RtHeap.Linked, RtHeap.setNext, RtHeap.setPrev], List.nodup_singleton l⟩

theorem rtListIsempty_iff (hring : h.Ring l xs) : rtListIsempty h l = true ↔ xs = [] := by
  rw [rtListIsempty, decide_eq_true_iff, hring.path.next_eq]
  cases xs with
  | nil => simp
  | cons x xs =>
    have hne : x ≠ l := fun heq => (List.nodup_cons.mp hring.nodup).1 (heq ▸ List.mem_cons_self)
    simpa using hne

theorem rtListIsempty_cons (hring : h.Ring l (n :: xs)) : rtListIsempty h l = false ∧ h.next l = n := by
  refine ⟨Bool.eq_false_iff.mpr fun hempty => ?_, hring.path.1.1⟩
  simpa using (rtListIsempty_iff hring).mp hempty

theorem rtListIsempty_nil (hring : h.Ring l []) : rtListIsempty h l = true :=
  (rtListIsempty_iff hring).mpr rfl

theorem rtListLen_path {p : N} {fuel : Nat} (hpath : h.Path p xs l) (hnot : l ∉ xs) (hfuel : xs.length < fuel) :
    rtListLen h l fuel p = some xs.length := by
  induction xs generalizing p fuel with
  | nil =>
    obtain ⟨fuel, rfl⟩ := Nat.exists_eq_add_of_lt hfuel
    rw [rtListLen, if_neg (not_not.mpr hpath.1)]
    rfl
  | cons x xs ih =>
    obtain ⟨⟨hout, -⟩, hrest⟩ := hpath
    rw [List.mem_cons, not_or] at hnot
    cases fuel with
    | zero => exact absurd hfuel (Nat.not_lt_zero _)
    | succ fuel =>
      rw [rtListLen, hout, if_pos (Ne.symm hnot.1), ih hrest hnot.2 (Nat.lt_of_succ_lt_succ hfuel), Option.map_some]
      rfl

theorem rtListLen_eq (hring : h.Ring l xs) {fuel : Nat} (hfuel : xs.length < fuel) :
    rtListLen h l fuel l = some xs.length :=
  rtListLen_path hring.path (List.nodup_cons.mp hring.nodup).1 hfuel

theorem rtListInsertBefore_next (h : RtHeap N) (l n x : N) :
    (rtListInsertBefore h l n).next x = if x = n then l else if x = h.prev l then n else h.next x := by
  simp [rtListInsertBefore, RtHeap.setNext, RtHeap.setPrev, Function.update_apply]

theorem rtListInsertBefore_prev (h : RtHeap N) (l n x : N) :
    (rtListInsertBefore h l n).prev x = if x = l then n else if x = n then h.prev l else h.prev x := by
  simp [rtListInsertBefore, RtHeap.setNext, RtHeap.setPrev, Function.update_apply]

theorem rtListRemove_next (hne : h.next n ≠ n) (x : N) :
    (rtListRemove h n).next x = if x = n then n else if x = h.prev n then h.next n else h.next x := by
  simp [rtListRemove, RtHeap.setNext, RtHeap.setPrev, Function.update_apply, hne.symm]

theorem rtListRemove_prev (h : RtHeap N) (n x : N) :
    (rtListRemove h n).prev x = if x = n then n else if x = h.next n then h.prev n else h.prev x := by
  simp [rtListRemove, RtHeap.setNext, RtHeap.setPrev, Function.update_apply]

omit [DecidableEq N] in
/-- The last node of a ring, the header of an empty one. -/
theorem RtHeap.Ring.prev_eq (hring : h.Ring l xs) : h.prev l = (l :: xs).getLast (List.cons_ne_nil l xs) := by
  rcases List.eq_nil_or_concat' xs with rfl | ⟨front, last, rfl⟩
  · exact hring.path.2
  · simpa using (RtHeap.path_append.mp hring.path).2.2

omit [DecidableEq N] in
theorem RtHeap.Ring.prev_mem (hring : h.Ring l xs) : h.prev l ∈ l :: xs :=
  hring.prev_eq ▸ List.getLast_mem _

omit [DecidableEq N] in
theorem RtHeap.Ring.next_mem (hring : h.Ring l xs) : h.next l ∈ l :: xs := by
  rw [hring.path.next_eq]
  cases xs with
  | nil => simp
  | cons x xs => simp

/-- A node put before the header is the last one. -/
theorem RtHeap.Ring.insertBefore (hring : h.Ring l xs) (hnew : n ∉ l :: xs) :
    (rtListInsertBefore h l n).Ring l (xs ++ [n]) where
  path := by
    have hnl : n ≠ l := fun heq => hnew (heq ▸ List.mem_cons_self)
    have hback : (rtListInsertBefore h l n).Linked n l := by
      refine ⟨?_, ?_⟩
      · rw [rtListInsertBefore_next, if_pos rfl]
      · rw [rtListInsertBefore_prev, if_pos rfl]
    rcases List.eq_nil_or_concat' xs with rfl | ⟨front, last, rfl⟩
    · have hprev : h.prev l = l := hring.path.2
      refine ⟨⟨?_, ?_⟩, hback⟩
      · rw [rtListInsertBefore_next, if_neg hnl.symm, hprev, if_pos rfl]
      · rw [rtListInsertBefore_prev, if_neg hnl, if_pos rfl, hprev]
    · obtain ⟨hfront, -, hlast⟩ := RtHeap.path_append.mp hring.path
      have hnodup := hring.nodup
      rw [← List.cons_append, List.nodup_append] at hnodup
      have hout : ∀ x ∈ l :: front, x ≠ last := fun x hx => hnodup.2.2 x hx last List.mem_cons_self
      have hnotl : ∀ x ∈ front ++ [last], x ≠ l := by
        intro x hx heq
        exact (List.nodup_cons.mp hring.nodup).1 (heq ▸ hx)
      have hkept : (rtListInsertBefore h l n).Path l front last := by
        refine hfront.congr (fun x hx => ?_) fun x hx => ?_
        · rw [rtListInsertBefore_next, hlast, if_neg (fun heq => ?_), if_neg (hout x hx)]
          exact hnew (heq ▸ List.mem_append_left [last] hx)
        · rw [rtListInsertBefore_prev, if_neg (hnotl x hx), if_neg (fun heq => ?_)]
          exact hnew (heq ▸ List.mem_cons_of_mem l hx)
      rw [List.append_assoc]
      refine RtHeap.path_append.mpr ⟨hkept, ⟨?_, ?_⟩, hback⟩
      · rw [rtListInsertBefore_next, if_neg (fun heq : last = n => hnew (heq ▸ by simp)), hlast, if_pos rfl]
      · rw [rtListInsertBefore_prev, if_neg hnl, if_pos rfl, hlast]
  nodup := by
    rw [← List.cons_append, ← List.concat_eq_append]
    exact hring.nodup.concat hnew

/-- Other rings do not notice. -/
theorem RtHeap.Ring.insertBefore_frame (hring : h.Ring a ys) (hl : h.Ring l xs) (hdisjoint : (a :: ys).Disjoint (l :: xs))
    (hn : n ∉ a :: ys) : (rtListInsertBefore h l n).Ring a ys := by
  refine hring.congr (fun x hx => ?_) fun x hx => ?_
  · rw [rtListInsertBefore_next, if_neg (fun heq : x = n => hn (heq ▸ hx)),
      if_neg (fun heq : x = h.prev l => hdisjoint hx (heq ▸ hl.prev_mem))]
  · rw [rtListInsertBefore_prev, if_neg (fun heq : x = l => hdisjoint hx (heq ▸ List.mem_cons_self)),
      if_neg (fun heq : x = n => hn (heq ▸ hx))]

/-- Taking out the node a ring is entered at leaves the ring of the others. -/
theorem RtHeap.Ring.removeHead (hring : h.Ring n (l :: xs)) : (rtListRemove h n).Ring l xs where
  path := by
    have hne : h.next n ≠ n := by
      rw [hring.path.1.1]
      exact fun heq => (List.nodup_cons.mp hring.nodup).1 (heq ▸ List.mem_cons_self)
    have hout : h.next n = l := hring.path.1.1
    have hnot : ∀ x ∈ l :: xs, x ≠ n := fun x hx heq => (List.nodup_cons.mp hring.nodup).1 (heq ▸ hx)
    have hnodup := (List.nodup_cons.mp hring.nodup).2
    rcases List.eq_nil_or_concat' xs with rfl | ⟨front, last, rfl⟩
    · have hback : h.prev n = l := hring.path.2.2
      refine ⟨?_, ?_⟩
      · rw [rtListRemove_next hne, if_neg (hnot l List.mem_cons_self), hback, if_pos rfl, hout]
      · rw [rtListRemove_prev, if_neg (hnot l List.mem_cons_self), hout, if_pos rfl, hback]
    · obtain ⟨-, hrest⟩ := hring.path
      obtain ⟨hfront, -, hlast⟩ := RtHeap.path_append.mp hrest
      rw [← List.cons_append, List.nodup_append] at hnodup
      have hnotLast : ∀ x ∈ l :: front, x ≠ last := fun x hx => hnodup.2.2 x hx last List.mem_cons_self
      have hnotl : ∀ x ∈ front ++ [last], x ≠ l := by
        intro x hx heq
        exact (List.nodup_cons.mp (List.nodup_cons.mp hring.nodup).2).1 (heq ▸ hx)
      refine RtHeap.path_append.mpr ⟨hfront.congr (fun x hx => ?_) fun x hx => ?_, ?_, ?_⟩
      · rw [rtListRemove_next hne, hlast, if_neg (hnot x (List.mem_append_left [last] hx)), if_neg (hnotLast x hx)]
      · rw [rtListRemove_prev, hout, if_neg (hnot x (List.mem_cons_of_mem l hx)), if_neg (hnotl x hx)]
      · rw [rtListRemove_next hne, if_neg (hnot last (by simp)), hlast, if_pos rfl, hout]
      · rw [rtListRemove_prev, if_neg (hnot l List.mem_cons_self), hout, if_pos rfl, hlast]
  nodup := (List.nodup_cons.mp hring.nodup).2

/-- Any node of a ring but its header can be taken out, and the node is then alone. -/
theorem RtHeap.Ring.remove (xs : List N) (hring : h.Ring l (xs ++ n :: ys)) :
    (rtListRemove h n).Ring l (xs ++ ys) ∧ (rtListRemove h n).Ring n [] := by
  have hentered := hring.rotate xs
  have hne : h.next n ≠ n := by
    have hmem := hentered.next_mem
    intro heq
    rw [hentered.path.next_eq] at heq
    have hnotMem := (List.nodup_cons.mp hentered.nodup).1
    cases ys with
    | nil => exact hnotMem (heq ▸ by simp)
    | cons y ys => exact hnotMem (heq ▸ by simp)
  refine ⟨?_, ⟨?_, ?_⟩, List.nodup_singleton n⟩
  · cases ys with
    | nil =>
      rw [List.append_nil]
      exact hentered.removeHead
    | cons y ys =>
      have hrest : (rtListRemove h n).Ring y (ys ++ l :: xs) := hentered.removeHead
      exact hrest.rotate ys
  · rw [rtListRemove_next hne, if_pos rfl]
  · rw [rtListRemove_prev, if_pos rfl]

theorem RtHeap.Ring.remove_frame (hring : h.Ring a ys) (hn : h.Ring n xs) (hxs : xs ≠ [])
    (hdisjoint : (a :: ys).Disjoint (n :: xs)) : (rtListRemove h n).Ring a ys := by
  have hne : h.next n ≠ n := by
    intro heq
    rw [hn.path.next_eq] at heq
    cases xs with
    | nil => exact hxs rfl
    | cons x xs => exact (List.nodup_cons.mp hn.nodup).1 (heq ▸ List.mem_cons_self)
  refine hring.congr (fun x hx => ?_) fun x hx => ?_
  · rw [rtListRemove_next hne, if_neg (fun heq : x = n => hdisjoint hx (heq ▸ List.mem_cons_self)),
      if_neg (fun heq : x = h.prev n => hdisjoint hx (heq ▸ hn.prev_mem))]
  · rw [rtListRemove_prev, if_neg (fun heq : x = n => hdisjoint hx (heq ▸ List.mem_cons_self)),
      if_neg (fun heq : x = h.next n => hdisjoint hx (heq ▸ hn.next_mem))]

/-- Taking the first node of a list leaves the rest of it and the other list. -/
theorem RtHeap.Ring.takeFirst (hring : h.Ring l (n :: xs)) (hother : h.Ring a ys)
    (hdisjoint : (a :: ys).Disjoint (l :: n :: xs)) :
    (rtListRemove h n).Ring l xs ∧ (rtListRemove h n).Ring a ys := by
  have hentered : h.Ring n (xs ++ [l]) := RtHeap.Ring.rotate [] hring
  refine ⟨(RtHeap.Ring.remove [] hring).1, hother.remove_frame hentered (by simp) ?_⟩
  intro x hx hmem
  refine hdisjoint hx ?_
  simp only [List.mem_cons, List.mem_append, List.not_mem_nil, or_false] at hmem ⊢
  tauto

end LightControlMonitor.Kernel
