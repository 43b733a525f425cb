import Mathlib.Logic.Function.Basic

/-!
# Chains of links

Cells that lead to one another through a link of their own. `Seg next p xs q` says that following the links from `p` visits the cells `xs` in order and then arrives at `q`; a list that ends in a null link is a segment that arrives at `none`.
-/

namespace Chain

variable {α : Type*} {next : α → Option α}

def Seg (next : α → Option α) : Option α → List α → Option α → Prop
  | p, [], q => p = q
  | p, x :: xs, q => p = some x ∧ Seg next (next x) xs q

theorem seg_append {p q : Option α} {xs ys : List α} :
    Seg next p (xs ++ ys) q ↔ ∃ r, Seg next p xs r ∧ Seg next r ys q := by
  induction xs generalizing p with
  | nil => simp [Seg]
  | cons x xs ih =>
    simp only [List.cons_append, Seg, ih]
    constructor
    · rintro ⟨hp, r, hxs, hys⟩
      exact ⟨r, ⟨hp, hxs⟩, hys⟩
    · rintro ⟨r, ⟨hp, hxs⟩, hys⟩
      exact ⟨hp, r, hxs, hys⟩

/-- A segment depends only on the links of the cells it visits. -/
theorem Seg.congr {next' : α → Option α} {p q : Option α} {xs : List α} (hseg : Seg next p xs q)
    (hsame : ∀ x ∈ xs, next' x = next x) : Seg next' p xs q := by
  induction xs generalizing p with
  | nil => exact hseg
  | cons x xs ih =>
    obtain ⟨hp, hrest⟩ := hseg
    refine ⟨hp, ?_⟩
    rw [hsame x List.mem_cons_self]
    exact ih hrest fun y hy => hsame y (List.mem_cons_of_mem x hy)

theorem Seg.update_of_notMem [DecidableEq α] {p q v : Option α} {a : α} {xs : List α} (hseg : Seg next p xs q)
    (ha : a ∉ xs) : Seg (Function.update next a v) p xs q :=
  hseg.congr fun x hx => Function.update_of_ne (fun h : x = a => ha (h ▸ hx)) v next

end Chain
