import Mathlib.Data.List.Basic
import Mathlib.Logic.Basic

/-!
# Guarded transition systems with outputs

A system has a set of initial states, a guard saying which actions are possible in a state, and a partial step function. The step of an enabled action is `none` when the action leaves the data its program owns, so `none` is a fault and never a disabled action. A step also emits a list of outputs, and a run concatenates them, which lets a property speak about the history of a run without history variables in the state.

Runs grow at the end, because that is how an invariant is carried along: `Run.invariant` is the induction every safety property uses. `exec` is the computable counterpart for closed runs.
-/

namespace Transition

universe u v w

structure System (σ : Type u) (α : Type v) (ε : Type w) where
  init : σ → Prop
  enabled : σ → α → Prop
  step : σ → α → Option (σ × List ε)

variable {σ : Type u} {α : Type v} {ε : Type w}

/-- `Run M s as es t`: the actions `as` lead from `s` to `t` and emit `es`. -/
inductive Run (M : System σ α ε) (s : σ) : List α → List ε → σ → Prop
  | nil : Run M s [] [] s
  | snoc {as : List α} {es : List ε} {t : σ} {a : α} {out : List ε} {u : σ} :
      Run M s as es t → M.enabled t a → M.step t a = some (u, out) → Run M s (as ++ [a]) (es ++ out) u

/-- The state `t` is reached from some initial state by `as`, with history `es`. -/
def Reaches (M : System σ α ε) (as : List α) (es : List ε) (t : σ) : Prop :=
  ∃ s, M.init s ∧ Run M s as es t

theorem Run.invariant {M : System σ α ε} {s : σ} (I : List α → List ε → σ → Prop) (hinit : I [] [] s)
    (hstep : ∀ {as es t a out u}, I as es t → M.enabled t a → M.step t a = some (u, out) →
      I (as ++ [a]) (es ++ out) u)
    {as : List α} {es : List ε} {t : σ} (hrun : Run M s as es t) : I as es t := by
  induction hrun with
  | nil => exact hinit
  | snoc _ henabled hnext ih => exact hstep ih henabled hnext

theorem Reaches.invariant {M : System σ α ε} (I : List α → List ε → σ → Prop) (hinit : ∀ s, M.init s → I [] [] s)
    (hstep : ∀ {as es t a out u}, I as es t → M.enabled t a → M.step t a = some (u, out) →
      I (as ++ [a]) (es ++ out) u)
    {as : List α} {es : List ε} {t : σ} (hreach : Reaches M as es t) : I as es t := by
  obtain ⟨s, hs, hrun⟩ := hreach
  exact hrun.invariant I (hinit s hs) hstep

theorem Run.single {M : System σ α ε} {s u : σ} {a : α} {out : List ε} (henabled : M.enabled s a)
    (hnext : M.step s a = some (u, out)) : Run M s [a] out u := by
  simpa using Run.snoc (Run.nil (M := M) (s := s)) henabled hnext

theorem Run.append {M : System σ α ε} {s t u : σ} {as bs : List α} {es fs : List ε}
    (hfirst : Run M s as es t) (hsecond : Run M t bs fs u) : Run M s (as ++ bs) (es ++ fs) u := by
  induction hsecond with
  | nil => simpa using hfirst
  | snoc _ henabled hnext ih =>
    rw [← List.append_assoc, ← List.append_assoc]
    exact ih.snoc henabled hnext

theorem Reaches.append {M : System σ α ε} {t u : σ} {as bs : List α} {es fs : List ε}
    (hreach : Reaches M as es t) (hrun : Run M t bs fs u) : Reaches M (as ++ bs) (es ++ fs) u := by
  obtain ⟨s, hs, hfirst⟩ := hreach
  exact ⟨s, hs, hfirst.append hrun⟩

/-! ### Restricted systems

The runs whose every step meets a condition are the runs of the system with that condition added to the guard. -/

def System.restrict (M : System σ α ε) (cond : σ → α → Prop) : System σ α ε :=
  { M with enabled := fun s a => M.enabled s a ∧ cond s a }

theorem Run.of_restrict {M : System σ α ε} {cond : σ → α → Prop} {s t : σ} {as : List α} {es : List ε}
    (hrun : Run (M.restrict cond) s as es t) : Run M s as es t := by
  induction hrun with
  | nil => exact .nil
  | snoc _ henabled hnext ih => exact ih.snoc henabled.1 hnext

theorem Reaches.of_restrict {M : System σ α ε} {cond : σ → α → Prop} {t : σ} {as : List α} {es : List ε}
    (hreach : Reaches (M.restrict cond) as es t) : Reaches M as es t := by
  obtain ⟨s, hs, hrun⟩ := hreach
  exact ⟨s, hs, hrun.of_restrict⟩

/-- A condition that every enabled action meets restricts nothing. -/
theorem Reaches.restrict {M : System σ α ε} {cond : σ → α → Prop} (hcond : ∀ s a, M.enabled s a → cond s a) {t : σ}
    {as : List α} {es : List ε} (hreach : Reaches M as es t) : Reaches (M.restrict cond) as es t := by
  obtain ⟨s, hs, hrun⟩ := hreach
  refine ⟨s, hs, ?_⟩
  induction hrun with
  | nil => exact .nil
  | snoc _ henabled hnext ih => exact ih.snoc ⟨henabled, hcond _ _ henabled⟩ hnext

/-! ### Closed runs -/

section Exec

variable (M : System σ α ε) [∀ s a, Decidable (M.enabled s a)]

def System.exec : σ → List α → Option (σ × List ε)
  | s, [] => some (s, [])
  | s, a :: as =>
    if M.enabled s a then
      (M.step s a).bind fun next => (System.exec next.1 as).map fun last => (last.1, next.2 ++ last.2)
    else none

variable {M}

theorem System.exec_run {s t : σ} {as : List α} {es : List ε} (hexec : M.exec s as = some (t, es)) :
    Run M s as es t := by
  induction as generalizing s es with
  | nil =>
    simp only [System.exec, Option.some.injEq, Prod.mk.injEq] at hexec
    obtain ⟨rfl, rfl⟩ := hexec
    exact .nil
  | cons a as ih =>
    rw [System.exec] at hexec
    split at hexec
    · rename_i henabled
      obtain ⟨⟨u, out⟩, hnext, hrest⟩ := Option.bind_eq_some_iff.mp hexec
      obtain ⟨⟨t', es'⟩, hlast, heq⟩ := Option.map_eq_some_iff.mp hrest
      simp only [Prod.mk.injEq] at heq
      obtain ⟨rfl, rfl⟩ := heq
      exact (Run.single henabled hnext).append (ih hlast)
    · contradiction

theorem Reaches.of_exec {s : σ} {as : List α} (hinit : M.init s) (hsome : (M.exec s as).isSome) :
    Reaches M as ((M.exec s as).get hsome).2 ((M.exec s as).get hsome).1 :=
  ⟨s, hinit, System.exec_run (Option.some_get hsome).symm⟩

end Exec

end Transition
