import Mathlib.Data.List.Basic
import Mathlib.Logic.Function.Basic

/-!
# Labelled transition systems

A step relation `step : σ → α → σ → Prop` relates a state, the action taken and the state after
it.  `Run step s as t` is a finite run, `Reachable` the states runs from an initial state lead to.
Safety is proved by the invariant rules: a property that holds initially and is kept by every step
holds in every reachable state.  `Guarded` restricts a system to the steps that meet a condition on
the state before and the action, which is how a result about well-behaved runs is stated.
-/

namespace Transition

variable {σ τ α β : Type*}

/-- Finite runs of a step relation. -/
inductive Run (step : σ → α → σ → Prop) : σ → List α → σ → Prop
  | nil (s : σ) : Run step s [] s
  | cons {s t u : σ} {a : α} {as : List α} :
      step s a t → Run step t as u → Run step s (a :: as) u

/-- The steps of `step` that meet the condition `ok`. -/
def Guarded (ok : σ → α → Prop) (step : σ → α → σ → Prop) (s : σ) (a : α) (t : σ) : Prop :=
  ok s a ∧ step s a t

/-- The states reached by runs from an initial state. -/
def Reachable (init : σ → Prop) (step : σ → α → σ → Prop) (t : σ) : Prop :=
  ∃ s as, init s ∧ Run step s as t

namespace Run

variable {step : σ → α → σ → Prop} {s t u : σ} {as bs : List α}

theorem single {a : α} (h : step s a t) : Run step s [a] t :=
  .cons h (.nil t)

theorem append (h₁ : Run step s as t) (h₂ : Run step t bs u) : Run step s (as ++ bs) u := by
  induction h₁ with
  | nil s => exact h₂
  | cons hstep _ ih => exact .cons hstep (ih h₂)

/-- The invariant rule: what every step keeps, every run keeps. -/
theorem invariant {I : σ → Prop} (hstep : ∀ {s a t}, I s → step s a t → I t)
    (h : Run step s as t) (hs : I s) : I t := by
  induction h with
  | nil s => exact hs
  | cons hst _ ih => exact ih (hstep hs hst)

/-- The invariant rule for runs whose actions all satisfy `ok`. -/
theorem invariant_of_forall {I : σ → Prop} {ok : α → Prop}
    (hstep : ∀ {s a t}, I s → ok a → step s a t → I t)
    (h : Run step s as t) (hok : ∀ a ∈ as, ok a) (hs : I s) : I t := by
  induction h with
  | nil s => exact hs
  | @cons _ _ _ a as hst _ ih =>
      have ha : ok a := hok a (by simp)
      have has : ∀ b ∈ as, ok b := fun b hb => hok b (by simp [hb])
      exact ih has (hstep hs ha hst)

theorem mono {step' : σ → α → σ → Prop} (hle : ∀ {s a t}, step s a t → step' s a t)
    (h : Run step s as t) : Run step' s as t := by
  induction h with
  | nil s => exact .nil s
  | cons hst _ ih => exact .cons (hle hst) ih

/-- A run of a guarded system is a run of the system. -/
theorem of_guarded {ok : σ → α → Prop} (h : Run (Guarded ok step) s as t) : Run step s as t :=
  h.mono fun hst => hst.2

/-- Simulation: if every step projects to a run of the abstract system, so does every run. -/
theorem simulate {step' : τ → β → τ → Prop} (f : σ → τ)
    (hsim : ∀ {s a t}, step s a t → ∃ bs, Run step' (f s) bs (f t))
    (h : Run step s as t) : ∃ bs, Run step' (f s) bs (f t) := by
  induction h with
  | nil s => exact ⟨[], .nil _⟩
  | cons hst _ ih =>
      rcases hsim hst with ⟨bs, hbs⟩
      rcases ih with ⟨cs, hcs⟩
      exact ⟨bs ++ cs, hbs.append hcs⟩

end Run

namespace Reachable

variable {init : σ → Prop} {step : σ → α → σ → Prop} {t u : σ}

/-- What holds initially and is kept by every step holds in every reachable state. -/
theorem invariant {I : σ → Prop} (hinit : ∀ {s}, init s → I s)
    (hstep : ∀ {s a t}, I s → step s a t → I t) (h : Reachable init step t) : I t := by
  rcases h with ⟨s, as, hs, hrun⟩
  exact hrun.invariant hstep (hinit hs)

/-- Reachability carries over a simulation that maps initial states to initial states. -/
theorem simulate {init' : τ → Prop} {step' : τ → β → τ → Prop} (f : σ → τ)
    (hinit : ∀ {s}, init s → init' (f s))
    (hsim : ∀ {s a t}, step s a t → ∃ bs, Run step' (f s) bs (f t))
    (h : Reachable init step t) : Reachable init' step' (f t) := by
  rcases h with ⟨s, as, hs, hrun⟩
  rcases hrun.simulate f hsim with ⟨bs, hbs⟩
  exact ⟨f s, bs, hinit hs, hbs⟩

end Reachable

end Transition
