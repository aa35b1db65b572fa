import Mathlib.Algebra.Order.Field.Basic
import Mathlib.Data.List.Forall2
import Mathlib.Tactic.FieldSimp
import Mathlib.Tactic.Linarith
import Mathlib.Tactic.Ring

/-!
# Driven systems

A driven system `step : υ → δ → σ → σ` moves a state by a control, which a policy picks, and a
disturbance, which it does not.  Two runs under the same disturbances are compared by a relation the
step keeps; a measure of the state is bounded along a run by what one step adds to it, or, when
every step contracts it, by a fixed level.
-/

namespace Driven

variable {σ υ δ : Type*} {step : υ → δ → σ → σ}

/-- The state a list of controls and disturbances leads to. -/
def run (step : υ → δ → σ → σ) (s : σ) (inputs : List (υ × δ)) : σ :=
  inputs.foldl (fun s i => step i.1 i.2 s) s

@[simp] theorem run_nil (s : σ) : run step s [] = s := rfl

@[simp] theorem run_cons (s : σ) (i : υ × δ) (is : List (υ × δ)) :
    run step s (i :: is) = run step (step i.1 i.2 s) is := rfl

/-- What a step keeps, on the inputs at hand, a run keeps. -/
theorem run_invariant {I : σ → Prop} {inputs : List (υ × δ)}
    (hstep : ∀ i ∈ inputs, ∀ s, I s → I (step i.1 i.2 s)) {s : σ} (hs : I s) :
    I (run step s inputs) := by
  induction inputs generalizing s with
  | nil => exact hs
  | cons i is ih =>
      rw [List.forall_mem_cons] at hstep
      exact ih hstep.2 (hstep.1 s hs)

/-- Two runs under the same disturbances stay related when related controls keep the relation. -/
theorem run_rel {P : σ → σ → Prop} {Q : υ → υ → Prop}
    (hstep : ∀ u u' d s s', Q u u' → P s s' → P (step u d s) (step u' d s'))
    {us us' : List υ} (hQ : List.Forall₂ Q us us') {s s' : σ} (hs : P s s') (ds : List δ) :
    P (run step s (us.zip ds)) (run step s' (us'.zip ds)) := by
  -- both runs take their next step together, or have no disturbance left
  induction hQ generalizing s s' ds with
  | nil => exact hs
  | @cons u u' us us' hu _ ih =>
      cases ds with
      | nil => exact hs
      | cons d ds => exact ih (hstep u u' d s s' hu hs) ds

section Measure

variable {R : Type*} [Field R] [LinearOrder R] [IsStrictOrderedRing R] {f : σ → R}
  {inputs : List (υ × δ)}

/-- A measure that no step raises by more than `c`. -/
theorem run_le_add {I : σ → Prop} {c : R} (hI : ∀ i ∈ inputs, ∀ s, I s → I (step i.1 i.2 s))
    (hstep : ∀ i ∈ inputs, ∀ s, I s → f (step i.1 i.2 s) ≤ f s + c) {s : σ} (hs : I s) :
    f (run step s inputs) ≤ f s + inputs.length * c := by
  induction inputs generalizing s with
  | nil => simp
  | cons i is ih =>
      rw [List.forall_mem_cons] at hI hstep
      calc f (run step s (i :: is)) ≤ f (step i.1 i.2 s) + is.length * c :=
            ih hI.2 hstep.2 (hI.1 s hs)
        _ ≤ f s + c + is.length * c := by linarith [hstep.1 s hs]
        _ = f s + (i :: is).length * c := by
              rw [List.length_cons]
              push_cast
              ring

/-- A measure that every step raises by `gain i` at least, up to a ceiling. -/
theorem min_add_sum_le_run {top : R} {gain : υ × δ → R} (hgain : ∀ i ∈ inputs, 0 ≤ gain i)
    (hstep : ∀ i ∈ inputs, ∀ s, min top (f s + gain i) ≤ f (step i.1 i.2 s)) {s : σ} {x : R}
    (hx : min top x ≤ f s) : min top (x + (inputs.map gain).sum) ≤ f (run step s inputs) := by
  induction inputs generalizing s x with
  | nil => simpa using hx
  | cons i is ih =>
      rw [List.forall_mem_cons] at hgain hstep
      have hnext : min top (x + gain i) ≤ f (step i.1 i.2 s) := by
        refine le_trans ?_ (hstep.1 s)
        rcases le_total top x with htop | htop
        · -- at the ceiling the gain has nothing to add
          rw [min_eq_left htop] at hx
          rw [min_eq_left (by linarith [hgain.1]), min_eq_left (by linarith [hgain.1])]
        · rw [min_eq_right htop] at hx
          exact min_le_min (le_refl _) (by linarith)
      rw [List.map_cons, List.sum_cons, ← add_assoc]
      exact ih hgain.2 hstep.2 hnext

/-- The level a contraction by `1 - r` keeps a disturbed measure under. -/
def level (r c : R) : R := (1 - r) * c / r

omit [LinearOrder R] [IsStrictOrderedRing R] in
theorem level_fixed {r : R} (hr : r ≠ 0) (c : R) : (1 - r) * (level r c + c) = level r c := by
  unfold level
  field_simp
  ring

/-- What every step disturbs by `c` at most and then contracts stays under the level. -/
theorem run_le_level {I : σ → Prop} {r c : R} (hr : 0 < r) (hr' : r ≤ 1)
    (hI : ∀ i ∈ inputs, ∀ s, I s → I (step i.1 i.2 s))
    (hstep : ∀ i ∈ inputs, ∀ s, I s → f (step i.1 i.2 s) ≤ (1 - r) * (f s + c)) {s : σ} (hs : I s)
    (hle : f s ≤ level r c) : f (run step s inputs) ≤ level r c := by
  have hkeep : ∀ i ∈ inputs, ∀ s, I s ∧ f s ≤ level r c →
      I (step i.1 i.2 s) ∧ f (step i.1 i.2 s) ≤ level r c := by
    intro i hi s h
    refine ⟨hI i hi s h.1, ?_⟩
    calc f (step i.1 i.2 s) ≤ (1 - r) * (f s + c) := hstep i hi s h.1
      _ ≤ (1 - r) * (level r c + c) := by
            refine mul_le_mul_of_nonneg_left ?_ (by linarith)
            linarith [h.2]
      _ = level r c := level_fixed hr.ne' c
  exact (run_invariant hkeep ⟨hs, hle⟩).2

end Measure

end Driven
