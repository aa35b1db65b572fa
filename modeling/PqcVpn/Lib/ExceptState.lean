/-!
# Computations that consume a state and may fail

Sequencing in `ExceptT ε (StateM σ)`, where a failure keeps the state it failed in.
-/

namespace ExceptState

variable {ε σ α β : Type}

theorem bind_of_ok {m : ExceptT ε (StateM σ) α} {f : α → ExceptT ε (StateM σ) β} {s s' : σ} {a : α}
    (h : m s = (.ok a, s')) : (m >>= f) s = f a s' := by
  change (ExceptT.bind m f) s = _
  simp only [ExceptT.bind, ExceptT.mk, bind, StateT.bind, ExceptT.bindCont]
  rw [h]

theorem bind_of_error {m : ExceptT ε (StateM σ) α} {f : α → ExceptT ε (StateM σ) β} {s s' : σ} {e : ε}
    (h : m s = (.error e, s')) : (m >>= f) s = (.error e, s') := by
  change (ExceptT.bind m f) s = _
  simp only [ExceptT.bind, ExceptT.mk, bind, StateT.bind, ExceptT.bindCont]
  rw [h]
  rfl

/-- A sequence succeeds exactly when both its parts do. -/
theorem bind_eq_ok_iff {m : ExceptT ε (StateM σ) α} {f : α → ExceptT ε (StateM σ) β} {s s' : σ}
    {b : β} : (m >>= f) s = (.ok b, s') ↔ ∃ a s₁, m s = (.ok a, s₁) ∧ f a s₁ = (.ok b, s') := by
  constructor
  · intro h
    rcases hm : m s with ⟨e | a, s₁⟩
    · rw [bind_of_error hm] at h
      cases h
    · rw [bind_of_ok hm] at h
      exact ⟨a, s₁, rfl, h⟩
  · rintro ⟨a, s₁, hm, hf⟩
    rw [bind_of_ok hm, hf]

/-! ## What a computation does to the state -/

/-- However it ends, the computation moves the state along `R`. -/
def Moves (R : σ → σ → Prop) (m : ExceptT ε (StateM σ) α) : Prop := ∀ s, R s (m s).2

/-- A transitive relation carries over a sequence. -/
theorem Moves.bind {R : σ → σ → Prop} (htrans : ∀ {s t u}, R s t → R t u → R s u)
    {m : ExceptT ε (StateM σ) α} {f : α → ExceptT ε (StateM σ) β} (hm : Moves R m)
    (hf : ∀ a, Moves R (f a)) : Moves R (m >>= f) := by
  intro s
  have h := hm s
  rcases hms : m s with ⟨e | a, t⟩
  · rw [hms] at h
    rw [bind_of_error hms]
    exact h
  · rw [hms] at h
    rw [bind_of_ok hms]
    exact htrans h (hf a t)

/-! ## What a computation fails with -/

/-- Every failure of the computation satisfies `Q`. -/
def Raises (Q : ε → Prop) (m : ExceptT ε (StateM σ) α) : Prop :=
  ∀ s e s', m s = (.error e, s') → Q e

namespace Raises

variable {Q : ε → Prop}

theorem pure (a : α) : Raises Q (Pure.pure a : ExceptT ε (StateM σ) α) := by
  intro s e s' h
  cases h

theorem throw {e : ε} (he : Q e) : Raises Q (throw e : ExceptT ε (StateM σ) α) := by
  intro s e' s' h
  cases h
  exact he

theorem bind {m : ExceptT ε (StateM σ) α} {f : α → ExceptT ε (StateM σ) β} (hm : Raises Q m)
    (hf : ∀ a, Raises Q (f a)) : Raises Q (m >>= f) := by
  intro s e s' h
  rcases hs : m s with ⟨e' | a, s₁⟩
  · rw [bind_of_error hs] at h
    cases h
    exact hm s e s' hs
  · rw [bind_of_ok hs] at h
    exact hf a s₁ e s' h

end Raises

/-! ## Two computations in lock step -/

variable {ε' α' β' : Type}

/-- Two results correspond: values by `R` and failures by `E`. -/
inductive Corresponds (E : ε → ε' → Prop) (R : α → α' → Prop) : Except ε α → Except ε' α' → Prop
  | ok {a : α} {a' : α'} (h : R a a') : Corresponds E R (.ok a) (.ok a')
  | error {e : ε} {e' : ε'} (h : E e e') : Corresponds E R (.error e) (.error e')

/-- Run from one state, the two computations leave one state and results that correspond. -/
def LockStep (E : ε → ε' → Prop) (R : α → α' → Prop) (m : ExceptT ε (StateM σ) α)
    (m' : ExceptT ε' (StateM σ) α') : Prop :=
  ∀ s, Corresponds E R (m s).1 (m' s).1 ∧ (m s).2 = (m' s).2

namespace LockStep

variable {E : ε → ε' → Prop} {R : α → α' → Prop} {S : β → β' → Prop}

theorem pure {a : α} {a' : α'} (h : R a a') :
    LockStep E R (Pure.pure a : ExceptT ε (StateM σ) α) (Pure.pure a') := by
  intro s
  exact ⟨.ok h, rfl⟩

theorem throw {e : ε} {e' : ε'} (h : E e e') :
    LockStep E R (throw e : ExceptT ε (StateM σ) α) (throw e') := by
  intro s
  exact ⟨.error h, rfl⟩

theorem bind {m : ExceptT ε (StateM σ) α} {m' : ExceptT ε' (StateM σ) α'}
    {f : α → ExceptT ε (StateM σ) β} {f' : α' → ExceptT ε' (StateM σ) β'} (hm : LockStep E R m m')
    (hf : ∀ a a', R a a' → LockStep E S (f a) (f' a')) : LockStep E S (m >>= f) (m' >>= f') := by
  intro s
  have h := hm s
  rcases hs : m s with ⟨r, s₁⟩
  rcases hs' : m' s with ⟨r', s₁'⟩
  rw [hs, hs'] at h
  rcases h with ⟨hr, rfl⟩
  cases hr with
  | ok hab =>
      rw [bind_of_ok hs, bind_of_ok hs']
      exact hf _ _ hab s₁
  | error he =>
      rw [bind_of_error hs, bind_of_error hs']
      exact ⟨.error he, rfl⟩

end LockStep

end ExceptState
