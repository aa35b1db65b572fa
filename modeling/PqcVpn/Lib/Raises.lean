import Mathlib.Data.List.Basic

/-!
# What a decoder fails with

`Raises Q d` says that every failure of the decoder `d` satisfies `Q`.  It is checked at the places
that fail and carried to the whole along `bind`.
-/

universe u

variable {σ ε : Type u} {α β : Type u} {Q : ε → Prop}

/-- Every failure of the decoder satisfies `Q`. -/
def Raises (Q : ε → Prop) (d : StateT σ (Except ε) α) : Prop := ∀ r e, d r = .error e → Q e

namespace Raises

theorem pure (a : α) : Raises Q (Pure.pure a : StateT σ (Except ε) α) := by
  intro r e h
  cases h

theorem throw {e : ε} (he : Q e) : Raises Q (throw e : StateT σ (Except ε) α) := by
  intro r e' h
  cases h
  exact he

/-- A fallible computation that does not look at the state. -/
theorem lift {x : Except ε α} (hx : ∀ e, x = .error e → Q e) :
    Raises Q (liftM x : StateT σ (Except ε) α) := by
  intro r e h
  cases x with
  | error e' =>
      cases h
      exact hx e rfl
  | ok a => cases h

theorem bind {d : StateT σ (Except ε) α} {f : α → StateT σ (Except ε) β} (hd : Raises Q d)
    (hf : ∀ a, Raises Q (f a)) : Raises Q (d >>= f) := by
  intro r e h
  change (d r >>= fun p => f p.1 p.2) = _ at h
  cases hr : d r with
  | error e' =>
      rw [hr] at h
      cases h
      exact hd r e hr
  | ok p =>
      rw [hr] at h
      exact hf p.1 p.2 e h

theorem run' {d : StateT σ (Except ε) α} (hd : Raises Q d) {r : σ} {e : ε}
    (h : d.run' r = .error e) : Q e := by
  unfold StateT.run' at h
  cases hr : d r with
  | error e' =>
      rw [hr] at h
      cases h
      exact hd r e hr
  | ok p =>
      rw [hr] at h
      cases h

end Raises
