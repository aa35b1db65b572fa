import Mathlib.Data.List.Forall2

/-!
# Collecting fallible results

`mapM` in `Except ε` collects the results of a list of fallible calls and stops at the first that
fails.
-/

namespace Collect

variable {α β ε : Type*} {f : α → Except ε β}

theorem mapM_cons_of_ok {x : α} {y : β} (h : f x = .ok y) (xs : List α) :
    (x :: xs).mapM f = (xs.mapM f).map (y :: ·) := by
  rw [List.mapM_cons, h]
  cases xs.mapM f <;> rfl

theorem mapM_cons_of_error {x : α} {e : ε} (h : f x = .error e) (xs : List α) :
    (x :: xs).mapM f = .error e := by
  rw [List.mapM_cons, h]
  rfl

/-- All results are there exactly when every call succeeds. -/
theorem mapM_eq_ok_iff {xs : List α} {ys : List β} :
    xs.mapM f = .ok ys ↔ List.Forall₂ (fun x y => f x = .ok y) xs ys := by
  induction xs generalizing ys with
  | nil =>
      rw [List.forall₂_nil_left_iff]
      constructor
      · intro h
        cases h
        rfl
      · rintro rfl
        rfl
  | cons x xs ih =>
      rw [List.forall₂_cons_left_iff]
      cases hx : f x with
      | error e =>
          rw [mapM_cons_of_error hx]
          constructor
          · intro h
            cases h
          · rintro ⟨_, _, h, _⟩
            cases h
      | ok y =>
          rw [mapM_cons_of_ok hx]
          constructor
          · intro h
            cases hxs : xs.mapM f with
            | error e => rw [hxs] at h; cases h
            | ok zs =>
                rw [hxs] at h
                cases h
                exact ⟨y, zs, rfl, ih.1 hxs, rfl⟩
          · rintro ⟨y', zs, hy, hzs, rfl⟩
            cases hy
            rw [ih.2 hzs]
            rfl

/-- A failure is that of the first call that fails. -/
theorem mapM_eq_error_iff {xs : List α} {e : ε} :
    xs.mapM f = .error e ↔ ∃ before x after, xs = before ++ x :: after ∧
      (∀ z ∈ before, ∃ y, f z = .ok y) ∧ f x = .error e := by
  induction xs with
  | nil =>
      constructor
      · intro h
        cases h
      · rintro ⟨before, x, after, h, _⟩
        simp at h
  | cons x xs ih =>
      cases hx : f x with
      | error e' =>
          rw [mapM_cons_of_error hx]
          constructor
          · intro h
            cases h
            exact ⟨[], x, xs, rfl, by simp, hx⟩
          · rintro ⟨before, x', after, h, hbefore, hfail⟩
            cases before with
            | nil =>
                cases h
                cases hx.symm.trans hfail
                rfl
            | cons z before =>
                cases h
                rcases hbefore _ List.mem_cons_self with ⟨y, hy⟩
                rw [hx] at hy
                cases hy
      | ok y =>
          rw [mapM_cons_of_ok hx]
          constructor
          · intro h
            cases hxs : xs.mapM f with
            | ok zs => rw [hxs] at h; cases h
            | error e' =>
                rw [hxs] at h
                cases h
                rcases ih.1 hxs with ⟨before, x', after, rfl, hbefore, hfail⟩
                refine ⟨x :: before, x', after, rfl, ?_, hfail⟩
                rw [List.forall_mem_cons]
                exact ⟨⟨y, hx⟩, hbefore⟩
          · rintro ⟨before, x', after, h, hbefore, hfail⟩
            cases before with
            | nil =>
                cases h
                rw [hx] at hfail
                cases hfail
            | cons z before =>
                cases h
                have hxs := ih.2 ⟨before, x', after, rfl,
                  fun w hw => hbefore w (List.mem_cons_of_mem _ hw), hfail⟩
                rw [hxs]
                rfl

end Collect
