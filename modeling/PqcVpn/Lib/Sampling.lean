import Mathlib.Data.List.Basic
import Mathlib.Data.Nat.Find

/-!
# Sampling — loops that draw until they have enough

A sampling loop draws one batch of candidates after another and keeps what it wants of each, until a
test of what it kept says that it is done.  When what it keeps is a function of everything drawn so
far, the loop ends with the first batch that satisfies the test, and never before.
-/

namespace Sampling

variable {α σ : Type*}

/-- Draw batches until the state is done; `none` when `fuel` batches did not do. -/
def drawUntil (done : σ → Bool) (keep : σ → List α → σ) (batches : Nat → List α) :
    Nat → Nat → σ → Option σ
  | 0, _, s => if done s then some s else none
  | fuel + 1, k, s =>
      if done s then some s else drawUntil done keep batches fuel (k + 1) (keep s (batches k))

/-- The candidates of the first `k` batches. -/
def drawn (batches : Nat → List α) (k : Nat) : List α := (List.range k).flatMap batches

@[simp] theorem drawn_zero (batches : Nat → List α) : drawn batches 0 = [] := rfl

theorem drawn_succ (batches : Nat → List α) (k : Nat) :
    drawn batches (k + 1) = drawn batches k ++ batches k := by
  simp [drawn, List.range_succ]

theorem mem_drawn {batches : Nat → List α} {k : Nat} {x : α} (hx : x ∈ drawn batches k) :
    ∃ j, x ∈ batches j := by
  obtain ⟨j, _, hj⟩ := List.mem_flatMap.1 hx
  exact ⟨j, hj⟩

section Loop

variable {done : σ → Bool} {keep : σ → List α → σ} {batches : Nat → List α} {f : List α → σ}

/-- The loop stops after the first batch that satisfies the test. -/
theorem drawUntil_eq_some (hkeep : ∀ xs ys, keep (f xs) ys = f (xs ++ ys)) {k : Nat}
    (hdone : done (f (drawn batches k)) = true)
    (hfirst : ∀ j < k, done (f (drawn batches j)) = false) {fuel j : Nat} (hjk : j ≤ k)
    (hfuel : k ≤ fuel + j) :
    drawUntil done keep batches fuel j (f (drawn batches j)) = some (f (drawn batches k)) := by
  induction fuel generalizing j with
  | zero =>
      have hj : j = k := by omega
      rw [hj, drawUntil, if_pos hdone]
  | succ fuel ih =>
      rcases Nat.lt_or_ge j k with hlt | hge
      · have hnot : ¬ done (f (drawn batches j)) = true := by
          rw [hfirst j hlt]
          exact Bool.false_ne_true
        rw [drawUntil, if_neg hnot, hkeep, ← drawn_succ]
        exact ih hlt (by omega)
      · have hj : j = k := by omega
        rw [hj, drawUntil, if_pos hdone]

/-- While no batch satisfies the test, the loop goes on. -/
theorem drawUntil_eq_none (hkeep : ∀ xs ys, keep (f xs) ys = f (xs ++ ys)) {fuel j : Nat}
    (hnot : ∀ i ≤ fuel + j, done (f (drawn batches i)) = false) :
    drawUntil done keep batches fuel j (f (drawn batches j)) = none := by
  have hj : ¬ done (f (drawn batches j)) = true := by
    rw [hnot j (by omega)]
    exact Bool.false_ne_true
  induction fuel generalizing j with
  | zero => rw [drawUntil, if_neg hj]
  | succ fuel ih =>
      have hnext : ∀ i ≤ fuel + (j + 1), done (f (drawn batches i)) = false :=
        fun i hi => hnot i (by omega)
      rw [drawUntil, if_neg hj, hkeep, ← drawn_succ]
      refine ih hnext ?_
      rw [hnext (j + 1) (by omega)]
      exact Bool.false_ne_true

/-- The first batch after which a test on what was drawn holds, within the fuel. -/
def FirstAt (batches : Nat → List α) (test : List α → Prop) (fuel k : Nat) : Prop :=
  k ≤ fuel ∧ test (drawn batches k) ∧ ∀ j < k, ¬ test (drawn batches j)

/-- The loop ends at the first batch that satisfies its test, and only there. -/
theorem drawUntil_eq_some_iff {test : List α → Prop} (hkeep : ∀ xs ys, keep (f xs) ys = f (xs ++ ys))
    (hdone : ∀ xs, done (f xs) = true ↔ test xs) (batches : Nat → List α) (fuel : Nat) (s : σ) :
    drawUntil done keep batches fuel 0 (f []) = some s ↔
      ∃ k, FirstAt batches test fuel k ∧ s = f (drawn batches k) := by
  have hnot : ∀ xs, done (f xs) = false ↔ ¬ test xs := fun xs => by
    rw [← hdone, Bool.not_eq_true]
  have hends : ∀ k, FirstAt batches test fuel k →
      drawUntil done keep batches fuel 0 (f []) = some (f (drawn batches k)) := fun k hk =>
    drawUntil_eq_some hkeep ((hdone _).2 hk.2.1) (fun j hj => (hnot _).2 (hk.2.2 j hj))
      (Nat.zero_le k) hk.1
  constructor
  · intro hs
    classical
    by_cases hex : ∃ k, k ≤ fuel ∧ test (drawn batches k)
    · -- the least such batch is the one the loop stops at
      have hspec := Nat.find_spec hex
      have hfirst : FirstAt batches test fuel (Nat.find hex) :=
        ⟨hspec.1, hspec.2, fun j hj htest =>
          Nat.find_min hex hj ⟨Nat.le_trans (Nat.le_of_lt hj) hspec.1, htest⟩⟩
      exact ⟨_, hfirst, Option.some.inj (hs.symm.trans (hends _ hfirst))⟩
    · have hnone : drawUntil done keep batches fuel 0 (f []) = none :=
        drawUntil_eq_none hkeep fun i hi => (hnot _).2 fun htest => hex ⟨i, hi, htest⟩
      rw [hnone] at hs
      cases hs
  · rintro ⟨k, hk, rfl⟩
    exact hends k hk

end Loop

/-! ## The first of a kind -/

/-- The first `n` elements that satisfy `p`. -/
def firsts (n : Nat) (p : α → Bool) (xs : List α) : List α := (xs.filter p).take n

variable {n : Nat} {p : α → Bool}

theorem length_firsts (n : Nat) (p : α → Bool) (xs : List α) :
    (firsts n p xs).length = min n (xs.countP p) := by
  rw [firsts, List.length_take, List.countP_eq_length_filter]

theorem of_mem_firsts {xs : List α} {x : α} (hx : x ∈ firsts n p xs) : p x = true ∧ x ∈ xs :=
  (List.mem_filter.1 (List.mem_of_mem_take hx)).symm

/-- A quota that is not met takes what is missing from the next candidates. -/
theorem firsts_append (n : Nat) (p : α → Bool) (xs ys : List α) :
    firsts n p (xs ++ ys) =
      firsts n p xs ++ (ys.filter p).take (n - (firsts n p xs).length) := by
  have hmissing : n - (xs.filter p).length = n - min n (xs.filter p).length := by omega
  rw [firsts, List.filter_append, List.take_append, firsts, List.length_take, hmissing]

end Sampling
