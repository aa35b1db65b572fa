import Mathlib.Algebra.Order.Floor.Semiring
import Mathlib.Data.List.GetD
import Mathlib.Data.List.Sort
import Mathlib.Data.Rat.Floor
import Mathlib.Tactic.FieldSimp
import Mathlib.Tactic.Linarith
import Mathlib.Tactic.Ring

/-!
# Quantiles by linear interpolation

The values of a list in ascending order, extended to the positions between them by straight lines.
A quantile is the value at a share of the way from the first to the last; how many values lie on
either side of it is read off its position, and so is whether one quantile lies below another.
-/

namespace Quantile

/-! ## Interpolation -/

section Interpolation

variable {R : Type*} [Field R] [LinearOrder R] [IsStrictOrderedRing R]

/-- The line through the values of `s` at the integers on either side of `h`. -/
def interp (s : Nat → R) (h : ℚ) : R :=
  s ⌊h⌋₊ + (s (⌊h⌋₊ + 1) - s ⌊h⌋₊) * ((h - ⌊h⌋₊ : ℚ) : R)

/-- How far `h` is past the integer below it. -/
theorem fract_mem {h : ℚ} (hh : 0 ≤ h) :
    0 ≤ ((h - ⌊h⌋₊ : ℚ) : R) ∧ ((h - ⌊h⌋₊ : ℚ) : R) < 1 := by
  have hlow := Nat.floor_le hh
  have hhigh := Nat.lt_floor_add_one h
  constructor
  · exact Rat.cast_nonneg.2 (by linarith)
  · have hlt : h - ⌊h⌋₊ < 1 := by linarith
    exact_mod_cast hlt

theorem floor_lt_iff_fract_pos (h : ℚ) :
    ⌊h⌋₊ < ⌈h⌉₊ ↔ 0 < ((h - ⌊h⌋₊ : ℚ) : R) := by
  rw [Nat.lt_ceil, Rat.cast_pos, sub_pos]

theorem ceil_eq_succ {h : ℚ} (hlt : ⌊h⌋₊ < ⌈h⌉₊) : ⌈h⌉₊ = ⌊h⌋₊ + 1 :=
  Nat.le_antisymm (Nat.ceil_le_floor_add_one h) hlt

variable {s : Nat → R} {h h' : ℚ}

omit [LinearOrder R] [IsStrictOrderedRing R] in
theorem interp_natCast [CharZero R] (s : Nat → R) (k : Nat) : interp s k = s k := by
  rw [interp, Nat.floor_natCast, sub_self, Rat.cast_zero, mul_zero, add_zero]

theorem le_interp (hs : Monotone s) (hh : 0 ≤ h) : s ⌊h⌋₊ ≤ interp s h := by
  have hstep : 0 ≤ s (⌊h⌋₊ + 1) - s ⌊h⌋₊ := sub_nonneg.2 (hs (Nat.le_succ _))
  exact le_add_of_nonneg_right (mul_nonneg hstep (fract_mem hh).1)

theorem interp_le (hs : Monotone s) (hh : 0 ≤ h) : interp s h ≤ s ⌈h⌉₊ := by
  rcases (Nat.floor_le_ceil h).lt_or_eq with hlt | heq
  · have hstep : 0 ≤ s (⌊h⌋₊ + 1) - s ⌊h⌋₊ := sub_nonneg.2 (hs (Nat.le_succ _))
    have hle := mul_le_mul_of_nonneg_left (fract_mem (R := R) hh).2.le hstep
    rw [ceil_eq_succ hlt]
    unfold interp
    linarith
  · -- at an integer there is nothing to interpolate
    have hzero : ((h - ⌊h⌋₊ : ℚ) : R) = 0 := by
      refine le_antisymm (not_lt.1 fun hpos => ?_) (fract_mem hh).1
      exact heq.not_lt ((floor_lt_iff_fract_pos h).2 hpos)
    rw [interp, hzero, mul_zero, add_zero, heq]

theorem interp_lt_succ (hs : s ⌊h⌋₊ < s (⌊h⌋₊ + 1)) (hh : 0 ≤ h) :
    interp s h < s (⌊h⌋₊ + 1) := by
  have hlt := mul_lt_mul_of_pos_left (fract_mem (R := R) hh).2 (sub_pos.2 hs)
  unfold interp
  linarith

/-- Between two integers the value exceeds the one below exactly when the one above does. -/
theorem lt_interp_iff (hs : Monotone s) (hh : 0 ≤ h) :
    s ⌊h⌋₊ < interp s h ↔ s ⌊h⌋₊ < s ⌈h⌉₊ := by
  refine ⟨fun hlt => hlt.trans_le (interp_le hs hh), fun hlt => ?_⟩
  have hfloor : ⌊h⌋₊ < ⌈h⌉₊ := hs.reflect_lt hlt
  rw [ceil_eq_succ hfloor] at hlt
  exact lt_add_of_pos_right _ (mul_pos (sub_pos.2 hlt) ((floor_lt_iff_fract_pos h).1 hfloor))

theorem interp_mono (hs : Monotone s) (hh : 0 ≤ h) (hle : h ≤ h') : interp s h ≤ interp s h' := by
  rcases (Nat.floor_le_floor hle).lt_or_eq with hlt | heq
  · calc interp s h ≤ s ⌈h⌉₊ := interp_le hs hh
      _ ≤ s ⌊h'⌋₊ := hs ((Nat.ceil_le_floor_add_one h).trans hlt)
      _ ≤ interp s h' := le_interp hs (hh.trans hle)
  · -- on one line
    have hstep : 0 ≤ s (⌊h⌋₊ + 1) - s ⌊h⌋₊ := sub_nonneg.2 (hs (Nat.le_succ _))
    have hfract : ((h - ⌊h⌋₊ : ℚ) : R) ≤ ((h' - ⌊h⌋₊ : ℚ) : R) := Rat.cast_le.2 (by linarith)
    have hmul := mul_le_mul_of_nonneg_left hfract hstep
    unfold interp
    rw [← heq]
    linarith

/-- One value lies below another exactly when the values around them are not all the same. -/
theorem interp_lt_iff (hs : Monotone s) (hh : 0 ≤ h) (hlt : h < h') :
    interp s h < interp s h' ↔ s ⌊h⌋₊ < s ⌈h'⌉₊ := by
  have hh' : 0 ≤ h' := hh.trans hlt.le
  refine ⟨fun hinterp => ?_, fun hends => ?_⟩
  · exact (le_interp hs hh).trans_lt (hinterp.trans_le (interp_le hs hh'))
  rcases (Nat.floor_le_floor hlt.le).lt_or_eq with hfloor | heq
  · -- the lines are different ones: the rise is on the first, on the last or between them
    have hnext : s (⌊h⌋₊ + 1) ≤ s ⌊h'⌋₊ := hs hfloor
    have hfirst : interp s h ≤ s (⌊h⌋₊ + 1) :=
      (interp_le hs hh).trans (hs (Nat.ceil_le_floor_add_one h))
    rcases (hs (Nat.le_succ ⌊h⌋₊)).lt_or_eq with hrise | hflat
    · exact (interp_lt_succ hrise hh).trans_le (hnext.trans (le_interp hs hh'))
    · rcases hnext.lt_or_eq with hbetween | hsame
      · exact hfirst.trans_lt (hbetween.trans_le (le_interp hs hh'))
      · have hlast : s ⌊h'⌋₊ < s ⌈h'⌉₊ := by
          rw [← hsame, ← hflat]
          exact hends
        exact (hfirst.trans hsame.le).trans_lt ((lt_interp_iff hs hh').2 hlast)
  · have hrise : s ⌊h⌋₊ < s (⌊h⌋₊ + 1) := by
      refine hends.trans_le (hs ?_)
      rw [heq]
      exact Nat.ceil_le_floor_add_one h'
    have hfract : ((h - ⌊h⌋₊ : ℚ) : R) < ((h' - ⌊h⌋₊ : ℚ) : R) := Rat.cast_lt.2 (by linarith)
    have hmul := mul_lt_mul_of_pos_left hfract (sub_pos.2 hrise)
    unfold interp
    rw [← heq]
    linarith

end Interpolation

/-! ## Ranks -/

variable {R : Type*} [Field R] [LinearOrder R] {xs ys : List R} {k : Nat} {v : R}

def sorted (xs : List R) : List R := xs.insertionSort (· ≤ ·)

/-- The value of rank `k`, counted from the least; there are no ranks past the last. -/
def rank (xs : List R) (k : Nat) : R := (sorted xs).getD (min k (xs.length - 1)) 0

omit [Field R] in
@[simp] theorem length_sorted (xs : List R) : (sorted xs).length = xs.length :=
  List.length_insertionSort _ _

omit [Field R] in
theorem perm_sorted (xs : List R) : (sorted xs).Perm xs := List.perm_insertionSort _ _

omit [Field R] in
theorem sortedLE_sorted (xs : List R) : (sorted xs).SortedLE := List.sortedLE_insertionSort

theorem rank_nil (k : Nat) : rank ([] : List R) k = 0 := by
  simp [rank, sorted]

theorem rank_eq_getElem (hk : k < xs.length) :
    rank xs k = (sorted xs).get ⟨k, by rwa [length_sorted]⟩ := by
  rw [rank, Nat.min_eq_left (by omega), List.getD_eq_getElem _ _ (by rwa [length_sorted])]
  rfl

theorem monotone_rank (xs : List R) : Monotone (rank xs) := by
  intro i j hij
  rcases Nat.eq_zero_or_pos xs.length with hnil | hpos
  · rw [List.length_eq_zero_iff.1 hnil, rank_nil, rank_nil]
  · have hlength := length_sorted xs
    unfold rank
    rw [List.getD_eq_getElem _ _ (by omega), List.getD_eq_getElem _ _ (by omega)]
    exact (sortedLE_sorted xs).getElem_le_getElem_of_le (by omega)

omit [Field R] in
theorem countP_sorted (p : R → Bool) (xs : List R) : (sorted xs).countP p = xs.countP p :=
  (perm_sorted xs).countP_eq p

theorem rank_mem (hk : k < xs.length) : rank xs k ∈ xs := by
  rw [rank_eq_getElem hk]
  exact (perm_sorted xs).mem_iff.1 (List.get_mem _ _)

theorem rank_le_of_mem_drop {x : R} (hk : k < xs.length) (hx : x ∈ (sorted xs).drop k) :
    rank xs k ≤ x := by
  obtain ⟨i, hi, rfl⟩ := List.getElem_of_mem hx
  rw [rank_eq_getElem hk, List.getElem_drop]
  exact (sortedLE_sorted xs).getElem_le_getElem_of_le (Nat.le_add_right k i)

theorem le_rank_of_mem_take {x : R} (hk : k < xs.length) (hx : x ∈ (sorted xs).take (k + 1)) :
    x ≤ rank xs k := by
  obtain ⟨i, hi, rfl⟩ := List.getElem_of_mem hx
  have hik : i ≤ k := by
    rw [List.length_take] at hi
    omega
  rw [rank_eq_getElem hk, List.getElem_take]
  exact (sortedLE_sorted xs).getElem_le_getElem_of_le hik

/-! ## Counting by rank -/

section Counting

variable {p : R → Bool}

omit [Field R] in
/-- A test that the values from rank `k` on pass. -/
theorem sub_le_countP (h : ∀ x ∈ (sorted xs).drop k, p x = true) :
    xs.length - k ≤ xs.countP p := by
  have hlength := length_sorted xs
  have hdrop : ((sorted xs).drop k).countP p = xs.length - k := by
    rw [List.countP_eq_length.2 h, List.length_drop, hlength]
  calc xs.length - k = ((sorted xs).drop k).countP p := hdrop.symm
    _ ≤ (sorted xs).countP p := (List.drop_sublist k _).countP_le
    _ = xs.countP p := countP_sorted p xs

omit [Field R] in
/-- A test that no value below rank `k` passes. -/
theorem countP_le_sub (h : ∀ x ∈ (sorted xs).take k, p x = false) :
    xs.countP p ≤ xs.length - k := by
  have htake : ((sorted xs).take k).countP p = 0 := by
    rw [List.countP_eq_zero]
    intro x hx hp
    rw [h x hx] at hp
    cases hp
  have hsplit : (sorted xs).countP p =
      ((sorted xs).take k).countP p + ((sorted xs).drop k).countP p := by
    rw [← List.countP_append, List.take_append_drop]
  calc xs.countP p = ((sorted xs).drop k).countP p := by
        rw [← countP_sorted, hsplit, htake, Nat.zero_add]
    _ ≤ ((sorted xs).drop k).length := List.countP_le_length
    _ = xs.length - k := by rw [List.length_drop, length_sorted]

theorem le_countP_ge (hk : k < xs.length) (hv : v ≤ rank xs k) :
    xs.length - k ≤ xs.countP (fun x => v ≤ x) :=
  sub_le_countP fun _ hx => decide_eq_true (hv.trans (rank_le_of_mem_drop hk hx))

theorem countP_gt_le (hk : k < xs.length) (hv : rank xs k ≤ v) :
    xs.countP (fun x => v < x) ≤ xs.length - (k + 1) :=
  countP_le_sub fun _ hx =>
    decide_eq_false (not_lt.2 ((le_rank_of_mem_take hk hx).trans hv))

theorem countP_ge_le (hk : k < xs.length) (hv : rank xs k < v) :
    xs.countP (fun x => v ≤ x) ≤ xs.length - (k + 1) :=
  countP_le_sub fun _ hx =>
    decide_eq_false (not_le.2 ((le_rank_of_mem_take hk hx).trans_lt hv))

theorem le_countP_le (hk : k < xs.length) (hv : rank xs k ≤ v) :
    k + 1 ≤ xs.countP (fun x => x ≤ v) := by
  have hcomplement : xs.countP (fun x => x ≤ v) + xs.countP (fun x => v < x) = xs.length := by
    rw [List.length_eq_countP_add_countP (fun x => decide (x ≤ v))]
    refine congrArg _ (List.countP_congr fun x _ => ?_)
    simp
  have hgt := countP_gt_le hk hv
  omega

end Counting

/-! ## Quantiles -/

/-- The value a share `q` of the way from the least to the greatest. -/
def quantile (q : ℚ) (xs : List R) : R := interp (rank xs) (q * ((xs.length : ℚ) - 1))

/-- The middle value, or the mean of the two middle ones. -/
def median (xs : List R) : R :=
  if xs.length % 2 = 1 then
    rank xs (xs.length / 2)
  else
    (rank xs (xs.length / 2 - 1) + rank xs (xs.length / 2)) / (1 + 1)

section Position

variable {q : ℚ}

omit [Field R] [LinearOrder R] in
theorem position_nonneg (hq : 0 ≤ q) (hxs : xs ≠ []) : 0 ≤ q * ((xs.length : ℚ) - 1) := by
  have hone : (1 : ℚ) ≤ xs.length := by
    exact_mod_cast List.length_pos_iff.2 hxs
  exact mul_nonneg hq (sub_nonneg.2 hone)

omit [Field R] [LinearOrder R] in
theorem ceil_position_lt (hq : q ≤ 1) (hxs : xs ≠ []) :
    ⌈q * ((xs.length : ℚ) - 1)⌉₊ < xs.length := by
  have hpos := List.length_pos_iff.2 hxs
  have hcast : ((xs.length - 1 : Nat) : ℚ) = (xs.length : ℚ) - 1 := by
    rw [Nat.cast_sub hpos, Nat.cast_one]
  have hle : ⌈q * ((xs.length : ℚ) - 1)⌉₊ ≤ xs.length - 1 := by
    rw [Nat.ceil_le, hcast]
    refine mul_le_of_le_one_left ?_ hq
    rw [← hcast]
    exact Nat.cast_nonneg _
  omega

variable [IsStrictOrderedRing R]

theorem median_eq_quantile (hxs : xs ≠ []) : median xs = quantile (1 / 2) xs := by
  have hpos := List.length_pos_iff.2 hxs
  have hhalf := Nat.div_add_mod xs.length 2
  unfold median quantile
  by_cases hodd : xs.length % 2 = 1
  · -- the middle is an integer
    have hposition : (1 / 2 : ℚ) * ((xs.length : ℚ) - 1) = ((xs.length / 2 : Nat) : ℚ) := by
      have hlength : (xs.length : ℚ) = 2 * ((xs.length / 2 : Nat) : ℚ) + 1 := by
        exact_mod_cast (by omega : xs.length = 2 * (xs.length / 2) + 1)
      rw [hlength]
      ring
    rw [if_pos hodd, hposition, interp_natCast]
  · obtain ⟨m, hm⟩ : ∃ m, xs.length = 2 * m + 2 := ⟨xs.length / 2 - 1, by omega⟩
    have hposition : (1 / 2 : ℚ) * ((xs.length : ℚ) - 1) = (m : ℚ) + 1 / 2 := by
      rw [hm]
      push_cast
      ring
    have hfloor : ⌊(m : ℚ) + 1 / 2⌋₊ = m := by
      rw [Nat.floor_eq_iff (by positivity)]
      constructor <;> linarith
    have hfract : (((m : ℚ) + 1 / 2 - (m : ℚ) : ℚ) : R) = 1 / 2 := by
      rw [add_sub_cancel_left]
      norm_num
    have hlow : xs.length / 2 - 1 = m := by omega
    have hhigh : xs.length / 2 = m + 1 := by omega
    rw [if_neg hodd, hposition, interp, hfloor, hfract, hlow, hhigh]
    ring

/-- A quantile lies between two bounds of the values. -/
theorem quantile_mem {a b : R} (hq : 0 ≤ q) (hq' : q ≤ 1) (hxs : xs ≠ [])
    (h : ∀ x ∈ xs, a ≤ x ∧ x ≤ b) : a ≤ quantile q xs ∧ quantile q xs ≤ b := by
  have hceil := ceil_position_lt hq' hxs
  have hpos := position_nonneg hq hxs
  constructor
  · exact (h _ (rank_mem ((Nat.floor_le_ceil _).trans_lt hceil))).1.trans
      (le_interp (monotone_rank xs) hpos)
  · exact (interp_le (monotone_rank xs) hpos).trans (h _ (rank_mem hceil)).2

theorem quantile_mono {q' : ℚ} (hq : 0 ≤ q) (hle : q ≤ q') (hxs : xs ≠ []) :
    quantile q xs ≤ quantile q' xs := by
  refine interp_mono (monotone_rank xs) (position_nonneg hq hxs) ?_
  have hone : (1 : ℚ) ≤ xs.length := by
    exact_mod_cast List.length_pos_iff.2 hxs
  exact mul_le_mul_of_nonneg_right hle (sub_nonneg.2 hone)

theorem quantile_lt_iff {q' : ℚ} (hq : 0 ≤ q) (hlt : q < q') (htwo : 2 ≤ xs.length) :
    quantile q xs < quantile q' xs ↔
      rank xs ⌊q * ((xs.length : ℚ) - 1)⌋₊ < rank xs ⌈q' * ((xs.length : ℚ) - 1)⌉₊ := by
  have hxs : xs ≠ [] := List.ne_nil_of_length_pos (by omega)
  have hmore : (2 : ℚ) ≤ xs.length := by exact_mod_cast htwo
  exact interp_lt_iff (monotone_rank xs) (position_nonneg hq hxs)
    (mul_lt_mul_of_pos_right hlt (by linarith))

/-- At most the values of higher rank lie above a quantile. -/
theorem countP_quantile_lt (hq : 0 ≤ q) (hq' : q ≤ 1) (hxs : xs ≠ []) :
    xs.countP (fun x => quantile q xs < x) ≤
      xs.length - (⌊q * ((xs.length : ℚ) - 1)⌋₊ + 1) :=
  countP_gt_le ((Nat.floor_le_ceil _).trans_lt (ceil_position_lt hq' hxs))
    (le_interp (monotone_rank xs) (position_nonneg hq hxs))

/-- The values of higher rank reach it. -/
theorem le_countP_quantile_le (hq : 0 ≤ q) (hq' : q ≤ 1) (hxs : xs ≠ []) :
    xs.length - ⌈q * ((xs.length : ℚ) - 1)⌉₊ ≤ xs.countP (fun x => quantile q xs ≤ x) :=
  le_countP_ge (ceil_position_lt hq' hxs) (interp_le (monotone_rank xs) (position_nonneg hq hxs))

/-- They alone reach it exactly when the quantile is not tied with the value below it. -/
theorem countP_quantile_le_eq_iff (hq : 0 ≤ q) (hq' : q ≤ 1) (hxs : xs ≠ [])
    (hbetween : ⌊q * ((xs.length : ℚ) - 1)⌋₊ < ⌈q * ((xs.length : ℚ) - 1)⌉₊) :
    xs.countP (fun x => quantile q xs ≤ x) = xs.length - ⌈q * ((xs.length : ℚ) - 1)⌉₊ ↔
      rank xs ⌊q * ((xs.length : ℚ) - 1)⌋₊ < rank xs ⌈q * ((xs.length : ℚ) - 1)⌉₊ := by
  have hposition := position_nonneg hq hxs
  have hceil := ceil_position_lt hq' hxs
  have hsucc := ceil_eq_succ hbetween
  constructor
  · intro hcount
    by_contra htied
    -- tied, the value below reaches it too
    have heq := le_antisymm (not_lt.1 htied) (monotone_rank xs hbetween.le)
    have hreach : quantile q xs ≤ rank xs ⌊q * ((xs.length : ℚ) - 1)⌋₊ :=
      (interp_le (monotone_rank xs) hposition).trans heq.le
    have hmore := le_countP_ge (by omega) hreach
    omega
  · intro hlt
    have habove := (lt_interp_iff (monotone_rank xs) hposition).2 hlt
    have hmost : xs.countP (fun x => quantile q xs ≤ x) ≤ xs.length - _ :=
      countP_ge_le (by omega) habove
    have hleast := le_countP_quantile_le hq hq' hxs
    omega

theorem le_countP_le_quantile (hq : 0 ≤ q) (hq' : q ≤ 1) (hxs : xs ≠ []) :
    ⌊q * ((xs.length : ℚ) - 1)⌋₊ + 1 ≤ xs.countP (fun x => x ≤ quantile q xs) :=
  le_countP_le ((Nat.floor_le_ceil _).trans_lt (ceil_position_lt hq' hxs))
    (le_interp (monotone_rank xs) (position_nonneg hq hxs))

end Position

end Quantile
