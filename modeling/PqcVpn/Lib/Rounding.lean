import Mathlib.Algebra.Order.Field.Basic

/-!
# Rounded arithmetic

Numbers of a fixed format, whose operations are those of an ordered field with the result rounded.
Nothing is asked of the rounding but that it keeps the order and the numbers of the format, zero and
one among them, so results may underflow to zero, two results may round to one number, and sums and
quotients are not associative.  What is kept is what the order gives.
-/

namespace Rounding

/-- A rounding to the numbers of a format; past the largest it gives the largest. -/
structure Format (K : Type*) [Field K] [LinearOrder K] where
  round : K → K
  mono : Monotone round
  round_round : ∀ x, round (round x) = round x
  round_zero : round 0 = 0
  round_one : round 1 = 1

namespace Format

variable {K : Type*} [Field K] [LinearOrder K]

/-- The numbers of the format. -/
def Number (f : Format K) : Type _ := {x : K // f.round x = x}

variable (f : Format K)

/-- The number `x` rounds to. -/
def rounded (x : K) : f.Number := ⟨f.round x, f.round_round x⟩

instance : LinearOrder f.Number := inferInstanceAs (LinearOrder {x : K // f.round x = x})

instance : Zero f.Number := ⟨⟨0, f.round_zero⟩⟩
instance : One f.Number := ⟨⟨1, f.round_one⟩⟩
instance : Add f.Number := ⟨fun x y => f.rounded (x.1 + y.1)⟩
instance : Sub f.Number := ⟨fun x y => f.rounded (x.1 - y.1)⟩
instance : Div f.Number := ⟨fun x y => f.rounded (x.1 / y.1)⟩

/-! ## Rounding -/

variable {f}

theorem rounded_val (x : f.Number) : f.rounded x.1 = x := Subtype.ext x.2

theorem rounded_zero : f.rounded 0 = 0 := Subtype.ext f.round_zero

theorem rounded_one : f.rounded 1 = 1 := Subtype.ext f.round_one

theorem rounded_mono : Monotone f.rounded := fun _ _ h => f.mono h

/-- A number that rounds higher was higher. -/
theorem lt_of_rounded_lt {x y : K} (h : f.rounded x < f.rounded y) : x < y :=
  rounded_mono.reflect_lt h

theorem number_zero_lt_one [IsStrictOrderedRing K] : (0 : f.Number) < 1 :=
  zero_lt_one (α := K)

/-! ## The order and the operations -/

section Ordered

variable [IsStrictOrderedRing K] {x y z : f.Number}

omit [IsStrictOrderedRing K] in
theorem number_sub_self (x : f.Number) : x - x = 0 := by
  change f.rounded (x.1 - x.1) = 0
  rw [sub_self, rounded_zero]

omit [IsStrictOrderedRing K] in
theorem number_sub_zero (x : f.Number) : x - 0 = x := by
  change f.rounded (x.1 - 0) = x
  rw [sub_zero, rounded_val]

theorem number_sub_le_sub_right (h : x ≤ y) (z : f.Number) : x - z ≤ y - z :=
  rounded_mono (sub_le_sub_right (show x.1 ≤ y.1 from h) z.1)

/-- A positive difference is that of a smaller number from a larger one. -/
theorem number_lt_of_sub_pos (h : 0 < x - y) : y < x := by
  have hrounded : f.rounded 0 < f.rounded (x.1 - y.1) := by
    rw [rounded_zero]
    exact h
  have hexact : 0 < x.1 - y.1 := lt_of_rounded_lt hrounded
  exact show y.1 < x.1 from sub_pos.1 hexact

omit [IsStrictOrderedRing K] in
theorem number_zero_add (x : f.Number) : 0 + x = x := by
  change f.rounded (0 + x.1) = x
  rw [zero_add, rounded_val]

omit [IsStrictOrderedRing K] in
theorem number_add_zero (x : f.Number) : x + 0 = x := by
  change f.rounded (x.1 + 0) = x
  rw [add_zero, rounded_val]

/-- A sum is no less than its summands, if none is negative. -/
theorem le_number_add_right (x : f.Number) (hy : 0 ≤ y) : x ≤ x + y := by
  calc x = f.rounded x.1 := (rounded_val x).symm
    _ ≤ x + y := rounded_mono (le_add_of_nonneg_right (show (0 : K) ≤ y.1 from hy))

theorem le_number_add_left (hx : 0 ≤ x) (y : f.Number) : y ≤ x + y := by
  calc y = f.rounded y.1 := (rounded_val y).symm
    _ ≤ x + y := rounded_mono (le_add_of_nonneg_left (show (0 : K) ≤ x.1 from hx))

theorem number_div_le_div_right (h : x ≤ y) (hz : 0 ≤ z) : x / z ≤ y / z :=
  rounded_mono (div_le_div_of_nonneg_right (show x.1 ≤ y.1 from h) hz)

omit [IsStrictOrderedRing K] in
theorem number_zero_div (x : f.Number) : 0 / x = 0 := by
  change f.rounded (0 / x.1) = 0
  rw [zero_div, rounded_zero]

omit [IsStrictOrderedRing K] in
theorem number_div_self (hx : 0 < x) : x / x = 1 := by
  change f.rounded (x.1 / x.1) = 1
  rw [div_self (show (0 : K) < x.1 from hx).ne', rounded_one]

/-- A quotient of a number by no less is between zero and one. -/
theorem number_div_mem (hx : 0 ≤ x) (hxy : x ≤ y) (hy : 0 < y) : 0 ≤ x / y ∧ x / y ≤ 1 := by
  have hzero := number_div_le_div_right hx hy.le
  have hone := number_div_le_div_right hxy hy.le
  rw [number_zero_div] at hzero
  rw [number_div_self hy] at hone
  exact ⟨hzero, hone⟩

end Ordered

/-! ## Sums -/

/-- The sum of a list, from the left and rounded at each step. -/
def sum (xs : List f.Number) : f.Number := xs.foldl (· + ·) 0

section Sum

variable [IsStrictOrderedRing K]

/-- A running sum of numbers that are not negative only grows, and passes each of them. -/
theorem le_foldl_add {xs : List f.Number} (hxs : ∀ x ∈ xs, 0 ≤ x) {s : f.Number} (hs : 0 ≤ s) :
    s ≤ xs.foldl (· + ·) s ∧ ∀ x ∈ xs, x ≤ xs.foldl (· + ·) s := by
  induction xs generalizing s with
  | nil =>
      exact ⟨le_refl s, fun x hx => absurd hx List.not_mem_nil⟩
  | cons y ys ih =>
      have hy : 0 ≤ y := hxs y List.mem_cons_self
      have hgrow : s ≤ s + y := le_number_add_right s hy
      obtain ⟨hrest, hmem⟩ := ih (fun x hx => hxs x (List.mem_cons_of_mem y hx)) (hs.trans hgrow)
      refine ⟨hgrow.trans hrest, ?_⟩
      rw [List.forall_mem_cons]
      exact ⟨(le_number_add_left hs y).trans hrest, hmem⟩

theorem le_sum {xs : List f.Number} (hxs : ∀ x ∈ xs, 0 ≤ x) {x : f.Number} (hx : x ∈ xs) :
    x ≤ sum xs :=
  (le_foldl_add hxs (le_refl 0)).2 x hx

end Sum

end Format

end Rounding
