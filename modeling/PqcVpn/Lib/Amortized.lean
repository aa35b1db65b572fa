import Mathlib.Algebra.GroupWithZero.Nat
import PqcVpn.Lib.Machine

/-!
# Amortized — what a machine can spend

A machine spends on its answers and saves in its state: when no step spends more than its own unit
and what it takes out of a potential, a run spends no more than its length and the potential it
started with.  With a potential that is never above `c`, that holds of every window of a run, give
or take `c`.
-/

namespace Machine

variable {σ ι ο : Type*} {step : σ → ι → ο × σ}

/-! ## Windows of a run -/

theorem outputs_take (s : σ) (is : List ι) (n : Nat) :
    (outputs step s is).take n = outputs step s (is.take n) := by
  induction n generalizing s is with
  | zero => rfl
  | succ n ih =>
      cases is with
      | nil => rfl
      | cons i is => exact congrArg _ (ih (step s i).2 is)

theorem outputs_drop (s : σ) (is : List ι) (n : Nat) :
    (outputs step s is).drop n = outputs step (stateAfter step s (is.take n)) (is.drop n) := by
  induction n generalizing s is with
  | zero => rfl
  | succ n ih =>
      cases is with
      | nil => rfl
      | cons i is => exact ih (step s i).2 is

/-! ## Spending -/

/-- No step spends more than its unit and what it takes out of the potential. -/
def Amortized (step : σ → ι → ο × σ) (cost : ο → Nat) (potential : σ → Nat) : Prop :=
  ∀ s i, cost (step s i).1 + potential (step s i).2 ≤ potential s + 1

variable {cost : ο → Nat} {potential : σ → Nat}

theorem Amortized.total (h : Amortized step cost potential) (s : σ) (is : List ι) :
    ((outputs step s is).map cost).sum + potential (stateAfter step s is) ≤
      is.length + potential s := by
  induction is generalizing s with
  | nil => simp [stateAfter]
  | cons i is ih =>
      have hstep := h s i
      have hrest := ih (step s i).2
      have hstate : stateAfter step s (i :: is) = stateAfter step (step s i).2 is := rfl
      rw [outputs_cons, List.map_cons, List.sum_cons, List.length_cons, hstate]
      omega

/-- In every window of a run from `s`. -/
theorem Amortized.window (h : Amortized step cost potential) {s : σ} {c : Nat} {I : σ → Prop}
    (hs : I s) (hI : ∀ s i, I s → I (step s i).2) (hc : ∀ s, I s → potential s ≤ c) (is : List ι)
    (n w : Nat) : ((((outputs step s is).drop n).take w).map cost).sum ≤ w + c := by
  have hreached : ∀ is : List ι, I (stateAfter step s is) := fun is =>
    stateAfter_induction (P := fun _ s => I s) hs (fun i hs => hI _ i hs) is
  have htotal := h.total (stateAfter step s (is.take n)) ((is.drop n).take w)
  have hbound := hc _ (hreached (is.take n))
  have hlength : ((is.drop n).take w).length ≤ w := List.length_take_le w _
  rw [outputs_drop, outputs_take]
  omega

/-- A cost that is `c` on some answers and nothing on the others. -/
theorem sum_map_ite (c : Nat) (p : ο → Bool) (os : List ο) :
    (os.map fun o => if p o then c else 0).sum = c * os.countP p := by
  induction os with
  | nil => rfl
  | cons o os ih =>
      rw [List.map_cons, List.sum_cons, ih, List.countP_cons]
      cases p o with
      | false => simp
      | true => simp [Nat.mul_add, Nat.add_comm]

end Machine
