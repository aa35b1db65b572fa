import Mathlib.Algebra.Field.Defs
import Mathlib.Algebra.Order.Group.Abs
import Mathlib.Analysis.Real.Sqrt
import Mathlib.Data.Rat.Sqrt
import PqcVpn.Lib.Deque

/-!
# Baseline — Layer 1 of the anomaly detector

`ZScoreBaseline` of `client/rl_agent/anomaly_detector.py`, with the numpy functions it calls.
Numbers are those of an ordered field with a square root, in place of floats.
-/

namespace PqcVpn
namespace Anomaly

/-! ## Numbers -/

/-- `np.sqrt`. -/
class HasSqrt (R : Type) where
  sqrt : R → R

/-- An exact square root. -/
class LawfulSqrt (R : Type) [Field R] [LinearOrder R] [HasSqrt R] : Prop where
  sqrt_nonneg : ∀ x : R, 0 ≤ x → 0 ≤ HasSqrt.sqrt x
  mul_self_sqrt : ∀ x : R, 0 ≤ x → HasSqrt.sqrt x * HasSqrt.sqrt x = x

noncomputable instance : HasSqrt ℝ := ⟨Real.sqrt⟩

instance : LawfulSqrt ℝ where
  sqrt_nonneg x _ := Real.sqrt_nonneg x
  mul_self_sqrt _ := Real.mul_self_sqrt

/-- Exact on the squares of rationals. -/
instance : HasSqrt ℚ := ⟨Rat.sqrt⟩

/-- The numerals the thresholds are built from. -/
instance atLeastTwo_two : Nat.AtLeastTwo (nat_lit 2) := ⟨by decide⟩

instance atLeastTwo_three : Nat.AtLeastTwo (nat_lit 3) := ⟨by decide⟩

variable {R : Type} [Field R]

/-- `np.mean`. -/
def mean (xs : List R) : R := xs.sum / xs.length

/-- `np.var`: the mean squared distance from the mean. -/
def variance (xs : List R) : R := mean (xs.map fun x => (x - mean xs) * (x - mean xs))

/-- `np.std`. -/
def std [HasSqrt R] (xs : List R) : R := HasSqrt.sqrt (variance xs)

/-- `np.clip`. -/
def clip [LinearOrder R] (x lo hi : R) : R := min (max x lo) hi

section Clip

variable [LinearOrder R] [IsStrictOrderedRing R]

theorem clip_nonneg (x : R) : 0 ≤ clip x 0 1 :=
  le_min (le_max_right _ _) zero_le_one

omit [IsStrictOrderedRing R] in
theorem clip_le_one (x : R) : clip x 0 1 ≤ 1 := min_le_right _ _

omit [IsStrictOrderedRing R] in
theorem clip_of_mem {x : R} (h : 0 ≤ x ∧ x ≤ 1) : clip x 0 1 = x := by
  rw [clip, max_eq_left h.1, min_eq_left h.2]

@[simp] theorem clip_clip (x : R) : clip (clip x 0 1) 0 1 = clip x 0 1 :=
  clip_of_mem ⟨clip_nonneg x, clip_le_one x⟩

/-- Capping first changes nothing. -/
@[simp] theorem clip_min_one (x : R) : clip (min x 1) 0 1 = clip x 0 1 := by
  unfold clip
  rcases le_total x 1 with h | h
  · rw [min_eq_left h]
  · rw [min_eq_right h, max_eq_left zero_le_one, min_self, min_eq_right (h.trans (le_max_left x 0))]

end Clip

/-! ## Readings -/

/-- What a detector returns for one tick; `detail` is what it reports besides. -/
structure Reading (R D : Type) where
  anomalous : Bool
  threatScore : R
  ready : Bool
  detail : D

/-- A reading without its detail. -/
def Reading.summary {D : Type} (r : Reading R D) : Reading R Unit :=
  { r with detail := () }

/-! ## The Z-score baseline -/

def zScoreThreshold : R := 3

/-- One value for each metric. -/
structure Metrics (α : Type) where
  latency : α
  packetRate : α
  packetSize : α

namespace Metrics

variable {α β γ : Type}

def map (f : α → β) (m : Metrics α) : Metrics β :=
  ⟨f m.latency, f m.packetRate, f m.packetSize⟩

def zipWith (f : α → β → γ) (m : Metrics α) (n : Metrics β) : Metrics γ :=
  ⟨f m.latency n.latency, f m.packetRate n.packetRate, f m.packetSize n.packetSize⟩

end Metrics

/-- Rolling baseline of each metric. -/
structure ZScoreBaseline (R : Type) where
  window : Nat
  history : Metrics (Deque R)

namespace ZScoreBaseline

/-- A fresh baseline. -/
def new (window : Nat) : ZScoreBaseline R where
  window := window
  history := ⟨.empty window, .empty window, .empty window⟩

variable [LinearOrder R] [HasSqrt R]

/-- `_z_score` over a metric's history. -/
def zScore (hist : List R) (value : R) : R :=
  if hist.length < 2 then
    0
  else if std hist = 0 then
    0
  else
    |(value - mean hist) / std hist|

/-- Feed one sample.  It is scored before it enters the history. -/
def update (b : ZScoreBaseline R) (sample : Metrics R) : Reading R (Metrics R) × ZScoreBaseline R :=
  let scores := b.history.zipWith (fun hist value => zScore hist.items value) sample
  let history := b.history.zipWith Deque.append sample
  let maxZ := max (max scores.latency scores.packetRate) scores.packetSize
  ({ anomalous := decide (maxZ > zScoreThreshold)
     threatScore := clip (maxZ / (zScoreThreshold * 2)) 0 1
     ready := decide (history.latency.items.length ≥ b.window)
     detail := scores },
    { b with history := history })

end ZScoreBaseline

end Anomaly
end PqcVpn
