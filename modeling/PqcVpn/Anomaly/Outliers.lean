import Mathlib.Algebra.Order.BigOperators.Group.List
import PqcVpn.Anomaly.WarmUp

/-!
# Outliers — gross outliers against a full history

Layer 1 scores a metric by its distance from the mean in standard deviations.  A history of one
value has none, and `_z_score` then answers zero: a gross outlier is reported exactly when it stands
in a metric whose history varies.
-/

namespace PqcVpn
namespace Anomaly

open Machine

variable {R : Type} [Field R] [LinearOrder R]

/-! ## Metrics by name -/

inductive Metric
  | latency
  | packetRate
  | packetSize
  deriving DecidableEq

def Metrics.get {α : Type} (m : Metrics α) : Metric → α
  | .latency => m.latency
  | .packetRate => m.packetRate
  | .packetSize => m.packetSize

theorem Metric.exists_iff {P : Metric → Prop} :
    (∃ k, P k) ↔ (P .latency ∨ P .packetRate) ∨ P .packetSize := by
  constructor
  · rintro ⟨k, hk⟩
    cases k with
    | latency => exact .inl (.inl hk)
    | packetRate => exact .inl (.inr hk)
    | packetSize => exact .inr hk
  · rintro ((h | h) | h)
    · exact ⟨_, h⟩
    · exact ⟨_, h⟩
    · exact ⟨_, h⟩

/-! ## Constant histories -/

/-- The history does not vary: it is this value all along. -/
def Constantly (c : R) (hist : List R) : Prop := ∀ x ∈ hist, x = c

omit [LinearOrder R] in
theorem mean_of_constantly [CharZero R] {c : R} {hist : List R} (hne : hist ≠ [])
    (h : Constantly c hist) : mean hist = c := by
  have hreplicate : hist = List.replicate hist.length c := List.eq_replicate_of_mem h
  have hlength : (hist.length : R) ≠ 0 := by
    rwa [Nat.cast_ne_zero, Ne, List.length_eq_zero_iff]
  rw [mean, hreplicate, List.sum_replicate, List.length_replicate, nsmul_eq_mul]
  exact mul_div_cancel_left₀ c hlength

section Exact

variable [IsStrictOrderedRing R]

/-- Without variance every value is the mean. -/
theorem variance_eq_zero_iff {hist : List R} (hne : hist ≠ []) :
    variance hist = 0 ↔ Constantly (mean hist) hist := by
  have hlength : (hist.length : R) ≠ 0 := by
    rwa [Nat.cast_ne_zero, Ne, List.length_eq_zero_iff]
  constructor
  · intro hzero x hx
    rw [variance, mean, List.length_map, div_eq_zero_iff, or_iff_left hlength] at hzero
    -- a sum of squares is zero term by term
    have hsquare : (x - mean hist) * (x - mean hist) = 0 := by
      refine List.all_zero_of_le_zero_le_of_sum_eq_zero ?_ hzero (List.mem_map_of_mem hx)
      intro y hy
      rcases List.mem_map.1 hy with ⟨z, _, rfl⟩
      exact mul_self_nonneg _
    exact sub_eq_zero.1 (mul_self_eq_zero.1 hsquare)
  · intro hconst
    have hsquares : Constantly 0 (hist.map fun x => (x - mean hist) * (x - mean hist)) := by
      intro y hy
      rcases List.mem_map.1 hy with ⟨x, hx, rfl⟩
      rw [hconst x hx, sub_self, mul_zero]
    rw [variance]
    exact mean_of_constantly (by simpa using hne) hsquares

theorem variance_eq_zero_iff_exists {hist : List R} (hne : hist ≠ []) :
    variance hist = 0 ↔ ∃ c, Constantly c hist := by
  rw [variance_eq_zero_iff hne]
  constructor
  · intro h
    exact ⟨_, h⟩
  · rintro ⟨c, h⟩
    rwa [mean_of_constantly hne h]

end Exact

/-! ## Gross outliers -/

section Gross

variable [HasSqrt R]

/-- The value lies more than three standard deviations of the history from its mean. -/
def IsGross (hist : List R) (value : R) : Prop := zScoreThreshold * std hist < |value - mean hist|

/-- The latest `window` values of a metric. -/
def recentValues (window : Nat) (samples : List (Metrics R)) (k : Metric) : List R :=
  (samples.map fun s => s.get k).rtake window

namespace ZScoreBaseline

/-- The reading of a sample after the samples fed before it. -/
def readingAfter (window : Nat) (samples : List (Metrics R)) (sample : Metrics R) :
    Reading R (Metrics R) :=
  (ZScoreBaseline.update (stateAfter ZScoreBaseline.update (new window) samples) sample).1

/-- The sample is reported, in the upper half of the scale. -/
def Catches (window : Nat) (samples : List (Metrics R)) (sample : Metrics R) : Prop :=
  (readingAfter window samples sample).anomalous = true ∧
    1 / 2 < (readingAfter window samples sample).threatScore

/-- The sample is scored, metric by metric, against the latest `window` values. -/
theorem detail_readingAfter (window : Nat) (samples : List (Metrics R)) (sample : Metrics R)
    (k : Metric) : (readingAfter window samples sample).detail.get k =
      zScore (recentValues window samples k) (sample.get k) := by
  have h := remembers_stateAfter window samples
  have hmaxlen := h.maxlen
  simp only [Metrics.map, Metrics.mk.injEq] at hmaxlen
  have hholds {d : Deque R} {log : List R} (hd : d.Holds log) (hlen : d.maxlen = window)
      (value : R) : zScore d.items value = zScore (log.rtake window) value := by
    rw [hd, hlen]
  cases k with
  | latency => exact hholds h.latency hmaxlen.1 _
  | packetRate => exact hholds h.packetRate hmaxlen.2.1 _
  | packetSize => exact hholds h.packetSize hmaxlen.2.2 _

theorem anomalous_readingAfter (window : Nat) (samples : List (Metrics R)) (sample : Metrics R) :
    (readingAfter window samples sample).anomalous = true ↔
      ∃ k, zScoreThreshold < (readingAfter window samples sample).detail.get k := by
  rw [Metric.exists_iff]
  change decide (_ > _) = true ↔ _
  rw [decide_eq_true_iff, gt_iff_lt, lt_max_iff, lt_max_iff]
  rfl

variable [IsStrictOrderedRing R]

/-- The score passes a half where the sample is anomalous. -/
theorem half_lt_threatScore_readingAfter (window : Nat) (samples : List (Metrics R))
    (sample : Metrics R) :
    1 / 2 < (readingAfter window samples sample).threatScore ↔
      (readingAfter window samples sample).anomalous = true := by
  set maxZ := max (max (readingAfter window samples sample).detail.latency
    (readingAfter window samples sample).detail.packetRate)
    (readingAfter window samples sample).detail.packetSize
  have hscore : (readingAfter window samples sample).threatScore =
      clip (maxZ / (zScoreThreshold * 2)) 0 1 := rfl
  have hanomalous : (readingAfter window samples sample).anomalous =
      decide (maxZ > zScoreThreshold) := rfl
  have hzero : ¬ (1 / 2 : R) < 0 := by norm_num
  have hone : (1 / 2 : R) < 1 := by norm_num
  rw [hscore, hanomalous, decide_eq_true_iff, clip, lt_min_iff, lt_max_iff, zScoreThreshold,
    lt_div_iff₀ (by norm_num)]
  constructor
  · rintro ⟨hhalf | hneg, _⟩
    · linarith
    · exact absurd hneg hzero
  · intro hgt
    exact ⟨.inl (by linarith), hone⟩

variable [LawfulSqrt R]

/-- The guard answers zero where nothing varies; elsewhere the score tells the gross outliers. -/
theorem zScoreThreshold_lt_zScore_iff_isGross {hist : List R} (hlength : 2 ≤ hist.length)
    {value : R} : zScoreThreshold < zScore hist value ↔
      (¬ ∃ c, Constantly c hist) ∧ IsGross hist value := by
  have hne : hist ≠ [] := List.ne_nil_of_length_pos (by omega)
  rw [zScoreThreshold_lt_zScore_iff, IsOutlier, IsGross, zScoreThreshold_mul_std_lt_iff, Ne,
    variance_eq_zero_iff_exists hne]
  exact and_iff_right hlength

/-- A sample is caught when it is a gross outlier in a metric whose history varies. -/
theorem catches_iff {window : Nat} (hwindow : 2 ≤ window) {samples : List (Metrics R)}
    (hfull : window ≤ samples.length) (sample : Metrics R) :
    Catches window samples sample ↔ ∃ k, (¬ ∃ c, Constantly c (recentValues window samples k)) ∧
      IsGross (recentValues window samples k) (sample.get k) := by
  have hlength (k : Metric) : 2 ≤ (recentValues window samples k).length := by
    rw [recentValues, List.rtake, List.length_drop, List.length_map]
    omega
  rw [Catches, half_lt_threatScore_readingAfter, and_self, anomalous_readingAfter]
  refine exists_congr fun k => ?_
  rw [detail_readingAfter, zScoreThreshold_lt_zScore_iff_isGross (hlength k)]

/-- Gross outliers are caught as long as one stands in a metric that varied, or no metric that did
not vary leaves its value. -/
theorem catches_gross_iff {window : Nat} (hwindow : 2 ≤ window) {samples : List (Metrics R)}
    (hfull : window ≤ samples.length) (sample : Metrics R) :
    ((∃ k, IsGross (recentValues window samples k) (sample.get k)) →
        Catches window samples sample) ↔
      (∃ k, (¬ ∃ c, Constantly c (recentValues window samples k)) ∧
        IsGross (recentValues window samples k) (sample.get k)) ∨
      ∀ k c, Constantly c (recentValues window samples k) → sample.get k = c := by
  have hne (k : Metric) : recentValues window samples k ≠ [] := by
    refine List.ne_nil_of_length_pos ?_
    rw [recentValues, List.rtake, List.length_drop, List.length_map]
    omega
  -- off a constant history every deviation is gross
  have hgross {k : Metric} {c : R} (hc : Constantly c (recentValues window samples k)) :
      IsGross (recentValues window samples k) (sample.get k) ↔ sample.get k ≠ c := by
    have hstd : std (recentValues window samples k) = 0 :=
      std_eq_zero_iff.2 ((variance_eq_zero_iff_exists (hne k)).2 ⟨c, hc⟩)
    rw [IsGross, hstd, mul_zero, mean_of_constantly (hne k) hc, abs_pos, sub_ne_zero]
  rw [catches_iff hwindow hfull]
  constructor
  · intro himp
    by_cases hcaught : ∃ k, (¬ ∃ c, Constantly c (recentValues window samples k)) ∧
        IsGross (recentValues window samples k) (sample.get k)
    · exact .inl hcaught
    · refine .inr fun k c hc => ?_
      by_contra hmoved
      exact hcaught (himp ⟨k, (hgross hc).2 hmoved⟩)
  · rintro (hcaught | hkept) ⟨k, hk⟩
    · exact hcaught
    · refine ⟨k, ?_, hk⟩
      rintro ⟨c, hc⟩
      exact (hgross hc).1 hk (hkept k c hc)

end ZScoreBaseline

end Gross

namespace ZScoreBaseline

/-- Latency varied and jumps, and the other metrics keep their one value. -/
theorem catches_gross_latency :
    Catches 2 [(⟨0, 1, 1⟩ : Metrics ℝ), ⟨1, 1, 1⟩] ⟨3, 1, 1⟩ := by
  have hgross : IsGross [(0 : ℝ), 1] 3 := by
    rw [IsGross, zScoreThreshold_mul_std_lt_iff]
    norm_num [variance, mean]
  refine (catches_gross_iff (le_refl 2) (le_refl 2) _).2 (.inr ?_) ⟨.latency, hgross⟩
  intro k c hc
  cases k with
  | latency =>
      have hzero : (0 : ℝ) = c := hc 0 List.mem_cons_self
      have hone : (1 : ℝ) = c := hc 1 (List.mem_cons_of_mem _ List.mem_cons_self)
      linarith
  | packetRate => exact hc 1 List.mem_cons_self
  | packetSize => exact hc 1 List.mem_cons_self

/-- The stream of the repository's own test with values that floats represent exactly: after twenty
equal samples a latency of 50 passes. -/
theorem not_catches_after_constant :
    ¬ ((∃ k, IsGross (recentValues 20 (List.replicate 20 (⟨1 / 2, 1 / 2, 1 / 2⟩ : Metrics ℚ)) k)
        ((⟨50, 1 / 2, 1 / 2⟩ : Metrics ℚ).get k)) →
      Catches 20 (List.replicate 20 (⟨1 / 2, 1 / 2, 1 / 2⟩ : Metrics ℚ)) ⟨50, 1 / 2, 1 / 2⟩) := by
  intro himp
  have hcatches := himp ⟨.latency, by unfold IsGross; decide +kernel⟩
  have hsilent : (readingAfter 20 (List.replicate 20 (⟨1 / 2, 1 / 2, 1 / 2⟩ : Metrics ℚ))
      ⟨50, 1 / 2, 1 / 2⟩).anomalous = false := by
    decide +kernel
  rw [hcatches.1] at hsilent
  cases hsilent

end ZScoreBaseline

end Anomaly
end PqcVpn
