import Mathlib.Tactic.Linarith
import Mathlib.Tactic.NormNum
import PqcVpn.Anomaly.Baseline
import PqcVpn.Lib.Machine

/-!
# WarmUp — Layer 1 before its window is full

The baseline promises silence until it has `window` samples, yet `update` scores as soon as a
history has two entries.  So it fires early exactly on an outlier against the few samples it has.
-/

namespace PqcVpn
namespace Anomaly

open Machine

variable {R : Type} [Field R] [LinearOrder R]

/-- More than three standard deviations from the mean of a history that varies; squared, so that no
root is taken. -/
def IsOutlier (hist : List R) (value : R) : Prop :=
  variance hist ≠ 0 ∧ 9 * variance hist < (value - mean hist) ^ 2

/-- An outlier in one of the metrics. -/
def IsOutlierSample (earlier : List (Metrics R)) (sample : Metrics R) : Prop :=
  IsOutlier (earlier.map Metrics.latency) sample.latency ∨
    IsOutlier (earlier.map Metrics.packetRate) sample.packetRate ∨
    IsOutlier (earlier.map Metrics.packetSize) sample.packetSize

/-- No sample is an outlier against the fewer than `window` samples, two or more, before it. -/
def NoEarlyOutlier (window : Nat) (samples : List (Metrics R)) : Prop :=
  ∀ i sample, samples[i]? = some sample → 2 ≤ i → i < window →
    ¬ IsOutlierSample (samples.take i) sample

namespace ZScoreBaseline

variable [HasSqrt R]

/-- A reading is anomalous only if `window` samples had been fed before its own. -/
def Silent (window : Nat) (samples : List (Metrics R)) : Prop :=
  ∀ i r, (outputs update (new window) samples)[i]? = some r → r.anomalous = true → window ≤ i

end ZScoreBaseline

/-! ## The score -/

section Score

variable [IsStrictOrderedRing R]

theorem variance_nonneg (xs : List R) : 0 ≤ variance xs := by
  refine div_nonneg (List.sum_nonneg ?_) (Nat.cast_nonneg _)
  intro y hy
  rcases List.mem_map.1 hy with ⟨x, _, rfl⟩
  exact mul_self_nonneg _

variable [HasSqrt R] [LawfulSqrt R]

theorem std_nonneg (xs : List R) : 0 ≤ std xs := LawfulSqrt.sqrt_nonneg _ (variance_nonneg xs)

theorem std_sq (xs : List R) : std xs ^ 2 = variance xs := by
  rw [sq]
  exact LawfulSqrt.mul_self_sqrt _ (variance_nonneg xs)

theorem std_eq_zero_iff {xs : List R} : std xs = 0 ↔ variance xs = 0 := by
  rw [← std_sq, sq_eq_zero_iff]

/-- Three standard deviations, compared by squares: the root is exact. -/
theorem zScoreThreshold_mul_std_lt_iff {hist : List R} {value : R} :
    zScoreThreshold * std hist < |value - mean hist| ↔
      9 * variance hist < (value - mean hist) ^ 2 := by
  have hthree : (9 : R) * variance hist = (zScoreThreshold * std hist) ^ 2 := by
    calc
      (9 : R) * variance hist = zScoreThreshold ^ 2 * std hist ^ 2 := by
        rw [std_sq, zScoreThreshold]
        norm_num
      _ = (zScoreThreshold * std hist) ^ 2 := (mul_pow _ _ 2).symm
  have hleft : |zScoreThreshold * std hist| = zScoreThreshold * std hist :=
    abs_of_nonneg (mul_nonneg (by norm_num [zScoreThreshold]) (std_nonneg hist))
  rw [hthree, sq_lt_sq, hleft]

/-- The score exceeds the threshold on the outliers of a history of two or more. -/
theorem ZScoreBaseline.zScoreThreshold_lt_zScore_iff {hist : List R} {value : R} :
    zScoreThreshold < zScore hist value ↔ 2 ≤ hist.length ∧ IsOutlier hist value := by
  have hzero : ¬ (zScoreThreshold : R) < 0 := by norm_num [zScoreThreshold]
  unfold zScore
  -- the guards of the source: too short a history, then one that does not vary
  by_cases hlength : hist.length < 2
  · rw [if_pos hlength]
    exact iff_of_false hzero fun h => absurd h.1 (not_le.2 hlength)
  rw [if_neg hlength]
  by_cases hstd : std hist = 0
  · rw [if_pos hstd]
    exact iff_of_false hzero fun h => h.2.1 (std_eq_zero_iff.1 hstd)
  rw [if_neg hstd]
  have hpos : 0 < std hist := lt_of_le_of_ne (std_nonneg hist) (Ne.symm hstd)
  rw [abs_div, abs_of_pos hpos, lt_div_iff₀ hpos, zScoreThreshold_mul_std_lt_iff]
  exact ⟨fun h => ⟨not_lt.1 hlength, fun hvariance => hstd (std_eq_zero_iff.2 hvariance), h⟩,
    fun h => h.2.2⟩

end Score

/-! ## The history -/

namespace ZScoreBaseline

/-- The histories hold the latest `window` of the samples fed so far. -/
structure Remembers (window : Nat) (samples : List (Metrics R)) (b : ZScoreBaseline R) : Prop where
  maxlen : b.history.map Deque.maxlen = ⟨window, window, window⟩
  latency : b.history.latency.Holds (samples.map Metrics.latency)
  packetRate : b.history.packetRate.Holds (samples.map Metrics.packetRate)
  packetSize : b.history.packetSize.Holds (samples.map Metrics.packetSize)

omit [Field R] [LinearOrder R] in
theorem remembers_new (window : Nat) : Remembers window [] (new (R := R) window) :=
  ⟨rfl, Deque.holds_empty _, Deque.holds_empty _, Deque.holds_empty _⟩

variable [HasSqrt R]

theorem Remembers.update {window : Nat} {samples : List (Metrics R)} {b : ZScoreBaseline R}
    (h : Remembers window samples b) (sample : Metrics R) :
    Remembers window (samples ++ [sample]) (b.update sample).2 where
  maxlen := h.maxlen
  latency := by
    rw [List.map_append]
    exact h.latency.append _
  packetRate := by
    rw [List.map_append]
    exact h.packetRate.append _
  packetSize := by
    rw [List.map_append]
    exact h.packetSize.append _

theorem remembers_stateAfter (window : Nat) (samples : List (Metrics R)) :
    Remembers window samples (stateAfter ZScoreBaseline.update (new window) samples) :=
  stateAfter_induction (remembers_new window) (fun sample h => h.update sample) samples

variable [IsStrictOrderedRing R] [LawfulSqrt R]

/-- Before the window is full, a sample is flagged when it is an outlier against all before it. -/
theorem anomalous_update_iff {window : Nat} {samples : List (Metrics R)} {b : ZScoreBaseline R}
    (h : Remembers window samples b) (hfill : samples.length ≤ window) (sample : Metrics R) :
    (b.update sample).1.anomalous = true ↔
      2 ≤ samples.length ∧ IsOutlierSample samples sample := by
  have hmaxlen := h.maxlen
  simp only [Metrics.map, Metrics.mk.injEq] at hmaxlen
  -- nothing has been dropped yet, so the histories are all that was fed
  have hlatency := h.latency.items_of_le (by rw [List.length_map, hmaxlen.1]; exact hfill)
  have hrate := h.packetRate.items_of_le (by rw [List.length_map, hmaxlen.2.1]; exact hfill)
  have hsize := h.packetSize.items_of_le (by rw [List.length_map, hmaxlen.2.2]; exact hfill)
  have hscores : (b.update sample).1.anomalous = true ↔ zScoreThreshold <
      max (max (zScore b.history.latency.items sample.latency)
        (zScore b.history.packetRate.items sample.packetRate))
        (zScore b.history.packetSize.items sample.packetSize) := decide_eq_true_iff
  rw [hscores, lt_max_iff, lt_max_iff, hlatency, hrate, hsize, zScoreThreshold_lt_zScore_iff,
    zScoreThreshold_lt_zScore_iff, zScoreThreshold_lt_zScore_iff, List.length_map, List.length_map,
    List.length_map, IsOutlierSample]
  tauto

/-! ## Silence -/

/-- Layer 1 is silent on the streams without an early outlier. -/
theorem silent_iff_noEarlyOutlier {window : Nat} {samples : List (Metrics R)} :
    Silent window samples ↔ NoEarlyOutlier window samples := by
  -- the answer to sample `i` is given over the samples before it
  have hanswer {i : Nat} {sample : Metrics R} (hi : samples[i]? = some sample) (hlt : i < window) :
      (ZScoreBaseline.update
        (stateAfter ZScoreBaseline.update (new window) (samples.take i)) sample).1.anomalous = true ↔
      2 ≤ i ∧ IsOutlierSample (samples.take i) sample := by
    have hlength : (samples.take i).length = i := by
      rw [List.length_take]
      exact Nat.min_eq_left (List.getElem?_eq_some_iff.1 hi).1.le
    have hiff := anomalous_update_iff (remembers_stateAfter window (samples.take i))
      (hlength.trans_le hlt.le) sample
    rwa [hlength] at hiff
  constructor
  · intro hsilent i sample hi htwo hlt houtlier
    have hanomalous := (hanswer hi hlt).2 ⟨htwo, houtlier⟩
    have hle : window ≤ i := hsilent i _ (by rw [outputs_getElem?, hi]; rfl) hanomalous
    omega
  · intro hnone i r hr hanomalous
    rw [outputs_getElem?, Option.map_eq_some_iff] at hr
    rcases hr with ⟨sample, hi, rfl⟩
    by_contra hlt
    rcases (hanswer hi (by omega)).1 hanomalous with ⟨htwo, houtlier⟩
    exact hnone i sample hi htwo (by omega) houtlier

omit [HasSqrt R] [LawfulSqrt R] in
/-- Two close samples make the next one an outlier. -/
theorem isOutlier_spike : IsOutlier [(0 : R), 1] 100 := by
  constructor <;> norm_num [variance, mean]

/-- The promise is kept on the streams without an early outlier, and on all of them only by the
windows that two samples fill.  That a history of equal samples admits no outlier is a fact of exact
arithmetic: in floats the deviation of 0.1, 0.1, 0.1 is not quite zero, and 0.2 after them is
flagged. -/
theorem silent_until_full_iff (window : Nat) :
    (∀ samples : List (Metrics R), Silent window samples ↔ NoEarlyOutlier window samples) ∧
      ((∀ samples : List (Metrics R), Silent window samples) ↔ window ≤ 2) := by
  refine ⟨fun samples => silent_iff_noEarlyOutlier, ?_⟩
  constructor
  · intro hsilent
    by_contra hlt
    -- a window of three or more leaves room for a spike after two samples
    have hnone := silent_iff_noEarlyOutlier.1 (hsilent [⟨0, 0, 0⟩, ⟨1, 1, 1⟩, ⟨100, 100, 100⟩])
    exact hnone 2 ⟨100, 100, 100⟩ rfl (le_refl 2) (by omega) (.inl isOutlier_spike)
  · intro hwindow samples
    refine silent_iff_noEarlyOutlier.2 ?_
    intro i sample _ htwo hlt
    omega

/-- Exactly three standard deviations away is no outlier. -/
theorem silent_on_ramp : Silent 50 [(⟨1, 1, 1⟩ : Metrics ℝ), ⟨2, 2, 2⟩, ⟨3, 3, 3⟩] := by
  refine ((silent_until_full_iff 50).1 _).2 ?_
  intro i sample hi htwo _
  have hlt : i < 3 := (List.getElem?_eq_some_iff.1 hi).1
  have htwo : i = 2 := by omega
  subst htwo
  cases hi
  -- deviation 3/2 against three times 1/2
  have hno : ¬ IsOutlier [(1 : ℝ), 2] 3 := by
    rintro ⟨_, h⟩
    norm_num [variance, mean] at h
  rintro (h | h | h) <;> exact hno h

/-- The third sample of a default baseline is flagged, on a history of two. -/
theorem not_silent_on_early_spike :
    ¬ Silent 50 [(⟨0, 0, 0⟩ : Metrics ℚ), ⟨1, 1, 1⟩, ⟨100, 100, 100⟩] := by
  intro hsilent
  have hle := hsilent 2 _ rfl (by decide +kernel)
  omega

end ZScoreBaseline

end Anomaly
end PqcVpn
