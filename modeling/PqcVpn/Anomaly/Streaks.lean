import Mathlib.Order.Bounds.Defs
import PqcVpn.Anomaly.Combiner
import PqcVpn.Lib.Debounce

/-!
# Streaks — when the streak detectors fire

Three signatures of Layer 2 wait for `k` ticks in a row.  Each counts the ticks that crossed its
line, so a reading is anomalous exactly when the line was crossed on the last `k` ticks.  For the
latency signature a tick crosses when the window it ends is full and jittery; a clean step change
keeps the default window jittery for two ticks.
-/

namespace PqcVpn
namespace Anomaly

open Machine Debounce

variable {R : Type}

/-- The reading of tick `t` is anomalous. -/
def AnomalousAt {D : Type} (readings : List (Reading R D)) (t : Nat) : Prop :=
  ∃ r, readings[t]? = some r ∧ r.anomalous = true

/-! ## Counting -/

section Counting

variable {σ ι D : Type} {step : σ → ι → Reading R D × σ} {s₀ : σ} {k : Nat} {streak : σ → Nat}
  {crosses : List ι → ι → Prop}

/-- From `s₀` on, `streak` counts the inputs that crossed a line, which depends on those before
them, and a reading is anomalous while the count is at least `k`. -/
structure Counts (step : σ → ι → Reading R D × σ) (s₀ : σ) (k : Nat) (streak : σ → Nat)
    (crosses : List ι → ι → Prop) : Prop where
  start : streak s₀ = 0
  anomalous : ∀ earlier i, (step (stateAfter step s₀ earlier) i).1.anomalous = true ↔
    k ≤ streak (step (stateAfter step s₀ earlier) i).2
  counted : ∀ earlier i, ∃ crossed, (crossed = true ↔ crosses earlier i) ∧
    streak (step (stateAfter step s₀ earlier) i).2 =
      extendStreak (streak (stateAfter step s₀ earlier)) crossed

namespace Counts

open Classical in
/-- Whether each input crossed the line. -/
noncomputable def hits (crosses : List ι → ι → Prop) (is : List ι) : List Bool :=
  is.mapIdx fun j i => decide (crosses (is.take j) i)

theorem hits_getElem?_eq_true_iff (is : List ι) (j : Nat) :
    (hits crosses is)[j]? = some true ↔ ∃ i, is[j]? = some i ∧ crosses (is.take j) i := by
  simp [hits, List.getElem?_mapIdx]

/-- The streak is the length of the run of hits so far. -/
theorem streak_stateAfter (h : Counts step s₀ k streak crosses) (is : List ι) (n : Nat)
    (hn : n ≤ is.length) :
    streak (stateAfter step s₀ (is.take n)) = runLength ((hits crosses is).take n) := by
  induction n with
  | zero =>
      exact h.start
  | succ n ih =>
      have hlt : n < is.length := hn
      have hlt' : n < (hits crosses is).length := by simpa [hits] using hlt
      rcases h.counted (is.take n) is[n] with ⟨crossed, hcrossed, hstreak⟩
      have hhit : (hits crosses is)[n] = crossed := by
        rw [Bool.eq_iff_iff, hcrossed]
        simp [hits]
      rw [← List.take_append_getElem hlt, ← List.take_append_getElem hlt', stateAfter_snoc,
        runLength_snoc, ← ih (by omega), hhit]
      exact hstreak

/-- A reading is anomalous when the line was crossed on the last `k` ticks. -/
theorem anomalousAt_iff (h : Counts step s₀ k streak crosses) (is : List ι) (t : Nat) :
    AnomalousAt (outputs step s₀ is) t ↔ t < is.length ∧
      Sustained k (fun j => ∃ i, is[j]? = some i ∧ crosses (is.take j) i) t := by
  by_cases ht : t < is.length
  · have hreading : (outputs step s₀ is)[t]? =
        some (step (stateAfter step s₀ (is.take t)) is[t]).1 := by
      rw [outputs_getElem?, List.getElem?_eq_getElem ht]
      rfl
    have hnext : (step (stateAfter step s₀ (is.take t)) is[t]).2 =
        stateAfter step s₀ (is.take (t + 1)) := by
      rw [← List.take_append_getElem ht, stateAfter_snoc]
    have hhits : t < (hits crosses is).length := by simpa [hits] using ht
    have hanomalous : AnomalousAt (outputs step s₀ is) t ↔
        (step (stateAfter step s₀ (is.take t)) is[t]).1.anomalous = true := by
      simp [AnomalousAt, hreading]
    rw [hanomalous, h.anomalous, hnext, h.streak_stateAfter is _ ht, le_runLength_take_iff hhits]
    simp only [hits_getElem?_eq_true_iff, ht, true_and]
  · refine iff_of_false ?_ fun hsustained => ht hsustained.1
    rintro ⟨r, hr, _⟩
    rw [outputs_getElem?, List.getElem?_eq_none (by omega)] at hr
    cases hr

end Counts

end Counting

/-! ## The three detectors -/

variable [Field R] [LinearOrder R]

namespace RetransmissionSpikeSignature

/-- A tick with this rate crosses the line. -/
def Crosses (retransmitRate : R) : Prop := retransRateThreshold ≤ retransmitRate

theorem consecutiveTicks_stateAfter (k : Nat) (rates : List R) :
    (stateAfter update (new k) rates).consecutiveTicks = k := by
  apply stateAfter_induction
    (P := fun _ (d : RetransmissionSpikeSignature) => d.consecutiveTicks = k)
  · rfl
  · intro _ d _ h
    exact h

theorem counts (k : Nat) :
    Counts (update (R := R)) (new k) k streak (fun _ rate => Crosses rate) where
  start := rfl
  anomalous earlier rate := by
    have hticks := consecutiveTicks_stateAfter k earlier
    simp only [update, hticks, decide_eq_true_eq]
  counted earlier rate := by
    refine ⟨_, ?_, rfl⟩
    rw [decide_eq_true_iff]
    rfl

end RetransmissionSpikeSignature

namespace BandwidthExfiltrationSignature

/-- A tick with this bandwidth crosses the line. -/
def Crosses (b : ExfiltrationInput R) : Prop :=
  exfilUploadBpsThreshold ≤ b.uploadBytesPerSec ∧
    3 * max b.downloadBytesPerSec 1 ≤ b.uploadBytesPerSec

theorem consecutiveTicks_stateAfter (k : Nat) (ticks : List (ExfiltrationInput R)) :
    (stateAfter update (new k) ticks).consecutiveTicks = k := by
  apply stateAfter_induction
    (P := fun _ (d : BandwidthExfiltrationSignature) => d.consecutiveTicks = k)
  · rfl
  · intro _ d _ h
    exact h

theorem counts [IsStrictOrderedRing R] (k : Nat) :
    Counts (update (R := R)) (new k) k streak (fun _ b => Crosses b) where
  start := rfl
  anomalous earlier b := by
    have hticks := consecutiveTicks_stateAfter k earlier
    simp only [update, hticks, decide_eq_true_eq]
  counted earlier b := by
    refine ⟨_, ?_, rfl⟩
    -- the ratio is over at least one byte
    have hpos : 0 < max b.downloadBytesPerSec 1 := lt_max_of_lt_right one_pos
    rw [decide_eq_true_iff, ge_iff_le, ge_iff_le, le_div_iff₀ hpos]
    rfl

end BandwidthExfiltrationSignature

namespace MitMLatencySignature

/-- The latest `w` of the latencies seen are there and spread over the threshold or more. -/
def Jittery (w : Nat) (latencies : List R) : Prop :=
  w ≤ latencies.length ∧ ∃ hi lo, IsGreatest {x | x ∈ latencies.rtake w} hi ∧
    IsLeast {x | x ∈ latencies.rtake w} lo ∧ mitmJitterMsThreshold ≤ hi - lo

/-- The state after the latencies seen so far. -/
structure Watches (w k : Nat) (latencies : List R) (d : MitMLatencySignature R) : Prop where
  windowTicks : d.windowTicks = w
  consecutiveTicks : d.consecutiveTicks = k
  maxlen : d.history.maxlen = w
  history : d.history.Holds latencies

theorem watches_stateAfter {w k : Nat} (hpos : 0 < w) (latencies : List R) :
    Watches w k latencies (stateAfter update (new w k hpos) latencies) :=
  stateAfter_induction ⟨rfl, rfl, rfl, Deque.holds_empty _⟩
    (fun latency h => ⟨h.windowTicks, h.consecutiveTicks, h.maxlen, h.history.append latency⟩)
    latencies

/-- `max(history) - min(history)` of a full window. -/
theorem jitter_of_full {d : MitMLatencySignature R} {history : List R}
    (hfull : d.windowTicks ≤ history.length) : ∃ hi lo, IsGreatest {x | x ∈ history} hi ∧
      IsLeast {x | x ∈ history} lo ∧ d.jitter history = hi - lo := by
  have hne : history ≠ [] := List.ne_nil_of_length_pos (d.windowTicks_pos.trans_le hfull)
  refine ⟨history.max hne, history.min hne, ⟨List.max_mem hne, ?_⟩, ⟨List.min_mem hne, ?_⟩, ?_⟩
  · intro x hx
    exact List.le_max_of_mem hx
  · intro x hx
    exact List.min_le_of_mem hx
  · rw [jitter, dif_pos hfull]

theorem counts {w k : Nat} (hpos : 0 < w) :
    Counts update (new w k hpos) k streak
      (fun earlier (latency : R) => Jittery w (earlier ++ [latency])) where
  start := rfl
  anomalous earlier latency := by
    have hticks := (watches_stateAfter (k := k) hpos earlier).consecutiveTicks
    simp only [update, hticks, decide_eq_true_eq]
  counted earlier latency := by
    have h := watches_stateAfter (k := k) hpos earlier
    set d := stateAfter update (new w k hpos) earlier
    refine ⟨_, ?_, rfl⟩
    have hitems : (d.history.append latency).items = (earlier ++ [latency]).rtake w := by
      rw [h.history.append latency]
      exact congrArg _ h.maxlen
    rw [Bool.and_eq_true, decide_eq_true_iff, decide_eq_true_iff, hitems, h.windowTicks]
    -- the window is full as soon as `w` latencies were seen
    have hlength : w ≤ ((earlier ++ [latency]).rtake w).length ↔
        w ≤ (earlier ++ [latency]).length := by
      rw [List.rtake, List.length_drop]
      omega
    rw [ge_iff_le, hlength, Jittery]
    refine and_congr_right fun hseen => ?_
    rcases jitter_of_full (d := d) (h.windowTicks.trans_le (hlength.2 hseen)) with
      ⟨hi, lo, hhi, hlo, hjitter⟩
    rw [hjitter]
    constructor
    · intro hle
      exact ⟨hi, lo, hhi, hlo, hle⟩
    · rintro ⟨hi', lo', hhi', hlo', hle⟩
      rwa [hhi.unique hhi', hlo.unique hlo']

theorem anomalousAt_iff {w k : Nat} (hpos : 0 < w) (latencies : List R) (t : Nat) :
    AnomalousAt (outputs update (new w k hpos) latencies) t ↔ t < latencies.length ∧
      Sustained k (fun j => Jittery w (latencies.take (j + 1))) t := by
  rw [(counts hpos).anomalousAt_iff]
  refine and_congr_right fun ht => and_congr_right fun _ => ?_
  refine forall₂_congr fun j hj => imp_congr_right fun _ => ?_
  have hlt : j < latencies.length := by omega
  dsimp only
  rw [← List.take_append_getElem hlt]
  simp [hlt]

end MitMLatencySignature

/-- The streak detectors fire exactly on conditions sustained for `k` ticks. -/
theorem streaks_fire_iff_sustained [IsStrictOrderedRing R] :
    (∀ (k : Nat) (rates : List R) (t : Nat),
      AnomalousAt (outputs RetransmissionSpikeSignature.update (.new k) rates) t ↔
        t < rates.length ∧ Sustained k
          (fun j => ∃ rate, rates[j]? = some rate ∧ RetransmissionSpikeSignature.Crosses rate) t) ∧
    (∀ (k : Nat) (ticks : List (ExfiltrationInput R)) (t : Nat),
      AnomalousAt (outputs BandwidthExfiltrationSignature.update (.new k) ticks) t ↔
        t < ticks.length ∧ Sustained k
          (fun j => ∃ b, ticks[j]? = some b ∧ BandwidthExfiltrationSignature.Crosses b) t) ∧
    ∀ (w k : Nat) (hpos : 0 < w) (latencies : List R) (t : Nat),
      AnomalousAt (outputs MitMLatencySignature.update (.new w k hpos) latencies) t ↔
        t < latencies.length ∧ Sustained k
          (fun j => MitMLatencySignature.Jittery w (latencies.take (j + 1))) t := by
  refine ⟨?_, ?_, ?_⟩
  · intro k rates t
    exact (RetransmissionSpikeSignature.counts k).anomalousAt_iff rates t
  · intro k ticks t
    exact (BandwidthExfiltrationSignature.counts k).anomalousAt_iff ticks t
  · intro w k hpos latencies t
    exact MitMLatencySignature.anomalousAt_iff hpos latencies t

/-- A streak of two that breaks off fires only where it is completed again; an upload sustained for
three ticks; a spike that is in both windows of two it passes through. -/
theorem sustained_conditions_fire :
    (AnomalousAt (outputs RetransmissionSpikeSignature.update (.new 2)
        [(1 / 5 : ℚ), 0, 1 / 5, 3 / 10]) 3 ∧
      ¬ AnomalousAt (outputs RetransmissionSpikeSignature.update (.new 2)
        [(1 / 5 : ℚ), 0, 1 / 5, 3 / 10]) 2) ∧
    AnomalousAt (outputs BandwidthExfiltrationSignature.update (.new 3)
        [⟨(0 : ℚ), 0⟩, ⟨2000000, 0⟩, ⟨3000000, 1000000⟩, ⟨2500000, 500⟩]) 3 ∧
    AnomalousAt (outputs MitMLatencySignature.update (.new 2 2 (by decide))
        [(20 : ℚ), 20, 120, 20]) 3 := by
  have h := streaks_fire_iff_sustained (R := ℚ)
  refine ⟨⟨(h.1 2 _ 3).2 ⟨by decide, by decide, ?_⟩, fun hfires => ?_⟩,
    (h.2.1 3 _ 3).2 ⟨by decide, by decide, ?_⟩,
    (h.2.2 2 2 (by decide) _ 3).2 ⟨by decide, by decide, ?_⟩⟩
  · intro j hle hlt
    obtain rfl | rfl : j = 2 ∨ j = 3 := by omega
    · exact ⟨1 / 5, rfl, by norm_num [RetransmissionSpikeSignature.Crosses, retransRateThreshold]⟩
    · exact ⟨3 / 10, rfl, by norm_num [RetransmissionSpikeSignature.Crosses, retransRateThreshold]⟩
  · -- the tick before did not cross the line
    obtain ⟨rate, hrate, hcrosses⟩ := ((h.1 2 _ 2).1 hfires).2.2 1 (by decide) (by decide)
    cases hrate
    norm_num [RetransmissionSpikeSignature.Crosses, retransRateThreshold] at hcrosses
  · intro j hle hlt
    obtain rfl | rfl | rfl : j = 1 ∨ j = 2 ∨ j = 3 := by omega
    all_goals
      exact ⟨_, rfl, by norm_num [BandwidthExfiltrationSignature.Crosses, exfilUploadBpsThreshold]⟩
  · intro j hle hlt
    have hwindow : ∀ x : ℚ,
        x ∈ ([(20 : ℚ), 20, 120, 20].take (j + 1)).rtake 2 ↔ x = 20 ∨ x = 120 := by
      intro x
      obtain rfl | rfl : j = 2 ∨ j = 3 := by omega
      · simp [List.rtake]
      · simp [List.rtake, or_comm]
    simp only [MitMLatencySignature.Jittery, hwindow]
    refine ⟨?_, 120, 20, ⟨.inr rfl, ?_⟩, ⟨.inl rfl, ?_⟩, by norm_num [mitmJitterMsThreshold]⟩
    · simp
      omega
    · rintro x (rfl | rfl) <;> norm_num
    · rintro x (rfl | rfl) <;> norm_num

/-! ## A clean step change -/

/-- `a` for `m` ticks, then `b` for `n` ticks. -/
def stepChange (a b : R) (m n : Nat) : List R := List.replicate m a ++ List.replicate n b

omit [Field R] [LinearOrder R] in
theorem stepChange_getElem?_eq_some_iff {a b : R} {m n i : Nat} {x : R} :
    (stepChange a b m n)[i]? = some x ↔ (i < m ∧ x = a) ∨ (m ≤ i ∧ i < m + n ∧ x = b) := by
  rw [stepChange, List.getElem?_append, List.length_replicate]
  split
  · rename_i hlt
    rw [List.getElem?_replicate_of_lt hlt]
    simp [hlt, eq_comm]
  · rename_i hle
    rw [List.getElem?_replicate]
    split
    · rename_i hlt
      simp [hle, eq_comm, not_lt.1 hle, show i < m + n by omega]
    · simp [hle, show ¬ i < m + n by omega]

namespace MitMLatencySignature

/-- The default detector reports nothing on these latencies. -/
def Quiet (latencies : List R) : Prop := ∀ t, ¬ AnomalousAt (outputs update defaultMitM latencies) t

/-- A window is jittery when two of its latencies lie the threshold or more apart. -/
theorem jittery_iff_exists_pair [IsStrictOrderedRing R] {w : Nat} {latencies : List R} :
    Jittery w latencies ↔ w ≤ latencies.length ∧
      ∃ x ∈ latencies.rtake w, ∃ y ∈ latencies.rtake w, mitmJitterMsThreshold ≤ x - y := by
  refine and_congr_right fun hseen => ?_
  constructor
  · rintro ⟨hi, lo, hhi, hlo, hle⟩
    exact ⟨hi, hhi.1, lo, hlo.1, hle⟩
  · rintro ⟨x, hx, y, hy, hle⟩
    have hne : latencies.rtake w ≠ [] := List.ne_nil_of_mem hx
    refine ⟨(latencies.rtake w).max hne, (latencies.rtake w).min hne, ⟨List.max_mem hne, ?_⟩,
      ⟨List.min_mem hne, ?_⟩, ?_⟩
    · intro z hz
      exact List.le_max_of_mem hz
    · intro z hz
      exact List.min_le_of_mem hz
    · exact hle.trans (sub_le_sub (List.le_max_of_mem hx) (List.min_le_of_mem hy))

/-- The window of three that ends at tick `j` holds both sides of the step, far enough apart. -/
theorem jittery_stepChange_iff [IsStrictOrderedRing R] {a b : R} {m n j : Nat} (hj : j < m + n) :
    Jittery 3 ((stepChange a b m n).take (j + 1)) ↔
      mitmJitterMsThreshold ≤ |b - a| ∧ 2 ≤ j ∧ j < m + 2 ∧ m ≤ j := by
  have hlength : (stepChange a b m n).length = m + n := by simp [stepChange]
  have hlt : j < (stepChange a b m n).length := hj.trans_eq hlength.symm
  have hthreshold : (0 : R) < mitmJitterMsThreshold := by norm_num [mitmJitterMsThreshold]
  rw [jittery_iff_exists_pair, List.length_take, Nat.min_eq_left hlt]
  simp only [Deque.mem_rtake_take_iff hlt, stepChange_getElem?_eq_some_iff]
  constructor
  · rintro ⟨hfull, x, ⟨i, hij, hi, hx⟩, y, ⟨i', hij', hi', hy⟩, hle⟩
    -- two latencies of one side do not differ
    have hsame : ∀ z : R, ¬ mitmJitterMsThreshold ≤ z - z := by
      intro z
      rw [sub_self]
      exact not_le.2 hthreshold
    rcases hx with ⟨him, rfl⟩ | ⟨hmi, _, rfl⟩ <;> rcases hy with ⟨him', rfl⟩ | ⟨hmi', _, rfl⟩
    · exact absurd hle (hsame _)
    · refine ⟨?_, by omega, by omega, by omega⟩
      rw [abs_sub_comm]
      exact hle.trans (le_abs_self _)
    · exact ⟨hle.trans (le_abs_self _), by omega, by omega, by omega⟩
    · exact absurd hle (hsame _)
  · rintro ⟨hfar, htwo, hjm, hmj⟩
    -- the last latency before the step and the first one after it
    have hbefore : ∃ i, i ≤ j ∧ j < i + 3 ∧ ((i < m ∧ a = a) ∨ (m ≤ i ∧ i < m + n ∧ a = b)) :=
      ⟨m - 1, by omega, by omega, .inl ⟨by omega, rfl⟩⟩
    have hafter : ∃ i, i ≤ j ∧ j < i + 3 ∧ ((i < m ∧ b = a) ∨ (m ≤ i ∧ i < m + n ∧ b = b)) :=
      ⟨m, by omega, by omega, .inr ⟨le_refl m, by omega, rfl⟩⟩
    refine ⟨by omega, ?_⟩
    rcases le_abs.1 hfar with hup | hdown
    · exact ⟨b, hafter, a, hbefore, hup⟩
    · rw [neg_sub] at hdown
      exact ⟨a, hbefore, b, hafter, hdown⟩

/-- The default detector never reports a step change below the threshold or one that a single tick
stands on either side of, and reports every other. -/
theorem quiet_on_stepChange_iff [IsStrictOrderedRing R] (a b : R) (m n : Nat) :
    Quiet (stepChange a b m n) ↔ |b - a| < mitmJitterMsThreshold ∨ m < 2 ∨ n < 2 := by
  have hlength : (stepChange a b m n).length = m + n := by simp [stepChange]
  have hat (t : Nat) : AnomalousAt (outputs update defaultMitM (stepChange a b m n)) t ↔
      mitmJitterMsThreshold ≤ |b - a| ∧ t = m + 1 ∧ 2 ≤ m ∧ 2 ≤ n := by
    rw [defaultMitM, anomalousAt_iff, hlength, Sustained, mitmWindowTicks, mitmConsecutiveTicks]
    constructor
    · rintro ⟨hlt, hle, hall⟩
      -- both windows hold the step: the one that ends here and the one before
      have hhere := (jittery_stepChange_iff hlt).1 (hall t (by omega) (by omega))
      have hbefore := (jittery_stepChange_iff (by omega)).1 (hall (t - 1) (by omega) (by omega))
      exact ⟨hhere.1, by omega, by omega, by omega⟩
    · rintro ⟨hfar, rfl, hm, hn⟩
      refine ⟨by omega, by omega, ?_⟩
      intro j hj hlt
      exact (jittery_stepChange_iff (by omega)).2 ⟨hfar, by omega, by omega, by omega⟩
  constructor
  · intro hquiet
    have hno := (hat (m + 1)).not.1 (hquiet (m + 1))
    by_contra hfires
    push Not at hfires
    exact hno ⟨hfires.1, rfl, hfires.2.1, hfires.2.2⟩
  · intro hcond t hanomalous
    rcases (hat t).1 hanomalous with ⟨hfar, _, hm, hn⟩
    rcases hcond with hclose | hm' | hn'
    · exact absurd hfar (not_le.2 hclose)
    · omega
    · omega

theorem quiet_on_small_step : Quiet (stepChange (20 : ℚ) 60 5 5) := by
  refine (quiet_on_stepChange_iff 20 60 5 5).2 (.inl ?_)
  norm_num [mitmJitterMsThreshold]

/-- One rise from 20 ms to 150 ms is reported on the second tick after it. -/
theorem not_quiet_on_stepChange : ¬ Quiet (stepChange (20 : ℚ) 150 2 2) := by
  intro hquiet
  exact hquiet 3 ⟨_, rfl, by decide +kernel⟩

end MitMLatencySignature

end Anomaly
end PqcVpn
