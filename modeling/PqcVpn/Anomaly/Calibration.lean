import PqcVpn.Anomaly.Combiner
import PqcVpn.Anomaly.Forest

/-!
# Calibration — what a threat score says

Every detector squashes its metric so that its trigger sits at one half: a score lies in [0, 1], and
an anomalous tick scores at least 1/2.  A streak is no exception, since it ends on the tick it
fires; the combiner's maximum keeps the law because a layer it disregards is disregarded for both.
-/

namespace PqcVpn
namespace Anomaly

open Machine

variable {R : Type} [Field R] [LinearOrder R]

/-- A score in [0, 1], and at least 1/2 on an anomalous tick. -/
structure Reading.Calibrated {D : Type} (r : Reading R D) : Prop where
  nonneg : 0 ≤ r.threatScore
  le_one : r.threatScore ≤ 1
  half_le : r.anomalous = true → 1 / 2 ≤ r.threatScore

/-! ## Squashing -/

variable [IsStrictOrderedRing R]

theorem half_le_clip {x : R} (h : 1 / 2 ≤ x) : 1 / 2 ≤ clip x 0 1 :=
  le_min (h.trans (le_max_left x 0)) (by norm_num)

theorem ratioScore_nonneg (value threshold ceiling : R) : 0 ≤ ratioScore value threshold ceiling := by
  unfold ratioScore
  split
  · exact le_refl 0
  · exact clip_nonneg _

theorem ratioScore_le_one (value threshold ceiling : R) : ratioScore value threshold ceiling ≤ 1 := by
  unfold ratioScore
  split
  · exact zero_le_one
  · exact clip_le_one _

/-- At the trigger the score is one half. -/
theorem half_le_ratioScore {value threshold : R} (hpos : 0 < threshold) (h : threshold ≤ value) :
    1 / 2 ≤ ratioScore value threshold ratioCeiling := by
  -- the ceiling is twice the threshold
  have hceiling : 0 < threshold * ratioCeiling := mul_pos hpos two_pos
  have hratio : 1 / 2 ≤ value / (threshold * ratioCeiling) := by
    calc
      1 / 2 = threshold / (threshold * ratioCeiling) := by
        rw [ratioCeiling, div_mul_cancel_left₀ hpos.ne', one_div]
      _ ≤ value / (threshold * ratioCeiling) := (div_le_div_iff_of_pos_right hceiling).2 h
  rw [ratioScore, if_neg hpos.not_ge]
  exact half_le_clip hratio

/-- A streak long enough ends on a tick that crossed the line. -/
theorem crossed_of_le_extendStreak {k streak : Nat} {crossed : Bool} (hk : 1 ≤ k)
    (h : k ≤ extendStreak streak crossed) : crossed = true := by
  unfold extendStreak at h
  split at h
  · assumption
  · omega

/-! ## The detectors -/

theorem ZScoreBaseline.calibrated_update [HasSqrt R] (b : ZScoreBaseline R) (sample : Metrics R) :
    (b.update sample).1.Calibrated where
  nonneg := clip_nonneg _
  le_one := clip_le_one _
  half_le h := by
    have hz := of_decide_eq_true h
    refine half_le_clip ?_
    rw [div_le_div_iff₀ two_pos (by norm_num [zScoreThreshold])]
    linarith

theorem PortScanSignature.calibrated_update (d : PortScanSignature) (input : PortScanInput) :
    (d.update (R := R) input).1.Calibrated where
  nonneg := le_min (ratioScore_nonneg _ _ _) (ratioScore_nonneg _ _ _)
  le_one := (min_le_left _ _).trans (ratioScore_le_one _ _ _)
  half_le h := by
    rcases of_decide_eq_true h with ⟨hports, hratio⟩
    refine le_min (half_le_ratioScore ?_ ?_) (half_le_ratioScore ?_ hratio)
    · norm_num [portScanDistinctPorts]
    · exact_mod_cast hports
    · norm_num [portScanFailureRatio]

theorem RetransmissionSpikeSignature.calibrated_update {d : RetransmissionSpikeSignature}
    (hk : 1 ≤ d.consecutiveTicks) (retransmitRate : R) : (d.update retransmitRate).1.Calibrated where
  nonneg := ratioScore_nonneg _ _ _
  le_one := ratioScore_le_one _ _ _
  half_le h := by
    -- the streak that fires includes this tick, so this tick crossed the line
    have hcrossed := of_decide_eq_true (crossed_of_le_extendStreak hk (of_decide_eq_true h))
    exact half_le_ratioScore (by norm_num [retransRateThreshold]) hcrossed

theorem MitMLatencySignature.calibrated_update {d : MitMLatencySignature R}
    (hk : 1 ≤ d.consecutiveTicks) (latencyMs : R) : (d.update latencyMs).1.Calibrated where
  nonneg := ratioScore_nonneg _ _ _
  le_one := ratioScore_le_one _ _ _
  half_le h := by
    have hcrossed := crossed_of_le_extendStreak hk (of_decide_eq_true h)
    rw [Bool.and_eq_true, decide_eq_true_eq, decide_eq_true_eq] at hcrossed
    exact half_le_ratioScore (by norm_num [mitmJitterMsThreshold]) hcrossed.2

theorem BandwidthExfiltrationSignature.calibrated_update {d : BandwidthExfiltrationSignature}
    (hk : 1 ≤ d.consecutiveTicks) (input : ExfiltrationInput R) :
    (d.update input).1.Calibrated where
  nonneg := le_min (ratioScore_nonneg _ _ _) (ratioScore_nonneg _ _ _)
  le_one := (min_le_left _ _).trans (ratioScore_le_one _ _ _)
  half_le h := by
    have hcrossed := crossed_of_le_extendStreak hk (of_decide_eq_true h)
    rcases of_decide_eq_true hcrossed with ⟨hupload, hratio⟩
    exact le_min (half_le_ratioScore (by norm_num [exfilUploadBpsThreshold]) hupload)
      (half_le_ratioScore (by norm_num [exfilUploadDownloadRatio]) hratio)

theorem DNSServerChangeSignature.calibrated_update (d : DNSServerChangeSignature)
    (dnsServer : String) : (d.update (R := R) dnsServer).1.Calibrated := by
  have hscore : (d.update (R := R) dnsServer).1.threatScore =
      if (d.update (R := R) dnsServer).1.anomalous = true then 1 else 0 := rfl
  by_cases h : (d.update (R := R) dnsServer).1.anomalous = true
  · rw [if_pos h] at hscore
    exact ⟨by rw [hscore]; exact zero_le_one, hscore.le, fun _ => by rw [hscore]; norm_num⟩
  · rw [if_neg h] at hscore
    exact ⟨hscore.ge, by rw [hscore]; exact zero_le_one, fun h' => absurd h' h⟩

theorem IsolationForestLayer.calibrated_update {l : IsolationForestLayer R}
    (hspan : l.scoreMedian < l.scoreThreshold) (features : Option (Features R)) :
    ∃ r, l.update features = some (r, l) ∧ r.Calibrated := by
  cases features with
  | none => exact ⟨_, rfl, le_refl 0, zero_le_one, fun h => by cases h⟩
  | some f =>
      -- the score is linear between the median and the threshold, one half at the latter
      have hpos : 0 < 2 * (l.scoreThreshold - l.scoreMedian) := mul_pos two_pos (sub_pos.2 hspan)
      refine ⟨_, update_some_eq_some_iff.2 ⟨hpos.ne', rfl⟩, clip_nonneg _, clip_le_one _, ?_⟩
      intro h
      have hraw := of_decide_eq_true h
      refine half_le_clip ?_
      rw [div_le_div_iff₀ two_pos hpos]
      linarith

/-! ## The combiner -/

omit [Field R] [LinearOrder R] [IsStrictOrderedRing R] in
theorem LayerReadings.mem_values_iff {layers : LayerReadings R} {l : Reading R Unit} :
    l ∈ layers.values ↔ l = layers.layer1.summary ∨
      ∃ l2, layers.layer2 = some l2 ∧ (l = l2.portScan.summary ∨ l = l2.retransmission.summary ∨
        l = l2.mitmLatency.summary ∨ l = l2.exfiltration.summary ∨ l = l2.dnsChange.summary) := by
  unfold LayerReadings.values
  cases layers.layer2 <;> simp

/-- If every layer that ran is calibrated, so is their combination. -/
theorem Combines.calibrated {r : Reading R (CombinerDetail R)} (h : Combines r)
    (hlayers : ∀ l ∈ r.detail.layers.values, l.Calibrated) : r.Calibrated := by
  by_cases hready : ∃ l ∈ r.detail.layers.values, l.ready = true
  · have hgreatest := h.threatScore hready
    rcases hgreatest.1 with ⟨l, hl, _, hscore⟩
    refine ⟨hscore ▸ (hlayers l hl).nonneg, hscore ▸ (hlayers l hl).le_one, ?_⟩
    intro hanomalous
    -- the layer that fired is ready, so its score counts
    rcases h.anomalous.1 hanomalous with ⟨l', hl', hready', hfired⟩
    exact ((hlayers l' hl').half_le hfired).trans (hgreatest.2 ⟨l', hl', hready', rfl⟩)
  · push Not at hready
    rcases h.noneReady fun l hl => Bool.eq_false_iff.2 (hready l hl) with ⟨hscore, hanomalous⟩
    refine ⟨hscore.ge, by rw [hscore]; exact zero_le_one, ?_⟩
    intro h'
    rw [hanomalous] at h'
    cases h'

omit [IsStrictOrderedRing R] in
theorem Reading.Calibrated.summary {D : Type} {r : Reading R D} (h : r.Calibrated) :
    r.summary.Calibrated :=
  ⟨h.nonneg, h.le_one, h.half_le⟩

/-! ## Runs -/

/-- Whatever it is fed from state `s` on, the detector's readings are calibrated. -/
def CalibratedFrom {σ ι D : Type} (step : σ → ι → Reading R D × σ) (s : σ) : Prop :=
  ∀ inputs, ∀ r ∈ outputs step s inputs, r.Calibrated

omit [IsStrictOrderedRing R] in
/-- The combiner's copy of a detector answers as the detector would on its own. -/
theorem CalibratedFrom.answer [HasSqrt R] {σ ι D : Type} {step : σ → ι → Reading R D × σ}
    {active : Tick R → Bool} {view : AnomalyCombiner R → σ} {input : Tick R → ι}
    {answer : Reading R (CombinerDetail R) → Option (Reading R D)} {c : AnomalyCombiner R}
    (h : CalibratedFrom step (view c))
    (hcomponent : Component AnomalyCombiner.update step active view input answer)
    {ticks : List (Tick R)} {o : Reading R (CombinerDetail R)} {r : Reading R D}
    (ho : o ∈ outputs AnomalyCombiner.update c ticks) (hr : answer o = some r) :
    r.summary.Calibrated :=
  (h _ r (hcomponent.mem_answers ho hr)).summary

omit [IsStrictOrderedRing R] in
/-- A detector whose every reading is calibrated, whatever its state. -/
theorem calibratedFrom_of_forall {σ ι D : Type} {step : σ → ι → Reading R D × σ}
    (h : ∀ s i, (step s i).1.Calibrated) (s : σ) : CalibratedFrom step s :=
  forall_outputs_of_forall h s

theorem RetransmissionSpikeSignature.calibratedFrom_new {k : Nat} (hk : 1 ≤ k) :
    CalibratedFrom (update (R := R)) (.new k) :=
  forall_outputs (I := fun d => 1 ≤ d.consecutiveTicks)
    (fun _ _ hd => ⟨calibrated_update hd _, hd⟩) hk

theorem MitMLatencySignature.calibratedFrom_new {w k : Nat} (hw : 0 < w) (hk : 1 ≤ k) :
    CalibratedFrom (update (R := R)) (.new w k hw) :=
  forall_outputs (I := fun d => 1 ≤ d.consecutiveTicks)
    (fun _ _ hd => ⟨calibrated_update hd _, hd⟩) hk

theorem BandwidthExfiltrationSignature.calibratedFrom_new {k : Nat} (hk : 1 ≤ k) :
    CalibratedFrom (update (R := R)) (.new k) :=
  forall_outputs (I := fun d => 1 ≤ d.consecutiveTicks)
    (fun _ _ hd => ⟨calibrated_update hd _, hd⟩) hk

theorem IsolationForestLayer.calibrated_outputs {l : IsolationForestLayer R}
    (hspan : l.scoreMedian < l.scoreThreshold) (ticks : List (Option (Features R))) :
    ∃ readings, tryOutputs update l ticks = some readings ∧ readings.length = ticks.length ∧
      ∀ r ∈ readings, r.Calibrated :=
  exists_tryOutputs (I := fun l => l.scoreMedian < l.scoreThreshold)
    (fun l features hl => by
      obtain ⟨r, hr, hcalibrated⟩ := calibrated_update hl features
      exact ⟨_, hr, hcalibrated, hl⟩) hspan ticks

theorem AnomalyCombiner.calibratedFrom_new [HasSqrt R] (window : Nat) :
    CalibratedFrom (update (R := R)) (.new window) := by
  intro ticks r hr
  refine (combines_outputs _ ticks r hr).calibrated ?_
  intro l hl
  -- each layer's reading is one its detector gives on its own
  rcases LayerReadings.mem_values_iff.1 hl with rfl | ⟨l2, hl2, rfl | rfl | rfl | rfl | rfl⟩
  · exact (calibratedFrom_of_forall ZScoreBaseline.calibrated_update _).answer
      layer1_component hr rfl
  · exact (calibratedFrom_of_forall PortScanSignature.calibrated_update _).answer
      portScan_component hr (by rw [hl2]; rfl)
  · exact (RetransmissionSpikeSignature.calibratedFrom_new (by decide)).answer
      retransmission_component hr (by rw [hl2]; rfl)
  · exact (MitMLatencySignature.calibratedFrom_new _ (by decide)).answer
      mitmLatency_component hr (by rw [hl2]; rfl)
  · exact (BandwidthExfiltrationSignature.calibratedFrom_new (by decide)).answer
      exfiltration_component hr (by rw [hl2]; rfl)
  · exact (calibratedFrom_of_forall DNSServerChangeSignature.calibrated_update _).answer
      dnsChange_component hr (by rw [hl2]; rfl)

/-- Every detector and the combiner, over every run. -/
theorem every_threat_score_is_calibrated [HasSqrt R] :
    (∀ window, CalibratedFrom (ZScoreBaseline.update (R := R)) (.new window)) ∧
      CalibratedFrom (PortScanSignature.update (R := R)) .new ∧
      (∀ k, 1 ≤ k → CalibratedFrom (RetransmissionSpikeSignature.update (R := R)) (.new k)) ∧
      (∀ w k, (hw : 0 < w) → 1 ≤ k →
        CalibratedFrom (MitMLatencySignature.update (R := R)) (.new w k hw)) ∧
      (∀ k, 1 ≤ k → CalibratedFrom (BandwidthExfiltrationSignature.update (R := R)) (.new k)) ∧
      (∀ expected, CalibratedFrom (DNSServerChangeSignature.update (R := R)) (.new expected)) ∧
      (∀ scoreSamples (calibration : Calibration R) l,
        IsolationForestLayer.new scoreSamples calibration = .ok l →
        calibration.scoreMedian < calibration.scoreThreshold →
        ∀ ticks, ∃ readings, tryOutputs IsolationForestLayer.update l ticks = some readings ∧
          readings.length = ticks.length ∧ ∀ r ∈ readings, r.Calibrated) ∧
      ∀ window, CalibratedFrom (AnomalyCombiner.update (R := R)) (.new window) := by
  refine ⟨fun window => calibratedFrom_of_forall ZScoreBaseline.calibrated_update _,
    calibratedFrom_of_forall PortScanSignature.calibrated_update _,
    fun _ => RetransmissionSpikeSignature.calibratedFrom_new,
    fun _ _ => MitMLatencySignature.calibratedFrom_new,
    fun _ => BandwidthExfiltrationSignature.calibratedFrom_new,
    fun expected => calibratedFrom_of_forall DNSServerChangeSignature.calibrated_update _, ?_,
    AnomalyCombiner.calibratedFrom_new⟩
  intro scoreSamples calibration l hnew hspan
  rcases IsolationForestLayer.new_eq_ok_iff.1 hnew with ⟨_, rfl⟩
  exact IsolationForestLayer.calibrated_outputs hspan

/-- A streak of retransmissions that breaks off and starts again; a forest that scores a row by its
first feature; a combiner whose second tick has no CPU to spare for the port scan it sees. -/
theorem alarms_score_half :
    (∃ r ∈ outputs RetransmissionSpikeSignature.update (.new 3)
        [(1 / 5 : ℚ), 3 / 10, 0, 1 / 5, 1 / 5, 1 / 4],
      r.anomalous = true ∧ 1 / 2 ≤ r.threatScore ∧ r.threatScore ≤ 1) ∧
    (∃ readings, tryOutputs IsolationForestLayer.update ⟨fun row => -row.headD 0, 1 / 2, 3 / 5⟩
          [none, some ⟨(11 / 20 : ℚ), 0, 0, 0, 0, 0⟩, some ⟨7 / 10, 0, 0, 0, 0, 0⟩] = some readings ∧
        readings.length = 3 ∧ ∀ r ∈ readings, r.Calibrated) ∧
    ∃ r ∈ outputs AnomalyCombiner.update (.new 2)
        [⟨(1 / 10 : ℚ), ⟨20, 50, 0⟩, ⟨3, 3, 0⟩, 0, 20, ⟨0, 0⟩, "10.8.0.1"⟩,
          ⟨9 / 10, ⟨21, 51, 0⟩, ⟨40, 40, 39⟩, 0, 21, ⟨0, 0⟩, "10.8.0.1"⟩,
          ⟨1 / 10, ⟨20, 50, 0⟩, ⟨40, 40, 39⟩, 0, 20, ⟨0, 0⟩, "10.8.0.1"⟩],
      r.anomalous = true ∧ 1 / 2 ≤ r.threatScore ∧ r.threatScore ≤ 1 := by
  have hcalibrated := every_threat_score_is_calibrated (R := ℚ)
  refine ⟨?_, ?_, ?_⟩
  · obtain ⟨r, hr, hfired⟩ := List.any_eq_true.1 (show (outputs RetransmissionSpikeSignature.update
      (.new 3) [(1 / 5 : ℚ), 3 / 10, 0, 1 / 5, 1 / 5, 1 / 4]).any Reading.anomalous = true by
        decide +kernel)
    have h := hcalibrated.2.2.1 3 (by decide) _ r hr
    exact ⟨r, hr, hfired, h.half_le hfired, h.le_one⟩
  · exact hcalibrated.2.2.2.2.2.2.1 (fun row => -row.headD 0) ⟨layer3Features, 1 / 2, 3 / 5⟩ _ rfl
      (by norm_num) _
  · obtain ⟨r, hr, hfired⟩ := List.any_eq_true.1 (show (outputs AnomalyCombiner.update (.new 2)
        [⟨(1 / 10 : ℚ), ⟨20, 50, 0⟩, ⟨3, 3, 0⟩, 0, 20, ⟨0, 0⟩, "10.8.0.1"⟩,
          ⟨9 / 10, ⟨21, 51, 0⟩, ⟨40, 40, 39⟩, 0, 21, ⟨0, 0⟩, "10.8.0.1"⟩,
          ⟨1 / 10, ⟨20, 50, 0⟩, ⟨40, 40, 39⟩, 0, 20, ⟨0, 0⟩, "10.8.0.1"⟩]).any
        Reading.anomalous = true by decide +kernel)
    have h := hcalibrated.2.2.2.2.2.2.2 2 _ r hr
    exact ⟨r, hr, hfired, h.half_le hfired, h.le_one⟩

end Anomaly
end PqcVpn
