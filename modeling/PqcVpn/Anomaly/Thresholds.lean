import PqcVpn.Anomaly.Calibration
import PqcVpn.Anomaly.SimulatedTicks
import PqcVpn.Lib.Quantile

/-!
# Thresholds — how Layer 3 is calibrated

`calibrate_and_measure` of `client/rl_agent/train_isolation_forest.py`: the two reference scores are a
median and a quantile of the scores of held-out benign ticks, and the rates it reports are those the
layer that is loaded with them alarms at, if the two differ.  The forest is any function of a row.
-/

namespace PqcVpn
namespace Anomaly

open Quantile (rank quantile median)

variable {R G : Type} [Field R] [LinearOrder R] [HasSqrt R] [HasLog10 R]

/-! ## Measuring -/

/-- A matrix for each profile, drawn one after another. -/
def featureMatrices (gen : TickRng G R) (nTicks fuel : Nat) :
    List (String × Profile R) → G →
      Except ArrayError (Option (List (String × List (Features R)) × G))
  | [], rng => .ok (some ([], rng))
  | (name, profile) :: profiles, rng => do
      match ← featureMatrix gen profile nTicks fuel [] rng with
      | none => return none
      | some (rows, rng) =>
          match ← featureMatrices gen nTicks fuel profiles rng with
          | none => return none
          | some (matrices, rng) => return some ((name, rows) :: matrices, rng)

def heldoutTicksPerProfile : Nat := 400

def attackTicksPerMix : Nat := 400

def thresholdQuantile : ℚ := 0.995

/-- What `calibrate_and_measure` returns. -/
structure Measured (R : Type) where
  scoreMedian : R
  scoreThreshold : R
  thresholdQuantile : ℚ
  benignFalsePositiveRate : List (String × R)
  attackDetectionRate : List (String × R)

omit [HasSqrt R] [HasLog10 R] in
def flagRate (scoreSamples : List R → R) (threshold : R) (x : List (Features R)) : R :=
  mean (x.map fun f => if -scoreSamples f.row ≥ threshold then 1 else 0)

/-- The scores of the rows of all the matrices. -/
def benignScores (scoreSamples : List R → R) (heldout : List (String × List (Features R))) : List R :=
  (heldout.flatMap Prod.snd).map fun f => -scoreSamples f.row

/-- The thresholds and the rates, from the matrices. -/
def measure (scoreSamples : List R → R) (heldout attacks : List (String × List (Features R))) :
    Measured R :=
  let threshold := quantile thresholdQuantile (benignScores scoreSamples heldout)
  { scoreMedian := median (benignScores scoreSamples heldout)
    scoreThreshold := threshold
    thresholdQuantile := thresholdQuantile
    benignFalsePositiveRate := heldout.map fun e => (e.1, flagRate scoreSamples threshold e.2)
    attackDetectionRate := attacks.map fun e => (e.1, flagRate scoreSamples threshold e.2) }

def calibrateAndMeasure (gen : TickRng G R) (scoreSamples : List R → R) (seed fuel : Nat) :
    Except ArrayError (Option (Measured R)) := do
  match ← featureMatrices gen heldoutTicksPerProfile fuel benignProfiles
      (gen.defaultRng (seed + 1)) with
  | none => return none
  | some (heldout, rng) =>
      match ← featureMatrices gen attackTicksPerMix fuel attackMixes rng with
      | none => return none
      | some (attacks, _) => return some (measure scoreSamples heldout attacks)

/-- The calibration file `main` writes. -/
def Measured.calibration (m : Measured R) : Calibration R where
  features := layer3Features
  scoreMedian := m.scoreMedian
  scoreThreshold := m.scoreThreshold

/-! ## The matrices -/

section Matrices

variable [IsStrictOrderedRing R] {gen : TickRng G R}

/-- A matrix of `nTicks` rows in range for each profile, in order. -/
structure Matrices (profiles : List (String × Profile R)) (nTicks : Nat)
    (matrices : List (String × List (Features R))) : Prop where
  names : matrices.map Prod.fst = profiles.map Prod.fst
  length_eq : ∀ e ∈ matrices, e.2.length = nTicks
  within : ∀ e ∈ matrices, ∀ f ∈ e.2, f.Within 40.0 1500.0

variable {nTicks fuel : Nat} {profiles : List (String × Profile R)} {rng : G}

omit [IsStrictOrderedRing R] in
theorem featureMatrices_cons_iff {entry : String × Profile R}
    {r : List (String × List (Features R)) × G} :
    featureMatrices gen nTicks fuel (entry :: profiles) rng = .ok (some r) ↔
      ∃ first rest, featureMatrix gen entry.2 nTicks fuel [] rng = .ok (some first) ∧
        featureMatrices gen nTicks fuel profiles first.2 = .ok (some rest) ∧
        r = ((entry.1, first.1) :: rest.1, rest.2) := by
  simp only [featureMatrices, bind, Except.bind, pure, Except.pure]
  constructor
  · intro h
    split at h
    · cases h
    rename_i first hfirst
    split at h
    · cases h
    split at h
    · cases h
    rename_i rest hrest
    split at h
    · cases h
    cases h
    exact ⟨_, _, hfirst, hrest, rfl⟩
  · rintro ⟨first, rest, hfirst, hrest, rfl⟩
    rw [hfirst]
    dsimp only
    rw [hrest]

theorem matrices_of_featureMatrices [LawfulSqrt R] (hgen : gen.Lawful)
    (hprofiles : ∀ e ∈ profiles, e ∈ (benignProfiles ++ attackMixes : List (String × Profile R)))
    {r : List (String × List (Features R)) × G}
    (h : featureMatrices gen nTicks fuel profiles rng = .ok (some r)) :
    Matrices profiles nTicks r.1 := by
  induction profiles generalizing rng r with
  | nil =>
      cases h
      exact ⟨rfl, (fun _ he => nomatch he), (fun _ he => nomatch he)⟩
  | cons entry profiles ih =>
      rw [List.forall_mem_cons] at hprofiles
      have hrate := positiveRate_of_mem hprofiles.1
      obtain ⟨first, rest, hfirst, hrest, rfl⟩ := featureMatrices_cons_iff.1 h
      obtain ⟨k, _, hlength, _, rfl⟩ :=
        (featureMatrix_eq_some_iff hgen hrate nTicks fuel rng first).1 hfirst
      have htail := ih hprofiles.2 hrest
      refine ⟨congrArg (entry.1 :: ·) htail.names, ?_, ?_⟩
      · rw [List.forall_mem_cons]
        exact ⟨hlength, htail.length_eq⟩
      · rw [List.forall_mem_cons]
        exact ⟨fun f hf => within_of_mem_rowsOf hgen hrate hf, htail.within⟩

theorem exists_featureMatrices (hgen : gen.Lawful)
    (hbusy : ∀ lam rng, layer3MinPackets ≤ (gen.poisson lam rng).1) (hfuel : nTicks ≤ fuel)
    (hprofiles : ∀ e ∈ profiles, e ∈ (benignProfiles ++ attackMixes : List (String × Profile R)))
    (rng : G) : ∃ r, featureMatrices gen nTicks fuel profiles rng = .ok (some r) := by
  induction profiles generalizing rng with
  | nil => exact ⟨_, rfl⟩
  | cons entry profiles ih =>
      rw [List.forall_mem_cons] at hprofiles
      have hrate := positiveRate_of_mem hprofiles.1
      have hrows := length_rowsOf_of_busy hgen hrate hbusy rng
      obtain ⟨rest, hrest⟩ := ih hprofiles.2 (rngAfter gen entry.2 rng nTicks)
      refine ⟨_, featureMatrices_cons_iff.2
        ⟨(rowsOf gen entry.2 rng nTicks, rngAfter gen entry.2 rng nTicks), rest, ?_, hrest, rfl⟩⟩
      refine (featureMatrix_eq_some_iff hgen hrate nTicks fuel rng _).2
        ⟨nTicks, hfuel, hrows nTicks, fun j hj => ?_, rfl⟩
      rw [hrows j]
      exact hj

end Matrices

/-! ## The layer -/

section Layer

omit [HasSqrt R] [HasLog10 R]

/-- How many of the ticks score at least the threshold, which is what `flag_rate` counts. -/
def IsolationForestLayer.flagged (l : IsolationForestLayer R) (rows : List (Features R)) : Nat :=
  rows.countP fun f => l.scoreThreshold ≤ l.rawScore f

/-- How many of the ticks the layer alarms at; where it raises there is no alarm. -/
def IsolationForestLayer.alarms (l : IsolationForestLayer R) (rows : List (Features R)) : Nat :=
  rows.countP fun f => (l.update (some f)).any fun r => r.1.anomalous

theorem flagRate_eq_avg (l : IsolationForestLayer R) (rows : List (Features R)) :
    flagRate l.scoreSamples l.scoreThreshold rows =
      Average.avg (Average.score fun f => decide (l.scoreThreshold ≤ l.rawScore f)) rows := by
  have hscore : ∀ f ∈ rows, (if -l.scoreSamples f.row ≥ l.scoreThreshold then (1 : R) else 0) =
      Average.score (fun f => decide (l.scoreThreshold ≤ l.rawScore f)) f := by
    intro f _
    by_cases hf : l.scoreThreshold ≤ l.rawScore f
    · exact (if_pos hf).trans (if_pos (decide_eq_true hf)).symm
    · exact (if_neg hf).trans (if_neg fun h => hf (of_decide_eq_true h)).symm
  rw [flagRate, mean_eq_avg, Average.avg_map, Average.avg_congr hscore]

theorem flagRate_eq (l : IsolationForestLayer R) (rows : List (Features R)) :
    flagRate l.scoreSamples l.scoreThreshold rows = (l.flagged rows : R) / rows.length := by
  rw [flagRate_eq_avg, Average.avg_score, IsolationForestLayer.flagged]

variable [IsStrictOrderedRing R] {l : IsolationForestLayer R}

theorem clip_eq_zero_iff (x : R) : clip x 0 1 = 0 ↔ x ≤ 0 := by
  constructor
  · intro h
    by_contra hpos
    have hlt : 0 < clip x 0 1 := lt_min (lt_max_of_lt_left (not_le.1 hpos)) zero_lt_one
    exact hlt.ne' h
  · intro h
    rw [clip, max_eq_right h, min_eq_left zero_le_one]

theorem half_le_clip_iff (x : R) : 1 / 2 ≤ clip x 0 1 ↔ 1 / 2 ≤ x := by
  refine ⟨fun h => ?_, half_le_clip⟩
  rcases le_max_iff.1 (h.trans (min_le_left _ _)) with hx | hzero
  · exact hx
  · exact absurd hzero (by norm_num)

/-- Between the two reference scores the threat is linear: zero at the first, one half at the
second. -/
theorem exists_update (hspan : l.scoreMedian < l.scoreThreshold) (f : Features R) :
    ∃ r, l.update (some f) = some (r, l) ∧
      (r.anomalous = true ↔ l.scoreThreshold ≤ l.rawScore f) ∧
      (r.threatScore = 0 ↔ l.rawScore f ≤ l.scoreMedian) ∧
      (1 / 2 ≤ r.threatScore ↔ r.anomalous = true) := by
  have hpos : 0 < 2 * (l.scoreThreshold - l.scoreMedian) := mul_pos two_pos (sub_pos.2 hspan)
  refine ⟨_, IsolationForestLayer.update_some_eq_some_iff.2 ⟨hpos.ne', rfl⟩, decide_eq_true_iff,
    ?_, ?_⟩
  · refine (clip_eq_zero_iff _).trans ?_
    rw [div_le_iff₀ hpos, zero_mul, sub_nonpos]
  · refine (half_le_clip_iff _).trans (Iff.trans ?_ decide_eq_true_iff.symm)
    rw [div_le_div_iff₀ two_pos hpos]
    constructor <;> intro h <;> linarith

/-- A layer that can answer alarms at the ticks that were counted. -/
theorem alarms_eq_flagged (hspan : l.scoreMedian < l.scoreThreshold) (rows : List (Features R)) :
    l.alarms rows = l.flagged rows := by
  refine List.countP_congr fun f _ => ?_
  obtain ⟨r, hr, hanomalous, _⟩ := exists_update hspan f
  rw [hr, Option.any_some, hanomalous, decide_eq_true_iff]

end Layer

/-! ## What a calibrated layer flags -/

section Budget

omit [HasSqrt R] [HasLog10 R]

/-- A layer calibrated on the rows: its reference scores are those of the rows themselves. -/
structure IsolationForestLayer.CalibratedOn (l : IsolationForestLayer R) (rows : List (Features R)) :
    Prop where
  length_eq : rows.length = 2000
  median_eq : l.scoreMedian = median (rows.map l.rawScore)
  threshold_eq : l.scoreThreshold = quantile thresholdQuantile (rows.map l.rawScore)

section Positions

variable {n : Nat} (h : n = 2000)

include h

theorem floor_median_position : ⌊(1 / 2 : ℚ) * ((n : ℚ) - 1)⌋₊ = 999 := by
  rw [h, Nat.floor_eq_iff (by norm_num)]
  norm_num

theorem floor_threshold_position : ⌊thresholdQuantile * ((n : ℚ) - 1)⌋₊ = 1989 := by
  rw [h, Nat.floor_eq_iff (by norm_num [thresholdQuantile])]
  norm_num [thresholdQuantile]

theorem ceil_threshold_position : ⌈thresholdQuantile * ((n : ℚ) - 1)⌉₊ = 1990 := by
  rw [h, Nat.ceil_eq_iff (by norm_num)]
  norm_num [thresholdQuantile]

end Positions

variable [IsStrictOrderedRing R] {l : IsolationForestLayer R} {rows : List (Features R)}

namespace IsolationForestLayer.CalibratedOn

variable (h : l.CalibratedOn rows)

include h

omit [IsStrictOrderedRing R] in
theorem length_scores : (rows.map l.rawScore).length = 2000 := by
  rw [List.length_map, h.length_eq]

omit [IsStrictOrderedRing R] in
theorem scores_ne_nil : rows.map l.rawScore ≠ [] := by
  refine List.ne_nil_of_length_pos ?_
  rw [h.length_scores]
  decide

omit [IsStrictOrderedRing R] in
theorem flagged_eq : l.flagged rows =
    (rows.map l.rawScore).countP fun x => quantile thresholdQuantile (rows.map l.rawScore) ≤ x := by
  rw [flagged, List.countP_map, ← h.threshold_eq]
  rfl

theorem median_le_threshold : l.scoreMedian ≤ l.scoreThreshold := by
  rw [h.median_eq, h.threshold_eq, Quantile.median_eq_quantile h.scores_ne_nil]
  exact Quantile.quantile_mono (by norm_num) (by norm_num [thresholdQuantile]) h.scores_ne_nil

theorem median_lt_threshold_iff : l.scoreMedian < l.scoreThreshold ↔
    rank (rows.map l.rawScore) 999 < rank (rows.map l.rawScore) 1990 := by
  have htwo : 2 ≤ (rows.map l.rawScore).length := by
    rw [h.length_scores]
    decide
  rw [h.median_eq, h.threshold_eq, Quantile.median_eq_quantile h.scores_ne_nil,
    Quantile.quantile_lt_iff (by norm_num) (by norm_num [thresholdQuantile]) htwo,
    floor_median_position h.length_scores, ceil_threshold_position h.length_scores]

theorem ten_le_flagged : 10 ≤ l.flagged rows := by
  have hcount := Quantile.le_countP_quantile_le (q := thresholdQuantile)
    (by norm_num [thresholdQuantile]) (by norm_num [thresholdQuantile]) h.scores_ne_nil
  rw [ceil_threshold_position h.length_scores, h.length_scores] at hcount
  rw [h.flagged_eq]
  exact hcount

theorem flagged_eq_ten_iff : l.flagged rows = 10 ↔
    rank (rows.map l.rawScore) 1989 < rank (rows.map l.rawScore) 1990 := by
  have hiff := Quantile.countP_quantile_le_eq_iff (q := thresholdQuantile)
    (by norm_num [thresholdQuantile]) (by norm_num [thresholdQuantile]) h.scores_ne_nil
    (by rw [floor_threshold_position h.length_scores, ceil_threshold_position h.length_scores]
        decide)
  rw [floor_threshold_position h.length_scores, ceil_threshold_position h.length_scores,
    h.length_scores] at hiff
  rw [h.flagged_eq]
  exact hiff

theorem countP_above_le_ten : rows.countP (fun f => l.scoreThreshold < l.rawScore f) ≤ 10 := by
  have hcount := Quantile.countP_quantile_lt (q := thresholdQuantile)
    (by norm_num [thresholdQuantile]) (by norm_num [thresholdQuantile]) h.scores_ne_nil
  rw [floor_threshold_position h.length_scores, h.length_scores, ← h.threshold_eq,
    List.countP_map] at hcount
  exact hcount

theorem thousand_le_countP_below : 1000 ≤ rows.countP (fun f => l.rawScore f ≤ l.scoreMedian) := by
  have hcount := Quantile.le_countP_le_quantile (q := (1 / 2 : ℚ)) (by norm_num) (by norm_num)
    h.scores_ne_nil
  rw [floor_median_position h.length_scores, ← Quantile.median_eq_quantile h.scores_ne_nil,
    ← h.median_eq, List.countP_map] at hcount
  exact hcount

end IsolationForestLayer.CalibratedOn

end Budget

/-! ## Calibration -/

section Calibrated

omit [HasSqrt R] [HasLog10 R]

variable {profiles : List (String × Profile R)} {heldout : List (String × List (Features R))}

theorem exists_calibrated_layer (hfive : profiles.length = 5)
    (hheldout : Matrices profiles heldoutTicksPerProfile heldout) (scoreSamples : List R → R)
    (attacks : List (String × List (Features R))) :
    ∃ l, IsolationForestLayer.new scoreSamples (measure scoreSamples heldout attacks).calibration =
        .ok l ∧ l.scoreSamples = scoreSamples ∧
      l.scoreThreshold = (measure scoreSamples heldout attacks).scoreThreshold ∧
      l.CalibratedOn (heldout.flatMap Prod.snd) := by
  refine ⟨_, IsolationForestLayer.new_eq_ok_iff.2 ⟨rfl, rfl⟩, rfl, rfl, ?_, rfl, rfl⟩
  have hmatrices : heldout.length = 5 := by
    rw [← hfive, ← List.length_map Prod.fst, hheldout.names, List.length_map]
  rw [List.length_flatMap, List.map_congr_left hheldout.length_eq, List.map_const',
    List.sum_replicate, hmatrices]
  rfl

/-- The profiles weigh the same, so the mean of their rates is the rate over all held-out ticks. -/
theorem avg_flagRate {nTicks : Nat} (hheldout : Matrices profiles nTicks heldout)
    (l : IsolationForestLayer R) :
    Average.avg Prod.snd
        (heldout.map fun e => (e.1, flagRate l.scoreSamples l.scoreThreshold e.2)) =
      (l.flagged (heldout.flatMap Prod.snd) : R) / (heldout.flatMap Prod.snd).length := by
  have hlength : ∀ rows ∈ heldout.map Prod.snd, rows.length = nTicks := by
    intro rows hrows
    obtain ⟨e, he, rfl⟩ := List.mem_map.1 hrows
    exact hheldout.length_eq e he
  have hrates : ∀ e ∈ heldout, flagRate l.scoreSamples l.scoreThreshold e.2 =
      Average.avg (Average.score fun f => decide (l.scoreThreshold ≤ l.rawScore f)) e.2 :=
    fun e _ => flagRate_eq_avg l e.2
  rw [Average.avg_map, Average.avg_congr hrates, ← Average.avg_map _ Prod.snd heldout,
    Average.avg_avg hlength, ← List.flatMap_def, Average.avg_score, IsolationForestLayer.flagged]

end Calibrated

section Measured

variable [IsStrictOrderedRing R] {gen : TickRng G R}

omit [IsStrictOrderedRing R] in
theorem calibrateAndMeasure_eq_some_iff {scoreSamples : List R → R} {seed fuel : Nat}
    {m : Measured R} : calibrateAndMeasure gen scoreSamples seed fuel = .ok (some m) ↔
      ∃ benign attack,
        featureMatrices gen heldoutTicksPerProfile fuel benignProfiles (gen.defaultRng (seed + 1)) =
          .ok (some benign) ∧
        featureMatrices gen attackTicksPerMix fuel attackMixes benign.2 = .ok (some attack) ∧
        m = measure scoreSamples benign.1 attack.1 := by
  simp only [calibrateAndMeasure, bind, Except.bind, pure, Except.pure]
  constructor
  · intro h
    split at h
    · cases h
    rename_i benign hbenign
    split at h
    · cases h
    split at h
    · cases h
    rename_i attack hattack
    split at h
    · cases h
    cases h
    exact ⟨_, _, hbenign, hattack, rfl⟩
  · rintro ⟨benign, attack, hbenign, hattack, rfl⟩
    rw [hbenign]
    dsimp only
    rw [hattack]

/-- Calibration, whatever the forest: the rates reported are the shares of ticks that score at least
the threshold, and over the held-out ticks that is one in two hundred, or more where scores tie at
the threshold, and no more above it.  The median stays below the threshold unless all the scores
between their ranks are one score.  Then the layer loaded with the two answers every tick and alarms
at those that were counted; else it raises on every tick that has features. -/
theorem calibration_of_heldout [LawfulSqrt R] (hgen : gen.Lawful) {scoreSamples : List R → R}
    {seed fuel : Nat} {m : Measured R}
    (h : calibrateAndMeasure gen scoreSamples seed fuel = .ok (some m)) :
    ∃ heldout attacks l,
      Matrices benignProfiles heldoutTicksPerProfile heldout ∧
      Matrices attackMixes attackTicksPerMix attacks ∧
      (∃ rng rng', featureMatrices gen heldoutTicksPerProfile fuel benignProfiles
          (gen.defaultRng (seed + 1)) = .ok (some (heldout, rng)) ∧
        featureMatrices gen attackTicksPerMix fuel attackMixes rng = .ok (some (attacks, rng'))) ∧
      IsolationForestLayer.new scoreSamples m.calibration = .ok l ∧
      m.benignFalsePositiveRate = heldout.map (fun e => (e.1, (l.flagged e.2 : R) / e.2.length)) ∧
      m.attackDetectionRate = attacks.map (fun e => (e.1, (l.flagged e.2 : R) / e.2.length)) ∧
      let rows := heldout.flatMap Prod.snd
      let scores := rows.map l.rawScore
      rows.length = 2000 ∧
      Average.avg Prod.snd m.benignFalsePositiveRate = (l.flagged rows : R) / rows.length ∧
      10 ≤ l.flagged rows ∧
      (l.flagged rows = 10 ↔ rank scores 1989 < rank scores 1990) ∧
      rows.countP (fun f => l.scoreThreshold < l.rawScore f) ≤ 10 ∧
      1000 ≤ rows.countP (fun f => l.rawScore f ≤ l.scoreMedian) ∧
      l.scoreMedian ≤ l.scoreThreshold ∧
      (l.scoreMedian < l.scoreThreshold ↔ rank scores 999 < rank scores 1990) ∧
      (l.scoreMedian < l.scoreThreshold →
        (∀ ticks, l.alarms ticks = l.flagged ticks) ∧
        ∀ f, ∃ r, l.update (some f) = some (r, l) ∧
          (r.anomalous = true ↔ l.scoreThreshold ≤ l.rawScore f) ∧
          (r.threatScore = 0 ↔ l.rawScore f ≤ l.scoreMedian) ∧
          (1 / 2 ≤ r.threatScore ↔ r.anomalous = true)) ∧
      (¬ l.scoreMedian < l.scoreThreshold → ∀ f, l.update (some f) = none) := by
  obtain ⟨⟨heldout, rng⟩, ⟨attacks, rng'⟩, hheldout, hattacks, rfl⟩ :=
    calibrateAndMeasure_eq_some_iff.1 h
  have hbenign : Matrices benignProfiles heldoutTicksPerProfile heldout :=
    matrices_of_featureMatrices hgen (fun _ he => List.mem_append_left _ he) hheldout
  have hattack : Matrices attackMixes attackTicksPerMix attacks :=
    matrices_of_featureMatrices hgen (fun _ he => List.mem_append_right _ he) hattacks
  obtain ⟨l, hl, hscore, hthreshold, hcalibrated⟩ :=
    exists_calibrated_layer rfl hbenign scoreSamples attacks
  have hrates (matrices : List (String × List (Features R))) :
      matrices.map (fun e => (e.1, flagRate scoreSamples
        (measure scoreSamples heldout attacks).scoreThreshold e.2)) =
      matrices.map (fun e => (e.1, (l.flagged e.2 : R) / e.2.length)) := by
    refine List.map_congr_left fun e _ => ?_
    rw [← hthreshold, ← hscore, flagRate_eq]
  refine ⟨heldout, attacks, l, hbenign, hattack, ⟨rng, rng', hheldout, hattacks⟩, hl,
    hrates heldout, hrates attacks, hcalibrated.length_eq, ?_, hcalibrated.ten_le_flagged,
    hcalibrated.flagged_eq_ten_iff, hcalibrated.countP_above_le_ten,
    hcalibrated.thousand_le_countP_below, hcalibrated.median_le_threshold,
    hcalibrated.median_lt_threshold_iff, ?_, ?_⟩
  · rw [← avg_flagRate hbenign l, hscore, hthreshold]
    rfl
  · intro hspan
    exact ⟨alarms_eq_flagged hspan, exists_update hspan⟩
  · intro hspan f
    have heq := le_antisymm hcalibrated.median_le_threshold (not_lt.1 hspan)
    exact IsolationForestLayer.update_eq_none_iff.2 ⟨(fun h => nomatch h), heq⟩

end Measured

/-- A forest that scores a row by its first feature, on the traffic of a steady line. -/
theorem calibration_of_steady_line :
    ∃ m : Measured ℝ, calibrateAndMeasure steadyRng (fun row => row.headD 0) 0 400 = .ok (some m) ∧
      ∃ l, IsolationForestLayer.new (fun row => row.headD 0) m.calibration = .ok l ∧
        l.scoreMedian ≤ l.scoreThreshold := by
  obtain ⟨benign, hbenign⟩ : ∃ r, featureMatrices steadyRng 400 400 benignProfiles 1 =
      .ok (some r) :=
    exists_featureMatrices steadyRng_lawful steadyRng_busy (le_refl 400)
      (fun _ he => List.mem_append_left _ he) 1
  obtain ⟨attack, hattack⟩ : ∃ r, featureMatrices steadyRng 400 400 attackMixes benign.2 =
      .ok (some r) :=
    exists_featureMatrices steadyRng_lawful steadyRng_busy (le_refl 400)
      (fun _ he => List.mem_append_right _ he) benign.2
  have hmeasured : calibrateAndMeasure steadyRng (fun row => row.headD 0) 0 400 =
      .ok (some (measure (fun row => row.headD 0) benign.1 attack.1)) :=
    calibrateAndMeasure_eq_some_iff.2 ⟨benign, attack, hbenign, hattack, rfl⟩
  obtain ⟨_, _, l, _, _, _, hl, _, _, _, _, _, _, _, _, hle, _⟩ :=
    calibration_of_heldout steadyRng_lawful hmeasured
  exact ⟨_, hmeasured, l, hl, hle⟩

end Anomaly
end PqcVpn
