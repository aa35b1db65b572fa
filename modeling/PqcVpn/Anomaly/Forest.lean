import PqcVpn.Anomaly.Baseline

/-!
# Forest — Layer 3 of the anomaly detector

`IsolationForestLayer` of `anomaly_detector.py`.  The trained forest is scikit-learn's and enters as
a function of a feature row; its calibration is data read from the file next to the model.
-/

namespace PqcVpn
namespace Anomaly

variable {R : Type}

/-- `LAYER3_FEATURES`, in the order the model indexes them. -/
def layer3Features : List String :=
  ["out_size_mean", "in_size_mean", "pkt_size_std", "log_pkt_rate", "iat_cv", "upload_share"]

/-- The feature dict of one tick, keyed by `LAYER3_FEATURES`. -/
structure Features (R : Type) where
  outSizeMean : R
  inSizeMean : R
  pktSizeStd : R
  logPktRate : R
  iatCv : R
  uploadShare : R

/-- The model's input row. -/
def Features.row (f : Features R) : List R :=
  [f.outSizeMean, f.inSizeMean, f.pktSizeStd, f.logPktRate, f.iatCv, f.uploadShare]

/-- The calibration file. -/
structure Calibration (R : Type) where
  features : List String
  scoreMedian : R
  scoreThreshold : R

structure IsolationForestLayer (R : Type) where
  /-- `score_samples` of one row. -/
  scoreSamples : List R → R
  scoreMedian : R
  scoreThreshold : R

namespace IsolationForestLayer

/-- The layer over a model and its calibration; the error is the text of the `ValueError`. -/
def new (scoreSamples : List R → R) (calibration : Calibration R) :
    Except String (IsolationForestLayer R) :=
  if calibration.features ≠ layer3Features then
    .error ("calibration feature order does not match LAYER3_FEATURES; " ++
      "retrain with train_isolation_forest.py")
  else
    .ok
      { scoreSamples := scoreSamples
        scoreMedian := calibration.scoreMedian
        scoreThreshold := calibration.scoreThreshold }

theorem new_eq_ok_iff {scoreSamples : List R → R} {calibration : Calibration R}
    {l : IsolationForestLayer R} :
    new scoreSamples calibration = .ok l ↔ calibration.features = layer3Features ∧
      l = ⟨scoreSamples, calibration.scoreMedian, calibration.scoreThreshold⟩ := by
  unfold new
  split
  · rename_i h
    exact iff_of_false (fun h' => by cases h') fun h' => h h'.1
  · rename_i h
    rw [Except.ok.injEq]
    exact ⟨fun h' => ⟨not_not.1 h, h'.symm⟩, fun h' => h'.2.symm⟩

variable [Field R] [LinearOrder R]

/-- Anomaly score, higher is more anomalous. -/
def rawScore (l : IsolationForestLayer R) (features : Features R) : R :=
  -l.scoreSamples features.row

/-- One tick; no features is a tick too sparse to judge.  The answer is `none` where the division by
the span raises `ZeroDivisionError`. -/
def update (l : IsolationForestLayer R) (features : Option (Features R)) :
    Option (Reading R (Option R) × IsolationForestLayer R) :=
  match features with
  | none =>
      some
        ({ anomalous := false
           threatScore := 0
           ready := false
           detail := none }, l)
  | some features =>
      let raw := l.rawScore features
      let span := l.scoreThreshold - l.scoreMedian
      if 2 * span = 0 then none
      else
        let threat := clip ((raw - l.scoreMedian) / (2 * span)) 0 1
        some
          ({ anomalous := decide (raw ≥ l.scoreThreshold)
             threatScore := threat
             ready := true
             detail := some raw }, l)

/-- Only a tick with features can raise, and it does when the two reference scores coincide. -/
theorem update_eq_none_iff [CharZero R] {l : IsolationForestLayer R}
    {features : Option (Features R)} :
    l.update features = none ↔ features ≠ none ∧ l.scoreMedian = l.scoreThreshold := by
  cases features with
  | none => exact iff_of_false (fun h => nomatch h) fun h => h.1 rfl
  | some f =>
      have hspan : 2 * (l.scoreThreshold - l.scoreMedian) = 0 ↔ l.scoreMedian = l.scoreThreshold := by
        rw [mul_eq_zero, or_iff_right two_ne_zero, sub_eq_zero, eq_comm]
      simp [update, hspan]

/-- What a tick with features is answered: the layer stays as it is. -/
theorem update_some_eq_some_iff {l : IsolationForestLayer R} {f : Features R}
    {r : Reading R (Option R) × IsolationForestLayer R} :
    l.update (some f) = some r ↔ 2 * (l.scoreThreshold - l.scoreMedian) ≠ 0 ∧
      r = ({ anomalous := decide (l.rawScore f ≥ l.scoreThreshold)
             threatScore := clip ((l.rawScore f - l.scoreMedian) /
               (2 * (l.scoreThreshold - l.scoreMedian))) 0 1
             ready := true
             detail := some (l.rawScore f) }, l) := by
  simp only [update]
  split
  · rename_i h
    exact iff_of_false (fun h' => nomatch h') fun h' => h'.1 h
  · rename_i h
    rw [Option.some.injEq, eq_comm]
    exact ⟨fun h' => ⟨h, h'⟩, fun h' => h'.2⟩

end IsolationForestLayer

end Anomaly
end PqcVpn
