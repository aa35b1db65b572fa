import Mathlib.Data.List.MinMax
import Mathlib.Data.Rat.Cast.OfScientific
import Mathlib.Order.Defs.LinearOrder

/-!
# Promotion — from a sweep to the shipped model

`train_one` of `client/rl_agent/train.py` scores two checkpoints of a run and keeps the one of
better macro-recall; `summarise` ranks the kept ones that pass the gates, and `main --promote`
installs the first of them.  The gates are applied to what the first stage left, so a checkpoint
that passes them is lost when its own run has another of better macro-recall.
-/

namespace PqcVpn
namespace Policy

variable {R : Type} [Field R] [LinearOrder R]

/-! ## Scores and gates -/

/-- The entries of `score_model` that the selection reads. -/
structure Metrics (R : Type) where
  macroRecall : R
  highNeedAgreement : R
  decisiveness : R
  mlkem1024Share : R

def minDecisiveness : R := 0.60
def mlkem1024ShareRange : R × R := (0.0010, 0.0090)
def minHighNeedAgreement : R := 0.45

def passesGates (m : Metrics R) : Bool :=
  decide (m.decisiveness ≥ minDecisiveness ∧ mlkem1024ShareRange.1 ≤ m.mlkem1024Share ∧
    m.mlkem1024Share ≤ mlkem1024ShareRange.2 ∧ m.highNeedAgreement ≥ minHighNeedAgreement)

/-- The key `summarise` ranks by. -/
def rank (m : Metrics R) : R := m.macroRecall + m.highNeedAgreement

/-! ## One run -/

/-- The files a run leaves behind. -/
inductive Checkpoint
  | bestModel
  | final
  deriving DecidableEq, Repr

/-- A trained run with the scores of its checkpoints; `best_model.zip` may be missing. -/
structure Run (R : Type) where
  runName : String
  best : Option (Metrics R)
  final : Metrics R

/-- The scores of the checkpoints a run left. -/
def Run.scored (run : Run R) : Checkpoint → Option (Metrics R)
  | .bestModel => run.best
  | .final => some run.final

/-- What `train_one` reports of a run. -/
structure Result (R : Type) where
  runName : String
  modelPath : Checkpoint
  metrics : Metrics R
  gatesPass : Bool

def trainOne (run : Run R) : Result R :=
  -- without a saved best model the final one stands in for it
  let bestMetrics := run.best.getD run.final
  let bestPath := if run.best.isSome then Checkpoint.bestModel else .final
  let (metrics, chosenPath) :=
    if run.final.macroRecall > bestMetrics.macroRecall then
      (run.final, Checkpoint.final)
    else
      (bestMetrics, bestPath)
  { runName := run.runName
    modelPath := chosenPath
    metrics := metrics
    gatesPass := passesGates metrics }

/-! ## A sweep -/

/-- The `best_run` of `summarise`; the first wins a tie, and `max` of nothing raises. -/
def summarise (results : List (Result R)) : Option (Result R) :=
  let eligible := results.filter Result.gatesPass
  let pool := if eligible.isEmpty then results else eligible
  pool.argmax fun r => rank r.metrics

/-- What `main --sweep --promote` installs. -/
def promoted (runs : List (Run R)) : Option (Result R) := summarise (runs.map trainOne)

/-! ## What a run keeps -/

/-- The checkpoint that wins the run's own comparison; a tie goes to the best model. -/
def Run.Keeps (run : Run R) : Checkpoint → Prop
  | .bestModel => ∃ b ∈ run.best, run.final.macroRecall ≤ b.macroRecall
  | .final => ∀ b ∈ run.best, b.macroRecall < run.final.macroRecall

theorem trainOne_of_none {run : Run R} (h : run.best = none) :
    (trainOne run).modelPath = .final ∧ (trainOne run).metrics = run.final := by
  simp [trainOne, h]

theorem trainOne_of_lt {run : Run R} {b : Metrics R} (h : run.best = some b)
    (hlt : b.macroRecall < run.final.macroRecall) :
    (trainOne run).modelPath = .final ∧ (trainOne run).metrics = run.final := by
  simp [trainOne, h, hlt]

theorem trainOne_of_le {run : Run R} {b : Metrics R} (h : run.best = some b)
    (hle : run.final.macroRecall ≤ b.macroRecall) :
    (trainOne run).modelPath = .bestModel ∧ (trainOne run).metrics = b := by
  simp [trainOne, h, not_lt.2 hle]

/-- The reported metrics are those of the reported checkpoint. -/
theorem scored_modelPath (run : Run R) :
    run.scored (trainOne run).modelPath = some (trainOne run).metrics := by
  cases hbest : run.best with
  | none =>
      obtain ⟨hpath, hmetrics⟩ := trainOne_of_none hbest
      rw [hpath, hmetrics]
      rfl
  | some b =>
      rcases lt_or_ge b.macroRecall run.final.macroRecall with hlt | hle
      · obtain ⟨hpath, hmetrics⟩ := trainOne_of_lt hbest hlt
        rw [hpath, hmetrics]
        rfl
      · obtain ⟨hpath, hmetrics⟩ := trainOne_of_le hbest hle
        rw [hpath, hmetrics]
        exact hbest

theorem keeps_modelPath (run : Run R) : run.Keeps (trainOne run).modelPath := by
  cases hbest : run.best with
  | none =>
      rw [(trainOne_of_none hbest).1]
      intro b hb
      rw [hbest] at hb
      cases hb
  | some b =>
      rcases lt_or_ge b.macroRecall run.final.macroRecall with hlt | hle
      · rw [(trainOne_of_lt hbest hlt).1]
        intro b' hb'
        rw [hbest] at hb'
        cases hb'
        exact hlt
      · rw [(trainOne_of_le hbest hle).1]
        exact ⟨b, hbest, hle⟩

/-- Only one checkpoint wins. -/
theorem eq_modelPath_of_keeps {run : Run R} {c : Checkpoint} (h : run.Keeps c) :
    c = (trainOne run).modelPath := by
  have hkept := keeps_modelPath run
  cases c with
  | bestModel =>
      obtain ⟨b, hb, hle⟩ := h
      exact (trainOne_of_le hb hle).1.symm
  | final =>
      cases hpath : (trainOne run).modelPath with
      | final => rfl
      | bestModel =>
          rw [hpath] at hkept
          obtain ⟨b, hb, hle⟩ := hkept
          exact absurd (h b hb) (not_lt.2 hle)

/-! ## What a sweep promotes -/

theorem promoted_mem {runs : List (Run R)} {r : Result R} (h : promoted runs = some r) :
    ∃ run ∈ runs, trainOne run = r := by
  unfold promoted summarise at h
  have hpool := List.argmax_mem h
  split at hpool
  · exact List.mem_map.1 hpool
  · exact List.mem_map.1 (List.mem_of_mem_filter hpool)

theorem summarise_of_eligible {results : List (Result R)}
    (h : results.filter Result.gatesPass ≠ []) :
    summarise results = (results.filter Result.gatesPass).argmax fun r => rank r.metrics := by
  have hnonempty := mt List.isEmpty_iff.1 h
  unfold summarise
  dsimp only
  rw [if_neg hnonempty]

/-- Once a kept checkpoint passes, the first of the best among the kept passing ones is promoted. -/
theorem promoted_of_kept_passing {runs : List (Run R)}
    (h : ∃ run ∈ runs, passesGates (trainOne run).metrics = true) :
    ∃ r, promoted runs = some r ∧ passesGates r.metrics = true ∧
      ∀ run ∈ runs, passesGates (trainOne run).metrics = true →
        rank (trainOne run).metrics ≤ rank r.metrics := by
  have hmem : ∀ run ∈ runs, passesGates (trainOne run).metrics = true →
      trainOne run ∈ (runs.map trainOne).filter Result.gatesPass := by
    intro run hrun hpass
    exact List.mem_filter.2 ⟨List.mem_map_of_mem hrun, hpass⟩
  obtain ⟨run, hrun, hpass⟩ := h
  have hne := List.ne_nil_of_mem (hmem run hrun hpass)
  -- the fallback is not taken
  have hpromoted := summarise_of_eligible hne
  have hsome : ((runs.map trainOne).filter Result.gatesPass).argmax (fun r => rank r.metrics) ≠
      none := mt List.argmax_eq_none.1 hne
  obtain ⟨r, hr⟩ := Option.ne_none_iff_exists'.1 hsome
  obtain ⟨hmap, hgates⟩ := List.mem_filter.1 (List.argmax_mem hr)
  obtain ⟨kept, _, rfl⟩ := List.mem_map.1 hmap
  refine ⟨trainOne kept, hpromoted.trans hr, hgates, ?_⟩
  intro run' hrun' hpass'
  exact List.le_of_mem_argmax (f := fun r : Result R => rank r.metrics) (hmem run' hrun' hpass') hr

/-! ## Gates and promotion -/

/-- Some scored checkpoint of the sweep passes the gates with these scores. -/
def PassingScored (runs : List (Run R)) (m : Metrics R) : Prop :=
  passesGates m = true ∧ ∃ run ∈ runs, ∃ c, run.scored c = some m

/-- What promotion is for: the best of all the scored checkpoints that pass, if there is one. -/
def PromotesBestPassing (runs : List (Run R)) : Prop :=
  (∃ m, PassingScored runs m) →
    ∃ r, promoted runs = some r ∧
      (∃ run ∈ runs, r.runName = run.runName ∧ run.scored r.modelPath = some r.metrics) ∧
      passesGates r.metrics = true ∧ ∀ m, PassingScored runs m → rank m ≤ rank r.metrics

/-- A passing checkpoint that loses to the other one of its run is made up for by a passing one
that wins. -/
def LossesMadeUp (runs : List (Run R)) : Prop :=
  ∀ run ∈ runs, ∀ c m, run.scored c = some m → passesGates m = true → ¬ run.Keeps c →
    ∃ run' ∈ runs, ∃ c' m', run'.Keeps c' ∧ run'.scored c' = some m' ∧
      passesGates m' = true ∧ rank m ≤ rank m'

theorem metrics_of_keeps {run : Run R} {c : Checkpoint} {m : Metrics R} (hkeeps : run.Keeps c)
    (hscored : run.scored c = some m) : (trainOne run).metrics = m := by
  rw [eq_modelPath_of_keeps hkeeps, scored_modelPath] at hscored
  exact Option.some.inj hscored

/-- Under the condition every passing checkpoint is bounded by a kept one. -/
theorem LossesMadeUp.kept_of_passing {runs : List (Run R)} (h : LossesMadeUp runs)
    {m : Metrics R} (hm : PassingScored runs m) :
    ∃ run ∈ runs, passesGates (trainOne run).metrics = true ∧
      rank m ≤ rank (trainOne run).metrics := by
  obtain ⟨hpass, run, hrun, c, hscored⟩ := hm
  by_cases hkeeps : run.Keeps c
  · have hmetrics := metrics_of_keeps hkeeps hscored
    refine ⟨run, hrun, ?_, ?_⟩
    · rw [hmetrics]
      exact hpass
    · rw [hmetrics]
  · obtain ⟨run', hrun', c', m', hkeeps', hscored', hpass', hrank⟩ :=
      h run hrun c m hscored hpass hkeeps
    have hmetrics := metrics_of_keeps hkeeps' hscored'
    refine ⟨run', hrun', ?_, ?_⟩
    · rw [hmetrics]
      exact hpass'
    · rw [hmetrics]
      exact hrank

/-- Promotion respects the gates exactly when no passing checkpoint is lost for good inside its own
run, where macro-recall alone decides. -/
theorem promotes_best_passing_iff (runs : List (Run R)) :
    PromotesBestPassing runs ↔ LossesMadeUp runs := by
  constructor
  · intro h run hrun c m hscored hpass _
    obtain ⟨r, hr, _, hgates, hbest⟩ := h ⟨m, hpass, run, hrun, c, hscored⟩
    -- what is promoted was kept by its run
    obtain ⟨run', hrun', rfl⟩ := promoted_mem hr
    exact ⟨run', hrun', (trainOne run').modelPath, (trainOne run').metrics, keeps_modelPath run',
      scored_modelPath run', hgates, hbest m ⟨hpass, run, hrun, c, hscored⟩⟩
  · intro h hsome
    obtain ⟨m, hm⟩ := hsome
    obtain ⟨run, hrun, hpass, _⟩ := h.kept_of_passing hm
    obtain ⟨r, hr, hgates, hbest⟩ := promoted_of_kept_passing ⟨run, hrun, hpass⟩
    refine ⟨r, hr, ?_, hgates, ?_⟩
    · obtain ⟨run', hrun', rfl⟩ := promoted_mem hr
      exact ⟨run', hrun', rfl, scored_modelPath run'⟩
    · intro m' hm'
      obtain ⟨run', hrun', hpass', hrank⟩ := h.kept_of_passing hm'
      exact le_trans hrank (hbest run' hrun' hpass')

/-- The best model passes; the final one has the better macro-recall and fails on high need. -/
def overtakenRun : Run ℚ :=
  { runName := "F_control_s0"
    best := some { macroRecall := 0.80, highNeedAgreement := 0.50, decisiveness := 0.70,
                   mlkem1024Share := 0.004 }
    final := { macroRecall := 0.85, highNeedAgreement := 0.40, decisiveness := 0.70,
               mlkem1024Share := 0.004 } }

theorem not_promotes_overtaken : ¬ PromotesBestPassing [overtakenRun] := by
  intro h
  have hscored : ∃ m, PassingScored [overtakenRun] m :=
    ⟨_, by decide +kernel, overtakenRun, List.mem_singleton_self _, .bestModel, rfl⟩
  obtain ⟨r, hr, _, hgates, _⟩ := h hscored
  obtain ⟨run, hrun, rfl⟩ := promoted_mem hr
  obtain rfl := List.mem_singleton.1 hrun
  have hfails : passesGates (trainOne overtakenRun).metrics = false := by decide +kernel
  rw [hfails] at hgates
  exact Bool.false_ne_true hgates

end Policy
end PqcVpn
