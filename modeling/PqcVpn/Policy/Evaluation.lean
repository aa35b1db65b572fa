import Mathlib.Algebra.BigOperators.Field
import Mathlib.Tactic.FinCases
import PqcVpn.Lib.Average
import PqcVpn.Policy.Environment
import PqcVpn.Policy.Promotion
import PqcVpn.Policy.Sampling

/-!
# Evaluation — how `client/rl_agent/evaluate.py` scores a model

A model is what it answers to a batch: a row of probabilities for each state.  `policy_metrics` and
`high_need_metrics` compare its choices with the oracle's on the evaluation sets, and `score_model`
of `train.py` hands the result to the gates.
-/

namespace PqcVpn
namespace Policy

open Anomaly (mean)
open Average
open Gate (Probs argmax actionCount rekeyActionIndex wireIndex)
open Gate.Python (le_argmax)
open State

variable {R : Type} [Field R] [LinearOrder R]

/-! ## Choices and regret -/

/-- `probs.argmax(axis=1)`. -/
def choose (rows : List (Probs R)) : List (Fin 4) := rows.map fun p => argmax p 0 actionCount

/-- `rewards[idx, chosen]`. -/
def pick (rewards : List (Fin 4 → R)) (chosen : List (Fin 4)) : List R :=
  List.zipWith (fun r a => r a) rewards chosen

def regretBatch (rewards : List (Fin 4 → R)) (chosen : List (Fin 4))
    (best : Option (List (Fin 4))) : List R :=
  List.zipWith (fun b c => b - c) (pick rewards (best.getD (choose rewards))) (pick rewards chosen)

/-- The mean of an array of booleans. -/
def fraction (bs : List Bool) : R := mean (bs.map fun b => if b then 1 else 0)

/-- `chosen == best`. -/
def agrees (chosen best : List (Fin 4)) : List Bool :=
  List.zipWith (fun c b => decide (c = b)) chosen best

/-! ## Metrics -/

/-- What `policy_metrics` returns; the tables by name are tables by action index. -/
structure PolicyMetrics (R : Type) where
  macroRecall : R
  actionRecall : Fin 4 → R
  regret : R
  agreement : R
  decisiveness : R
  mlkem1024Share : R
  mlkem1024Pmax : R
  actionShare : Fin 4 → R

/-- How often the model picks an action where it is the best one; zero where it never is. -/
def recallOf (chosen best : List (Fin 4)) (i : Fin 4) : R :=
  let hits := selectMask chosen (best.map fun b => b = i)
  if best.any fun b => b = i then fraction (hits.map fun c => c = i) else 0

/-- The largest probability of a row. -/
def rowMax (p : Probs R) : R := ((List.finRange 4).map p).foldl max (p 0)

def shareOf (chosen : List (Fin 4)) (i : Fin 4) : R := fraction (chosen.map fun c => c = i)

/-- `none` is the `ValueError` that the largest entry of an empty column raises. -/
def policyMetrics (policyProbs : List (StateVector R) → List (Probs R))
    (uniform balanced : List (StateVector R)) : Option (PolicyMetrics R) :=
  let pu := policyProbs uniform
  let chosenU := choose pu
  let rewardsU := actionRewardsBatch uniform
  let bestU := choose rewardsU
  let pb := policyProbs balanced
  let chosenB := choose pb
  let bestB := optimalActionBatch balanced
  (pu.map fun p => p 2).max?.map fun pmax =>
    { macroRecall := mean ((List.finRange 4).map (recallOf chosenB bestB))
      actionRecall := recallOf chosenB bestB
      regret := mean (regretBatch rewardsU chosenU (some bestU))
      agreement := fraction (agrees chosenU bestU)
      decisiveness := mean (pu.map rowMax)
      mlkem1024Share := shareOf chosenU 2
      mlkem1024Pmax := pmax
      actionShare := shareOf chosenU }

/-- The agreement and the regret on the band of high need. -/
def highNeedMetrics (policyProbs : List (StateVector R) → List (Probs R))
    (highNeed : List (StateVector R)) : R × R :=
  let rewards := actionRewardsBatch highNeed
  let chosen := choose (policyProbs highNeed)
  let best := choose rewards
  (fraction (agrees chosen best), mean (regretBatch rewards chosen (some best)))

/-- The entries of `score_model` the gates and the ranking read. -/
def scoreModel (policyProbs : List (StateVector R) → List (Probs R))
    (uniform balanced highNeed : List (StateVector R)) : Option (Metrics R) :=
  (policyMetrics policyProbs uniform balanced).map fun m =>
    { macroRecall := m.macroRecall
      highNeedAgreement := (highNeedMetrics policyProbs highNeed).1
      decisiveness := m.decisiveness
      mlkem1024Share := m.mlkem1024Share }

/-- The metrics exist unless there is no row to take the largest entry of. -/
theorem policyMetrics_eq_none_iff {policyProbs : List (StateVector R) → List (Probs R)}
    {uniform : List (StateVector R)} (hlength : (policyProbs uniform).length = uniform.length)
    (balanced : List (StateVector R)) :
    policyMetrics policyProbs uniform balanced = none ↔ uniform = [] := by
  simp only [policyMetrics, Option.map_eq_none_iff, List.max?_eq_none_iff, List.map_eq_nil_iff]
  rw [← List.length_eq_zero_iff, hlength, List.length_eq_zero_iff]

/-! ## Metrics as averages -/

/-- The states with the choices made in them. -/
def judged (states : List (StateVector R)) (chosen : List (Fin 4)) :
    List (StateVector R × Fin 4) := states.zip chosen

/-- What a choice gives up. -/
def gap (x : StateVector R × Fin 4) : R :=
  actionReward x.1 (optimalAction x.1) - actionReward x.1 x.2

/-- The choice is the oracle's. -/
def hit (x : StateVector R × Fin 4) : Bool := x.2 = optimalAction x.1

omit [LinearOrder R] in
theorem mean_map {α : Type} (f : α → R) (l : List α) : mean (l.map f) = avg f l := by
  rw [mean, List.length_map]
  rfl

omit [LinearOrder R] in
theorem fraction_map {α : Type} (p : α → Bool) (l : List α) :
    fraction (l.map p) = avg (score p : α → R) l := by
  rw [fraction, List.map_map, mean_map]
  rfl

omit [Field R] [LinearOrder R] in
theorem map_fst_judged {states : List (StateVector R)} {chosen : List (Fin 4)}
    (h : chosen.length = states.length) : (judged states chosen).map Prod.fst = states :=
  List.map_fst_zip (by rw [h])

omit [Field R] [LinearOrder R] in
theorem map_snd_judged {states : List (StateVector R)} {chosen : List (Fin 4)}
    (h : chosen.length = states.length) : (judged states chosen).map Prod.snd = chosen :=
  List.map_snd_zip (by rw [h])

theorem choose_rewards (states : List (StateVector R)) :
    choose (actionRewardsBatch states) = states.map optimalAction :=
  optimalActionBatch_eq_map states

section Judged

variable {states : List (StateVector R)} {chosen : List (Fin 4)}
  (h : chosen.length = states.length)

include h

theorem regret_eq_avg :
    mean (regretBatch (actionRewardsBatch states) chosen
      (some (choose (actionRewardsBatch states)))) = avg gap (judged states chosen) := by
  have hstates := map_fst_judged h
  have hchosen := map_snd_judged h
  generalize judged states chosen = l at hstates hchosen
  subst hstates hchosen
  have hpick : ∀ f : StateVector R × Fin 4 → Fin 4,
      pick ((l.map Prod.fst).map actionRewards) (l.map f) =
        l.map fun x => actionReward x.1 (f x) := by
    intro f
    rw [pick, List.map_map, List.zipWith_map, List.zipWith_self]
    rfl
  have hbest : (l.map Prod.fst).map optimalAction = l.map fun x => optimalAction x.1 := by
    rw [List.map_map]
    rfl
  rw [regretBatch, Option.getD_some, choose_rewards, actionRewardsBatch_eq_map, hbest, hpick, hpick,
    List.zipWith_map, List.zipWith_self, mean_map]
  rfl

theorem agreement_eq_avg :
    fraction (agrees chosen (choose (actionRewardsBatch states))) =
      avg (score hit : _ → R) (judged states chosen) := by
  have hstates := map_fst_judged h
  have hchosen := map_snd_judged h
  generalize judged states chosen = l at hstates hchosen
  subst hstates hchosen
  have hagrees : agrees (l.map Prod.snd) ((l.map Prod.fst).map optimalAction) = l.map hit := by
    rw [agrees, List.map_map, List.zipWith_map, List.zipWith_self]
    rfl
  rw [choose_rewards, hagrees, fraction_map]

theorem recallOf_eq (i : Fin 4) :
    recallOf chosen (optimalActionBatch states) i =
      ((judged states chosen).countP fun x => decide (x.2 = i) && wants i x.1 : R) /
        states.countP (wants i) := by
  have hstates := map_fst_judged h
  have hchosen := map_snd_judged h
  generalize judged states chosen = l at hstates hchosen
  subst hstates hchosen
  have hselect : selectMask (l.map Prod.snd)
      (((l.map Prod.fst).map optimalAction).map fun b => decide (b = i)) =
        (l.filter fun x => wants i x.1).map Prod.snd := by
    rw [List.map_map, List.map_map]
    exact selectMask_map Prod.snd (fun x => wants i x.1) l
  have hany : ((l.map Prod.fst).map optimalAction).any (fun b => decide (b = i)) =
      decide (0 < (l.map Prod.fst).countP (wants i)) := by
    rw [List.any_map, Bool.eq_iff_iff, List.any_eq_true, decide_eq_true_iff, List.countP_pos_iff]
    rfl
  rw [recallOf, optimalActionBatch_eq_map, hselect, hany]
  by_cases hsome : 0 < (l.map Prod.fst).countP (wants i)
  · rw [if_pos (decide_eq_true hsome), List.map_map, fraction_map, avg_score,
      List.countP_filter, ← List.countP_eq_length_filter, List.countP_map]
    rfl
  · have hnone : (l.map Prod.fst).countP (wants i) = 0 := by omega
    rw [if_neg (by rw [decide_eq_true_iff]; exact hsome), hnone, Nat.cast_zero, div_zero]

end Judged

/-! ## What the metrics bound -/

theorem le_optimalAction (s : StateVector R) (a : Fin 4) :
    actionReward s a ≤ actionReward s (optimalAction s) := le_argmax (actionRewards s) a

omit [Field R] in
/-- The largest probability is that of the choice. -/
theorem rowMax_eq (p : Probs R) : rowMax p = p (argmax p 0 actionCount) := by
  have hlist : (List.finRange 4).map p = [p 0, p 1, p 2, p 3] := rfl
  have hle : ∀ a, p a ≤ rowMax p := by
    intro a
    rw [rowMax, hlist]
    simp only [List.foldl_cons, List.foldl_nil]
    fin_cases a <;> simp
  refine le_antisymm ?_ (hle _)
  rw [rowMax, hlist]
  exact max_le (max_le (max_le (max_le (le_argmax p 0) (le_argmax p 0)) (le_argmax p 1))
    (le_argmax p 2)) (le_argmax p 3)

/-- What a softmax answers. -/
structure IsDistribution (p : Probs R) : Prop where
  nonneg : ∀ a, 0 ≤ p a
  sum_eq_one : ∑ a, p a = 1

section Bounds

variable [IsStrictOrderedRing R]

theorem gap_nonneg (x : StateVector R × Fin 4) : 0 ≤ gap x :=
  sub_nonneg.2 (le_optimalAction x.1 x.2)

/-- A miss costs no more than the range of the rewards. -/
theorem gap_le {x : StateVector R × Fin 4} (h : InBox x.1) : gap x ≤ 1.8 * (1 - score hit x) := by
  unfold score gap
  by_cases hx : hit x = true
  · have hbest : x.2 = optimalAction x.1 := of_decide_eq_true hx
    rw [if_pos hx, hbest]
    simp
  · have hlow := (actionReward_mem h x.2).1
    have hhigh := (actionReward_mem h (optimalAction x.1)).2
    rw [if_neg hx]
    norm_num at hlow ⊢
    linarith

theorem rowMax_mem {p : Probs R} (h : IsDistribution p) : 1 / 4 ≤ rowMax p ∧ rowMax p ≤ 1 := by
  have hsum := h.sum_eq_one
  rw [Fin.sum_univ_four] at hsum
  rw [rowMax_eq]
  constructor
  · linarith [le_argmax p 0, le_argmax p 1, le_argmax p 2, le_argmax p 3]
  · calc p (argmax p 0 actionCount) ≤ ∑ a, p a :=
          Finset.single_le_sum (fun a _ => h.nonneg a) (Finset.mem_univ _)
      _ = 1 := h.sum_eq_one

/-- The regret is what the misses cost: nothing where every choice is a best one, and never more
than the range of the rewards on the share of the misses. -/
theorem regret_bounds {states : List (StateVector R)} {chosen : List (Fin 4)}
    (hstates : states ≠ []) (hlength : chosen.length = states.length)
    (hbox : ∀ s ∈ states, InBox s) :
    0 ≤ avg gap (judged states chosen) ∧
      avg gap (judged states chosen) ≤ 1.8 * (1 - avg (score hit) (judged states chosen)) ∧
      (avg gap (judged states chosen) = 0 ↔ ∀ x ∈ judged states chosen,
        actionReward x.1 x.2 = actionReward x.1 (optimalAction x.1)) := by
  have hfst := map_fst_judged hlength
  have hnonempty : judged states chosen ≠ [] := by
    intro hnil
    rw [hnil, List.map_nil] at hfst
    exact hstates hfst.symm
  have hmem : ∀ x ∈ judged states chosen, InBox x.1 := by
    intro x hx
    exact hbox x.1 (hfst ▸ List.mem_map_of_mem hx)
  refine ⟨avg_nonneg fun x _ => gap_nonneg x, ?_, ?_⟩
  · calc avg gap (judged states chosen)
        ≤ avg (fun x => 1.8 * (1 - score hit x)) (judged states chosen) :=
          avg_le_avg fun x hx => gap_le (hmem x hx)
      _ = 1.8 * (1 - avg (score hit) (judged states chosen)) := by
          rw [avg_mul_left, avg_sub, avg_const hnonempty]
  · rw [avg_eq_zero_iff hnonempty fun x _ => gap_nonneg x]
    refine forall₂_congr fun x _ => ?_
    rw [gap, sub_eq_zero, eq_comm]

omit [LinearOrder R] [IsStrictOrderedRing R] in
theorem shareOf_eq (chosen : List (Fin 4)) (i : Fin 4) :
    (shareOf chosen i : R) = (chosen.countP fun c => c = i : R) / chosen.length := by
  rw [shareOf, fraction_map, avg_score]

theorem sum_shareOf {chosen : List (Fin 4)} (h : chosen ≠ []) :
    ∑ i, (shareOf chosen i : R) = 1 := by
  have hcounts := sum_countP_kind (fun c : Fin 4 => c) (fun _ => true) chosen
  simp only [Bool.and_true, List.countP_true] at hcounts
  have hlength := length_pos' (R := R) h
  simp only [shareOf_eq]
  rw [← Finset.sum_div, ← Nat.cast_sum, hcounts, div_self hlength.ne']

theorem recallOf_mem (chosen best : List (Fin 4)) (i : Fin 4) :
    0 ≤ (recallOf chosen best i : R) ∧ (recallOf chosen best i : R) ≤ 1 := by
  rw [recallOf]
  split
  · rw [fraction_map]
    exact avg_score_mem _ _
  · exact ⟨le_refl 0, zero_le_one⟩

theorem macroRecall_mem (chosen best : List (Fin 4)) :
    0 ≤ mean ((List.finRange 4).map (recallOf chosen best : Fin 4 → R)) ∧
      mean ((List.finRange 4).map (recallOf chosen best : Fin 4 → R)) ≤ 1 := by
  rw [mean_map]
  exact ⟨avg_nonneg fun i _ => (recallOf_mem chosen best i).1,
    avg_le (by decide) fun i _ => (recallOf_mem chosen best i).2⟩

/-! ## Balanced sets -/

omit [IsStrictOrderedRing R] in
theorem countP_hit (l : List (StateVector R × Fin 4)) :
    ∑ i, l.countP (fun x => decide (x.2 = i) && wants i x.1) = l.countP hit := by
  rw [← sum_countP_kind (fun x : StateVector R × Fin 4 => x.2) hit l]
  refine Finset.sum_congr rfl fun i _ => List.countP_congr fun x _ => ?_
  rw [Bool.and_eq_true, Bool.and_eq_true, decide_eq_true_iff, wants, hit, decide_eq_true_iff,
    decide_eq_true_iff]
  refine and_congr_right fun hi => ?_
  rw [hi, eq_comm]

omit [IsStrictOrderedRing R] in
theorem length_balanced {set : List (StateVector R)} {m : Nat}
    (h : ∀ i, set.countP (wants i) = m) : set.length = 4 * m := by
  have hcounts := sum_countP_kind (optimalAction (R := R)) (fun _ => true) set
  simp only [Bool.and_true, List.countP_true] at hcounts
  have hkinds : ∀ i : Fin 4, set.countP (fun s => decide (optimalAction s = i)) = m := h
  rw [← hcounts, Finset.sum_congr rfl fun i _ => hkinds i]
  simp

/-- On a set with as many states for each action as for any other, the mean of the recalls is the
share of the states judged right. -/
theorem macroRecall_of_balanced {set : List (StateVector R)} {chosen : List (Fin 4)} {m : Nat}
    (hlength : chosen.length = set.length) (hm : m ≠ 0) (h : ∀ i, set.countP (wants i) = m) :
    mean ((List.finRange 4).map (recallOf chosen (optimalActionBatch set) : Fin 4 → R)) =
      avg (score hit) (judged set chosen) := by
  have hpos : (m : R) ≠ 0 := Nat.cast_ne_zero.2 hm
  have hjudged : (judged set chosen).length = 4 * m := by
    rw [← length_balanced h, ← List.length_map (f := Prod.fst), map_fst_judged hlength]
  have hsum : ((List.finRange 4).map
      (recallOf chosen (optimalActionBatch set) : Fin 4 → R)).sum =
        ((judged set chosen).countP hit : R) / m := by
    rw [← countP_hit, Nat.cast_sum, Finset.sum_div, ← Fin.sum_univ_def]
    refine Finset.sum_congr rfl fun i _ => ?_
    rw [recallOf_eq hlength, h i]
  rw [mean, hsum, avg_score, hjudged, List.length_map, List.length_finRange]
  push_cast
  rw [div_div, mul_comm]

/-- A model of one action is right just where that action is the best. -/
theorem accuracy_of_constant {set : List (StateVector R)} {chosen : List (Fin 4)} {m : Nat}
    (hlength : chosen.length = set.length) (hm : m ≠ 0) (h : ∀ i, set.countP (wants i) = m)
    {i : Fin 4} (hconst : ∀ c ∈ chosen, c = i) :
    avg (score hit : _ → R) (judged set chosen) = 0.25 := by
  have hstates := map_fst_judged hlength
  have hchoices := map_snd_judged hlength
  generalize judged set chosen = l at hstates hchoices
  have hhits : l.countP hit = m := by
    rw [← h i, ← hstates, List.countP_map]
    refine List.countP_congr fun x hx => ?_
    have hchoice : x.2 = i := hconst x.2 (hchoices ▸ List.mem_map_of_mem hx)
    rw [hit, decide_eq_true_iff, hchoice, Function.comp_apply, wants, decide_eq_true_iff, eq_comm]
  have htotal : l.length = 4 * m := by
    rw [← length_balanced h, ← hstates, List.length_map]
  have hpos : (m : R) ≠ 0 := Nat.cast_ne_zero.2 hm
  rw [avg_score, hhits, htotal]
  push_cast
  field_simp
  norm_num

end Bounds

/-- The metrics of any model on any evaluation sets: shares of a whole, a regret that only misses
cost, and a decisiveness of a quarter at least. -/
theorem metrics_in_range [IsStrictOrderedRing R]
    {policyProbs : List (StateVector R) → List (Probs R)} {uniform : List (StateVector R)}
    (hstates : uniform ≠ []) (hbox : ∀ s ∈ uniform, InBox s)
    (hlength : (policyProbs uniform).length = uniform.length)
    (hrows : ∀ p ∈ policyProbs uniform, IsDistribution p) (balanced : List (StateVector R)) :
    ∃ m, policyMetrics policyProbs uniform balanced = some m ∧
    0 ≤ m.regret ∧
    m.regret ≤ 1.8 * (1 - m.agreement) ∧
    (m.regret = 0 ↔ ∀ x ∈ judged uniform (choose (policyProbs uniform)),
      actionReward x.1 x.2 = actionReward x.1 (optimalAction x.1)) ∧
    ∑ i, m.actionShare i = 1 ∧
    (0 ≤ m.macroRecall ∧ m.macroRecall ≤ 1) ∧
    0.25 ≤ m.decisiveness ∧ m.decisiveness ≤ 1 := by
  have hchosen : (choose (policyProbs uniform)).length = uniform.length := by
    rw [choose, List.length_map, hlength]
  have hnonempty : policyProbs uniform ≠ [] := by
    rw [← List.length_pos_iff, hlength]
    exact List.length_pos_iff.2 hstates
  have hbounds := regret_bounds hstates hchosen hbox
  rw [← regret_eq_avg hchosen, ← agreement_eq_avg hchosen] at hbounds
  have hdecisive : ∀ p ∈ policyProbs uniform, 1 / 4 ≤ rowMax p ∧ rowMax p ≤ 1 :=
    fun p hp => rowMax_mem (hrows p hp)
  obtain ⟨m, hm⟩ := Option.ne_none_iff_exists'.1
    (mt (policyMetrics_eq_none_iff hlength balanced).1 hstates)
  refine ⟨m, hm, ?_⟩
  obtain ⟨_, _, rfl⟩ := Option.map_eq_some_iff.1 hm
  refine ⟨hbounds.1, hbounds.2.1, hbounds.2.2, ?_, macroRecall_mem _ _, ?_, ?_⟩
  · refine sum_shareOf ?_
    rw [← List.length_pos_iff, hchosen]
    exact List.length_pos_iff.2 hstates
  · have hquarter := le_avg hnonempty fun p hp => (hdecisive p hp).1
    have hliteral : (0.25 : R) = 1 / 4 := by norm_num
    change 0.25 ≤ mean ((policyProbs uniform).map rowMax)
    rw [mean_map, hliteral]
    exact hquarter
  · change mean ((policyProbs uniform).map rowMax) ≤ 1
    rw [mean_map]
    exact avg_le hnonempty fun p hp => (hdecisive p hp).2

/-- A batch with one state of each class is a balanced set. -/
theorem balancedStates_oneOfEach :
    balancedStates 1 (fun _ => oneOfEach) 1 = some (balancedOf 1 oneOfEach) := by
  decide +kernel

/-- A model that cannot make up its mind. -/
def flatModel (states : List (StateVector ℚ)) : List (Probs ℚ) := states.map fun _ _ => 1 / 4

theorem isDistribution_of_flatModel {states : List (StateVector ℚ)} {p : Probs ℚ}
    (hp : p ∈ flatModel states) : IsDistribution p := by
  obtain ⟨s, _, rfl⟩ := List.mem_map.1 hp
  refine ⟨fun _ => by norm_num, ?_⟩
  rw [Fin.sum_univ_four]
  norm_num

theorem metrics_of_flatModel :
    ∃ balanced m, balancedStates 1 (fun _ => oneOfEach) 1 = some balanced ∧
      policyMetrics flatModel oneOfEach balanced = some m ∧
      0 ≤ m.regret ∧ ∑ i, m.actionShare i = 1 ∧ 0.25 ≤ m.decisiveness := by
  have hlength : (flatModel oneOfEach).length = oneOfEach.length := List.length_map _
  obtain ⟨m, hm, hregret, _, _, hshare, _, hdecisive, _⟩ := metrics_in_range (by decide)
    inBox_oneOfEach hlength (fun _ => isDistribution_of_flatModel) (balancedOf 1 oneOfEach)
  exact ⟨_, m, balancedStates_oneOfEach, hm, hregret, hshare, hdecisive⟩

/-- On the balanced set macro-recall is plain accuracy, so a model of one action scores a quarter,
whatever the action. -/
theorem balanced_recall_is_accuracy [IsStrictOrderedRing R] {perClass fuel : Nat}
    (hclass : perClass ≠ 0) {batches : Nat → List (StateVector R)}
    {balanced : List (StateVector R)} (hset : balancedStates perClass batches fuel = some balanced)
    {policyProbs : List (StateVector R) → List (Probs R)}
    (hlength : ∀ states, (policyProbs states).length = states.length)
    (uniform : List (StateVector R)) :
    (policyMetrics policyProbs uniform balanced = none ↔ uniform = []) ∧
    ∀ m ∈ policyMetrics policyProbs uniform balanced,
      m.macroRecall =
        fraction (agrees (choose (policyProbs balanced)) (optimalActionBatch balanced)) ∧
      ∀ i, (∀ p ∈ policyProbs balanced, argmax p 0 actionCount = i) → m.macroRecall = 0.25 := by
  refine ⟨policyMetrics_eq_none_iff (hlength uniform) balanced, fun m hm => ?_⟩
  obtain ⟨_, _, rfl⟩ := Option.map_eq_some_iff.1 hm
  obtain ⟨k, hk, hdrawn⟩ := balancedStates_eq_some_iff.1 hset
  have hcounts : ∀ i, balanced.countP (wants i) = perClass := by
    intro i
    rw [hdrawn]
    exact countP_balancedOf hk.2.1 i
  have hchosen : (choose (policyProbs balanced)).length = balanced.length := by
    rw [choose, List.length_map, hlength]
  have hmacro := macroRecall_of_balanced (R := R) hchosen hclass hcounts
  refine ⟨?_, fun i hi => ?_⟩
  · have hagree := agreement_eq_avg (R := R) hchosen
    rw [choose_rewards, ← optimalActionBatch_eq_map] at hagree
    exact hmacro.trans hagree.symm
  · have hconst : ∀ c ∈ choose (policyProbs balanced), c = i := by
      intro c hc
      obtain ⟨p, hp, rfl⟩ := List.mem_map.1 hc
      exact hi p hp
    exact hmacro.trans (accuracy_of_constant hchosen hclass hcounts hconst)

/-- A flat model takes the first action everywhere. -/
theorem balanced_recall_of_flatModel :
    ∃ balanced m, balancedStates 1 (fun _ => oneOfEach) 1 = some balanced ∧
      policyMetrics flatModel oneOfEach balanced = some m ∧ m.macroRecall = 0.25 := by
  have hlength (states) : (flatModel states).length = states.length := List.length_map _
  obtain ⟨hnone, hrecall⟩ :=
    balanced_recall_is_accuracy (by decide) balancedStates_oneOfEach hlength oneOfEach
  obtain ⟨m, hm⟩ := Option.ne_none_iff_exists'.1 (mt hnone.1 (by decide))
  refine ⟨_, m, balancedStates_oneOfEach, hm, (hrecall m hm).2 0 fun p hp => ?_⟩
  obtain ⟨s, _, rfl⟩ := List.mem_map.1 hp
  decide +kernel

/-! ## The gates -/

section Gates

variable [IsStrictOrderedRing R]

omit [IsStrictOrderedRing R] in
theorem passesGates_iff {m : Metrics R} : passesGates m = true ↔
    0.60 ≤ m.decisiveness ∧ 0.0010 ≤ m.mlkem1024Share ∧ m.mlkem1024Share ≤ 0.0090 ∧
      0.45 ≤ m.highNeedAgreement := by
  rw [passesGates, decide_eq_true_iff]
  rfl

/-- A share within the range is a few of many. -/
theorem share_in_range {k n : Nat} (hlow : (0.0010 : R) ≤ k / n) (hhigh : (k : R) / n ≤ 0.0090) :
    0 < k ∧ k < n ∧ 112 ≤ n := by
  norm_num at hlow hhigh
  have hn : 0 < n := by
    by_contra hzero
    have hn0 : n = 0 := by omega
    rw [hn0, Nat.cast_zero, div_zero] at hlow
    linarith
  have hcast : (0 : R) < n := Nat.cast_pos.2 hn
  rw [div_le_iff₀ hcast] at hhigh
  have hk : 0 < k := by
    by_contra hzero
    have hk0 : k = 0 := by omega
    rw [hk0, Nat.cast_zero, zero_div] at hlow
    linarith
  have hmany : 1000 * k ≤ 9 * n := by
    have hscaled : (1000 : R) * k ≤ 9 * n := by linarith
    exact_mod_cast hscaled
  omega

theorem exists_of_le_avg {α : Type} {f : α → R} {l : List α} {c : R} (hl : l ≠ [])
    (h : c ≤ avg f l) : ∃ x ∈ l, c ≤ f x := by
  by_contra hnone
  push Not at hnone
  have hmax : ∃ x ∈ l, ∀ y ∈ l, f y ≤ f x := by
    obtain ⟨x, hx⟩ := Option.ne_none_iff_exists'.1 (mt List.argmax_eq_none.1 hl : l.argmax f ≠ none)
    exact ⟨x, List.argmax_mem hx, fun y hy => List.le_of_mem_argmax hy hx⟩
  obtain ⟨x, hx, hxmax⟩ := hmax
  exact absurd (h.trans (avg_le hl hxmax)) (not_le.2 (hnone x hx))

/-- Where the oracle never takes ML-KEM-512, neither does a choice that agrees with it. -/
theorem agreement_le_leaves {chosen : List (Fin 4)} {states : List (StateVector R)}
    (hlength : chosen.length = states.length)
    (hleave : ∀ s ∈ states, optimalAction s ≠ wireIndex .mlKem512) :
    (fraction (agrees chosen (choose (actionRewardsBatch states))) : R) ≤
      fraction (chosen.map fun c => c ≠ wireIndex .mlKem512) := by
  have hstates := map_fst_judged hlength
  rw [agreement_eq_avg hlength]
  conv_rhs => rw [← map_snd_judged hlength, List.map_map, fraction_map]
  refine avg_le_avg fun x hx => ?_
  have hne : optimalAction x.1 ≠ wireIndex .mlKem512 :=
    hleave x.1 (hstates ▸ List.mem_map_of_mem hx)
  by_cases hhit : hit x = true
  · have hchoice : x.2 = optimalAction x.1 := of_decide_eq_true hhit
    have hleaves : ((fun c => decide (c ≠ wireIndex .mlKem512)) ∘ Prod.snd) x = true := by
      rw [Function.comp_apply, hchoice]
      exact decide_eq_true hne
    rw [score, score, if_pos hhit, if_pos hleaves]
  · rw [score, if_neg hhit]
    exact (score_mem _ x).1

/-- What passes the gates has taken none of the shortcuts: it was scored on more than a hundred
states, it takes ML-KEM-1024 on some of them and not on all, it is sure of some choice, and on the
band of high need it leaves ML-KEM-512 nearly half of the time. -/
theorem gates_reject_shortcuts {policyProbs : List (StateVector R) → List (Probs R)}
    (hlength : ∀ states, (policyProbs states).length = states.length)
    {uniform balanced highNeed : List (StateVector R)} {n fuel : Nat} (hn : n ≠ 0)
    {batches : Nat → List (StateVector R)} (hbox : ∀ k, ∀ s ∈ batches k, InBox s)
    (hband : highNeedStates n highNeedFloor batches fuel = some highNeed)
    {m : Metrics R} (hscore : scoreModel policyProbs uniform balanced highNeed = some m)
    (hpass : passesGates m = true) :
    112 ≤ uniform.length ∧
    (2 ∈ choose (policyProbs uniform) ∧ ∃ c ∈ choose (policyProbs uniform), c ≠ 2) ∧
    (∃ p ∈ policyProbs uniform, 0.60 ≤ p (argmax p 0 actionCount)) ∧
    (0.45 : R) ≤
      fraction ((choose (policyProbs highNeed)).map fun c => c ≠ wireIndex .mlKem512) := by
  obtain ⟨scored, hmetrics, rfl⟩ := Option.map_eq_some_iff.1 hscore
  obtain ⟨_, _, rfl⟩ := Option.map_eq_some_iff.1 hmetrics
  obtain ⟨hdecisive, hlow, hhigh, hagree⟩ := passesGates_iff.1 hpass
  have hchoose : ∀ states, (choose (policyProbs states)).length = states.length := by
    intro states
    rw [choose, List.length_map, hlength]
  change 0.0010 ≤ shareOf (choose (policyProbs uniform)) 2 at hlow
  change shareOf (choose (policyProbs uniform)) 2 ≤ 0.0090 at hhigh
  rw [shareOf_eq] at hlow hhigh
  obtain ⟨hsome, hmore, hmany⟩ := share_in_range hlow hhigh
  rw [hchoose] at hmany
  refine ⟨hmany, ⟨?_, ?_⟩, ?_, ?_⟩
  · obtain ⟨c, hc, hc2⟩ := List.countP_pos_iff.1 hsome
    exact of_decide_eq_true hc2 ▸ hc
  · by_contra hnone
    push Not at hnone
    have hall : (choose (policyProbs uniform)).countP (fun c => decide (c = 2)) =
        (choose (policyProbs uniform)).length :=
      List.countP_eq_length.2 fun c hc => decide_eq_true (hnone c hc)
    omega
  · have hrows : policyProbs uniform ≠ [] := by
      rw [← List.length_pos_iff, hlength]
      omega
    change 0.60 ≤ mean ((policyProbs uniform).map rowMax) at hdecisive
    rw [mean_map] at hdecisive
    obtain ⟨p, hp, hsure⟩ := exists_of_le_avg hrows hdecisive
    exact ⟨p, hp, rowMax_eq p ▸ hsure⟩
  · change (0.45 : R) ≤ fraction (agrees (choose (policyProbs highNeed))
      (choose (actionRewardsBatch highNeed))) at hagree
    exact hagree.trans (agreement_le_leaves (hchoose highNeed)
      (highNeedStates_leave_mlKem512 hn hbox hband))

end Gates

/-- A model that is sure of the oracle's choice. -/
def oracleModel (states : List (StateVector ℚ)) : List (Probs ℚ) :=
  states.map fun s a => if a = optimalAction s then 1 else 0

/-- One state for ML-KEM-1024 in a hundred and twelve. -/
def sparseStates : List (StateVector ℚ) := probe1024 :: List.replicate 111 fun _ => 0

theorem gates_reject_shortcuts_of_oracleModel :
    ∃ balanced m, balancedStates 1 (fun _ => oneOfEach) 1 = some balanced ∧
      scoreModel oracleModel sparseStates balanced
        (Sampling.firsts 2 (inBand highNeedFloor) oneOfEach) = some m ∧ passesGates m = true ∧
      112 ≤ sparseStates.length ∧ 2 ∈ choose (oracleModel sparseStates) := by
  have hpass : (scoreModel oracleModel sparseStates (balancedOf 1 oneOfEach)
      (Sampling.firsts 2 (inBand highNeedFloor) oneOfEach)).any passesGates = true := by
    decide +kernel
  have hband : highNeedStates 2 highNeedFloor (fun _ => oneOfEach) 1 =
      some (Sampling.firsts 2 (inBand highNeedFloor) oneOfEach) := by
    decide +kernel
  obtain ⟨m, hm, hgates⟩ := (Option.any_eq_true _ _).1 hpass
  have h := gates_reject_shortcuts (fun states => List.length_map _) (by decide)
    (fun _ => inBox_oneOfEach) hband hm hgates
  exact ⟨_, m, balancedStates_oneOfEach, hm, hgates, h.1, h.2.1.1⟩

end Policy
end PqcVpn
