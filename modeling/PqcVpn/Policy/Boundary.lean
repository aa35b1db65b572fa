import Mathlib.Data.Fin.VecNotation
import Mathlib.Tactic.Linarith
import Mathlib.Tactic.NormNum
import PqcVpn.Policy.Reward

/-!
# Boundary — where the best action changes

Over the states the policy sees, the best KEM is a threshold rule in two numbers: the security the
situation needs and the pressure on the device.  Pressure moves both thresholds up, by little enough
that the order of the KEMs never changes.
-/

namespace PqcVpn
namespace Policy

open Anomaly (clip clip_of_mem)
open Crypto (MlKemLevel)
open Gate (argmax actionCount rekeyActionIndex wireIndex)
open State

variable {R : Type} [Field R] [LinearOrder R]

/-! ## Need, pressure and urgency -/

/-- The observation box. -/
def InBox (s : StateVector R) : Prop := ∀ i, 0 ≤ s i ∧ s i ≤ 1

def need (s : StateVector R) : R := 0.4 * s threat + 0.3 * s connType + 0.3 * s timeSinceRekey

def pressure (s : StateVector R) : R := 0.5 * s cpuLoad + 0.5 * (1 - s ramAvail)

def urgency (s : StateVector R) : R := (s threat + s timeSinceRekey) / 2

/-- The first KEM of the largest reward. -/
def bestKem (s : StateVector R) : Fin 4 := argmax (actionRewards s) 0 rekeyActionIndex

/-! ## Comparing rewards -/

section Argmax

variable (f : Fin 4 → R)

omit [Field R] in
theorem argmax_kems : argmax f 0 rekeyActionIndex =
    if f 0 < f 1 then (if f 1 < f 2 then 2 else 1) else (if f 0 < f 2 then 2 else 0) := by
  have hrange : Gate.indexRange 0 rekeyActionIndex = [0, 1, 2] := by decide
  rw [argmax, hrange]
  simp only [List.foldl_cons, List.foldl_nil, gt_iff_lt, lt_self_iff_false, if_false]
  by_cases h : f 0 < f 1
  · rw [if_pos h, if_pos h]
  · rw [if_neg h, if_neg h]

omit [Field R] in
/-- The rekey comes last, so it has to be strictly better than the best KEM. -/
theorem argmax_all : argmax f 0 actionCount =
    if f (argmax f 0 rekeyActionIndex) < f rekeyActionIndex then rekeyActionIndex
      else argmax f 0 rekeyActionIndex := by
  have hrange : Gate.indexRange 0 actionCount =
      Gate.indexRange 0 rekeyActionIndex ++ [rekeyActionIndex] := by decide
  rw [argmax, hrange, List.foldl_concat]
  rfl

end Argmax

/-! ## The rewards in the box -/

section Box

variable [IsStrictOrderedRing R] {s : StateVector R}

theorem actionName_eq_rekey_iff (a : Fin 4) :
    actionName a = "rekey-now" ↔ a = rekeyActionIndex := by
  revert a
  decide

theorem need_mem (h : InBox s) : 0 ≤ need s ∧ need s ≤ 1 := by
  have hthreat := h threat
  have hconn := h connType
  have htime := h timeSinceRekey
  unfold need
  constructor
  · linarith
  · linarith

theorem pressure_mem (h : InBox s) : 0 ≤ pressure s ∧ pressure s ≤ 1 := by
  have hcpu := h cpuLoad
  have hram := h ramAvail
  unfold pressure
  constructor
  · linarith
  · linarith

/-- The reward of a KEM: the shortfall weighs three, the cost as much as there is pressure. -/
theorem actionReward_of_kem (h : InBox s) {a : Fin 4} (ha : a ≠ rekeyActionIndex) :
    actionReward s a = 1 - 3 * max 0 (need s - (actionSecurity a : R)) -
      ((actionCost a / maxCpuCost : Rat) : R) * pressure s := by
  have hneed : clip (0.4 * s threat + 0.3 * s connType + 0.3 * s timeSinceRekey) 0 1 = need s :=
    clip_of_mem (need_mem h)
  have hpressure : clip (0.5 * s cpuLoad + 0.5 * (1 - s ramAvail)) 0 1 = pressure s :=
    clip_of_mem (pressure_mem h)
  unfold actionReward
  rw [if_neg (mt (actionName_eq_rekey_iff a).1 ha), hneed, hpressure]
  norm_num

theorem actionReward_mlKem512 (h : InBox s) :
    actionReward s (wireIndex .mlKem512) = 1 - 3 * max 0 (need s - 7 / 10) - pressure s / 6 := by
  have hsecurity : actionSecurity (wireIndex .mlKem512) = 7 / 10 := by decide +kernel
  have hcost : actionCost (wireIndex .mlKem512) / maxCpuCost = 1 / 6 := by decide +kernel
  rw [actionReward_of_kem h (by decide), hsecurity, hcost]
  push_cast
  ring

theorem actionReward_mlKem768 (h : InBox s) :
    actionReward s (wireIndex .mlKem768) = 1 - 3 * max 0 (need s - 17 / 20) - pressure s / 3 := by
  have hsecurity : actionSecurity (wireIndex .mlKem768) = 17 / 20 := by decide +kernel
  have hcost : actionCost (wireIndex .mlKem768) / maxCpuCost = 1 / 3 := by decide +kernel
  rw [actionReward_of_kem h (by decide), hsecurity, hcost]
  push_cast
  ring

/-- The strongest KEM never falls short. -/
theorem actionReward_mlKem1024 (h : InBox s) :
    actionReward s (wireIndex .mlKem1024) = 1 - 2 / 3 * pressure s := by
  have hsecurity : actionSecurity (wireIndex .mlKem1024) = 1 := by decide +kernel
  have hcost : actionCost (wireIndex .mlKem1024) / maxCpuCost = 2 / 3 := by decide +kernel
  have hneed := (need_mem h).2
  rw [actionReward_of_kem h (by decide), hsecurity, hcost, max_eq_left (by push_cast; linarith)]
  push_cast
  ring

theorem actionReward_rekey (s : StateVector R) :
    actionReward s rekeyActionIndex = 1.5 * urgency s - 0.8 := by
  unfold actionReward
  rw [if_pos ((actionName_eq_rekey_iff _).2 rfl), urgency]
  norm_num
  ring

/-! ## The thresholds -/

/-- Where ML-KEM-768 overtakes ML-KEM-512. -/
theorem reward_512_lt_768_iff (h : InBox s) :
    actionReward s (wireIndex .mlKem512) < actionReward s (wireIndex .mlKem768) ↔
      0.70 + pressure s / 18 < need s := by
  have hp := pressure_mem h
  have hthreshold : (0.70 : R) = 7 / 10 := by norm_num
  rw [actionReward_mlKem512 h, actionReward_mlKem768 h, hthreshold]
  -- below, between and above the securities of the two
  rcases le_total (need s) (7 / 10) with hlow | hlow
  · rw [max_eq_left (by linarith), max_eq_left (by linarith)]
    constructor <;> intro <;> linarith
  · rw [max_eq_right (by linarith : (0 : R) ≤ need s - 7 / 10)]
    rcases le_total (need s) (17 / 20) with hhigh | hhigh
    · rw [max_eq_left (by linarith)]
      constructor <;> intro <;> linarith
    · rw [max_eq_right (by linarith)]
      constructor <;> intro <;> linarith

/-- Where ML-KEM-1024 overtakes ML-KEM-768. -/
theorem reward_768_lt_1024_iff (h : InBox s) :
    actionReward s (wireIndex .mlKem768) < actionReward s (wireIndex .mlKem1024) ↔
      0.85 + pressure s / 9 < need s := by
  have hp := pressure_mem h
  have hthreshold : (0.85 : R) = 17 / 20 := by norm_num
  rw [actionReward_mlKem768 h, actionReward_mlKem1024 h, hthreshold]
  rcases le_total (need s) (17 / 20) with hlow | hhigh
  · rw [max_eq_left (by linarith)]
    constructor <;> intro <;> linarith
  · rw [max_eq_right (by linarith)]
    constructor <;> intro <;> linarith

/-- ML-KEM-1024 never overtakes ML-KEM-512 before ML-KEM-768 does. -/
theorem reward_512_lt_768_of_lt_1024 (h : InBox s)
    (hlt : actionReward s (wireIndex .mlKem512) < actionReward s (wireIndex .mlKem1024)) :
    actionReward s (wireIndex .mlKem512) < actionReward s (wireIndex .mlKem768) := by
  have hp := pressure_mem h
  have hthreshold : (0.70 : R) = 7 / 10 := by norm_num
  rw [actionReward_mlKem512 h, actionReward_mlKem1024 h] at hlt
  rw [reward_512_lt_768_iff h, hthreshold]
  rcases le_total (need s) (7 / 10) with hlow | hlow
  · rw [max_eq_left (by linarith)] at hlt
    linarith
  · rw [max_eq_right (by linarith)] at hlt
    linarith

theorem thresholds_ordered (h : InBox s) : 0.70 + pressure s / 18 < 0.85 + pressure s / 9 := by
  have hp := pressure_mem h
  have hlow : (0.70 : R) = 7 / 10 := by norm_num
  have hhigh : (0.85 : R) = 17 / 20 := by norm_num
  rw [hlow, hhigh]
  linarith

/-- The best KEM by need and pressure. -/
theorem bestKem_eq (h : InBox s) : bestKem s =
    if need s ≤ 0.70 + pressure s / 18 then wireIndex .mlKem512
    else if need s ≤ 0.85 + pressure s / 9 then wireIndex .mlKem768
    else wireIndex .mlKem1024 := by
  have h01 := reward_512_lt_768_iff h
  have h12 := reward_768_lt_1024_iff h
  have h02 := reward_512_lt_768_of_lt_1024 h
  rw [bestKem, argmax_kems]
  change (if actionReward s (wireIndex .mlKem512) < actionReward s (wireIndex .mlKem768) then
    (if actionReward s (wireIndex .mlKem768) < actionReward s (wireIndex .mlKem1024) then
      wireIndex .mlKem1024 else wireIndex .mlKem768)
    else (if actionReward s (wireIndex .mlKem512) < actionReward s (wireIndex .mlKem1024) then
      wireIndex .mlKem1024 else wireIndex .mlKem512)) = _
  by_cases hlow : 0.70 + pressure s / 18 < need s
  · rw [if_pos (h01.2 hlow), if_neg (not_le.2 hlow)]
    by_cases hhigh : 0.85 + pressure s / 9 < need s
    · rw [if_pos (h12.2 hhigh), if_neg (not_le.2 hhigh)]
    · rw [if_neg (mt h12.1 hhigh), if_pos (not_lt.1 hhigh)]
  · rw [if_neg (mt h01.1 hlow), if_neg (fun hlt => hlow (h01.1 (h02 hlt))), if_pos (not_lt.1 hlow)]

theorem bestKem_eq_mlKem512_iff (h : InBox s) :
    bestKem s = wireIndex .mlKem512 ↔ need s ≤ 0.70 + pressure s / 18 := by
  rw [bestKem_eq h]
  split
  · rename_i hlow
    exact iff_of_true rfl hlow
  · rename_i hlow
    split
    · exact iff_of_false (by decide) hlow
    · exact iff_of_false (by decide) hlow

theorem bestKem_eq_mlKem768_iff (h : InBox s) :
    bestKem s = wireIndex .mlKem768 ↔
      0.70 + pressure s / 18 < need s ∧ need s ≤ 0.85 + pressure s / 9 := by
  rw [bestKem_eq h]
  split
  · rename_i hlow
    exact iff_of_false (by decide) fun hmid => absurd hlow (not_le.2 hmid.1)
  · rename_i hlow
    split
    · rename_i hhigh
      exact iff_of_true rfl ⟨not_le.1 hlow, hhigh⟩
    · rename_i hhigh
      exact iff_of_false (by decide) fun hmid => hhigh hmid.2

theorem bestKem_eq_mlKem1024_iff (h : InBox s) :
    bestKem s = wireIndex .mlKem1024 ↔ 0.85 + pressure s / 9 < need s := by
  have hordered := thresholds_ordered h
  rw [bestKem_eq h]
  split
  · rename_i hlow
    exact iff_of_false (by decide) (by linarith)
  · split
    · rename_i hhigh
      exact iff_of_false (by decide) (not_lt.2 hhigh)
    · rename_i hhigh
      exact iff_of_true rfl (not_le.1 hhigh)

/-- The indices are in order of strength. -/
theorem wireIndex_mono {a b : MlKemLevel} (h : a ≤ b) : wireIndex a ≤ wireIndex b := by
  revert h
  cases a <;> cases b <;> decide

/-- More need and less pressure never call for a weaker KEM. -/
theorem bestKem_le {s' : StateVector R} (h : InBox s) (h' : InBox s') (hneed : need s ≤ need s')
    (hpressure : pressure s' ≤ pressure s) : bestKem s ≤ bestKem s' := by
  have hordered := thresholds_ordered h
  rw [bestKem_eq h, bestKem_eq h']
  by_cases hlow : need s' ≤ 0.70 + pressure s' / 18
  · rw [if_pos hlow, if_pos (by linarith)]
  · rw [if_neg hlow]
    by_cases hhigh : need s' ≤ 0.85 + pressure s' / 9
    · rw [if_pos hhigh]
      split
      · exact wireIndex_mono (by decide)
      · rw [if_pos (by linarith)]
    · rw [if_neg hhigh]
      split
      · exact wireIndex_mono (by decide)
      · split
        · exact wireIndex_mono (by decide)
        · exact le_refl _

end Box

/-! ## The best action -/

/-- The rekey is the best action when it beats the best KEM, which is the best action otherwise. -/
theorem optimalAction_eq (s : StateVector R) : optimalAction s =
    if actionReward s (bestKem s) < actionReward s rekeyActionIndex then rekeyActionIndex
      else bestKem s :=
  argmax_all (actionRewards s)

theorem bestKem_ne_rekey (s : StateVector R) : bestKem s ≠ rekeyActionIndex := by
  rw [bestKem, argmax_kems]
  split <;> split <;> decide

/-- A tie goes to the KEM. -/
theorem optimalAction_eq_rekey_iff [IsStrictOrderedRing R] (s : StateVector R) :
    optimalAction s = rekeyActionIndex ↔ actionReward s (bestKem s) < 1.5 * urgency s - 0.8 := by
  rw [optimalAction_eq, actionReward_rekey]
  split
  · rename_i hlt
    exact iff_of_true rfl hlt
  · rename_i hlt
    exact iff_of_false (bestKem_ne_rekey s) hlt

theorem optimalAction_eq_bestKem {s : StateVector R} (h : optimalAction s ≠ rekeyActionIndex) :
    optimalAction s = bestKem s := by
  rw [optimalAction_eq] at h ⊢
  split at h
  · exact absurd rfl h
  · rename_i hlt
    rw [if_neg hlt]

/-! ## Batches -/

/-- A column holds the rewards of one action. -/
theorem rewardColumn_eq_map (states : List (StateVector R)) (a : Fin 4) :
    rewardColumn states (securityNeedBatch states) (resourcePressureBatch states) a =
      states.map fun s => actionReward s a := by
  unfold rewardColumn actionReward
  by_cases ha : actionName a = "rekey-now"
  · rw [if_pos ha, List.map_map]
    refine List.map_congr_left fun s _ => ?_
    rw [if_pos ha]
    rfl
  · rw [if_neg ha, securityNeedBatch, resourcePressureBatch, List.map_map, List.map_map,
      List.zipWith_map, List.zipWith_self]
    refine List.map_congr_left fun s _ => ?_
    rw [if_neg ha]
    rfl

omit [LinearOrder R] in
/-- Stacking the columns of a function of the state tabulates it state by state. -/
theorem stackColumns_map {σ : Type} (states : List σ) (f : σ → Fin 4 → R) :
    stackColumns states.length (fun a => states.map fun s => f s a) = states.map f := by
  refine List.ext_getElem (by simp [stackColumns]) ?_
  intro i _ hi
  rw [List.length_map] at hi
  simp only [stackColumns, List.getElem_map, List.getElem_range]
  funext a
  rw [List.getD_eq_getElem?_getD, List.getElem?_map, List.getElem?_eq_getElem hi]
  rfl

theorem actionRewardsBatch_eq_map (states : List (StateVector R)) :
    actionRewardsBatch states = states.map actionRewards := by
  have hcolumns : rewardColumn states (securityNeedBatch states) (resourcePressureBatch states) =
      fun a => states.map fun s => actionReward s a :=
    funext fun a => rewardColumn_eq_map states a
  rw [actionRewardsBatch, hcolumns]
  exact stackColumns_map states actionReward

theorem optimalActionBatch_eq_map (states : List (StateVector R)) :
    optimalActionBatch states = states.map optimalAction := by
  rw [optimalActionBatch, actionRewardsBatch_eq_map, List.map_map]
  rfl

/-- The best KEM is a threshold rule, monotone in need and antitone in pressure; the rekey is taken
when it strictly beats that KEM; and a batch is decided row by row. -/
theorem best_action_is_threshold_rule [IsStrictOrderedRing R] :
    (∀ s : StateVector R, InBox s →
      (bestKem s = wireIndex .mlKem512 ↔ need s ≤ 0.70 + pressure s / 18) ∧
      (bestKem s = wireIndex .mlKem768 ↔
        0.70 + pressure s / 18 < need s ∧ need s ≤ 0.85 + pressure s / 9) ∧
      (bestKem s = wireIndex .mlKem1024 ↔ 0.85 + pressure s / 9 < need s) ∧
      (optimalAction s = rekeyActionIndex ↔
        actionReward s (bestKem s) < 1.5 * urgency s - 0.8) ∧
      (optimalAction s ≠ rekeyActionIndex → optimalAction s = bestKem s)) ∧
    (∀ s s' : StateVector R, InBox s → InBox s' → s threat ≤ s' threat →
      s connType ≤ s' connType → s timeSinceRekey ≤ s' timeSinceRekey →
        pressure s' ≤ pressure s → bestKem s ≤ bestKem s') ∧
    ∀ states : List (StateVector R), optimalActionBatch states = states.map optimalAction := by
  refine ⟨?_, ?_, fun states => optimalActionBatch_eq_map states⟩
  · intro s h
    exact ⟨bestKem_eq_mlKem512_iff h, bestKem_eq_mlKem768_iff h, bestKem_eq_mlKem1024_iff h,
      optimalAction_eq_rekey_iff s, optimalAction_eq_bestKem⟩
  · intro s s' h h' hthreat hconn htime hpressure
    refine bestKem_le h h' ?_ hpressure
    unfold need
    linarith

/-- `PROBE_1024` of `analyze_boundary.py`. -/
def probe1024 : StateVector ℚ := ![0.3, 1.0, 0.2, 0.2, 1.0, 0.82, 0.99]

theorem best_action_at_probe1024 : bestKem probe1024 = wireIndex .mlKem1024 := by
  have hbox : InBox probe1024 := by
    unfold InBox
    decide +kernel
  refine ((best_action_is_threshold_rule.1 probe1024 hbox).2.2.1).2 ?_
  decide +kernel

end Policy
end PqcVpn
