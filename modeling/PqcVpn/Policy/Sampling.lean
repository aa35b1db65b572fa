import Mathlib.Algebra.BigOperators.Fin
import PqcVpn.Lib.Sampling
import PqcVpn.Policy.Boundary

/-!
# Sampling — the evaluation sets of `client/rl_agent/evaluate.py`

`balanced_states` and `high_need_states` draw batches of states at random until they have enough of
each kind they want.  The batches are an argument, as the generator would answer them; a loop that
is still drawing when the fuel is gone returns `none`.
-/

namespace PqcVpn
namespace Policy

open Anomaly (clip clip_of_mem)
open Gate (rekeyActionIndex wireIndex)
open Sampling
open State

variable {R : Type} [Field R] [LinearOrder R]

/-- Indexing an array with a mask. -/
def selectMask {α : Type} (xs : List α) (mask : List Bool) : List α :=
  ((xs.zip mask).filter Prod.snd).map Prod.fst

theorem selectMask_map {α β : Type} (f : α → β) (p : α → Bool) (xs : List α) :
    selectMask (xs.map f) (xs.map p) = (xs.filter p).map f := by
  induction xs with
  | nil => rfl
  | cons x xs ih =>
      unfold selectMask at ih ⊢
      rw [List.map_cons, List.map_cons, List.zip_cons_cons, List.filter_cons, List.filter_cons]
      cases hx : p x with
      | false => simpa [hx] using ih
      | true => simpa [hx] using ih

theorem selectMask_self {α : Type} (p : α → Bool) (xs : List α) :
    selectMask xs (xs.map p) = xs.filter p := by
  have hself := selectMask_map id p xs
  rw [List.map_id, List.map_id] at hself
  exact hself

/-! ## A pool for each action -/

abbrev Pools (R : Type) : Type := Fin 4 → List (StateVector R)

/-- `min(len(p) for p in pools)`. -/
def minLength (pools : Pools R) : Nat :=
  (((List.finRange 4).map fun i => (pools i).length).min?).getD 0

/-- The body of the loop: extend each pool that is short of states by what the batch has of them. -/
def extendPools (perClass : Nat) (pools : Pools R) (cand : List (StateVector R)) : Pools R :=
  let best := optimalActionBatch cand
  fun i =>
    if (pools i).length < perClass then
      pools i ++
        (selectMask cand (best.map fun b => b = i)).take (perClass - (pools i).length)
    else
      pools i

def balancedStates (perClass : Nat) (batches : Nat → List (StateVector R)) (fuel : Nat) :
    Option (List (StateVector R)) :=
  (drawUntil (fun pools : Pools R => decide (¬ minLength pools < perClass)) (extendPools perClass)
    batches fuel 0 fun _ => []).map fun pools =>
      (List.finRange 4).flatMap fun i => (pools i).take perClass

/-! ## The band of high need -/

/-- `HIGH_NEED_FLOOR`. -/
def highNeedFloor : R := 0.90

/-- Nothing to concatenate when no state is asked for, which raises. -/
def highNeedStates (n : Nat) (needFloor : R) (batches : Nat → List (StateVector R)) (fuel : Nat) :
    Option (List (StateVector R)) :=
  if n = 0 then none
  else
    (drawUntil (fun kept : List (StateVector R) => decide (¬ kept.length < n))
      (fun kept cand => kept ++ selectMask cand ((securityNeedBatch cand).map fun x => x ≥ needFloor))
      batches fuel 0 []).map fun kept => kept.take n

/-! ## What the loops keep -/

/-- The states an action is the best one for. -/
def wants (i : Fin 4) (s : StateVector R) : Bool := optimalAction s = i

/-- The pools after some candidates: the first of each kind. -/
def poolsOf (perClass : Nat) (xs : List (StateVector R)) : Pools R :=
  fun i => firsts perClass (wants i) xs

theorem select_best (cand : List (StateVector R)) (i : Fin 4) :
    selectMask cand ((optimalActionBatch cand).map fun b => b = i) = cand.filter (wants i) := by
  rw [optimalActionBatch_eq_map, List.map_map]
  exact selectMask_self (wants i) cand

theorem extendPools_poolsOf (perClass : Nat) (xs ys : List (StateVector R)) :
    extendPools perClass (poolsOf perClass xs) ys = poolsOf perClass (xs ++ ys) := by
  funext i
  have happend := firsts_append perClass (wants i) xs ys
  unfold extendPools poolsOf
  rw [select_best, happend]
  split
  · rfl
  · rename_i hfull
    rw [Nat.sub_eq_zero_of_le (Nat.le_of_not_lt hfull), List.take_zero, List.append_nil]

omit [Field R] [LinearOrder R] in
theorem not_minLength_lt_iff {pools : Pools R} {n : Nat} :
    ¬ minLength pools < n ↔ ∀ i, n ≤ (pools i).length := by
  have hlist : (List.finRange 4).map (fun i => (pools i).length) =
      [(pools 0).length, (pools 1).length, (pools 2).length, (pools 3).length] := rfl
  rw [minLength, hlist, Fin.forall_fin_succ, Fin.forall_fin_succ, Fin.forall_fin_succ,
    Fin.forall_fin_one]
  simp only [List.min?_cons', List.foldl_cons, List.foldl_nil, Option.getD_some]
  change _ ↔ n ≤ (pools 0).length ∧ n ≤ (pools 1).length ∧ n ≤ (pools 2).length ∧
    n ≤ (pools 3).length
  omega

/-- The candidates hold `n` states for each action. -/
def Fills (n : Nat) (xs : List (StateVector R)) : Prop := ∀ i, n ≤ xs.countP (wants i)

theorem poolsFull_iff {perClass : Nat} {xs : List (StateVector R)} :
    decide (¬ minLength (poolsOf perClass xs) < perClass) = true ↔ Fills perClass xs := by
  rw [decide_eq_true_iff, not_minLength_lt_iff]
  refine forall_congr' fun i => ?_
  rw [poolsOf, length_firsts]
  omega

/-! ## The evaluation sets -/

/-- The first `perClass` states of each kind among the candidates. -/
def balancedOf (perClass : Nat) (xs : List (StateVector R)) : List (StateVector R) :=
  (List.finRange 4).flatMap fun i => firsts perClass (wants i) xs

theorem balancedStates_eq_some_iff {perClass : Nat} {batches : Nat → List (StateVector R)}
    {fuel : Nat} {set : List (StateVector R)} :
    balancedStates perClass batches fuel = some set ↔
      ∃ k, FirstAt batches (Fills perClass) fuel k ∧ set = balancedOf perClass (drawn batches k) := by
  have hloop : ∀ pools, drawUntil (fun pools : Pools R => decide (¬ minLength pools < perClass))
      (extendPools perClass) batches fuel 0 (poolsOf perClass []) = some pools ↔
        ∃ k, FirstAt batches (Fills perClass) fuel k ∧ pools = poolsOf perClass (drawn batches k) :=
    drawUntil_eq_some_iff (extendPools_poolsOf perClass) (fun _ => poolsFull_iff) batches fuel
  have hpools : ∀ xs : List (StateVector R), ((List.finRange 4).flatMap fun i =>
      (poolsOf perClass xs i).take perClass) = balancedOf perClass xs := by
    intro xs
    simp only [poolsOf, firsts, List.take_take, min_self, balancedOf]
  have hstart : (fun _ => [] : Pools R) = poolsOf perClass [] := funext fun _ => List.take_nil.symm
  rw [balancedStates, hstart, Option.map_eq_some_iff]
  constructor
  · rintro ⟨pools, hpool, rfl⟩
    obtain ⟨k, hk, rfl⟩ := (hloop pools).1 hpool
    exact ⟨k, hk, hpools _⟩
  · rintro ⟨k, hk, rfl⟩
    exact ⟨poolsOf perClass (drawn batches k), (hloop _).2 ⟨k, hk, rfl⟩, hpools _⟩

/-- Each kind is in the set as often as any other. -/
theorem countP_balancedOf {perClass : Nat} {xs : List (StateVector R)} (h : Fills perClass xs)
    (i : Fin 4) : (balancedOf perClass xs).countP (wants i) = perClass := by
  have hown : (firsts perClass (wants i) xs).countP (wants i) = perClass := by
    rw [List.countP_eq_length.2 fun s hs => (of_mem_firsts hs).1, length_firsts]
    exact min_eq_left (h i)
  have hother : ∀ j ≠ i, (firsts perClass (wants j) xs).countP (wants i) = 0 := by
    intro j hj
    refine List.countP_eq_zero.2 fun s hs hwant => hj ?_
    have hbest : optimalAction s = j := of_decide_eq_true (of_mem_firsts hs).1
    exact hbest.symm.trans (of_decide_eq_true hwant)
  have hsum : (balancedOf perClass xs).countP (wants i) =
      ((List.finRange 4).map fun j => if j = i then perClass else 0).sum := by
    rw [balancedOf, List.countP_flatMap]
    refine congrArg List.sum (List.map_congr_left fun j _ => ?_)
    by_cases hj : j = i
    · rw [if_pos hj, Function.comp_apply, hj, hown]
    · rw [if_neg hj, Function.comp_apply, hother j hj]
  rw [hsum, ← Fin.sum_univ_def, Finset.sum_ite_eq', if_pos (Finset.mem_univ i)]

/-- The security a state calls for, as the batch computes it. -/
def securityNeed (s : StateVector R) : R :=
  clip (0.4 * s threat + 0.3 * s connType + 0.3 * s timeSinceRekey) 0 1

/-- The states of the band. -/
def inBand (needFloor : R) (s : StateVector R) : Bool := securityNeed s ≥ needFloor

theorem highNeedStates_eq_some_iff {n : Nat} (hn : n ≠ 0) {needFloor : R}
    {batches : Nat → List (StateVector R)} {fuel : Nat} {set : List (StateVector R)} :
    highNeedStates n needFloor batches fuel = some set ↔
      ∃ k, FirstAt batches (fun xs => n ≤ xs.countP (inBand needFloor)) fuel k ∧
        set = firsts n (inBand needFloor) (drawn batches k) := by
  have hselect : ∀ cand : List (StateVector R),
      selectMask cand ((securityNeedBatch cand).map fun x => decide (x ≥ needFloor)) =
        cand.filter (inBand needFloor) := by
    intro cand
    rw [securityNeedBatch, List.map_map]
    exact selectMask_self (inBand needFloor) cand
  have hloop : ∀ kept, drawUntil (fun kept : List (StateVector R) => decide (¬ kept.length < n))
      (fun kept cand =>
        kept ++ selectMask cand ((securityNeedBatch cand).map fun x => decide (x ≥ needFloor)))
      batches fuel 0 [] = some kept ↔
        ∃ k, FirstAt batches (fun xs => n ≤ xs.countP (inBand needFloor)) fuel k ∧
          kept = (drawn batches k).filter (inBand needFloor) :=
    drawUntil_eq_some_iff (f := fun xs : List (StateVector R) => xs.filter (inBand needFloor))
      (fun xs ys => by rw [hselect, List.filter_append])
      (fun xs => by rw [decide_eq_true_iff, List.countP_eq_length_filter, Nat.not_lt])
      batches fuel
  rw [highNeedStates, if_neg hn, Option.map_eq_some_iff]
  constructor
  · rintro ⟨kept, hkept, rfl⟩
    obtain ⟨k, hk, rfl⟩ := (hloop kept).1 hkept
    exact ⟨k, hk, rfl⟩
  · rintro ⟨k, hk, rfl⟩
    exact ⟨_, (hloop _).2 ⟨k, hk, rfl⟩, rfl⟩

section Box

variable [IsStrictOrderedRing R] {s : StateVector R}

theorem securityNeed_eq (h : InBox s) : securityNeed s = need s := clip_of_mem (need_mem h)

/-- The weakest KEM is never the best action in the band. -/
theorem optimalAction_inBand (h : InBox s) (hband : inBand highNeedFloor s = true) :
    optimalAction s ≠ wireIndex .mlKem512 := by
  intro hbest
  have hpressure := pressure_mem h
  have hneed : highNeedFloor ≤ securityNeed s := of_decide_eq_true hband
  have hne : optimalAction s ≠ rekeyActionIndex := by
    rw [hbest]
    decide
  rw [securityNeed_eq h, highNeedFloor] at hneed
  rw [optimalAction_eq_bestKem hne, bestKem_eq_mlKem512_iff h] at hbest
  norm_num at hneed hbest
  linarith

theorem highNeedStates_leave_mlKem512 {n fuel : Nat} (hn : n ≠ 0)
    {batches : Nat → List (StateVector R)} (hbox : ∀ k, ∀ s ∈ batches k, InBox s)
    {set : List (StateVector R)} (hset : highNeedStates n highNeedFloor batches fuel = some set) :
    ∀ s ∈ set, optimalAction s ≠ wireIndex .mlKem512 := by
  intro s hs
  obtain ⟨k, hk, rfl⟩ := (highNeedStates_eq_some_iff hn).1 hset
  obtain ⟨hband, hdrawn⟩ := of_mem_firsts hs
  obtain ⟨j, hj⟩ := mem_drawn hdrawn
  exact optimalAction_inBand (hbox j s hj) hband

/-- The evaluation sets, whatever the batches.  The balanced set is there with the first batch that
leaves no action short, and holds the first states of each action, equally many; the set of the band
holds the first states of high need, for none of which ML-KEM-512 is the best action. -/
theorem evaluation_sets (perClass n : Nat) (hn : n ≠ 0) (batches : Nat → List (StateVector R))
    (hbox : ∀ k, ∀ s ∈ batches k, InBox s) (fuel : Nat) :
    (∀ set, balancedStates perClass batches fuel = some set ↔
      ∃ k, FirstAt batches (Fills perClass) fuel k ∧ set = balancedOf perClass (drawn batches k)) ∧
    (∀ set, balancedStates perClass batches fuel = some set →
      ∀ i, set.countP (wants i) = perClass) ∧
    (∀ set, highNeedStates n highNeedFloor batches fuel = some set ↔
      ∃ k, FirstAt batches (fun xs => n ≤ xs.countP (inBand highNeedFloor)) fuel k ∧
        set = firsts n (inBand highNeedFloor) (drawn batches k)) ∧
    (∀ set, highNeedStates n highNeedFloor batches fuel = some set →
      set.length = n ∧ ∀ s ∈ set, optimalAction s ≠ wireIndex .mlKem512) := by
  refine ⟨fun set => balancedStates_eq_some_iff, ?_, fun set => highNeedStates_eq_some_iff hn, ?_⟩
  · intro set hset i
    obtain ⟨k, hk, rfl⟩ := balancedStates_eq_some_iff.1 hset
    exact countP_balancedOf hk.2.1 i
  · intro set hset
    refine ⟨?_, highNeedStates_leave_mlKem512 hn hbox hset⟩
    obtain ⟨k, hk, rfl⟩ := (highNeedStates_eq_some_iff hn).1 hset
    rw [length_firsts]
    exact min_eq_left hk.2.1

end Box

/-- A state for each action. -/
def oneOfEach : List (StateVector ℚ) :=
  [![0, 0, 0, 0, 0, 0, 0], ![0, 1, 0, 0, 1, 1, 0.5], probe1024, ![1, 0, 0, 0, 1, 1, 1]]

theorem inBox_oneOfEach : ∀ s ∈ oneOfEach, InBox s := by
  unfold InBox
  decide +kernel

theorem evaluation_sets_of_oneOfEach :
    balancedStates 1 (fun _ => oneOfEach) 1 = some (balancedOf 1 oneOfEach) ∧
      (balancedOf 1 oneOfEach).countP (wants 2) = 1 ∧
      highNeedStates 2 highNeedFloor (fun _ => oneOfEach) 1 =
        some (firsts 2 (inBand highNeedFloor) oneOfEach) := by
  rcases evaluation_sets 1 2 (by decide) (fun _ => oneOfEach) (fun _ => inBox_oneOfEach) 1
    with ⟨hset, hcounts, hband, _⟩
  have hbalanced : balancedStates 1 (fun _ => oneOfEach) 1 = some (balancedOf 1 oneOfEach) := by
    refine (hset _).2 ⟨1, ⟨le_refl 1, ?_, ?_⟩, rfl⟩
    · unfold Fills
      decide +kernel
    · unfold Fills
      decide +kernel
  refine ⟨hbalanced, hcounts _ hbalanced 2, (hband _).2 ⟨1, ⟨le_refl 1, ?_, ?_⟩, rfl⟩⟩
  · decide +kernel
  · decide +kernel

end Policy
end PqcVpn
