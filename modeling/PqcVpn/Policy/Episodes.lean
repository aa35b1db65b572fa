import PqcVpn.Lib.Driven
import PqcVpn.Policy.Environment

/-!
# Episodes — sessions of the environment, whatever plays them

A tick draws the same numbers whatever is played, so an episode is a driven system: the actions are
its controls, the draws its disturbances.  Episodes from one seed are compared tick by tick, and
what actions do to the load, to the timer and to the threat is followed over whole episodes.
-/

namespace PqcVpn
namespace Policy

open Anomaly (clip clip_nonneg clip_le_one clip_of_mem)
open Gate (rekeyActionIndex wireIndex)
open State

variable {G R : Type} [Field R] [LinearOrder R]

/-! ## Episodes as driven systems -/

/-- The draws of the next `n` ticks, and the generator after them. -/
def drawTicks (gen : Generator G R) : Nat → G → List (TickDraws R) × G
  | 0, rng => ([], rng)
  | n + 1, rng =>
      let d := drawTick gen rng
      let ds := drawTicks gen n d.2
      (d.1 :: ds.1, ds.2)

/-- The state some actions lead to under some draws. -/
def evolveAll (cpuRelax baseline : R) (s : StateVector R) (ticks : List (Fin 4 × TickDraws R)) :
    StateVector R :=
  Driven.run (evolve cpuRelax baseline) s ticks

/-- The calls hand the actions to the environment, in order. -/
def PlaysAll (calls : List VPNEnv.Call) (as : List (Fin 4)) : Prop :=
  List.Forall₂ (fun c a => VPNEnv.Call.Plays a.val c) calls as

variable {gen : Generator G R}

theorem length_drawTicks (n : Nat) (rng : G) : (drawTicks gen n rng).1.length = n := by
  induction n generalizing rng with
  | zero => rfl
  | succ n ih => exact congrArg (· + 1) (ih _)

/-- What a run of steps and advances does to the environment. -/
theorem stateAfter_plays {env : VPNEnv G R} {s : StateVector R} (hs : env.state = some s)
    {calls : List VPNEnv.Call} {as : List (Fin 4)} (hplays : PlaysAll calls as) :
    Machine.stateAfter (VPNEnv.call gen) env calls =
      { env with
        rng := (drawTicks gen as.length env.rng).2
        state := some (evolveAll env.params.cpuRelax env.cpuBaseline s
          (as.zip (drawTicks gen as.length env.rng).1))
        t := env.t + as.length } := by
  induction hplays generalizing env s with
  | nil =>
      cases env
      cases hs
      rfl
  | @cons c a calls as hc _ ih =>
      have hstep : Machine.stateAfter (VPNEnv.call gen) env (c :: calls) =
          Machine.stateAfter (VPNEnv.call gen) (VPNEnv.tick gen env s a) calls := by
        rw [Machine.stateAfter, List.foldl_cons, VPNEnv.call_of_plays hc hs]
        rfl
      have hnow : (VPNEnv.tick gen env s a).state = some _ := rfl
      rw [hstep, ih hnow]
      simp only [VPNEnv.tick, List.length_cons, drawTicks, List.zip_cons_cons, evolveAll,
        Driven.run_cons, VPNEnv.mk.injEq, true_and]
      omega

/-! ## One tick, two actions -/

section Coupling

variable [IsStrictOrderedRing R]

omit [IsStrictOrderedRing R] in
theorem clip_mono {x y : R} (h : x ≤ y) : clip x 0 1 ≤ clip y 0 1 :=
  min_le_min (max_le_max h (le_refl _)) (le_refl _)

theorem drifted_mono {x y : R} (h : x ≤ y) (drift : R) : drifted x drift ≤ drifted y drift :=
  clip_mono (by linarith)

theorem spiked_mono {x y : R} (h : x ≤ y) (spike : Option R) : spiked spike x ≤ spiked spike y := by
  cases spike with
  | none => exact h
  | some z => exact clip_mono (by linarith)

/-- The mean reversion is no overcorrection. -/
theorem relaxed_mono {r : R} (hr : r ≤ 1) (b : R) {x y : R} (h : x ≤ y) :
    relaxed r b x ≤ relaxed r b y := by
  unfold relaxed
  split
  · have hscaled := mul_le_mul_of_nonneg_left h (sub_nonneg.2 hr)
    exact clip_mono (by linarith)
  · exact h

theorem relativeCost_mono {a a' : Fin 4} (h : actionCost a ≤ actionCost a') :
    (relativeCost a : R) ≤ relativeCost a' := by
  have hmax : (0 : Rat) ≤ maxCpuCost := by decide +kernel
  exact Rat.cast_le.2 (div_le_div_of_nonneg_right h hmax)

variable {r b : R} {s s' : StateVector R} {a a' : Fin 4}

theorem evolve_cpuLoad_mono (hr : r ≤ 1) (d : TickDraws R) (hcost : actionCost a ≤ actionCost a')
    (h : s cpuLoad ≤ s' cpuLoad) : evolve r b a d s cpuLoad ≤ evolve r b a' d s' cpuLoad := by
  have hload := drifted_mono h (d.drift cpuLoad)
  have hcosts : (relativeCost a : R) ≤ relativeCost a' := relativeCost_mono hcost
  have htenth : (0 : R) ≤ 0.1 := by norm_num
  have hscaled := mul_le_mul_of_nonneg_left hcosts htenth
  rw [evolve_cpuLoad, evolve_cpuLoad]
  exact relaxed_mono hr b (clip_mono (by linarith))

/-- A rekey where the other rekeys leaves no more on the timer, and no more threat. -/
theorem evolve_keys_mono (d : TickDraws R) (hrekey : a' = rekeyActionIndex → a = rekeyActionIndex)
    (htime : s timeSinceRekey ≤ s' timeSinceRekey) (hthreat : s threat ≤ s' threat) :
    evolve r b a d s timeSinceRekey ≤ evolve r b a' d s' timeSinceRekey ∧
      evolve r b a d s threat ≤ evolve r b a' d s' threat := by
  have hspiked := spiked_mono (drifted_mono hthreat (d.drift threat)) d.spike
  have hmem := spiked_mem (drifted_mem (s' threat) (d.drift threat)) d.spike
  have hhalf : (0 : R) ≤ 0.5 := by norm_num
  rw [evolve_timeSinceRekey, evolve_timeSinceRekey, evolve_threat, evolve_threat]
  by_cases ha' : a' = rekeyActionIndex
  · rw [if_pos (hrekey ha'), if_pos ha', if_pos (hrekey ha'), if_pos ha']
    exact ⟨le_refl _, max_le_max (le_refl _) (by linarith)⟩
  · rw [if_neg ha', if_neg ha']
    by_cases ha : a = rekeyActionIndex
    · rw [if_pos ha, if_pos ha]
      exact ⟨clip_nonneg _, max_le hmem.1 (by linarith)⟩
    · rw [if_neg ha, if_neg ha]
      have htimer := drifted_mono htime (d.drift timeSinceRekey)
      exact ⟨clip_mono (by linarith), hspiked⟩

end Coupling

/-! ## Episodes from one seed -/

/-- The elements that only drift. -/
def Untouched (i : StateIndex) : Prop := i ≠ cpuLoad ∧ i ≠ timeSinceRekey ∧ i ≠ threat

section Seeded

variable {as as' : List (Fin 4)} (r b : R) (s : StateVector R)

theorem evolveAll_untouched (hlength : as.length = as'.length) (ds : List (TickDraws R))
    {i : StateIndex} (hi : Untouched i) :
    evolveAll r b s (as.zip ds) i = evolveAll r b s (as'.zip ds) i := by
  have hany : List.Forall₂ (fun _ _ => True) as as' :=
    List.forall₂_iff_get.2 ⟨hlength, fun _ _ _ => trivial⟩
  refine Driven.run_rel (P := fun t t' : StateVector R => t i = t' i) ?_ hany rfl ds
  intro a a' d t t' _ h
  rw [evolve_of_ne _ _ _ _ _ hi.1 hi.2.1 hi.2.2, evolve_of_ne _ _ _ _ _ hi.1 hi.2.1 hi.2.2, h]

variable [IsStrictOrderedRing R]

theorem evolveAll_keys_mono
    (hrekey : List.Forall₂ (fun a a' => a' = rekeyActionIndex → a = rekeyActionIndex) as as')
    (ds : List (TickDraws R)) :
    evolveAll r b s (as.zip ds) timeSinceRekey ≤ evolveAll r b s (as'.zip ds) timeSinceRekey ∧
      evolveAll r b s (as.zip ds) threat ≤ evolveAll r b s (as'.zip ds) threat := by
  refine Driven.run_rel (P := fun t t' : StateVector R =>
    t timeSinceRekey ≤ t' timeSinceRekey ∧ t threat ≤ t' threat) ?_ hrekey
    ⟨le_refl _, le_refl _⟩ ds
  intro a a' d t t' hQ h
  exact evolve_keys_mono d hQ h.1 h.2

theorem evolveAll_cpuLoad_mono (hr : r ≤ 1)
    (hcost : List.Forall₂ (fun a a' => actionCost a ≤ actionCost a') as as')
    (ds : List (TickDraws R)) :
    evolveAll r b s (as.zip ds) cpuLoad ≤ evolveAll r b s (as'.zip ds) cpuLoad := by
  refine Driven.run_rel (P := fun t t' : StateVector R => t cpuLoad ≤ t' cpuLoad) ?_ hcost
    (le_refl _) ds
  intro a a' d t t' hQ h
  exact evolve_cpuLoad_mono hr d hQ h

end Seeded

/-- The calls after a reset from a seed start from the same state, draws and baseline. -/
theorem stateAfter_reset_plays {env env' : VPNEnv G R} (hparams : env.params = env'.params)
    (seed : Nat) {calls : List VPNEnv.Call} {as : List (Fin 4)} (hplays : PlaysAll calls as) :
    (Machine.stateAfter (VPNEnv.call gen) env (.reset (some seed) :: calls)).state =
      some (evolveAll env'.params.cpuRelax (env'.reset gen (some seed)).2.cpuBaseline
        (env'.reset gen (some seed)).1
        (as.zip (drawTicks gen as.length (env'.reset gen (some seed)).2.rng).1)) := by
  have hreset : (env.reset gen (some seed)).2 = (env'.reset gen (some seed)).2 := by
    simp only [VPNEnv.reset, hparams]
  have hfirst : Machine.stateAfter (VPNEnv.call gen) env (.reset (some seed) :: calls) =
      Machine.stateAfter (VPNEnv.call gen) (env'.reset gen (some seed)).2 calls := by
    rw [← hreset]
    rfl
  rw [hfirst, stateAfter_plays (s := (env'.reset gen (some seed)).1) rfl hplays]
  rfl

/-- Two episodes from one seed, step by step and whoever plays them: what no action touches is the
same in both; rekeying wherever the other rekeys leaves no more on the timer and no more threat; and
the cheaper actions leave the lower load. -/
theorem same_seed_episodes [IsStrictOrderedRing R] {env env' : VPNEnv G R}
    (hparams : env.params = env'.params) (seed : Nat) {calls calls' : List VPNEnv.Call}
    {as as' : List (Fin 4)} (hplays : PlaysAll calls as) (hplays' : PlaysAll calls' as')
    (hlength : as.length = as'.length) :
    ∃ t t', (Machine.stateAfter (VPNEnv.call gen) env (.reset (some seed) :: calls)).state = some t ∧
      (Machine.stateAfter (VPNEnv.call gen) env' (.reset (some seed) :: calls')).state = some t' ∧
      (∀ i, Untouched i → t i = t' i) ∧
      (List.Forall₂ (fun a a' => a' = rekeyActionIndex → a = rekeyActionIndex) as as' →
        t timeSinceRekey ≤ t' timeSinceRekey ∧ t threat ≤ t' threat) ∧
      (List.Forall₂ (fun a a' => actionCost a ≤ actionCost a') as as' →
        t cpuLoad ≤ t' cpuLoad) := by
  refine ⟨_, _, stateAfter_reset_plays hparams seed hplays,
    stateAfter_reset_plays rfl seed hplays', ?_, ?_, ?_⟩
  · intro i hi
    rw [← hlength]
    exact evolveAll_untouched _ _ _ hlength _ hi
  · intro hrekey
    rw [← hlength]
    exact evolveAll_keys_mono _ _ _ hrekey _
  · intro hcost
    rw [← hlength]
    exact evolveAll_cpuLoad_mono _ _ _ env'.params.cpuRelax_mem.2 hcost _

/-- Two rekeys against two ticks of ML-KEM-512. -/
theorem congruential_same_seed_episodes :
    ∃ t t', (Machine.stateAfter (VPNEnv.call congruential) congruentialEnv
        [.reset (some 7), .step 3, .advance 3]).state = some t ∧
      (Machine.stateAfter (VPNEnv.call congruential) congruentialEnv
        [.reset (some 7), .advance 0, .step 0]).state = some t' ∧
      t latency = t' latency ∧ t threat ≤ t' threat ∧ t' cpuLoad ≤ t cpuLoad := by
  have hrekeys : PlaysAll [.step 3, .advance 3] [3, 3] := .cons (.inl rfl) (.cons (.inr rfl) .nil)
  have hkems : PlaysAll [.advance 0, .step 0] [0, 0] := .cons (.inr rfl) (.cons (.inl rfl) .nil)
  rcases @same_seed_episodes _ _ _ _ congruential _ congruentialEnv congruentialEnv
    rfl 7 _ _ _ _ hrekeys hkems rfl with ⟨t, t', ht, ht', hsame, hkeys, _⟩
  rcases @same_seed_episodes _ _ _ _ congruential _ congruentialEnv congruentialEnv
    rfl 7 _ _ _ _ hkems hrekeys rfl with ⟨u', u, hu', hu, _, _, hload⟩
  have htu : t = u := Option.some.inj (ht.symm.trans hu)
  have htu' : t' = u' := Option.some.inj (ht'.symm.trans hu')
  refine ⟨t, t', ht, ht', hsame latency ⟨by decide, by decide, by decide⟩, ?_, ?_⟩
  · refine (hkeys (.cons ?_ (.cons ?_ .nil))).2
    · exact fun _ => rfl
    · exact fun _ => rfl
  · rw [htu, htu']
    refine hload (.cons ?_ (.cons ?_ .nil))
    · decide +kernel
    · decide +kernel

/-! ## After a rekey -/

section Rekey

variable [IsStrictOrderedRing R] {s : StateVector R}

/-- No KEM is worse than ML-KEM-1024 under full pressure. -/
theorem third_le_bestKem (h : InBox s) : 1 / 3 ≤ actionReward s (bestKem s) := by
  have hpressure := pressure_mem h
  have hstrongest : actionReward s (wireIndex .mlKem1024) ≤ actionReward s (bestKem s) := by
    rw [bestKem_eq h]
    split
    · rename_i hlow
      -- ML-KEM-1024 is not above ML-KEM-512 where ML-KEM-768 is not
      by_contra hlt
      exact not_lt.2 hlow ((reward_512_lt_768_iff h).1
        (reward_512_lt_768_of_lt_1024 h (not_le.1 hlt)))
    · split
      · rename_i hhigh
        exact not_lt.1 fun hlt => not_lt.2 hhigh ((reward_768_lt_1024_iff h).1 hlt)
      · exact le_refl _
  calc (1 / 3 : R) ≤ 1 - 2 / 3 * pressure s := by linarith
    _ = actionReward s (wireIndex .mlKem1024) := (actionReward_mlKem1024 h).symm
    _ ≤ actionReward s (bestKem s) := hstrongest

/-- A rekey is only worth its price with half of the timer gone, whatever the threat. -/
theorem timer_of_rekey_optimal (h : InBox s) (hrekey : optimalAction s = rekeyActionIndex) :
    0.51 < s timeSinceRekey := by
  have hbest := third_le_bestKem h
  have hlt := (optimalAction_eq_rekey_iff s).1 hrekey
  have hthreat := (h threat).2
  unfold urgency at hlt
  norm_num at hlt ⊢
  linarith

/-- Right after a rekey the situation calls for the cheapest KEM. -/
theorem optimalAction_after_rekey (r b : R) (d : TickDraws R) (s : StateVector R) :
    optimalAction (evolve r b rekeyActionIndex d s) = wireIndex .mlKem512 := by
  have hbox := evolve_inBox r b rekeyActionIndex d s
  have hmem := spiked_mem (drifted_mem (s threat) (d.drift threat)) d.spike
  have htime : evolve r b rekeyActionIndex d s timeSinceRekey = 0 := by
    rw [evolve_timeSinceRekey, if_pos rfl]
  have hthreat : evolve r b rekeyActionIndex d s threat ≤ 1 / 2 := by
    rw [evolve_threat, if_pos rfl]
    refine max_le (by norm_num) ?_
    norm_num
    linarith
  have hne : optimalAction (evolve r b rekeyActionIndex d s) ≠ rekeyActionIndex := by
    intro hrekey
    have htimer := timer_of_rekey_optimal hbox hrekey
    rw [htime] at htimer
    norm_num at htimer
  have hneed : need (evolve r b rekeyActionIndex d s) ≤ 1 / 2 := by
    have hconn := (hbox connType).2
    unfold need
    rw [htime]
    norm_num
    linarith
  rw [optimalAction_eq_bestKem hne, bestKem_eq_mlKem512_iff hbox]
  have hpressure := pressure_mem hbox
  norm_num
  linarith

/-- A tick lets the timer run by a fiftieth and the drift. -/
theorem evolve_timeSinceRekey_le {δ : R} (r b : R) (a : Fin 4) (d : TickDraws R)
    (hδ : 0 ≤ δ) (hdrift : d.drift timeSinceRekey ≤ δ) (hs : 0 ≤ s timeSinceRekey) :
    evolve r b a d s timeSinceRekey ≤ s timeSinceRekey + (0.02 + δ) := by
  have hfiftieth : (0 : R) ≤ 0.02 := by norm_num
  have hdrifted : drifted (s timeSinceRekey) (d.drift timeSinceRekey) ≤ s timeSinceRekey + δ :=
    (min_le_left _ _).trans (max_le (by linarith) (by linarith))
  have hmem := drifted_mem (s timeSinceRekey) (d.drift timeSinceRekey)
  rw [evolve_timeSinceRekey]
  split
  · linarith
  · exact (min_le_left _ _).trans (max_le (by linarith) (by linarith))

/-- After a rekey, whoever plays on, the oracle asks for no other one before the ticks and their
drift have used up half of the timer; right after it the oracle asks for ML-KEM-512. -/
theorem oracle_waits_after_rekey {env : VPNEnv G R} (hs : env.state = some s)
    {calls : List VPNEnv.Call} {as : List (Fin 4)}
    (hplays : PlaysAll calls (rekeyActionIndex :: as)) {δ : R} (hδ : 0 ≤ δ)
    (hdrift : ∀ d ∈ (drawTicks gen (as.length + 1) env.rng).1.tail, d.drift timeSinceRekey ≤ δ)
    (hshort : as.length * (0.02 + δ) ≤ 0.51) :
    ∃ t, (Machine.stateAfter (VPNEnv.call gen) env calls).state = some t ∧
      optimalAction t ≠ rekeyActionIndex ∧
      (as = [] → optimalAction t = wireIndex .mlKem512) := by
  let first := drawTick gen env.rng
  let rest := (drawTicks gen as.length first.2).1
  let s' := evolve env.params.cpuRelax env.cpuBaseline rekeyActionIndex first.1 s
  let t := evolveAll env.params.cpuRelax env.cpuBaseline s' (as.zip rest)
  have hstate : (Machine.stateAfter (VPNEnv.call gen) env calls).state = some t := by
    rw [stateAfter_plays hs hplays]
    rfl
  have hbox : InBox t :=
    Driven.run_invariant (fun i _ u _ => evolve_inBox _ _ i.1 i.2 u) (evolve_inBox _ _ _ _ _)
  have htimer : t timeSinceRekey ≤ 0.51 := by
    have hstart : s' timeSinceRekey = 0 := by
      change evolve _ _ _ _ _ _ = _
      rw [evolve_timeSinceRekey, if_pos rfl]
    have hrun : t timeSinceRekey ≤ s' timeSinceRekey + (as.zip rest).length * (0.02 + δ) :=
      Driven.run_le_add (f := fun u : StateVector R => u timeSinceRekey) (I := InBox)
        (fun i _ u _ => evolve_inBox _ _ i.1 i.2 u)
        (fun i hi u hu => evolve_timeSinceRekey_le _ _ _ _ hδ (hdrift i.2 (List.of_mem_zip hi).2)
          (hu timeSinceRekey).1) (evolve_inBox _ _ _ _ _)
    rw [List.length_zip, length_drawTicks, min_self, hstart, zero_add] at hrun
    exact hrun.trans hshort
  refine ⟨t, hstate, ?_, ?_⟩
  · intro hrekey
    exact not_lt.2 htimer (timer_of_rekey_optimal hbox hrekey)
  · rintro rfl
    exact optimalAction_after_rekey _ _ _ _

end Rekey

theorem congruential_drift {n : Nat} {rng : Nat} {d : TickDraws ℚ}
    (hd : d ∈ (drawTicks congruential n rng).1) (i : StateIndex) : |d.drift i| ≤ 3 / 100 := by
  have hdraw : ∀ rng : Nat, |(drawTick congruential rng).1.drift i| ≤ 3 / 100 := by
    intro rng
    have hdrift : (drawTick congruential rng).1.drift i =
        0 + 0.03 * (2 * thousandths (rng * (i.val + 1)) - 1) := by
      unfold drawTick
      dsimp only
      split <;> rfl
    have hmem := thousandths_mem (rng * (i.val + 1))
    rw [hdrift, abs_le]
    norm_num
    constructor <;> linarith
  induction n generalizing rng with
  | zero => cases hd
  | succ n ih =>
      rcases List.mem_cons.1 hd with rfl | hd
      · exact hdraw rng
      · exact ih hd

/-- Three ticks after a rekey. -/
theorem congruential_oracle_waits :
    ∃ t, (Machine.stateAfter (VPNEnv.call congruential)
        ((congruentialEnv.reset congruential (some 7)).2) [.step 3, .step 2, .advance 1]).state =
          some t ∧ optimalAction t ≠ rekeyActionIndex := by
  have hplays : PlaysAll [.step 3, .step 2, .advance 1] [rekeyActionIndex, 2, 1] :=
    .cons (.inl rfl) (.cons (.inl rfl) (.cons (.inr rfl) .nil))
  have hstate : (congruentialEnv.reset congruential (some 7)).2.state = some _ := rfl
  have hdrift : ∀ d ∈ (drawTicks congruential 3
      (congruentialEnv.reset congruential (some 7)).2.rng).1.tail,
      d.drift timeSinceRekey ≤ 3 / 100 :=
    fun d hd => (abs_le.1 (congruential_drift (List.mem_of_mem_tail hd) _)).2
  rcases oracle_waits_after_rekey hstate hplays (by norm_num) hdrift (by norm_num)
    with ⟨t, ht, hwaits, _⟩
  exact ⟨t, ht, hwaits⟩

/-! ## The load -/

section Load

variable [IsStrictOrderedRing R]

theorem relaxed_eq {r b y : R} (hr : 0 < r) (hr' : r ≤ 1) (hb : 0 ≤ b ∧ b ≤ 1)
    (hy : 0 ≤ y ∧ y ≤ 1) : relaxed r b y = (1 - r) * y + r * b := by
  have hweight : 0 ≤ 1 - r := sub_nonneg.2 hr'
  have hlow : 0 ≤ (1 - r) * y + r * b :=
    add_nonneg (mul_nonneg hweight hy.1) (mul_nonneg hr.le hb.1)
  have hhigh : (1 - r) * y + r * b ≤ 1 := by
    calc (1 - r) * y + r * b ≤ (1 - r) * 1 + r * 1 :=
          add_le_add (mul_le_mul_of_nonneg_left hy.2 hweight) (mul_le_mul_of_nonneg_left hb.2 hr.le)
      _ = 1 := by ring
  have hmean : y - r * (y - b) = (1 - r) * y + r * b := by ring
  rw [relaxed, if_pos hr, hmean, clip_of_mem ⟨hlow, hhigh⟩]

theorem relativeCost_mem (a : Fin 4) : (0 : R) ≤ relativeCost a ∧ (relativeCost a : R) ≤ 1 := by
  have hcost : ∀ a : Fin 4, 0 ≤ actionCost a / maxCpuCost ∧ actionCost a / maxCpuCost ≤ 1 := by
    decide +kernel
  refine ⟨Rat.cast_nonneg.2 (hcost a).1, ?_⟩
  calc (relativeCost a : R) ≤ ((1 : Rat) : R) := Rat.cast_le.2 (hcost a).2
    _ = 1 := Rat.cast_one

/-- The load of a tick before the mean reversion. -/
theorem loaded_mem {x drift δ : R} (hx : 0 ≤ x ∧ x ≤ 1) (hdrift : |drift| ≤ δ) (a : Fin 4) :
    x - δ ≤ clip (drifted x drift + 0.1 * relativeCost a) 0 1 ∧
      clip (drifted x drift + 0.1 * relativeCost a) 0 1 ≤ x + (0.1 + δ) := by
  have hδ := (abs_nonneg drift).trans hdrift
  have hsign := abs_le.1 hdrift
  have hcost : (0 : R) ≤ relativeCost a ∧ (relativeCost a : R) ≤ 1 := relativeCost_mem a
  have hmem := drifted_mem x drift
  have hlow : x - δ ≤ drifted x drift := le_min (le_max_of_le_left (by linarith)) (by linarith)
  have hhigh : drifted x drift ≤ x + δ := (min_le_left _ _).trans (max_le (by linarith) (by linarith))
  have htenth : (0.1 : R) = 1 / 10 := by norm_num
  rw [htenth]
  constructor
  · exact le_min (le_max_of_le_left (by linarith)) (by linarith)
  · exact (min_le_left _ _).trans (max_le (by linarith) (by linarith))

variable {δ r b : R} {s : StateVector R} {d : TickDraws R}

/-- With the mean reversion, a tick brings the load closer to the baseline. -/
theorem evolve_cpuLoad_contracts (hr : 0 < r) (hr' : r ≤ 1) (hb : 0 ≤ b ∧ b ≤ 1) (hs : InBox s)
    (hdrift : |d.drift cpuLoad| ≤ δ) (a : Fin 4) :
    evolve r b a d s cpuLoad - b ≤ (1 - r) * (s cpuLoad - b + (0.1 + δ)) ∧
      b - evolve r b a d s cpuLoad ≤ (1 - r) * (b - s cpuLoad + δ) := by
  have hload := loaded_mem (hs cpuLoad) hdrift a
  have hweight : 0 ≤ 1 - r := sub_nonneg.2 hr'
  rw [evolve_cpuLoad, relaxed_eq hr hr' hb ⟨clip_nonneg _, clip_le_one _⟩]
  generalize clip (drifted (s cpuLoad) (d.drift cpuLoad) + 0.1 * relativeCost a) 0 1 = y at hload
  constructor
  · calc (1 - r) * y + r * b - b = (1 - r) * (y - b) := by ring
      _ ≤ (1 - r) * (s cpuLoad - b + (0.1 + δ)) :=
            mul_le_mul_of_nonneg_left (by linarith [hload.2]) hweight
  · calc b - ((1 - r) * y + r * b) = (1 - r) * (b - y) := by ring
      _ ≤ (1 - r) * (b - s cpuLoad + δ) :=
            mul_le_mul_of_nonneg_left (by linarith [hload.1]) hweight

/-- Without it, a tick adds the cost of its action and takes away the drift at most. -/
theorem evolve_cpuLoad_ratchets (hdrift : |d.drift cpuLoad| ≤ δ) (a : Fin 4) :
    min 1 (s cpuLoad + (0.1 * relativeCost a - δ)) ≤ evolve 0 b a d s cpuLoad := by
  have hsign := abs_le.1 hdrift
  have hcost : (0 : R) ≤ relativeCost a ∧ (relativeCost a : R) ≤ 1 := relativeCost_mem a
  have hdrifted : min 1 (s cpuLoad - δ) ≤ drifted (s cpuLoad) (d.drift cpuLoad) :=
    le_min ((min_le_right _ _).trans (le_max_of_le_left (by linarith))) (min_le_left _ _)
  rw [evolve_cpuLoad, relaxed, if_neg (lt_irrefl _)]
  refine le_min (le_max_of_le_left ?_) (min_le_left _ _)
  have htenth : (0.1 : R) = 1 / 10 := by norm_num
  rw [htenth]
  rcases le_total 1 (s cpuLoad - δ) with hfull | hfree
  · rw [min_eq_left hfull] at hdrifted
    exact (min_le_left _ _).trans (by linarith)
  · rw [min_eq_right hfree] at hdrifted
    exact (min_le_right _ _).trans (by linarith)

/-- Over an episode the mean reversion keeps the load in a band around the baseline. -/
theorem evolveAll_cpuLoad_band (hr : 0 < r) (hr' : r ≤ 1) (hδ : 0 ≤ δ) (hs : InBox s)
    (hstart : s cpuLoad = b) {ticks : List (Fin 4 × TickDraws R)}
    (hdrift : ∀ i ∈ ticks, |i.2.drift cpuLoad| ≤ δ) :
    b - (1 - r) * δ / r ≤ evolveAll r b s ticks cpuLoad ∧
      evolveAll r b s ticks cpuLoad ≤ b + (1 - r) * (0.1 + δ) / r := by
  have hb : 0 ≤ b ∧ b ≤ 1 := hstart ▸ hs cpuLoad
  have htenth : (0.1 : R) = 1 / 10 := by norm_num
  have hlevel : ∀ c : R, 0 ≤ c → 0 ≤ Driven.level r c := fun c hc =>
    div_nonneg (mul_nonneg (sub_nonneg.2 hr') hc) hr.le
  have hbox : ∀ i ∈ ticks, ∀ u, InBox u → InBox (evolve r b i.1 i.2 u) :=
    fun i _ u _ => evolve_inBox _ _ i.1 i.2 u
  have hbelow := Driven.run_le_level (f := fun u : StateVector R => b - u cpuLoad) hr hr' hbox
    (fun i hi u hu => (evolve_cpuLoad_contracts hr hr' hb hu (hdrift i hi) i.1).2) hs
    (by rw [hstart, sub_self]; exact hlevel δ hδ)
  have habove := Driven.run_le_level (f := fun u : StateVector R => u cpuLoad - b) hr hr' hbox
    (fun i hi u hu => (evolve_cpuLoad_contracts hr hr' hb hu (hdrift i hi) i.1).1) hs
    (by rw [hstart, sub_self]; exact hlevel (0.1 + δ) (by rw [htenth]; linarith))
  unfold Driven.level at hbelow habove
  unfold evolveAll
  constructor
  · linarith
  · linarith

/-- The load of an episode: with the mean reversion it stays in a band around the load it started
from, and without it the costs of the actions pile up until the processor is full. -/
theorem load_reverts_or_ratchets (hgen : gen.Lawful) (env : VPNEnv G R) (seed : Nat)
    {calls : List VPNEnv.Call} {as : List (Fin 4)} (hplays : PlaysAll calls as)
    (hdrift : ∀ d ∈ (drawTicks gen as.length (env.reset gen (some seed)).2.rng).1,
      |d.drift cpuLoad| ≤ δ) (hδ : 0 ≤ δ)
    (hstart : (env.reset gen (some seed)).1 cpuLoad = b) (hrelax : env.params.cpuRelax = r) :
    ∃ t, (Machine.stateAfter (VPNEnv.call gen) env (.reset (some seed) :: calls)).state = some t ∧
      (0 < r → b - (1 - r) * δ / r ≤ t cpuLoad ∧ t cpuLoad ≤ b + (1 - r) * (0.1 + δ) / r) ∧
      (r = 0 → δ ≤ 0.1 * relativeCost (wireIndex .mlKem512) →
        min 1 (b + (as.map fun a => 0.1 * relativeCost a - δ).sum) ≤ t cpuLoad) := by
  refine ⟨_, stateAfter_reset_plays rfl seed hplays, ?_, ?_⟩
  · intro hr
    rw [hrelax]
    have hbaseline : (env.reset gen (some seed)).2.cpuBaseline = b := hstart
    rw [hbaseline]
    exact evolveAll_cpuLoad_band hr (hrelax ▸ env.params.cpuRelax_mem.2) hδ
      (randomInitialState_inBox hgen _ _) hstart
      fun i hi => hdrift i.2 (List.of_mem_zip hi).2
  · intro hr hcheapest
    have htenth : (0 : R) ≤ 0.1 := by norm_num
    -- every action costs as much as the cheapest, so no tick lowers the load
    have hcheap : ∀ a : Fin 4, actionCost (wireIndex .mlKem512) ≤ actionCost a := by
      decide +kernel
    have hgain : ∀ a : Fin 4, (0 : R) ≤ 0.1 * relativeCost a - δ := by
      intro a
      have hscaled := mul_le_mul_of_nonneg_left (relativeCost_mono (R := R) (hcheap a)) htenth
      linarith
    have hsum : ((as.zip (drawTicks gen as.length (env.reset gen (some seed)).2.rng).1).map
        fun i => 0.1 * relativeCost i.1 - δ) = as.map fun a => 0.1 * relativeCost a - δ := by
      have hfst : (as.zip (drawTicks gen as.length (env.reset gen (some seed)).2.rng).1).map
          Prod.fst = as := List.map_fst_zip (by rw [length_drawTicks])
      calc _ = ((as.zip (drawTicks gen as.length (env.reset gen (some seed)).2.rng).1).map
            Prod.fst).map (fun a => 0.1 * relativeCost a - δ) := by rw [List.map_map]; rfl
        _ = _ := by rw [hfst]
    rw [hrelax, hr, ← hsum]
    exact Driven.min_add_sum_le_run (f := fun u : StateVector R => u cpuLoad)
      (fun i _ => hgain i.1)
      (fun i hi u => evolve_cpuLoad_ratchets (hdrift i.2 (List.of_mem_zip hi).2) i.1)
      (hstart ▸ min_le_right _ _)

end Load

theorem congruential_load_reverts :
    ∃ t, (Machine.stateAfter (VPNEnv.call congruential) congruentialEnv
        [.reset (some 7), .step 2, .advance 3]).state = some t ∧
      t cpuLoad ≤ (congruentialEnv.reset congruential (some 7)).1 cpuLoad +
        (1 - 1 / 10) * (0.1 + 3 / 100) / (1 / 10) := by
  have hplays : PlaysAll [.step 2, .advance 3] [2, 3] := .cons (.inl rfl) (.cons (.inr rfl) .nil)
  have hdrift : ∀ d ∈ (drawTicks congruential 2
      (congruentialEnv.reset congruential (some 7)).2.rng).1, |d.drift cpuLoad| ≤ 3 / 100 :=
    fun d hd => congruential_drift hd _
  rcases load_reverts_or_ratchets congruential_lawful congruentialEnv 7 hplays
    (r := 1 / 10) hdrift (by norm_num) rfl rfl
    with ⟨t, ht, hband, _⟩
  exact ⟨t, ht, (hband (by norm_num)).2⟩

end Policy
end PqcVpn
