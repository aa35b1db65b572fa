import PqcVpn.Lib.Collect
import PqcVpn.Policy.Episodes

/-!
# Rollout — playing a policy to the end of its episodes

`rollout` of `client/rl_agent/evaluate.py` plays a policy until the environment says that the episode
is over and adds up the rewards.  Its loop runs on fuel here; the results say how much it needs.
-/

namespace PqcVpn
namespace Policy

open Gate (wireIndex)
open State

variable {G R : Type} [Field R] [LinearOrder R]

/-! ## The loop -/

inductive RolloutError (R : Type)
  | invalid (e : InitError R)
  | raised
  | outOfFuel

variable (gen : Generator G R)

def rolloutLoop (policy : StateVector R → Int) :
    Nat → VPNEnv G R → StateVector R → R → Except (RolloutError R) R
  | 0, _, _, _ => .error .outOfFuel
  | fuel + 1, env, state, total =>
      match env.step gen (policy state) with
      | none => .error .raised
      | some r =>
          let total := total + r.1.reward
          if r.1.terminated || r.1.truncated then .ok total
          else rolloutLoop policy fuel r.2 r.1.observation total

/-- One episode, from its seed. -/
def rolloutEpisode (policy : StateVector R → Int) (episodeLen : Int) (curriculum : R)
    (fuel seed : Nat) : Except (RolloutError R) R :=
  match VPNEnv.init episodeLen (gen.defaultRng seed) curriculum 0 "low" with
  | .error e => .error (.invalid e)
  | .ok env =>
      let first := env.reset gen (some seed)
      rolloutLoop gen policy fuel first.2 first.1 0

/-- The return of each episode; every policy gets the same seeds. -/
def rollout (policy : StateVector R → Int) (nEpisodes : Nat) (episodeLen : Int) (seed0 : Nat)
    (curriculum : R) (fuel : Nat) : Except (RolloutError R) (List R) :=
  (List.range nEpisodes).mapM fun i =>
    rolloutEpisode gen policy episodeLen curriculum fuel (seed0 + i)

/-- The rewards of the next `n` steps, as far as none raises. -/
def stepRewards (policy : StateVector R → Int) : Nat → VPNEnv G R → StateVector R → List R
  | 0, _, _ => []
  | n + 1, env, state =>
      match env.step gen (policy state) with
      | none => []
      | some r => r.1.reward :: stepRewards policy n r.2 r.1.observation

/-- The rewards of the first `n` steps of an episode. -/
def episodeRewards (policy : StateVector R → Int) (n : Nat) (episodeLen : Int) (curriculum : R)
    (seed : Nat) : List R :=
  match VPNEnv.init episodeLen (gen.defaultRng seed) curriculum 0 "low" with
  | .error _ => []
  | .ok env =>
      let first := env.reset gen (some seed)
      stepRewards gen policy n first.2 first.1

/-- A policy that answers with an action, as the loop calls it. -/
def asPolicy (choice : StateVector R → Fin 4) (s : StateVector R) : Int := (choice s).val

/-! ## How long it runs -/

/-- The steps an episode has left; there is always one. -/
def stepsLeft (episodeLen : Int) (t : Nat) : Nat := max 1 (episodeLen - t).toNat

variable {gen}

section Loop

variable {choice : StateVector R → Fin 4} {env : VPNEnv G R} {s : StateVector R}

theorem rolloutLoop_succ (hs : env.state = some s) (fuel : Nat) (total : R) :
    rolloutLoop gen (asPolicy choice) (fuel + 1) env s total =
      if stepsLeft env.params.episodeLen env.t = 1 then .ok (total + actionReward s (choice s))
      else rolloutLoop gen (asPolicy choice) fuel (VPNEnv.tick gen env s (choice s))
        (evolve env.params.cpuRelax env.cpuBaseline (choice s) (drawTick gen env.rng).1 s)
        (total + actionReward s (choice s)) := by
  have hlast : ((env.t + 1 : Int) ≥ env.params.episodeLen) ↔
      stepsLeft env.params.episodeLen env.t = 1 := by
    unfold stepsLeft
    omega
  have hstep : env.step gen (asPolicy choice s) = _ := VPNEnv.step_eq (a := choice s) hs
  rw [rolloutLoop, hstep]
  simp only [Bool.false_or, decide_eq_true_eq, hlast]

theorem stepsLeft_tick (gen : Generator G R) (s : StateVector R) (a : Fin 4)
    (hmore : stepsLeft env.params.episodeLen env.t ≠ 1) :
    stepsLeft (VPNEnv.tick gen env s a).params.episodeLen (VPNEnv.tick gen env s a).t + 1 =
      stepsLeft env.params.episodeLen env.t := by
  simp only [VPNEnv.tick]
  unfold stepsLeft at hmore ⊢
  omega

theorem rolloutLoop_outOfFuel (hs : env.state = some s) {fuel : Nat}
    (hfuel : fuel < stepsLeft env.params.episodeLen env.t) (total : R) :
    rolloutLoop gen (asPolicy choice) fuel env s total = .error .outOfFuel := by
  induction fuel generalizing env s total with
  | zero => rfl
  | succ fuel ih =>
      have hmore : stepsLeft env.params.episodeLen env.t ≠ 1 := by omega
      have hleft := stepsLeft_tick gen s (choice s) hmore
      rw [rolloutLoop_succ hs, if_neg hmore]
      exact ih rfl (by omega) _

theorem stepRewards_succ (hs : env.state = some s) (n : Nat) :
    stepRewards gen (asPolicy choice) (n + 1) env s =
      actionReward s (choice s) ::
        stepRewards gen (asPolicy choice) n (VPNEnv.tick gen env s (choice s))
          (evolve env.params.cpuRelax env.cpuBaseline (choice s) (drawTick gen env.rng).1 s) := by
  have hstep : env.step gen (asPolicy choice s) = _ := VPNEnv.step_eq (a := choice s) hs
  rw [stepRewards, hstep]

/-- With enough fuel the loop ends, after as many rewards as the episode has steps left. -/
theorem rolloutLoop_ok (hs : env.state = some s) {fuel : Nat}
    (hfuel : stepsLeft env.params.episodeLen env.t ≤ fuel) (total : R) :
    rolloutLoop gen (asPolicy choice) fuel env s total =
      .ok (total + (stepRewards gen (asPolicy choice)
        (stepsLeft env.params.episodeLen env.t) env s).sum) := by
  induction fuel generalizing env s total with
  | zero =>
      have hpos : 1 ≤ stepsLeft env.params.episodeLen env.t := le_max_left _ _
      omega
  | succ fuel ih =>
      rw [rolloutLoop_succ hs]
      by_cases hlast : stepsLeft env.params.episodeLen env.t = 1
      · rw [if_pos hlast, hlast, stepRewards_succ hs, stepRewards, List.sum_singleton]
      · have hleft := stepsLeft_tick gen s (choice s) hlast
        have hnow : (VPNEnv.tick gen env s (choice s)).state = some _ := rfl
        rw [if_neg hlast, ih hnow (by omega), ← hleft, stepRewards_succ hs, List.sum_cons,
          add_assoc]

variable [IsStrictOrderedRing R]

/-- No step raises, and each is paid what the states in the box are. -/
theorem stepRewards_bounds (gen : Generator G R) {lo hi : R}
    (hreward : ∀ s, InBox s → lo ≤ actionReward s (choice s) ∧ actionReward s (choice s) ≤ hi)
    (hs : env.state = some s) (hbox : InBox s) (n : Nat) :
    (stepRewards gen (asPolicy choice) n env s).length = n ∧
      ∀ r ∈ stepRewards gen (asPolicy choice) n env s, lo ≤ r ∧ r ≤ hi := by
  induction n generalizing env s with
  | zero => exact ⟨rfl, fun r hr => absurd hr List.not_mem_nil⟩
  | succ n ih =>
      have hnow : (VPNEnv.tick gen env s (choice s)).state = some _ := rfl
      obtain ⟨hlength, hbounds⟩ := ih hnow (evolve_inBox _ _ _ _ _)
      rw [stepRewards_succ hs, List.length_cons, hlength, List.forall_mem_cons]
      exact ⟨rfl, hreward s hbox, hbounds⟩

end Loop

section Rollout

variable [IsStrictOrderedRing R] {choice : StateVector R → Fin 4}

theorem init_low (episodeLen : Int) (rng : G) {curriculum : R}
    (h : 0 ≤ curriculum ∧ curriculum ≤ 1) :
    ∃ env : VPNEnv G R, VPNEnv.init episodeLen rng curriculum 0 "low" = .ok env ∧
      env.params.episodeLen = episodeLen := by
  have hrelax : (0 : R) ≤ 0 ∧ (0 : R) ≤ 1 := ⟨le_refl 0, zero_le_one⟩
  have hmode : PressureMode.fromName "low" = some .low := by decide
  refine ⟨⟨⟨episodeLen, curriculum, 0, .low, h, hrelax⟩, 0, rng, none, 0⟩, ?_, rfl⟩
  simp only [VPNEnv.init, h, hrelax, hmode, and_self, dite_true]

theorem rolloutEpisode_ok {curriculum : R} (hcurriculum : 0 ≤ curriculum ∧ curriculum ≤ 1)
    {episodeLen : Int} {fuel : Nat} (hfuel : stepsLeft episodeLen 0 ≤ fuel) (seed : Nat) :
    rolloutEpisode gen (asPolicy choice) episodeLen curriculum fuel seed =
      .ok (episodeRewards gen (asPolicy choice) (stepsLeft episodeLen 0) episodeLen curriculum
        seed).sum := by
  obtain ⟨env, hinit, hlen⟩ := init_low episodeLen (gen.defaultRng seed) hcurriculum
  subst hlen
  have hstate : (env.reset gen (some seed)).2.state = some _ := rfl
  have hloop : rolloutLoop gen (asPolicy choice) fuel _ _ 0 = _ := rolloutLoop_ok hstate hfuel 0
  rw [zero_add] at hloop
  rw [rolloutEpisode, episodeRewards, hinit]
  exact hloop

theorem episodeRewards_bounds (hgen : gen.Lawful) {curriculum lo hi : R}
    (hcurriculum : 0 ≤ curriculum ∧ curriculum ≤ 1)
    (hreward : ∀ s, InBox s → lo ≤ actionReward s (choice s) ∧ actionReward s (choice s) ≤ hi)
    (n : Nat) (episodeLen : Int) (seed : Nat) :
    (episodeRewards gen (asPolicy choice) n episodeLen curriculum seed).length = n ∧
      ∀ r ∈ episodeRewards gen (asPolicy choice) n episodeLen curriculum seed, lo ≤ r ∧ r ≤ hi := by
  obtain ⟨env, hinit, _⟩ := init_low episodeLen (gen.defaultRng seed) hcurriculum
  have hstate : (env.reset gen (some seed)).2.state = some _ := rfl
  rw [episodeRewards, hinit]
  exact stepRewards_bounds gen hreward hstate (randomInitialState_inBox hgen _ _) n

theorem rolloutEpisode_outOfFuel {curriculum : R} (hcurriculum : 0 ≤ curriculum ∧ curriculum ≤ 1)
    {episodeLen : Int} {fuel : Nat} (hfuel : fuel < stepsLeft episodeLen 0) (seed : Nat) :
    rolloutEpisode gen (asPolicy choice) episodeLen curriculum fuel seed = .error .outOfFuel := by
  obtain ⟨env, hinit, hlen⟩ := init_low episodeLen (gen.defaultRng seed) hcurriculum
  subst hlen
  rw [rolloutEpisode, hinit]
  have hstate : (env.reset gen (some seed)).2.state = some _ := rfl
  exact rolloutLoop_outOfFuel hstate hfuel 0

/-- The returns of a policy are the sums of its rewards. -/
theorem rollout_ok {curriculum : R} (hcurriculum : 0 ≤ curriculum ∧ curriculum ≤ 1)
    (nEpisodes : Nat) {episodeLen : Int} (seed0 : Nat) {fuel : Nat}
    (hfuel : stepsLeft episodeLen 0 ≤ fuel) :
    rollout gen (asPolicy choice) nEpisodes episodeLen seed0 curriculum fuel =
      .ok ((List.range nEpisodes).map fun i => (episodeRewards gen (asPolicy choice)
        (stepsLeft episodeLen 0) episodeLen curriculum (seed0 + i)).sum) := by
  rw [rollout, Collect.mapM_eq_ok_iff, List.forall₂_map_right_iff, List.forall₂_same]
  intro i _
  exact rolloutEpisode_ok hcurriculum hfuel (seed0 + i)

/-- A sum of bounded numbers. -/
theorem sum_bounds {l : List R} {lo hi : R} (h : ∀ x ∈ l, lo ≤ x ∧ x ≤ hi) :
    l.length * lo ≤ l.sum ∧ l.sum ≤ l.length * hi := by
  rw [← nsmul_eq_mul, ← nsmul_eq_mul]
  exact ⟨List.card_nsmul_le_sum l lo fun x hx => (h x hx).1,
    List.sum_le_card_nsmul l hi fun x hx => (h x hx).2⟩

theorem rollout_outOfFuel {curriculum : R} (hcurriculum : 0 ≤ curriculum ∧ curriculum ≤ 1)
    {nEpisodes : Nat} (hepisodes : 0 < nEpisodes) {episodeLen : Int} {fuel : Nat}
    (hfuel : fuel < stepsLeft episodeLen 0) (seed0 : Nat) :
    rollout gen (asPolicy choice) nEpisodes episodeLen seed0 curriculum fuel =
      .error .outOfFuel := by
  obtain ⟨n, rfl⟩ := Nat.exists_eq_succ_of_ne_zero hepisodes.ne'
  rw [rollout, List.range_succ_eq_map, List.mapM_cons, rolloutEpisode_outOfFuel hcurriculum hfuel]
  rfl

/-- The reference policy and the strongest KEM never earn less than a third. -/
theorem third_le_reward {s : StateVector R} (h : InBox s) :
    1 / 3 ≤ actionReward s (optimalAction s) ∧ 1 / 3 ≤ actionReward s (wireIndex .mlKem1024) := by
  have hpressure := pressure_mem h
  have hstrong : 1 / 3 ≤ actionReward s (wireIndex .mlKem1024) := by
    rw [actionReward_mlKem1024 h]
    linarith
  refine ⟨?_, hstrong⟩
  rw [optimalAction_eq]
  split
  · rename_i hrekey
    exact (third_le_bestKem h).trans hrekey.le
  · exact third_le_bestKem h

/-- The rewards of an episode of the policy of `n` steps, with their bounds. -/
theorem paid_of_choice (hgen : gen.Lawful) {curriculum : R}
    (hcurriculum : 0 ≤ curriculum ∧ curriculum ≤ 1) (choice : StateVector R → Fin 4)
    (n : Nat) (episodeLen : Int) (seed : Nat) :
    (∀ r ∈ episodeRewards gen (asPolicy choice) n episodeLen curriculum seed,
      -0.8 ≤ r ∧ r ≤ 1) ∧
    (choice = optimalAction ∨ choice = (fun _ => wireIndex .mlKem1024) →
      ∀ r ∈ episodeRewards gen (asPolicy choice) n episodeLen curriculum seed, 1 / 3 ≤ r) := by
  refine ⟨(episodeRewards_bounds hgen hcurriculum (fun s h => actionReward_mem h (choice s)) n
    episodeLen seed).2, fun hchoice => ?_⟩
  have hthird : ∀ s, InBox s →
      1 / 3 ≤ actionReward s (choice s) ∧ actionReward s (choice s) ≤ 1 := by
    intro s h
    refine ⟨?_, (actionReward_mem h (choice s)).2⟩
    rcases hchoice with rfl | rfl
    · exact (third_le_reward h).1
    · exact (third_le_reward h).2
  intro r hr
  exact ((episodeRewards_bounds hgen hcurriculum hthird n episodeLen seed).2 r hr).1

/-- A rollout plays every episode to its end, which takes `episode_len` steps and never none; its
returns are the sums of the rewards of these steps.  Each step earns between -0.8 and 1, and at
least a third under the oracle or ML-KEM-1024. -/
theorem rollout_plays_out (hgen : gen.Lawful) {curriculum : R}
    (hcurriculum : 0 ≤ curriculum ∧ curriculum ≤ 1) (choice : StateVector R → Fin 4)
    (nEpisodes : Nat) (episodeLen : Int) (seed0 fuel : Nat) :
    (fuel < stepsLeft episodeLen 0 → 0 < nEpisodes →
      rollout gen (asPolicy choice) nEpisodes episodeLen seed0 curriculum fuel =
        .error .outOfFuel) ∧
    (∀ seed, (episodeRewards gen (asPolicy choice) (stepsLeft episodeLen 0) episodeLen curriculum
        seed).length = stepsLeft episodeLen 0 ∧
      (∀ r ∈ episodeRewards gen (asPolicy choice) (stepsLeft episodeLen 0) episodeLen curriculum
        seed, -0.8 ≤ r ∧ r ≤ 1) ∧
      (choice = optimalAction ∨ choice = (fun _ => wireIndex .mlKem1024) →
        ∀ r ∈ episodeRewards gen (asPolicy choice) (stepsLeft episodeLen 0) episodeLen curriculum
          seed, 1 / 3 ≤ r)) ∧
    (stepsLeft episodeLen 0 ≤ fuel →
      ∃ returns, rollout gen (asPolicy choice) nEpisodes episodeLen seed0 curriculum fuel =
          .ok returns ∧
        returns = (List.range nEpisodes).map (fun i => (episodeRewards gen (asPolicy choice)
          (stepsLeft episodeLen 0) episodeLen curriculum (seed0 + i)).sum) ∧
        returns.length = nEpisodes ∧
        (∀ x ∈ returns, stepsLeft episodeLen 0 * -0.8 ≤ x ∧ x ≤ stepsLeft episodeLen 0) ∧
        (choice = optimalAction ∨ choice = (fun _ => wireIndex .mlKem1024) →
          ∀ x ∈ returns, stepsLeft episodeLen 0 * (1 / 3) ≤ x)) := by
  have hlength : ∀ seed, (episodeRewards gen (asPolicy choice) (stepsLeft episodeLen 0) episodeLen
      curriculum seed).length = stepsLeft episodeLen 0 := fun seed =>
    (episodeRewards_bounds hgen hcurriculum (fun s h => actionReward_mem h (choice s)) _
      episodeLen seed).1
  have hpaid := paid_of_choice hgen hcurriculum choice (stepsLeft episodeLen 0) episodeLen
  refine ⟨fun hfuel hepisodes => rollout_outOfFuel hcurriculum hepisodes hfuel seed0,
    fun seed => ⟨hlength seed, hpaid seed⟩, ?_⟩
  intro hfuel
  refine ⟨_, rollout_ok hcurriculum nEpisodes seed0 hfuel, rfl, ?_, ?_, ?_⟩
  · rw [List.length_map, List.length_range]
  · intro x hx
    obtain ⟨i, _, rfl⟩ := List.mem_map.1 hx
    have hsum := sum_bounds (hpaid (seed0 + i)).1
    rw [hlength, mul_one] at hsum
    exact hsum
  · intro hchoice x hx
    obtain ⟨i, _, rfl⟩ := List.mem_map.1 hx
    have hthird := List.card_nsmul_le_sum _ _ ((hpaid (seed0 + i)).2 hchoice)
    rw [hlength, nsmul_eq_mul] at hthird
    exact hthird

end Rollout

theorem congruential_rollout_plays_out :
    ∃ returns, rollout congruential (asPolicy optimalAction) 2 3 7 (1 / 2) 5 = .ok returns ∧
      returns.length = 2 ∧ ∀ x ∈ returns, 1 ≤ x := by
  have hcurriculum : (0 : ℚ) ≤ 1 / 2 ∧ (1 / 2 : ℚ) ≤ 1 := by
    norm_num
  obtain ⟨returns, hreturns, _, hlength, _, hthird⟩ :=
    (rollout_plays_out congruential_lawful hcurriculum optimalAction 2 3 7 5).2.2 (by decide)
  refine ⟨returns, hreturns, hlength, fun x hx => ?_⟩
  have hthree : stepsLeft 3 0 = 3 := by
    decide
  have hx := hthird (.inl rfl) x hx
  rw [hthree] at hx
  norm_num at hx
  exact hx

end Policy
end PqcVpn
