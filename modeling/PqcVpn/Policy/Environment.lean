import PqcVpn.Lib.Machine
import PqcVpn.Policy.Boundary

/-!
# Environment — the simulated session of `client/rl_agent/vpn_env.py`

`VPNEnv` plays a session tick by tick: the state drifts at random, threat spikes now and then, and
every action costs processor time.  The policy is trained on it and scored on it.  The random
generator is a parameter, and numbers are those of an ordered field, in place of floats.
-/

namespace PqcVpn
namespace Policy

open Anomaly (clip clip_nonneg clip_le_one clip_of_mem)
open Gate (rekeyActionIndex)
open State

variable {G R : Type} [Field R] [LinearOrder R]

/-! ## The generator -/

/-- The distributions the environment draws from. -/
inductive Distribution (R : Type)
  | random
  | uniform (low high : R)
  | normal (loc scale : R)
  | beta (a b : R)

/-- What a draw is promised to satisfy. -/
def Distribution.InSupport : Distribution R → R → Prop
  | random, x => 0 ≤ x ∧ x < 1
  | uniform low high, x => low ≤ high → low ≤ x ∧ x ≤ high
  | normal _ _, _ => True
  | beta _ _, x => 0 ≤ x ∧ x ≤ 1

/-- `np.random.Generator`: one draw, a draw for each element of the state, and `default_rng`. -/
structure Generator (G R : Type) where
  defaultRng : Nat → G
  draw : Distribution R → G → R × G
  drawVector : Distribution R → G → StateVector R × G

structure Generator.Lawful (gen : Generator G R) : Prop where
  draw_mem : ∀ (d : Distribution R) rng, d.InSupport (gen.draw d rng).1
  drawVector_mem : ∀ (d : Distribution R) rng i, d.InSupport ((gen.drawVector d rng).1 i)

/-! ## Construction -/

/-- `CURRICULUM_PRESSURE_MODES`. -/
inductive PressureMode
  | low
  | spread
  deriving DecidableEq, Repr

def PressureMode.fromName (name : String) : Option PressureMode :=
  if name = "low" then some low else if name = "spread" then some spread else none

/-- What the constructor keeps of its arguments, once it has checked them. -/
structure EnvParams (R : Type) [Field R] [LinearOrder R] where
  episodeLen : Int
  curriculum : R
  cpuRelax : R
  curriculumPressure : PressureMode
  curriculum_mem : 0 ≤ curriculum ∧ curriculum ≤ 1
  cpuRelax_mem : 0 ≤ cpuRelax ∧ cpuRelax ≤ 1

/-- The `ValueError`s of the constructor, with the value their text ends in. -/
inductive InitError (R : Type)
  | curriculum (got : R)
  | cpuRelax (got : R)
  | curriculumPressure (got : String)

structure VPNEnv (G R : Type) [Field R] [LinearOrder R] where
  params : EnvParams R
  cpuBaseline : R
  rng : G
  state : Option (StateVector R)
  t : Nat

/-- The constructor; `rng` is the generator made from its seed. -/
def VPNEnv.init (episodeLen : Int) (rng : G) (curriculum cpuRelax : R)
    (curriculumPressure : String) : Except (InitError R) (VPNEnv G R) :=
  if hcurriculum : 0 ≤ curriculum ∧ curriculum ≤ 1 then
    if hrelax : 0 ≤ cpuRelax ∧ cpuRelax ≤ 1 then
      match PressureMode.fromName curriculumPressure with
      | none => .error (.curriculumPressure curriculumPressure)
      | some mode =>
          .ok { params := ⟨episodeLen, curriculum, cpuRelax, mode, hcurriculum, hrelax⟩
                cpuBaseline := 0
                rng := rng
                state := none
                t := 0 }
    else
      .error (.cpuRelax cpuRelax)
  else
    .error (.curriculum curriculum)

/-! ## The first state -/

/-- Overwrite one element of a state with a draw. -/
def drawInto (gen : Generator G R) (d : Distribution R) (i : StateIndex)
    (s : StateVector R × G) : StateVector R × G :=
  let drawn := gen.draw d s.2
  (Function.update s.1 i drawn.1, drawn.2)

def highNeedInitialState (gen : Generator G R) (p : EnvParams R) (rng : G) : StateVector R × G :=
  let s := gen.drawVector (.uniform 0 1) rng
  let s := drawInto gen (.beta 4.0 1.0) threat s
  let s := drawInto gen (.beta 4.0 1.0) connType s
  let s := drawInto gen (.beta 4.0 1.0) timeSinceRekey s
  match p.curriculumPressure with
  | .spread => drawInto gen (.uniform 0 1) ramAvail (drawInto gen (.uniform 0 1) cpuLoad s)
  | .low => drawInto gen (.beta 3.0 1.0) ramAvail (drawInto gen (.beta 1.0 3.0) cpuLoad s)

/-- The generator is only asked about the curriculum when there is one. -/
def randomInitialState (gen : Generator G R) (p : EnvParams R) (rng : G) : StateVector R × G :=
  if p.curriculum > 0 then
    let test := gen.draw .random rng
    if test.1 < p.curriculum then
      highNeedInitialState gen p test.2
    else
      gen.drawVector (.uniform 0 1) test.2
  else
    gen.drawVector (.uniform 0 1) rng

/-! ## A tick -/

/-- What a tick draws: the drift, and a spike when the test called for one. -/
structure TickDraws (R : Type) where
  drift : StateVector R
  spike : Option R

def drawTick (gen : Generator G R) (rng : G) : TickDraws R × G :=
  let drift := gen.drawVector (.normal 0 0.03) rng
  let test := gen.draw .random drift.2
  if test.1 < 0.05 then
    let spike := gen.draw (.uniform 0.4 1.0) test.2
    (⟨drift.1, some spike.1⟩, spike.2)
  else
    (⟨drift.1, none⟩, test.2)

def walk (drift s : StateVector R) : StateVector R := fun i => clip (s i + drift i) 0 1

def spikeThreat (spike : Option R) (s : StateVector R) : StateVector R :=
  match spike with
  | some x => Function.update s threat (clip (s threat + x) 0 1)
  | none => s

/-- The share of the most expensive action's cost. -/
def relativeCost (a : Fin 4) : R := ((actionCost a / maxCpuCost : Rat) : R)

def loadCpu (a : Fin 4) (s : StateVector R) : StateVector R :=
  Function.update s cpuLoad (clip (s cpuLoad + 0.1 * relativeCost a) 0 1)

def relaxCpu (cpuRelax baseline : R) (s : StateVector R) : StateVector R :=
  if cpuRelax > 0 then
    Function.update s cpuLoad (clip (s cpuLoad - cpuRelax * (s cpuLoad - baseline)) 0 1)
  else
    s

/-- A rekey resets the timer and calms the threat; any other action lets the timer run. -/
def ageKeys (a : Fin 4) (s : StateVector R) : StateVector R :=
  if a = Gate.Python.rekeyActionIdx then
    let s := Function.update s timeSinceRekey 0
    Function.update s threat (max 0 (s threat - 0.5))
  else
    Function.update s timeSinceRekey (clip (s timeSinceRekey + 0.02) 0 1)

/-- `_evolve_state` with its draws as an argument. -/
def evolve (cpuRelax baseline : R) (a : Fin 4) (d : TickDraws R) (s : StateVector R) :
    StateVector R :=
  ageKeys a (relaxCpu cpuRelax baseline (loadCpu a (spikeThreat d.spike (walk d.drift s))))

/-! ## The environment -/

/-- `action_space.contains`. -/
def actionSpace (actionIdx : Int) : Option (Fin 4) :=
  (List.finRange 4).find? fun a => (a.val : Int) = actionIdx

/-- What `step` returns. -/
structure StepResult (R : Type) where
  observation : StateVector R
  reward : R
  terminated : Bool
  truncated : Bool
  algo : String

namespace VPNEnv

variable (gen : Generator G R)

/-- `_evolve_state` and the counting of the tick, from the state `s`. -/
def tick (env : VPNEnv G R) (s : StateVector R) (a : Fin 4) : VPNEnv G R :=
  let draws := drawTick gen env.rng
  { env with
    rng := draws.2
    state := some (evolve env.params.cpuRelax env.cpuBaseline a draws.1 s)
    t := env.t + 1 }

def reset (env : VPNEnv G R) (seed : Option Nat) : StateVector R × VPNEnv G R :=
  let rng := match seed with
    | some seed => gen.defaultRng seed
    | none => env.rng
  let first := randomInitialState gen env.params rng
  (first.1,
    { env with rng := first.2, state := some first.1, cpuBaseline := first.1 cpuLoad, t := 0 })

/-- The action must be in the action space and the environment reset; else it raises. -/
def advance (env : VPNEnv G R) (actionIdx : Int) : Option (StateVector R × VPNEnv G R) := do
  let a ← actionSpace actionIdx
  let s ← env.state
  let env := tick gen env s a
  return (← env.state, env)

def step (env : VPNEnv G R) (actionIdx : Int) : Option (StepResult R × VPNEnv G R) := do
  let a ← actionSpace actionIdx
  let s ← env.state
  let reward := actionReward s a
  let env := tick gen env s a
  let result : StepResult R :=
    { observation := ← env.state
      reward := reward
      terminated := false
      truncated := decide ((env.t : Int) ≥ env.params.episodeLen)
      algo := actionName a }
  return (result, env)

/-! ### Calls -/

/-- The public methods. -/
inductive Call
  | reset (seed : Option Nat)
  | advance (actionIdx : Int)
  | step (actionIdx : Int)

inductive Answer (R : Type)
  | observation (s : StateVector R)
  | result (r : StepResult R)
  | raised

/-- A call that raises leaves the environment as it was. -/
def call (env : VPNEnv G R) : Call → Answer R × VPNEnv G R
  | .reset seed =>
      let r := env.reset gen seed
      (.observation r.1, r.2)
  | .advance actionIdx =>
      match env.advance gen actionIdx with
      | some r => (.observation r.1, r.2)
      | none => (.raised, env)
  | .step actionIdx =>
      match env.step gen actionIdx with
      | some r => (.result r.1, r.2)
      | none => (.raised, env)

end VPNEnv

/-! ## A tick, element by element -/

theorem rekeyActionIdx_eq : Gate.Python.rekeyActionIdx = rekeyActionIndex :=
  Gate.Python.rekeyActionIdx_eq

/-- The reading of a sensor after the drift. -/
def drifted (x drift : R) : R := clip (x + drift) 0 1

/-- The threat after the test for a spike. -/
def spiked (spike : Option R) (x : R) : R := spike.elim x fun y => clip (x + y) 0 1

/-- The load after the mean reversion. -/
def relaxed (cpuRelax baseline x : R) : R :=
  if cpuRelax > 0 then clip (x - cpuRelax * (x - baseline)) 0 1 else x

section Elements

variable (r b : R) (a : Fin 4) (d : TickDraws R) (s : StateVector R)

theorem ageKeys_of_ne {i : StateIndex} (htime : i ≠ timeSinceRekey) (hthreat : i ≠ threat) :
    ageKeys a s i = s i := by
  unfold ageKeys
  split
  · rw [Function.update_of_ne hthreat, Function.update_of_ne htime]
  · rw [Function.update_of_ne htime]

theorem relaxCpu_of_ne {i : StateIndex} (h : i ≠ cpuLoad) : relaxCpu r b s i = s i := by
  unfold relaxCpu
  split
  · rw [Function.update_of_ne h]
  · rfl

theorem relaxCpu_cpuLoad : relaxCpu r b s cpuLoad = relaxed r b (s cpuLoad) := by
  unfold relaxCpu relaxed
  split
  · rw [Function.update_self]
  · rfl

theorem loadCpu_of_ne {i : StateIndex} (h : i ≠ cpuLoad) : loadCpu a s i = s i :=
  Function.update_of_ne h _ _

theorem spikeThreat_of_ne (spike : Option R) {i : StateIndex} (h : i ≠ threat) :
    spikeThreat spike s i = s i := by
  cases spike with
  | none => rfl
  | some x => exact Function.update_of_ne h _ _

theorem spikeThreat_threat (spike : Option R) :
    spikeThreat spike s threat = spiked spike (s threat) := by
  cases spike with
  | none => rfl
  | some x => exact Function.update_self threat _ s

/-- What no action touches only drifts. -/
theorem evolve_of_ne {i : StateIndex} (hcpu : i ≠ cpuLoad) (htime : i ≠ timeSinceRekey)
    (hthreat : i ≠ threat) : evolve r b a d s i = drifted (s i) (d.drift i) := by
  rw [evolve, ageKeys_of_ne _ _ htime hthreat, relaxCpu_of_ne _ _ _ hcpu, loadCpu_of_ne _ _ hcpu,
    spikeThreat_of_ne _ _ hthreat]
  rfl

theorem evolve_cpuLoad : evolve r b a d s cpuLoad =
    relaxed r b (clip (drifted (s cpuLoad) (d.drift cpuLoad) + 0.1 * relativeCost a) 0 1) := by
  rw [evolve, ageKeys_of_ne _ _ (by decide) (by decide), relaxCpu_cpuLoad, loadCpu,
    Function.update_self, spikeThreat_of_ne _ _ (by decide)]
  rfl

theorem evolve_timeSinceRekey : evolve r b a d s timeSinceRekey =
    if a = rekeyActionIndex then 0
      else clip (drifted (s timeSinceRekey) (d.drift timeSinceRekey) + 0.02) 0 1 := by
  rw [evolve, ageKeys, rekeyActionIdx_eq]
  split
  · rw [Function.update_of_ne (by decide), Function.update_self]
  · rw [Function.update_self, relaxCpu_of_ne _ _ _ (by decide), loadCpu_of_ne _ _ (by decide),
      spikeThreat_of_ne _ _ (by decide)]
    rfl

theorem evolve_threat : evolve r b a d s threat =
    if a = rekeyActionIndex then
      max 0 (spiked d.spike (drifted (s threat) (d.drift threat)) - 0.5)
    else spiked d.spike (drifted (s threat) (d.drift threat)) := by
  have hspiked : relaxCpu r b (loadCpu a (spikeThreat d.spike (walk d.drift s))) threat =
      spiked d.spike (drifted (s threat) (d.drift threat)) := by
    rw [relaxCpu_of_ne _ _ _ (by decide), loadCpu_of_ne _ _ (by decide), spikeThreat_threat]
    rfl
  rw [evolve, ageKeys, rekeyActionIdx_eq]
  split
  · rw [Function.update_self, Function.update_of_ne (by decide), hspiked]
  · rw [Function.update_of_ne (by decide), hspiked]

end Elements

/-! ## The box -/

section Box

variable [IsStrictOrderedRing R]

theorem drifted_mem (x drift : R) : 0 ≤ drifted x drift ∧ drifted x drift ≤ 1 :=
  ⟨clip_nonneg _, clip_le_one _⟩

theorem spiked_mem {x : R} (h : 0 ≤ x ∧ x ≤ 1) (spike : Option R) :
    0 ≤ spiked spike x ∧ spiked spike x ≤ 1 := by
  cases spike with
  | none => exact h
  | some y => exact ⟨clip_nonneg _, clip_le_one _⟩

theorem relaxed_mem {x : R} (h : 0 ≤ x ∧ x ≤ 1) (r b : R) :
    0 ≤ relaxed r b x ∧ relaxed r b x ≤ 1 := by
  unfold relaxed
  split
  · exact ⟨clip_nonneg _, clip_le_one _⟩
  · exact h

/-- A tick leads into the box, from wherever it starts. -/
theorem evolve_inBox (r b : R) (a : Fin 4) (d : TickDraws R) (s : StateVector R) :
    InBox (evolve r b a d s) := by
  intro i
  by_cases hcpu : i = cpuLoad
  · rw [hcpu, evolve_cpuLoad]
    exact relaxed_mem ⟨clip_nonneg _, clip_le_one _⟩ r b
  by_cases htime : i = timeSinceRekey
  · rw [htime, evolve_timeSinceRekey]
    split
    · exact ⟨le_refl 0, zero_le_one⟩
    · exact ⟨clip_nonneg _, clip_le_one _⟩
  by_cases hthreat : i = threat
  · have hmem := spiked_mem (drifted_mem (s threat) (d.drift threat)) d.spike
    rw [hthreat, evolve_threat]
    split
    · have hhalf : (0 : R) ≤ 0.5 := by norm_num
      exact ⟨le_max_left _ _, max_le zero_le_one (by linarith [hmem.2])⟩
    · exact hmem
  · rw [evolve_of_ne _ _ _ _ _ hcpu htime hthreat]
    exact drifted_mem _ _

omit [IsStrictOrderedRing R] in
theorem InBox.update {s : StateVector R} (h : InBox s) (i : StateIndex) {x : R}
    (hx : 0 ≤ x ∧ x ≤ 1) : InBox (Function.update s i x) := by
  intro j
  by_cases hj : j = i
  · rw [hj, Function.update_self]
    exact hx
  · rw [Function.update_of_ne hj]
    exact h j

variable {gen : Generator G R}

/-- The distributions of the first state. -/
def Distribution.Unit : Distribution R → Prop
  | uniform low high => low = 0 ∧ high = 1
  | beta _ _ => True
  | _ => False

theorem Distribution.Unit.mem {d : Distribution R} (h : d.Unit) {x : R} (hx : d.InSupport x) :
    0 ≤ x ∧ x ≤ 1 := by
  cases d with
  | random => cases h
  | uniform low high =>
      rcases h with ⟨rfl, rfl⟩
      exact hx zero_le_one
  | normal loc scale => cases h
  | beta a b => exact hx

theorem drawInto_inBox (hgen : gen.Lawful) {d : Distribution R} (hd : d.Unit) (i : StateIndex)
    {s : StateVector R × G} (h : InBox s.1) : InBox (drawInto gen d i s).1 :=
  h.update i (hd.mem (hgen.draw_mem d s.2))

theorem drawVector_inBox (hgen : gen.Lawful) (rng : G) :
    InBox (gen.drawVector (.uniform 0 1) rng).1 := fun i =>
  hgen.drawVector_mem (.uniform 0 1) rng i zero_le_one

theorem highNeedInitialState_inBox (hgen : gen.Lawful) (p : EnvParams R) (rng : G) :
    InBox (highNeedInitialState gen p rng).1 := by
  have hfirst := drawVector_inBox hgen rng
  have hneeds := drawInto_inBox hgen (d := .beta 4.0 1.0) trivial timeSinceRekey
    (drawInto_inBox hgen (d := .beta 4.0 1.0) trivial connType
      (drawInto_inBox hgen (d := .beta 4.0 1.0) trivial threat hfirst))
  unfold highNeedInitialState
  cases p.curriculumPressure with
  | spread =>
      exact drawInto_inBox hgen (d := .uniform 0 1) ⟨rfl, rfl⟩ ramAvail
        (drawInto_inBox hgen (d := .uniform 0 1) ⟨rfl, rfl⟩ cpuLoad hneeds)
  | low =>
      exact drawInto_inBox hgen (d := .beta 3.0 1.0) trivial ramAvail
        (drawInto_inBox hgen (d := .beta 1.0 3.0) trivial cpuLoad hneeds)

theorem randomInitialState_inBox (hgen : gen.Lawful) (p : EnvParams R) (rng : G) :
    InBox (randomInitialState gen p rng).1 := by
  unfold randomInitialState
  split
  · dsimp only
    split
    · exact highNeedInitialState_inBox hgen p _
    · exact drawVector_inBox hgen _
  · exact drawVector_inBox hgen _

/-! ## Rewards -/

theorem exists_wireIndex {a : Fin 4} (ha : a ≠ rekeyActionIndex) :
    ∃ level, a = Gate.wireIndex level := by
  cases hlevel : Gate.levelAt a with
  | none => exact absurd (Gate.levelAt_eq_none_iff.1 hlevel) ha
  | some level => exact ⟨level, Gate.levelAt_eq_some_iff.1 hlevel⟩

theorem urgency_mem {s : StateVector R} (h : InBox s) : 0 ≤ urgency s ∧ urgency s ≤ 1 := by
  have hthreat := h threat
  have htime := h timeSinceRekey
  unfold urgency
  constructor <;> linarith

theorem actionReward_mem {s : StateVector R} (h : InBox s) (a : Fin 4) :
    -0.8 ≤ actionReward s a ∧ actionReward s a ≤ 1 := by
  have hpressure := pressure_mem h
  have hneed := need_mem h
  by_cases ha : a = rekeyActionIndex
  · have hurgency := urgency_mem h
    rw [ha, actionReward_rekey]
    norm_num
    constructor <;> linarith
  · obtain ⟨level, rfl⟩ := exists_wireIndex ha
    have hshort : ∀ x : R, 7 / 10 ≤ x → 0 ≤ max 0 (need s - x) ∧ max 0 (need s - x) ≤ 3 / 10 :=
      fun x hx => ⟨le_max_left _ _, max_le (by norm_num) (by linarith)⟩
    norm_num
    cases level with
    | mlKem512 =>
        have hshort := hshort (7 / 10) (le_refl _)
        rw [actionReward_mlKem512 h]
        constructor <;> linarith
    | mlKem768 =>
        have hshort := hshort (17 / 20) (by norm_num)
        rw [actionReward_mlKem768 h]
        constructor <;> linarith
    | mlKem1024 =>
        rw [actionReward_mlKem1024 h]
        constructor <;> linarith

end Box

/-! ## Calls in a row -/

/-- A reading of the environment is in the box, and so is the reward in its range. -/
def VPNEnv.Answer.InRange : VPNEnv.Answer R → Prop
  | .observation s => InBox s
  | .result r => InBox r.observation ∧ -0.8 ≤ r.reward ∧ r.reward ≤ 1 ∧ r.terminated = false
  | .raised => True

theorem actionSpace_eq_some_iff {actionIdx : Int} {a : Fin 4} :
    actionSpace actionIdx = some a ↔ actionIdx = a.val := by
  constructor
  · intro h
    have hfound := List.find?_some (p := fun a : Fin 4 => decide ((a.val : Int) = actionIdx)) h
    exact (of_decide_eq_true hfound).symm
  · rintro rfl
    revert a
    decide

theorem actionSpace_eq_none_iff {actionIdx : Int} :
    actionSpace actionIdx = none ↔ ¬ (0 ≤ actionIdx ∧ actionIdx < 4) := by
  rw [actionSpace, List.find?_eq_none]
  constructor
  · rintro h ⟨hnonneg, hlt⟩
    refine h ⟨actionIdx.toNat, by omega⟩ (List.mem_finRange _) (decide_eq_true ?_)
    exact Int.toNat_of_nonneg hnonneg
  · intro h a _ ha
    have heq : (a.val : Int) = actionIdx := of_decide_eq_true ha
    have hlt := a.isLt
    exact h ⟨by omega, by omega⟩

namespace VPNEnv

variable {gen : Generator G R} {env : VPNEnv G R}

theorem advance_eq {a : Fin 4} {s : StateVector R} (hs : env.state = some s) :
    env.advance gen (a.val : Int) =
      some (evolve env.params.cpuRelax env.cpuBaseline a (drawTick gen env.rng).1 s,
        tick gen env s a) := by
  simp only [advance, actionSpace_eq_some_iff.2 rfl, hs, Option.bind_eq_bind, Option.bind_some]
  rfl

theorem step_eq {a : Fin 4} {s : StateVector R} (hs : env.state = some s) :
    env.step gen (a.val : Int) =
      some ({ observation :=
                evolve env.params.cpuRelax env.cpuBaseline a (drawTick gen env.rng).1 s
              reward := actionReward s a
              terminated := false
              truncated := decide ((env.t + 1 : Int) ≥ env.params.episodeLen)
              algo := actionName a },
        tick gen env s a) := by
  simp only [step, actionSpace_eq_some_iff.2 rfl, hs, Option.bind_eq_bind, Option.bind_some]
  rfl

/-- A call that is not a reset raises on a foreign action and before the first reset. -/
theorem raises_of_foreign {actionIdx : Int} (h : actionSpace actionIdx = none) :
    env.advance gen actionIdx = none ∧ env.step gen actionIdx = none := by
  simp [advance, step, h]

theorem raises_of_unset (actionIdx : Int) (h : env.state = none) :
    env.advance gen actionIdx = none ∧ env.step gen actionIdx = none := by
  cases ha : actionSpace actionIdx <;> simp [advance, step, h, ha]

/-- The call hands an action to the environment. -/
def Call.Plays (actionIdx : Int) (c : Call) : Prop := c = .step actionIdx ∨ c = .advance actionIdx

theorem call_of_plays {a : Fin 4} {c : Call} (hc : c.Plays a.val) {s : StateVector R}
    (hs : env.state = some s) : (env.call gen c).2 = tick gen env s a := by
  rcases hc with rfl | rfl
  · simp only [call, step_eq hs]
  · simp only [call, advance_eq hs]

theorem call_of_raises {actionIdx : Int} {c : Call} (hc : c.Plays actionIdx)
    (h : env.advance gen actionIdx = none ∧ env.step gen actionIdx = none) :
    env.call gen c = (.raised, env) := by
  rcases hc with rfl | rfl
  · simp only [call, h.2]
  · simp only [call, h.1]

/-- Every call is a reset, plays an action of the space, or raises. -/
theorem call_cases (gen : Generator G R) (env : VPNEnv G R) (c : Call) :
    (∃ seed, c = .reset seed) ∨
      (∃ a : Fin 4, c.Plays a.val ∧ ∃ s, env.state = some s) ∨
      (∃ actionIdx, c.Plays actionIdx ∧ (env.state = none ∨ ¬ (0 ≤ actionIdx ∧ actionIdx < 4)) ∧
        env.call gen c = (.raised, env)) := by
  have hplays : ∀ actionIdx, c.Plays actionIdx →
      (∃ a : Fin 4, c.Plays a.val ∧ ∃ s, env.state = some s) ∨
      (∃ actionIdx, c.Plays actionIdx ∧ (env.state = none ∨ ¬ (0 ≤ actionIdx ∧ actionIdx < 4)) ∧
        env.call gen c = (.raised, env)) := by
    intro actionIdx hc
    cases ha : actionSpace actionIdx with
    | none =>
        exact .inr ⟨actionIdx, hc, .inr (actionSpace_eq_none_iff.1 ha),
          call_of_raises hc (raises_of_foreign ha)⟩
    | some a =>
        rcases hs : env.state with _ | s
        · exact .inr ⟨actionIdx, hc, .inl rfl, call_of_raises hc (raises_of_unset _ hs)⟩
        · rw [actionSpace_eq_some_iff.1 ha] at hc
          exact .inl ⟨a, hc, s, rfl⟩
  cases c with
  | reset seed => exact .inl ⟨seed, rfl⟩
  | advance actionIdx => exact .inr (hplays actionIdx (.inr rfl))
  | step actionIdx => exact .inr (hplays actionIdx (.inl rfl))

theorem call_raises_iff {actionIdx : Int} {c : Call} (hc : c.Plays actionIdx) :
    (env.call gen c).1 = .raised ↔ env.state = none ∨ ¬ (0 ≤ actionIdx ∧ actionIdx < 4) := by
  cases ha : actionSpace actionIdx with
  | none =>
      rw [call_of_raises hc (raises_of_foreign ha)]
      exact iff_of_true rfl (.inr (actionSpace_eq_none_iff.1 ha))
  | some a =>
      have hspace : ¬ ¬ (0 ≤ actionIdx ∧ actionIdx < 4) := by
        rw [← actionSpace_eq_none_iff, ha]
        exact Option.some_ne_none a
      cases hs : env.state with
      | none =>
          rw [call_of_raises hc (raises_of_unset _ hs)]
          exact iff_of_true rfl (.inl rfl)
      | some s =>
          refine iff_of_false ?_ (by simp [hspace])
          rw [actionSpace_eq_some_iff.1 ha] at hc
          rcases hc with rfl | rfl
          · simp [call, step_eq hs]
          · simp [call, advance_eq hs]

/-- What a session keeps: the state, once there is one, is in the box. -/
def InBox (env : VPNEnv G R) : Prop := ∀ s ∈ env.state, Policy.InBox s

variable [IsStrictOrderedRing R]

theorem call_inBox (hgen : gen.Lawful) (h : env.InBox) (c : Call) :
    (env.call gen c).1.InRange ∧ (env.call gen c).2.InBox := by
  have htick : ∀ s a, (tick gen env s a).InBox := by
    rintro s a _ ⟨⟩
    exact evolve_inBox _ _ _ _ _
  rcases call_cases gen env c with ⟨seed, rfl⟩ | ⟨a, hc, s, hs⟩ | ⟨_, _, _, hraised⟩
  · have hfirst := randomInitialState_inBox hgen env.params
      (match seed with | some seed => gen.defaultRng seed | none => env.rng)
    refine ⟨hfirst, ?_⟩
    rintro _ ⟨⟩
    exact hfirst
  · refine ⟨?_, ?_⟩
    · have hreward := actionReward_mem (h s hs) a
      rcases hc with rfl | rfl
      · simp only [call, step_eq hs]
        exact ⟨evolve_inBox _ _ _ _ _, hreward.1, hreward.2, rfl⟩
      · simp only [call, advance_eq hs]
        exact evolve_inBox _ _ _ _ _
    · rw [call_of_plays hc hs]
      exact htick s a
  · rw [hraised]
    exact ⟨trivial, h⟩

omit [IsStrictOrderedRing R] in
/-- Nothing but a reset gives the environment its first state, and nothing takes it away. -/
theorem isSome_state_iff (h : env.state = none) (calls : List Call) :
    (Machine.stateAfter (call gen) env calls).state.isSome = true ↔
      ∃ seed, Call.reset seed ∈ calls := by
  refine Machine.stateAfter_induction
    (P := fun calls (env : VPNEnv G R) =>
      env.state.isSome = true ↔ ∃ seed, Call.reset seed ∈ calls) ?_ ?_ calls
  · simp [h]
  · intro calls env c ih
    rcases call_cases gen env c with ⟨seed, rfl⟩ | ⟨a, hc, s, hs⟩ | ⟨_, hc, _, hraised⟩
    · refine iff_of_true rfl ⟨seed, ?_⟩
      exact List.mem_append_right _ List.mem_cons_self
    · rw [call_of_plays hc hs]
      have hseen := ih.1 (by rw [hs]; rfl)
      exact iff_of_true rfl (hseen.imp fun seed hseed => List.mem_append_left _ hseed)
    · have hne : ∀ seed, Call.reset seed ≠ c := by
        rintro seed rfl
        rcases hc with hc | hc <;> cases hc
      rw [hraised, ih]
      simp [hne]

end VPNEnv

theorem init_state {episodeLen : Int} {rng : G} {curriculum cpuRelax : R}
    {curriculumPressure : String} {env : VPNEnv G R}
    (h : VPNEnv.init episodeLen rng curriculum cpuRelax curriculumPressure = .ok env) :
    env.state = none := by
  unfold VPNEnv.init at h
  split at h
  · split at h
    · split at h
      · cases h
      · cases h
        rfl
    · cases h
  · cases h

/-- Whatever is called in whatever order: every observation is in the box, every reward in its
range, and a call raises just when its action is foreign or nothing was reset yet. -/
theorem session_stays_in_box [IsStrictOrderedRing R] {gen : Generator G R} (hgen : gen.Lawful)
    {episodeLen : Int} {rng : G} {curriculum cpuRelax : R} {curriculumPressure : String}
    {env : VPNEnv G R}
    (hinit : VPNEnv.init episodeLen rng curriculum cpuRelax curriculumPressure = .ok env)
    (calls : List VPNEnv.Call) :
    (∀ answer ∈ Machine.outputs (VPNEnv.call gen) env calls, answer.InRange) ∧
    ∀ c actionIdx, VPNEnv.Call.Plays actionIdx c →
      (((Machine.stateAfter (VPNEnv.call gen) env calls).call gen c).1 = .raised ↔
        (∀ seed, VPNEnv.Call.reset seed ∉ calls) ∨ ¬ (0 ≤ actionIdx ∧ actionIdx < 4)) := by
  have hnone := init_state hinit
  have hbox : env.InBox := by
    intro s hs
    rw [hnone] at hs
    cases hs
  constructor
  · exact Machine.forall_outputs (I := VPNEnv.InBox)
      (fun env c h => VPNEnv.call_inBox hgen h c) hbox calls
  · intro c actionIdx hc
    have hreset : (Machine.stateAfter (VPNEnv.call gen) env calls).state.isSome = true ↔ _ :=
      VPNEnv.isSome_state_iff hnone calls
    have hunset : (Machine.stateAfter (VPNEnv.call gen) env calls).state = none ↔
        ∀ seed, VPNEnv.Call.reset seed ∉ calls := by
      rw [← not_exists, ← hreset, Bool.not_eq_true, Option.isSome_eq_false_iff,
        Option.isNone_iff_eq_none]
    rw [VPNEnv.call_raises_iff hc, hunset]

/-! ## A concrete generator -/

/-- A number of the unit interval, brought to the support of the distribution. -/
def Distribution.scale : Distribution ℚ → ℚ → ℚ
  | random, x => x
  | uniform low high, x => low + (high - low) * x
  | normal loc scale, x => loc + scale * (2 * x - 1)
  | beta _ _, x => x

/-- `n` thousandths, less the whole numbers. -/
def thousandths (n : Nat) : ℚ := ((n % 1000 : Nat) : ℚ) / 1000

/-- A congruential generator. -/
def congruential : Generator Nat ℚ where
  defaultRng seed := seed * 37 + 11
  draw d rng := (d.scale (thousandths rng), (rng * 37 + 11) % 1000)
  drawVector d rng := (fun i => d.scale (thousandths (rng * (i.val + 1))), (rng * 41 + 7) % 1000)

theorem thousandths_mem (n : Nat) : 0 ≤ thousandths n ∧ thousandths n < 1 := by
  have hlt : ((n % 1000 : Nat) : ℚ) < 1000 := by
    exact_mod_cast Nat.mod_lt n (by decide)
  unfold thousandths
  constructor
  · positivity
  · rw [div_lt_one (by norm_num)]
    exact hlt

theorem scale_thousandths (d : Distribution ℚ) (n : Nat) : d.InSupport (d.scale (thousandths n)) := by
  have hmem := thousandths_mem n
  cases d with
  | random => exact hmem
  | uniform low high =>
      intro hle
      have hrange : 0 ≤ high - low := sub_nonneg.2 hle
      have hlow := mul_nonneg hrange hmem.1
      have hhigh := mul_le_mul_of_nonneg_left hmem.2.le hrange
      constructor
      · exact le_add_of_nonneg_right hlow
      · calc low + (high - low) * thousandths n ≤ low + (high - low) * 1 := by linarith
          _ = high := by ring
  | normal loc scale => trivial
  | beta a b => exact ⟨hmem.1, hmem.2.le⟩

theorem congruential_lawful : congruential.Lawful where
  draw_mem d rng := scale_thousandths d rng
  drawVector_mem d rng i := scale_thousandths d (rng * (i.val + 1))

/-- An episode of three ticks with half of the resets in the corner of high need. -/
def congruentialEnv : VPNEnv Nat ℚ where
  params :=
    { episodeLen := 3
      curriculum := 1 / 2
      cpuRelax := 1 / 10
      curriculumPressure := .spread
      curriculum_mem := by decide +kernel
      cpuRelax_mem := by decide +kernel }
  cpuBaseline := 0
  rng := 48
  state := none
  t := 0

theorem init_congruential :
    VPNEnv.init 3 48 (1 / 2 : ℚ) (1 / 10) "spread" = .ok congruentialEnv := by
  have hcurriculum : (0 : ℚ) ≤ 1 / 2 ∧ (1 / 2 : ℚ) ≤ 1 := by decide +kernel
  have hrelax : (0 : ℚ) ≤ 1 / 10 ∧ (1 / 10 : ℚ) ≤ 1 := by decide +kernel
  have hmode : PressureMode.fromName "spread" = some .spread := by decide
  simp only [VPNEnv.init, hcurriculum, hrelax, hmode, and_self, dite_true]
  rfl

/-- A step too early, two episodes, and an action there is not. -/
def mixedCalls : List VPNEnv.Call :=
  [.step 2, .reset (some 7), .step 1, .advance 3, .step 0, .step 7, .step 3, .reset none, .step 2,
    .advance (-1), .step 3]

theorem congruential_session_stays_in_box :
    (∀ answer ∈ Machine.outputs (VPNEnv.call congruential) congruentialEnv mixedCalls,
      answer.InRange) ∧
    (congruentialEnv.call congruential (.step 2)).1 = .raised ∧
    ((Machine.stateAfter (VPNEnv.call congruential) congruentialEnv mixedCalls).call congruential
      (.step 3)).1 ≠ .raised ∧
    ((Machine.stateAfter (VPNEnv.call congruential) congruentialEnv mixedCalls).call congruential
      (.advance 4)).1 = .raised := by
  obtain ⟨_, hfresh⟩ := session_stays_in_box congruential_lawful init_congruential []
  obtain ⟨hrange, hraises⟩ :=
    session_stays_in_box congruential_lawful init_congruential mixedCalls
  refine ⟨hrange, (hfresh (.step 2) 2 (.inl rfl)).2 (.inl fun _ h => nomatch h), ?_, ?_⟩
  · intro hraised
    rcases (hraises (.step 3) 3 (.inl rfl)).1 hraised with hunset | hforeign
    · exact hunset (some 7) (by simp [mixedCalls])
    · exact hforeign (by decide)
  · exact (hraises (.advance 4) 4 (.inr rfl)).2 (.inr (by decide))

end Policy
end PqcVpn
