import PqcVpn.Gate.Laws
import PqcVpn.Lib.Average
import PqcVpn.Lib.Quantile
import PqcVpn.Policy.Rollout
import PqcVpn.Policy.Sampling

/-!
# Simulation — what the decision gate costs and what it buys

`simulate` of `client/rl_agent/decision_gate.py` runs many simulated sessions in lockstep.  Each tick
the policy sees the states through noisy sensors; its choice is acted on directly on one side and
goes through a gate on the other, and both sides count their handshakes.
-/

namespace PqcVpn
namespace Policy

open Anomaly (clip clip_nonneg clip_le_one mean)
open Gate (Probs argmax actionCount rekeyActionIndex wireIndex)
open State

variable {G R : Type} [Field R] [LinearOrder R]

/-! ## Parameters -/

/-- `SENSOR_DIMS`: the elements that are measured. -/
def sensorDims : List StateIndex := [cpuLoad, ramAvail, latency, upload, threat]

/-- `MIN_MARGIN`. -/
def minMargin : R := 0.15

/-- `REKEY_COOLDOWN_TICKS`. -/
def rekeyCooldownTicks : Nat := 12

/-- `TICK_SECONDS`. -/
def tickSeconds : Nat := 5

def securityShortfallBatch (need : List R) (actions : List (Fin 4)) : List R :=
  List.zipWith (fun n a => max 0 (n - (actionSecurity a : R))) need actions

/-! ## Sessions -/

/-- What the simulation keeps of a session. -/
structure SimSession (G R : Type) [Field R] [LinearOrder R] where
  env : VPNEnv G R
  state : StateVector R
  gate : Gate.Python.DecisionGate R
  rawInForce : Fin 4
  pendingSince : Option Nat

/-- The counters of all sessions together. -/
structure Counts where
  rawChanges : Nat
  gatedChanges : Nat
  rawRekeys : Nat
  gatedRekeys : Nat
  delayTicks : List Nat

/-- A tick of a session in the histories: the security it needed, the algorithm the gate had in
force and the one of the ungated side. -/
structure Record (R : Type) where
  need : R
  gated : Fin 4
  literal : Fin 4

/-- The ungated side acts on the choice directly. -/
def actRaw (top rawInForce : Fin 4) (c : Counts) : Fin 4 × Counts :=
  if top = Gate.Python.rekeyActionIdx then
    (rawInForce, { c with rawRekeys := c.rawRekeys + 1 })
  else if top ≠ rawInForce then
    (top, { c with rawChanges := c.rawChanges + 1 })
  else
    (rawInForce, c)

/-- The delay of a change is read before the pending state is brought up to date. -/
def countDelay (t : Nat) (d : Gate.Python.Decision) (pendingSince : Option Nat) (c : Counts) :
    Counts :=
  match pendingSince with
  | some since =>
      if d.changeAlgorithm then { c with delayTicks := c.delayTicks ++ [t - since] } else c
  | none => c

/-- Since when the oracle has wanted another algorithm than the one in force. -/
def trackPending (t : Nat) (want inForce : Fin 4) (pendingSince : Option Nat) : Option Nat :=
  if want ≠ Gate.Python.rekeyActionIdx ∧ want ≠ inForce then
    some (pendingSince.getD t)
  else
    none

/-- The body of the loop over the sessions. -/
def sessionTick (gen : Generator G R) (t : Nat) (probs : Probs R) (x : SimSession G R) (c : Counts) :
    Option (SimSession G R × Record R × Counts) := do
  let top := argmax probs 0 actionCount
  let want := optimalAction x.state
  let raw := actRaw top x.rawInForce c
  let (d, gate) ← x.gate.update probs
  let c := { raw.2 with
    gatedChanges := raw.2.gatedChanges + if d.changeAlgorithm then 1 else 0
    gatedRekeys := raw.2.gatedRekeys + if d.rekey then 1 else 0 }
  let c := countDelay t d x.pendingSince c
  let (state, env) ← x.env.advance gen (top.val : Int)
  return ({ env := env
            state := state
            gate := gate
            rawInForce := raw.1
            pendingSince := trackPending t want gate.inForce x.pendingSince },
    { need := securityNeed x.state, gated := gate.inForce, literal := raw.1 }, c)

/-- The loop over the sessions; a row for each is needed. -/
def sessionsTick (gen : Generator G R) (t : Nat) :
    List (SimSession G R) → List (Probs R) → Counts →
      Option (List (SimSession G R) × List (Record R) × Counts)
  | [], _, c => some ([], [], c)
  | _ :: _, [], _ => none
  | x :: xs, probs :: rows, c => do
      let (x, record, c) ← sessionTick gen t probs x c
      let (xs, records, c) ← sessionsTick gen t xs rows c
      return (x :: xs, record :: records, c)

/-! ## The run -/

/-- One row of noise for each session. -/
def drawRows (gen : Generator G R) (d : Distribution R) : Nat → G → List (StateVector R) × G
  | 0, rng => ([], rng)
  | n + 1, rng =>
      let row := gen.drawVector d rng
      let rows := drawRows gen d n row.2
      (row.1 :: rows.1, rows.2)

/-- What the policy sees of a state. -/
def noisy (draw s : StateVector R) : StateVector R :=
  fun i => clip (s i + draw i * if i ∈ sensorDims then 1 else 0) 0 1

structure Sim (G R : Type) [Field R] [LinearOrder R] where
  rng : G
  sessions : List (SimSession G R)
  counts : Counts
  history : List (Record R)

def simTick (gen : Generator G R) (policyProbs : List (StateVector R) → List (Probs R)) (noise : R)
    (t : Nat) (sim : Sim G R) : Option (Sim G R) := do
  -- `uniform` raises where its bounds are out of order
  guard (-noise ≤ noise)
  let draws := drawRows gen (.uniform (-noise) noise) sim.sessions.length sim.rng
  let obs := List.zipWith (fun draw x => noisy draw x.state) draws.1 sim.sessions
  let (sessions, records, counts) ← sessionsTick gen t sim.sessions (policyProbs obs) sim.counts
  return { rng := draws.2, sessions, counts, history := sim.history ++ records }

/-- A session before its first tick. -/
def startSession (gen : Generator G R) (ticks : Nat) (confirmTicks : Nat) (rekeyEscalates : Bool)
    (curriculum : R) (seed : Nat) : Option (SimSession G R) :=
  match VPNEnv.init ticks (gen.defaultRng seed) curriculum 0 "low" with
  | .error _ => none
  | .ok env =>
      let first := env.reset gen (some seed)
      some
        { env := first.2
          state := first.1
          gate := .init 0 confirmTicks minMargin rekeyCooldownTicks rekeyEscalates
          rawInForce := 0
          pendingSince := none }

/-- What `simulate` returns, but for its own arguments. -/
structure SimReport (R : Type) where
  counts : Counts
  clientHours : R
  rawHandshakesPerHour : R
  gatedHandshakesPerHour : R
  escalationDelayMedianTicks : R
  escalationDelayP95Ticks : R
  meanShortfallGated : R
  meanShortfallUngated : R

/-- The report at the end of a run; `none` where the hours divided by are zero. -/
def reportOf (nSessions ticks : Nat) (counts : Counts) (history : List (Record R)) :
    Option (SimReport R) :=
  let clientHours : R := ((nSessions * ticks * tickSeconds : Nat) : R) / 3600.0
  let delays : List R := counts.delayTicks.map Nat.cast
  let need := history.map Record.need
  if clientHours = 0 then none
  else some
    { counts := counts
      clientHours := clientHours
      rawHandshakesPerHour := ((counts.rawChanges + counts.rawRekeys : Nat) : R) / clientHours
      gatedHandshakesPerHour := ((counts.gatedChanges + counts.gatedRekeys : Nat) : R) / clientHours
      escalationDelayMedianTicks := if delays = [] then 0 else Quantile.median delays
      escalationDelayP95Ticks := if delays = [] then 0 else Quantile.quantile 0.95 delays
      meanShortfallGated := mean (securityShortfallBatch need (history.map Record.gated))
      meanShortfallUngated := mean (securityShortfallBatch need (history.map Record.literal)) }

def simulate (gen : Generator G R) (policyProbs : List (StateVector R) → List (Probs R)) (noise : R)
    (nSessions ticks : Nat) (seed : Int) (confirmTicks : Nat) (rekeyEscalates : Bool)
    (curriculum : R) : Option (SimReport R) := do
  -- `default_rng` raises on a negative seed
  guard (0 ≤ seed)
  let rng := gen.defaultRng seed.toNat
  -- without a session there is no first state to take the width of the mask from
  guard (nSessions ≠ 0)
  let sessions ← (List.range nSessions).mapM fun s =>
    startSession gen ticks confirmTicks rekeyEscalates curriculum (seed.toNat + s)
  let start : Sim G R :=
    { rng := rng
      sessions := sessions
      counts := ⟨0, 0, 0, 0, []⟩
      history := [] }
  let sim ← (List.range ticks).foldlM (fun sim t => simTick gen policyProbs noise t sim) start
  reportOf nSessions ticks sim.counts sim.history

/-! ## What raises -/

theorem guard_of {p : Prop} [Decidable p] (h : p) : (guard p : Option Unit) = some () := if_pos h

theorem guard_of_not {p : Prop} [Decidable p] (h : ¬ p) : (guard p : Option Unit) = none := if_neg h

/-! ## A tick of the gate -/

/-- What a tick of the gate leaves in force, seen from the policy's choice `top`. -/
structure GateMoves (p : Gate.Rule.Params R) (top : Fin 4) (g g' : Gate.Python.DecisionGate R)
    (d : Gate.Python.Decision) : Prop where
  refines : ∃ s, Gate.Python.Refines g' p s
  rekey : d.rekey = true → top = rekeyActionIndex ∧ d.changeAlgorithm = false ∧
    (p.rekeyEscalates = false → g'.inForce = g.inForce)
  change : d.changeAlgorithm = true →
    g'.inForce = top ∧ top ≠ g.inForce ∧ top ≠ rekeyActionIndex
  neither : d.rekey = false → d.changeAlgorithm = false → g'.inForce = g.inForce

theorem gate_moves {p : Gate.Rule.Params R} {g : Gate.Python.DecisionGate R} {s : Gate.Rule.State}
    (h : Gate.Python.Refines g p s) (probs : Probs R) :
    ∃ d g', g.update probs = some (d, g') ∧ GateMoves p (argmax probs 0 actionCount) g g' d := by
  obtain ⟨g', hupdate, h'⟩ := Gate.Python.update_refines h probs
  have hinForce : g'.inForce = wireIndex (Gate.Rule.decision p s probs).inForce := h'.inForce
  refine ⟨_, g', hupdate, ⟨⟨_, h'⟩, ?_, ?_, ?_⟩⟩
  · intro hrekey
    have hrule := Gate.Rule.inForce_of_rekey hrekey
    refine ⟨Gate.Rule.asksRekey_iff.1 (Gate.Rule.asksRekey_of_cool hrekey), hrule.2, ?_⟩
    intro hflat
    rw [hinForce, hrule.1, if_neg (by rw [hflat]; exact Bool.false_ne_true), h.inForce]
  · intro hchange
    obtain ⟨k, hk⟩ := Option.isSome_iff_exists.1
      (show (Gate.Rule.confirm p s probs).1.isSome = true from hchange)
    -- a confirmed streak is one of the choice of the tick
    have hchallenge : Gate.Rule.challenge p.minMargin s.inForce probs = some k := by
      unfold Gate.Rule.confirm Debounce.Streak.step at hk
      split at hk
      · exact hk
      · cases hk
    obtain ⟨htop, hne, _⟩ := Gate.Rule.challenge_eq_some_iff.1 hchallenge
    have hnext : (Gate.Rule.decision p s probs).inForce = k := by
      change Gate.Rule.nextInForce p s probs = k
      rw [Gate.Rule.nextInForce, hk]
    rw [hinForce, hnext, htop, h.inForce]
    exact ⟨rfl, Gate.wireIndex_injective.ne hne, Gate.wireIndex_ne_rekey k⟩
  · intro hrekey hchange
    rw [hinForce, Gate.Rule.inForce_of_neither hchange hrekey, h.inForce]

/-! ## A tick of a session -/

/-- What the sessions keep at the start of tick `t`. -/
structure SimSession.Ok (p : Gate.Rule.Params R) (t : Nat) (x : SimSession G R) : Prop where
  refines : ∃ s, Gate.Python.Refines x.gate p s
  state : x.env.state = some x.state
  inBox : InBox x.state
  raw : x.rawInForce ≠ rekeyActionIndex
  pending : ∀ since ∈ x.pendingSince, since < t

/-- One, when the two sides have different algorithms in force. -/
def apart (raw inForce : Fin 4) : Nat := if raw = inForce then 0 else 1

/-- What the counters keep while `split` sessions have their sides apart. -/
structure Counts.Fair (p : Gate.Rule.Params R) (ticks split : Nat) (c : Counts) : Prop where
  changes : c.gatedChanges + split ≤ c.rawChanges + if p.rekeyEscalates then c.gatedRekeys else 0
  rekeys : c.gatedRekeys ≤ c.rawRekeys
  delays : ∀ d ∈ c.delayTicks, 1 ≤ d ∧ d < ticks

/-- A record of an algorithm, not of a rekey. -/
def Record.Kems (r : Record R) : Prop :=
  (0 ≤ r.need ∧ r.need ≤ 1) ∧ r.gated ≠ rekeyActionIndex ∧ r.literal ≠ rekeyActionIndex

theorem countDelay_eq (t : Nat) (d : Gate.Python.Decision) (pendingSince : Option Nat) (c : Counts) :
    ∃ delays, countDelay t d pendingSince c = { c with delayTicks := c.delayTicks ++ delays } ∧
      ∀ x ∈ delays, ∃ since ∈ pendingSince, x = t - since := by
  unfold countDelay
  split
  · rename_i since
    split
    · refine ⟨[t - since], rfl, ?_⟩
      intro x hx
      exact ⟨since, rfl, List.mem_singleton.1 hx⟩
    · refine ⟨[], ?_, fun x hx => nomatch hx⟩
      rw [List.append_nil]
  · refine ⟨[], ?_, fun x hx => nomatch hx⟩
    rw [List.append_nil]

theorem trackPending_lt {t since : Nat} {want inForce : Fin 4} {pendingSince : Option Nat}
    (h : ∀ since ∈ pendingSince, since < t)
    (hsince : since ∈ trackPending t want inForce pendingSince) : since < t + 1 := by
  unfold trackPending at hsince
  split at hsince
  · cases pendingSince with
    | none =>
        cases hsince
        exact Nat.lt_succ_self t
    | some old =>
        cases hsince
        exact Nat.lt_succ_of_lt (h old rfl)
  · cases hsince

/-- The counters after a tick of a session, but for its delay. -/
def tally (top rawInForce : Fin 4) (d : Gate.Python.Decision) (c : Counts) : Counts :=
  { (actRaw top rawInForce c).2 with
    gatedChanges := (actRaw top rawInForce c).2.gatedChanges + if d.changeAlgorithm then 1 else 0
    gatedRekeys := (actRaw top rawInForce c).2.gatedRekeys + if d.rekey then 1 else 0 }

theorem apart_le_one (a b : Fin 4) : apart a b ≤ 1 := by
  unfold apart
  split <;> omega

theorem apart_self (a : Fin 4) : apart a a = 0 := if_pos rfl

theorem apart_of_ne {a b : Fin 4} (h : a ≠ b) : apart a b = 1 := if_neg h

/-- The ungated side counts a rekey, or moves to the choice and counts that if it is a move. -/
theorem actRaw_cases (top raw : Fin 4) (c : Counts) :
    (top = rekeyActionIndex ∧ actRaw top raw c = (raw, { c with rawRekeys := c.rawRekeys + 1 })) ∨
      (top ≠ rekeyActionIndex ∧
        actRaw top raw c = (top, { c with rawChanges := c.rawChanges + apart top raw })) := by
  unfold actRaw
  rw [rekeyActionIdx_eq]
  by_cases htop : top = rekeyActionIndex
  · exact .inl ⟨htop, if_pos htop⟩
  · refine .inr ⟨htop, ?_⟩
    rw [if_neg htop]
    by_cases hraw : top = raw
    · rw [if_neg (not_not.2 hraw), hraw, apart_self]
      rfl
    · rw [if_pos hraw, apart_of_ne hraw]

omit [Field R] [LinearOrder R] in
/-- A tick on which the policy asks for a rekey moves the gate only where it escalates. -/
theorem GateMoves.apart_le_of_rekey {p : Gate.Rule.Params R} {top : Fin 4}
    {g g' : Gate.Python.DecisionGate R} {d : Gate.Python.Decision} (h : GateMoves p top g g' d)
    (hnochange : d.changeAlgorithm = false) (raw : Fin 4) :
    apart raw g'.inForce ≤ apart raw g.inForce +
      if d.rekey = true ∧ p.rekeyEscalates = true then 1 else 0 := by
  by_cases hescalated : d.rekey = true ∧ p.rekeyEscalates = true
  · rw [if_pos hescalated]
    exact (apart_le_one _ _).trans (Nat.le_add_left 1 _)
  · rw [if_neg hescalated, Nat.add_zero]
    cases hrekey : d.rekey with
    | false => rw [h.neither hrekey hnochange]
    | true =>
        have hflat : p.rekeyEscalates = false :=
          Bool.not_eq_true _ ▸ fun hescalates => hescalated ⟨hrekey, hescalates⟩
        rw [(h.rekey hrekey).2.2 hflat]

omit [Field R] [LinearOrder R] in
/-- A change of the gate to the policy's choice brings the two sides together. -/
theorem GateMoves.apart_le_of_kem {p : Gate.Rule.Params R} {top : Fin 4}
    {g g' : Gate.Python.DecisionGate R} {d : Gate.Python.Decision} (h : GateMoves p top g g' d)
    (hnorekey : d.rekey = false) (raw : Fin 4) :
    (if d.changeAlgorithm then 1 else 0) + apart top g'.inForce ≤
      apart top raw + apart raw g.inForce := by
  cases hchange : d.changeAlgorithm with
  | true =>
      obtain ⟨hforce, hne, _⟩ := h.change hchange
      rw [hforce, apart_self, if_pos rfl]
      by_cases hmove : top = raw
      · rw [← hmove, apart_of_ne hne]
        omega
      · rw [apart_of_ne hmove]
        omega
  | false =>
      rw [h.neither hnorekey hchange, if_neg Bool.false_ne_true]
      by_cases hmove : top = raw
      · rw [hmove]
        omega
      · have hone := apart_le_one top g.inForce
        rw [apart_of_ne hmove]
        omega

omit [Field R] [LinearOrder R] in
/-- What a gated change or an escalation takes is paid for by the ungated side, or by the sides
having been apart. -/
theorem tally_fair {p : Gate.Rule.Params R} {top raw : Fin 4} {g g' : Gate.Python.DecisionGate R}
    {d : Gate.Python.Decision} (hmoves : GateMoves p top g g' d) {ticks split : Nat} {c : Counts}
    (h : c.Fair p ticks (apart raw g.inForce + split)) :
    (tally top raw d c).Fair p ticks (apart (actRaw top raw c).1 g'.inForce + split) := by
  obtain ⟨hchanges, hrekeys, hdelays⟩ := h
  rcases actRaw_cases top raw c with ⟨htop, hraw⟩ | ⟨htop, hraw⟩
  · -- a rekey on the ungated side; the gate rekeys too, or waits
    have hnochange : d.changeAlgorithm = false :=
      Bool.not_eq_true _ ▸ fun hchange => (hmoves.change hchange).2.2 htop
    have hmoved := hmoves.apart_le_of_rekey hnochange raw
    rw [tally, hraw]
    refine ⟨?_, ?_, hdelays⟩
    · cases hrekey : d.rekey <;> cases hescalates : p.rekeyEscalates <;>
        simp only [hrekey, hescalates, hnochange, Bool.false_eq_true, if_true, if_false, and_true,
          and_false, and_self] at hchanges hmoved ⊢ <;> omega
    · cases d.rekey with
      | false => exact Nat.le_succ_of_le hrekeys
      | true => exact Nat.succ_le_succ hrekeys
  · -- a choice of a KEM, which the ungated side moves to at once
    have hnorekey : d.rekey = false :=
      Bool.not_eq_true _ ▸ fun hrekey => htop (hmoves.rekey hrekey).1
    have hmoved := hmoves.apart_le_of_kem hnorekey raw
    rw [tally, hraw, hnorekey]
    refine ⟨?_, hrekeys, hdelays⟩
    simp only [Bool.false_eq_true, if_false, Nat.add_zero]
    omega

omit [Field R] [LinearOrder R] in
theorem countDelay_fair {p : Gate.Rule.Params R} {ticks t split : Nat} (ht : t < ticks)
    {d : Gate.Python.Decision} {pendingSince : Option Nat} (hsince : ∀ x ∈ pendingSince, x < t)
    {c : Counts} (h : c.Fair p ticks split) : (countDelay t d pendingSince c).Fair p ticks split := by
  obtain ⟨delays, hdelays, hmem⟩ := countDelay_eq t d pendingSince c
  rw [hdelays]
  refine ⟨h.changes, h.rekeys, ?_⟩
  intro x hx
  rcases List.mem_append.1 hx with hold | hnew
  · exact h.delays x hold
  · obtain ⟨since, hs, rfl⟩ := hmem x hnew
    have hlt := hsince since hs
    omega

omit [Field R] [LinearOrder R] in
theorem inForce_ne_rekey {p : Gate.Rule.Params R} {g : Gate.Python.DecisionGate R}
    (h : ∃ s, Gate.Python.Refines g p s) : g.inForce ≠ rekeyActionIndex := by
  obtain ⟨s, hs⟩ := h
  rw [hs.inForce]
  exact Gate.wireIndex_ne_rekey _

section Run

variable [IsStrictOrderedRing R] {gen : Generator G R} {p : Gate.Rule.Params R} {ticks t : Nat}

/-- A tick of a session never raises, and keeps what the session and the counters keep. -/
theorem sessionTick_ok (gen : Generator G R) (ht : t < ticks) {x : SimSession G R}
    (h : x.Ok p t) (probs : Probs R) {split : Nat} {c : Counts}
    (hc : c.Fair p ticks (apart x.rawInForce x.gate.inForce + split)) :
    ∃ x' record c', sessionTick gen t probs x c = some (x', record, c') ∧ x'.Ok p (t + 1) ∧
      record.Kems ∧ c'.Fair p ticks (apart x'.rawInForce x'.gate.inForce + split) := by
  obtain ⟨s, hs⟩ := h.refines
  obtain ⟨d, g', hupdate, hmoves⟩ := gate_moves hs probs
  have hadvance : x.env.advance gen (argmax probs 0 actionCount).val = _ :=
    VPNEnv.advance_eq h.state
  have hraw : (actRaw (argmax probs 0 actionCount) x.rawInForce c).1 ≠ rekeyActionIndex := by
    rcases actRaw_cases (argmax probs 0 actionCount) x.rawInForce c with ⟨_, heq⟩ | ⟨htop, heq⟩
    · rw [heq]
      exact h.raw
    · rw [heq]
      exact htop
  let x' : SimSession G R :=
    { env := VPNEnv.tick gen x.env x.state (argmax probs 0 actionCount)
      state := evolve x.env.params.cpuRelax x.env.cpuBaseline (argmax probs 0 actionCount)
        (drawTick gen x.env.rng).1 x.state
      gate := g'
      rawInForce := (actRaw (argmax probs 0 actionCount) x.rawInForce c).1
      pendingSince := trackPending t (optimalAction x.state) g'.inForce x.pendingSince }
  let record : Record R :=
    { need := securityNeed x.state
      gated := g'.inForce
      literal := (actRaw (argmax probs 0 actionCount) x.rawInForce c).1 }
  have hrun : sessionTick gen t probs x c = some (x', record,
      countDelay t d x.pendingSince (tally (argmax probs 0 actionCount) x.rawInForce d c)) := by
    simp only [sessionTick, hupdate, hadvance, Option.bind_eq_bind, Option.bind_some]
    rfl
  refine ⟨x', record, _, hrun, ?_, ?_, countDelay_fair ht h.pending (tally_fair hmoves hc)⟩
  · exact
      { refines := hmoves.refines
        state := rfl
        inBox := evolve_inBox _ _ _ _ _
        raw := hraw
        pending := fun since hsince => trackPending_lt h.pending hsince }
  · exact ⟨⟨clip_nonneg _, clip_le_one _⟩, inForce_ne_rekey hmoves.refines, hraw⟩

/-- The sessions whose sides are apart. -/
def splits (xs : List (SimSession G R)) : Nat :=
  (xs.map fun x => apart x.rawInForce x.gate.inForce).sum

theorem sessionsTick_ok (gen : Generator G R) (ht : t < ticks) {xs : List (SimSession G R)}
    (hxs : ∀ x ∈ xs, x.Ok p t) {rows : List (Probs R)} (hrows : rows.length = xs.length)
    {split : Nat} {c : Counts}
    (hc : c.Fair p ticks (splits xs + split)) :
    ∃ xs' records c', sessionsTick gen t xs rows c = some (xs', records, c') ∧
      xs'.length = xs.length ∧ (∀ x ∈ xs', x.Ok p (t + 1)) ∧ (∀ r ∈ records, r.Kems) ∧
      c'.Fair p ticks (splits xs' + split) := by
  -- the sessions to come count as split while one is at its tick
  induction xs generalizing rows split c with
  | nil =>
      exact ⟨[], [], c, rfl, rfl, List.forall_mem_nil _, List.forall_mem_nil _, hc⟩
  | cons x xs ih =>
      cases rows with
      | nil => cases hrows
      | cons probs rows =>
          rw [List.forall_mem_cons] at hxs
          have hsplit : splits (x :: xs) + split =
              apart x.rawInForce x.gate.inForce + (splits xs + split) := by
            rw [splits, List.map_cons, List.sum_cons, Nat.add_assoc]
            rfl
          rw [hsplit] at hc
          obtain ⟨x', record, c', hx', hok, hkems, hc'⟩ :=
            sessionTick_ok gen ht hxs.1 probs hc
          have hnext : c'.Fair p ticks
              (splits xs + (apart x'.rawInForce x'.gate.inForce + split)) := by
            rw [Nat.add_left_comm]
            exact hc'
          obtain ⟨xs', records, c'', hxs', hlength, hoks, hrecords, hc''⟩ :=
            ih hxs.2 (Nat.succ.inj hrows) hnext
          refine ⟨x' :: xs', record :: records, c'', ?_, congrArg (· + 1) hlength,
            List.forall_mem_cons.2 ⟨hok, hoks⟩, List.forall_mem_cons.2 ⟨hkems, hrecords⟩, ?_⟩
          · simp only [sessionsTick, hx', hxs', Option.bind_eq_bind, Option.bind_some]
            rfl
          · rw [splits, List.map_cons, List.sum_cons, Nat.add_assoc, Nat.add_left_comm]
            exact hc''

/-- What the simulation keeps at the start of tick `t`. -/
structure Sim.Ok (p : Gate.Rule.Params R) (nSessions ticks t : Nat) (sim : Sim G R) : Prop where
  sessions : ∀ x ∈ sim.sessions, x.Ok p t
  length : sim.sessions.length = nSessions
  counts : sim.counts.Fair p ticks (splits sim.sessions)
  history : ∀ r ∈ sim.history, r.Kems

omit [Field R] [LinearOrder R] [IsStrictOrderedRing R] in
theorem length_drawRows (d : Distribution R) (n : Nat) (rng : G) :
    (drawRows gen d n rng).1.length = n := by
  induction n generalizing rng with
  | zero => rfl
  | succ n ih => exact congrArg (· + 1) (ih _)

theorem simTick_ok (gen : Generator G R) {policyProbs : List (StateVector R) → List (Probs R)}
    (hrows : ∀ obs, (policyProbs obs).length = obs.length) {noise : R} (hnoise : 0 ≤ noise)
    (ht : t < ticks) {nSessions : Nat} {sim : Sim G R} (h : sim.Ok p nSessions ticks t) :
    ∃ sim', simTick gen policyProbs noise t sim = some sim' ∧ sim'.Ok p nSessions ticks (t + 1) := by
  have hobs : (policyProbs (List.zipWith (fun draw x => noisy draw x.state)
      (drawRows gen (.uniform (-noise) noise) sim.sessions.length sim.rng).1 sim.sessions)).length =
        sim.sessions.length := by
    rw [hrows, List.length_zipWith, length_drawRows, min_self]
  have hcounts : sim.counts.Fair p ticks (splits sim.sessions + 0) := h.counts
  obtain ⟨xs, records, c, hrun, hlength, hoks, hkems, hfair⟩ :=
    sessionsTick_ok gen ht h.sessions hobs hcounts
  let rng := (drawRows gen (.uniform (-noise) noise) sim.sessions.length sim.rng).2
  have hstep : simTick gen policyProbs noise t sim =
      some { rng := rng, sessions := xs, counts := c, history := sim.history ++ records } := by
    simp only [simTick, guard_of (neg_le_self hnoise), hrun, Option.bind_eq_bind, Option.bind_some]
    rfl
  exact ⟨_, hstep,
    { sessions := hoks
      length := hlength.trans h.length
      counts := hfair
      history := fun r hr => (List.mem_append.1 hr).elim (h.history r) (hkems r) }⟩

theorem runTicks_ok (gen : Generator G R) {policyProbs : List (StateVector R) → List (Probs R)}
    (hrows : ∀ obs, (policyProbs obs).length = obs.length) {noise : R} (hnoise : 0 ≤ noise)
    {nSessions n : Nat} (ht : t + n = ticks) {sim : Sim G R} (h : sim.Ok p nSessions ticks t) :
    ∃ sim', (List.range' t n).foldlM (fun sim t => simTick gen policyProbs noise t sim) sim =
      some sim' ∧ sim'.Ok p nSessions ticks ticks := by
  induction n generalizing t sim with
  | zero =>
      have htick : t = ticks := by omega
      exact ⟨sim, rfl, htick ▸ h⟩
  | succ n ih =>
      obtain ⟨sim₁, hstep, h₁⟩ := simTick_ok gen hrows hnoise (by omega) h
      obtain ⟨sim', hrest, h'⟩ := ih (by omega) h₁
      refine ⟨sim', ?_, h'⟩
      rw [List.range'_succ, List.foldlM_cons, hstep]
      exact hrest

/-- With its bounds out of order the first tick raises. -/
theorem runTicks_eq_none (gen : Generator G R)
    (policyProbs : List (StateVector R) → List (Probs R)) {noise : R} (hnoise : noise < 0) {n : Nat}
    (hn : n ≠ 0) (sim : Sim G R) :
    (List.range' 0 n).foldlM (fun sim t => simTick gen policyProbs noise t sim) sim = none := by
  obtain ⟨n, rfl⟩ := Nat.exists_eq_succ_of_ne_zero hn
  have hbounds : ¬ -noise ≤ noise := by linarith
  have hstep : simTick gen policyProbs noise 0 sim = none := by
    rw [simTick, guard_of_not hbounds]
    rfl
  rw [List.range'_succ, List.foldlM_cons, hstep]
  rfl

/-! ## Shortfalls -/

theorem actionSecurity_kem {a : Fin 4} (ha : a ≠ rekeyActionIndex) :
    (0.7 : R) ≤ (actionSecurity a : R) := by
  have hrank : ∀ a : Fin 4, a ≠ rekeyActionIndex → 7 / 10 ≤ actionSecurity a := by
    decide +kernel
  have hliteral : (0.7 : R) = ((7 / 10 : Rat) : R) := by
    push_cast
    norm_num
  rw [hliteral]
  exact Rat.cast_le.2 (hrank a ha)

/-- An algorithm in force falls short by three tenths at most. -/
theorem shortfall_mem {n : R} (hn : n ≤ 1) {a : Fin 4} (ha : a ≠ rekeyActionIndex) :
    0 ≤ max 0 (n - (actionSecurity a : R)) ∧ max 0 (n - (actionSecurity a : R)) ≤ 0.3 := by
  have hsecurity : (0.7 : R) ≤ (actionSecurity a : R) := actionSecurity_kem ha
  refine ⟨le_max_left _ _, max_le (by norm_num) ?_⟩
  norm_num at hsecurity ⊢
  linarith

theorem meanShortfall_mem {history : List (Record R)} (h : ∀ r ∈ history, r.need ≤ 1)
    {kem : Record R → Fin 4} (hkem : ∀ r ∈ history, kem r ≠ rekeyActionIndex) :
    0 ≤ mean (securityShortfallBatch (history.map Record.need) (history.map kem)) ∧
      mean (securityShortfallBatch (history.map Record.need) (history.map kem)) ≤ 0.3 := by
  have hmean : mean (securityShortfallBatch (history.map Record.need) (history.map kem)) =
      Average.avg (fun r => max 0 (r.need - (actionSecurity (kem r) : R))) history := by
    rw [securityShortfallBatch, List.zipWith_map, List.zipWith_self, mean, List.length_map]
    rfl
  rw [hmean]
  refine ⟨Average.avg_nonneg fun r hr => (shortfall_mem (h r hr) (hkem r hr)).1, ?_⟩
  rcases eq_or_ne history [] with rfl | hne
  · rw [Average.avg_nil]
    norm_num
  · exact Average.avg_le hne fun r hr => (shortfall_mem (h r hr) (hkem r hr)).2

/-! ## The report -/

theorem startSession_ok (hgen : gen.Lawful) {curriculum : R}
    (hcurriculum : 0 ≤ curriculum ∧ curriculum ≤ 1) (ticks confirmTicks : Nat)
    (rekeyEscalates : Bool) (seed : Nat) :
    ∃ x, startSession gen ticks confirmTicks rekeyEscalates curriculum seed = some x ∧
      (x.Ok ⟨confirmTicks, minMargin, rekeyCooldownTicks, rekeyEscalates⟩ 0 ∧
        apart x.rawInForce x.gate.inForce = 0) := by
  obtain ⟨env, hinit, _⟩ := init_low (ticks : Int) (gen.defaultRng seed) hcurriculum
  refine ⟨_, by rw [startSession, hinit], ?_, rfl⟩
  exact
    { refines := ⟨_, Gate.Python.refines_init .mlKem512
        ⟨confirmTicks, minMargin, rekeyCooldownTicks, rekeyEscalates⟩⟩
      state := rfl
      inBox := randomInitialState_inBox hgen _ _
      raw := (by decide : (0 : Fin 4) ≠ rekeyActionIndex)
      pending := fun since hsince => nomatch hsince }

theorem startSessions_ok (hgen : gen.Lawful) {curriculum : R}
    (hcurriculum : 0 ≤ curriculum ∧ curriculum ≤ 1) (ticks confirmTicks : Nat)
    (rekeyEscalates : Bool) (l : List Nat) (seed : Nat) :
    ∃ xs, l.mapM (fun s => startSession gen ticks confirmTicks rekeyEscalates curriculum (seed + s)) =
        some xs ∧ xs.length = l.length ∧ splits xs = 0 ∧
      ∀ x ∈ xs, x.Ok ⟨confirmTicks, minMargin, rekeyCooldownTicks, rekeyEscalates⟩ 0 := by
  induction l with
  | nil => exact ⟨[], rfl, rfl, rfl, List.forall_mem_nil _⟩
  | cons s l ih =>
      obtain ⟨xs, hxs, hlength, hsplits, hoks⟩ := ih
      obtain ⟨x, hx, hok, hapart⟩ :=
        startSession_ok hgen hcurriculum ticks confirmTicks rekeyEscalates (seed + s)
      refine ⟨x :: xs, ?_, congrArg (· + 1) hlength, ?_, List.forall_mem_cons.2 ⟨hok, hoks⟩⟩
      · rw [List.mapM_cons, hx, Option.bind_eq_bind, Option.bind_some, hxs]
        rfl
      · rw [splits, List.map_cons, List.sum_cons, hapart, Nat.zero_add]
        exact hsplits

/-- The quantiles reported of the delays are in order and between a tick and the end of the run. -/
theorem delay_quantiles {delays : List Nat} (hne : delays ≠ [])
    (h : ∀ d ∈ delays, 1 ≤ d ∧ d < ticks) :
    1 ≤ Quantile.median (delays.map (Nat.cast : Nat → R)) ∧
    Quantile.median (delays.map (Nat.cast : Nat → R)) ≤
      Quantile.quantile 0.95 (delays.map (Nat.cast : Nat → R)) ∧
    Quantile.quantile 0.95 (delays.map (Nat.cast : Nat → R)) < ticks := by
  have hdelays : delays.map (Nat.cast : Nat → R) ≠ [] := by
    rwa [Ne, List.map_eq_nil_iff]
  have hmem : ∀ x ∈ delays.map (Nat.cast : Nat → R), 1 ≤ x ∧ x ≤ (ticks - 1 : Nat) := by
    intro x hx
    obtain ⟨d, hd, rfl⟩ := List.mem_map.1 hx
    have hd := h d hd
    exact ⟨by exact_mod_cast hd.1, by exact_mod_cast Nat.le_sub_one_of_lt hd.2⟩
  have hticks : ((ticks - 1 : Nat) : R) < ticks := by
    obtain ⟨d, hd⟩ := List.exists_mem_of_ne_nil _ hne
    have hd := h d hd
    exact_mod_cast (by omega : ticks - 1 < ticks)
  rw [Quantile.median_eq_quantile hdelays]
  refine ⟨(Quantile.quantile_mem (by norm_num) (by norm_num) hdelays hmem).1,
    Quantile.quantile_mono (by norm_num) (by norm_num) hdelays, ?_⟩
  exact (Quantile.quantile_mem (by norm_num) (by norm_num) hdelays hmem).2.trans_lt hticks

/-- The report of a run whose counts are fair. -/
theorem reportOf_eq_some {p : Gate.Rule.Params R} {nSessions split : Nat} {c : Counts}
    {history : List (Record R)} (hfair : c.Fair p ticks split)
    (hkems : ∀ r ∈ history, r.Kems) {report : SimReport R}
    (h : reportOf nSessions ticks c history = some report) :
    report.counts = c ∧
    report.gatedHandshakesPerHour ≤ 2.0 * report.rawHandshakesPerHour ∧
    (c.delayTicks ≠ [] → 1 ≤ report.escalationDelayMedianTicks ∧
      report.escalationDelayMedianTicks ≤ report.escalationDelayP95Ticks ∧
      report.escalationDelayP95Ticks < ticks) ∧
    (0 ≤ report.meanShortfallGated ∧ report.meanShortfallGated ≤ 0.3) ∧
    (0 ≤ report.meanShortfallUngated ∧ report.meanShortfallUngated ≤ 0.3) := by
  unfold reportOf at h
  dsimp only at h
  split at h
  · cases h
  rw [Option.some.injEq] at h
  subst h
  have hneed : ∀ r ∈ history, r.need ≤ 1 := fun r hr => (hkems r hr).1.2
  refine ⟨rfl, ?_, ?_, meanShortfall_mem hneed fun r hr => (hkems r hr).2.1,
    meanShortfall_mem hneed fun r hr => (hkems r hr).2.2⟩
  · have hhours : (0 : R) ≤ ((nSessions * ticks * tickSeconds : Nat) : R) / 3600.0 :=
      div_nonneg (Nat.cast_nonneg _) (by norm_num)
    have hcount : c.gatedChanges + c.gatedRekeys ≤ 2 * (c.rawChanges + c.rawRekeys) := by
      have hchanges := hfair.changes
      have hrekeys := hfair.rekeys
      split at hchanges <;> omega
    have hcast : ((c.gatedChanges + c.gatedRekeys : Nat) : R) ≤
        2.0 * ((c.rawChanges + c.rawRekeys : Nat) : R) := by
      norm_num
      exact_mod_cast hcount
    calc _ ≤ 2.0 * ((c.rawChanges + c.rawRekeys : Nat) : R) / _ :=
          div_le_div_of_nonneg_right hcast hhours
      _ = _ := mul_div_assoc _ _ _
  · intro hne
    have hdelays : c.delayTicks.map (Nat.cast : Nat → R) ≠ [] := by
      rwa [Ne, List.map_eq_nil_iff]
    dsimp only
    rw [if_neg hdelays, if_neg hdelays]
    exact delay_quantiles hne hfair.delays

theorem reportOf_eq_none_iff {nSessions : Nat} (hn : nSessions ≠ 0) (c : Counts)
    (history : List (Record R)) :
    reportOf nSessions ticks c history = none ↔ ticks = 0 := by
  have hhours : ((nSessions * ticks * tickSeconds : Nat) : R) / 3600.0 = 0 ↔ ticks = 0 := by
    rw [div_eq_zero_iff, Nat.cast_eq_zero, or_iff_left (by norm_num)]
    simp [tickSeconds, hn]
  unfold reportOf
  dsimp only
  rw [← hhours]
  split
  · next h => exact iff_of_true rfl h
  · next h => exact iff_of_false (fun h' => nomatch h') h

omit [IsStrictOrderedRing R] in
theorem simulate_of_neg_seed (policyProbs : List (StateVector R) → List (Probs R)) (noise : R)
    (nSessions ticks : Nat) {seed : Int} (hseed : seed < 0) (confirmTicks : Nat)
    (rekeyEscalates : Bool) (curriculum : R) :
    simulate gen policyProbs noise nSessions ticks seed confirmTicks rekeyEscalates curriculum =
      none := by
  rw [simulate, guard_of_not (not_le.2 hseed)]
  rfl

omit [IsStrictOrderedRing R] in
theorem simulate_of_no_sessions (policyProbs : List (StateVector R) → List (Probs R)) (noise : R)
    (ticks : Nat) {seed : Int} (hseed : 0 ≤ seed) (confirmTicks : Nat) (rekeyEscalates : Bool)
    (curriculum : R) :
    simulate gen policyProbs noise 0 ticks seed confirmTicks rekeyEscalates curriculum = none := by
  rw [simulate, guard_of hseed]
  rfl

/-- With a seed to draw from and a session to draw for, the run is the loop and then the report. -/
theorem simulate_eq (hgen : gen.Lawful) (policyProbs : List (StateVector R) → List (Probs R))
    {curriculum : R} (hcurriculum : 0 ≤ curriculum ∧ curriculum ≤ 1) (noise : R)
    {nSessions : Nat} (hn : nSessions ≠ 0) (ticks : Nat) {seed : Int} (hseed : 0 ≤ seed)
    (confirmTicks : Nat) (rekeyEscalates : Bool) :
    ∃ start : Sim G R, start.Ok ⟨confirmTicks, minMargin, rekeyCooldownTicks, rekeyEscalates⟩
        nSessions ticks 0 ∧
      simulate gen policyProbs noise nSessions ticks seed confirmTicks rekeyEscalates curriculum =
        ((List.range' 0 ticks).foldlM (fun sim t => simTick gen policyProbs noise t sim) start).bind
          fun sim => reportOf nSessions ticks sim.counts sim.history := by
  obtain ⟨xs, hxs, hlength, hsplits, hoks⟩ := startSessions_ok hgen hcurriculum ticks confirmTicks
    rekeyEscalates (List.range nSessions) seed.toNat
  refine ⟨{ rng := gen.defaultRng seed.toNat, sessions := xs, counts := ⟨0, 0, 0, 0, []⟩,
            history := [] },
    { sessions := hoks
      length := hlength.trans (List.length_range)
      counts := ⟨by rw [hsplits]; exact Nat.zero_le _, le_refl 0, List.forall_mem_nil _⟩
      history := List.forall_mem_nil _ }, ?_⟩
  rw [simulate, guard_of hseed, Option.bind_eq_bind, Option.bind_some]
  dsimp only
  rw [guard_of hn, Option.bind_eq_bind, Option.bind_some, hxs, Option.bind_eq_bind, Option.bind_some,
    List.range_eq_range']

/-- The simulation raises only on no sessions, on no ticks and where numpy refuses the noise or the
seed, whatever the policy answers, and its report is plausible: the gate lets through no more rekeys
than were asked for, and no more changes than the ungated side makes but for one after each rekey
that may have escalated; every delay is of a tick at least, and so are their median and the
percentile reported beside it; and either side falls short of what was needed by three tenths at
most. -/
theorem simulation_report (hgen : gen.Lawful)
    {policyProbs : List (StateVector R) → List (Probs R)}
    (hrows : ∀ obs, (policyProbs obs).length = obs.length) {curriculum : R}
    (hcurriculum : 0 ≤ curriculum ∧ curriculum ≤ 1) (noise : R)
    (nSessions ticks : Nat) (seed : Int) (confirmTicks : Nat) (rekeyEscalates : Bool) :
    (simulate gen policyProbs noise nSessions ticks seed confirmTicks rekeyEscalates curriculum =
      none ↔ nSessions = 0 ∨ ticks = 0 ∨ noise < 0 ∨ seed < 0) ∧
    ∀ report, simulate gen policyProbs noise nSessions ticks seed confirmTicks rekeyEscalates
        curriculum = some report →
      report.counts.gatedRekeys ≤ report.counts.rawRekeys ∧
      report.counts.gatedChanges ≤ report.counts.rawChanges +
        (if rekeyEscalates then report.counts.gatedRekeys else 0) ∧
      report.gatedHandshakesPerHour ≤ 2.0 * report.rawHandshakesPerHour ∧
      (∀ d ∈ report.counts.delayTicks, 1 ≤ d ∧ d < ticks) ∧
      (report.counts.delayTicks ≠ [] → 1 ≤ report.escalationDelayMedianTicks ∧
        report.escalationDelayMedianTicks ≤ report.escalationDelayP95Ticks ∧
        report.escalationDelayP95Ticks < ticks) ∧
      (0 ≤ report.meanShortfallGated ∧ report.meanShortfallGated ≤ 0.3) ∧
      (0 ≤ report.meanShortfallUngated ∧ report.meanShortfallUngated ≤ 0.3) := by
  rcases lt_or_ge seed 0 with hseed | hseed
  · rw [simulate_of_neg_seed policyProbs noise nSessions ticks hseed]
    exact ⟨iff_of_true rfl (.inr (.inr (.inr hseed))), fun _ h => nomatch h⟩
  by_cases hn : nSessions = 0
  · rw [hn, simulate_of_no_sessions policyProbs noise ticks hseed]
    exact ⟨iff_of_true rfl (.inl rfl), fun _ h => nomatch h⟩
  obtain ⟨start, hstart, hsimulate⟩ := simulate_eq hgen policyProbs hcurriculum noise hn ticks hseed
    confirmTicks rekeyEscalates
  rw [hsimulate]
  rcases lt_or_ge noise 0 with hnoise | hnoise
  · by_cases hticks : ticks = 0
    · subst hticks
      have hnone : reportOf nSessions 0 start.counts start.history = none :=
        (reportOf_eq_none_iff hn start.counts start.history).2 rfl
      rw [List.range'_zero, List.foldlM_nil]
      exact ⟨iff_of_true hnone (.inr (.inl rfl)), fun _ h => nomatch hnone.symm.trans h⟩
    · rw [runTicks_eq_none gen policyProbs hnoise hticks]
      exact ⟨iff_of_true rfl (.inr (.inr (.inl hnoise))), fun _ h => nomatch h⟩
  obtain ⟨sim, hrun, hsim⟩ := runTicks_ok gen hrows hnoise (Nat.zero_add ticks) hstart
  rw [hrun, Option.bind_some, or_iff_right hn,
    or_iff_left (not_or.2 ⟨not_lt.2 hnoise, not_lt.2 hseed⟩)]
  refine ⟨reportOf_eq_none_iff hn _ _, ?_⟩
  intro report h
  obtain ⟨hcounts, hhours, hdelays, hgated, hungated⟩ :=
    reportOf_eq_some hsim.counts hsim.history h
  rw [hcounts]
  exact ⟨hsim.counts.rekeys, (Nat.le_add_right _ _).trans hsim.counts.changes, hhours,
    hsim.counts.delays, hdelays, hgated, hungated⟩

end Run

/-- A policy that rekeys under threat and takes ML-KEM-768 else. -/
def alarmedModel (obs : List (StateVector ℚ)) : List (Probs ℚ) :=
  obs.map fun s => if s threat > 1 / 2 then ![0, 0, 0, 1] else ![0, 1, 0, 0]

theorem simulation_report_of_alarmedModel :
    ∃ report, simulate congruential alarmedModel (1 / 20) 3 8 21 3 true (1 / 2) = some report ∧
      report.counts.gatedRekeys ≤ report.counts.rawRekeys := by
  have hcurriculum : (0 : ℚ) ≤ 1 / 2 ∧ (1 / 2 : ℚ) ≤ 1 := by
    norm_num
  have hrows : ∀ obs, (alarmedModel obs).length = obs.length := fun obs => List.length_map _
  have h := simulation_report congruential_lawful hrows hcurriculum (1 / 20) 3 8 21 3 true
  obtain ⟨report, hreport⟩ := Option.ne_none_iff_exists'.1 fun hnone =>
    absurd (h.1.1 hnone) (by norm_num)
  exact ⟨report, hreport, (h.2 report hreport).1⟩

end Policy
end PqcVpn
