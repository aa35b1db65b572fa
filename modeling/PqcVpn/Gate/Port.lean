import PqcVpn.Gate.Python
import PqcVpn.Gate.Refinement

/-!
# Port — the Rust gate decides what the Python gate decides

Both gates follow the rule: the Rust one with `u32` counters and an optional candidate, the Python
one with integers and the sentinel `-1`.  So on one sequence of probabilities they return, tick for
tick, the same decisions.
-/

namespace PqcVpn
namespace Gate

open Crypto (MlKemLevel)
open Debounce

/-- A decision of the Rust gate, with the algorithm as an action index. -/
def Decision.toPython (d : Decision) : Python.Decision where
  inForce := wireIndex d.inForce
  changeAlgorithm := d.changeAlgorithm
  rekey := d.rekey
  reason := d.reason

def Tick.toPython {R : Type} (t : Tick R) : Python.Tick R where
  probs := t.probs
  before := wireIndex t.before
  decision := t.decision.toPython

namespace Python

/-- The candidate as the Python gate stores it. -/
def sentinel : Option MlKemLevel → Int
  | none => -1
  | some k => (wireIndex k).val

theorem sentinel_eq_iff {x : Option MlKemLevel} {k : MlKemLevel} :
    ((wireIndex k).val : Int) = sentinel x ↔ x = some k := by
  cases x with
  | none =>
      simp only [sentinel, reduceCtorEq]
  | some y =>
      simp only [sentinel, Option.some.injEq, Nat.cast_inj, Fin.val_inj,
        wireIndex_injective.eq_iff, eq_comm]

variable {R : Type}

/-- The gate is in the state `s` of the rule with parameters `p`. -/
structure Refines (g : DecisionGate R) (p : Rule.Params R) (s : Rule.State) : Prop where
  confirmTicks : g.confirmTicks = p.confirmTicks
  minMargin : g.minMargin = p.minMargin
  rekeyCooldownTicks : g.rekeyCooldownTicks = p.rekeyCooldownTicks
  rekeyEscalates : g.rekeyEscalates = p.rekeyEscalates
  inForce : g.inForce = wireIndex s.inForce
  candidate : g.candidate = sentinel s.streak.candidate
  streak : g.streak = s.streak.count
  blocked : g.rekeyBlockedFor = s.blocked

theorem refines_init (inForce : MlKemLevel) (p : Rule.Params R) :
    Refines (DecisionGate.init (wireIndex inForce) p.confirmTicks p.minMargin p.rekeyCooldownTicks
      p.rekeyEscalates) p (Rule.fresh inForce) where
  confirmTicks := rfl
  minMargin := rfl
  rekeyCooldownTicks := rfl
  rekeyEscalates := rfl
  inForce := rfl
  candidate := rfl
  streak := rfl
  blocked := rfl

/-! ## One tick -/

theorem Refines.coolDown {g : DecisionGate R} {p : Rule.Params R} {s : Rule.State}
    (h : Refines g p s) :
    Refines g.coolDown p { s with blocked := s.blocked - 1 } := by
  have hblocked : g.coolDown.rekeyBlockedFor = ((s.blocked - 1 : Nat) : Int) := by
    unfold DecisionGate.coolDown
    rw [h.blocked]
    -- the guard on zero is the truncated subtraction
    split
    · dsimp only
      omega
    · rw [h.blocked]
      omega
  have hsame : g.coolDown = { g with rekeyBlockedFor := g.coolDown.rekeyBlockedFor } := by
    unfold DecisionGate.coolDown
    split <;> rfl
  rw [hsame]
  exact { h with blocked := hblocked }

theorem Refines.countStreak {g : DecisionGate R} {p : Rule.Params R} {s : Rule.State}
    (h : Refines g p s) (x : Option MlKemLevel) {top : Fin 4}
    (htop : ∀ k, x = some k → top = wireIndex k) :
    Refines (g.countStreak x.isSome top) p { s with streak := s.streak.feed x } := by
  cases x with
  | none =>
      exact { h with candidate := rfl, streak := rfl }
  | some k =>
      -- the sentinel the code stores for "no candidate" is no level's index
      rw [htop k rfl, Streak.feed_some]
      unfold DecisionGate.countStreak
      rw [if_neg (by simp), h.candidate]
      by_cases hk : s.streak.candidate = some k
      · rw [if_pos (sentinel_eq_iff.2 hk), if_pos hk]
        refine { h with candidate := ?_, streak := ?_ }
        · change sentinel s.streak.candidate = sentinel (some k)
          rw [hk]
        · dsimp only
          rw [h.streak, Nat.cast_add, Nat.cast_one]
      · rw [if_neg (fun heq => hk (sentinel_eq_iff.1 heq)), if_neg hk]
        exact { h with candidate := rfl, streak := rfl }

variable [LinearOrder R] [Sub R]

theorem extendsStreak_eq {g : DecisionGate R} {inForce : MlKemLevel}
    (hin : g.inForce = wireIndex inForce) (probs : Probs R) :
    g.extendsStreak probs (argmax probs 0 actionCount) =
      (Rule.challenge g.minMargin inForce probs).isSome := by
  rw [Rule.isSome_challenge, DecisionGate.extendsStreak, rekeyActionIdx_eq, hin]

omit [Sub R] in
theorem updateRekey_blocked {g : DecisionGate R} {probs : Probs R} (h : g.rekeyBlockedFor ≠ 0) :
    g.updateRekey probs = some (⟨g.inForce, false, false, reasonRekeySuppressed⟩, g) := by
  unfold DecisionGate.updateRekey
  rw [if_neg h]
  rfl

omit [Sub R] in
theorem updateRekey_clear {g : DecisionGate R} {probs : Probs R} {inForce level : MlKemLevel}
    (h : g.rekeyBlockedFor = 0) (hin : g.inForce = wireIndex inForce)
    (hlevel : level = if g.rekeyEscalates then max inForce (topKem probs) else inForce) :
    g.updateRekey probs = some
      (⟨wireIndex level, false, true,
          if inForce < level then reasonRekeyEscalated else reasonRekey⟩,
        { g with inForce := wireIndex level, rekeyBlockedFor := g.rekeyCooldownTicks }) := by
  have hbest : argmax probs 0 rekeyActionIndex = wireIndex (topKem probs) :=
    levelAt_eq_some_iff.1 (levelAt_argmax_kem probs)
  unfold DecisionGate.updateRekey
  rw [if_pos h]
  -- only an escalating gate looks at the KEM actions
  cases hesc : g.rekeyEscalates with
  | false =>
      rw [hesc] at hlevel
      simp [hlevel, hin]
  | true =>
      rw [hesc, if_pos rfl] at hlevel
      simp only [if_true, argmax_kemActions, hbest, Option.bind_eq_bind, Option.bind_some, hin]
      by_cases hlt : inForce < topKem probs
      · have hmax : level = topKem probs := hlevel.trans (max_eq_right hlt.le)
        simp [hlt, hmax, actionSecurity_lt_iff]
      · have hmax : level = inForce := hlevel.trans (max_eq_left (not_lt.1 hlt))
        simp [hlt, hmax, actionSecurity_lt_iff]

omit [LinearOrder R] [Sub R] in
theorem updateAlgorithm_of_no_challenge (g : DecisionGate R) (top : Fin 4) :
    g.updateAlgorithm false top = (⟨g.inForce, false, false,
      if top = g.inForce then reasonAgrees else reasonLowMargin⟩, g) := by
  unfold DecisionGate.updateAlgorithm
  split <;> rfl

omit [LinearOrder R] [Sub R] in
theorem updateAlgorithm_of_confirmed {g : DecisionGate R} {top : Fin 4} (hne : top ≠ g.inForce)
    (hcount : g.confirmTicks ≤ g.streak) :
    g.updateAlgorithm true top = (⟨top, true, false, reasonConfirmed⟩,
      { g with inForce := top, candidate := -1, streak := 0 }) := by
  unfold DecisionGate.updateAlgorithm
  rw [if_neg hne, if_neg (by simp), if_pos hcount]

omit [LinearOrder R] [Sub R] in
theorem updateAlgorithm_of_on_streak {g : DecisionGate R} {top : Fin 4} (hne : top ≠ g.inForce)
    (hcount : g.streak < g.confirmTicks) :
    g.updateAlgorithm true top = (⟨g.inForce, false, false, reasonOnStreak⟩, g) := by
  unfold DecisionGate.updateAlgorithm
  rw [if_neg hne, if_neg (by simp), if_neg (not_le.2 hcount)]

/-- A tick runs the cooldown down, counts the challenge and takes the branch of the choice. -/
theorem update_eq {g : DecisionGate R} {p : Rule.Params R} {s : Rule.State} (h : Refines g p s)
    (probs : Probs R) {x : Option MlKemLevel}
    (hx : Rule.challenge p.minMargin s.inForce probs = x) :
    ∃ g₁, Refines g₁ p ⟨s.inForce, s.streak.feed x, s.blocked - 1⟩ ∧
      g.update probs =
        if argmax probs 0 actionCount = rekeyActionIndex then g₁.updateRekey probs
        else some (g₁.updateAlgorithm x.isSome (argmax probs 0 actionCount)) := by
  subst hx
  have hcool := h.coolDown
  refine ⟨_, hcool.countStreak _
    (fun k hk => (Rule.challenge_eq_some_iff.1 hk).1), ?_⟩
  have hext := extendsStreak_eq hcool.inForce probs
  rw [hcool.minMargin] at hext
  unfold DecisionGate.update
  simp only [argmax_all, Option.bind_eq_bind, Option.bind_some, hext, rekeyActionIdx_eq]
  rfl

theorem updateRekey_refines {g : DecisionGate R} {p : Rule.Params R} {s : Rule.State}
    {probs : Probs R} (h : Refines g p ⟨s.inForce, Streak.fresh, s.blocked - 1⟩)
    (hask : Rule.asksRekey probs = true) :
    ∃ g', g.updateRekey probs = some ((Rule.decision p s probs).toPython, g') ∧
      Refines g' p (Rule.next p s probs) := by
  have hblocked : g.rekeyBlockedFor = ((s.blocked - 1 : Nat) : Int) := h.blocked
  by_cases hwait : 0 < s.blocked - 1
  · rcases Rule.decision_of_suppressed (p := p) hask hwait with ⟨hdec, hnext⟩
    rw [updateRekey_blocked (by omega), hdec, hnext, h.inForce]
    exact ⟨g, rfl, h⟩
  · have hclear : s.blocked - 1 = 0 := by omega
    rcases Rule.decision_of_rekey (p := p) hask hclear with ⟨level, hlevel, hdec, hnext⟩
    rw [← h.rekeyEscalates] at hlevel
    rw [updateRekey_clear (by omega) h.inForce hlevel, hdec, hnext]
    refine ⟨_, rfl, ?_⟩
    exact { h with inForce := rfl, blocked := h.rekeyCooldownTicks }

theorem updateAlgorithm_refines {g : DecisionGate R} {p : Rule.Params R} {s : Rule.State}
    {probs : Probs R} {x : Option MlKemLevel}
    (h : Refines g p ⟨s.inForce, s.streak.feed x, s.blocked - 1⟩)
    (hask : Rule.asksRekey probs = false)
    (hx : Rule.challenge p.minMargin s.inForce probs = x) :
    ∃ g', g.updateAlgorithm x.isSome (argmax probs 0 actionCount) =
        ((Rule.decision p s probs).toPython, g') ∧ Refines g' p (Rule.next p s probs) := by
  cases x with
  | none =>
      rcases Rule.decision_of_no_challenge (p := p) hask hx with ⟨hdec, hnext⟩
      rw [Option.isSome_none, updateAlgorithm_of_no_challenge, hdec, hnext, h.inForce]
      exact ⟨g, rfl, h⟩
  | some k =>
      rcases Rule.challenge_eq_some_iff.1 hx with ⟨htop, hne, _⟩
      have hne₁ : wireIndex k ≠ g.inForce := by
        rw [h.inForce]
        exact fun heq => hne (wireIndex_injective heq)
      have hcount : g.streak = ((s.streak.feed (some k)).count : Int) := h.streak
      have hticks : g.confirmTicks = (p.confirmTicks : Int) := h.confirmTicks
      rw [Option.isSome_some, htop]
      by_cases hfull : p.confirmTicks ≤ (s.streak.feed (some k)).count
      · rcases Rule.decision_of_confirmed hx hfull with ⟨hdec, hnext⟩
        rw [updateAlgorithm_of_confirmed hne₁ (by omega), hdec, hnext]
        refine ⟨_, rfl, ?_⟩
        exact { h with inForce := rfl, candidate := rfl, streak := rfl }
      · have hlt : (s.streak.feed (some k)).count < p.confirmTicks := by omega
        rcases Rule.decision_of_on_streak hx hlt with ⟨hdec, hnext⟩
        rw [updateAlgorithm_of_on_streak hne₁ (by omega), hdec, hnext, h.inForce]
        exact ⟨g, rfl, h⟩

/-- The cases are those of the Rust gate. -/
theorem update_refines {g : DecisionGate R} {p : Rule.Params R} {s : Rule.State}
    (h : Refines g p s) (probs : Probs R) :
    ∃ g', g.update probs = some ((Rule.decision p s probs).toPython, g') ∧
      Refines g' p (Rule.next p s probs) := by
  rcases update_eq h probs rfl with ⟨g₁, h₁, hupdate⟩
  rw [hupdate]
  by_cases hask : Rule.asksRekey probs = true
  · rw [Rule.challenge_of_asksRekey hask] at h₁
    rw [if_pos (Rule.asksRekey_iff.1 hask)]
    exact updateRekey_refines h₁ hask
  · have hnot : ¬ argmax probs 0 actionCount = rekeyActionIndex := fun htop =>
      hask (Rule.asksRekey_iff.2 htop)
    rcases updateAlgorithm_refines h₁ (Bool.not_eq_true _ ▸ hask) rfl with ⟨g₂, hg₂, h₂⟩
    rw [if_neg hnot, hg₂]
    exact ⟨g₂, rfl, h₂⟩

/-! ## Sessions -/

theorem session_refines {g : DecisionGate R} {p : Rule.Params R} {s : Rule.State}
    (h : Refines g p s) (ps : List (Probs R)) :
    g.session ps = some ((Rule.session p s ps).map Tick.toPython) := by
  induction ps generalizing g s with
  | nil =>
      rfl
  | cons probs ps ih =>
      rcases update_refines h probs with ⟨g', hupdate, h'⟩
      rw [DecisionGate.session, hupdate]
      simp only [Option.bind_eq_bind, Option.bind_some, ih h', Option.pure_def, Rule.session,
        List.map_cons, Tick.toPython, h.inForce]

end Python

/-! ## Both gates -/

section

variable {R : Type} [LinearOrder R] [Sub R]

/-- The ticks both gates produce from `inForce` with the parameters `p`: the Python gate for any
counts, the Rust gate for counts that are `u32`. -/
structure Produces (inForce : MlKemLevel) (p : Rule.Params R) (ps : List (Probs R))
    (ticks : List (Tick R)) : Prop where
  python : (Python.DecisionGate.init (wireIndex inForce) p.confirmTicks p.minMargin
    p.rekeyCooldownTicks p.rekeyEscalates).session ps = some (ticks.map Tick.toPython)
  rust : ∀ confirmTicks rekeyCooldownTicks : UInt32, confirmTicks.toNat = p.confirmTicks →
    rekeyCooldownTicks.toNat = p.rekeyCooldownTicks →
    (DecisionGate.withParams inForce confirmTicks p.minMargin rekeyCooldownTicks
      p.rekeyEscalates).session ps = some ticks
  probs : ticks.map Tick.probs = ps

theorem probs_session (p : Rule.Params R) (s : Rule.State) (ps : List (Probs R)) :
    (Rule.session p s ps).map Tick.probs = ps := by
  induction ps generalizing s with
  | nil =>
      rfl
  | cons probs ps ih =>
      rw [Rule.session, List.map_cons, ih]

/-- What the rule decides is what both gates produce. -/
theorem produces_session (inForce : MlKemLevel) (p : Rule.Params R) (ps : List (Probs R)) :
    Produces inForce p ps (Rule.session p (Rule.fresh inForce) ps) where
  python := Python.session_refines (Python.refines_init inForce p) ps
  rust := by
    intro confirmTicks rekeyCooldownTicks hconfirm hcooldown
    have hrefines := refines_withParams inForce confirmTicks p.minMargin rekeyCooldownTicks
      p.rekeyEscalates
    rw [hconfirm, hcooldown] at hrefines
    exact session_refines hrefines ps
  probs := probs_session p _ ps

/-- Tick for tick, the Rust gate returns, and it decides what the Python gate decides. -/
theorem rust_gate_refines_python (inForce : MlKemLevel) (confirmTicks : UInt32) (minMargin : R)
    (rekeyCooldownTicks : UInt32) (rekeyEscalates : Bool) (ps : List (Probs R)) :
    ∃ ticks : List (Tick R), ticks.map Tick.probs = ps ∧
      (DecisionGate.withParams inForce confirmTicks minMargin rekeyCooldownTicks
        rekeyEscalates).session ps = some ticks ∧
      (Python.DecisionGate.init (wireIndex inForce) confirmTicks.toNat minMargin
        rekeyCooldownTicks.toNat rekeyEscalates).session ps = some (ticks.map Tick.toPython) := by
  have h := produces_session inForce
    ⟨confirmTicks.toNat, minMargin, rekeyCooldownTicks.toNat, rekeyEscalates⟩ ps
  exact ⟨_, h.probs, h.rust confirmTicks rekeyCooldownTicks rfl rfl, h.python⟩

end

end Gate
end PqcVpn
