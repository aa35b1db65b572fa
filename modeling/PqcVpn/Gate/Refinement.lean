import PqcVpn.Gate.Rule

/-!
# Refinement — the Rust gate follows the rule

The gate's counters are the counters of the rule's streak and cooldown.  The streak stays below
`confirm_ticks`, so its `u32` cannot overflow, and `level_at` only sees KEM indices, so a tick
always returns.
-/

namespace PqcVpn
namespace Gate

open Crypto (MlKemLevel)
open Debounce

/-! ## Counters -/

theorem toNat_saturatingPred (n : UInt32) : (saturatingPred n).toNat = n.toNat - 1 := by
  unfold saturatingPred
  split
  · rename_i h
    rw [h]
    rfl
  · rename_i h
    have hpos : 1 ≤ n := by
      rw [UInt32.le_iff_toNat_le]
      have hne : n.toNat ≠ 0 := fun h0 => h (UInt32.toNat.inj h0)
      exact Nat.one_le_iff_ne_zero.2 hne
    exact UInt32.toNat_sub_of_le _ _ hpos

theorem checkedSucc_of_lt {n : UInt32} (h : n.toNat + 1 < 2 ^ 32) :
    ∃ m, checkedSucc n = some m ∧ m.toNat = n.toNat + 1 := by
  refine ⟨n + 1, if_pos h, ?_⟩
  rw [UInt32.toNat_add, show (1 : UInt32).toNat = 1 from rfl, Nat.mod_eq_of_lt h]

variable {R : Type}

/-- The parameters of a gate, as the rule has them. -/
def DecisionGate.params (g : DecisionGate R) : Rule.Params R where
  confirmTicks := g.confirmTicks.toNat
  minMargin := g.minMargin
  rekeyCooldownTicks := g.rekeyCooldownTicks.toNat
  rekeyEscalates := g.rekeyEscalates

/-- The gate is in the state `s` of the rule with parameters `p`. -/
structure Refines (g : DecisionGate R) (p : Rule.Params R) (s : Rule.State) : Prop where
  params : g.params = p
  inForce : g.inForce = s.inForce
  candidate : g.candidate = s.streak.candidate.map wireIndex
  streak : g.streak.toNat = s.streak.count
  blocked : g.rekeyBlockedFor.toNat = s.blocked
  bounded : s.streak.count = 0 ∨ s.streak.count < p.confirmTicks

theorem refines_withParams (inForce : MlKemLevel) (confirmTicks : UInt32) (minMargin : R)
    (rekeyCooldownTicks : UInt32) (rekeyEscalates : Bool) :
    Refines
      (DecisionGate.withParams inForce confirmTicks minMargin rekeyCooldownTicks rekeyEscalates)
      ⟨confirmTicks.toNat, minMargin, rekeyCooldownTicks.toNat, rekeyEscalates⟩
      (Rule.fresh inForce) where
  params := rfl
  inForce := rfl
  candidate := rfl
  streak := rfl
  blocked := rfl
  bounded := .inl rfl

/-! ## One tick -/

/-- The streak counter after a tick's challenge has been counted. -/
theorem countStreak_feed {g : DecisionGate R} {st : Streak MlKemLevel} {top : Fin 4}
    (hcand : g.candidate = st.candidate.map wireIndex) (hstreak : g.streak.toNat = st.count)
    (hroom : st.count + 1 < 2 ^ 32) (x : Option MlKemLevel) (htop : ∀ k, x = some k → top = wireIndex k) :
    ∃ n : UInt32, n.toNat = (st.feed x).count ∧
      g.countStreak x.isSome top = some { g with candidate := x.map wireIndex, streak := n } := by
  cases x with
  | none =>
      exact ⟨0, rfl, rfl⟩
  | some k =>
      rw [htop k rfl, Streak.feed_some]
      unfold DecisionGate.countStreak
      -- indices are compared, and an index names one algorithm
      have hsame : g.candidate = some (wireIndex k) ↔ st.candidate = some k := by
        rw [hcand, ← Option.map_some, (Option.map_injective wireIndex_injective).eq_iff]
      by_cases hk : st.candidate = some k
      · rcases checkedSucc_of_lt (hstreak ▸ hroom) with ⟨n, hn, hcount⟩
        refine ⟨n, ?_, ?_⟩
        · rw [if_pos hk, hcount, hstreak]
        · simp [hsame.2 hk, hn]
      · have hne : ¬ g.candidate = some (wireIndex k) := fun h => hk (hsame.1 h)
        refine ⟨1, ?_, ?_⟩
        · rw [if_neg hk]
          rfl
        · simp [hne]

theorem updateAlgorithm_of_no_challenge (g : DecisionGate R) (top : Fin 4) :
    g.updateAlgorithm false top = some (g.decision false false
      (if top = wireIndex g.inForce then reasonAgrees else reasonLowMargin), g) := by
  unfold DecisionGate.updateAlgorithm
  split <;> rfl

theorem updateAlgorithm_of_confirmed {g : DecisionGate R} {k : MlKemLevel} (hne : k ≠ g.inForce)
    (hcount : g.confirmTicks.toNat ≤ g.streak.toNat) :
    g.updateAlgorithm true (wireIndex k) = some (⟨k, true, false, reasonConfirmed⟩,
      { g with inForce := k, candidate := none, streak := 0 }) := by
  have hle : g.streak ≥ g.confirmTicks := UInt32.le_iff_toNat_le.2 hcount
  unfold DecisionGate.updateAlgorithm
  simp [wireIndex_injective.eq_iff, hne, hle, DecisionGate.decision]

theorem updateAlgorithm_of_on_streak {g : DecisionGate R} {k : MlKemLevel} (hne : k ≠ g.inForce)
    (hcount : g.streak.toNat < g.confirmTicks.toNat) :
    g.updateAlgorithm true (wireIndex k) =
      some (g.decision false false reasonOnStreak, g) := by
  have hlt : ¬ g.streak ≥ g.confirmTicks := fun hle => by
    have := UInt32.le_iff_toNat_le.1 hle
    omega
  unfold DecisionGate.updateAlgorithm
  simp [wireIndex_injective.eq_iff, hne, hlt]

variable [LinearOrder R]

theorem updateRekey_blocked {g : DecisionGate R} {probs : Probs R}
    (h : 0 < g.rekeyBlockedFor.toNat) :
    g.updateRekey probs = some (g.decision false false reasonRekeySuppressed, g) := by
  have hpos : g.rekeyBlockedFor > 0 := UInt32.lt_iff_toNat_lt.2 h
  unfold DecisionGate.updateRekey
  rw [if_pos hpos]
  rfl

/-- The algorithm a rekey is performed at. -/
def rekeyLevel (g : DecisionGate R) (probs : Probs R) : MlKemLevel :=
  if g.rekeyEscalates then max g.inForce (topKem probs) else g.inForce

theorem updateRekey_clear {g : DecisionGate R} {probs : Probs R}
    (h : g.rekeyBlockedFor.toNat = 0) :
    g.updateRekey probs = some
      ({ inForce := rekeyLevel g probs
         changeAlgorithm := false
         rekey := true
         reason := if g.inForce < rekeyLevel g probs then reasonRekeyEscalated else reasonRekey },
        { g with inForce := rekeyLevel g probs, rekeyBlockedFor := g.rekeyCooldownTicks }) := by
  have hzero : ¬ g.rekeyBlockedFor > 0 := fun hpos => by
    have := UInt32.lt_iff_toNat_lt.1 hpos
    omega
  unfold DecisionGate.updateRekey rekeyLevel
  rw [if_neg hzero]
  -- only an escalating gate looks at the KEM actions
  cases hesc : g.rekeyEscalates with
  | false =>
      simp [DecisionGate.decision]
  | true =>
      simp only [if_true, levelAt_argmax_kem, Option.bind_eq_bind, Option.bind_some]
      by_cases hlt : g.inForce < topKem probs
      · have hmax : max g.inForce (topKem probs) = topKem probs := max_eq_right hlt.le
        simp [hlt, hmax, DecisionGate.decision]
      · have hmax : max g.inForce (topKem probs) = g.inForce := max_eq_left (not_lt.1 hlt)
        simp [hlt, hmax, DecisionGate.decision]

variable [Sub R]

theorem extendsStreak_eq (g : DecisionGate R) (probs : Probs R) :
    g.extendsStreak probs (argmax probs 0 actionCount) =
      (Rule.challenge g.minMargin g.inForce probs).isSome := by
  rw [Rule.isSome_challenge, DecisionGate.extendsStreak]

/-- The gate has run the cooldown down and counted the challenge of a tick: its count may have
reached `confirm_ticks`. -/
structure Counted (g : DecisionGate R) (p : Rule.Params R) (s : Rule.State) : Prop where
  params : g.params = p
  inForce : g.inForce = s.inForce
  candidate : g.candidate = s.streak.candidate.map wireIndex
  streak : g.streak.toNat = s.streak.count
  blocked : g.rekeyBlockedFor.toNat = s.blocked

omit [LinearOrder R] [Sub R] in
theorem Counted.refines {g : DecisionGate R} {p : Rule.Params R} {s : Rule.State}
    (h : Counted g p s) (hbounded : s.streak.count = 0 ∨ s.streak.count < p.confirmTicks) :
    Refines g p s :=
  ⟨h.params, h.inForce, h.candidate, h.streak, h.blocked, hbounded⟩

/-- A tick counts the challenge and then takes the branch of the policy's choice. -/
theorem update_eq {g : DecisionGate R} {p : Rule.Params R} {s : Rule.State} (h : Refines g p s)
    (probs : Probs R) {x : Option MlKemLevel}
    (hx : Rule.challenge p.minMargin s.inForce probs = x) :
    ∃ g₁ : DecisionGate R, Counted g₁ p ⟨s.inForce, s.streak.feed x, s.blocked - 1⟩ ∧
      g.update probs =
        if argmax probs 0 actionCount = rekeyActionIndex then g₁.updateRekey probs
        else g₁.updateAlgorithm x.isSome (argmax probs 0 actionCount) := by
  rcases h with ⟨rfl, hin, hcand, hstreak, hblocked, hbound⟩
  -- the streak is below `confirm_ticks`, itself a `u32`
  have hroom : s.streak.count + 1 < 2 ^ 32 := by
    have hlt := g.confirmTicks.toNat_lt
    have hticks : g.params.confirmTicks = g.confirmTicks.toNat := rfl
    omega
  have hchallenge : Rule.challenge g.minMargin g.inForce probs = x := by
    rw [hin]
    exact hx
  -- it is counted on the gate whose cooldown has already ticked
  rcases countStreak_feed (g := { g with rekeyBlockedFor := saturatingPred g.rekeyBlockedFor })
    hcand hstreak hroom x (fun k hk => (Rule.challenge_eq_some_iff.1 (hx.trans hk)).1)
    with ⟨n, hn, hcount⟩
  refine ⟨{ g with
    rekeyBlockedFor := saturatingPred g.rekeyBlockedFor
    candidate := x.map wireIndex
    streak := n }, ⟨rfl, hin, ?_, hn, ?_⟩, ?_⟩
  · rw [Streak.candidate_feed]
  · rw [← hblocked]
    exact toNat_saturatingPred _
  · have hext := extendsStreak_eq
      { g with rekeyBlockedFor := saturatingPred g.rekeyBlockedFor } probs
    dsimp only at hext
    rw [hchallenge] at hext
    unfold DecisionGate.update
    dsimp only
    rw [hext, hcount]
    rfl

/-- The choice of the rekey: the streak is cleared, and the cooldown decides. -/
theorem updateRekey_refines {g : DecisionGate R} {p : Rule.Params R} {s : Rule.State}
    {probs : Probs R} (h : Counted g p ⟨s.inForce, Streak.fresh, s.blocked - 1⟩)
    (hask : Rule.asksRekey probs = true) :
    ∃ g', g.updateRekey probs = some (Rule.decision p s probs, g') ∧
      Refines g' p (Rule.next p s probs) := by
  have hin : g.inForce = s.inForce := h.inForce
  have hblocked : g.rekeyBlockedFor.toNat = s.blocked - 1 := h.blocked
  by_cases hwait : 0 < s.blocked - 1
  · rcases Rule.decision_of_suppressed (p := p) hask hwait with ⟨hdec, hnext⟩
    rw [updateRekey_blocked (by omega), hdec, hnext, DecisionGate.decision, hin]
    exact ⟨g, rfl, h.refines (.inl rfl)⟩
  · have hclear : s.blocked - 1 = 0 := by omega
    rcases Rule.decision_of_rekey (p := p) hask hclear with ⟨level, hlevel, hdec, hnext⟩
    have hrekey : rekeyLevel g probs = level := by
      rw [hlevel, rekeyLevel, hin, ← h.params]
      rfl
    rw [updateRekey_clear (by omega), hdec, hnext, hrekey, hin]
    refine ⟨_, rfl, Counted.refines ?_ (.inl rfl)⟩
    exact { h with inForce := rfl, blocked := by rw [← h.params]; rfl }

/-- The choice of an algorithm: one case for each reason the gate can give. -/
theorem updateAlgorithm_refines {g : DecisionGate R} {p : Rule.Params R} {s : Rule.State}
    {probs : Probs R} {x : Option MlKemLevel}
    (h : Counted g p ⟨s.inForce, s.streak.feed x, s.blocked - 1⟩)
    (hask : Rule.asksRekey probs = false)
    (hx : Rule.challenge p.minMargin s.inForce probs = x) :
    ∃ g', g.updateAlgorithm x.isSome (argmax probs 0 actionCount) =
        some (Rule.decision p s probs, g') ∧ Refines g' p (Rule.next p s probs) := by
  have hin : g.inForce = s.inForce := h.inForce
  cases x with
  | none =>
      rcases Rule.decision_of_no_challenge (p := p) hask hx with ⟨hdec, hnext⟩
      rw [Option.isSome_none, updateAlgorithm_of_no_challenge, hdec, hnext, DecisionGate.decision,
        hin]
      exact ⟨g, rfl, h.refines (.inl rfl)⟩
  | some k =>
      rcases Rule.challenge_eq_some_iff.1 hx with ⟨htop, hne, _⟩
      have hne₁ : k ≠ g.inForce := hin ▸ hne
      have hcount : g.streak.toNat = (s.streak.feed (some k)).count := h.streak
      have hticks : g.confirmTicks.toNat = p.confirmTicks := by
        rw [← h.params]
        rfl
      rw [Option.isSome_some, htop]
      by_cases hfull : p.confirmTicks ≤ (s.streak.feed (some k)).count
      · -- confirmed: the streak starts over
        rcases Rule.decision_of_confirmed hx hfull with ⟨hdec, hnext⟩
        rw [updateAlgorithm_of_confirmed hne₁ (by omega), hdec, hnext]
        refine ⟨_, rfl, Counted.refines ?_ (.inl rfl)⟩
        exact { h with inForce := rfl, candidate := rfl, streak := rfl }
      · -- not confirmed yet: the count stays below the bound that keeps it a `u32`
        have hlt : (s.streak.feed (some k)).count < p.confirmTicks := by omega
        rcases Rule.decision_of_on_streak hx hlt with ⟨hdec, hnext⟩
        rw [updateAlgorithm_of_on_streak hne₁ (by omega), hdec, hnext, DecisionGate.decision, hin]
        exact ⟨g, rfl, h.refines (.inr hlt)⟩

theorem update_refines {g : DecisionGate R} {p : Rule.Params R} {s : Rule.State}
    (h : Refines g p s) (probs : Probs R) :
    ∃ g', g.update probs = some (Rule.decision p s probs, g') ∧
      Refines g' p (Rule.next p s probs) := by
  rcases update_eq h probs rfl with ⟨g₁, h₁, hupdate⟩
  rw [hupdate]
  by_cases hask : Rule.asksRekey probs = true
  · rw [Rule.challenge_of_asksRekey hask] at h₁
    rw [if_pos (Rule.asksRekey_iff.1 hask)]
    exact updateRekey_refines h₁ hask
  · have hnot : ¬ argmax probs 0 actionCount = rekeyActionIndex := fun htop =>
      hask (Rule.asksRekey_iff.2 htop)
    rw [if_neg hnot]
    exact updateAlgorithm_refines h₁ (Bool.not_eq_true _ ▸ hask) rfl

/-! ## Sessions -/

theorem session_refines {g : DecisionGate R} {p : Rule.Params R} {s : Rule.State}
    (h : Refines g p s) (ps : List (Probs R)) : g.session ps = some (Rule.session p s ps) := by
  induction ps generalizing g s with
  | nil =>
      rfl
  | cons probs ps ih =>
      rcases update_refines h probs with ⟨g', hupdate, h'⟩
      rw [DecisionGate.session, hupdate]
      simp only [Option.bind_eq_bind, Option.bind_some, ih h', Option.pure_def, Rule.session,
        h.inForce]

end Gate
end PqcVpn
