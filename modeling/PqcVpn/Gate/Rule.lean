import PqcVpn.Gate.Model
import PqcVpn.Lib.Debounce

/-!
# Rule — what the decision gate is for

The rule behind both gates, in terms of a confirmation streak and a cooldown: a challenger that
leads by the margin is adopted when its streak is complete, a rekey request goes through when the
cooldown is over, and a rekey may raise the algorithm in force but never lower it.
-/

namespace PqcVpn
namespace Gate

open Crypto (MlKemLevel)
open Debounce

/-! ## Indices -/

@[simp] theorem levelAt_wireIndex (level : MlKemLevel) : levelAt (wireIndex level) = some level := by
  cases level <;> decide

theorem levelAt_eq_some_iff {i : Fin 4} {level : MlKemLevel} :
    levelAt i = some level ↔ i = wireIndex level := by
  revert i
  cases level <;> decide

theorem levelAt_eq_none_iff {i : Fin 4} : levelAt i = none ↔ i = rekeyActionIndex := by
  revert i
  decide

theorem wireIndex_injective : Function.Injective wireIndex := by
  intro a b h
  have hsome := levelAt_wireIndex a
  rw [h, levelAt_wireIndex] at hsome
  exact (Option.some.inj hsome).symm

theorem levelAt_rekey : levelAt rekeyActionIndex = none := by
  decide

theorem wireIndex_ne_rekey (level : MlKemLevel) : wireIndex level ≠ rekeyActionIndex := by
  cases level <;> decide

section Argmax

variable {R : Type} [LinearOrder R]

theorem foldl_argmax_mem (probs : Probs R) (l : List (Fin 4)) (start : Fin 4) :
    l.foldl (fun best i => if probs i > probs best then i else best) start = start ∨
      l.foldl (fun best i => if probs i > probs best then i else best) start ∈ l := by
  induction l generalizing start with
  | nil =>
      exact .inl rfl
  | cons i l ih =>
      rw [List.foldl_cons]
      split
      · -- the head replaces the best so far
        rcases ih i with h | h
        · exact .inr (by rw [h]; exact List.mem_cons_self)
        · exact .inr (List.mem_cons_of_mem _ h)
      · rcases ih start with h | h
        · exact .inl h
        · exact .inr (List.mem_cons_of_mem _ h)

/-- The largest of the KEM outputs is a KEM. -/
theorem argmax_kem_ne_rekey (probs : Probs R) :
    argmax probs 0 rekeyActionIndex ≠ rekeyActionIndex := by
  intro h
  rcases foldl_argmax_mem probs (indexRange 0 rekeyActionIndex) 0 with h0 | hmem
  · rw [argmax, h0] at h
    exact absurd h (by decide)
  · rw [← argmax, h] at hmem
    exact absurd hmem (by decide)

/-- The policy's top-ranked KEM. -/
def topKem (probs : Probs R) : MlKemLevel :=
  (levelAt (argmax probs 0 rekeyActionIndex)).getD .mlKem512

theorem levelAt_argmax_kem (probs : Probs R) :
    levelAt (argmax probs 0 rekeyActionIndex) = some (topKem probs) := by
  cases h : levelAt (argmax probs 0 rekeyActionIndex) with
  | none =>
      exact absurd (levelAt_eq_none_iff.1 h) (argmax_kem_ne_rekey probs)
  | some level =>
      rw [topKem, h, Option.getD_some]

end Argmax

/-! ## The rule -/

namespace Rule

structure Params (R : Type) where
  confirmTicks : Nat
  minMargin : R
  rekeyCooldownTicks : Nat
  rekeyEscalates : Bool

structure State where
  inForce : MlKemLevel
  streak : Streak MlKemLevel
  blocked : Nat

def fresh (inForce : MlKemLevel) : State := ⟨inForce, Streak.fresh, 0⟩

variable {R : Type} [LinearOrder R]

/-- Whether a tick asks for a rekey. -/
def asksRekey (probs : Probs R) : Bool := argmax probs 0 actionCount = rekeyActionIndex

theorem asksRekey_iff {probs : Probs R} :
    asksRekey probs = true ↔ argmax probs 0 actionCount = rekeyActionIndex := by
  simp [asksRekey]

def cool (p : Params R) (s : State) (probs : Probs R) : Bool × Nat :=
  Cooldown.step p.rekeyCooldownTicks s.blocked (asksRekey probs)

/-- Only a request is let through. -/
theorem asksRekey_of_cool {p : Params R} {s : State} {probs : Probs R}
    (h : (cool p s probs).1 = true) : asksRekey probs = true := by
  unfold cool Cooldown.step at h
  split at h
  · rename_i hreq
    exact hreq.1
  · cases h

theorem cool_of_not_asksRekey {p : Params R} {s : State} {probs : Probs R}
    (h : asksRekey probs = false) : cool p s probs = (false, s.blocked - 1) := by
  simp [cool, Cooldown.step, h]

variable [Sub R]

/-- The algorithm a tick asks for: the policy's choice, if it is another algorithm that leads the
one in force by the margin. -/
def challenge (minMargin : R) (inForce : MlKemLevel) (probs : Probs R) : Option MlKemLevel :=
  (levelAt (argmax probs 0 actionCount)).filter fun k =>
    k ≠ inForce ∧ probs (wireIndex k) - probs (wireIndex inForce) ≥ minMargin

def confirm (p : Params R) (s : State) (probs : Probs R) : Option MlKemLevel × Streak MlKemLevel :=
  s.streak.step p.confirmTicks (challenge p.minMargin s.inForce probs)

/-- The algorithm in force after a tick. -/
def nextInForce (p : Params R) (s : State) (probs : Probs R) : MlKemLevel :=
  match (confirm p s probs).1 with
  | some k => k
  | none =>
      if (cool p s probs).1 = true ∧ p.rekeyEscalates = true then
        max s.inForce (topKem probs)
      else
        s.inForce

def reason (p : Params R) (s : State) (probs : Probs R) : String :=
  if asksRekey probs then
    if (cool p s probs).1 then
      if s.inForce < nextInForce p s probs then reasonRekeyEscalated else reasonRekey
    else
      reasonRekeySuppressed
  else if argmax probs 0 actionCount = wireIndex s.inForce then
    reasonAgrees
  else if challenge p.minMargin s.inForce probs = none then
    reasonLowMargin
  else if (confirm p s probs).1 = none then
    reasonOnStreak
  else
    reasonConfirmed

def decision (p : Params R) (s : State) (probs : Probs R) : Decision where
  inForce := nextInForce p s probs
  changeAlgorithm := (confirm p s probs).1.isSome
  rekey := (cool p s probs).1
  reason := reason p s probs

def next (p : Params R) (s : State) (probs : Probs R) : State where
  inForce := nextInForce p s probs
  streak := (confirm p s probs).2
  blocked := (cool p s probs).2

theorem challenge_of_asksRekey {m : R} {inForce : MlKemLevel} {probs : Probs R}
    (h : asksRekey probs = true) : challenge m inForce probs = none := by
  rw [challenge, asksRekey_iff.1 h, levelAt_rekey]
  rfl

theorem isSome_challenge (m : R) (inForce : MlKemLevel) (probs : Probs R) :
    (challenge m inForce probs).isSome = decide (argmax probs 0 actionCount ≠ rekeyActionIndex ∧
      argmax probs 0 actionCount ≠ wireIndex inForce ∧
      probs (argmax probs 0 actionCount) - probs (wireIndex inForce) ≥ m) := by
  unfold challenge
  cases h : levelAt (argmax probs 0 actionCount) with
  | none =>
      simp [levelAt_eq_none_iff.1 h]
  | some k =>
      rw [levelAt_eq_some_iff.1 h, Option.filter_some, Bool.eq_iff_iff]
      simp [wireIndex_ne_rekey, wireIndex_injective.eq_iff]

theorem challenge_eq_some_iff {m : R} {inForce k : MlKemLevel} {probs : Probs R} :
    challenge m inForce probs = some k ↔ argmax probs 0 actionCount = wireIndex k ∧ k ≠ inForce ∧
      probs (wireIndex k) - probs (wireIndex inForce) ≥ m := by
  rw [challenge, Option.filter_eq_some_iff, levelAt_eq_some_iff]
  simp

theorem confirm_of_asksRekey {p : Params R} {s : State} {probs : Probs R}
    (h : asksRekey probs = true) : confirm p s probs = (none, Streak.fresh) := by
  rw [confirm, challenge_of_asksRekey h, Streak.step_of_none]

/-- The ticks of a session under the rule. -/
def session (p : Params R) : State → List (Probs R) → List (Tick R)
  | _, [] => []
  | s, probs :: ps =>
      { probs, before := s.inForce, decision := decision p s probs } ::
        session p (next p s probs) ps

/-! ### A tick, by what the policy prefers -/

/-- A tick that asks for a rekey, while the cooldown runs. -/
theorem decision_of_suppressed {p : Params R} {s : State} {probs : Probs R}
    (hask : asksRekey probs = true) (hblocked : 0 < s.blocked - 1) :
    decision p s probs = ⟨s.inForce, false, false, reasonRekeySuppressed⟩ ∧
      next p s probs = ⟨s.inForce, Streak.fresh, s.blocked - 1⟩ := by
  have hconfirm := confirm_of_asksRekey (p := p) (s := s) hask
  have hcool : cool p s probs = (false, s.blocked - 1) := by
    simp [cool, Cooldown.step, Nat.ne_of_gt hblocked]
  simp [decision, next, nextInForce, reason, hconfirm, hcool, hask]

/-- A tick that asks for a rekey, with the cooldown over. -/
theorem decision_of_rekey {p : Params R} {s : State} {probs : Probs R}
    (hask : asksRekey probs = true) (hblocked : s.blocked - 1 = 0) :
    ∃ level, level = (if p.rekeyEscalates then max s.inForce (topKem probs) else s.inForce) ∧
      decision p s probs = ⟨level, false, true,
        if s.inForce < level then reasonRekeyEscalated else reasonRekey⟩ ∧
      next p s probs = ⟨level, Streak.fresh, p.rekeyCooldownTicks⟩ := by
  have hconfirm := confirm_of_asksRekey (p := p) (s := s) hask
  have hcool : cool p s probs = (true, p.rekeyCooldownTicks) := by
    simp [cool, Cooldown.step, hask, hblocked]
  refine ⟨_, rfl, ?_⟩
  simp [decision, next, nextInForce, reason, hconfirm, hcool, hask]

/-- A tick that prefers an algorithm but challenges for none. -/
theorem decision_of_no_challenge {p : Params R} {s : State} {probs : Probs R}
    (hask : asksRekey probs = false)
    (hnone : challenge p.minMargin s.inForce probs = none) :
    decision p s probs = ⟨s.inForce, false, false,
        if argmax probs 0 actionCount = wireIndex s.inForce then reasonAgrees
        else reasonLowMargin⟩ ∧
      next p s probs = ⟨s.inForce, Streak.fresh, s.blocked - 1⟩ := by
  have hconfirm : confirm p s probs = (none, Streak.fresh) := by
    rw [confirm, hnone, Streak.step_of_none]
  have hcool := cool_of_not_asksRekey (p := p) (s := s) hask
  simp [decision, next, nextInForce, reason, hconfirm, hcool, hask, hnone]

/-- A tick that completes the streak of its challenger. -/
theorem decision_of_confirmed {p : Params R} {s : State} {probs : Probs R}
    {k : MlKemLevel} (hsome : challenge p.minMargin s.inForce probs = some k)
    (hcount : p.confirmTicks ≤ (s.streak.feed (some k)).count) :
    decision p s probs = ⟨k, true, false, reasonConfirmed⟩ ∧
      next p s probs = ⟨k, Streak.fresh, s.blocked - 1⟩ := by
  have hconfirm : confirm p s probs = (some k, Streak.fresh) := by
    rw [confirm, hsome, Streak.step_of_fires hcount]
  rcases challenge_eq_some_iff.1 hsome with ⟨htop, hne, _⟩
  have hask : asksRekey probs = false := by
    simp [asksRekey, htop, wireIndex_ne_rekey]
  have hcool := cool_of_not_asksRekey (p := p) (s := s) hask
  simp [decision, next, nextInForce, reason, hconfirm, hcool, hask, hsome,
    htop, wireIndex_injective.eq_iff, hne]

/-- A tick that only prolongs the streak of its challenger. -/
theorem decision_of_on_streak {p : Params R} {s : State} {probs : Probs R}
    {k : MlKemLevel} (hsome : challenge p.minMargin s.inForce probs = some k)
    (hcount : (s.streak.feed (some k)).count < p.confirmTicks) :
    decision p s probs = ⟨s.inForce, false, false, reasonOnStreak⟩ ∧
      next p s probs = ⟨s.inForce, s.streak.feed (some k), s.blocked - 1⟩ := by
  have hconfirm : confirm p s probs = (none, s.streak.feed (some k)) := by
    rw [confirm, hsome, Streak.step_of_waits hcount]
  rcases challenge_eq_some_iff.1 hsome with ⟨htop, hne, _⟩
  have hask : asksRekey probs = false := by
    simp [asksRekey, htop, wireIndex_ne_rekey]
  have hcool := cool_of_not_asksRekey (p := p) (s := s) hask
  simp [decision, next, nextInForce, reason, hconfirm, hcool, hask, hsome,
    htop, wireIndex_injective.eq_iff, hne]

end Rule

end Gate
end PqcVpn
