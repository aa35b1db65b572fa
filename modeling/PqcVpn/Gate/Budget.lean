import PqcVpn.Gate.Laws
import PqcVpn.Lib.Amortized

/-!
# Budget — how many handshakes the gate can ask for

A change of the algorithm takes `confirm_ticks` ticks that no other change takes, and a rekey keeps
the next one away for `rekey_cooldown_ticks`.  So whatever the policy answers, the handshakes of a
session, and of any stretch of it, are bounded by its length.
-/

namespace PqcVpn
namespace Gate

open Crypto (MlKemLevel)
open Debounce

variable {R : Type} [LinearOrder R] [Sub R]

namespace Rule

/-! ## The rule as a machine -/

def machine (p : Params R) (s : State) (probs : Probs R) : Tick R × State :=
  (tick p s probs, next p s probs)

theorem session_eq_outputs (p : Params R) (s : State) (ps : List (Probs R)) :
    session p s ps = Machine.outputs (machine p) s ps := by
  induction ps generalizing s with
  | nil => rfl
  | cons probs ps ih => exact congrArg _ (ih (next p s probs))

/-! ## Changes -/

/-- The ticks a change is charged with. -/
def changeCost (p : Params R) (t : Tick R) : Nat :=
  if t.decision.changeAlgorithm then p.confirmTicks else 0

omit [LinearOrder R] [Sub R] in
theorem feed_le (s : Streak MlKemLevel) (x : Option MlKemLevel) : (s.feed x).count ≤ s.count + 1 := by
  cases x with
  | none =>
      rw [Streak.feed_none]
      exact Nat.zero_le _
  | some k =>
      rw [Streak.feed_some]
      split
      · exact le_refl _
      · exact Nat.le_add_left 1 _

/-- A streak is paid for by the ticks that counted for it. -/
theorem change_amortized (p : Params R) :
    Machine.Amortized (machine p) (changeCost p) (fun s => s.streak.count) := by
  intro s probs
  have hfeed := feed_le s.streak (challenge p.minMargin s.inForce probs)
  change (if (confirm p s probs).1.isSome then p.confirmTicks else 0) +
    (confirm p s probs).2.count ≤ s.streak.count + 1
  rw [confirm, Streak.step]
  split
  · rename_i hfires
    have hsome : (challenge p.minMargin s.inForce probs).isSome = true :=
      Option.isSome_iff_ne_none.2 hfires.1
    rw [if_pos hsome]
    exact hfires.2.trans hfeed
  · rw [if_neg (by simp), Nat.zero_add]
    exact hfeed

/-- A streak that is not confirmed is short. -/
theorem streak_lt (p : Params R) (hc : 1 ≤ p.confirmTicks) (s : State) (probs : Probs R)
    (_ : s.streak.count ≤ p.confirmTicks - 1) :
    (next p s probs).streak.count ≤ p.confirmTicks - 1 := by
  change (confirm p s probs).2.count ≤ _
  rw [confirm, Streak.step]
  split
  · exact Nat.zero_le _
  · rename_i hwaits
    change (s.streak.feed (challenge p.minMargin s.inForce probs)).count ≤ _
    cases hx : challenge p.minMargin s.inForce probs with
    | none =>
        rw [Streak.feed_none]
        exact Nat.zero_le _
    | some k =>
        rw [hx] at hwaits
        have hlt : ¬ p.confirmTicks ≤ (s.streak.feed (some k)).count := fun h =>
          hwaits ⟨Option.some_ne_none k, h⟩
        omega

/-! ## Rekeys -/

/-- The ticks a rekey is charged with. -/
def rekeyCost (p : Params R) (t : Tick R) : Nat :=
  if t.decision.rekey then p.rekeyCooldownTicks else 0

/-- What the cooldown has run down. -/
def rested (p : Params R) (s : State) : Nat := p.rekeyCooldownTicks - max s.blocked 1

theorem rekey_amortized (p : Params R) :
    Machine.Amortized (machine p) (rekeyCost p) (rested p) := by
  intro s probs
  change (if (cool p s probs).1 then p.rekeyCooldownTicks else 0) +
    (p.rekeyCooldownTicks - max (cool p s probs).2 1) ≤ p.rekeyCooldownTicks - max s.blocked 1 + 1
  rw [cool, Cooldown.step]
  split
  · rename_i hfires
    rw [if_pos rfl]
    have hblocked := hfires.2
    omega
  · rw [if_neg Bool.false_ne_true]
    omega

end Rule

/-! ## A session -/

/-- The ticks of a stretch of a session. -/
def stretch (ticks : List (Tick R)) (start length : Nat) : List (Tick R) :=
  (ticks.drop start).take length

/-- Both gates, whatever the policy answers: every change of a session takes its own
`confirm_ticks` ticks, and over any stretch there is no more than one change for every
`confirm_ticks` ticks begun and one rekey for every `rekey_cooldown_ticks`. -/
theorem handshake_budget (start : MlKemLevel) (p : Rule.Params R) (hc : 1 ≤ p.confirmTicks)
    (ps : List (Probs R)) :
    ∃ ticks, Produces start p ps ticks ∧
      p.confirmTicks * ticks.countP (fun t => t.decision.changeAlgorithm) ≤ ps.length ∧
      ∀ i w, p.confirmTicks * (stretch ticks i w).countP (fun t => t.decision.changeAlgorithm) ≤
          w + (p.confirmTicks - 1) ∧
        p.rekeyCooldownTicks * (stretch ticks i w).countP (fun t => t.decision.rekey) ≤
          w + (p.rekeyCooldownTicks - 1) := by
  refine ⟨_, produces_session start p ps, ?_, ?_⟩
  · have htotal := (Rule.change_amortized p).total (Rule.fresh start) ps
    rw [← Rule.session_eq_outputs] at htotal
    unfold Rule.changeCost at htotal
    rw [Machine.sum_map_ite] at htotal
    have hfresh : (Rule.fresh start).streak.count = 0 := rfl
    omega
  · intro i w
    rw [stretch, Rule.session_eq_outputs]
    constructor
    · have hwindow := (Rule.change_amortized p).window (s := Rule.fresh start)
        (I := fun s => s.streak.count ≤ p.confirmTicks - 1) (Nat.zero_le _)
        (fun s probs h => Rule.streak_lt p hc s probs h) (fun _ h => h) ps i w
      unfold Rule.changeCost at hwindow
      rw [Machine.sum_map_ite] at hwindow
      exact hwindow
    · have hwindow := (Rule.rekey_amortized p).window (s := Rule.fresh start)
        (I := fun _ => True) trivial (fun _ _ _ => trivial)
        (c := p.rekeyCooldownTicks - 1)
        (fun s _ => by unfold Rule.rested; omega) ps i w
      unfold Rule.rekeyCost at hwindow
      rw [Machine.sum_map_ite] at hwindow
      exact hwindow

/-- A policy that always asks for a rekey. -/
theorem handshake_budget_of_rekeys :
    ∃ ticks, Produces .mlKem512 (⟨3, 15, 12, true⟩ : Rule.Params Int)
        (List.replicate 30 ![0, 0, 0, 100]) ticks ∧
      12 * (stretch ticks 5 20).countP (fun t => t.decision.rekey) ≤ 31 := by
  rcases handshake_budget .mlKem512 (⟨3, 15, 12, true⟩ : Rule.Params Int) (by decide)
    (List.replicate 30 ![0, 0, 0, 100]) with ⟨ticks, hprod, _, hwindow⟩
  exact ⟨ticks, hprod, (hwindow 5 20).2⟩

end Gate
end PqcVpn
