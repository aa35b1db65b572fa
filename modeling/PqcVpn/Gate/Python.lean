import Mathlib.Data.List.MinMax
import Mathlib.Data.Vector.Basic
import Mathlib.Data.Rat.Defs
import Mathlib.Algebra.Order.Ring.Unbundled.Rat
import PqcVpn.Gate.Rule

/-!
# Python — the reference gate of `client/rl_agent/decision_gate.py`

The module the Rust gate was ported from, with the action tables it imports from
`client/vpn_daemon/algo_registry.py`.  Python integers are `Int`, the candidate `-1` is none, and
the order of two KEMs is that of a security table.  An update that would raise returns `none`.
-/

namespace PqcVpn
namespace Gate
namespace Python

/-! ## Action tables -/

structure Algorithm where
  name : String
  active : Bool
  security : Rat

/-- `ALGORITHMS`, by registry key. -/
def algorithms : List (Nat × Algorithm) :=
  [(0, ⟨"ML-KEM-512", true, 70 / 100⟩),
    (1, ⟨"ML-KEM-768", true, 85 / 100⟩),
    (2, ⟨"ML-KEM-1024", true, 100 / 100⟩),
    (3, ⟨"HQC-256", false, 90 / 100⟩),
    (4, ⟨"rekey-now", true, 100 / 100⟩)]

/-- `ACTIVE_ACTIONS`: the algorithms exposed to the agent. -/
def activeActions : List (Nat × Algorithm) := algorithms.filter fun kv => kv.2.active

/-- `ACTION_NAMES`, by action index. -/
def actionNames : List.Vector String 4 := ⟨activeActions.map fun kv => kv.2.name, rfl⟩

/-- `ACTION_SECURITY`, by action index. -/
def actionSecurity : List.Vector Rat 4 := ⟨activeActions.map fun kv => kv.2.security, rfl⟩

/-- `REKEY_ACTION_IDX`. -/
def rekeyActionIdx : Fin 4 := ⟨actionNames.toList.idxOf "rekey-now", by decide⟩

/-- `KEM_ACTIONS`. -/
def kemActions : List (Fin 4) :=
  (List.finRange 4).filter fun i => actionNames.get i ≠ "rekey-now"

/-! ## Reasons -/

def reasonAgrees : String := "policy agrees with in-force"
def reasonLowMargin : String := "challenger margin below the minimum"
def reasonOnStreak : String := "challenger on streak, not yet confirmed"
def reasonConfirmed : String := "challenger confirmed for the full streak"
def reasonRekey : String := "rekey requested and cooldown clear"
def reasonRekeyEscalated : String := "rekey requested; escalating to the policy's top-ranked KEM"
def reasonRekeySuppressed : String := "rekey suppressed, cooldown still running"

/-! ## The gate -/

/-- What the client should do this tick; `inForce` is an action index. -/
structure Decision where
  inForce : Fin 4
  changeAlgorithm : Bool
  rekey : Bool
  reason : String
  deriving DecidableEq

structure DecisionGate (R : Type) where
  inForce : Fin 4
  confirmTicks : Int
  minMargin : R
  rekeyCooldownTicks : Int
  rekeyEscalates : Bool
  candidate : Int
  streak : Int
  rekeyBlockedFor : Int

/-- One tick of a session. -/
structure Tick (R : Type) where
  probs : Probs R
  before : Fin 4
  decision : Decision

namespace DecisionGate

variable {R : Type} [LinearOrder R] [Sub R]

/-- The dataclass constructor. -/
def init (inForce : Fin 4) (confirmTicks : Int) (minMargin : R) (rekeyCooldownTicks : Int)
    (rekeyEscalates : Bool) : DecisionGate R where
  inForce := inForce
  confirmTicks := confirmTicks
  minMargin := minMargin
  rekeyCooldownTicks := rekeyCooldownTicks
  rekeyEscalates := rekeyEscalates
  candidate := -1
  streak := 0
  rekeyBlockedFor := 0

/-- Run the cooldown down. -/
def coolDown (g : DecisionGate R) : DecisionGate R :=
  if g.rekeyBlockedFor > 0 then { g with rekeyBlockedFor := g.rekeyBlockedFor - 1 } else g

def extendsStreak (g : DecisionGate R) (probs : Probs R) (top : Fin 4) : Bool :=
  top ≠ rekeyActionIdx ∧ top ≠ g.inForce ∧ probs top - probs g.inForce ≥ g.minMargin

def countStreak (g : DecisionGate R) (extending : Bool) (top : Fin 4) : DecisionGate R :=
  if !extending then
    { g with candidate := -1, streak := 0 }
  else if (top.val : Int) = g.candidate then
    { g with streak := g.streak + 1 }
  else
    { g with candidate := top.val, streak := 1 }

/-- The branch of a tick that asks for a rekey. -/
def updateRekey (g : DecisionGate R) (probs : Probs R) : Option (Decision × DecisionGate R) := do
  if g.rekeyBlockedFor = 0 then
    let g := { g with rekeyBlockedFor := g.rekeyCooldownTicks }
    if g.rekeyEscalates then
      let bestKem ← List.argmax probs kemActions
      if actionSecurity.get bestKem > actionSecurity.get g.inForce then
        return (⟨bestKem, false, true, reasonRekeyEscalated⟩, { g with inForce := bestKem })
    return (⟨g.inForce, false, true, reasonRekey⟩, g)
  return (⟨g.inForce, false, false, reasonRekeySuppressed⟩, g)

/-- The branch of a tick that prefers an algorithm. -/
def updateAlgorithm (g : DecisionGate R) (extending : Bool) (top : Fin 4) :
    Decision × DecisionGate R :=
  if top = g.inForce then
    (⟨g.inForce, false, false, reasonAgrees⟩, g)
  else if !extending then
    (⟨g.inForce, false, false, reasonLowMargin⟩, g)
  else if g.streak ≥ g.confirmTicks then
    (⟨top, true, false, reasonConfirmed⟩, { g with inForce := top, candidate := -1, streak := 0 })
  else
    (⟨g.inForce, false, false, reasonOnStreak⟩, g)

/-- Feed one tick of policy output. -/
def update (g : DecisionGate R) (probs : Probs R) : Option (Decision × DecisionGate R) := do
  let g := g.coolDown
  let top ← List.argmax probs (List.finRange 4)
  let extending := g.extendsStreak probs top
  let g := g.countStreak extending top
  if top = rekeyActionIdx then
    g.updateRekey probs
  else
    return g.updateAlgorithm extending top

/-- The ticks of a session, one update after another. -/
def session : DecisionGate R → List (Probs R) → Option (List (Tick R))
  | _, [] => some []
  | g, probs :: ps => do
      let (decision, g') ← g.update probs
      let ticks ← g'.session ps
      return { probs, before := g.inForce, decision } :: ticks

end DecisionGate

/-! ## The tables -/

theorem rekeyActionIdx_eq : rekeyActionIdx = rekeyActionIndex := by
  decide

/-- The security table orders the KEMs as their wire codes do. -/
theorem actionSecurity_lt_iff (a b : Crypto.MlKemLevel) :
    actionSecurity.get (wireIndex a) < actionSecurity.get (wireIndex b) ↔ a < b := by
  cases a <;> cases b <;> decide +kernel

/-- `max(range, key=...)` and the Rust loop pick the same index. -/
theorem argmax_cons_eq {R : Type} [LinearOrder R] (probs : Probs R) (start : Fin 4)
    (l : List (Fin 4)) : List.argmax probs (start :: l) =
      some (l.foldl (fun best i => if probs i > probs best then i else best) start) := by
  induction l using List.reverseRecOn with
  | nil =>
      rfl
  | append_singleton l i ih =>
      rw [← List.cons_append, List.argmax_concat, ih, List.foldl_concat]
      split <;> simp_all

theorem argmax_eq {R : Type} [LinearOrder R] (probs : Probs R) {stop : Nat} {l : List (Fin 4)}
    (hrange : indexRange 0 stop = 0 :: l) :
    List.argmax probs (0 :: l) = some (argmax probs 0 stop) := by
  rw [argmax, hrange, argmax_cons_eq, List.foldl_cons, if_neg (lt_irrefl _)]

theorem argmax_all {R : Type} [LinearOrder R] (probs : Probs R) :
    List.argmax probs (List.finRange 4) = some (argmax probs 0 actionCount) :=
  argmax_eq probs (l := [1, 2, 3]) (by decide)

theorem le_argmax {R : Type} [LinearOrder R] (probs : Probs R) (i : Fin 4) :
    probs i ≤ probs (argmax probs 0 actionCount) :=
  List.le_of_mem_argmax (List.mem_finRange i) (argmax_all probs)

theorem argmax_kemActions {R : Type} [LinearOrder R] (probs : Probs R) :
    List.argmax probs kemActions = some (argmax probs 0 rekeyActionIndex) := by
  rw [show kemActions = [0, 1, 2] by decide]
  exact argmax_eq probs (by decide)

end Python
end Gate
end PqcVpn
