import PqcVpn.Basic.Bytes
import PqcVpn.Crypto.Algorithm
import Mathlib.Order.Defs.LinearOrder
import Mathlib.Data.List.FinRange

/-!
# Model — the decision gate of `core/src/rl/gate.rs`

`DecisionGate::update` turns the policy's four probabilities of a tick into what the client does.
The probabilities are numbers of an ordered type with a subtraction, in place of `f32`; an update
that would reach `unreachable!` or overflow a `u32` counter returns `none`.
-/

namespace PqcVpn
namespace Gate

open Crypto (MlKemLevel)

def actionCount : Nat := 4

/-- Output index of `rekey-now`. -/
def rekeyActionIndex : Fin 4 := 3


/-! ## Reasons -/

def reasonAgrees : String := "policy agrees with in-force"
def reasonLowMargin : String := "challenger margin below the minimum"
def reasonOnStreak : String := "challenger on streak, not yet confirmed"
def reasonConfirmed : String := "challenger confirmed for the full streak"
def reasonRekey : String := "rekey requested and cooldown clear"
def reasonRekeyEscalated : String := "rekey requested; escalating to the policy's top-ranked KEM"
def reasonRekeySuppressed : String := "rekey suppressed, cooldown still running"

/-! ## Actions -/

/-- One of the policy's four outputs. -/
inductive PolicyAction
  | kem (level : MlKemLevel)
  | rekeyNow
  deriving DecidableEq

namespace PolicyAction

/-- The action of a policy output index; KEM indices are the wire codes. -/
def fromIndex (index : Nat) : Option PolicyAction :=
  if index = rekeyActionIndex then
    some rekeyNow
  else if index < 256 then
    (MlKemLevel.fromWireCode (UInt8.ofNat index)).map kem
  else
    none

end PolicyAction

/-- `level.wire_code() as usize`, an index into the probabilities. -/
def wireIndex (level : MlKemLevel) : Fin 4 :=
  ⟨level.wireCode.toNat, by cases level <;> decide⟩

/-- The level at a KEM index; `none` is the `unreachable!`. -/
def levelAt (index : Fin 4) : Option MlKemLevel :=
  match PolicyAction.fromIndex index with
  | some (.kem level) => some level
  | _ => none

/-! ## Probabilities -/

/-- `[f32; ACTION_COUNT]` over a number type. -/
abbrev Probs (R : Type) : Type := Fin 4 → R

/-- The indices `start..stop`. -/
def indexRange (start : Fin 4) (stop : Nat) : List (Fin 4) :=
  (List.finRange 4).filter fun i => start ≤ i ∧ i.val < stop

/-- Index of the largest probability in `start..stop`; the first one wins a tie. -/
def argmax {R : Type} [LinearOrder R] (probs : Probs R) (start : Fin 4) (stop : Nat) : Fin 4 :=
  (indexRange start stop).foldl (fun best i => if probs i > probs best then i else best) start

/-! ## The gate -/

/-- What the client should do this tick. -/
structure Decision where
  inForce : MlKemLevel
  changeAlgorithm : Bool
  rekey : Bool
  reason : String
  deriving DecidableEq

structure DecisionGate (R : Type) where
  inForce : MlKemLevel
  confirmTicks : UInt32
  minMargin : R
  rekeyCooldownTicks : UInt32
  rekeyEscalates : Bool
  candidate : Option (Fin 4)
  streak : UInt32
  rekeyBlockedFor : UInt32

/-- `u32::saturating_sub(1)`. -/
def saturatingPred (n : UInt32) : UInt32 :=
  if n = 0 then 0 else n - 1

/-- `n + 1`, where `none` is the overflow. -/
def checkedSucc (n : UInt32) : Option UInt32 :=
  if n.toNat + 1 < UInt32.size then some (n + 1) else none

namespace DecisionGate

variable {R : Type} [LinearOrder R] [Sub R]

/-- A fresh gate with explicit constants. -/
def withParams (inForce : MlKemLevel) (confirmTicks : UInt32) (minMargin : R)
    (rekeyCooldownTicks : UInt32) (rekeyEscalates : Bool) : DecisionGate R where
  inForce := inForce
  confirmTicks := confirmTicks
  minMargin := minMargin
  rekeyCooldownTicks := rekeyCooldownTicks
  rekeyEscalates := rekeyEscalates
  candidate := none
  streak := 0
  rekeyBlockedFor := 0

def decision (g : DecisionGate R) (changeAlgorithm rekey : Bool) (reason : String) : Decision where
  inForce := g.inForce
  changeAlgorithm := changeAlgorithm
  rekey := rekey
  reason := reason

/-- A genuine algorithm challenger that clears the margin. -/
def extendsStreak (g : DecisionGate R) (probs : Probs R) (top : Fin 4) : Bool :=
  top ≠ rekeyActionIndex ∧ top ≠ wireIndex g.inForce ∧
    probs top - probs (wireIndex g.inForce) ≥ g.minMargin

/-- Extend the confirm-streak, start it anew for another challenger, or clear it. -/
def countStreak (g : DecisionGate R) (extending : Bool) (top : Fin 4) : Option (DecisionGate R) :=
  if !extending then
    some { g with candidate := none, streak := 0 }
  else if g.candidate = some top then do
    let streak ← checkedSucc g.streak
    return { g with streak }
  else
    some { g with candidate := some top, streak := 1 }

/-- The branch of a tick that asks for a rekey. -/
def updateRekey (g : DecisionGate R) (probs : Probs R) : Option (Decision × DecisionGate R) := do
  if g.rekeyBlockedFor > 0 then
    return (g.decision false false reasonRekeySuppressed, g)
  -- the cooldown starts with the request, whatever becomes of it
  let g := { g with rekeyBlockedFor := g.rekeyCooldownTicks }
  if g.rekeyEscalates then
    let bestKem ← levelAt (argmax probs 0 rekeyActionIndex)
    if bestKem > g.inForce then
      let g := { g with inForce := bestKem }
      return (g.decision false true reasonRekeyEscalated, g)
  return (g.decision false true reasonRekey, g)

/-- The branch of a tick that prefers an algorithm. -/
def updateAlgorithm (g : DecisionGate R) (extending : Bool) (top : Fin 4) :
    Option (Decision × DecisionGate R) := do
  -- the reasons are told apart after the streak was counted
  if top = wireIndex g.inForce then
    return (g.decision false false reasonAgrees, g)
  if !extending then
    return (g.decision false false reasonLowMargin, g)
  if g.streak ≥ g.confirmTicks then
    let level ← levelAt top
    let g := { g with inForce := level, candidate := none, streak := 0 }
    return (g.decision true false reasonConfirmed, g)
  return (g.decision false false reasonOnStreak, g)

/-- Feed one tick of policy output. -/
def update (g : DecisionGate R) (probs : Probs R) : Option (Decision × DecisionGate R) := do
  -- the cooldown runs on every tick
  let g := { g with rekeyBlockedFor := saturatingPred g.rekeyBlockedFor }
  let top := argmax probs 0 actionCount
  let extending := g.extendsStreak probs top
  -- a tick that asks for a rekey clears the streak
  let g ← g.countStreak extending top
  if top = rekeyActionIndex then
    g.updateRekey probs
  else
    g.updateAlgorithm extending top

end DecisionGate

/-! ## Sessions -/

/-- One tick of a session: the policy's output, the algorithm in force before it, the decision. -/
structure Tick (R : Type) where
  probs : Probs R
  before : MlKemLevel
  decision : Decision

/-- The ticks of a session, one update after another. -/
def DecisionGate.session {R : Type} [LinearOrder R] [Sub R] :
    DecisionGate R → List (Probs R) → Option (List (Tick R))
  | _, [] => some []
  | g, probs :: ps => do
      let (decision, g') ← g.update probs
      let ticks ← g'.session ps
      return { probs, before := g.inForce, decision } :: ticks

end Gate
end PqcVpn
