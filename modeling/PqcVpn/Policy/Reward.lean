import PqcVpn.Anomaly.Baseline
import PqcVpn.Gate.Python
import PqcVpn.State.Pipeline

/-!
# Reward — what the policy is trained towards

The reward of `client/rl_agent/vpn_env.py`, in its two implementations: `action_reward` over one
state and `action_rewards_batch` over the columns of a batch.  Actions are the indices of the
registry's active entries; numbers are those of an ordered field, in place of floats.
-/

namespace PqcVpn
namespace Policy

open Anomaly (clip)
open Gate (argmax actionCount)
open State

/-! ## Action tables -/

/-- The `cpu_cost` column of `ALGORITHMS`, by registry key. -/
def cpuCosts : List (Nat × Rat) := [(0, 0.5), (1, 1.0), (2, 2.0), (3, 1.5), (4, 3.0)]

/-- `ACTIVE_ACTIONS[ACTION_TO_ALGO_KEY[i]]`, by action index. -/
def actions : List.Vector (Nat × Gate.Python.Algorithm) 4 := ⟨Gate.Python.activeActions, rfl⟩

def actionName (a : Fin 4) : String := (actions.get a).2.name

def actionSecurity (a : Fin 4) : Rat := (actions.get a).2.security

def actionCost (a : Fin 4) : Rat := (cpuCosts.lookup (actions.get a).1).getD 0

/-- `MAX_CPU_COST`. -/
def maxCpuCost : Rat := (((List.finRange 4).map actionCost).max?).getD 0

variable {R : Type} [Field R] [LinearOrder R]

/-! ## One state -/

def actionReward (state : StateVector R) (a : Fin 4) : R :=
  let securityNeed := clip
    (0.4 * state threat + 0.3 * state connType + 0.3 * state timeSinceRekey) 0 1
  let resourcePressure := clip (0.5 * state cpuLoad + 0.5 * (1 - state ramAvail)) 0 1
  if actionName a = "rekey-now" then
    let urgency := 0.5 * state threat + 0.5 * state timeSinceRekey
    urgency - 0.5 * (1 - urgency) - 0.3
  else
    let shortfall := max 0 (securityNeed - (actionSecurity a : R))
    let costPenalty := ((actionCost a / maxCpuCost : Rat) : R) * resourcePressure
    1.0 - 3.0 * shortfall - costPenalty

def actionRewards (state : StateVector R) : Fin 4 → R := actionReward state

/-- The first action of the largest reward. -/
def optimalAction (state : StateVector R) : Fin 4 := argmax (actionRewards state) 0 actionCount

/-! ## A batch of states -/

def securityNeedBatch (states : List (StateVector R)) : List R :=
  states.map fun s => clip (0.4 * s threat + 0.3 * s connType + 0.3 * s timeSinceRekey) 0 1

def resourcePressureBatch (states : List (StateVector R)) : List R :=
  states.map fun s => clip (0.5 * s cpuLoad + 0.5 * (1 - s ramAvail)) 0 1

/-- The rewards of one action, a column of the batch. -/
def rewardColumn (states : List (StateVector R)) (need pressure : List R) (a : Fin 4) : List R :=
  if actionName a = "rekey-now" then
    let urgency := states.map fun s => 0.5 * s threat + 0.5 * s timeSinceRekey
    urgency.map fun u => u - 0.5 * (1 - u) - 0.3
  else
    let shortfall := need.map fun n => max 0 (n - (actionSecurity a : R))
    let costPenalty := pressure.map fun p => ((actionCost a / maxCpuCost : Rat) : R) * p
    List.zipWith (fun short cost => 1.0 - 3.0 * short - cost) shortfall costPenalty

/-- `np.stack(columns, axis=1)`: row `i` holds entry `i` of each column. -/
def stackColumns (rows : Nat) (columns : Fin 4 → List R) : List (Fin 4 → R) :=
  (List.range rows).map fun i a => (columns a).getD i 0

def actionRewardsBatch (states : List (StateVector R)) : List (Fin 4 → R) :=
  let need := securityNeedBatch states
  let pressure := resourcePressureBatch states
  stackColumns states.length (rewardColumn states need pressure)

def optimalActionBatch (states : List (StateVector R)) : List (Fin 4) :=
  (actionRewardsBatch states).map fun rewards => argmax rewards 0 actionCount

end Policy
end PqcVpn
