import Mathlib.Data.Rat.Cast.OfScientific
import Mathlib.Order.Defs.LinearOrder
import PqcVpn.Basic.Bytes

/-!
# Pipeline — the state vector of `core/src/state/mod.rs`

`StatePipeline` turns the raw readings of a device into the seven numbers the policy consumes, and
owns the rekey timer.  Numbers are those of an ordered field, in place of `f32` and `f64`.
-/

namespace PqcVpn
namespace State

def stateDim : Nat := 7

/-- An element of the state vector. -/
abbrev StateIndex : Type := Fin stateDim

/-- The numerals the indices are built from. -/
instance neZero_stateDim : NeZero stateDim := ⟨by decide⟩

def cpuLoad : StateIndex := 0
def ramAvail : StateIndex := 1
def latency : StateIndex := 2
def upload : StateIndex := 3
def connType : StateIndex := 4
def timeSinceRekey : StateIndex := 5
def threat : StateIndex := 6

abbrev StateVector (R : Type) : Type := StateIndex → R

variable {R : Type} [Field R] [LinearOrder R]

/-! ## Raw readings -/

/-- The active link, as well as it can be told. -/
inductive ConnectionType
  | wired
  | wifiOrUnknown
  | cellular
  deriving DecidableEq, Repr

def ConnectionType.score : ConnectionType → R
  | wired => 0
  | wifiOrUnknown => 0.5
  | cellular => 1

/-- What the methods of a `DeviceState` answer; no latency when the target was unreachable. -/
structure DeviceState (R : Type) where
  cpuLoad : R
  ramAvailableFraction : R
  latency : Option Duration
  uploadRateBytesPerSec : R
  connectionType : ConnectionType

/-! ## Normalization -/

/-- `f32::clamp`. -/
def clamp (x lo hi : R) : R := if x < lo then lo else if x > hi then hi else x

/-- `Duration::as_secs_f64`. -/
def asSecsF64 (d : Duration) : R := (d : R) / 1e9

structure NormalizationCaps (R : Type) where
  latencyCap : Duration
  uploadCapBytesPerSec : R
  rekeyIntervalCap : Duration

/-- The caps of `state_observer.py`. -/
def NormalizationCaps.default : NormalizationCaps R where
  latencyCap := 300 * 1000000
  uploadCapBytesPerSec := 5000000.0
  rekeyIntervalCap := Duration.fromSecs 3600

def normalizeDuration (value cap : Duration) : R :=
  if cap = 0 then 1 else clamp (asSecsF64 value / asSecsF64 cap) 0 1

def normalizeLatency (latency : Option Duration) (cap : Duration) : R :=
  match latency with
  | some rtt => normalizeDuration rtt cap
  | none => 1

def normalizeRate (value cap : R) : R :=
  if cap ≤ 0 then 1 else clamp (max value 0 / cap) 0 1

/-! ## The pipeline -/

/-- `Duration::MAX`: all seconds a `u64` counts, and a nanosecond less than one more. -/
def durationMax : Duration := Duration.fromSecs 18446744073709551615 + 999999999

/-- `Duration::saturating_add`. -/
def saturatingAdd (a b : Duration) : Duration := if a + b ≤ durationMax then a + b else durationMax

/-- The device is what it answers when it is observed, so it is an argument of `observe`. -/
structure StatePipeline (R : Type) where
  caps : NormalizationCaps R
  timeSinceRekey : Duration

namespace StatePipeline

/-- A pipeline as if a rekey just happened. -/
def new : StatePipeline R where
  caps := .default
  timeSinceRekey := 0

def markRekey (p : StatePipeline R) : StatePipeline R := { p with timeSinceRekey := 0 }

def advance (p : StatePipeline R) (elapsed : Duration) : StatePipeline R :=
  { p with timeSinceRekey := saturatingAdd p.timeSinceRekey elapsed }

/-- The vector before the last clamp. -/
def rawVector (p : StatePipeline R) (device : DeviceState R) (threatScore : R) : StateVector R :=
  let vector : StateVector R := fun _ => 0
  let vector := Function.update vector State.cpuLoad device.cpuLoad
  let vector := Function.update vector ramAvail device.ramAvailableFraction
  let vector := Function.update vector State.latency
    (normalizeLatency device.latency p.caps.latencyCap)
  let vector := Function.update vector upload
    (normalizeRate device.uploadRateBytesPerSec p.caps.uploadCapBytesPerSec)
  let vector := Function.update vector connType device.connectionType.score
  let vector := Function.update vector State.timeSinceRekey
    (normalizeDuration p.timeSinceRekey p.caps.rekeyIntervalCap)
  Function.update vector threat threatScore

/-- The normalized state vector. -/
def observe (p : StatePipeline R) (device : DeviceState R) (threatScore : R) : StateVector R :=
  fun i => clamp (p.rawVector device threatScore i) 0 1

end StatePipeline

/-! ## Sessions -/

/-- What the control loop tells the pipeline. -/
inductive Event
  | advance (elapsed : Duration)
  | markRekey

def StatePipeline.step (p : StatePipeline R) : Event → StatePipeline R
  | .advance elapsed => p.advance elapsed
  | .markRekey => p.markRekey

/-- The pipeline after the events of a session. -/
def StatePipeline.after (events : List Event) : StatePipeline R := events.foldl step new

end State
end PqcVpn
