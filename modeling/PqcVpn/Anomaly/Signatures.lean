import PqcVpn.Anomaly.Baseline

/-!
# Signatures — Layer 2 of the anomaly detector

The five rule-based detectors of `anomaly_detector.py`, each a fixed rule for one attack pattern.
A streak counts the ticks in a row that crossed a line; it is never a reading's score.
-/

namespace PqcVpn
namespace Anomaly

variable {R : Type} [Field R] [LinearOrder R]

/-- `_ratio_score`: 0 at zero, 1 from `ceiling` times the threshold on. -/
def ratioScore (value threshold ceiling : R) : R :=
  if threshold ≤ 0 then 0 else clip (value / (threshold * ceiling)) 0 1

/-- The default ceiling of `_ratio_score`. -/
def ratioCeiling : R := 2

/-- A streak after one more tick. -/
def extendStreak (streak : Nat) (crossed : Bool) : Nat := if crossed then streak + 1 else 0

/-! ## Port scan -/

def portScanDistinctPorts : Int := 15
def portScanFailureRatio : R := 0.7

structure PortScanInput where
  distinctPorts : Int
  connectionAttempts : Int
  failedAttempts : Int

structure PortScanDetail (R : Type) where
  distinctPorts : Int
  failureRatio : R

/-- Many distinct ports in one tick, most of which never complete. -/
structure PortScanSignature where

namespace PortScanSignature

def new : PortScanSignature := {}

def update (d : PortScanSignature) (input : PortScanInput) :
    Reading R (PortScanDetail R) × PortScanSignature :=
  let failureRatio : R :=
    if input.connectionAttempts ≠ 0 then
      (input.failedAttempts : R) / (input.connectionAttempts : R)
    else
      0
  let portScore := ratioScore (input.distinctPorts : R) (portScanDistinctPorts : R) ratioCeiling
  let failureScore := ratioScore failureRatio portScanFailureRatio ratioCeiling
  ({ anomalous :=
       decide (input.distinctPorts ≥ portScanDistinctPorts ∧ failureRatio ≥ portScanFailureRatio)
     threatScore := min portScore failureScore
     ready := true
     detail := { distinctPorts := input.distinctPorts, failureRatio := failureRatio } }, d)

end PortScanSignature

/-! ## Retransmissions -/

def retransRateThreshold : R := 0.10
def retransConsecutiveTicks : Nat := 2

structure RetransmissionDetail (R : Type) where
  retransmitRate : R
  streak : Nat

/-- Sustained elevated TCP retransmission rate. -/
structure RetransmissionSpikeSignature where
  consecutiveTicks : Nat
  streak : Nat

namespace RetransmissionSpikeSignature

def new (consecutiveTicks : Nat) : RetransmissionSpikeSignature :=
  { consecutiveTicks := consecutiveTicks
    streak := 0 }

def update (d : RetransmissionSpikeSignature) (retransmitRate : R) :
    Reading R (RetransmissionDetail R) × RetransmissionSpikeSignature :=
  let streak := extendStreak d.streak (decide (retransmitRate ≥ retransRateThreshold))
  ({ anomalous := decide (streak ≥ d.consecutiveTicks)
     threatScore := ratioScore retransmitRate retransRateThreshold ratioCeiling
     ready := true
     detail := { retransmitRate := retransmitRate, streak := streak } },
    { d with streak := streak })

end RetransmissionSpikeSignature

/-! ## Latency jitter -/

def mitmJitterMsThreshold : R := 80
def mitmWindowTicks : Nat := 3
def mitmConsecutiveTicks : Nat := 2

structure MitMDetail (R : Type) where
  jitterMs : R
  streak : Nat

/-- Jitter over a short window of raw latencies.  Over an empty window the largest latency would not
exist and `max` would raise, so the window is positive. -/
structure MitMLatencySignature (R : Type) where
  windowTicks : Nat
  consecutiveTicks : Nat
  history : Deque R
  streak : Nat
  windowTicks_pos : 0 < windowTicks

namespace MitMLatencySignature

def new (windowTicks consecutiveTicks : Nat) (hpos : 0 < windowTicks) : MitMLatencySignature R where
  windowTicks := windowTicks
  consecutiveTicks := consecutiveTicks
  history := .empty windowTicks
  streak := 0
  windowTicks_pos := hpos

/-- `max(history) - min(history)` once the window is full. -/
def jitter (d : MitMLatencySignature R) (history : List R) : R :=
  if h : history.length ≥ d.windowTicks then
    have hne : history ≠ [] := List.ne_nil_of_length_pos (d.windowTicks_pos.trans_le h)
    history.max hne - history.min hne
  else
    0

def update (d : MitMLatencySignature R) (latencyMs : R) :
    Reading R (MitMDetail R) × MitMLatencySignature R :=
  let history := d.history.append latencyMs
  let ready := decide (history.items.length ≥ d.windowTicks)
  let jitter := d.jitter history.items
  let streak := extendStreak d.streak (ready && decide (jitter ≥ mitmJitterMsThreshold))
  ({ anomalous := decide (streak ≥ d.consecutiveTicks)
     threatScore := ratioScore jitter mitmJitterMsThreshold ratioCeiling
     ready := ready
     detail := { jitterMs := jitter, streak := streak } },
    { d with
      history := history
      streak := streak })

end MitMLatencySignature

/-! ## Exfiltration -/

def exfilUploadBpsThreshold : R := 2000000
def exfilUploadDownloadRatio : R := 3
def exfilConsecutiveTicks : Nat := 2

structure ExfiltrationInput (R : Type) where
  uploadBytesPerSec : R
  downloadBytesPerSec : R

structure ExfiltrationDetail (R : Type) where
  uploadBps : R
  ratio : R
  streak : Nat

/-- Far more bytes up than down. -/
structure BandwidthExfiltrationSignature where
  consecutiveTicks : Nat
  streak : Nat

namespace BandwidthExfiltrationSignature

def new (consecutiveTicks : Nat) : BandwidthExfiltrationSignature :=
  { consecutiveTicks := consecutiveTicks
    streak := 0 }

def update (d : BandwidthExfiltrationSignature) (input : ExfiltrationInput R) :
    Reading R (ExfiltrationDetail R) × BandwidthExfiltrationSignature :=
  let ratio := input.uploadBytesPerSec / max input.downloadBytesPerSec 1
  let clearsLine := decide (input.uploadBytesPerSec ≥ exfilUploadBpsThreshold ∧
    ratio ≥ exfilUploadDownloadRatio)
  let streak := extendStreak d.streak clearsLine
  ({ anomalous := decide (streak ≥ d.consecutiveTicks)
     threatScore := min
       (ratioScore input.uploadBytesPerSec exfilUploadBpsThreshold ratioCeiling)
       (ratioScore ratio exfilUploadDownloadRatio ratioCeiling)
     ready := true
     detail := { uploadBps := input.uploadBytesPerSec, ratio := ratio, streak := streak } },
    { d with streak := streak })

end BandwidthExfiltrationSignature

/-! ## DNS server change -/

structure DNSChangeDetail where
  previous : Option String
  current : String

/-- Edge-triggered: the DNS server differs from the one of the last observation. -/
structure DNSServerChangeSignature where
  last : Option String

namespace DNSServerChangeSignature

def new (expected : Option String) : DNSServerChangeSignature := { last := expected }

def update (d : DNSServerChangeSignature) (dnsServer : String) :
    Reading R DNSChangeDetail × DNSServerChangeSignature :=
  -- the first observation only seeds the baseline
  let ready := d.last.isSome
  let anomalous := ready && decide (some dnsServer ≠ d.last)
  ({ anomalous := anomalous
     threatScore := if anomalous then 1 else 0
     ready := ready
     detail := { previous := d.last, current := dnsServer } },
    { last := some dnsServer })

end DNSServerChangeSignature

end Anomaly
end PqcVpn
