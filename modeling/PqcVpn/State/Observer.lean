import Mathlib.Data.Fin.VecNotation
import Mathlib.Tactic.FinCases
import Mathlib.Tactic.Linarith
import Mathlib.Tactic.NormNum
import PqcVpn.Anomaly.Baseline
import PqcVpn.State.Pipeline

/-!
# Observer — the state vector of `client/rl_agent/state_observer.py`

`StateObserver` is the module the Rust pipeline was written after.  It caps each reading at one and
clips the whole vector at the end, and it keeps the time of the last rekey where the pipeline keeps
the time since.  On the same readings and the same history both build the same vector.
-/

namespace PqcVpn
namespace State

open Anomaly (clip clip_nonneg clip_le_one clip_of_mem clip_clip clip_min_one)

variable {R : Type} [Field R] [LinearOrder R]

/-! ## The observer -/

def latencyCapMs : R := 300.0
def uploadCapBytesPerSec : R := 5000000.0
def rekeyIntervalCapSec : R := 3600.0

/-- The keys of `CONNECTION_TYPE_SCORE`. -/
inductive LinkClass
  | wired
  | wifi
  | cellular
  | unknown
  deriving DecidableEq, Repr

/-- `CONNECTION_TYPE_SCORE`. -/
def LinkClass.score : LinkClass → R
  | wired => 0.0
  | wifi => 0.5
  | cellular => 1.0
  | unknown => 0.5

/-- What `psutil` and the ping answer during one `read_state`; a ping that failed took no time. -/
structure Sources (R : Type) where
  cpuPercent : R
  ramAvailable : R
  ramTotal : R
  elapsedMs : Option R
  bytesSent : R
  link : LinkClass

/-- The raw readings of a tick. -/
structure Readings (R : Type) where
  cpuLoad : R
  ramAvailable : R
  elapsedMs : Option R
  uploadRate : R
  link : LinkClass

structure StateObserver (R : Type) where
  lastBytesSent : R
  lastSampleTime : R
  lastRekeyTime : R

namespace StateObserver

/-- An observer made at `now`. -/
def new (bytesSent now : R) : StateObserver R where
  lastBytesSent := bytesSent
  lastSampleTime := now
  lastRekeyTime := now

def markRekey (o : StateObserver R) (now : R) : StateObserver R := { o with lastRekeyTime := now }

/-- The rate `_upload_volume` takes from the counter. -/
def uploadRate (o : StateObserver R) (now bytesSent : R) : R :=
  max (bytesSent - o.lastBytesSent) 0 / max (now - o.lastSampleTime) 1e-6

def readings (o : StateObserver R) (now : R) (s : Sources R) : Readings R where
  cpuLoad := s.cpuPercent / 100.0
  ramAvailable := s.ramAvailable / s.ramTotal
  elapsedMs := s.elapsedMs
  uploadRate := o.uploadRate now s.bytesSent
  link := s.link

/-- `_latency`. -/
def latency (elapsedMs : Option R) : R :=
  match elapsedMs with
  | some ms => min (ms / latencyCapMs) 1
  | none => 1

/-- `_upload_volume`. -/
def uploadVolume (rate : R) : R := min (rate / uploadCapBytesPerSec) 1

/-- `_time_since_rekey`. -/
def timeSinceRekey (o : StateObserver R) (now : R) : R :=
  min ((now - o.lastRekeyTime) / rekeyIntervalCapSec) 1

/-- The vector `read_state` builds from its readings. -/
def vector (o : StateObserver R) (now : R) (r : Readings R) (threatScore : R) : StateVector R :=
  let vector : StateVector R :=
    ![r.cpuLoad, r.ramAvailable, latency r.elapsedMs, uploadVolume r.uploadRate, r.link.score,
      o.timeSinceRekey now, clip threatScore 0 1]
  fun i => clip (vector i) 0 1

/-- `read_state`; the sample it took is the one the next rate is measured from. -/
def readState (o : StateObserver R) (now : R) (s : Sources R) (threatScore : R) :
    StateVector R × StateObserver R :=
  (o.vector now (o.readings now s) threatScore,
    { o with lastBytesSent := s.bytesSent, lastSampleTime := now })

end StateObserver

/-! ## One reading for both -/

/-- Rust folds two of the classes into one. -/
def LinkClass.connectionType : LinkClass → ConnectionType
  | wired => .wired
  | wifi => .wifiOrUnknown
  | cellular => .cellular
  | unknown => .wifiOrUnknown

/-- What there is to be read in a tick, whoever reads it. -/
structure RawReading (R : Type) where
  cpuFraction : R
  ramFraction : R
  latency : Option Duration
  uploadRate : R
  link : LinkClass

namespace RawReading

def device (raw : RawReading R) : DeviceState R where
  cpuLoad := raw.cpuFraction
  ramAvailableFraction := raw.ramFraction
  latency := raw.latency
  uploadRateBytesPerSec := raw.uploadRate
  connectionType := raw.link.connectionType

def readings (raw : RawReading R) : Readings R where
  cpuLoad := raw.cpuFraction
  ramAvailable := raw.ramFraction
  elapsedMs := raw.latency.map fun (d : Duration) => (d : R) / 1e6
  uploadRate := raw.uploadRate
  link := raw.link

end RawReading

/-! ## Normalization -/

section Normalization

variable [IsStrictOrderedRing R]

omit [Field R] [IsStrictOrderedRing R] in
theorem clamp_eq_clip {x lo hi : R} (h : lo ≤ hi) : clamp x lo hi = clip x lo hi := by
  unfold clamp clip
  split
  · rename_i hlt
    rw [max_eq_right hlt.le, min_eq_left h]
  · rename_i hle
    rw [max_eq_left (not_lt.1 hle)]
    split
    · rename_i hgt
      exact (min_eq_right (le_of_lt hgt)).symm
    · rename_i hle'
      exact (min_eq_left (not_lt.1 hle')).symm

/-- Dropping a negative rate to zero first changes nothing. -/
theorem clip_max_zero_div {x cap : R} (hcap : 0 < cap) :
    clip (max x 0 / cap) 0 1 = clip (x / cap) 0 1 := by
  unfold clip
  rcases le_total x 0 with h | h
  · rw [max_eq_right h, zero_div, max_self, max_eq_right (div_nonpos_of_nonpos_of_nonneg h hcap.le)]
  · rw [max_eq_left h]

theorem normalizeDuration_of_pos {value cap : Duration} (hcap : 0 < cap) :
    (normalizeDuration value cap : R) = clip (asSecsF64 value / asSecsF64 cap) 0 1 := by
  rw [normalizeDuration, if_neg hcap.ne', clamp_eq_clip zero_le_one]

/-- Milliseconds over 300 and seconds over 0.3 are the same number. -/
theorem clip_normalizeLatency (latency : Option Duration) :
    clip (normalizeLatency latency (NormalizationCaps.default (R := R)).latencyCap : R) 0 1 =
      clip (StateObserver.latency (latency.map fun (d : Duration) => (d : R) / 1e6)) 0 1 := by
  cases latency with
  | none =>
      rfl
  | some rtt =>
      have hcap : 0 < (NormalizationCaps.default (R := R)).latencyCap :=
        show 0 < 300 * 1000000 by decide
      have hratio :
          (asSecsF64 rtt / asSecsF64 (NormalizationCaps.default (R := R)).latencyCap : R) =
            (rtt : R) / 1e6 / latencyCapMs := by
        simp only [asSecsF64, NormalizationCaps.default, latencyCapMs]
        push_cast
        norm_num
        ring
      rw [normalizeLatency, normalizeDuration_of_pos hcap, clip_clip, hratio, Option.map_some,
        StateObserver.latency, clip_min_one]

theorem clip_normalizeRate (rate : R) :
    clip (normalizeRate rate NormalizationCaps.default.uploadCapBytesPerSec) 0 1 =
      clip (StateObserver.uploadVolume rate) 0 1 := by
  have hcap : (0 : R) < NormalizationCaps.default.uploadCapBytesPerSec := by
    norm_num [NormalizationCaps.default]
  rw [normalizeRate, if_neg (not_le.2 hcap), clamp_eq_clip zero_le_one, clip_clip,
    clip_max_zero_div hcap, StateObserver.uploadVolume, clip_min_one]
  rfl

theorem score_connectionType (link : LinkClass) :
    (link.connectionType.score : R) = link.score := by
  cases link <;> simp [LinkClass.connectionType, ConnectionType.score, LinkClass.score] <;> norm_num

end Normalization

/-! ## The rekey timer -/

/-- The time since the last rekey, without a bound. -/
def elapsedSinceRekey (events : List Event) : Duration :=
  events.foldl (fun elapsed e =>
    match e with
    | .advance d => elapsed + d
    | .markRekey => 0) 0

theorem saturatingAdd_min (a d : Duration) :
    saturatingAdd (min a durationMax) d = min (a + d) durationMax := by
  have hnat (a d m : Nat) : (if min a m + d ≤ m then min a m + d else m) = min (a + d) m := by
    split <;> omega
  exact hnat a d durationMax

omit [LinearOrder R] in
/-- The timer saturates at the largest duration. -/
theorem timeSinceRekey_after (events : List Event) :
    (StatePipeline.after (R := R) events).timeSinceRekey =
      min (elapsedSinceRekey events) durationMax := by
  induction events using List.reverseRecOn with
  | nil =>
      rfl
  | append_singleton events e ih =>
      rw [StatePipeline.after, elapsedSinceRekey, List.foldl_concat, List.foldl_concat,
        ← StatePipeline.after, ← elapsedSinceRekey]
      cases e with
      | advance d =>
          change saturatingAdd (StatePipeline.after (R := R) events).timeSinceRekey d = _
          rw [ih]
          exact saturatingAdd_min _ _
      | markRekey =>
          rfl

/-- The observer and its clock after the events of a session that began at `start`. -/
def StateObserver.after (bytesSent start : R) (events : List Event) : StateObserver R × R :=
  events.foldl (fun (o, now) e =>
    match e with
    | .advance d => (o, now + asSecsF64 d)
    | .markRekey => (o.markRekey now, now)) (new bytesSent start, start)

omit [LinearOrder R] in
/-- On the observer's clock, too, the time since the last rekey is the sum of what elapsed. -/
theorem sub_lastRekeyTime_after (bytesSent start : R) (events : List Event) :
    (StateObserver.after bytesSent start events).2 -
        (StateObserver.after bytesSent start events).1.lastRekeyTime =
      asSecsF64 (elapsedSinceRekey events) := by
  induction events using List.reverseRecOn with
  | nil =>
      simp [StateObserver.after, StateObserver.new, elapsedSinceRekey, asSecsF64]
  | append_singleton events e ih =>
      rw [StateObserver.after, elapsedSinceRekey, List.foldl_concat, List.foldl_concat,
        ← StateObserver.after, ← elapsedSinceRekey]
      cases e with
      | advance d =>
          dsimp only
          rw [add_sub_right_comm, ih, asSecsF64, asSecsF64, asSecsF64]
          push_cast
          exact (add_div _ _ _).symm
      | markRekey =>
          simp [StateObserver.markRekey, asSecsF64]

section Timer

variable [IsStrictOrderedRing R]

theorem asSecsF64_div (value cap : Duration) :
    (asSecsF64 value / asSecsF64 cap : R) = (value : R) / cap := by
  have hsec : (1e9 : R) ≠ 0 := by norm_num
  exact div_div_div_cancel_right₀ hsec _ _

/-- From the cap on, more time makes no difference. -/
theorem normalizeDuration_of_le {value cap : Duration} (hcap : 0 < cap) (hle : cap ≤ value) :
    (normalizeDuration value cap : R) = 1 := by
  have hpos : (0 : R) < cap := Nat.cast_pos.2 hcap
  have hone : (1 : R) ≤ value / cap := by
    rw [one_le_div hpos]
    exact_mod_cast hle
  rw [normalizeDuration_of_pos hcap, asSecsF64_div, clip, max_eq_left (zero_le_one.trans hone),
    min_eq_right hone]

/-- A cap within the range of durations hides the saturation. -/
theorem normalizeDuration_min {cap : Duration} (hcap : 0 < cap) (hle : cap ≤ durationMax)
    (elapsed : Duration) :
    (normalizeDuration (min elapsed durationMax) cap : R) = normalizeDuration elapsed cap := by
  rcases le_total elapsed durationMax with h | h
  · rw [min_eq_left h]
  · rw [min_eq_right h, normalizeDuration_of_le hcap hle,
      normalizeDuration_of_le hcap (hle.trans h)]

end Timer

/-! ## The two vectors -/

theorem rawVector_eq (p : StatePipeline R) (device : DeviceState R) (threatScore : R) :
    p.rawVector device threatScore =
      ![device.cpuLoad, device.ramAvailableFraction,
        normalizeLatency device.latency p.caps.latencyCap,
        normalizeRate device.uploadRateBytesPerSec p.caps.uploadCapBytesPerSec,
        device.connectionType.score, normalizeDuration p.timeSinceRekey p.caps.rekeyIntervalCap,
        threatScore] := by
  funext i
  fin_cases i <;> rfl

section Agree

variable [IsStrictOrderedRing R]

omit [LinearOrder R] [IsStrictOrderedRing R] in
theorem caps_after (events : List Event) :
    (StatePipeline.after (R := R) events).caps = .default := by
  induction events using List.reverseRecOn with
  | nil =>
      rfl
  | append_singleton events e ih =>
      rw [StatePipeline.after, List.foldl_concat, ← StatePipeline.after]
      cases e <;> exact ih

theorem observe_eq (p : StatePipeline R) (device : DeviceState R) (threatScore : R)
    (i : StateIndex) :
    p.observe device threatScore i = clip (p.rawVector device threatScore i) 0 1 :=
  clamp_eq_clip zero_le_one

omit [LinearOrder R] [IsStrictOrderedRing R] in
/-- The timer's cap is a duration of positive length. -/
theorem rekeyIntervalCap_mem : 0 < (NormalizationCaps.default (R := R)).rekeyIntervalCap ∧
    (NormalizationCaps.default (R := R)).rekeyIntervalCap ≤ durationMax := by
  have hcap : 0 < Duration.fromSecs 3600 ∧ Duration.fromSecs 3600 ≤ durationMax := by decide
  exact hcap

/-- The timers of both, normalized. -/
theorem clip_timeSinceRekey {events : List Event} {o : StateObserver R} {now : R}
    (hclock : now - o.lastRekeyTime = asSecsF64 (elapsedSinceRekey events)) :
    clip (normalizeDuration (StatePipeline.after (R := R) events).timeSinceRekey
        (NormalizationCaps.default (R := R)).rekeyIntervalCap) 0 1 =
      clip (o.timeSinceRekey now) 0 1 := by
  obtain ⟨hcap, hmax⟩ := rekeyIntervalCap_mem (R := R)
  have hseconds :
      (asSecsF64 (NormalizationCaps.default (R := R)).rekeyIntervalCap : R) =
        rekeyIntervalCapSec := by
    norm_num [asSecsF64, NormalizationCaps.default, Duration.fromSecs, rekeyIntervalCapSec]
  rw [timeSinceRekey_after, normalizeDuration_min hcap hmax, normalizeDuration_of_pos hcap,
    clip_clip, hseconds, ← hclock, StateObserver.timeSinceRekey, clip_min_one]

/-- Pipeline and observer build one vector. -/
theorem observe_eq_vector {events : List Event} {o : StateObserver R} {now : R}
    (hclock : now - o.lastRekeyTime = asSecsF64 (elapsedSinceRekey events)) (raw : RawReading R)
    (threatScore : R) :
    (StatePipeline.after events).observe raw.device threatScore =
      o.vector now raw.readings threatScore := by
  funext i
  rw [observe_eq, rawVector_eq, caps_after, StateObserver.vector]
  -- index by index: only how each number was capped on the way differs
  fin_cases i
  · exact Eq.refl (clip raw.cpuFraction 0 1)
  · exact Eq.refl (clip raw.ramFraction 0 1)
  · exact clip_normalizeLatency raw.latency
  · exact clip_normalizeRate raw.uploadRate
  · exact congrArg (clip · 0 1) (score_connectionType raw.link)
  · exact clip_timeSinceRekey hclock
  · exact (clip_clip threatScore).symm

/-- The saturation of the timer never shows. -/
theorem observe_elapsed (events : List Event) (device : DeviceState R) (threatScore : R) :
    (StatePipeline.after events).observe device threatScore =
      StatePipeline.observe { StatePipeline.after events with
        timeSinceRekey := elapsedSinceRekey events } device threatScore := by
  obtain ⟨hcap, hmax⟩ := rekeyIntervalCap_mem (R := R)
  funext i
  rw [observe_eq, observe_eq, rawVector_eq, rawVector_eq, timeSinceRekey_after, caps_after,
    normalizeDuration_min hcap hmax]

/-- What stands at the frozen indices. -/
structure Normalizes (v : StateVector R) (raw : RawReading R) (sinceRekey : Duration)
    (threatScore : R) : Prop where
  cpuLoad : v cpuLoad = clip raw.cpuFraction 0 1
  ramAvail : v ramAvail = clip raw.ramFraction 0 1
  latency : v latency = raw.latency.elim 1 fun rtt => clip ((rtt : R) / 1e6 / latencyCapMs) 0 1
  upload : v upload = clip (raw.uploadRate / uploadCapBytesPerSec) 0 1
  connType : v connType = raw.link.score
  timeSinceRekey : v timeSinceRekey = clip (asSecsF64 sinceRekey / rekeyIntervalCapSec) 0 1
  threat : v threat = clip threatScore 0 1

theorem score_mem (link : LinkClass) : 0 ≤ (link.score : R) ∧ (link.score : R) ≤ 1 := by
  cases link <;> norm_num [LinkClass.score]

theorem normalizes_vector {events : List Event} {o : StateObserver R} {now : R}
    (hclock : now - o.lastRekeyTime = asSecsF64 (elapsedSinceRekey events)) (raw : RawReading R)
    (threatScore : R) :
    Normalizes (o.vector now raw.readings threatScore) raw (elapsedSinceRekey events)
      threatScore where
  cpuLoad := rfl
  ramAvail := rfl
  latency := by
    change clip
      (StateObserver.latency (raw.latency.map fun (d : Duration) => (d : R) / 1e6)) 0 1 = _
    cases raw.latency with
    | none => exact clip_of_mem ⟨zero_le_one, le_refl 1⟩
    | some rtt => exact clip_min_one _
  upload := clip_min_one _
  connType := clip_of_mem (score_mem raw.link)
  timeSinceRekey := by
    rw [← hclock]
    exact clip_min_one _
  threat := clip_clip threatScore

end Agree

/-- After any session the pipeline builds the observer's vector, each reading at its index and in
range, and the saturation of the timer never shows. -/
theorem pipeline_matches_observer [IsStrictOrderedRing R] (events : List Event)
    (raw : RawReading R) (threatScore : R) :
    let p := StatePipeline.after events
    let v := p.observe raw.device threatScore
    (∀ (o : StateObserver R) (now : R),
      now - o.lastRekeyTime = asSecsF64 (elapsedSinceRekey events) →
        v = o.vector now raw.readings threatScore ∧
        ∀ s : Sources R, o.readings now s = raw.readings → (o.readState now s threatScore).1 = v) ∧
    (∀ bytesSent start : R, v = (StateObserver.after bytesSent start events).1.vector
      (StateObserver.after bytesSent start events).2 raw.readings threatScore) ∧
    Normalizes v raw (elapsedSinceRekey events) threatScore ∧
    (∀ i, 0 ≤ v i ∧ v i ≤ 1) ∧
    v = StatePipeline.observe { p with timeSinceRekey := elapsedSinceRekey events } raw.device
      threatScore := by
  intro p v
  have hrun := sub_lastRekeyTime_after (0 : R) 0 events
  refine ⟨?_, ?_, ?_, ?_, ?_⟩
  · intro o now hclock
    have hv : v = o.vector now raw.readings threatScore := observe_eq_vector hclock raw threatScore
    refine ⟨hv, fun s hs => ?_⟩
    rw [hv, ← hs]
    rfl
  · intro bytesSent start
    exact observe_eq_vector (sub_lastRekeyTime_after bytesSent start events) raw threatScore
  · have hv : v = _ := observe_eq_vector hrun raw threatScore
    rw [hv]
    exact normalizes_vector hrun raw threatScore
  · intro i
    rw [show v i = _ from observe_eq p raw.device threatScore i]
    exact ⟨clip_nonneg _, clip_le_one _⟩
  · exact observe_elapsed events raw.device threatScore

/-- Half an hour after a rekey, with the target out of reach. -/
def halfHourReading : RawReading ℚ := ⟨0.4, 1.5, none, -1, .unknown⟩

theorem pipeline_matches_observer_half_hour :
    (StatePipeline.after [.advance 5, .markRekey, .advance (Duration.fromSecs 1800)]).observe
        halfHourReading.device 0.25 =
      (StateObserver.new 0 0).vector 1800 halfHourReading.readings 0.25 := by
  refine ((pipeline_matches_observer _ halfHourReading 0.25).1 _ _ ?_).1
  norm_num [StateObserver.new, elapsedSinceRekey, asSecsF64, Duration.fromSecs]

end State
end PqcVpn
