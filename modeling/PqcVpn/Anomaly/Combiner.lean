import PqcVpn.Anomaly.Signatures
import PqcVpn.Lib.Machine

/-!
# Combiner — Layers 1 and 2 under the CPU gate

`AnomalyCombiner` runs Layer 1 on every tick and the five signatures of Layer 2 on the ticks with
CPU to spare.  A signature that is gated off is not called, so each detector is a component of the
combiner: it answers as it would on its own, fed only the ticks that reach it.
-/

namespace PqcVpn
namespace Anomaly

open Machine

variable {R : Type} [Field R] [LinearOrder R]

def layer2CpuGate : R := 0.70

/-- The arguments of one `update`. -/
structure Tick (R : Type) where
  cpuLoad : R
  metrics : Metrics R
  ports : PortScanInput
  retransmitRate : R
  latencyMs : R
  bandwidth : ExfiltrationInput R
  dnsServer : String

/-- The tick has CPU to spare for Layer 2. -/
def Tick.layer2Active (t : Tick R) : Bool := decide (t.cpuLoad < layer2CpuGate)

/-- The readings of the five signatures. -/
structure Layer2Readings (R : Type) where
  portScan : Reading R (PortScanDetail R)
  retransmission : Reading R (RetransmissionDetail R)
  mitmLatency : Reading R (MitMDetail R)
  exfiltration : Reading R (ExfiltrationDetail R)
  dnsChange : Reading R DNSChangeDetail

/-- The readings of the layers that ran. -/
structure LayerReadings (R : Type) where
  layer1 : Reading R (Metrics R)
  layer2 : Option (Layer2Readings R)

/-- `layer_results.values()`. -/
def LayerReadings.values (layers : LayerReadings R) : List (Reading R Unit) :=
  layers.layer1.summary ::
    match layers.layer2 with
    | none => []
    | some l => [l.portScan.summary, l.retransmission.summary, l.mitmLatency.summary,
        l.exfiltration.summary, l.dnsChange.summary]

structure CombinerDetail (R : Type) where
  layer2Active : Bool
  layers : LayerReadings R

structure AnomalyCombiner (R : Type) where
  layer1 : ZScoreBaseline R
  portScan : PortScanSignature
  retransmission : RetransmissionSpikeSignature
  mitmLatency : MitMLatencySignature R
  exfiltration : BandwidthExfiltrationSignature
  dnsChange : DNSServerChangeSignature

/-- The `MitMLatencySignature` the combiner owns. -/
def defaultMitM : MitMLatencySignature R :=
  .new mitmWindowTicks mitmConsecutiveTicks (by decide)

namespace AnomalyCombiner

def new (window : Nat) : AnomalyCombiner R where
  layer1 := .new window
  portScan := .new
  retransmission := .new retransConsecutiveTicks
  mitmLatency := defaultMitM
  exfiltration := .new exfilConsecutiveTicks
  dnsChange := .new none

/-- The calls of the five signatures. -/
def updateLayer2 (c : AnomalyCombiner R) (t : Tick R) : Layer2Readings R × AnomalyCombiner R :=
  let (portScan, portScan') := c.portScan.update t.ports
  let (retransmission, retransmission') := c.retransmission.update t.retransmitRate
  let (mitmLatency, mitmLatency') := c.mitmLatency.update t.latencyMs
  let (exfiltration, exfiltration') := c.exfiltration.update t.bandwidth
  let (dnsChange, dnsChange') := c.dnsChange.update t.dnsServer
  ({ portScan, retransmission, mitmLatency, exfiltration, dnsChange },
    { c with
      portScan := portScan'
      retransmission := retransmission'
      mitmLatency := mitmLatency'
      exfiltration := exfiltration'
      dnsChange := dnsChange' })

variable [HasSqrt R]

/-- One tick. -/
def update (c : AnomalyCombiner R) (t : Tick R) : Reading R (CombinerDetail R) × AnomalyCombiner R :=
  let (layer1, layer1') := c.layer1.update t.metrics
  let c := { c with layer1 := layer1' }
  let (layer2, c) :=
    if t.layer2Active then
      let (readings, c) := c.updateLayer2 t
      (some readings, c)
    else
      (none, c)
  let layers : LayerReadings R := { layer1, layer2 }
  -- only a ready layer counts
  let contributing := layers.values.filter Reading.ready
  ({ anomalous := contributing.any Reading.anomalous
     threatScore := (contributing.map Reading.threatScore).max?.getD 0
     ready := layer1.ready
     detail := { layer2Active := t.layer2Active, layers } }, c)

/-! ## The detectors are components -/

theorem layers_update_of_active (c : AnomalyCombiner R) {t : Tick R} (h : t.layer2Active = true) :
    (c.update t).1.detail.layers =
        { layer1 := (c.layer1.update t.metrics).1, layer2 := some (c.updateLayer2 t).1 } ∧
      (c.update t).2 =
        { (c.updateLayer2 t).2 with layer1 := (c.layer1.update t.metrics).2 } := by
  simp only [update, h, if_true]
  exact ⟨rfl, rfl⟩

theorem layers_update_of_inactive (c : AnomalyCombiner R) {t : Tick R}
    (h : t.layer2Active = false) :
    (c.update t).1.detail.layers =
        { layer1 := (c.layer1.update t.metrics).1, layer2 := none } ∧
      (c.update t).2 = { c with layer1 := (c.layer1.update t.metrics).2 } := by
  simp only [update, h, Bool.false_eq_true, if_false, and_self]

/-- Layer 1 runs on every tick. -/
theorem layer1_component :
    Component (update (R := R)) ZScoreBaseline.update (fun _ => true) layer1 Tick.metrics
      (some ∘ fun r => r.detail.layers.layer1) where
  runs c t _ := by
    change some (c.update t).1.detail.layers.layer1 = _ ∧ _
    cases h : t.layer2Active with
    | true =>
        rcases layers_update_of_active c h with ⟨hlayers, hnext⟩
        rw [hlayers, hnext]
        exact ⟨rfl, rfl⟩
    | false =>
        rcases layers_update_of_inactive c h with ⟨hlayers, hnext⟩
        rw [hlayers, hnext]
        exact ⟨rfl, rfl⟩
  sitsOut c t h := by cases h

/-- A detector that `updateLayer2` calls once runs on the active ticks only. -/
theorem layer2_component {σ ι D : Type} {step : σ → ι → Reading R D × σ}
    {view : AnomalyCombiner R → σ} {input : Tick R → ι} {answer : Layer2Readings R → Reading R D}
    (hcalls : ∀ c t, answer (updateLayer2 c t).1 = (step (view c) (input t)).1 ∧
      view (updateLayer2 c t).2 = (step (view c) (input t)).2)
    (hown : ∀ (c : AnomalyCombiner R) l, view { c with layer1 := l } = view c) :
    Component update step Tick.layer2Active view input
      (fun r => r.detail.layers.layer2.map answer) where
  runs c t h := by
    rcases layers_update_of_active c h with ⟨hlayers, hnext⟩
    rw [hlayers, hnext]
    exact ⟨congrArg some (hcalls c t).1, (hown _ _).trans (hcalls c t).2⟩
  sitsOut c t h := by
    rcases layers_update_of_inactive c h with ⟨hlayers, hnext⟩
    rw [hlayers, hnext]
    exact ⟨rfl, hown c _⟩

theorem portScan_component :
    Component (update (R := R)) PortScanSignature.update Tick.layer2Active portScan Tick.ports
      (fun r => r.detail.layers.layer2.map Layer2Readings.portScan) :=
  layer2_component (fun _ _ => ⟨rfl, rfl⟩) fun _ _ => rfl

theorem retransmission_component :
    Component (update (R := R)) RetransmissionSpikeSignature.update Tick.layer2Active retransmission
      Tick.retransmitRate (fun r => r.detail.layers.layer2.map Layer2Readings.retransmission) :=
  layer2_component (fun _ _ => ⟨rfl, rfl⟩) fun _ _ => rfl

theorem mitmLatency_component :
    Component (update (R := R)) MitMLatencySignature.update Tick.layer2Active mitmLatency
      Tick.latencyMs (fun r => r.detail.layers.layer2.map Layer2Readings.mitmLatency) :=
  layer2_component (fun _ _ => ⟨rfl, rfl⟩) fun _ _ => rfl

theorem exfiltration_component :
    Component (update (R := R)) BandwidthExfiltrationSignature.update Tick.layer2Active exfiltration
      Tick.bandwidth (fun r => r.detail.layers.layer2.map Layer2Readings.exfiltration) :=
  layer2_component (fun _ _ => ⟨rfl, rfl⟩) fun _ _ => rfl

theorem dnsChange_component :
    Component (update (R := R)) DNSServerChangeSignature.update Tick.layer2Active dnsChange
      Tick.dnsServer (fun r => r.detail.layers.layer2.map Layer2Readings.dnsChange) :=
  layer2_component (fun _ _ => ⟨rfl, rfl⟩) fun _ _ => rfl

end AnomalyCombiner

/-! ## One combined reading -/

/-- A combined reading: the maximum and the disjunction over the layers that ran and were ready. -/
structure Combines (r : Reading R (CombinerDetail R)) : Prop where
  anomalous : r.anomalous = true ↔
    ∃ l ∈ r.detail.layers.values, l.ready = true ∧ l.anomalous = true
  threatScore : (∃ l ∈ r.detail.layers.values, l.ready = true) →
    IsGreatest {x | ∃ l ∈ r.detail.layers.values, l.ready = true ∧ l.threatScore = x} r.threatScore
  noneReady : (∀ l ∈ r.detail.layers.values, l.ready = false) →
    r.threatScore = 0 ∧ r.anomalous = false
  ready : r.ready = r.detail.layers.layer1.ready

omit [Field R] in
theorem isGreatest_max?_getD {xs : List R} (hne : xs ≠ []) (d : R) :
    IsGreatest {x | x ∈ xs} (xs.max?.getD d) := by
  rcases hmax : xs.max? with _ | m
  · exact absurd (List.max?_eq_none_iff.1 hmax) hne
  · rcases List.max?_eq_some_iff.1 hmax with ⟨hmem, hle⟩
    exact ⟨hmem, hle⟩

variable [HasSqrt R]

theorem combines_update (c : AnomalyCombiner R) (t : Tick R) : Combines (c.update t).1 where
  anomalous := by
    simp only [AnomalyCombiner.update, List.any_eq_true, List.mem_filter, and_assoc]
  threatScore := by
    rintro ⟨l, hl, hready⟩
    -- some layer is ready, so there is a maximum and the default is not used
    have hscores : (((c.update t).1.detail.layers.values.filter Reading.ready).map
        Reading.threatScore) ≠ [] :=
      List.ne_nil_of_mem (List.mem_map.2 ⟨l, List.mem_filter.2 ⟨hl, hready⟩, rfl⟩)
    have hmax := isGreatest_max?_getD hscores 0
    simp only [List.mem_map, List.mem_filter, and_assoc] at hmax
    exact hmax
  noneReady := by
    intro hnone
    have hempty : (c.update t).1.detail.layers.values.filter Reading.ready = [] := by
      rw [List.filter_eq_nil_iff]
      intro l hl
      rw [hnone l hl]
      exact Bool.false_ne_true
    have hscore : (c.update t).1.threatScore =
        (((c.update t).1.detail.layers.values.filter Reading.ready).map
          Reading.threatScore).max?.getD 0 := rfl
    have hany : (c.update t).1.anomalous =
        ((c.update t).1.detail.layers.values.filter Reading.ready).any Reading.anomalous := rfl
    rw [hscore, hany, hempty]
    exact ⟨rfl, rfl⟩
  ready := rfl

theorem combines_outputs (c : AnomalyCombiner R) (ticks : List (Tick R)) :
    ∀ r ∈ outputs AnomalyCombiner.update c ticks, Combines r :=
  forall_outputs_of_forall combines_update c ticks

/-- Layer 1 hears every tick and each signature only the ticks the gate lets through; every reading
combines the layers that ran. -/
theorem layer2_hears_only_ungated_ticks (window : Nat) (ticks : List (Tick R)) :
    let readings := outputs AnomalyCombiner.update (AnomalyCombiner.new window) ticks
    let layer2 := readings.filterMap fun r => r.detail.layers.layer2
    let ungated := ticks.filter Tick.layer2Active
    readings.map (fun r => r.detail.layers.layer1) =
        outputs ZScoreBaseline.update (ZScoreBaseline.new window) (ticks.map Tick.metrics) ∧
      readings.map (fun r => r.detail.layers.layer2.isSome) = ticks.map Tick.layer2Active ∧
      layer2.map Layer2Readings.portScan =
        outputs PortScanSignature.update .new (ungated.map Tick.ports) ∧
      layer2.map Layer2Readings.retransmission =
        outputs RetransmissionSpikeSignature.update (.new retransConsecutiveTicks)
          (ungated.map Tick.retransmitRate) ∧
      layer2.map Layer2Readings.mitmLatency =
        outputs MitMLatencySignature.update defaultMitM (ungated.map Tick.latencyMs) ∧
      layer2.map Layer2Readings.exfiltration =
        outputs BandwidthExfiltrationSignature.update (.new exfilConsecutiveTicks)
          (ungated.map Tick.bandwidth) ∧
      layer2.map Layer2Readings.dnsChange =
        outputs DNSServerChangeSignature.update (.new none) (ungated.map Tick.dnsServer) ∧
      ∀ r ∈ readings, Combines r := by
  intro readings layer2 ungated
  -- one argument for the five signatures: each is a component of the combiner
  have hlayer2 {σ ι D : Type} {step : σ → ι → Reading R D × σ} {view : AnomalyCombiner R → σ}
      {input : Tick R → ι} {answer : Layer2Readings R → Reading R D}
      (h : Component AnomalyCombiner.update step Tick.layer2Active view input
        (fun r => r.detail.layers.layer2.map answer)) :
      layer2.map answer = outputs step (view (.new window)) (ungated.map input) := by
    rw [← h.answers, List.map_filterMap]
  refine ⟨AnomalyCombiner.layer1_component.answers_always _ ticks, ?_,
    hlayer2 AnomalyCombiner.portScan_component, hlayer2 AnomalyCombiner.retransmission_component,
    hlayer2 AnomalyCombiner.mitmLatency_component, hlayer2 AnomalyCombiner.exfiltration_component,
    hlayer2 AnomalyCombiner.dnsChange_component, combines_outputs _ ticks⟩
  have hasked := AnomalyCombiner.portScan_component.isSome_answers (AnomalyCombiner.new window) ticks
  simp only [Option.isSome_map] at hasked
  exact hasked

end Anomaly
end PqcVpn
