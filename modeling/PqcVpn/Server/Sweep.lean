import PqcVpn.Registry.Reference
import PqcVpn.Server.Tunnel

/-!
# Sweep — one iteration of the idle sweep

The body of `spawn_idle_sweep`: query WireGuard's handshake times, read the clock, and for each idle
peer either refresh its record or remove it from the registry and the interface.

The sweep decides from what the installer reports.  `evicts_only_idle_iff` says for which reports it
spares every peer whose actual latest handshake is recent.
-/

namespace PqcVpn
namespace Server

open Registry Wire

/-- The result of `last_handshakes`. -/
abbrev Handshakes : Type := Table (Bytes 32) SystemTime

/-- The reported handshake of a peer is not later than `now` and within the timeout. -/
def stillLive (wgHs : Handshakes) (now : SystemTime) (timeout : Duration) (pk : Bytes 32) : Bool :=
  match wgHs.lookup pk with
  | some hs => ((now.durationSince hs).map fun d => decide (d ≤ timeout)).getD false
  | none => false

theorem stillLive_iff {wgHs : Handshakes} {now : SystemTime} {timeout : Duration} {pk : Bytes 32} :
    stillLive wgHs now timeout pk = true ↔
      ∃ hs, wgHs.lookup pk = some hs ∧ hs.nanos ≤ now.nanos ∧ now.nanos ≤ hs.nanos + timeout := by
  unfold stillLive SystemTime.durationSince
  cases wgHs.lookup pk with
  | none => simp
  | some hs =>
      by_cases hle : hs.nanos ≤ now.nanos
      · have hsub : (now.nanos - hs.nanos).toNat ≤ timeout ↔ now.nanos ≤ hs.nanos + timeout := by
          rw [Int.toNat_le]
          omega
        simp only [hle, ite_true, Option.map_some, Option.getD_some, decide_eq_true_eq,
          Option.some.injEq, exists_eq_left', true_and]
        exact hsub
      · simp [hle]

/-- The handshakes the sweep works with: none when the query failed. -/
def unwrapOrDefault (r : Except InstallError Handshakes) : Handshakes :=
  match r with
  | .ok m => m
  | .error _ => ∅

/-- What one iteration of the sweep finds: the query's outcome, the clock, and the outcomes of the
calls it makes. -/
structure SweepEnv where
  lastHandshakes : Except InstallError Handshakes
  now : SystemTime
  /-- The clock when the record of a live peer is refreshed. -/
  touchNow : Bytes 32 → SystemTime
  removePeer : Bytes 32 → Except InstallError Unit
  codecs : TextCodecs
  order : (r : Registry) → r.Iteration
  persistIo : PersistIo

def SweepEnv.wgHs (env : SweepEnv) : Handshakes := unwrapOrDefault env.lastHandshakes

/-- One turn of the loop over the idle peers; the second component collects the evicted ones. -/
def sweepPeer (env : SweepEnv) (timeout : Duration) (acc : Stores × List (Bytes 32))
    (pk : Bytes 32) : Stores × List (Bytes 32) :=
  let (s, evicted) := acc
  -- the activity recorded is the time of the sweep, not that of the tunnel's handshake
  if stillLive env.wgHs env.now timeout pk then
    ({ s with registry := s.registry.touch (env.touchNow pk) pk }, evicted)
  else
    ({ s with
       registry := (s.registry.remove pk).2
       -- the outcome of the removal is ignored
       wg := s.wg.removePeer pk (env.removePeer pk) }, evicted ++ [pk])

/-- An order in which `idle_peers` returns its peers. -/
abbrev IdleOrder (r : Registry) (timeout : Duration) (now : SystemTime) : Type :=
  {idle : List (Bytes 32) // (idle : Multiset (Bytes 32)) = r.idlePeers timeout now}

/-- One iteration of the sweep: the stores after it, and the peers it evicted. -/
def sweep (env : SweepEnv) (timeout : Duration) (s : Stores)
    (idle : IdleOrder s.registry timeout env.now) : Stores × List (Bytes 32) :=
  let (s', evicted) := idle.val.foldl (sweepPeer env timeout) (s, [])
  -- the outcome of the persist is ignored
  if evicted.length > 0 then
    let (_, onDisk) := s'.registry.persist env.codecs (env.order s'.registry) env.persistIo s'.onDisk
    ({ s' with onDisk := onDisk }, evicted)
  else
    (s', evicted)

/-! ## Who is evicted -/

/-- The loop evicts exactly the idle peers that are not live. -/
theorem foldl_sweepPeer (env : SweepEnv) (timeout : Duration) (idle : List (Bytes 32)) (s : Stores)
    (evicted : List (Bytes 32)) :
    (idle.foldl (sweepPeer env timeout) (s, evicted)).2 =
      evicted ++ idle.filter fun pk => !stillLive env.wgHs env.now timeout pk := by
  induction idle generalizing s evicted with
  | nil => simp
  | cons pk rest ih =>
      rw [List.foldl_cons]
      cases hlive : stillLive env.wgHs env.now timeout pk with
      | true => simp [sweepPeer, hlive, ih]
      | false => simp [sweepPeer, hlive, ih]

theorem mem_evicted_iff {env : SweepEnv} {timeout : Duration} {s : Stores}
    {idle : IdleOrder s.registry timeout env.now} {pk : Bytes 32} :
    pk ∈ (sweep env timeout s idle).2 ↔
      pk ∈ s.registry.idlePeers timeout env.now ∧ stillLive env.wgHs env.now timeout pk = false := by
  have hevicted : (sweep env timeout s idle).2 =
      idle.val.filter fun pk => !stillLive env.wgHs env.now timeout pk := by
    have hfold := foldl_sweepPeer env timeout idle.val s []
    rw [List.nil_append] at hfold
    rw [← hfold]
    unfold sweep
    dsimp only
    split <;> rfl
  rw [hevicted, List.mem_filter, ← Multiset.mem_coe, idle.property]
  simp

/-- In a registry that stores every peer under its own key, a peer is idle when its own record is. -/
theorem mem_idlePeers_of_keyed {r : Registry} (hkeyed : r.Keyed) {timeout : Duration}
    {now : SystemTime} {pk : Bytes 32} :
    pk ∈ r.idlePeers timeout now ↔
      ∃ p, r.inner.lookup pk = some p ∧ p.lastActivity.nanos + timeout < now.nanos := by
  rw [mem_idlePeers_iff]
  constructor
  · rintro ⟨k, p, hk, rfl, hold⟩
    exact ⟨p, by rw [hkeyed k p hk, hk], hold⟩
  · rintro ⟨p, hp, hold⟩
    exact ⟨pk, p, hp, hkeyed pk p hp, hold⟩

/-! ## The eviction criterion -/

/-- Every evicted peer was inactive for longer than the timeout, and so was its tunnel: `actual` is
the time of each peer's most recent WireGuard handshake. -/
def EvictsOnlyIdle (env : SweepEnv) (timeout : Duration) (s : Stores) (evicted : List (Bytes 32))
    (actual : Bytes 32 → Option SystemTime) : Prop :=
  ∀ pk ∈ evicted,
    (∃ p, s.registry.inner.lookup pk = some p ∧
      p.lastActivity.nanos + timeout < env.now.nanos) ∧
    ∀ hs, actual pk = some hs → hs.nanos + timeout < env.now.nanos

/-- The query succeeded and reports, for every idle peer whose tunnel is live, a handshake that is
not later than the clock reading and within the timeout. -/
def ReportsLiveTunnels (env : SweepEnv) (timeout : Duration) (s : Stores)
    (actual : Bytes 32 → Option SystemTime) : Prop :=
  ∀ pk p hs, s.registry.inner.lookup pk = some p →
    p.lastActivity.nanos + timeout < env.now.nanos →
    actual pk = some hs → env.now.nanos ≤ hs.nanos + timeout →
      ∃ m hs', env.lastHandshakes = .ok m ∧ m.lookup pk = some hs' ∧
        hs'.nanos ≤ env.now.nanos ∧ env.now.nanos ≤ hs'.nanos + timeout

theorem stillLive_wgHs_iff {env : SweepEnv} {timeout : Duration} {pk : Bytes 32} :
    stillLive env.wgHs env.now timeout pk = true ↔
      ∃ m hs, env.lastHandshakes = .ok m ∧ m.lookup pk = some hs ∧
        hs.nanos ≤ env.now.nanos ∧ env.now.nanos ≤ hs.nanos + timeout := by
  rw [stillLive_iff]
  cases hreport : env.lastHandshakes with
  | error e => simp [SweepEnv.wgHs, unwrapOrDefault, hreport]
  | ok m => simp [SweepEnv.wgHs, unwrapOrDefault, hreport]

/-- The sweep keeps to its eviction criterion exactly when the query reports the live tunnels. -/
theorem evicts_only_idle_iff (env : SweepEnv) (timeout : Duration) (s : Stores)
    (idle : IdleOrder s.registry timeout env.now) (actual : Bytes 32 → Option SystemTime)
    (hkeyed : s.registry.Keyed) :
    EvictsOnlyIdle env timeout s (sweep env timeout s idle).2 actual ↔
      ReportsLiveTunnels env timeout s actual := by
  constructor
  -- a live tunnel the query leaves out would be evicted
  · intro hclaim pk p hs hp hold hactual hrecent
    by_contra hnot
    rw [← stillLive_wgHs_iff, Bool.not_eq_true] at hnot
    have hevicted : pk ∈ (sweep env timeout s idle).2 :=
      mem_evicted_iff.2 ⟨(mem_idlePeers_of_keyed hkeyed).2 ⟨p, hp, hold⟩, hnot⟩
    have hstale := (hclaim pk hevicted).2 hs hactual
    omega
  -- an evicted peer was reported dead, so by the reports it is
  · intro hreport pk hpk
    rcases mem_evicted_iff.1 hpk with ⟨hidle, hdead⟩
    rcases (mem_idlePeers_of_keyed hkeyed).1 hidle with ⟨p, hp, hold⟩
    refine ⟨⟨p, hp, hold⟩, ?_⟩
    intro hs hactual
    by_contra hrecent
    have hlive := stillLive_wgHs_iff.2 (hreport pk p hs hp hold hactual (by omega))
    rw [hdead] at hlive
    cases hlive

/-! ## A registry with one idle peer -/

namespace Reference

open Registry.Reference

/-- Ten minutes after the one peer's handshake. -/
def tenMinutesLater : SystemTime := ⟨1700000600000000000, by omega, by omega⟩

noncomputable def sweepEnv (lastHandshakes : Except InstallError Handshakes) : SweepEnv where
  lastHandshakes := lastHandshakes
  now := tenMinutesLater
  touchNow := fun _ => tenMinutesLater
  removePeer := fun _ => .ok ()
  codecs := codecs
  order := anyOrder
  persistIo := { writeTmp := .ok (), rename := .ok () }

def fiveMinutes : Duration := 300000000000

/-- One registered peer, last active ten minutes ago. -/
def idleStores : Stores :=
  { registry := empty.store key peer
    wg := (∅ : WgInterface).insert key { psk := .replicate 32 9, allowedIp := .new 10 8 0 2 }
    onDisk := none }

theorem lookup_idleStores : idleStores.registry.inner.lookup key = some peer :=
  Finmap.lookup_insert _

theorem keys_idleStores : idleStores.wg.keys = idleStores.registry.inner.keys := by
  have hwg : idleStores.wg.keys = insert key ∅ := Table.keys_insert ∅ key _
  have hregistry : idleStores.registry.inner.keys = insert key ∅ := Table.keys_insert ∅ key _
  rw [hwg, hregistry]

def idleOrder : IdleOrder idleStores.registry fiveMinutes tenMinutesLater := ⟨[key], by decide⟩

/-- The tunnel of the one peer completed a WireGuard handshake just now. -/
def liveTunnel : Bytes 32 → Option SystemTime := fun _ => some tenMinutesLater

end Reference

/-- The report of a query that knows the live tunnel. -/
def Reference.liveReport : Handshakes :=
  (∅ : Handshakes).insert Registry.Reference.key Reference.tenMinutesLater

/-- A query that reports the live tunnel spares its peer. -/
theorem idle_peer_spared :
    EvictsOnlyIdle (Reference.sweepEnv (.ok Reference.liveReport)) Reference.fiveMinutes
      Reference.idleStores
      (sweep (Reference.sweepEnv (.ok Reference.liveReport)) Reference.fiveMinutes
        Reference.idleStores Reference.idleOrder).2 Reference.liveTunnel := by
  have hkeyed : Reference.idleStores.registry.Keyed := Registry.Reference.keyed
  refine (evicts_only_idle_iff (Reference.sweepEnv (.ok Reference.liveReport)) _ _
    Reference.idleOrder _ hkeyed).2 ?_
  intro pk p hs hp hold hactual hrecent
  have hpk : pk = Registry.Reference.key := by
    by_contra hne
    simp [Reference.idleStores, Registry.Reference.empty, Registry.new, hne] at hp
  subst hpk
  refine ⟨_, _, rfl, Finmap.lookup_insert _, le_refl _, ?_⟩
  exact le_add_of_nonneg_right (Int.natCast_nonneg _)

/-- A query that fails leaves the sweep without the live tunnel, and it evicts the peer. -/
theorem live_peer_evicted :
    ¬ EvictsOnlyIdle (Reference.sweepEnv (.error (.spawn "No such file or directory")))
      Reference.fiveMinutes Reference.idleStores
      (sweep (Reference.sweepEnv (.error (.spawn "No such file or directory")))
        Reference.fiveMinutes Reference.idleStores Reference.idleOrder).2 Reference.liveTunnel := by
  intro hclaim
  have hidle : Registry.Reference.key ∈
      Reference.idleStores.registry.idlePeers Reference.fiveMinutes Reference.tenMinutesLater :=
    (mem_idlePeers_of_keyed Registry.Reference.keyed).2
      ⟨_, Reference.lookup_idleStores, by decide⟩
  have hevicted : Registry.Reference.key ∈
      (sweep (Reference.sweepEnv (.error (.spawn "No such file or directory")))
        Reference.fiveMinutes Reference.idleStores Reference.idleOrder).2 :=
    mem_evicted_iff.2 ⟨hidle, rfl⟩
  have hstale := (hclaim _ hevicted).2 _ rfl
  exact absurd hstale (by decide)

end Server
end PqcVpn
