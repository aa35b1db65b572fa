import PqcVpn.Lib.Machine
import PqcVpn.Registry.Capacity
import PqcVpn.Registry.Reference

/-!
# Reload — a registry and the one its file brings back

The file keeps times to whole seconds and everything else exactly.  The two registries answer every
later call alike: only `remove`, which hands out the record, shows the lost fraction of a second.
-/

namespace PqcVpn
namespace Registry

open Wire Machine

variable {c : TextCodecs}

/-! ## One peer -/

/-- The clock reading `t`, or what is left of it after whole seconds are kept. -/
def SameSecond (t t' : SystemTime) : Prop := t' = t ∨ t' = truncated t

/-- The same peer, up to fractions of a second. -/
structure Alike (p p' : Peer) : Prop where
  wgPubkey : p'.wgPubkey = p.wgPubkey
  assignedIp : p'.assignedIp = p.assignedIp
  sessionId : p'.sessionId = p.sessionId
  algo : p'.algo = p.algo
  created : SameSecond p.created p'.created
  lastActivity : SameSecond p.lastActivity p'.lastActivity
  rekeys : p'.rekeys = p.rekeys

/-- Each time cut to whole seconds, everything else as it was. -/
structure Reloaded (p p' : Peer) : Prop where
  wgPubkey : p'.wgPubkey = p.wgPubkey
  assignedIp : p'.assignedIp = p.assignedIp
  sessionId : p'.sessionId = p.sessionId
  algo : p'.algo = p.algo
  created : p'.created.nanos = p.created.nanos / 1000000000 * 1000000000
  lastActivity : p'.lastActivity.nanos = p.lastActivity.nanos / 1000000000 * 1000000000
  rekeys : p'.rekeys = p.rekeys

theorem nanos_truncated {t : SystemTime} (h : 0 ≤ t.nanos) :
    (truncated t).nanos = t.nanos / 1000000000 * 1000000000 := by
  -- not before the epoch, so `duration_since` succeeds and rounds down
  have hepoch : (epoch t : Int) = t.nanos / 1000000000 := by
    unfold epoch SystemTime.durationSince SystemTime.unixEpoch
    rw [if_pos h]
    simp only [Duration.asSecs, Option.map_some, Option.getD_some]
    omega
  simp only [truncated, hepoch]

/-- Whole seconds lose nothing more. -/
theorem truncated_truncated (t : SystemTime) : truncated (truncated t) = truncated t := by
  have hpos : 0 ≤ (truncated t).nanos := by
    simp only [truncated]
    omega
  refine SystemTime.ext ?_
  rw [nanos_truncated hpos]
  simp only [truncated]
  omega

theorem Peer.restored_restored (p : Peer) : p.restored.restored = p.restored := by
  simp only [Peer.restored, truncated_truncated]

theorem alike_refl (p : Peer) : Alike p p := ⟨rfl, rfl, rfl, rfl, .inl rfl, .inl rfl, rfl⟩

theorem alike_restored (p : Peer) : Alike p p.restored :=
  ⟨rfl, rfl, rfl, rfl, .inr rfl, .inr rfl, rfl⟩

/-- No time is before the epoch. -/
def AfterEpoch (r : Registry) : Prop :=
  ∀ k p, r.inner.lookup k = some p → 0 ≤ p.created.nanos ∧ 0 ≤ p.lastActivity.nanos

theorem reloaded_restored {p : Peer} (h : 0 ≤ p.created.nanos ∧ 0 ≤ p.lastActivity.nanos) :
    Reloaded p p.restored :=
  ⟨rfl, rfl, rfl, rfl, nanos_truncated h.1, nanos_truncated h.2, rfl⟩

/-! ## The same answers -/

/-- Two registries that differ at most in fractions of seconds. -/
structure Twins (r r' : Registry) : Prop where
  subnetBase : r'.subnetBase = r.subnetBase
  maxPeers : r'.maxPeers = r.maxPeers
  inner : Table.Pointwise Alike r.inner r'.inner

/-- The same reply, up to fractions of a second in a peer that is handed out. -/
inductive SameReply : Reply → Reply → Prop
  | slot (result : Except RegistryError PeerSlot) : SameReply (.slot result) (.slot result)
  | removed {peer peer' : Option Peer} (h : Option.Rel Alike peer peer') :
      SameReply (.removed peer) (.removed peer')
  | unit : SameReply .unit .unit

/-- Any call but the sweep's query, which compares times. -/
def Op.IsUpdate (op : Op) : Prop := ∀ timeout now, op ≠ .idlePeers timeout now

namespace Twins

variable {r r' : Registry}

theorem len_eq (h : Twins r r') : r'.len = r.len := congrArg Finset.card h.inner.keys_eq.symm

/-- The same hosts are in use. -/
theorem taken_eq (h : Twins r r') : r'.taken = r.taken := by
  ext host
  rw [mem_taken_iff, mem_taken_iff]
  constructor
  · rintro ⟨k, p', hp', hhost⟩
    -- the tables have the same keys, and peers under one key the same address
    rcases h.inner.lookup_cases k with ⟨_, hnone⟩ | ⟨p, q', hp, hq', halike⟩
    · simp [hnone] at hp'
    · rw [hq'] at hp'
      cases hp'
      exact ⟨k, p, hp, by rw [← halike.assignedIp, hhost]⟩
  · rintro ⟨k, p, hp, hhost⟩
    rcases h.inner.lookup_cases k with ⟨hnone, _⟩ | ⟨q, p', hq, hp', halike⟩
    · simp [hnone] at hp
    · rw [hq] at hp
      cases hp
      exact ⟨k, p', hp', by rw [halike.assignedIp, hhost]⟩

theorem allocIp_eq (h : Twins r r') : r'.allocIp = r.allocIp := by
  have haddress : r'.addressOf = r.addressOf := by
    funext host
    rw [addressOf, addressOf, h.subnetBase]
  rw [allocIp, allocIp, h.taken_eq, haddress]

theorem store (h : Twins r r') (pk : Bytes 32) {p p' : Peer} (halike : Alike p p') :
    Twins (r.store pk p) (r'.store pk p') :=
  ⟨h.subnetBase, h.maxPeers, h.inner.insert pk halike⟩

theorem upsertHandshake (h : Twins r r') (now : SystemTime) (pk : Bytes 32) (algo : AlgoCode)
    (sid : Bytes 16) :
    (r'.upsertHandshake now pk algo sid).1 = (r.upsertHandshake now pk algo sid).1 ∧
      Twins (r.upsertHandshake now pk algo sid).2 (r'.upsertHandshake now pk algo sid).2 := by
  unfold Registry.upsertHandshake
  -- a new peer depends on size and free hosts, a known one on its address: both agree
  rcases h.inner.lookup_cases pk with ⟨hp, hp'⟩ | ⟨p, p', hp, hp', halike⟩
  · simp only [hp, hp', h.len_eq, h.maxPeers, h.allocIp_eq]
    split
    · exact ⟨rfl, h⟩
    · cases r.allocIp with
      | error e => exact ⟨rfl, h⟩
      | ok ip => exact ⟨rfl, h.store pk (alike_refl _)⟩
  · simp only [hp, hp', halike.assignedIp]
    refine ⟨trivial, h.store pk ?_⟩
    exact ⟨halike.wgPubkey, rfl, rfl, rfl, halike.created, .inl rfl, rfl⟩

theorem rekey (h : Twins r r') (now : SystemTime) (pk : Bytes 32) (claimed : Bytes 16)
    (algo : AlgoCode) :
    (r'.rekey now pk claimed algo).1 = (r.rekey now pk claimed algo).1 ∧
      Twins (r.rekey now pk claimed algo).2 (r'.rekey now pk claimed algo).2 := by
  unfold Registry.rekey
  -- the guards look at the session and the algorithm, never at a time
  rcases h.inner.lookup_cases pk with ⟨hp, hp'⟩ | ⟨p, p', hp, hp', halike⟩
  · simp only [hp, hp']
    exact ⟨trivial, h⟩
  · simp only [hp, hp', halike.sessionId, halike.algo, halike.assignedIp]
    split
    · exact ⟨rfl, h⟩
    split
    · exact ⟨rfl, h⟩
    · refine ⟨rfl, h.store pk ?_⟩
      exact ⟨halike.wgPubkey, rfl, rfl, rfl, halike.created, .inl rfl, by rw [halike.rekeys]⟩

theorem touch (h : Twins r r') (now : SystemTime) (pk : Bytes 32) :
    Twins (r.touch now pk) (r'.touch now pk) := by
  unfold Registry.touch
  rcases h.inner.lookup_cases pk with ⟨hp, hp'⟩ | ⟨p, p', hp, hp', halike⟩
  · simp only [hp, hp']
    exact h
  · simp only [hp, hp']
    refine h.store pk ?_
    exact ⟨halike.wgPubkey, halike.assignedIp, halike.sessionId, halike.algo, halike.created,
      .inl rfl, halike.rekeys⟩

/-- Twins answer every update alike and stay twins. -/
theorem bisimulation : Bisimulation exec exec Op.IsUpdate Twins SameReply := by
  intro r r' op hop h
  cases op with
  | upsertHandshake now pk algo sid =>
      rcases h.upsertHandshake now pk algo sid with ⟨hresult, hnext⟩
      refine ⟨?_, hnext⟩
      simp only [exec, hresult]
      exact .slot _
  | rekey now pk claimed algo =>
      rcases h.rekey now pk claimed algo with ⟨hresult, hnext⟩
      refine ⟨?_, hnext⟩
      simp only [exec, hresult]
      exact .slot _
  | touch now pk => exact ⟨.unit, h.touch now pk⟩
  | remove pk =>
      exact ⟨.removed (h.inner pk), h.subnetBase, h.maxPeers, h.inner.erase pk⟩
  | idlePeers timeout now => exact absurd rfl (hop timeout now)
  | persist => exact ⟨.unit, h⟩

end Twins

/-! ## Persisting and loading -/

/-- What the file of a registry brings back under the registry's own configuration. -/
theorem load_persisted (hc : c.RoundTrip) {r : Registry} (hheld : Held c r) {path : String}
    (hpath : r.path = some path) {order : r.Iteration} {os : PersistIo}
    {onDisk : Option (List UInt8)} {content : List UInt8}
    (hpersist : r.persist c order os onDisk = (.ok (), some content)) :
    ∃ r', load c path (.bytes content) r.subnetBase r.maxPeers = some (.ok r') ∧
      r'.path = r.path ∧ r'.subnetBase = r.subnetBase ∧ r'.maxPeers = r.maxPeers ∧
      ∀ k, r'.inner.lookup k = (r.inner.lookup k).map Peer.restored := by
  rcases persist_eq_ok hpath hpersist with ⟨content', hcontent, hjson⟩
  cases hcontent
  rcases load_toFile hc hheld.keyed order hjson path r.subnetBase r.maxPeers with
    ⟨r', hload, hpath', hbase, hmax, hlookup⟩
  exact ⟨r', hload, hpath'.trans hpath.symm, hbase,
    hmax.trans (Nat.min_eq_left hheld.maxPeers_le), hlookup⟩

theorem twins_of_restored {r r' : Registry} (hbase : r'.subnetBase = r.subnetBase)
    (hmax : r'.maxPeers = r.maxPeers)
    (hlookup : ∀ k, r'.inner.lookup k = (r.inner.lookup k).map Peer.restored) : Twins r r' where
  subnetBase := hbase
  maxPeers := hmax
  inner := by
    intro k
    rw [hlookup]
    cases r.inner.lookup k with
    | none => exact .none
    | some p => exact .some (alike_restored p)

/-- A registry without fractions of seconds comes back as it was. -/
theorem load_persisted_eq (hc : c.RoundTrip) {r : Registry} (hheld : Held c r) {path : String}
    (hpath : r.path = some path)
    (hwhole : ∀ k p, r.inner.lookup k = some p → p.restored = p) {order : r.Iteration}
    {os : PersistIo} {onDisk : Option (List UInt8)} {content : List UInt8}
    (hpersist : r.persist c order os onDisk = (.ok (), some content)) :
    load c path (.bytes content) r.subnetBase r.maxPeers = some (.ok r) := by
  rcases load_persisted hc hheld hpath hpersist with ⟨r', hload, hpath', hbase, hmax, hlookup⟩
  -- truncation changes no peer, so the lookups agree everywhere
  have hinner : r'.inner = r.inner := by
    refine Finmap.ext_lookup fun k => ?_
    rw [hlookup]
    cases hk : r.inner.lookup k with
    | none => rfl
    | some p => exact congrArg some (hwhole k p hk)
  have heq : r' = r := by
    cases r
    cases r'
    simp only at hpath' hbase hmax hinner
    subst hpath' hbase hmax hinner
    rfl
  rw [hload, heq]

/-- Reloading loses nothing but fractions of seconds, a second reload loses nothing at all, and
every later call is answered alike. -/
theorem reload_loses_fractions_only (hc : c.RoundTrip) {r : Registry} (hheld : Held c r)
    {path : String} (hpath : r.path = some path) (htimes : r.AfterEpoch) {order : r.Iteration}
    {os : PersistIo} {onDisk : Option (List UInt8)} {content : List UInt8}
    (hpersist : r.persist c order os onDisk = (.ok (), some content)) :
    (∀ rec ∈ (r.toFile c order).peers, ∃ p, rec.intoPeer c = some (.ok p)) ∧
      ∃ r', load c path (.bytes content) r.subnetBase r.maxPeers = some (.ok r') ∧
        Table.Pointwise Reloaded r.inner r'.inner ∧
        (∀ (order' : r'.Iteration) os' onDisk' content',
          r'.persist c order' os' onDisk' = (.ok (), some content') →
          load c path (.bytes content') r.subnetBase r.maxPeers = some (.ok r')) ∧
        ∀ ops : List Op, (∀ op ∈ ops, op.IsUpdate) →
          List.Forall₂ SameReply (outputs exec r ops) (outputs exec r' ops) := by
  rcases load_persisted hc hheld hpath hpersist with ⟨r', hload, hpath', hbase, hmax, hlookup⟩
  refine ⟨?_, r', hload, ?_, ?_, ?_⟩
  · intro rec hrec
    rcases List.mem_map.1 hrec with ⟨p, _, rfl⟩
    exact ⟨p.restored, intoPeer_fromPeer hc p⟩
  · intro k
    rw [hlookup]
    cases hk : r.inner.lookup k with
    | none => exact .none
    | some p => exact .some (reloaded_restored (htimes k p hk))
  · intro order' os' onDisk' content' hpersist'
    -- what was read back from a file has no fractions left to lose
    have hwhole : ∀ k p, r'.inner.lookup k = some p → p.restored = p := by
      intro k p hk
      rw [hlookup, Option.map_eq_some_iff] at hk
      rcases hk with ⟨q, _, rfl⟩
      exact q.restored_restored
    have hagain := load_persisted_eq hc (.load hload) (hpath'.trans hpath) hwhole hpersist'
    rwa [hbase, hmax] at hagain
  · intro ops hops
    exact Twins.bisimulation.outputs (twins_of_restored hbase hmax hlookup) hops

/-! ## A peer seen at half past a second -/

namespace Reference

/-- Half a second after `now`. -/
def late : SystemTime := ⟨1700000000500000000, by omega, by omega⟩

def latePeer : Peer := .fresh late key .mlKem768 session (.new 10 8 0 2)

/-- The registry with that peer, backed by a file. -/
def lateRegistry : Registry := (empty.store key latePeer).withPath "peers.json"

def lateOrder : lateRegistry.Iteration := ⟨[latePeer], rfl⟩

theorem held_lateRegistry : Held codecs lateRegistry := by
  have hload : load codecs "peers.json" .notFound ⟨[10, 8, 0, 0], rfl⟩ 64 =
      some (.ok (empty.withPath "peers.json")) := rfl
  have halloc : (empty.withPath "peers.json").allocIp = .ok (.new 10 8 0 2) := by decide
  have hupsert := upsertHandshake_new (r := empty.withPath "peers.json") late key .mlKem768 session
    rfl (by decide) halloc
  have hexec : ((empty.withPath "peers.json").exec
      (.upsertHandshake late key .mlKem768 session)).2 = lateRegistry := by
    simp only [exec, hupsert]
    rfl
  rw [← hexec]
  exact .exec (.load hload) _

theorem lookup_lateRegistry {k : Bytes 32} {p : Peer} (h : lateRegistry.inner.lookup k = some p) :
    p = latePeer := by
  change (empty.inner.insert key latePeer).lookup k = some p at h
  rw [Table.lookup_insert_eq] at h
  split at h
  · exact (Option.some.inj h).symm
  · simp [empty, Registry.new] at h

theorem afterEpoch_lateRegistry : lateRegistry.AfterEpoch := by
  intro k p hk
  rw [lookup_lateRegistry hk]
  decide

/-- The fraction does not reach the file. -/
theorem persist_lateRegistry :
    lateRegistry.persist codecs lateOrder ⟨.ok (), .ok ()⟩ none =
      (.ok (), some (asBytes fileText)) := by
  have hjson : codecs.toVecPretty file = .ok (asBytes fileText) := by
    simp [codecs, encodePinned]
  -- the file of the late peer is the file of the one seen on the second
  have hfile : lateRegistry.toFile codecs lateOrder = file := by decide
  simp only [persist, lateRegistry, withPath] at hfile ⊢
  rw [hfile, hjson]

end Reference

/-- The reloaded registry answers a removal with the same peer. -/
theorem late_peer_removed_alike :
    ∃ r', load Reference.codecs "peers.json" (.bytes (asBytes Reference.fileText))
        Reference.lateRegistry.subnetBase Reference.lateRegistry.maxPeers = some (.ok r') ∧
      List.Forall₂ SameReply (outputs exec Reference.lateRegistry [.remove Reference.key])
        (outputs exec r' [.remove Reference.key]) := by
  rcases reload_loses_fractions_only Reference.codecs_roundTrip Reference.held_lateRegistry rfl
    Reference.afterEpoch_lateRegistry Reference.persist_lateRegistry with
    ⟨_, r', hload, _, _, hreplies⟩
  refine ⟨r', hload, hreplies _ ?_⟩
  intro op hop timeout now
  rw [List.mem_singleton.1 hop]
  rintro ⟨⟩

/-- Yet not with the same record: its times have lost half a second. -/
theorem late_peer_loses_fraction :
    Held Reference.codecs Reference.lateRegistry ∧ Reference.lateRegistry.AfterEpoch ∧
      Reference.lateRegistry.persist Reference.codecs Reference.lateOrder ⟨.ok (), .ok ()⟩ none =
        (.ok (), some (asBytes Reference.fileText)) ∧
      ∃ r', load Reference.codecs "peers.json" (.bytes (asBytes Reference.fileText))
          Reference.lateRegistry.subnetBase Reference.lateRegistry.maxPeers = some (.ok r') ∧
        outputs exec Reference.lateRegistry [.remove Reference.key] ≠
          outputs exec r' [.remove Reference.key] := by
  rcases load_persisted Reference.codecs_roundTrip Reference.held_lateRegistry rfl
    Reference.persist_lateRegistry with ⟨r', hload, _, _, _, hlookup⟩
  refine ⟨Reference.held_lateRegistry, Reference.afterEpoch_lateRegistry,
    Reference.persist_lateRegistry, r', hload, ?_⟩
  intro hsame
  -- the reloaded registry hands out the truncated record
  have hpeer : (outputs exec r' [.remove Reference.key]) =
      [.removed (some Reference.latePeer.restored)] := by
    have hk : r'.inner.lookup Reference.key = some Reference.latePeer.restored := by
      rw [hlookup]
      rfl
    simp only [outputs_cons, outputs_nil, exec, remove, hk]
  rw [hpeer] at hsame
  have hpeers := Reply.removed.inj (List.cons.inj hsame).1
  exact absurd (congrArg (Option.map fun p => p.created.nanos) hpeers) (by decide)

end Registry
end PqcVpn
