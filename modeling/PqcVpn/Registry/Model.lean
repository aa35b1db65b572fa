import PqcVpn.Lib.Table
import PqcVpn.Wire.Message
import Mathlib.Data.Multiset.MapFold
import Mathlib.Data.Finset.Dedup

/-!
# Registry — what the server tracks for each peer

`server/handshake-server/src/registry.rs`, in memory: the map from WireGuard public keys to peers
and the operations a handler or the idle sweep performs under its mutex.  An operation returns its
result and the registry after it; a clock reading is an argument.  Counters are unbounded.
-/

namespace PqcVpn
namespace Registry

open Wire

def hostMin : Nat := 2
def hostMax : Nat := 254

/-- A /24 has room for hosts 2..=254. -/
def poolSize : Nat := hostMax - hostMin + 1

/-- `HOST_MIN..=HOST_MAX`, in order. -/
def hosts : List UInt8 := (List.range' hostMin poolSize).map UInt8.ofNat

theorem mem_hosts_iff {h : UInt8} : h ∈ hosts ↔ hostMin ≤ h.toNat ∧ h.toNat ≤ hostMax := by
  simp only [hosts, poolSize, hostMin, hostMax, List.mem_map, List.mem_range'_1]
  constructor
  · rintro ⟨n, hn, rfl⟩
    have hmod : (UInt8.ofNat n).toNat = n := by
      rw [UInt8.toNat_ofNat', Nat.mod_eq_of_lt (by omega)]
    omega
  · intro hh
    exact ⟨h.toNat, by omega, UInt8.ofNat_toNat⟩

structure Peer where
  wgPubkey : Bytes 32
  assignedIp : Ipv4Addr
  sessionId : Bytes 16
  algo : AlgoCode
  created : SystemTime
  lastActivity : SystemTime
  rekeys : Nat
  deriving DecidableEq

/-- What a completed handshake or rekey needs to build `ServerFinish` and call `wg set`. -/
structure PeerSlot where
  sessionId : Bytes 16
  assignedIp : Ipv4Addr
  deriving DecidableEq

def Peer.slot (p : Peer) : PeerSlot := { sessionId := p.sessionId, assignedIp := p.assignedIp }

@[simp] theorem Peer.slot_assignedIp (p : Peer) : p.slot.assignedIp = p.assignedIp := rfl

inductive RegistryError
  | atCapacity
  | unknownPeer
  | sessionMismatch
  | downgrade
  | addressPoolExhausted
  deriving DecidableEq, Repr

end Registry

open Registry Wire

/-- The peer registry.  `path` is the backing file, `inner` the map behind the mutex. -/
structure Registry where
  path : Option String
  subnetBase : Bytes 4
  maxPeers : Nat
  inner : Table (Bytes 32) Peer
  deriving DecidableEq

namespace Registry

/-- In-memory only. -/
def new (subnetBase : Bytes 4) (maxPeers : Nat) : Registry :=
  { path := none
    subnetBase := subnetBase
    maxPeers := min maxPeers poolSize
    inner := ∅ }

/-! ## Queries -/

def pubkeys (r : Registry) : Finset (Bytes 32) := r.inner.keys

def contains (r : Registry) (wgPubkey : Bytes 32) : Bool := decide (wgPubkey ∈ r.inner)

def len (r : Registry) : Nat := r.inner.keys.card

/-- Peers with no activity for longer than `timeout`, in no particular order. -/
def idlePeers (r : Registry) (timeout : Duration) (now : SystemTime) : Multiset (Bytes 32) :=
  ((Table.values r.inner).filter fun p => now.olderThan p.lastActivity timeout).map Peer.wgPubkey

/-! ## Operations -/

/-- The host octets in use. -/
def taken (r : Registry) : Finset UInt8 :=
  ((Table.values r.inner).map fun p => p.assignedIp.host).toFinset

/-- The address of a host in the registry's /24. -/
def addressOf (r : Registry) (host : UInt8) : Ipv4Addr :=
  .new (r.subnetBase.get 0) (r.subnetBase.get 1) (r.subnetBase.get 2) host

/-- The first free host. -/
def allocIp (r : Registry) : Except RegistryError Ipv4Addr :=
  match hosts.find? fun host => host ∉ r.taken with
  | some host => .ok (r.addressOf host)
  | none => .error .addressPoolExhausted

/-- The registry with `p` stored under `wgPubkey`. -/
def store (r : Registry) (wgPubkey : Bytes 32) (p : Peer) : Registry :=
  { r with inner := r.inner.insert wgPubkey p }

/-- A fresh `ClientHello`: a known peer gets a new session at the same address, an unknown one an
address of its own. -/
def upsertHandshake (r : Registry) (now : SystemTime) (wgPubkey : Bytes 32) (algo : AlgoCode)
    (sessionId : Bytes 16) : Except RegistryError PeerSlot × Registry :=
  match r.inner.lookup wgPubkey with
  | some p =>
      let p' := { p with sessionId := sessionId, algo := algo, lastActivity := now, rekeys := 0 }
      (.ok { sessionId := sessionId, assignedIp := p.assignedIp }, r.store wgPubkey p')
  | none =>
      if r.len ≥ r.maxPeers then
        (.error .atCapacity, r)
      else
        match r.allocIp with
        | .error e => (.error e, r)
        | .ok assignedIp =>
            let p : Peer :=
              { wgPubkey := wgPubkey
                assignedIp := assignedIp
                sessionId := sessionId
                algo := algo
                created := now
                lastActivity := now
                rekeys := 0 }
            (.ok { sessionId := sessionId, assignedIp := assignedIp }, r.store wgPubkey p)

/-- A `RekeyRequest`: the peer must exist, claim its current session and not weaken the algorithm. -/
def rekey (r : Registry) (now : SystemTime) (wgPubkey : Bytes 32) (claimedSessionId : Bytes 16)
    (algo : AlgoCode) : Except RegistryError PeerSlot × Registry :=
  match r.inner.lookup wgPubkey with
  | none => (.error .unknownPeer, r)
  | some p =>
      if p.sessionId ≠ claimedSessionId then
        (.error .sessionMismatch, r)
      else if algo < p.algo then
        (.error .downgrade, r)
      else
        -- the session and the address stay, and so does the time of creation
        let p' := { p with algo := algo, rekeys := p.rekeys + 1, lastActivity := now }
        (.ok { sessionId := p.sessionId, assignedIp := p.assignedIp }, r.store wgPubkey p')

def remove (r : Registry) (wgPubkey : Bytes 32) : Option Peer × Registry :=
  (r.inner.lookup wgPubkey, { r with inner := r.inner.erase wgPubkey })

def touch (r : Registry) (now : SystemTime) (wgPubkey : Bytes 32) : Registry :=
  match r.inner.lookup wgPubkey with
  | some p => r.store wgPubkey { p with lastActivity := now }
  | none => r

/-! ## What each operation does to the map -/

theorem mem_pubkeys_iff {r : Registry} {pk : Bytes 32} : pk ∈ r.pubkeys ↔ pk ∈ r.inner :=
  Finmap.mem_keys

@[simp] theorem inner_store (r : Registry) (pk : Bytes 32) (p : Peer) :
    (r.store pk p).inner = r.inner.insert pk p := rfl

/-- A fresh address lies in the registry's /24, on a host nobody uses. -/
theorem allocIp_ok {r : Registry} {ip : Ipv4Addr} (h : r.allocIp = .ok ip) :
    ∃ host, ip = r.addressOf host ∧ host ∈ hosts ∧ host ∉ r.taken := by
  unfold allocIp at h
  cases hfind : hosts.find? fun host => host ∉ r.taken with
  | none =>
      rw [hfind] at h
      cases h
  | some host =>
      rw [hfind] at h
      have hfree := List.find?_some hfind
      exact ⟨host, (Except.ok.inj h).symm, List.mem_of_find?_eq_some hfind, by simpa using hfree⟩

theorem mem_taken_iff {r : Registry} {host : UInt8} :
    host ∈ r.taken ↔ ∃ k p, r.inner.lookup k = some p ∧ p.assignedIp.host = host := by
  simp only [taken, Multiset.mem_toFinset, Multiset.mem_map, Table.mem_values_iff]
  constructor
  · rintro ⟨p, ⟨k, hk⟩, hp⟩
    exact ⟨k, p, hk, hp⟩
  · rintro ⟨k, p, hk, hp⟩
    exact ⟨p, ⟨k, hk⟩, hp⟩

theorem mem_idlePeers_iff {r : Registry} {timeout : Duration} {now : SystemTime} {pk : Bytes 32} :
    pk ∈ r.idlePeers timeout now ↔
      ∃ k p, r.inner.lookup k = some p ∧ p.wgPubkey = pk ∧
        p.lastActivity.nanos + timeout < now.nanos := by
  simp only [idlePeers, Multiset.mem_map, Multiset.mem_filter, Table.mem_values_iff,
    SystemTime.olderThan_iff]
  constructor
  · rintro ⟨p, ⟨⟨k, hk⟩, hold⟩, hpk⟩
    exact ⟨k, p, hk, hpk, hold⟩
  · rintro ⟨k, p, hk, hpk, hold⟩
    exact ⟨p, ⟨⟨k, hk⟩, hold⟩, hpk⟩

/-- The record a fresh handshake leaves for a peer that is already registered. -/
def Peer.reconnected (p : Peer) (now : SystemTime) (algo : AlgoCode) (sessionId : Bytes 16) :
    Peer :=
  { p with sessionId := sessionId, algo := algo, lastActivity := now, rekeys := 0 }

/-- The record of a peer that was not registered before. -/
def Peer.fresh (now : SystemTime) (wgPubkey : Bytes 32) (algo : AlgoCode) (sessionId : Bytes 16)
    (assignedIp : Ipv4Addr) : Peer :=
  { wgPubkey := wgPubkey
    assignedIp := assignedIp
    sessionId := sessionId
    algo := algo
    created := now
    lastActivity := now
    rekeys := 0 }

/-- The record a rekey leaves. -/
def Peer.rekeyed (p : Peer) (now : SystemTime) (algo : AlgoCode) : Peer :=
  { p with algo := algo, rekeys := p.rekeys + 1, lastActivity := now }

theorem upsertHandshake_new {r : Registry} (now : SystemTime) (pk : Bytes 32) (algo : AlgoCode)
    (sid : Bytes 16) {ip : Ipv4Addr} (hnone : r.inner.lookup pk = none) (hcap : r.len < r.maxPeers)
    (halloc : r.allocIp = .ok ip) :
    r.upsertHandshake now pk algo sid =
      (.ok (Peer.fresh now pk algo sid ip).slot, r.store pk (Peer.fresh now pk algo sid ip)) := by
  have hroom : ¬ r.len ≥ r.maxPeers := by omega
  simp only [upsertHandshake, hnone, hroom, halloc, ite_false]
  rfl

theorem upsertHandshake_cases (r : Registry) (now : SystemTime) (pk : Bytes 32) (algo : AlgoCode)
    (sid : Bytes 16) :
    (∃ p, r.inner.lookup pk = some p ∧
      r.upsertHandshake now pk algo sid =
        (.ok (p.reconnected now algo sid).slot, r.store pk (p.reconnected now algo sid))) ∨
    (∃ ip, r.inner.lookup pk = none ∧ r.len < r.maxPeers ∧ r.allocIp = .ok ip ∧
      r.upsertHandshake now pk algo sid =
        (.ok (Peer.fresh now pk algo sid ip).slot, r.store pk (Peer.fresh now pk algo sid ip))) ∨
    (∃ e, r.inner.lookup pk = none ∧ r.upsertHandshake now pk algo sid = (.error e, r)) := by
  unfold upsertHandshake
  -- the branches of the source: a known peer, a full registry, a new address or none left
  cases hlookup : r.inner.lookup pk with
  | some p => exact .inl ⟨p, rfl, rfl⟩
  | none =>
      by_cases hcap : r.len ≥ r.maxPeers
      · exact .inr (.inr ⟨.atCapacity, rfl, by simp [hcap]⟩)
      · cases halloc : r.allocIp with
        | error e => exact .inr (.inr ⟨e, rfl, by simp [hcap]⟩)
        | ok ip =>
            have hroom : r.len < r.maxPeers := by omega
            have h := upsertHandshake_new now pk algo sid hlookup hroom halloc
            simp only [upsertHandshake, hlookup, halloc] at h
            exact .inr (.inl ⟨ip, rfl, hroom, rfl, h⟩)

/-- What a handshake returns is the slot of the peer it stored. -/
theorem upsertHandshake_stores {r : Registry} {now : SystemTime} {pk : Bytes 32} {algo : AlgoCode}
    {sid : Bytes 16} {slot : PeerSlot} (h : (r.upsertHandshake now pk algo sid).1 = .ok slot) :
    ∃ p : Peer, p.slot = slot ∧ p.sessionId = sid ∧ p.algo = algo ∧ p.rekeys = 0 ∧
      (r.upsertHandshake now pk algo sid).2 = r.store pk p := by
  rcases upsertHandshake_cases r now pk algo sid with ⟨p, _, hr⟩ | ⟨ip, _, _, _, hr⟩ | ⟨e, _, hr⟩
  · rw [hr] at h ⊢
    exact ⟨_, Except.ok.inj h, rfl, rfl, rfl, rfl⟩
  · rw [hr] at h ⊢
    exact ⟨_, Except.ok.inj h, rfl, rfl, rfl, rfl⟩
  · rw [hr] at h
    cases h

theorem rekey_cases (r : Registry) (now : SystemTime) (pk : Bytes 32) (claimed : Bytes 16)
    (algo : AlgoCode) :
    (∃ p, r.inner.lookup pk = some p ∧ p.sessionId = claimed ∧ p.algo ≤ algo ∧
      r.rekey now pk claimed algo = (.ok (p.rekeyed now algo).slot, r.store pk (p.rekeyed now algo))) ∨
    (∃ e, (∀ p, r.inner.lookup pk = some p → p.sessionId = claimed → ¬ p.algo ≤ algo) ∧
      r.rekey now pk claimed algo = (.error e, r)) := by
  unfold rekey
  cases hlookup : r.inner.lookup pk with
  | none => exact .inr ⟨.unknownPeer, by simp, rfl⟩
  | some p =>
      by_cases hsid : p.sessionId = claimed
      · by_cases hdown : algo < p.algo
        · exact .inr ⟨.downgrade, by rintro _ ⟨⟩ _; exact not_le.2 hdown, by simp [hsid, hdown]⟩
        · refine .inl ⟨p, rfl, hsid, not_lt.1 hdown, ?_⟩
          simp only [hsid, hdown, ne_eq, not_true_eq_false, ite_false]
          rw [← hsid]
          rfl
      · exact .inr ⟨.sessionMismatch, by rintro _ ⟨⟩ h; exact absurd h hsid, by simp [hsid]⟩

theorem inner_touch (r : Registry) (now : SystemTime) (pk : Bytes 32) :
    (r.touch now pk).inner =
      match r.inner.lookup pk with
      | some p => r.inner.insert pk { p with lastActivity := now }
      | none => r.inner := by
  unfold touch
  cases r.inner.lookup pk <;> rfl

/-- Touching a peer neither registers nor removes anyone. -/
theorem mem_touch_iff {r : Registry} {now : SystemTime} {pk k : Bytes 32} :
    k ∈ (r.touch now pk).inner ↔ k ∈ r.inner := by
  rw [inner_touch]
  cases hp : r.inner.lookup pk with
  | none => rfl
  | some p =>
      have hmem : pk ∈ r.inner := Finmap.mem_of_lookup_eq_some hp
      rw [Finmap.mem_insert]
      constructor
      · rintro (rfl | hk)
        · exact hmem
        · exact hk
      · exact .inr

end Registry
end PqcVpn
