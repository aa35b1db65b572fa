import Mathlib.Order.Bounds.Basic
import PqcVpn.Lib.Lease
import PqcVpn.Registry.Reference

/-!
# Capacity — room for one more peer

`new` and `load` cap `max_peers` at the number of hosts in the /24, so a registry below its capacity
always has an address left, whatever addresses its peers hold.
-/

namespace PqcVpn
namespace Registry

open Wire

/-- The registries a server holds: what `new` or `load` returned, after any operations. -/
inductive Held (c : TextCodecs) : Registry → Prop
  | new (subnetBase : Bytes 4) (maxPeers : Nat) : Held c (.new subnetBase maxPeers)
  | load {path : String} {file : FileRead} {subnetBase : Bytes 4} {maxPeers : Nat} {r : Registry}
      (h : load c path file subnetBase maxPeers = some (.ok r)) : Held c r
  | exec {r : Registry} (h : Held c r) (op : Op) : Held c (r.exec op).2

/-! ## The cap -/

theorem Held.maxPeers_le {c : TextCodecs} {r : Registry} (h : Held c r) :
    r.maxPeers ≤ poolSize := by
  induction h with
  | new subnetBase maxPeers => exact min_le_right maxPeers poolSize
  | load h =>
      rw [(load_ok h).2.2]
      exact min_le_right _ poolSize
  | exec _ op ih =>
      rw [maxPeers_exec]
      exact ih

theorem Held.keyed {c : TextCodecs} {r : Registry} (h : Held c r) : r.Keyed := by
  induction h with
  | new subnetBase maxPeers =>
      intro k p hk
      simp [Registry.new] at hk
  | load hload => exact keyed_of_load hload
  | exec _ op ih => exact ih.exec op

/-! ## A free host -/

theorem nodup_hosts : hosts.Nodup := by
  refine (List.nodup_range' (s := hostMin) (n := poolSize)).map_on ?_
  intro m hm n hn h
  rw [List.mem_range'_1] at hm hn
  have hval := congrArg UInt8.toNat h
  simp only [hostMin, poolSize, hostMax] at hm hn
  simpa [UInt8.toNat_ofNat', Nat.mod_eq_of_lt (show m < 256 by omega),
    Nat.mod_eq_of_lt (show n < 256 by omega)] using hval

theorem card_hosts : hosts.toFinset.card = poolSize := by
  rw [List.toFinset_card_of_nodup nodup_hosts, hosts, List.length_map, List.length_range']

theorem card_taken_le (r : Registry) : r.taken.card ≤ r.len := by
  calc
    r.taken.card
        ≤ ((Table.values r.inner).map fun p => p.assignedIp.host).card :=
          Multiset.toFinset_card_le _
    _ = (Table.values r.inner).card := Multiset.card_map _ _
    _ = r.len := Table.card_values r.inner

/-- Fewer peers than hosts leave a host free. -/
theorem allocIp_of_room {r : Registry} (h : r.len < poolSize) : ∃ ip, r.allocIp = .ok ip := by
  have hcard : r.taken.card < hosts.toFinset.card := by
    calc
      r.taken.card ≤ r.len := card_taken_le r
      _ < poolSize := h
      _ = hosts.toFinset.card := card_hosts.symm
  rcases Finset.exists_mem_notMem_of_card_lt_card hcard with ⟨host, hmem, hfree⟩
  unfold allocIp
  cases hfind : hosts.find? fun host => host ∉ r.taken with
  | some host => exact ⟨_, rfl⟩
  | none =>
      have hnone := List.find?_eq_none.1 hfind host (List.mem_toFinset.1 hmem)
      simp [hfree] at hnone

/-- A fresh handshake of a known peer, or below capacity, is accepted. -/
theorem upsertHandshake_of_room {c : TextCodecs} {r : Registry} (hheld : Held c r) {pk : Bytes 32}
    (hroom : pk ∈ r.inner ∨ r.len < r.maxPeers) (now : SystemTime) (algo : AlgoCode)
    (sid : Bytes 16) :
    ∃ q : Peer, q.sessionId = sid ∧ q.algo = algo ∧
      r.upsertHandshake now pk algo sid = (.ok q.slot, r.store pk q) := by
  rcases upsertHandshake_cases r now pk algo sid with
    ⟨p, _, h⟩ | ⟨ip, _, _, _, h⟩ | ⟨e, hnone, h⟩
  · exact ⟨_, rfl, rfl, h⟩
  · exact ⟨_, rfl, rfl, h⟩
  · -- neither reason to refuse a new peer applies
    have hcap : r.len < r.maxPeers := by
      refine hroom.resolve_left fun hmem => ?_
      rcases Finmap.mem_iff.1 hmem with ⟨p, hp⟩
      simp [hnone] at hp
    rcases allocIp_of_room (hcap.trans_le hheld.maxPeers_le) with ⟨ip, halloc⟩
    exact ⟨_, rfl, rfl, upsertHandshake_new now pk algo sid hnone hcap halloc⟩

/-! ## The least free host -/

/-- A registry that `new` or `load` returned under this configuration, after any operations. -/
inductive Configured (c : TextCodecs) (subnetBase : Bytes 4) (maxPeers : Nat) : Registry → Prop
  | new : Configured c subnetBase maxPeers (.new subnetBase maxPeers)
  | load {path : String} {file : FileRead} {r : Registry}
      (h : load c path file subnetBase maxPeers = some (.ok r)) : Configured c subnetBase maxPeers r
  | exec {r : Registry} (h : Configured c subnetBase maxPeers r) (op : Op) :
      Configured c subnetBase maxPeers (r.exec op).2

theorem Configured.held {c : TextCodecs} {subnetBase : Bytes 4} {maxPeers : Nat} {r : Registry}
    (h : Configured c subnetBase maxPeers r) : Held c r := by
  induction h with
  | new => exact .new subnetBase maxPeers
  | load h => exact .load h
  | exec _ op ih => exact ih.exec op

theorem Configured.fields {c : TextCodecs} {subnetBase : Bytes 4} {maxPeers : Nat} {r : Registry}
    (h : Configured c subnetBase maxPeers r) :
    r.subnetBase = subnetBase ∧ r.maxPeers = min maxPeers poolSize := by
  induction h with
  | new => exact ⟨rfl, rfl⟩
  | load h => exact (load_ok h).2
  | exec _ op ih =>
      rw [subnetBase_exec, maxPeers_exec]
      exact ih

/-- A host of the pool that is no registered peer's last octet. -/
def FreeHost (r : Registry) (n : Nat) : Prop :=
  hostMin ≤ n ∧ n ≤ hostMax ∧ ∀ k p, r.inner.lookup k = some p → p.assignedIp.host.toNat ≠ n

theorem freeHost_toNat_iff {r : Registry} {host : UInt8} :
    r.FreeHost host.toNat ↔ host ∈ hosts ∧ host ∉ r.taken := by
  unfold FreeHost
  rw [mem_hosts_iff, mem_taken_iff, and_assoc]
  refine and_congr_right fun _ => and_congr_right fun _ => ?_
  push Not
  exact forall₂_congr fun k p => imp_congr_right fun _ => not_congr UInt8.toNat_inj

theorem sorted_hosts : hosts.Pairwise fun x y => x.toNat ≤ y.toNat := by
  have hrange : (List.range' hostMin poolSize).Pairwise (· < ·) := List.pairwise_lt_range'
  refine List.pairwise_map.2 (hrange.imp_of_mem ?_)
  intro m n hm hn hlt
  rw [List.mem_range'_1] at hm hn
  simp only [hostMin, poolSize, hostMax] at hm hn
  -- the pool stays below 256, so its bytes are in the order of their numbers
  rw [UInt8.toNat_ofNat', UInt8.toNat_ofNat', Nat.mod_eq_of_lt (by omega),
    Nat.mod_eq_of_lt (by omega)]
  exact hlt.le

/-- `alloc_ip` picks the least free host. -/
theorem isLeast_of_allocIp {r : Registry} {ip : Ipv4Addr} (h : r.allocIp = .ok ip) :
    ∃ host : UInt8, ip = r.addressOf host ∧ IsLeast {n | r.FreeHost n} host.toNat := by
  unfold allocIp at h
  cases hfind : hosts.find? fun host => host ∉ r.taken with
  | none =>
      rw [hfind] at h
      cases h
  | some host =>
      rw [hfind] at h
      have hfree : host ∉ r.taken := by simpa using List.find?_some hfind
      refine ⟨host, (Except.ok.inj h).symm,
        freeHost_toNat_iff.2 ⟨List.mem_of_find?_eq_some hfind, hfree⟩, ?_⟩
      intro n hn
      -- a free host is at most 254, hence a byte, and the search passed no smaller one
      have hbyte : (UInt8.ofNat n).toNat = n := by
        have hmax : hostMax = 254 := rfl
        rw [UInt8.toNat_ofNat', Nat.mod_eq_of_lt]
        have := hn.2.1
        omega
      have hother := freeHost_toNat_iff.1 (show r.FreeHost (UInt8.ofNat n).toNat by rwa [hbyte])
      have hle := Leases.le_of_find? sorted_hosts hfind hother.1 (by simpa using hother.2)
      rwa [hbyte] at hle

/-- A fresh handshake never runs out of addresses: a known peer keeps its own, and a new one gets
the least free host unless the registry is at capacity.  The address returned is that of the peer
now stored. -/
theorem upsertHandshake_never_exhausted {c : TextCodecs} {subnetBase : Bytes 4} {maxPeers : Nat}
    {r : Registry} (h : Configured c subnetBase maxPeers r) (now : SystemTime) (pk : Bytes 32)
    (algo : AlgoCode) (sid : Bytes 16) :
    let result := (r.upsertHandshake now pk algo sid).1
    result ≠ .error .addressPoolExhausted ∧
      (pk ∉ r.inner →
        (result = .error .atCapacity ↔ min maxPeers poolSize ≤ r.len) ∧
        (r.len < min maxPeers poolSize → ∃ host : UInt8, IsLeast {n | r.FreeHost n} host.toNat ∧
          result = .ok
            { sessionId := sid
              assignedIp := .new (subnetBase.get 0) (subnetBase.get 1) (subnetBase.get 2) host })) ∧
      (∀ p, r.inner.lookup pk = some p →
        result = .ok { sessionId := sid, assignedIp := p.assignedIp }) ∧
      ∀ slot, result = .ok slot → ∃ p : Peer, p.slot = slot ∧
        (r.upsertHandshake now pk algo sid).2 = r.store pk p := by
  intro result
  rcases h.fields with ⟨hbase, hmax⟩
  -- the three cases of the source: a known peer, a full registry, room for one more
  have hknown : ∀ p, r.inner.lookup pk = some p →
      result = .ok { sessionId := sid, assignedIp := p.assignedIp } := by
    intro p hp
    simp only [result, upsertHandshake, hp]
  have hfull : r.inner.lookup pk = none → r.maxPeers ≤ r.len → result = .error .atCapacity := by
    intro hnone hcap
    simp only [result, upsertHandshake, hnone, if_pos hcap]
  have hroom : r.inner.lookup pk = none → r.len < r.maxPeers →
      ∃ host : UInt8, IsLeast {n | r.FreeHost n} host.toNat ∧
        result = .ok { sessionId := sid, assignedIp := r.addressOf host } := by
    intro hnone hcap
    rcases allocIp_of_room (hcap.trans_le h.held.maxPeers_le) with ⟨ip, halloc⟩
    rcases isLeast_of_allocIp halloc with ⟨host, rfl, hleast⟩
    refine ⟨host, hleast, ?_⟩
    simp only [result, upsertHandshake_new now pk algo sid hnone hcap halloc]
    rfl
  have hstored : ∀ slot, result = .ok slot → ∃ p : Peer, p.slot = slot ∧
      (r.upsertHandshake now pk algo sid).2 = r.store pk p := by
    intro slot hslot
    rcases upsertHandshake_stores hslot with ⟨p, hpslot, _, _, _, hstore⟩
    exact ⟨p, hpslot, hstore⟩
  refine ⟨?_, ?_, hknown, hstored⟩
  · -- each of the three cases has another result
    cases hlookup : r.inner.lookup pk with
    | some p => simp [hknown p hlookup]
    | none =>
        rcases Nat.lt_or_ge r.len r.maxPeers with hcap | hcap
        · rcases hroom hlookup hcap with ⟨host, _, hresult⟩
          simp [hresult]
        · simp [hfull hlookup hcap]
  · intro hnew
    have hnone : r.inner.lookup pk = none := Finmap.lookup_eq_none.2 hnew
    rw [← hmax]
    refine ⟨⟨fun hresult => ?_, hfull hnone⟩, fun hcap => ?_⟩
    · by_contra hcap
      rcases hroom hnone (not_le.1 hcap) with ⟨host, _, hok⟩
      rw [hok] at hresult
      cases hresult
    · rcases hroom hnone hcap with ⟨host, hleast, hok⟩
      rw [addressOf, hbase] at hok
      exact ⟨host, hleast, hok⟩

/-- The first peer of a server gets the least host of its pool, and is stored with it. -/
theorem first_peer_gets_least_host :
    ∃ (host : UInt8) (p : Peer), IsLeast {n | Reference.empty.FreeHost n} host.toNat ∧
      (Reference.empty.upsertHandshake Reference.now Reference.key .mlKem768 Reference.session).1 =
        .ok { sessionId := Reference.session, assignedIp := .new 10 8 0 host } ∧
      p.assignedIp = .new 10 8 0 host ∧
      (Reference.empty.upsertHandshake Reference.now Reference.key .mlKem768 Reference.session).2 =
        Reference.empty.store Reference.key p := by
  have hconfigured : Configured Reference.codecs ⟨[10, 8, 0, 0], rfl⟩ 64 Reference.empty := .new
  obtain ⟨_, hnew, _, hstored⟩ := upsertHandshake_never_exhausted hconfigured Reference.now
    Reference.key .mlKem768 Reference.session
  obtain ⟨host, hleast, hresult⟩ := (hnew (Finmap.notMem_empty)).2 (by decide)
  obtain ⟨p, hslot, hstore⟩ := hstored _ hresult
  exact ⟨host, p, hleast, hresult, congrArg PeerSlot.assignedIp hslot, hstore⟩

end Registry
end PqcVpn
