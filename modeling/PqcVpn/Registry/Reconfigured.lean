import PqcVpn.Registry.Addresses
import PqcVpn.Registry.Capacity

/-!
# Reconfigured — a peers file under another configuration

`subnet_base` and `max_peers` come from the command line, the peers from the file.  The file keeps
whole addresses, and a peer keeps its address for as long as it is registered: `load` does not
compare the file with the subnet, and only `alloc_ip` reads `subnet_base`.

What every configuration shares is the last octet, and `alloc_ip` looks for one that no peer has,
in whatever network.
-/

namespace PqcVpn
namespace Registry

open Wire

variable {c : TextCodecs}

/-! ## Where an address comes from -/

theorem addressAt_remove (r : Registry) (pk : Bytes 32) :
    (r.exec (.remove pk)).2.addressAt pk = none := by
  simp [addressAt, exec, remove]

/-- An address held after an operation was held before it or is a fresh one of the subnet. -/
theorem origin_exec {r : Registry} {op : Op} {pk : Bytes 32} {ip : Ipv4Addr}
    (h : (r.exec op).2.addressAt pk = some ip) :
    (r.addressAt pk = some ip ∧ op ≠ .remove pk) ∨ InPool r.subnetBase ip := by
  have hop : op ≠ .remove pk := by
    rintro rfl
    simp [addressAt_remove] at h
  -- an address is kept, granted from the pool, or gone with its peer
  cases exec_address r op with
  | kept hkept =>
      rw [hkept] at h
      exact .inl ⟨h, hop⟩
  | granted pk' ip' _ halloc hafter =>
      rw [hafter] at h
      split at h
      · cases h
        exact .inr (inPool_of_allocIp halloc)
      · exact .inl ⟨h, hop⟩
  | released pk' _ hafter =>
      rw [hafter] at h
      split at h
      · cases h
      · exact .inl ⟨h, hop⟩

theorem subnetBase_run (r : Registry) (ops : List Op) : (r.run ops).subnetBase = r.subnetBase := by
  induction ops generalizing r with
  | nil => rfl
  | cons op ops ih =>
      rw [run_cons, ih, subnetBase_exec]

/-- An address held after a run was there from the start, its holder never removed, or is a fresh
one of the subnet. -/
theorem origin_run {r : Registry} {ops : List Op} {pk : Bytes 32} {ip : Ipv4Addr}
    (h : (r.run ops).addressAt pk = some ip) :
    (r.addressAt pk = some ip ∧ .remove pk ∉ ops) ∨ InPool r.subnetBase ip := by
  induction ops generalizing r with
  | nil => exact .inl ⟨h, List.not_mem_nil⟩
  | cons op ops ih =>
      rcases ih h with ⟨hheld, hops⟩ | hpool
      · rcases origin_exec hheld with ⟨hbefore, hop⟩ | hpool
        · refine .inl ⟨hbefore, ?_⟩
          rw [List.mem_cons, not_or]
          exact ⟨hop.symm, hops⟩
        · exact .inr hpool
      · rw [subnetBase_exec] at hpool
        exact .inr hpool

/-- An address is kept until its holder is removed. -/
theorem addressAt_exec_of_ne_remove {r : Registry} {op : Op} {pk : Bytes 32} {ip : Ipv4Addr}
    (hop : op ≠ .remove pk) (h : r.addressAt pk = some ip) :
    (r.exec op).2.addressAt pk = some ip := by
  cases exec_address r op with
  | kept hkept =>
      rw [hkept, h]
  | granted pk' ip' hnone _ hafter =>
      have hne : pk ≠ pk' := by
        rintro rfl
        simp [h] at hnone
      rw [hafter, if_neg hne, h]
  | released pk' hremove hafter =>
      have hne : pk ≠ pk' := by
        rintro rfl
        exact hop hremove
      rw [hafter, if_neg hne, h]

theorem addressAt_run_of_notMem_remove {r : Registry} {ops : List Op} {pk : Bytes 32}
    {ip : Ipv4Addr} (hops : .remove pk ∉ ops) (h : r.addressAt pk = some ip) :
    (r.run ops).addressAt pk = some ip := by
  induction ops generalizing r with
  | nil => exact h
  | cons op ops ih =>
      rw [List.mem_cons, not_or] at hops
      exact ih hops.2 (addressAt_exec_of_ne_remove (Ne.symm hops.1) h)

/-! ## The address an operation returns -/

/-- What `upsert_handshake` or `rekey` returns is what it stores. -/
theorem addressAt_exec_of_slot {r : Registry} {op : Op} {pk : Bytes 32} {slot : PeerSlot}
    (hkey : op.key = some pk) (hreply : (r.exec op).1 = .slot (.ok slot)) :
    (r.exec op).2.addressAt pk = some slot.assignedIp := by
  cases op with
  | upsertHandshake now pk' algo sid =>
      cases hkey
      -- a refusal carries no slot
      rcases upsertHandshake_cases r now pk algo sid with
        ⟨p, _, h⟩ | ⟨ip, _, _, _, h⟩ | ⟨e, _, h⟩
      all_goals simp only [exec, h] at hreply ⊢
      all_goals cases hreply
      all_goals simp [addressAt]
  | rekey now pk' claimed algo =>
      cases hkey
      rcases rekey_cases r now pk claimed algo with ⟨p, _, _, _, h⟩ | ⟨e, _, h⟩
      all_goals simp only [exec, h] at hreply ⊢
      all_goals cases hreply
      all_goals simp [addressAt]
  | touch now pk' => cases hreply
  | remove pk' => cases hreply
  | idlePeers timeout now => cases hreply
  | persist => cases hreply

/-- A fresh handshake of a registered peer returns the address it has. -/
theorem upsertHandshake_of_addressAt {r : Registry} {pk : Bytes 32} {ip : Ipv4Addr}
    (h : r.addressAt pk = some ip) (now : SystemTime) (algo : AlgoCode) (sid : Bytes 16) :
    (r.exec (.upsertHandshake now pk algo sid)).1 =
      .slot (.ok { sessionId := sid, assignedIp := ip }) := by
  rcases addressAt_eq_some_iff.1 h with ⟨p, hp, rfl⟩
  simp only [exec, upsertHandshake, hp]

/-- After `ops`, a call for `pk` returns the address. -/
def Returns (r : Registry) (ops : List Op) (pk : Bytes 32) (ip : Ipv4Addr) : Prop :=
  ∃ op slot, op.key = some pk ∧ ((r.run ops).exec op).1 = .slot (.ok slot) ∧ slot.assignedIp = ip

theorem Returns.origin {r : Registry} {ops : List Op} {pk : Bytes 32} {ip : Ipv4Addr}
    (h : r.Returns ops pk ip) :
    (r.addressAt pk = some ip ∧ .remove pk ∉ ops) ∨ InPool r.subnetBase ip := by
  rcases h with ⟨op, slot, hkey, hreply, rfl⟩
  rcases origin_exec (addressAt_exec_of_slot hkey hreply) with ⟨hbefore, _⟩ | hpool
  · exact origin_run hbefore
  · rw [subnetBase_run] at hpool
    exact .inr hpool

/-- A peer that was there from the start is given the address it had. -/
theorem Returns.eq_of_addressAt {r : Registry} {ops : List Op} {pk : Bytes 32} {ip ip' : Ipv4Addr}
    (h : r.Returns ops pk ip) (hip : r.addressAt pk = some ip') (hops : .remove pk ∉ ops) :
    ip = ip' := by
  rcases h with ⟨op, slot, hkey, hreply, rfl⟩
  have hop : op ≠ .remove pk := by
    rintro rfl
    cases hreply
  have hkept := addressAt_exec_of_ne_remove hop (addressAt_run_of_notMem_remove hops hip)
  rw [addressAt_exec_of_slot hkey hreply] at hkept
  exact Option.some.inj hkept

theorem returns_of_addressAt {r : Registry} {pk : Bytes 32} {ip : Ipv4Addr}
    (h : r.addressAt pk = some ip) (now : SystemTime) (algo : AlgoCode) (sid : Bytes 16) :
    r.Returns [] pk ip :=
  ⟨.upsertHandshake now pk algo sid, _, rfl, upsertHandshake_of_addressAt h now algo sid, rfl⟩

/-! ## Files written by `persist` -/

/-- `content` is what a `persist` of the registry leaves in its file. -/
def Writes (c : TextCodecs) (r : Registry) (content : List UInt8) : Prop :=
  r.path ≠ none ∧ ∃ (order : r.Iteration) (os : PersistIo) (onDisk : Option (List UInt8)),
    r.persist c order os onDisk = (.ok (), some content)

/-- A restart under any configuration loads the addresses that were written. -/
theorem load_of_writes (hc : c.RoundTrip) {w : Registry} (hkeyed : w.Keyed) {content : List UInt8}
    (hwrites : w.Writes c content) (path : String) (subnetBase : Bytes 4) (maxPeers : Nat) :
    ∃ r, load c path (.bytes content) subnetBase maxPeers = some (.ok r) ∧
      r.subnetBase = subnetBase ∧ ∀ k, r.addressAt k = w.addressAt k := by
  rcases hwrites with ⟨hpath, order, os, onDisk, hpersist⟩
  rcases Option.ne_none_iff_exists'.1 hpath with ⟨path', hpath'⟩
  rcases persist_eq_ok hpath' hpersist with ⟨content', hcontent, hjson⟩
  cases hcontent
  rcases load_toFile hc hkeyed order hjson path subnetBase maxPeers with
    ⟨r, hload, _, hbase, _, hlookup⟩
  refine ⟨r, hload, hbase, fun k => ?_⟩
  simp only [addressAt, hlookup, Option.map_map]
  rfl

/-- The registries of a server that began without a peers file and was restarted any number of
times, each time on a file that `persist` wrote and under a configuration of its own. -/
inductive Deployed (c : TextCodecs) : Registry → Prop
  | start {path : String} {subnetBase : Bytes 4} {maxPeers : Nat} {r : Registry}
      (h : load c path .notFound subnetBase maxPeers = some (.ok r)) : Deployed c r
  | exec {r : Registry} (h : Deployed c r) (op : Op) : Deployed c (r.exec op).2
  | restart {w r : Registry} {content : List UInt8} {path : String} {subnetBase : Bytes 4}
      {maxPeers : Nat} (h : Deployed c w) (hwrites : w.Writes c content)
      (hload : load c path (.bytes content) subnetBase maxPeers = some (.ok r)) : Deployed c r

theorem Deployed.held {r : Registry} (h : Deployed c r) : Held c r := by
  induction h with
  | start hload => exact .load hload
  | exec _ op ih => exact ih.exec op
  | restart _ _ hload _ => exact .load hload

/-! ## Hosts -/

/-- What the addresses of a registry have in common, whatever networks they are from. -/
structure HostInvariant (r : Registry) : Prop where
  host_mem : ∀ {k ip}, r.addressAt k = some ip → ip.host ∈ hosts
  distinct : ∀ {j k ip ip'}, r.addressAt j = some ip → r.addressAt k = some ip' →
    ip.host = ip'.host → j = k

theorem HostInvariant.of_addressAt {r r' : Registry} (h : HostInvariant r)
    (hkept : ∀ k, r'.addressAt k = r.addressAt k) : HostInvariant r' where
  host_mem := by
    intro k ip hk
    exact h.host_mem ((hkept k).symm.trans hk)
  distinct := by
    intro j k ip ip' hj hk
    exact h.distinct ((hkept j).symm.trans hj) ((hkept k).symm.trans hk)

theorem hostInvariant_of_empty {r : Registry} (h : r.inner = ∅) : HostInvariant r where
  host_mem := by
    intro k ip hk
    simp [addressAt, h] at hk
  distinct := by
    intro j k ip ip' hj
    simp [addressAt, h] at hj

/-- `alloc_ip` takes a host of the pool that no peer has, in any network. -/
theorem host_of_allocIp {r : Registry} {ip : Ipv4Addr} (h : r.allocIp = .ok ip) :
    ip.host ∈ hosts ∧ ∀ {k ip'}, r.addressAt k = some ip' → ip'.host ≠ ip.host := by
  rcases allocIp_ok h with ⟨host, rfl, hmem, hfree⟩
  refine ⟨hmem, ?_⟩
  intro k ip' hk hhost
  rcases addressAt_eq_some_iff.1 hk with ⟨p, hp, rfl⟩
  exact hfree (mem_taken_iff.2 ⟨k, p, hp, hhost⟩)

theorem HostInvariant.exec {r : Registry} (h : HostInvariant r) (op : Op) :
    HostInvariant (r.exec op).2 := by
  cases exec_address r op with
  | kept hkept => exact h.of_addressAt hkept
  | granted pk ip _ halloc hafter =>
      rcases host_of_allocIp halloc with ⟨hmem, hfree⟩
      refine ⟨?_, ?_⟩
      · intro k ip' hk
        rw [hafter] at hk
        split at hk
        · cases hk
          exact hmem
        · exact h.host_mem hk
      · intro j k a b hj hk hhost
        rw [hafter] at hj hk
        -- a clash can only be between the new host and an old one
        split at hj <;> split at hk
        · rename_i hjpk hkpk
          exact hjpk.trans hkpk.symm
        · cases hj
          exact absurd hhost.symm (hfree hk)
        · cases hk
          exact absurd hhost (hfree hj)
        · exact h.distinct hj hk hhost
  | released pk _ hafter =>
      have hsub : ∀ {k ip}, (r.exec op).2.addressAt k = some ip → r.addressAt k = some ip := by
        intro k ip hk
        rw [hafter] at hk
        split at hk
        · cases hk
        · exact hk
      exact ⟨fun hk => h.host_mem (hsub hk), fun hj hk => h.distinct (hsub hj) (hsub hk)⟩

/-- Through every change of configuration, the hosts are in the pool and no two peers share one. -/
theorem Deployed.hostInvariant (hc : c.RoundTrip) {r : Registry} (h : Deployed c r) :
    HostInvariant r := by
  induction h with
  | @start path subnetBase maxPeers r hload =>
      exact hostInvariant_of_empty (Initial.inner_eq ⟨maxPeers, .inr ⟨path, hload⟩⟩).1
  | exec _ op ih => exact ih.exec op
  | @restart w r content path subnetBase maxPeers hw hwrites hload ih =>
      rcases load_of_writes hc hw.held.keyed hwrites path subnetBase maxPeers with
        ⟨r', hload', _, haddress⟩
      rw [hload] at hload'
      cases hload'
      exact ih.of_addressAt haddress

/-! ## Restarts under another configuration -/

/-- After a restart on a written file, under any subnet and capacity, a recorded peer that was not
removed since is given its recorded address, and anyone else a host 2..=254 of the configured /24.
So all addresses are in the configured pool exactly when the recorded ones are.  The hosts are
2..=254 in any case, unless the writing server itself came from a file that no `persist` wrote. -/
theorem addresses_after_reconfiguration (hc : c.RoundTrip) {w : Registry} (hheld : Held c w)
    {content : List UInt8} (hwrites : w.Writes c content) (path : String) (subnetBase : Bytes 4)
    (maxPeers : Nat) :
    ∃ r, load c path (.bytes content) subnetBase maxPeers = some (.ok r) ∧
      (∀ ops pk ip, r.Returns ops pk ip →
        (∀ recorded, w.addressAt pk = some recorded → .remove pk ∉ ops → ip = recorded) ∧
        (w.addressAt pk = none ∨ .remove pk ∈ ops → InPool subnetBase ip) ∧
        (Deployed c w → 2 ≤ ip.host.toNat ∧ ip.host.toNat ≤ 254)) ∧
      ((∀ ops pk ip, r.Returns ops pk ip → InPool subnetBase ip) ↔
        ∀ k ip, w.addressAt k = some ip → InPool subnetBase ip) := by
  rcases load_of_writes hc hheld.keyed hwrites path subnetBase maxPeers with
    ⟨r, hload, hbase, haddress⟩
  have horigin : ∀ {ops pk ip}, r.Returns ops pk ip →
      (w.addressAt pk = some ip ∧ .remove pk ∉ ops) ∨ InPool subnetBase ip := by
    intro ops pk ip h
    rw [← haddress, ← hbase]
    exact h.origin
  refine ⟨r, hload, ?_, ?_⟩
  · intro ops pk ip h
    refine ⟨?_, ?_, ?_⟩
    · intro recorded hrecorded hops
      exact h.eq_of_addressAt ((haddress pk).trans hrecorded) hops
    · intro hother
      refine (horigin h).resolve_left ?_
      rintro ⟨hrecorded, hops⟩
      rcases hother with hnone | hremoved
      · simp [hnone] at hrecorded
      · exact hops hremoved
    · intro hdeployed
      rcases horigin h with ⟨hrecorded, _⟩ | hpool
      · exact mem_hosts_iff.1 ((hdeployed.hostInvariant hc).host_mem hrecorded)
      · exact ⟨hpool.host_ge, hpool.host_le⟩
  · constructor
    · intro hall k ip hk
      -- the recorded peer's own next handshake returns its address
      exact hall [] k ip (returns_of_addressAt ((haddress k).trans hk) .unixEpoch .mlKem768
        (.replicate 16 0))
    · intro hrecorded ops pk ip h
      rcases horigin h with ⟨hip, _⟩ | hpool
      · exact hrecorded pk ip hip
      · exact hpool

namespace Reference

theorem deployed_written : Deployed codecs written := by
  have hload : load codecs "peers.json" .notFound ⟨[10, 8, 0, 0], rfl⟩ 64 =
      some (.ok (empty.withPath "peers.json")) := rfl
  rw [← exec_op_withPath]
  exact (Deployed.start hload).exec op

theorem writes_written : written.Writes codecs (asBytes fileText) :=
  ⟨Option.some_ne_none _, order, ⟨.ok (), .ok ()⟩, none, persist_written⟩

theorem addressAt_written : written.addressAt key = some (.new 10 8 0 2) := by
  simp [addressAt, written, withPath, peer, Peer.fresh]

end Reference

/-- A file written under 10.8.0.0/24, loaded under 10.9.0.0/24. -/
theorem addresses_after_reconfiguration_one_peer :
    ∃ r, load Reference.codecs "peers.json" (.bytes (asBytes Reference.fileText))
        ⟨[10, 9, 0, 0], rfl⟩ 64 = some (.ok r) ∧
      (∀ ip, r.Returns [] Reference.key ip → ip = .new 10 8 0 2) ∧
      (∀ ip, r.Returns [.remove Reference.key] Reference.key ip →
        InPool ⟨[10, 9, 0, 0], rfl⟩ ip) ∧
      ∀ ops pk ip, r.Returns ops pk ip → 2 ≤ ip.host.toNat ∧ ip.host.toNat ≤ 254 := by
  rcases addresses_after_reconfiguration Reference.codecs_roundTrip Reference.deployed_written.held
    Reference.writes_written "peers.json" ⟨[10, 9, 0, 0], rfl⟩ 64 with ⟨r, hload, hreturns, _⟩
  refine ⟨r, hload, ?_, ?_, ?_⟩
  · intro ip h
    exact (hreturns [] Reference.key ip h).1 _ Reference.addressAt_written List.not_mem_nil
  · intro ip h
    exact (hreturns _ Reference.key ip h).2.1 (.inr List.mem_cons_self)
  · intro ops pk ip h
    exact (hreturns ops pk ip h).2.2 Reference.deployed_written

/-- The recorded peer is given 10.8.0.2 by a server whose tunnel is 10.9.0.0/24. -/
theorem address_outside_configured_subnet :
    ∃ r, Deployed Reference.codecs Reference.written ∧
      Reference.written.Writes Reference.codecs (asBytes Reference.fileText) ∧
      load Reference.codecs "peers.json" (.bytes (asBytes Reference.fileText))
        ⟨[10, 9, 0, 0], rfl⟩ 64 = some (.ok r) ∧
      (r.exec Reference.op).1 =
        .slot (.ok { sessionId := Reference.session, assignedIp := .new 10 8 0 2 }) ∧
      ¬ InPool ⟨[10, 9, 0, 0], rfl⟩ (.new 10 8 0 2) := by
  rcases load_of_writes Reference.codecs_roundTrip Reference.deployed_written.held.keyed
    Reference.writes_written "peers.json" ⟨[10, 9, 0, 0], rfl⟩ 64 with ⟨r, hload, _, haddress⟩
  refine ⟨r, Reference.deployed_written, Reference.writes_written, hload, ?_, ?_⟩
  · have hkey : r.addressAt Reference.key = some (.new 10 8 0 2) :=
      (haddress Reference.key).trans Reference.addressAt_written
    exact upsertHandshake_of_addressAt hkey Reference.now .mlKem768 Reference.session
  · intro h
    exact absurd h.net1 (by decide)

end Registry
end PqcVpn
