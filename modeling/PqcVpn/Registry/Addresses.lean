import PqcVpn.Lib.Lease
import PqcVpn.Registry.Reference

/-!
# Addresses — the registry as an address allocator

`AddressInvariant` says what the map promises about tunnel addresses.  Under it the registry is a
set of exclusive leases, and every operation and every restart is a step of `Leases`: a first
handshake grants a free address, `remove` releases one, and nothing else touches them.
-/

namespace PqcVpn
namespace Registry

open Wire

/-- A host 2..=254 of the /24. -/
structure InPool (subnetBase : Bytes 4) (ip : Ipv4Addr) : Prop where
  net0 : ip.octets.get 0 = subnetBase.get 0
  net1 : ip.octets.get 1 = subnetBase.get 1
  net2 : ip.octets.get 2 = subnetBase.get 2
  host_ge : 2 ≤ ip.host.toNat
  host_le : ip.host.toNat ≤ 254

structure AddressInvariant (r : Registry) : Prop where
  keyed : r.Keyed
  inPool : ∀ k p, r.inner.lookup k = some p → InPool r.subnetBase p.assignedIp
  distinct : ∀ j k p q, r.inner.lookup j = some p → r.inner.lookup k = some q →
    p.assignedIp = q.assignedIp → j = k

theorem addressInvariant_of_empty {r : Registry} (h : r.inner = ∅) : AddressInvariant r where
  keyed := by intro k p hk; simp [h] at hk
  inPool := by intro k p hk; simp [h] at hk
  distinct := by intro j k p q hj; simp [h] at hj

/-! ## Each effect keeps the invariant -/

theorem inPool_of_allocIp {r : Registry} {ip : Ipv4Addr} (h : r.allocIp = .ok ip) :
    InPool r.subnetBase ip := by
  rcases allocIp_ok h with ⟨host, rfl, hhost, _⟩
  have hrange := mem_hosts_iff.1 hhost
  exact
    { net0 := rfl
      net1 := rfl
      net2 := rfl
      host_ge := hrange.1
      host_le := hrange.2 }

/-- An allocated address is nobody's. -/
theorem ne_of_allocIp {r : Registry} {ip : Ipv4Addr} (h : r.allocIp = .ok ip) {k : Bytes 32}
    {p : Peer} (hk : r.inner.lookup k = some p) : p.assignedIp ≠ ip := by
  rcases allocIp_ok h with ⟨host, rfl, _, hfree⟩
  intro hip
  exact hfree (mem_taken_iff.2 ⟨k, p, hk, by rw [hip]; rfl⟩)

/-- Storing a record under its own key, at a pool address no other key uses, keeps the invariant. -/
theorem AddressInvariant.insert {r r' : Registry} (h : AddressInvariant r) {pk : Bytes 32} {q : Peer}
    (hinner : r'.inner = r.inner.insert pk q) (hbase : r'.subnetBase = r.subnetBase)
    (hpk : q.wgPubkey = pk) (hpool : InPool r.subnetBase q.assignedIp)
    (hfree : ∀ k p, k ≠ pk → r.inner.lookup k = some p → p.assignedIp ≠ q.assignedIp) :
    AddressInvariant r' where
  keyed := h.keyed.insert hinner hpk
  inPool := by
    intro k p hk
    rw [hinner, Table.lookup_insert_eq] at hk
    rw [hbase]
    split at hk
    · cases hk
      exact hpool
    · exact h.inPool k p hk
  distinct := by
    intro j k p p' hj hk hip
    rw [hinner, Table.lookup_insert_eq] at hj hk
    -- only a clash of the new record with an old one needs `hfree`
    by_cases hjpk : j = pk <;> by_cases hkpk : k = pk
    · rw [hjpk, hkpk]
    · rw [if_pos hjpk] at hj
      rw [if_neg hkpk] at hk
      cases hj
      exact absurd hip.symm (hfree k p' hkpk hk)
    · rw [if_neg hjpk] at hj
      rw [if_pos hkpk] at hk
      cases hk
      exact absurd hip (hfree j p hjpk hj)
    · rw [if_neg hjpk] at hj
      rw [if_neg hkpk] at hk
      exact h.distinct j k p p' hj hk hip

theorem AddressInvariant.erase {r r' : Registry} (h : AddressInvariant r) {pk : Bytes 32}
    (hinner : r'.inner = r.inner.erase pk) (hbase : r'.subnetBase = r.subnetBase) :
    AddressInvariant r' := by
  have hsub : ∀ k p, r'.inner.lookup k = some p → r.inner.lookup k = some p := by
    intro k p hk
    rw [hinner, Table.lookup_erase_eq] at hk
    split at hk
    · cases hk
    · exact hk
  exact
    { keyed := h.keyed.erase hinner
      inPool := fun k p hk => hbase ▸ h.inPool k p (hsub k p hk)
      distinct := fun j k p q hj hk => h.distinct j k p q (hsub j p hj) (hsub k q hk) }

theorem addressInvariant_exec {r : Registry} (h : AddressInvariant r) (op : Op) :
    AddressInvariant (r.exec op).2 := by
  have hbase := subnetBase_exec r op
  -- an update keeps the peer's address, a new peer gets one nobody holds
  cases exec_effect r op with
  | unchanged hm =>
      exact
        { keyed := by rw [Keyed, hm]; exact h.keyed
          inPool := by rw [hm, hbase]; exact h.inPool
          distinct := by rw [hm]; exact h.distinct }
  | update pk p q _ hlookup hpk hip hm =>
      refine h.insert hm hbase (hpk.trans (h.keyed pk p hlookup)) ?_ ?_
      · rw [hip]
        exact h.inPool pk p hlookup
      · intro k p' hne hk heq
        rw [hip] at heq
        exact hne (h.distinct k pk p' p hk hlookup heq)
  | add pk q _ _ hpk halloc hm =>
      refine h.insert hm hbase hpk (inPool_of_allocIp halloc) ?_
      intro k p' _ hk
      exact ne_of_allocIp halloc hk
  | delete pk _ hm => exact h.erase hm hbase

/-- A restart only rewrites the times. -/
theorem addressInvariant_restored {r r' : Registry} (h : AddressInvariant r)
    (hbase : r'.subnetBase = r.subnetBase)
    (hlookup : ∀ k, r'.inner.lookup k = (r.inner.lookup k).map Peer.restored) :
    AddressInvariant r' := by
  -- every peer that came back was there before, up to its times
  have hfrom : ∀ k p, r'.inner.lookup k = some p →
      ∃ q, r.inner.lookup k = some q ∧ p = q.restored := by
    intro k p hk
    rw [hlookup, Option.map_eq_some_iff] at hk
    rcases hk with ⟨q, hq, rfl⟩
    exact ⟨q, hq, rfl⟩
  refine ⟨?_, ?_, ?_⟩
  · intro k p hk
    rcases hfrom k p hk with ⟨q, hq, rfl⟩
    exact h.keyed k q hq
  · intro k p hk
    rcases hfrom k p hk with ⟨q, hq, rfl⟩
    rw [hbase]
    exact h.inPool k q hq
  · intro j k p p' hj hk hip
    rcases hfrom j p hj with ⟨q, hq, rfl⟩
    rcases hfrom k p' hk with ⟨q', hq', rfl⟩
    exact h.distinct j k q q' hq hq' hip

theorem addressInvariant_step {c : TextCodecs} (hc : c.RoundTrip) {r r' : Registry}
    {e : HistoryEvent} (h : AddressInvariant r) (hstep : HistoryStep c r e r') :
    AddressInvariant r' := by
  cases hstep with
  | op op => exact addressInvariant_exec h op
  | restart hpersist hload =>
      rcases restart_restores hc h.keyed hpersist hload with ⟨hbase, hlookup⟩
      exact addressInvariant_restored h hbase hlookup

theorem subnetBase_step {c : TextCodecs} (hc : c.RoundTrip) {r r' : Registry} {e : HistoryEvent}
    (h : AddressInvariant r) (hstep : HistoryStep c r e r') : r'.subnetBase = r.subnetBase := by
  cases hstep with
  | op op => exact subnetBase_exec r op
  | restart hpersist hload => exact (restart_restores hc h.keyed hpersist hload).1

/-! ## What an operation does to the addresses -/

/-- The tunnel address a peer holds. -/
def addressAt (r : Registry) (pk : Bytes 32) : Option Ipv4Addr :=
  (r.inner.lookup pk).map Peer.assignedIp

theorem addressAt_eq_some_iff {r : Registry} {pk : Bytes 32} {ip : Ipv4Addr} :
    r.addressAt pk = some ip ↔ ∃ p, r.inner.lookup pk = some p ∧ p.assignedIp = ip :=
  Option.map_eq_some_iff

/-- Nothing, a fresh address for a peer that has none, or the release of one that is removed. -/
inductive AddressEffect (r : Registry) (op : Op) (after : Bytes 32 → Option Ipv4Addr) : Prop
  | kept (h : ∀ k, after k = r.addressAt k)
  | granted (pk : Bytes 32) (ip : Ipv4Addr) (hnone : r.addressAt pk = none)
      (halloc : r.allocIp = .ok ip)
      (h : ∀ k, after k = if k = pk then some ip else r.addressAt k)
  | released (pk : Bytes 32) (hop : op = .remove pk)
      (h : ∀ k, after k = if k = pk then none else r.addressAt k)

theorem exec_address (r : Registry) (op : Op) : AddressEffect r op (r.exec op).2.addressAt := by
  cases exec_effect r op with
  | unchanged hm => exact .kept fun k => by simp only [addressAt, hm]
  | update pk p q _ hlookup _ hip hm =>
      refine .kept fun k => ?_
      simp only [addressAt, hm, Table.lookup_insert_eq]
      by_cases hk : k = pk
      · rw [if_pos hk, hk, hlookup, Option.map_some, Option.map_some, hip]
      · rw [if_neg hk]
  | add pk q _ hlookup _ halloc hm =>
      refine .granted pk q.assignedIp (by simp [addressAt, hlookup]) halloc fun k => ?_
      simp only [addressAt, hm, Table.lookup_insert_eq]
      split <;> rfl
  | delete pk hop hm =>
      refine .released pk hop fun k => ?_
      simp only [addressAt, hm, Table.lookup_erase_eq]
      split <;> rfl

/-- An allocated address is held by nobody. -/
theorem addressAt_ne_of_allocIp {r : Registry} {ip : Ipv4Addr} (h : r.allocIp = .ok ip)
    (k : Bytes 32) : r.addressAt k ≠ some ip := by
  intro hk
  rcases addressAt_eq_some_iff.1 hk with ⟨p, hp, hip⟩
  exact ne_of_allocIp h hp hip

/-! ## The registry as leases -/

/-- The leases a registry stands for. -/
def leases (r : Registry) (h : AddressInvariant r) : Leases (Bytes 32) Ipv4Addr where
  held := r.addressAt
  exclusive := by
    intro j k ip hj hk
    rcases addressAt_eq_some_iff.1 hj with ⟨p, hp, hpip⟩
    rcases addressAt_eq_some_iff.1 hk with ⟨q, hq, hqip⟩
    exact h.distinct j k p q hp hq (hpip.trans hqip.symm)

/-- Refinement: every history step is a step of the leases, and releases only what it removes. -/
theorem leases_step {c : TextCodecs} (hc : c.RoundTrip) {r r' : Registry} {e : HistoryEvent}
    (h : AddressInvariant r) (h' : AddressInvariant r') (hstep : HistoryStep c r e r') :
    ∃ act, Leases.Step (r.leases h) act (r'.leases h') ∧
      ∀ pk, act = .release pk → e = .op (.remove pk) := by
  cases hstep with
  | op op =>
      -- the address an operation leaves each peer with tells which lease step it is
      cases exec_address r op with
      | kept hkept =>
          have heq : r.leases h = (r.exec op).2.leases h' := by
            ext1 k
            exact (hkept k).symm
          exact ⟨.keep, heq ▸ .keep _, by intro pk hact; cases hact⟩
      | granted pk ip hnone halloc hafter =>
          refine ⟨.grant pk ip, .grant hnone (addressAt_ne_of_allocIp halloc) ?_ ?_,
            by intro pk hact; cases hact⟩
          · exact (hafter pk).trans (if_pos rfl)
          · intro j hj
            exact (hafter j).trans (if_neg hj)
      | released pk hop hafter =>
          refine ⟨.release pk, .release ?_ ?_, ?_⟩
          · exact (hafter pk).trans (if_pos rfl)
          · intro j hj
            exact (hafter j).trans (if_neg hj)
          · rintro _ ⟨⟩
            rw [hop]
  | restart hpersist hload =>
      have hlookup := (restart_restores hc h.keyed hpersist hload).2
      have heq : r.leases h = r'.leases h' := by
        ext1 k
        simp only [leases, addressAt, hlookup, Option.map_map]
        cases r.inner.lookup k <;> simp
      exact ⟨.keep, heq ▸ .keep _, by intro pk hact; cases hact⟩

/-! ## Histories -/

/-- An empty registry over `subnetBase`: `new`, or `load` where there is no file yet. -/
def Initial (c : TextCodecs) (subnetBase : Bytes 4) (r : Registry) : Prop :=
  ∃ maxPeers, r = Registry.new subnetBase maxPeers ∨
    ∃ path, load c path .notFound subnetBase maxPeers = some (.ok r)

theorem Initial.inner_eq {c : TextCodecs} {base : Bytes 4} {r : Registry} (h : Initial c base r) :
    r.inner = ∅ ∧ r.subnetBase = base := by
  rcases h with ⟨maxPeers, rfl | ⟨path, hload⟩⟩
  · exact ⟨rfl, rfl⟩
  · simp only [load, Option.some.injEq, Except.ok.injEq] at hload
    subst hload
    exact ⟨rfl, rfl⟩

/-- The invariant and the subnet carry over a whole history. -/
theorem addressInvariant_run {c : TextCodecs} (hc : c.RoundTrip) {r r' : Registry}
    {es : List HistoryEvent} (h : AddressInvariant r)
    (hrun : Transition.Run (HistoryStep c) r es r') :
    AddressInvariant r' ∧ r'.subnetBase = r.subnetBase := by
  refine hrun.invariant (I := fun s => AddressInvariant s ∧ s.subnetBase = r.subnetBase) ?_ ⟨h, rfl⟩
  rintro s e t ⟨hs, hbase⟩ hstep
  exact ⟨addressInvariant_step hc hs hstep, (subnetBase_step hc hs hstep).trans hbase⟩

/-- A history in which a peer is not removed leaves its address alone. -/
theorem addressAt_run {c : TextCodecs} (hc : c.RoundTrip) {r r' : Registry}
    {es : List HistoryEvent} (h : AddressInvariant r)
    (hrun : Transition.Run (HistoryStep c) r es r') {pk : Bytes 32} {ip : Ipv4Addr}
    (hkeep : ∀ e ∈ es, e ≠ .op (.remove pk)) (hip : r.addressAt pk = some ip) :
    r'.addressAt pk = some ip := by
  have hinv : AddressInvariant r' ∧ r'.addressAt pk = some ip := by
    refine hrun.invariant_of_forall
      (I := fun s => AddressInvariant s ∧ s.addressAt pk = some ip) ?_ hkeep ⟨h, hip⟩
    rintro s e t ⟨hs, hsip⟩ he hstep
    have ht := addressInvariant_step hc hs hstep
    rcases leases_step hc hs ht hstep with ⟨act, hact, hrelease⟩
    exact ⟨ht, hact.held_of_ne_release (fun hrel => he (hrelease pk hrel)) hsip⟩
  exact hinv.2

/-- Over every history from an empty registry, with clean restarts in between: each peer is stored
under its own key, at a host 2..=254 of the subnet, no two peers share an address, and from the
operation that adds a peer its address is the same until it is removed. -/
theorem address_allocation {c : TextCodecs} (hc : c.RoundTrip) {subnetBase : Bytes 4}
    {r₀ r : Registry} {es : List HistoryEvent} (hinit : Initial c subnetBase r₀)
    (hrun : Transition.Run (HistoryStep c) r₀ es r) :
    (∀ k p, r.inner.lookup k = some p →
      p.wgPubkey = k ∧ InPool subnetBase p.assignedIp) ∧
    (∀ j k p q, r.inner.lookup j = some p → r.inner.lookup k = some q →
      p.assignedIp = q.assignedIp → j = k) ∧
    ∀ pk p es' r', r.inner.lookup pk = some p → Transition.Run (HistoryStep c) r es' r' →
      (∀ e ∈ es', e ≠ .op (.remove pk)) →
        ∃ p', r'.inner.lookup pk = some p' ∧ p'.assignedIp = p.assignedIp := by
  rcases hinit.inner_eq with ⟨hempty, hbase₀⟩
  rcases addressInvariant_run hc (addressInvariant_of_empty hempty) hrun with ⟨hinv, hbase⟩
  rw [hbase₀] at hbase
  refine ⟨?_, hinv.distinct, ?_⟩
  · intro k p hk
    exact ⟨hinv.keyed k p hk, hbase ▸ hinv.inPool k p hk⟩
  · intro pk p es' r' hp hrun' hkeep
    have hip : r.addressAt pk = some p.assignedIp := addressAt_eq_some_iff.2 ⟨p, hp, rfl⟩
    exact addressAt_eq_some_iff.1 (addressAt_run hc hinv hrun' hkeep hip)

/-- The invariant over a history of one handshake and one restart. -/
theorem address_allocation_one_peer :
    ∃ r, Transition.Run (HistoryStep Reference.codecs) Reference.empty
        [.op Reference.op, .restart] r ∧
      (∀ k p, r.inner.lookup k = some p →
        p.wgPubkey = k ∧ InPool ⟨[10, 8, 0, 0], rfl⟩ p.assignedIp) ∧
      ∀ j k p q, r.inner.lookup j = some p → r.inner.lookup k = some q →
        p.assignedIp = q.assignedIp → j = k := by
  rcases Reference.restart_step with ⟨r, hrestart⟩
  have hop : HistoryStep Reference.codecs Reference.empty (.op Reference.op)
      (Reference.empty.store Reference.key Reference.peer) := by
    have h := HistoryStep.op (c := Reference.codecs) Reference.empty Reference.op
    rwa [Reference.exec_op] at h
  have hrun := Transition.Run.cons hop (.single hrestart)
  have hinit : Initial Reference.codecs ⟨[10, 8, 0, 0], rfl⟩ Reference.empty := ⟨64, .inl rfl⟩
  rcases address_allocation Reference.codecs_roundTrip hinit hrun with ⟨hkey, hdistinct, _⟩
  exact ⟨r, hrun, hkey, hdistinct⟩

end Registry
end PqcVpn
