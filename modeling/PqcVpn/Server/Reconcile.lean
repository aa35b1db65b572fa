import PqcVpn.Server.Tunnel

/-!
# Reconcile — the interface against the registry, on startup

`reconcile_wg_peers` of `server/handshake-server/src/server.rs`: the peers an earlier run left on the
interface are removed unless the registry knows them.  It acts as a filter on the interface; the
registry is only read.
-/

namespace PqcVpn
namespace Server

open Registry

/-- What a `list_installed_peers` that succeeds returns: the peers of the interface, in some order. -/
abbrev Listing (wg : WgInterface) : Type :=
  {installed : List (Bytes 32) // (installed : Multiset (Bytes 32)) = wg.keys.val}

/-- The counts of the line it prints. -/
structure ReconcileReport where
  known : Nat
  installed : Nat
  removed : Nat
  absent : Nat
  deriving DecidableEq

/-- One turn of the loop over the installed peers; the second component counts the removed ones. -/
def reconcilePeer (removePeer : Bytes 32 → Except InstallError Unit) (known : Finset (Bytes 32))
    (acc : WgInterface × Nat) (pk : Bytes 32) : WgInterface × Nat :=
  if pk ∈ known then
    acc
  else
    match removePeer pk with
    | .ok () => (acc.1.removePeer pk (.ok ()), acc.2 + 1)
    | .error e => (acc.1.removePeer pk (.error e), acc.2)

/-- The stores after it, and what it prints; nothing when the peers cannot be listed. -/
def reconcileWgPeers (s : Stores) (listInstalledPeers : Except InstallError (Listing s.wg))
    (removePeer : Bytes 32 → Except InstallError Unit) : Stores × Option ReconcileReport :=
  match listInstalledPeers with
  | .error _ => (s, none)
  | .ok installed =>
      let known := s.registry.pubkeys
      let (wg, removed) := installed.val.foldl (reconcilePeer removePeer known) (s.wg, 0)
      let absent := (known.filter fun k => k ∉ installed.val).card
      ({ s with wg := wg },
        some { known := known.card, installed := installed.val.length, removed, absent })

/-! ## What stays on the interface -/

variable {removePeer : Bytes 32 → Except InstallError Unit}

theorem lookup_reconcilePeer (known : Finset (Bytes 32)) (acc : WgInterface × Nat)
    (pk k : Bytes 32) :
    (reconcilePeer removePeer known acc pk).1.lookup k =
      if k = pk ∧ pk ∉ known ∧ removePeer pk = .ok () then none else acc.1.lookup k := by
  unfold reconcilePeer
  by_cases hknown : pk ∈ known
  · simp [hknown]
  · cases hremove : removePeer pk with
    | ok u => simp [hknown, WgInterface.removePeer, Table.lookup_erase_eq]
    | error e => simp [hknown, WgInterface.removePeer]

/-- The loop removes the listed peers that are unknown and whose removal succeeds. -/
theorem lookup_foldl_reconcilePeer (known : Finset (Bytes 32)) (installed : List (Bytes 32))
    (acc : WgInterface × Nat) (k : Bytes 32) :
    (installed.foldl (reconcilePeer removePeer known) acc).1.lookup k =
      if k ∈ installed ∧ k ∉ known ∧ removePeer k = .ok () then none else acc.1.lookup k := by
  induction installed generalizing acc with
  | nil => simp
  | cons pk rest ih =>
      rw [List.foldl_cons, ih, lookup_reconcilePeer]
      by_cases hk : k = pk
      · subst hk
        by_cases hgone : k ∉ known ∧ removePeer k = .ok ()
        · simp [hgone]
        · have hstays : ¬ (k ∈ rest ∧ k ∉ known ∧ removePeer k = .ok ()) := fun h => hgone h.2
          have hstays' : ¬ (k ∈ k :: rest ∧ k ∉ known ∧ removePeer k = .ok ()) := fun h => hgone h.2
          rw [if_neg hstays, if_neg hstays', if_neg fun h => hgone h.2]
      · simp [hk]

/-- A listed interface keeps its registered peers, and those whose removal fails. -/
theorem lookup_reconcileWgPeers (s : Stores) (installed : Listing s.wg) (k : Bytes 32) :
    (reconcileWgPeers s (.ok installed) removePeer).1.wg.lookup k =
      if k ∈ s.registry.pubkeys ∨ removePeer k ≠ .ok () then s.wg.lookup k else none := by
  have hlisted : k ∉ installed.val → s.wg.lookup k = none := by
    intro hnot
    rw [Finmap.lookup_eq_none, ← Finmap.mem_keys, ← Finset.mem_val, ← installed.property]
    exact hnot
  refine (lookup_foldl_reconcilePeer s.registry.pubkeys installed.val (s.wg, 0) k).trans ?_
  by_cases hstays : k ∈ s.registry.pubkeys ∨ removePeer k ≠ .ok ()
  · rw [if_pos hstays, if_neg]
    rintro ⟨_, hunknown, hremoved⟩
    exact hstays.elim hunknown fun h => h hremoved
  · rw [if_neg hstays]
    rw [not_or, not_not] at hstays
    by_cases hmem : k ∈ installed.val
    · rw [if_pos ⟨hmem, hstays⟩]
    · rw [if_neg fun h => hmem h.1]
      exact hlisted hmem

/-- When every removal succeeds, exactly the registered peers are kept. -/
theorem lookup_reconcileWgPeers_of_ok (hremove : ∀ pk, removePeer pk = .ok ()) (s : Stores)
    (installed : Listing s.wg) (k : Bytes 32) :
    (reconcileWgPeers s (.ok installed) removePeer).1.wg.lookup k =
      if k ∈ s.registry.pubkeys then s.wg.lookup k else none := by
  rw [lookup_reconcileWgPeers]
  simp only [hremove, ne_eq, not_true_eq_false, or_false]

/-! ## What it prints -/

/-- Each turn removes the peer it counts: what was removed and what is left add up. -/
theorem count_foldl_reconcilePeer (known : Finset (Bytes 32)) {installed : List (Bytes 32)}
    (hnodup : installed.Nodup) {acc : WgInterface × Nat}
    (hlisted : ∀ pk ∈ installed, pk ∈ acc.1.keys) :
    (installed.foldl (reconcilePeer removePeer known) acc).2 +
        (installed.foldl (reconcilePeer removePeer known) acc).1.keys.card =
      acc.2 + acc.1.keys.card := by
  induction installed generalizing acc with
  | nil => rfl
  | cons pk rest ih =>
      obtain ⟨hfresh, hrest⟩ := List.nodup_cons.1 hnodup
      obtain ⟨hpk, hlisted⟩ := List.forall_mem_cons.1 hlisted
      rw [List.foldl_cons]
      by_cases hgone : pk ∉ known ∧ removePeer pk = .ok ()
      · have hstep : reconcilePeer removePeer known acc pk = (acc.1.erase pk, acc.2 + 1) := by
          rw [reconcilePeer, if_neg hgone.1, hgone.2]
          rfl
        have hcard := Finset.card_erase_add_one hpk
        rw [hstep, ih hrest, Table.keys_erase]
        · omega
        · intro k hk
          rw [Table.keys_erase]
          exact Finset.mem_erase.2 ⟨fun h => hfresh (h ▸ hk), hlisted k hk⟩
      · have hstep : reconcilePeer removePeer known acc pk = acc := by
          unfold reconcilePeer
          by_cases hknown : pk ∈ known
          · rw [if_pos hknown]
          · cases hremove : removePeer pk with
            | ok u => exact absurd ⟨hknown, hremove⟩ hgone
            | error e =>
                rw [if_neg hknown]
                rfl
        rw [hstep]
        exact ih hrest hlisted

theorem Listing.mem_iff {wg : WgInterface} (installed : Listing wg) {k : Bytes 32} :
    k ∈ installed.val ↔ k ∈ wg.keys := by
  rw [← Multiset.mem_coe, installed.property, Finset.mem_val]

theorem Listing.nodup {wg : WgInterface} (installed : Listing wg) : installed.val.Nodup := by
  rw [← Multiset.coe_nodup, installed.property]
  exact wg.keys.nodup

theorem Listing.length_eq {wg : WgInterface} (installed : Listing wg) :
    installed.val.length = wg.keys.card := by
  rw [← Multiset.coe_card, installed.property]
  rfl

/-- What is left is a part of the interface, so the count of the removed is that of the rest. -/
theorem report_reconcileWgPeers (s : Stores) (installed : Listing s.wg) :
    (reconcileWgPeers s (.ok installed) removePeer).2 = some
      { known := s.registry.pubkeys.card
        installed := s.wg.keys.card
        removed := (s.wg.keys \ (reconcileWgPeers s (.ok installed) removePeer).1.wg.keys).card
        absent := (s.registry.pubkeys \ s.wg.keys).card } := by
  have hlisted : ∀ pk ∈ installed.val, pk ∈ (s.wg, 0).1.keys := fun pk => installed.mem_iff.1
  have hcount : (installed.val.foldl (reconcilePeer removePeer s.registry.pubkeys) (s.wg, 0)).2 +
      _ = _ := count_foldl_reconcilePeer s.registry.pubkeys installed.nodup hlisted
  have hsub : (reconcileWgPeers s (.ok installed) removePeer).1.wg.keys ⊆ s.wg.keys := by
    intro k hk
    rw [Finmap.mem_keys, ← Finmap.lookup_isSome, lookup_reconcileWgPeers] at hk
    split at hk
    · rw [Finmap.mem_keys, ← Finmap.lookup_isSome]
      exact hk
    · cases hk
  have hrest := Finset.card_sdiff_add_card_eq_card hsub
  have habsent : (s.registry.pubkeys.filter fun k => k ∉ installed.val) =
      s.registry.pubkeys \ s.wg.keys := by
    ext k
    rw [Finset.mem_filter, Finset.mem_sdiff, installed.mem_iff]
  change some _ = some _
  rw [Option.some.injEq, ReconcileReport.mk.injEq]
  refine ⟨rfl, installed.length_eq, ?_, congrArg Finset.card habsent⟩
  change _ + (reconcileWgPeers s (.ok installed) removePeer).1.wg.keys.card =
    0 + s.wg.keys.card at hcount
  omega

/-- Whatever order the peers are listed in and whichever removals fail: the registered peers and
those that could not be removed stay as they are, the others are gone, and the line counts them.  A
second run removes only what the first one could not. -/
theorem startup_reconcile_exact (s : Stores) (removePeer : Bytes 32 → Except InstallError Unit) :
    (∀ e, reconcileWgPeers s (.error e) removePeer = (s, none)) ∧
    ∃ kept : WgInterface,
      (∀ k, kept.lookup k =
        if k ∈ s.registry.pubkeys ∨ removePeer k ≠ .ok () then s.wg.lookup k else none) ∧
      (∀ installed : Listing s.wg, reconcileWgPeers s (.ok installed) removePeer =
        ({ s with wg := kept }, some
          { known := s.registry.pubkeys.card
            installed := s.wg.keys.card
            removed := (s.wg.keys \ kept.keys).card
            absent := (s.registry.pubkeys \ s.wg.keys).card })) ∧
      ∀ (removePeer' : Bytes 32 → Except InstallError Unit) (again : Listing kept) (k : Bytes 32),
        (reconcileWgPeers { s with wg := kept } (.ok again) removePeer').1.wg.lookup k ≠
            kept.lookup k →
          k ∉ s.registry.pubkeys ∧ removePeer k ≠ .ok () ∧ removePeer' k = .ok () := by
  refine ⟨fun e => rfl, ?_⟩
  let listed : Listing s.wg := ⟨s.wg.keys.val.toList, Multiset.coe_toList _⟩
  have hlookup (installed : Listing s.wg) (k : Bytes 32) :
      (reconcileWgPeers s (.ok installed) removePeer).1.wg.lookup k = _ :=
    lookup_reconcileWgPeers s installed k
  refine ⟨(reconcileWgPeers s (.ok listed) removePeer).1.wg, hlookup listed, ?_, ?_⟩
  · intro installed
    have hkept : (reconcileWgPeers s (.ok installed) removePeer).1.wg =
        (reconcileWgPeers s (.ok listed) removePeer).1.wg :=
      Finmap.ext_lookup fun k => (hlookup installed k).trans (hlookup listed k).symm
    rw [← hkept, ← report_reconcileWgPeers]
    rfl
  · intro removePeer' again k hchanged
    rw [lookup_reconcileWgPeers] at hchanged
    by_cases hstays : k ∈ s.registry.pubkeys ∨ removePeer' k ≠ .ok ()
    · exact absurd (if_pos hstays) hchanged
    rw [if_neg hstays, hlookup] at hchanged
    rw [not_or, not_not] at hstays
    refine ⟨hstays.1, fun hremoved => hchanged ?_, hstays.2⟩
    rw [if_neg (not_or.2 ⟨hstays.1, not_not.2 hremoved⟩)]

end Server
end PqcVpn
