import PqcVpn.Server.Overtaking
import PqcVpn.Server.Sweep

/-!
# Sweep race — the idle sweep among concurrent handlers

The sweep takes its snapshot of the idle peers under the mutex and acts on it afterwards, one peer
at a time and outside the mutex.  `Step` interleaves its steps with those of any number of handlers;
`sweep_run` says that a sweep nobody interrupts is a run of its steps.

All installer calls succeed here.  `sweep_and_handlers_agree` says which interleavings keep the
registry and the interface together, and `live_peer_lost` is one that does not.
-/

namespace PqcVpn
namespace Server

open Crypto Function Handshake Registry Transition Wire

variable {P : Primitives}

/-! ## The sweep -/

/-- What one iteration of the sweep works with. -/
structure Scan where
  wgHs : Handshakes
  now : SystemTime
  /-- The registry the idle peers were read from; the code does not keep it. -/
  snapshot : Registry
  evicted : Nat

/-- Where the sweep stands. -/
inductive SweepPhase
  | sleeping
  | queried (wgHs : Handshakes)
  | sweeping (scan : Scan) (rest : List (Bytes 32))
  /-- The peer left the registry and not yet the interface. -/
  | removing (scan : Scan) (pk : Bytes 32) (rest : List (Bytes 32))

/-- A peer the sweep removed, with its record at that moment and the sweep's clock reading. -/
structure Eviction where
  peer : Bytes 32
  record : Peer
  now : SystemTime

structure System where
  server : ServerState
  sweep : SweepPhase
  evictions : List Eviction

namespace System

/-- Before any connection and any sweep. -/
def start (stores : Stores) : System :=
  { server := .start stores
    sweep := .sleeping
    evictions := [] }

/-- The system with other stores. -/
def setStores (s : System) (stores : Stores) : System :=
  { s with server := { s.server with stores := stores } }

end System

inductive Action
  | handler (id : Nat) (a : HandlerAction)
  | query (result : Except InstallError Handshakes)
  | snapshot (now : SystemTime)
  | touch (now : SystemTime)
  | evict
  | removePeer
  | endSweep

inductive Step (identity : P.SigningKey) (c : TextCodecs) (timeout : Duration) :
    System → Action → System → Prop
  | handler {s : System} {t : ServerState} {id : Nat} {a : HandlerAction}
      (h : HandlerStep identity c s.server (id, a) t) :
      Step identity c timeout s (.handler id a) { s with server := t }
  | query {s : System} (result : Except InstallError Handshakes) (hsweep : s.sweep = .sleeping) :
      Step identity c timeout s (.query result)
        { s with sweep := .queried (unwrapOrDefault result) }
  | snapshot {s : System} {wgHs : Handshakes} {now : SystemTime} (hsweep : s.sweep = .queried wgHs)
      (idle : IdleOrder s.server.stores.registry timeout now) :
      Step identity c timeout s (.snapshot now)
        { s with sweep := .sweeping ⟨wgHs, now, s.server.stores.registry, 0⟩ idle.val }
  | touch {s : System} {scan : Scan} {pk : Bytes 32} {rest : List (Bytes 32)} (now : SystemTime)
      (hsweep : s.sweep = .sweeping scan (pk :: rest))
      (hlive : stillLive scan.wgHs scan.now timeout pk = true) :
      Step identity c timeout s (.touch now)
        { s.setStores { s.server.stores with registry := s.server.stores.registry.touch now pk } with
          sweep := .sweeping scan rest }
  | evict {s : System} {scan : Scan} {pk : Bytes 32} {rest : List (Bytes 32)}
      (hsweep : s.sweep = .sweeping scan (pk :: rest))
      (hdead : stillLive scan.wgHs scan.now timeout pk = false) :
      Step identity c timeout s .evict
        { s.setStores
            { s.server.stores with registry := (s.server.stores.registry.remove pk).2 } with
          sweep := .removing scan pk rest
          evictions := s.evictions ++
            ((s.server.stores.registry.remove pk).1.map fun p => ⟨pk, p, scan.now⟩).toList }
  | removePeer {s : System} {scan : Scan} {pk : Bytes 32} {rest : List (Bytes 32)}
      (hsweep : s.sweep = .removing scan pk rest) :
      Step identity c timeout s .removePeer
        { s.setStores { s.server.stores with wg := s.server.stores.wg.removePeer pk (.ok ()) } with
          sweep := .sweeping { scan with evicted := scan.evicted + 1 } rest }
  | endSweep {s : System} {scan : Scan} (order : s.server.stores.registry.Iteration)
      (os : PersistIo) (hsweep : s.sweep = .sweeping scan []) :
      Step identity c timeout s .endSweep
        { s.setStores (if scan.evicted > 0 then (s.server.stores.persist c order os).2
            else s.server.stores) with
          sweep := .sleeping }

/-! ## One sweep on its own -/

variable {identity : P.SigningKey} {c : TextCodecs} {timeout : Duration}

/-- The loop of an uninterrupted sweep. -/
theorem foldl_run {env : SweepEnv} (hremove : ∀ pk, env.removePeer pk = .ok ())
    {idle : List (Bytes 32)} (evicted : List (Bytes 32)) {s : System} {scan : Scan}
    (hsweep : s.sweep = .sweeping scan idle) (hwgHs : scan.wgHs = env.wgHs)
    (hnow : scan.now = env.now) (hcount : scan.evicted = evicted.length) :
    ∃ as t scan', Run (Step identity c timeout) s as t ∧ t.sweep = .sweeping scan' [] ∧
      (t.server.stores, scan'.evicted) =
        ((idle.foldl (sweepPeer env timeout) (s.server.stores, evicted)).1,
          (idle.foldl (sweepPeer env timeout) (s.server.stores, evicted)).2.length) := by
  -- one turn of the loop is one step for a live peer and two for a dead one
  induction idle generalizing s scan evicted with
  | nil => exact ⟨[], s, scan, .nil s, hsweep, by rw [hcount]; rfl⟩
  | cons pk rest ih =>
      rw [List.foldl_cons]
      cases hlive : stillLive env.wgHs env.now timeout pk with
      | true =>
          have htouch : ∃ t, Step identity c timeout s (.touch (env.touchNow pk)) t ∧
              t.sweep = .sweeping scan rest ∧ t.server.stores =
                (sweepPeer env timeout (s.server.stores, evicted) pk).1 := by
            refine ⟨_, .touch (env.touchNow pk) hsweep (by rw [hwgHs, hnow]; exact hlive), rfl, ?_⟩
            simp [sweepPeer, hlive, System.setStores]
          rcases htouch with ⟨s₁, hstep, hsweep₁, hstores₁⟩
          rcases ih evicted hsweep₁ hwgHs hnow hcount with ⟨as, t, scan', hrun, ht, hstores⟩
          refine ⟨_, t, scan', .cons hstep hrun, ht, ?_⟩
          rw [hstores, hstores₁]
          simp [sweepPeer, hlive]
      | false =>
          have hevict : ∃ t, Run (Step identity c timeout) s [.evict, .removePeer] t ∧
              t.sweep = .sweeping { scan with evicted := scan.evicted + 1 } rest ∧
              t.server.stores = (sweepPeer env timeout (s.server.stores, evicted) pk).1 := by
            refine ⟨_, .cons (.evict hsweep (by rw [hwgHs, hnow]; exact hlive))
              (.single (.removePeer rfl)), rfl, ?_⟩
            simp [sweepPeer, hlive, hremove, System.setStores]
          rcases hevict with ⟨s₁, hsteps, hsweep₁, hstores₁⟩
          have hcount' : scan.evicted + 1 = (evicted ++ [pk]).length := by
            simp [hcount]
          rcases ih _ hsweep₁ hwgHs hnow hcount' with ⟨as, t, scan', hrun, ht, hstores⟩
          refine ⟨_, t, scan', hsteps.append hrun, ht, ?_⟩
          rw [hstores, hstores₁]
          simp [sweepPeer, hlive]

/-- A sweep nobody interrupts is a run of its steps. -/
theorem sweep_run {env : SweepEnv} (hremove : ∀ pk, env.removePeer pk = .ok ()) {s : System}
    (hsweep : s.sweep = .sleeping) (idle : IdleOrder s.server.stores.registry timeout env.now) :
    ∃ as t, Run (Step identity env.codecs timeout) s as t ∧ t.sweep = .sleeping ∧
      t.server.stores = (sweep env timeout s.server.stores idle).1 := by
  have hbegin : ∃ t, Run (Step identity env.codecs timeout) s
      [.query env.lastHandshakes, .snapshot env.now] t ∧
      t.sweep = .sweeping ⟨env.wgHs, env.now, s.server.stores.registry, 0⟩ idle.val ∧
      t.server.stores = s.server.stores := by
    refine ⟨_, .cons (.query env.lastHandshakes hsweep) (.single (.snapshot rfl ?_)), ?_, ?_⟩
    · exact idle
    · rfl
    · rfl
  rcases hbegin with ⟨s₁, hbegin, hsweep₁, hstores₁⟩
  have hloop : ∃ as t scan, Run (Step identity env.codecs timeout) s₁ as t ∧
      t.sweep = .sweeping scan [] ∧ (t.server.stores, scan.evicted) =
        ((idle.val.foldl (sweepPeer env timeout) (s₁.server.stores, [])).1,
          (idle.val.foldl (sweepPeer env timeout) (s₁.server.stores, [])).2.length) :=
    foldl_run hremove [] hsweep₁ rfl rfl rfl
  rcases hloop with ⟨as, s₂, scan, hloop, hsweep₂, hstores₂⟩
  have hend : Step identity env.codecs timeout s₂ .endSweep _ :=
    .endSweep (env.order _) env.persistIo hsweep₂
  refine ⟨_, _, hbegin.append (hloop.append (.single hend)), rfl, ?_⟩
  rw [hstores₁, Prod.mk.injEq] at hstores₂
  rcases hstores₂ with ⟨hstores₂, hcount⟩
  simp only [System.setStores, hstores₂, hcount, sweep]
  split
  · rw [hstores₂]
    rfl
  · rfl

/-! ## The registry and the interface as mirrored stores -/

/-- The peer that left the registry and not yet the interface. -/
def SweepPhase.dropping : SweepPhase → Option (Bytes 32)
  | .removing _ pk _ => some pk
  | _ => none

def System.mirrored (s : System) : Mirrored (Bytes 32) WgPeer Nat :=
  s.server.mirrored s.sweep.dropping

/-- The sweep removes a peer only with its record as the snapshot saw it and no handler of the peer
between its update and its install; and it removes a peer from the interface only if the peer is
still unregistered, or a handler that registered it again has yet to install. -/
def RaceFree (s : System) : Action → Prop
  | .evict => ∀ scan pk rest, s.sweep = .sweeping scan (pk :: rest) →
      s.server.stores.registry.inner.lookup pk = scan.snapshot.inner.lookup pk ∧
        ∀ id ex slot, s.server.handlers id = .updated ex slot → ex.peer ≠ pk
  | .removePeer => ∀ scan pk rest, s.sweep = .removing scan pk rest →
      pk ∈ s.server.stores.registry.inner →
        ∃ id ex slot, s.server.handlers id = .updated ex slot ∧ ex.peer = pk
  | _ => True

/-- Each step of the system is at most one step of the mirrored stores, and a race-free one if the
step is. -/
theorem Step.mirrored {s t : System} {a : Action} (h : Guarded RaceFree (Step identity c timeout) s a t) :
    t.mirrored = s.mirrored ∨
      ∃ b, Guarded Mirrored.RaceFree Mirrored.Step s.mirrored b t.mirrored := by
  rcases h with ⟨hok, hstep⟩
  cases hstep with
  | @handler t id a h =>
      rcases h.mirrored s.sweep.dropping with hsame | ⟨pk, v, hwrite⟩ | ⟨_, hflush⟩
      · exact .inl hsame
      · exact .inr ⟨.write id pk v, trivial, hwrite⟩
      · exact .inr ⟨.flush id, trivial, hflush⟩
  | query result hsweep => exact .inl (by simp only [System.mirrored, hsweep]; rfl)
  | snapshot hsweep idle => exact .inl (by simp only [System.mirrored, hsweep]; rfl)
  | @touch scan pk rest now hsweep hlive =>
      refine .inl (Mirrored.ext ?_ rfl rfl rfl ?_)
      · ext k
        exact mem_touch_iff
      · simp only [System.mirrored, ServerState.mirrored, hsweep]
        rfl
  | @evict scan pk rest hsweep hdead =>
      have hidle : s.mirrored.dropping = none := by
        simp only [System.mirrored, ServerState.mirrored, hsweep]
        rfl
      -- guarded: no handler has the evicted peer's install ahead of it
      refine .inr ⟨.drop pk, ?_, ?_⟩
      · intro hflight
        rcases ServerState.inFlight_mirrored_iff.1 hflight with ⟨id, ex, slot, hphase, hpeer⟩
        exact (hok scan pk rest hsweep).2 id ex slot hphase hpeer
      · convert Mirrored.Step.drop hidle using 1
        refine Mirrored.ext ?_ rfl rfl rfl rfl
        ext k
        simp [System.mirrored, ServerState.mirrored, System.setStores, Registry.remove, and_comm]
  | @removePeer scan pk rest hsweep =>
      have hdropping : s.mirrored.dropping = some pk := by
        simp only [System.mirrored, ServerState.mirrored, hsweep]
        rfl
      -- guarded: a peer that came back has its install ahead of it
      refine .inr ⟨.flushDrop, ?_, ?_⟩
      · intro k hk hpresent
        cases hdropping.symm.trans hk
        exact ServerState.inFlight_mirrored_iff.2 (hok scan pk rest hsweep hpresent)
      · convert Mirrored.Step.flushDrop hdropping using 1
        refine Mirrored.ext rfl rfl ?_ rfl rfl
        funext k
        by_cases hk : k = pk
        · subst hk
          simp [System.mirrored, ServerState.mirrored, System.setStores, WgInterface.removePeer]
        · simp [System.mirrored, ServerState.mirrored, System.setStores, WgInterface.removePeer, hk]
  | @endSweep scan order os hsweep =>
      refine .inl (Mirrored.ext ?_ rfl ?_ rfl ?_)
      · simp only [System.mirrored, ServerState.mirrored, System.setStores]
        split <;> rfl
      · simp only [System.mirrored, ServerState.mirrored, System.setStores]
        split <;> rfl
      · simp only [System.mirrored, ServerState.mirrored, hsweep]
        rfl

/-! ## What the sweep evicts -/

/-- The iteration in progress and the peers it has yet to look at. -/
def SweepPhase.scanning : SweepPhase → Option (Scan × List (Bytes 32))
  | .sweeping scan rest => some (scan, rest)
  | .removing scan _ rest => some (scan, rest)
  | _ => none

/-- Every peer the sweep still looks at was idle in its snapshot, and every record it removed was
idle by its clock reading. -/
structure Scanned (timeout : Duration) (s : System) : Prop where
  keyed : s.server.stores.registry.Keyed
  idle : ∀ {scan rest}, s.sweep.scanning = some (scan, rest) → ∀ pk ∈ rest,
    ∃ p, scan.snapshot.inner.lookup pk = some p ∧ p.lastActivity.nanos + timeout < scan.now.nanos
  evicted : ∀ e ∈ s.evictions, e.record.lastActivity.nanos + timeout < e.now.nanos

theorem HandlerStep.keyed {s t : ServerState} {a : Nat × HandlerAction}
    (h : HandlerStep identity c s a t) (hkeyed : s.stores.registry.Keyed) :
    t.stores.registry.Keyed := by
  cases h with
  | @update id ex now slot r _ hupdate =>
      have hexec := hkeyed.exec (ex.op now)
      rw [Exchange.exec_op, hupdate] at hexec
      exact hexec
  | @refuse id ex now e r _ hupdate =>
      rw [Exchange.update_error hupdate]
      exact hkeyed
  | accept _ _ => exact hkeyed
  | install _ => exact hkeyed
  | persist _ _ _ => exact hkeyed
  | finish _ => exact hkeyed

theorem Scanned.step {s t : System} {a : Action} (h : Scanned timeout s)
    (hstep : Guarded RaceFree (Step identity c timeout) s a t) : Scanned timeout t := by
  rcases hstep with ⟨hok, hstep⟩
  cases hstep with
  | handler hhandler => exact ⟨hhandler.keyed h.keyed, h.idle, h.evicted⟩
  | query result hsweep => exact ⟨h.keyed, by rintro scan rest ⟨⟩, h.evicted⟩
  | @snapshot wgHs now hsweep idle =>
      refine ⟨h.keyed, ?_, h.evicted⟩
      rintro scan rest ⟨⟩ pk hpk
      rw [← Multiset.mem_coe, idle.property] at hpk
      exact (mem_idlePeers_of_keyed h.keyed).1 hpk
  | @touch scan pk rest now hsweep hlive =>
      refine ⟨h.keyed.exec (.touch now pk), ?_, h.evicted⟩
      rintro scan' rest' ⟨⟩ k hk
      exact h.idle (congrArg SweepPhase.scanning hsweep) k (List.mem_cons_of_mem _ hk)
  | @evict scan pk rest hsweep hdead =>
      have hscanning := congrArg SweepPhase.scanning hsweep
      refine ⟨h.keyed.exec (.remove pk), ?_, ?_⟩
      · rintro scan' rest' ⟨⟩ k hk
        exact h.idle hscanning k (List.mem_cons_of_mem _ hk)
      · intro e he
        rcases List.mem_append.1 he with he | he
        · exact h.evicted e he
        · -- race-free: the record is still the one of the snapshot
          rcases h.idle hscanning pk List.mem_cons_self with ⟨p, hp, hold⟩
          rw [← (hok scan pk rest hsweep).1] at hp
          simp only [Registry.remove, hp, Option.map_some, Option.toList_some,
            List.mem_singleton] at he
          rw [he]
          exact hold
  | @removePeer scan pk rest hsweep =>
      refine ⟨h.keyed, ?_, h.evicted⟩
      rintro scan' rest' ⟨⟩ k hk
      exact h.idle (congrArg SweepPhase.scanning hsweep) k hk
  | @endSweep scan order os hsweep =>
      refine ⟨?_, by rintro scan' rest' ⟨⟩, h.evicted⟩
      simp only [System.setStores]
      split <;> exact h.keyed

/-! ## Agreement -/

/-- The sweep removed only records that were idle by its clock reading and any later one. -/
def EvictsIdleRecords (timeout : Duration) (s : System) : Prop :=
  ∀ e ∈ s.evictions, ∀ later : SystemTime, e.now.nanos ≤ later.nanos →
    e.record.lastActivity.nanos + timeout < later.nanos

/-- With the sweep asleep and no handler between its update and its install, the interface holds
exactly the registered peers. -/
def SamePeers (s : System) : Prop :=
  s.sweep = .sleeping → s.server.Settled →
    s.server.stores.wg.keys = s.server.stores.registry.inner.keys

theorem covered_start {stores : Stores} (hkeys : stores.wg.keys = stores.registry.inner.keys) :
    (System.start stores).mirrored.Covered := by
  have hiff : ∀ pk, pk ∈ stores.registry.inner ↔ pk ∈ stores.wg := by
    intro pk
    rw [← Finmap.mem_keys, ← Finmap.mem_keys, hkeys]
  refine ⟨?_, ?_, ?_⟩
  · intro pk hpk
    exact .inl (Finmap.mem_iff.1 ((hiff pk).1 hpk))
  · intro pk v hv
    exact .inl ((hiff pk).2 (Finmap.mem_of_lookup_eq_some hv))
  · rintro pk ⟨id, v, hpending⟩
    cases hpending

/-- Over any number of sweeps and handlers and any race-free interleaving of their steps, from a
registry and an interface with the same peers: the sweep removes only idle records, and whenever
nothing is in progress the registry and the interface have the same peers. -/
theorem sweep_and_handlers_agree {stores : Stores} {t : System} {as : List Action}
    (hkeyed : stores.registry.Keyed) (hkeys : stores.wg.keys = stores.registry.inner.keys)
    (hrun : Run (Guarded RaceFree (Step identity c timeout)) (.start stores) as t) :
    EvictsIdleRecords timeout t ∧ SamePeers t := by
  refine ⟨?_, ?_⟩
  · have hscanned : Scanned timeout t :=
      hrun.invariant Scanned.step ⟨hkeyed, by rintro scan rest ⟨⟩, by intro e he; cases he⟩
    intro e he later hlater
    have hold := hscanned.evicted e he
    omega
  · intro hsweep hsettled
    -- each step is one of the mirrored stores, so they stay covered over the run
    have hcovered : t.mirrored.Covered := by
      refine hrun.invariant (I := fun s => s.mirrored.Covered) ?_ (covered_start hkeys)
      intro s a t hs hstep
      rcases Step.mirrored hstep with hsame | ⟨b, hb⟩
      · exact hsame ▸ hs
      · exact hs.step hb
    ext pk
    rw [Finmap.mem_keys, Finmap.mem_keys, Finmap.mem_iff]
    exact (hcovered.present_iff hsettled.not_inFlight (congrArg SweepPhase.dropping hsweep)).symm

/-- What an update of the peer stores after the sweep removed its record. -/
theorem Reference.update_of_removed {ex : Exchange} {clientNonce : Bytes 32}
    (hhello : ex.hello = Reference.helloWith clientNonce)
    (hkind : ex.rekeySession = none) :
    ∃ q : Peer, ex.update Reference.tenMinutesLater
        (Reference.idleStores.registry.remove Registry.Reference.key).2 =
      (.ok q.slot, (Reference.idleStores.registry.remove Registry.Reference.key).2.store
        Registry.Reference.key q) := by
  have hpeer : ex.peer = Registry.Reference.key := Reference.peer_of_helloWith hhello
  have hgone : (Reference.idleStores.registry.remove Registry.Reference.key).2.inner.lookup
      ex.peer = none := by
    rw [hpeer]
    exact Finmap.lookup_erase _ _
  have haccepts : ex.Accepts (Reference.idleStores.registry.remove Registry.Reference.key).2
      (.new 10 8 0 2) := .new hkind hgone (by decide) (by decide)
  rcases Exchange.update_of_accepts haccepts Reference.tenMinutesLater with ⟨q, hupdate⟩
  rw [hpeer] at hupdate
  exact ⟨q, hupdate⟩

/-- The one idle peer connects again while the sweep is between its two removals: it is back in the
registry when the interface forgets it, and its handler has yet to install. -/
theorem idle_peer_leaves_both : ∃ (ex : Exchange) (t : System),
    Run (Guarded RaceFree (Step Reference.identity Registry.Reference.codecs
      Reference.fiveMinutes)) (.start Reference.idleStores)
      [.query (.ok ∅), .snapshot Reference.tenMinutesLater, .handler 0 (.accept ex), .evict,
        .handler 0 (.update Reference.tenMinutesLater), .removePeer, .handler 0 .install,
        .handler 0 .persist, .handler 0 .finish, .endSweep] t ∧
    t.evictions ≠ [] ∧ t.server.stores.wg.keys = {Registry.Reference.key} ∧
    t.server.stores.wg.keys = t.server.stores.registry.inner.keys ∧
    EvictsIdleRecords Reference.fiveMinutes t := by
  rcases Reference.genuine_helloWith (.replicate 32 5) with ⟨ex, hex, hhello, hkind, _⟩
  have hpeer : ex.peer = Registry.Reference.key := Reference.peer_of_helloWith hhello
  rcases Reference.update_of_removed hhello hkind with ⟨q, hupdate⟩
  have hrun : ∃ t, Run (Guarded RaceFree (Step Reference.identity Registry.Reference.codecs
      Reference.fiveMinutes)) (.start Reference.idleStores)
      [.query (.ok ∅), .snapshot Reference.tenMinutesLater, .handler 0 (.accept ex), .evict,
        .handler 0 (.update Reference.tenMinutesLater), .removePeer, .handler 0 .install,
        .handler 0 .persist, .handler 0 .finish, .endSweep] t ∧ t.sweep = .sleeping ∧
      t.server.Settled ∧ t.evictions ≠ [] ∧
      t.server.stores.wg.keys = {Registry.Reference.key} := by
    refine ⟨_, .cons ⟨trivial, .query _ rfl⟩ (.cons ⟨trivial, .snapshot rfl Reference.idleOrder⟩
      (.cons ⟨trivial, .handler (.accept rfl hex)⟩ (.cons ⟨?_, .evict rfl rfl⟩
      (.cons ⟨trivial, .handler (.update rfl hupdate)⟩ (.cons ⟨?_, .removePeer rfl⟩
      (.cons ⟨trivial, .handler (.install rfl)⟩ (.cons ⟨trivial, .handler (.persist
        (Registry.Reference.anyOrder _) ⟨.ok (), .ok ()⟩ rfl)⟩
      (.cons ⟨trivial, .handler (.finish rfl)⟩ (.single ⟨trivial, .endSweep
        (Registry.Reference.anyOrder _) ⟨.ok (), .ok ()⟩ rfl⟩))))))))), rfl, ?_, ?_, ?_⟩
    · rintro scan pk rest ⟨⟩
      refine ⟨rfl, fun id ex' slot hphase => ?_⟩
      by_cases hid : id = 0
      · simp [hid, ServerState.setPhase] at hphase
      · simp [hid, ServerState.setPhase, System.start, ServerState.start] at hphase
    · -- the removed peer is back, and its handler's install is ahead
      rintro scan pk rest ⟨⟩ _
      exact ⟨0, ex, q.slot, rfl, hpeer⟩
    · intro id ex' slot
      by_cases hid : id = 0
      · simp [hid, System.setStores, ServerState.setPhase]
      · simp [hid, System.setStores, ServerState.setPhase, System.start, ServerState.start]
    · change [] ++ ((Reference.idleStores.registry.inner.lookup Registry.Reference.key).map _).toList
        ≠ []
      rw [Reference.lookup_idleStores]
      exact List.cons_ne_nil _ _
    · change ((Reference.idleStores.wg.erase Registry.Reference.key).insert ex.peer _).keys = _
      rw [hpeer, Table.keys_insert]
      decide
  rcases hrun with ⟨t, hrun, hsweep, hsettled, hevicted, hwg⟩
  rcases sweep_and_handlers_agree Registry.Reference.keyed Reference.keys_idleStores hrun with
    ⟨hidle, hsame⟩
  exact ⟨ex, t, hrun, hevicted, hwg, hsame hsweep hsettled, hidle⟩

/-- A handler refreshes the idle peer after the snapshot and installs after the removal. -/
theorem live_peer_lost :
    ¬ (∀ (as : List Action) (t : System),
        Run (Step Reference.identity Registry.Reference.codecs Reference.fiveMinutes)
          (.start Reference.idleStores) as t → EvictsIdleRecords Reference.fiveMinutes t) ∧
      ¬ ∀ (as : List Action) (t : System),
        Run (Step Reference.identity Registry.Reference.codecs Reference.fiveMinutes)
          (.start Reference.idleStores) as t → SamePeers t := by
  rcases Reference.genuine_helloWith (.replicate 32 5) with ⟨ex, hex, hhello, hkind, _⟩
  have hpeer : ex.peer = Registry.Reference.key := Reference.peer_of_helloWith hhello
  -- the handler's update makes the peer active, between the snapshot and the removal
  have hrefresh : ∃ q : Peer, q.lastActivity = Reference.tenMinutesLater ∧
      ex.update Reference.tenMinutesLater Reference.idleStores.registry =
        (.ok q.slot, Reference.idleStores.registry.store ex.peer q) :=
    ⟨_, rfl, Exchange.update_known hkind _ (by rw [hpeer]; exact Reference.lookup_idleStores)⟩
  rcases hrefresh with ⟨q, hactive, hupdate⟩
  have hrun : ∃ t, Run (Step Reference.identity Registry.Reference.codecs Reference.fiveMinutes)
      (.start Reference.idleStores)
      [.query (.ok ∅), .snapshot Reference.tenMinutesLater, .handler 0 (.accept ex),
        .handler 0 (.update Reference.tenMinutesLater), .evict, .removePeer,
        .handler 0 .install, .endSweep] t ∧ t.sweep = .sleeping ∧ t.server.Settled ∧
      (∃ e ∈ t.evictions, e.now = Reference.tenMinutesLater ∧
        e.record.lastActivity = Reference.tenMinutesLater) ∧
      Registry.Reference.key ∈ t.server.stores.wg.keys ∧
      Registry.Reference.key ∉ t.server.stores.registry.inner.keys := by
    refine ⟨_, .cons (.query _ rfl) (.cons (.snapshot rfl Reference.idleOrder)
      (.cons (.handler (.accept rfl hex)) (.cons (.handler (.update rfl hupdate))
      (.cons (.evict rfl rfl) (.cons (.removePeer rfl) (.cons (.handler (.install rfl))
      (.single (.endSweep (Registry.Reference.anyOrder _) ⟨.ok (), .ok ()⟩ rfl)))))))),
      rfl, ?_, ?_, ?_, ?_⟩
    · intro id ex' slot
      by_cases hid : id = 0
      · simp [hid, System.setStores]
      · simp [hid, System.setStores, ServerState.setPhase, System.start, ServerState.start]
    · refine ⟨⟨Registry.Reference.key, q, Reference.tenMinutesLater⟩, ?_, rfl, hactive⟩
      have hremoved : (Reference.idleStores.registry.inner.insert ex.peer q).lookup
          Registry.Reference.key = some q := by
        rw [hpeer]
        exact Finmap.lookup_insert _
      simp only [System.setStores, Registry.remove, inner_store, ServerState.setPhase, System.start,
        ServerState.start, hremoved]
      exact List.mem_singleton_self _
    · change Registry.Reference.key ∈
        ((Reference.idleStores.wg.erase Registry.Reference.key).insert ex.peer _).keys
      rw [hpeer, Table.keys_insert]
      exact Finset.mem_insert_self _ _
    · change Registry.Reference.key ∉
        ((Reference.idleStores.registry.inner.insert ex.peer _).erase Registry.Reference.key).keys
      simp [Finmap.mem_keys]
  rcases hrun with ⟨t, hrun, hsweep, hsettled, ⟨e, he, hnow, hfresh⟩, hwg, hregistry⟩
  refine ⟨?_, ?_⟩
  · intro hclaim
    have hold := hclaim _ t hrun e he e.now (le_refl _)
    rw [hnow, hfresh] at hold
    exact absurd hold (by decide)
  · intro hclaim
    rw [hclaim _ t hrun hsweep hsettled] at hwg
    exact hregistry hwg

end Server
end PqcVpn
