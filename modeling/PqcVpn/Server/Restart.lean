import PqcVpn.Lib.Snapshot
import PqcVpn.Server.Reference
import PqcVpn.Server.Reconcile

/-!
# Restart — a crash at any point, and the server that starts again

Handlers run as in `Concurrent`, except that an install may fail and that every persist succeeds,
until the process dies between two of their steps.  What it leaves behind is the interface and the
peers file; the next process loads the file and reconciles the interface with it.

The file is the registry's durable copy in the sense of `Snapshot`: a handler is a writer of its
peer's record, its `persist` is a save of the whole map, and it answers with `ServerFinish` only
afterwards.
-/

namespace PqcVpn
namespace Server

open Crypto Function Handshake Registry Transition Wire

variable {P : Primitives}

/-! ## The process -/

/-- What the server is started with: the arguments of `Registry::load`. -/
structure Config where
  path : String
  subnetBase : Bytes 4
  maxPeers : Nat

/-- `Registry::load` of the file on disk. -/
def Config.load (cfg : Config) (c : TextCodecs) (onDisk : Option (List UInt8)) :
    Option (Except IoError Registry) :=
  Registry.load c cfg.path (.ofDisk onDisk) cfg.subnetBase cfg.maxPeers

/-- The running server, with the answers its handlers have sent. -/
structure Process where
  server : ServerState
  /-- The handlers that sent `ServerFinish`, each with its exchange and the slot it answered. -/
  answered : List Update

def Process.start (stores : Stores) : Process := { server := .start stores, answered := [] }

/-- The `ServerFinish` a step sends. -/
def ServerState.answers (s : ServerState) : Nat × HandlerAction → List Update
  | (id, .finish) =>
      match s.handlers id with
      | .persisted ex slot => [⟨id, ex, slot⟩]
      | _ => []
  | _ => []

inductive ProcessStep (identity : P.SigningKey) (c : TextCodecs) :
    Process → Nat × HandlerAction → Process → Prop
  | handler {s : Process} {t : ServerState} {a : Nat × HandlerAction}
      (h : HandlerStep identity c s.server a t)
      (hpersist : a.2 = .persist → ∃ order os,
        s.server.stores.persist c order os = (.ok (), t.stores)) :
      ProcessStep identity c s a { server := t, answered := s.server.answers a ++ s.answered }
  | installFails {s : Process} {id : Nat} {ex : Exchange} {slot : PeerSlot}
      (hphase : s.server.handlers id = .updated ex slot) :
      ProcessStep identity c s (id, .install)
        { s with server := s.server.setPhase id .closed }

/-- A server that loaded its peers file, over whatever is on the interface. -/
def Process.Initial (cfg : Config) (c : TextCodecs) (s : Process) : Prop :=
  ∃ registry wg onDisk, cfg.load c onDisk = some (.ok registry) ∧
    s = .start { registry := registry, wg := wg, onDisk := onDisk }

/-- The states in which a crash can find the server. -/
def Process.Reachable (identity : P.SigningKey) (c : TextCodecs) (cfg : Config) (s : Process) :
    Prop :=
  Transition.Reachable (Process.Initial cfg c) (ProcessStep identity c) s

/-! ## The file as a snapshot -/

/-- What a client holds of its registration. -/
structure Terms where
  sessionId : Bytes 16
  algo : AlgoCode
  assignedIp : Ipv4Addr

def termsOf (p : Peer) : Terms :=
  { sessionId := p.sessionId, algo := p.algo, assignedIp := p.assignedIp }

@[simp] theorem termsOf_restored (p : Peer) : termsOf p.restored = termsOf p := rfl

def Update.terms (u : Update) : Terms :=
  { sessionId := u.slot.sessionId
    algo := u.exchange.hello.algo
    assignedIp := u.slot.assignedIp }

/-- The terms a load of the file would find. -/
def Config.savedTerms (cfg : Config) (c : TextCodecs) (onDisk : Option (List UInt8))
    (k : Bytes 32) : Option Terms :=
  match cfg.load c onDisk with
  | some (.ok r) => (r.inner.lookup k).map termsOf
  | _ => none

def Phase.IsPersisted : Phase → Prop
  | .persisted _ _ => True
  | _ => False

/-- The handlers whose `persist` is behind them. -/
def Process.durable (s : Process) : Set Nat :=
  {id | (s.server.handlers id).IsPersisted ∨ ∃ u ∈ s.answered, u.handler = id}

def Process.snapshot (cfg : Config) (c : TextCodecs) (s : Process) :
    Snapshot (Bytes 32) Terms Nat where
  live k := (s.server.stores.registry.inner.lookup k).map termsOf
  saved := cfg.savedTerms c s.server.stores.onDisk
  lastWrite k := (s.server.lastUpdate k).map fun u => (u.handler, u.terms)
  durable := s.durable

/-- The invariant of a running server. -/
structure Process.Inv (cfg : Config) (c : TextCodecs) (s : Process) : Prop where
  path : s.server.stores.registry.path = some cfg.path
  keyed : s.server.stores.registry.Keyed
  /-- A handler that answered takes no more steps. -/
  closed : ∀ u ∈ s.answered, s.server.handlers u.handler = .closed
  loads : ∃ r, cfg.load c s.server.stores.onDisk = some (.ok r)
  safe : (s.snapshot cfg c).Safe

namespace Process

variable {cfg : Config} {c : TextCodecs} {s : Process}

theorem inv_of_initial (h : Initial cfg c s) : Inv cfg c s := by
  rcases h with ⟨r, wg, onDisk, hload, rfl⟩
  exact
    { path := (load_ok hload).1
      keyed := keyed_of_load hload
      closed := by
        intro u hu
        cases hu
      loads := ⟨r, hload⟩
      safe := .of_unwritten fun _ => rfl }

/-! ## Each step keeps the invariant -/

theorem Inv.closed_update (h : Inv cfg c s) {id : Nat} (hopen : s.server.handlers id ≠ .closed)
    (phase : Phase) : ∀ u ∈ s.answered, update s.server.handlers id phase u.handler = .closed := by
  intro u hu
  have hclosed := h.closed u hu
  have hne : u.handler ≠ id := by
    intro heq
    rw [heq] at hclosed
    exact hopen hclosed
  rw [update_of_ne hne]
  exact hclosed

/-- An open handler has not answered. -/
theorem Inv.mem_durable_iff (h : Inv cfg c s) {id : Nat} (hopen : s.server.handlers id ≠ .closed) :
    id ∈ s.durable ↔ (s.server.handlers id).IsPersisted := by
  constructor
  · rintro (hpersisted | ⟨u, hu, rfl⟩)
    · exact hpersisted
    · exact absurd (h.closed u hu) hopen
  · exact .inl

/-- Phases before and after a `persist` make no difference to what is durable. -/
theorem durable_update {handlers : Nat → Phase} {answered : List Update} {id : Nat} {phase : Phase}
    (hold : ¬ (handlers id).IsPersisted) (hnew : ¬ phase.IsPersisted) (j : Nat) :
    ((update handlers id phase j).IsPersisted ∨ ∃ u ∈ answered, u.handler = j) ↔
      ((handlers j).IsPersisted ∨ ∃ u ∈ answered, u.handler = j) := by
  by_cases hj : j = id
  · subst hj
    rw [update_self]
    simp only [hold, hnew]
  · rw [update_of_ne hj]

/-- A step that leaves the registry, the file and the last updates alone. -/
theorem Inv.of_phase (h : Inv cfg c s) {id : Nat} {phase : Phase} (wg : WgInterface)
    (hopen : s.server.handlers id ≠ .closed) (hold : ¬ (s.server.handlers id).IsPersisted)
    (hnew : ¬ phase.IsPersisted) :
    Inv cfg c
      { s with
        server :=
          { s.server with
            stores := { s.server.stores with wg := wg }
            handlers := update s.server.handlers id phase } } where
  path := h.path
  keyed := h.keyed
  closed := h.closed_update hopen phase
  loads := h.loads
  safe := by
    -- no handler gains or loses a persisted update, so the same updates are durable
    have hdurable : durable
        { s with
          server :=
            { s.server with
              stores := { s.server.stores with wg := wg }
              handlers := update s.server.handlers id phase } } = s.durable :=
      Set.ext (durable_update hold hnew)
    simp only [snapshot, hdurable]
    exact h.safe

/-- The registry update of a handler is a write of its peer's terms. -/
theorem Inv.of_update (h : Inv cfg c s) {id : Nat} {ex : Exchange} {now : SystemTime}
    {slot : PeerSlot} {r : Registry} (hphase : s.server.handlers id = .authorised ex)
    (hupdate : ex.update now s.server.stores.registry = (.ok slot, r)) :
    Inv cfg c
      { s with
        server :=
          { stores := { s.server.stores with registry := r }
            handlers := update s.server.handlers id (.updated ex slot)
            lastUpdate := update s.server.lastUpdate ex.peer (some ⟨id, ex, slot⟩) } } := by
  have hopen : s.server.handlers id ≠ .closed := by
    simp [hphase]
  have hold : ¬ (s.server.handlers id).IsPersisted := by
    simp [hphase, Phase.IsPersisted]
  have hexec : (s.server.stores.registry.exec (ex.op now)).2 = r := by
    rw [Exchange.exec_op, hupdate]
  rcases Exchange.update_ok hupdate with ⟨q, hslot, hstore, _, halgo⟩
  refine
    { path := ?_
      keyed := ?_
      closed := h.closed_update hopen _
      loads := h.loads
      safe := ?_ }
  · rw [← hexec, path_exec]
    exact h.path
  · rw [← hexec]
    exact h.keyed.exec _
  -- the handler is not durable yet, so its write only makes the peer's saved terms stale
  · have hwrite := h.safe.step (Snapshot.Step.write ex.peer (Update.terms ⟨id, ex, slot⟩)
      (fun hmem => hold ((h.mem_durable_iff hopen).1 hmem)))
    refine cast (congrArg Snapshot.Safe ?_) hwrite
    simp only [snapshot, Snapshot.mk.injEq, true_and]
    refine ⟨?_, ?_, ?_⟩
    · funext k
      have hterms : termsOf q = Update.terms ⟨id, ex, slot⟩ := by
        rw [hslot]
        simp only [termsOf, Update.terms, halgo, Peer.slot]
      rw [hstore, inner_store, Table.lookup_insert_eq, update_apply, ← hterms]
      split <;> rfl
    · funext k
      rw [update_apply, update_apply]
      split <;> rfl
    · have hnew : ¬ (Phase.updated ex slot).IsPersisted := not_false
      exact (Set.ext (durable_update hold hnew)).symm

/-- A `persist` that succeeds saves the terms of every peer. -/
theorem Inv.of_persist (hc : c.RoundTrip) (h : Inv cfg c s) {id : Nat} {ex : Exchange}
    {slot : PeerSlot} {order : s.server.stores.registry.Iteration} {os : PersistIo} {stores : Stores}
    (hphase : s.server.handlers id = .installed ex slot)
    (hpersist : s.server.stores.persist c order os = (.ok (), stores)) :
    Inv cfg c
      { s with
        server :=
          { s.server with
            stores := stores
            handlers := update s.server.handlers id (.persisted ex slot) } } := by
  have hopen : s.server.handlers id ≠ .closed := by
    simp [hphase]
  rcases hdisk : s.server.stores.registry.persist c order os s.server.stores.onDisk with
    ⟨result, onDisk⟩
  rw [Stores.persist, hdisk] at hpersist
  cases hpersist
  rcases persist_eq_ok h.path hdisk with ⟨content, rfl, hjson⟩
  rcases load_toFile hc h.keyed order hjson cfg.path cfg.subnetBase cfg.maxPeers with
    ⟨r, hload, _, _, _, hlookup⟩
  refine
    { path := h.path
      keyed := h.keyed
      closed := h.closed_update hopen _
      loads := ⟨r, hload⟩
      safe := ?_ }
  -- the file now holds everyone's current terms, this handler's among them
  have hsave := h.safe.step (Snapshot.Step.save _ id)
  refine cast (congrArg Snapshot.Safe ?_) hsave
  simp only [snapshot, Snapshot.mk.injEq, true_and]
  refine ⟨?_, ?_⟩
  · funext k
    have hloaded : cfg.load c (some content) = some (.ok r) := hload
    simp only [Config.savedTerms, hloaded, hlookup, Option.map_map]
    rfl
  · ext j
    by_cases hj : j = id
    · subst hj
      simp [durable, Phase.IsPersisted]
    · simp [durable, hj]

/-- `ServerFinish` is sent by a handler that is already durable. -/
theorem Inv.of_finish (h : Inv cfg c s) {id : Nat} {ex : Exchange} {slot : PeerSlot}
    (hphase : s.server.handlers id = .persisted ex slot) :
    Inv cfg c
      { server := s.server.setPhase id .closed
        answered := ⟨id, ex, slot⟩ :: s.answered } := by
  have hopen : s.server.handlers id ≠ .closed := by
    simp [hphase]
  refine
    { path := h.path
      keyed := h.keyed
      closed := ?_
      loads := h.loads
      safe := ?_ }
  · intro u hu
    rcases List.mem_cons.1 hu with rfl | hu
    · exact update_self ..
    · exact h.closed_update hopen .closed u hu
  -- the handler stays durable: it was persisted, and now it is answered
  · have hdurable : durable
        { server := s.server.setPhase id .closed
          answered := ⟨id, ex, slot⟩ :: s.answered } = s.durable := by
      ext j
      by_cases hj : j = id
      · subst hj
        simp [durable, hphase, Phase.IsPersisted]
      · simp [durable, ServerState.setPhase, hj, Ne.symm hj]
    have hsafe := h.safe
    simp only [snapshot] at hsafe ⊢
    rw [hdurable]
    exact hsafe

variable {identity : P.SigningKey} {t : Process} {a : Nat × HandlerAction}

theorem Inv.step (hc : c.RoundTrip) (h : Inv cfg c s) (hstep : ProcessStep identity c s a t) :
    Inv cfg c t := by
  cases hstep with
  | handler hstep hpersist =>
      cases hstep with
      | accept hphase hex =>
          exact h.of_phase s.server.stores.wg (by simp [hphase]) (by simp [hphase, Phase.IsPersisted])
            not_false
      | update hphase hupdate =>
          exact h.of_update hphase hupdate
      | refuse hphase hupdate =>
          -- a refused exchange leaves the registry as it was
          cases Exchange.update_error hupdate
          exact h.of_phase s.server.stores.wg (by simp [hphase]) (by simp [hphase, Phase.IsPersisted])
            not_false
      | install hphase =>
          exact h.of_phase _ (by simp [hphase]) (by simp [hphase, Phase.IsPersisted]) not_false
      | persist order os hphase =>
          rcases hpersist rfl with ⟨order', os', hsucceeds⟩
          exact h.of_persist hc hphase hsucceeds
      | @finish id ex slot hphase =>
          have hanswers : s.server.answers (id, .finish) = [⟨id, ex, slot⟩] := by
            simp only [ServerState.answers, hphase]
          rw [hanswers]
          exact h.of_finish hphase
  | installFails hphase =>
      exact h.of_phase s.server.stores.wg (by simp [hphase]) (by simp [hphase, Phase.IsPersisted])
        not_false

theorem inv_of_reachable (hc : c.RoundTrip) (h : Reachable identity c cfg s) : Inv cfg c s :=
  h.invariant inv_of_initial (Inv.step hc)

/-- The file holds the terms of a handler that answered, until its peer is registered anew. -/
theorem Inv.savedTerms (h : Inv cfg c s) {u : Update} (hu : u ∈ s.answered) {pk : Bytes 32}
    (hlast : s.server.lastUpdate pk = some u) :
    cfg.savedTerms c s.server.stores.onDisk pk = some u.terms := by
  have hwrite : (s.snapshot cfg c).lastWrite pk = some (u.handler, u.terms) := by
    simp only [snapshot, hlast, Option.map_some]
  exact h.safe.saved hwrite (.inr ⟨u, hu, rfl⟩)

end Process

/-! ## A handler that answers -/

theorem persist_succeeds {c : TextCodecs} (hc : c.RoundTrip) (s : Stores)
    (order : s.registry.Iteration) : (s.persist c order ⟨.ok (), .ok ()⟩).1 = .ok () := by
  rcases hc.json (s.registry.toFile c order) with ⟨json, hjson, _⟩
  unfold Stores.persist Registry.persist
  cases s.registry.path with
  | none => rfl
  | some path =>
      rw [hjson]

/-- A handler nobody interrupts answers an exchange that the registry accepts. -/
theorem answers_run {c : TextCodecs} (hc : c.RoundTrip) {identity : P.SigningKey} {s : Process}
    (id : Nat) {ex : Exchange} {now : SystemTime} {slot : PeerSlot} {r : Registry}
    (hidle : s.server.handlers id = .idle) (hex : ex.Genuine identity)
    (hupdate : ex.update now s.server.stores.registry = (.ok slot, r)) (order : r.Iteration) :
    ∃ as t, Run (ProcessStep identity c) s as t ∧ ⟨id, ex, slot⟩ ∈ t.answered ∧
      t.server.lastUpdate ex.peer = some ⟨id, ex, slot⟩ := by
  have hpersist := persist_succeeds hc
    (({ s.server.stores with registry := r } : Stores).install ex slot (.ok ())) order
  -- the five steps of the handler, none of them interrupted
  have hrun : ∃ t, Run (ProcessStep identity c) s
      [(id, .accept ex), (id, .update now), (id, .install), (id, .persist), (id, .finish)] t ∧
      t.answered = ⟨id, ex, slot⟩ :: s.answered ∧
      t.server.lastUpdate ex.peer = some ⟨id, ex, slot⟩ :=
    ⟨_, .cons (.handler (.accept hidle hex) nofun) (.cons
      (.handler (.update (update_self ..) hupdate) nofun) (.cons
      (.handler (.install (update_self ..)) nofun) (.cons
      (.handler (.persist order ⟨.ok (), .ok ()⟩ (update_self ..))
        fun _ => ⟨order, ⟨.ok (), .ok ()⟩, Prod.ext hpersist rfl⟩) (.single
      (.handler (.finish (update_self ..)) nofun))))), by simp [ServerState.answers],
      update_self ..⟩
  rcases hrun with ⟨t, hrun, hanswered, hlast⟩
  exact ⟨_, t, hrun, by rw [hanswered]; exact List.mem_cons_self, hlast⟩

/-! ## After the crash -/

/-- A rekey of the session a registry holds, at no weaker level, is granted under the same terms;
what other peers do in between does not matter. -/
theorem rekey_of_terms {r : Registry} {pk : Bytes 32} {terms : Terms}
    (hterms : (r.inner.lookup pk).map termsOf = some terms) {ops : List Op}
    (hops : ∀ op ∈ ops, op.key ≠ some pk) {ex : Exchange} (hpeer : ex.peer = pk)
    (hrekey : ex.rekeySession = some terms.sessionId) (halgo : terms.algo ≤ ex.hello.algo)
    (now : SystemTime) :
    ∃ r', ex.update now (r.run ops) =
      (.ok { sessionId := terms.sessionId, assignedIp := terms.assignedIp }, r') := by
  rcases Option.map_eq_some_iff.1 hterms with ⟨p, hp, rfl⟩
  have hlookup : (r.run ops).inner.lookup ex.peer = some p := by
    rw [hpeer, lookup_run_of_ne hops, hp]
  have hok : ¬ ex.hello.algo < p.algo := not_lt.2 halgo
  simp only [Exchange.update, hrekey, rekey, hlookup, termsOf, hok, ne_eq, not_true_eq_false,
    ite_false]
  exact ⟨_, rfl⟩

/-- The stores of the next process: the registry it loaded, and what the crash left. -/
def Stores.restarted (s : Stores) (registry : Registry) : Stores :=
  { registry := registry
    wg := s.wg
    onDisk := s.onDisk }

/-- Crash and restart: a client that was answered, and whose peer no handler has updated since, is
registered as it was and can rekey; and the interface is left with its registered peers. -/
theorem crash_restart_consistent {cfg : Config} {c : TextCodecs} (hc : c.RoundTrip)
    {identity : P.SigningKey} {s : Process} (h : s.Reachable identity c cfg) :
    ∃ r, cfg.load c s.server.stores.onDisk = some (.ok r) ∧
      (∀ u ∈ s.answered, s.server.lastUpdate u.exchange.peer = some u →
        (∃ p, r.inner.lookup u.exchange.peer = some p ∧ p.sessionId = u.slot.sessionId ∧
          p.algo = u.exchange.hello.algo ∧ p.assignedIp = u.slot.assignedIp) ∧
        ∀ (ops : List Op) (ex : Exchange) (now : SystemTime),
          (∀ op ∈ ops, op.key ≠ some u.exchange.peer) → ex.peer = u.exchange.peer →
          ex.rekeySession = some u.slot.sessionId → u.exchange.hello.algo ≤ ex.hello.algo →
          ∃ r', ex.update now (r.run ops) = (.ok u.slot, r')) ∧
      ∀ (installed : Listing s.server.stores.wg) (removePeer : Bytes 32 → Except InstallError Unit),
        (∀ pk, removePeer pk = .ok ()) →
        ∃ wg report,
          reconcileWgPeers (s.server.stores.restarted r) (.ok installed) removePeer =
            ({ registry := r, wg := wg, onDisk := s.server.stores.onDisk }, some report) ∧
          (∀ pk ∈ wg, pk ∈ r.inner) ∧
          ∀ pk ∈ r.inner, wg.lookup pk = s.server.stores.wg.lookup pk := by
  have hinv := Process.inv_of_reachable hc h
  rcases hinv.loads with ⟨r, hload⟩
  refine ⟨r, hload, ?_, ?_⟩
  · intro u hu hlast
    -- an answer was preceded by a persist, and nobody wrote the peer's terms since
    have hterms : (r.inner.lookup u.exchange.peer).map termsOf = some u.terms := by
      have hsaved := hinv.savedTerms hu hlast
      simp only [Config.savedTerms, hload] at hsaved
      exact hsaved
    refine ⟨?_, ?_⟩
    · rcases Option.map_eq_some_iff.1 hterms with ⟨p, hp, hpterms⟩
      exact ⟨p, hp, congrArg Terms.sessionId hpterms, congrArg Terms.algo hpterms,
        congrArg Terms.assignedIp hpterms⟩
    · intro ops ex now hops hpeer hrekey halgo
      exact rekey_of_terms hterms hops hpeer hrekey halgo now
  · intro installed removePeer hremove
    -- reconciliation keeps on the interface what the loaded registry knows
    have hlookup (k : Bytes 32) :
        (reconcileWgPeers (s.server.stores.restarted r) (.ok installed) removePeer).1.wg.lookup k =
          if k ∈ r.pubkeys then s.server.stores.wg.lookup k else none :=
      lookup_reconcileWgPeers_of_ok hremove (s.server.stores.restarted r) installed k
    refine ⟨_, _, rfl, ?_, ?_⟩
    · intro pk hpk
      by_contra hunknown
      have hgone := hlookup pk
      rw [if_neg (mt mem_pubkeys_iff.1 hunknown)] at hgone
      exact Finmap.lookup_eq_none.1 hgone hpk
    · intro pk hpk
      have hkept := hlookup pk
      rw [if_pos (mem_pubkeys_iff.2 hpk)] at hkept
      exact hkept

/-- One client of a new server is answered, and the server crashes. -/
theorem crash_restart_consistent_once :
    ∃ (cfg : Config) (s : Process) (u : Update) (r : Registry) (p : Peer),
      s.Reachable Reference.identity Registry.Reference.codecs cfg ∧ u ∈ s.answered ∧
      cfg.load Registry.Reference.codecs s.server.stores.onDisk = some (.ok r) ∧
      r.inner.lookup u.exchange.peer = some p ∧ p.sessionId = u.slot.sessionId := by
  rcases Reference.genuine_helloWith (.replicate 32 5) with ⟨ex, hex, _, hkind, _⟩
  let cfg : Config := { path := "peers.json", subnetBase := ⟨[10, 8, 0, 0], rfl⟩, maxPeers := 64 }
  let stores : Stores :=
    { registry := { Registry.Reference.empty with path := some "peers.json" }
      wg := ∅
      onDisk := none }
  -- an empty registry takes its first peer
  have haccepts : ex.Accepts stores.registry (.new 10 8 0 2) :=
    .new hkind (Finmap.lookup_empty _) (by decide) (by decide)
  rcases Exchange.update_of_accepts haccepts Registry.Reference.now with ⟨q, hupdate⟩
  have hinit : Process.Initial cfg Registry.Reference.codecs (.start stores) :=
    ⟨stores.registry, ∅, none, rfl, rfl⟩
  rcases answers_run Registry.Reference.codecs_roundTrip (s := .start stores) 0 rfl hex hupdate
    (Registry.Reference.anyOrder _) with ⟨as, t, hrun, hanswered, hlast⟩
  have hreachable : t.Reachable Reference.identity Registry.Reference.codecs cfg :=
    ⟨_, as, hinit, hrun⟩
  rcases crash_restart_consistent Registry.Reference.codecs_roundTrip hreachable with
    ⟨r, hload, hkept, _⟩
  rcases (hkept _ hanswered hlast).1 with ⟨p, hp, hsession, _⟩
  exact ⟨cfg, t, _, r, p, hreachable, hanswered, hload, hp, hsession⟩

end Server
end PqcVpn
