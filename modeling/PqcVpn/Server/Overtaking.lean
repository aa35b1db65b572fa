import PqcVpn.Server.Concurrent
import PqcVpn.Server.Reference

/-!
# Overtaking — the registry and the interface under concurrent handlers

Two handlers of one peer may install in the order opposite to their registry updates.  The registry
is then the primary store and the interface the mirror of `Mirrored`: `peers_agree_of_inOrder` says
that without overtaking each peer's record and tunnel come from one handshake, and
`overtaken_install_disagrees` is a run where they do not.
-/

namespace PqcVpn
namespace Server

open Crypto Function Handshake Registry Transition Wire

variable {P : Primitives} {identity : P.SigningKey} {c : TextCodecs}

/-! ## The registry and the interface as mirrored stores -/

/-- What a handler has written to the registry and not yet to the interface. -/
def Phase.inFlight : Phase → Option (Bytes 32 × WgPeer)
  | .updated ex slot => some (ex.peer, ex.wgPeer slot)
  | _ => none

/-- The abstract state, with the peer whose removal is in progress. -/
def ServerState.mirrored (s : ServerState) (dropping : Option (Bytes 32)) :
    Mirrored (Bytes 32) WgPeer Nat where
  present := {pk | pk ∈ s.stores.registry.inner}
  written := fun pk => (s.lastUpdate pk).map fun u => (u.handler, u.exchange.wgPeer u.slot)
  mirror := s.stores.wg.lookup
  pending := fun id => (s.handlers id).inFlight
  dropping := dropping

theorem ServerState.inFlight_mirrored_iff {s : ServerState} {dropping : Option (Bytes 32)}
    {pk : Bytes 32} :
    (s.mirrored dropping).InFlight pk ↔ ∃ id ex slot, s.handlers id = .updated ex slot ∧
      ex.peer = pk := by
  constructor
  · rintro ⟨id, v, hpending⟩
    change (s.handlers id).inFlight = some (pk, v) at hpending
    cases hphase : s.handlers id with
    | updated ex slot =>
        rw [hphase] at hpending
        cases hpending
        exact ⟨id, ex, slot, hphase, rfl⟩
    | _ => simp [hphase, Phase.inFlight] at hpending
  · rintro ⟨id, ex, slot, hphase, rfl⟩
    exact ⟨id, ex.wgPeer slot, congrArg Phase.inFlight hphase⟩

theorem ServerState.Settled.not_inFlight {s : ServerState} (h : s.Settled)
    {dropping : Option (Bytes 32)} (pk : Bytes 32) : ¬ (s.mirrored dropping).InFlight pk := by
  rw [ServerState.inFlight_mirrored_iff]
  rintro ⟨id, ex, slot, hphase, _⟩
  exact h id ex slot hphase

/-- The handlers' phases after one of them moved. -/
theorem inFlight_update (handlers : Nat → Phase) (id : Nat) (phase : Phase) :
    (fun j => (update handlers id phase j).inFlight) =
      update (fun j => (handlers j).inFlight) id phase.inFlight := by
  funext j
  by_cases hj : j = id
  · subst hj
    simp
  · simp [update_of_ne hj]

/-- A handler that neither starts nor ends a write is invisible to the mirrored stores. -/
theorem mirrored_of_quiet {s t : ServerState} {id : Nat} {phase : Phase}
    {dropping : Option (Bytes 32)} (hinner : t.stores.registry.inner = s.stores.registry.inner)
    (hwg : t.stores.wg = s.stores.wg) (hlast : t.lastUpdate = s.lastUpdate)
    (hhandlers : t.handlers = update s.handlers id phase)
    (hbefore : (s.handlers id).inFlight = none) (hafter : phase.inFlight = none) :
    t.mirrored dropping = s.mirrored dropping := by
  -- the handler had nothing in flight, and still has nothing
  have hpending : (fun j => (t.handlers j).inFlight) = fun j => (s.handlers j).inFlight := by
    rw [hhandlers, inFlight_update, hafter, ← hbefore]
    exact update_eq_self id fun j => (s.handlers j).inFlight
  simp only [ServerState.mirrored, hinner, hwg, hlast, hpending]

/-- Each step of a handler is a write, a flush, or invisible to the mirrored stores. -/
theorem HandlerStep.mirrored {s t : ServerState} {id : Nat} {a : HandlerAction}
    (h : HandlerStep identity c s (id, a) t) (dropping : Option (Bytes 32)) :
    t.mirrored dropping = s.mirrored dropping ∨
      (∃ pk v, Mirrored.Step (s.mirrored dropping) (.write id pk v) (t.mirrored dropping)) ∨
      (a = .install ∧ Mirrored.Step (s.mirrored dropping) (.flush id) (t.mirrored dropping)) := by
  cases h with
  | accept hphase _ =>
      exact .inl (mirrored_of_quiet rfl rfl rfl rfl (congrArg Phase.inFlight hphase) rfl)
  | @update _ ex now slot r hphase hupdate =>
      refine .inr (.inl ⟨ex.peer, ex.wgPeer slot, ?_⟩)
      have hidle : (s.mirrored dropping).pending id = none := congrArg Phase.inFlight hphase
      have hstep := Mirrored.Step.write (k := ex.peer) (v := ex.wgPeer slot) hidle
      -- the record stored is that of the slot, so the abstract write is this one
      rcases Exchange.update_ok hupdate with ⟨q, rfl, rfl, _, _⟩
      convert hstep using 1
      refine Mirrored.ext ?_ ?_ rfl ?_ rfl
      · ext pk
        simp [ServerState.mirrored]
      · funext pk
        by_cases hpk : pk = ex.peer
        · subst hpk
          simp [ServerState.mirrored]
        · simp [ServerState.mirrored, update_of_ne hpk]
      · exact inFlight_update s.handlers id _
  | @refuse _ ex now e r hphase hupdate =>
      have hinner := congrArg Registry.inner (Exchange.update_error hupdate)
      exact .inl (mirrored_of_quiet hinner rfl rfl rfl (congrArg Phase.inFlight hphase) rfl)
  | @install _ ex slot hphase =>
      refine .inr (.inr ⟨rfl, ?_⟩)
      have hpending : (s.mirrored dropping).pending id = some (ex.peer, ex.wgPeer slot) :=
        congrArg Phase.inFlight hphase
      convert Mirrored.Step.flush hpending using 1
      refine Mirrored.ext rfl rfl ?_ ?_ rfl
      · funext pk
        by_cases hpk : pk = ex.peer
        · subst hpk
          simp [ServerState.mirrored, Stores.install, WgInterface.install, Exchange.wgPeer]
        · simp [ServerState.mirrored, Stores.install, WgInterface.install, hpk]
      · exact inFlight_update s.handlers id _
  | persist order os hphase =>
      exact .inl (mirrored_of_quiet rfl rfl rfl rfl (congrArg Phase.inFlight hphase) rfl)
  | finish hphase =>
      exact .inl (mirrored_of_quiet rfl rfl rfl rfl (congrArg Phase.inFlight hphase) rfl)

/-! ## Installs in order -/

/-- A handler installs only if no later update of its peer has been installed before. -/
def InOrder (s : ServerState) : Nat × HandlerAction → Prop
  | (id, .install) => ∀ ex slot u, s.handlers id = .updated ex slot →
      s.lastUpdate ex.peer = some u →
        u.handler = id ∨ ∃ ex' slot', s.handlers u.handler = .updated ex' slot' ∧ ex'.peer = ex.peer
  | _ => True

theorem InOrder.mirrored {s : ServerState} {id : Nat} (h : InOrder s (id, .install))
    {dropping : Option (Bytes 32)} : (s.mirrored dropping).InOrder (.flush id) := by
  intro pk v j w hpending hwritten
  change (s.handlers id).inFlight = some (pk, v) at hpending
  cases hphase : s.handlers id with
  | updated ex slot =>
      rw [hphase] at hpending
      cases hpending
      rcases Option.map_eq_some_iff.1 hwritten with ⟨u, hu, hjw⟩
      cases hjw
      refine (h ex slot u hphase hu).imp_right ?_
      rintro ⟨ex', slot', hphase', hpeer⟩
      refine ⟨ex'.wgPeer slot', ?_⟩
      change (s.handlers u.handler).inFlight = some (ex.peer, ex'.wgPeer slot')
      rw [hphase', ← hpeer]
      rfl
  | _ => simp [hphase, Phase.inFlight] at hpending

theorem followed_of_run {s t : ServerState} {as : List (Nat × HandlerAction)}
    (hrun : Run (Guarded InOrder (HandlerStep identity c)) s as t)
    (hs : (s.mirrored none).Followed) : (t.mirrored none).Followed := by
  refine hrun.invariant (I := fun s => (s.mirrored none).Followed) ?_ hs
  rintro s ⟨id, a⟩ t hfollowed ⟨hok, hstep⟩
  rcases hstep.mirrored none with hsame | ⟨pk, v, hwrite⟩ | ⟨rfl, hflush⟩
  · rw [hsame]
    exact hfollowed
  · exact hfollowed.step (a := .write id pk v) ⟨trivial, hwrite⟩
  · exact hfollowed.step (a := .flush id) ⟨hok.mirrored, hflush⟩

theorem followed_start (stores : Stores) : ((ServerState.start stores).mirrored none).Followed where
  latest := by intro i pk v w h; cases h
  settled := by intro pk j w h; cases h

/-! ## What the registry records -/

/-- The record of each peer is what its last update made it, and a peer nobody updated still has the
record it started with. -/
structure Recorded (identity : P.SigningKey) (stores : Stores) (s : ServerState) : Prop where
  genuine : ∀ {id ex}, s.handlers id = .authorised ex → ex.Genuine identity
  updated : ∀ {pk u}, s.lastUpdate pk = some u → u.exchange.Genuine identity ∧
    u.exchange.peer = pk ∧ ∃ p, s.stores.registry.inner.lookup pk = some p ∧
      p.sessionId = u.exchange.sessionId ∧ p.algo = u.exchange.hello.algo ∧
      p.assignedIp = u.slot.assignedIp
  untouched : ∀ {pk}, s.lastUpdate pk = none →
    s.stores.registry.inner.lookup pk = stores.registry.inner.lookup pk

/-- The session a genuine exchange runs under is the one its `RekeyRequest` claims. -/
theorem Exchange.Genuine.sessionId {ex : Exchange} (h : ex.Genuine identity) :
    ex.rekeySession.getD ex.sessionId = ex.sessionId := by
  rcases h with ⟨env, w, w₁, _, _, _, first, fin, hneg⟩
  have hsession := hneg.sessionId
  cases hkind : ex.rekeySession with
  | none => rfl
  | some sid =>
      rw [hkind] at hsession
      exact hsession.symm

/-- Only genuine exchanges are authorised, after a handler moved to `phase`. -/
theorem genuine_update {handlers : Nat → Phase} {id : Nat} {phase : Phase}
    (h : ∀ {id ex}, handlers id = .authorised ex → ex.Genuine identity)
    (hphase : ∀ ex, phase = .authorised ex → ex.Genuine identity) {id' : Nat} {ex : Exchange}
    (hauth : update handlers id phase id' = .authorised ex) : ex.Genuine identity := by
  by_cases hid : id' = id
  · subst hid
    rw [update_self] at hauth
    exact hphase ex hauth
  · rw [update_of_ne hid] at hauth
    exact h hauth

theorem Recorded.step {stores : Stores} {s t : ServerState} {a : Nat × HandlerAction}
    (h : Recorded identity stores s) (hstep : HandlerStep identity c s a t) :
    Recorded identity stores t := by
  cases hstep with
  | @accept id ex hphase hex =>
      refine ⟨genuine_update h.genuine ?_, h.updated, h.untouched⟩
      rintro _ ⟨⟩
      exact hex
  | @update id ex now slot r hphase hupdate =>
      have hex := h.genuine hphase
      rcases Exchange.update_ok hupdate with ⟨q, rfl, rfl, hsession, halgo⟩
      refine ⟨genuine_update h.genuine (by simp), ?_, ?_⟩
      · intro pk u hu
        by_cases hpk : pk = ex.peer
        · -- the last update of this peer is now the handler's own
          subst hpk
          simp only [update_self, Option.some.injEq] at hu
          subst hu
          exact ⟨hex, rfl, q, Finmap.lookup_insert _, hsession.trans hex.sessionId, halgo, rfl⟩
        · simp only [update_of_ne hpk] at hu
          rcases h.updated hu with ⟨hgenuine, hpeer, p, hp, hrecord⟩
          exact ⟨hgenuine, hpeer, p, (Finmap.lookup_insert_of_ne _ hpk).trans hp, hrecord⟩
      · intro pk hnone
        have hpk : pk ≠ ex.peer := by
          rintro rfl
          simp at hnone
        simp only [update_of_ne hpk] at hnone
        exact (Finmap.lookup_insert_of_ne _ hpk).trans (h.untouched hnone)
  | @refuse id ex now e r hphase hupdate =>
      rw [Exchange.update_error hupdate]
      exact ⟨genuine_update h.genuine (by simp), h.updated, h.untouched⟩
  | install hphase => exact ⟨genuine_update h.genuine (by simp), h.updated, h.untouched⟩
  | persist order os hphase => exact ⟨genuine_update h.genuine (by simp), h.updated, h.untouched⟩
  | finish hphase => exact ⟨genuine_update h.genuine (by simp), h.updated, h.untouched⟩

theorem recorded_start (stores : Stores) : Recorded identity stores (.start stores) where
  genuine := by intro id ex h; simp [ServerState.start] at h
  updated := by intro pk u h; simp [ServerState.start] at h
  untouched := fun _ => rfl

/-! ## Agreement -/

/-- A peer's record and tunnel are those of the handshake that last updated the record. -/
structure FromOneHandshake (identity : P.SigningKey) (s : ServerState) (pk : Bytes 32) (p : Peer)
    (u : Update) : Prop where
  genuine : u.exchange.Genuine identity
  peer : u.exchange.peer = pk
  sessionId : p.sessionId = u.exchange.sessionId
  algo : p.algo = u.exchange.hello.algo
  tunnel : s.stores.wg.lookup pk =
    some { psk := u.exchange.outcome.keys.psk, allowedIp := p.assignedIp }

/-- Every registered peer has the tunnel of the handler that last updated its record, or still has
the record it had in `stores`. -/
def PeersAgree (identity : P.SigningKey) (stores : Stores) (s : ServerState) : Prop :=
  ∀ pk p, s.stores.registry.inner.lookup pk = some p →
    (∃ u, s.lastUpdate pk = some u ∧ FromOneHandshake identity s pk p u) ∨
      (s.lastUpdate pk = none ∧ stores.registry.inner.lookup pk = some p)

/-- Over any number of handlers and any interleaving of their steps without overtaken installs: in
every state where no handler is between its update and its install, the registry and the interface
agree on every peer. -/
theorem peers_agree_of_inOrder {stores : Stores} {t : ServerState}
    {as : List (Nat × HandlerAction)}
    (hrun : Run (Guarded InOrder (HandlerStep identity c)) (.start stores) as t)
    (hsettled : t.Settled) : PeersAgree identity stores t := by
  have hfollowed := followed_of_run hrun (followed_start stores)
  have hrecorded : Recorded identity stores t :=
    hrun.of_guarded.invariant Recorded.step (recorded_start stores)
  intro pk p hp
  cases hlast : t.lastUpdate pk with
  | none => exact .inr ⟨rfl, (hrecorded.untouched hlast).symm.trans hp⟩
  | some u =>
      rcases hrecorded.updated hlast with ⟨hgenuine, hpeer, p', hp', hsession, halgo, hip⟩
      cases hp.symm.trans hp'
      have hwritten : (t.mirrored none).written pk = some (u.handler, u.exchange.wgPeer u.slot) := by
        change (t.lastUpdate pk).map _ = _
        rw [hlast]
        rfl
      -- nothing is in flight, so the last update has reached the interface
      have htunnel := hfollowed.mirror_eq (hsettled.not_inFlight) hwritten
      refine .inl ⟨u, rfl, hgenuine, hpeer, hsession, halgo, ?_⟩
      rw [hip]
      exact htunnel

/-- Two handshakes of one peer, the second of which finds the record of the first. -/
theorem Reference.exists_two_updates :
    ∃ (ex₁ ex₂ : Exchange) (q₁ q₂ : Peer), ex₁.Genuine Reference.identity ∧
      ex₂.Genuine Reference.identity ∧ ex₂.peer = ex₁.peer ∧
      ex₁.outcome.keys.psk ≠ ex₂.outcome.keys.psk ∧
      ex₁.update Registry.Reference.now Reference.stores.registry =
        (.ok q₁.slot, Reference.stores.registry.store ex₁.peer q₁) ∧
      ex₂.update Registry.Reference.now (Reference.stores.registry.store ex₁.peer q₁) =
        (.ok q₂.slot, (Reference.stores.registry.store ex₁.peer q₁).store ex₂.peer q₂) := by
  rcases Reference.genuine_helloWith (.replicate 32 5) with ⟨ex₁, hex₁, hhello₁, hkind₁, hpsk₁⟩
  rcases Reference.genuine_helloWith (.replicate 32 6) with ⟨ex₂, hex₂, hhello₂, hkind₂, hpsk₂⟩
  have hpeer : ex₂.peer = ex₁.peer :=
    (Reference.peer_of_helloWith hhello₂).trans (Reference.peer_of_helloWith hhello₁).symm
  rcases Exchange.update_of_accepts (Reference.accepts_first hkind₁) Registry.Reference.now with
    ⟨q₁, hupdate₁⟩
  have hknown : ex₂.Accepts (Reference.stores.registry.store ex₁.peer q₁) q₁.assignedIp :=
    .known hkind₂ (by rw [hpeer]; exact Finmap.lookup_insert _)
  rcases Exchange.update_of_accepts hknown Registry.Reference.now with ⟨q₂, hupdate₂⟩
  refine ⟨ex₁, ex₂, q₁, q₂, hex₁, hex₂, hpeer, ?_, hupdate₁, hupdate₂⟩
  rw [hpsk₁, hpsk₂]
  decide

/-- After two handlers moved and no other did, nothing is between an update and an install. -/
theorem settled_of_two {s : ServerState} {ex₁ ex₂ : Exchange} {slot₁ slot₂ : PeerSlot}
    (h0 : s.handlers 0 = .installed ex₁ slot₁) (h1 : s.handlers 1 = .installed ex₂ slot₂)
    (hrest : ∀ id, id ≠ 0 → id ≠ 1 → s.handlers id = .idle) : s.Settled := by
  intro id ex slot hphase
  by_cases hid0 : id = 0
  · rw [hid0, h0] at hphase
    cases hphase
  · by_cases hid1 : id = 1
    · rw [hid1, h1] at hphase
      cases hphase
    · rw [hrest id hid0 hid1] at hphase
      cases hphase

/-- Two handlers of one peer, both updated before either installs: the first install is in order
because the handler of the last update is still to install. -/
theorem peers_agree_after_handshake : ∃ (ex₁ ex₂ : Exchange) (t : ServerState),
    ex₂.peer = ex₁.peer ∧ ex₁.outcome.keys.psk ≠ ex₂.outcome.keys.psk ∧
    Run (Guarded InOrder (HandlerStep Reference.identity Registry.Reference.codecs))
      (.start Reference.stores)
      [(0, .accept ex₁), (1, .accept ex₂), (0, .update Registry.Reference.now),
        (1, .update Registry.Reference.now), (0, .install), (1, .install)] t ∧
    (∃ u, t.lastUpdate ex₁.peer = some u ∧ u.exchange = ex₂) ∧
    PeersAgree Reference.identity Reference.stores t := by
  rcases Reference.exists_two_updates with
    ⟨ex₁, ex₂, q₁, q₂, hex₁, hex₂, hpeer, hpsk, hupdate₁, hupdate₂⟩
  have hrun : ∃ t, Run (Guarded InOrder
      (HandlerStep Reference.identity Registry.Reference.codecs)) (.start Reference.stores)
      [(0, .accept ex₁), (1, .accept ex₂), (0, .update Registry.Reference.now),
        (1, .update Registry.Reference.now), (0, .install), (1, .install)] t ∧ t.Settled ∧
      ∃ u, t.lastUpdate ex₁.peer = some u ∧ u.exchange = ex₂ := by
    refine ⟨_, .cons ⟨trivial, .accept rfl hex₁⟩ (.cons ⟨trivial, .accept rfl hex₂⟩
      (.cons ⟨trivial, .update rfl hupdate₁⟩ (.cons ⟨trivial, .update rfl hupdate₂⟩
      (.cons ⟨?_, .install rfl⟩ (.single ⟨?_, .install rfl⟩))))), ?_, ?_⟩
    · -- the last update is the other handler's, whose install is ahead
      intro ex slot u hphase hlast
      cases hphase
      rw [← hpeer] at hlast
      cases (update_self ..).symm.trans hlast
      exact .inr ⟨ex₂, q₂.slot, rfl, hpeer⟩
    · intro ex slot u hphase hlast
      cases hphase
      cases (update_self ..).symm.trans hlast
      exact .inl rfl
    · refine settled_of_two rfl rfl fun id h0 h1 => ?_
      simp [h0, h1, ServerState.setPhase, ServerState.start]
    · rw [← hpeer]
      exact ⟨_, update_self .., rfl⟩
  rcases hrun with ⟨t, hrun, hsettled, hlast⟩
  exact ⟨ex₁, ex₂, t, hpeer, hpsk, hrun, hlast, peers_agree_of_inOrder hrun hsettled⟩

/-- Two handshakes of one peer: the first to update is the last to install. -/
theorem overtaken_install_disagrees :
    ¬ ∀ (as : List (Nat × HandlerAction)) (t : ServerState),
      Run (HandlerStep Reference.identity Registry.Reference.codecs) (.start Reference.stores) as t →
        t.Settled → PeersAgree Reference.identity Reference.stores t := by
  intro hclaim
  rcases Reference.exists_two_updates with
    ⟨ex₁, ex₂, q₁, q₂, hex₁, hex₂, hpeer, hpsk, hupdate₁, hupdate₂⟩
  have hrun : ∃ t, Run (HandlerStep Reference.identity Registry.Reference.codecs)
      (.start Reference.stores)
      [(0, .accept ex₁), (1, .accept ex₂), (0, .update Registry.Reference.now),
        (1, .update Registry.Reference.now), (1, .install), (0, .install)] t ∧ t.Settled ∧
      (∃ p, t.stores.registry.inner.lookup ex₁.peer = some p) ∧
      t.lastUpdate ex₁.peer = some ⟨1, ex₂, q₂.slot⟩ ∧
      t.stores.wg.lookup ex₁.peer = some (ex₁.wgPeer q₁.slot) := by
    refine ⟨_, .cons (.accept rfl hex₁) (.cons (.accept rfl hex₂) (.cons (.update rfl hupdate₁)
      (.cons (.update rfl hupdate₂) (.cons (.install rfl) (.single (.install rfl)))))), ?_, ?_, ?_, ?_⟩
    · refine settled_of_two rfl rfl fun id h0 h1 => ?_
      simp [h0, h1, ServerState.setPhase, ServerState.start]
    · exact ⟨q₂, by rw [← hpeer]; exact Finmap.lookup_insert _⟩
    · rw [← hpeer]
      exact update_self ..
    · exact Finmap.lookup_insert _
  rcases hrun with ⟨t, hrun, hsettled, ⟨p, hp⟩, hlast, htunnel⟩
  rcases hclaim _ t hrun hsettled ex₁.peer p hp with ⟨u, hu, hagree⟩ | ⟨hnone, _⟩
  · -- the registry is the second handshake's, the tunnel the first one's
    cases hlast.symm.trans hu
    have hsame := congrArg (Option.map WgPeer.psk) (htunnel.symm.trans hagree.tunnel)
    exact hpsk (Option.some.inj hsame)
  · simp [hlast] at hnone

end Server
end PqcVpn
