import PqcVpn.Network.Model

/-!
# Invariant — what stands behind an accepted `ServerFinish`

The log shows what each handler has done so far, and what clients accepted was computed by honest
parties.  It follows that a client whose `connect` returned `Ok` has a handler that carried the same
exchange through (`serves_of_connected`).
-/

namespace PqcVpn
namespace Network

open Crypto Function Handshake Handshake.Client Registry Server Wire

variable {P : Primitives} {identity : P.SigningKey} {tunnel : TunnelSettings} {c : TextCodecs}
  {timeout : Duration}

/-! ## What a handler has done so far -/

/-- The handler registered its exchange's peer: the record is the exchange's, at the address of the
slot. -/
def Registered (log : List ServerEvent) (id : Nat) (ex : Exchange) (slot : PeerSlot) : Prop :=
  ∃ record, .registered id ex record ∈ log ∧ record.slot = slot ∧
    record.sessionId = ex.sessionId ∧ record.algo = ex.hello.algo

/-- What the log shows about a handler in a given phase. -/
def PhaseLogged (identity : P.SigningKey) (log : List ServerEvent) (id : Nat) : Phase → Prop
  | .idle => True
  | .authorised ex => ex.Genuine identity
  | .updated ex slot => ex.Genuine identity ∧ Registered log id ex slot
  | .installed ex slot => ex.Genuine identity ∧ Registered log id ex slot ∧
      .installed id ex (ex.wgPeer slot) ∈ log
  | .persisted ex slot => ex.Genuine identity ∧ Registered log id ex slot ∧
      .installed id ex (ex.wgPeer slot) ∈ log
  | .closed => True

theorem Registered.mono {log log' : List ServerEvent} {id : Nat} {ex : Exchange} {slot : PeerSlot}
    (hsub : log ⊆ log') (h : Registered log id ex slot) : Registered log' id ex slot := by
  rcases h with ⟨record, hmem, hrecord⟩
  exact ⟨record, hsub hmem, hrecord⟩

theorem PhaseLogged.mono {log log' : List ServerEvent} {id : Nat} {phase : Phase} (hsub : log ⊆ log')
    (h : PhaseLogged identity log id phase) : PhaseLogged identity log' id phase := by
  cases phase with
  | idle => trivial
  | authorised ex => exact h
  | updated ex slot => exact ⟨h.1, h.2.mono hsub⟩
  | installed ex slot => exact ⟨h.1, h.2.1.mono hsub, hsub h.2.2⟩
  | persisted ex slot => exact ⟨h.1, h.2.1.mono hsub, hsub h.2.2⟩
  | closed => trivial

/-- A step that moves one handler and only adds to the log keeps what the log shows about all. -/
theorem phaseLogged_update {log log' : List ServerEvent} {handlers : Nat → Phase} {id : Nat}
    {phase : Phase} (hsub : log ⊆ log') (h : ∀ j, PhaseLogged identity log j (handlers j))
    (hphase : PhaseLogged identity log' id phase) (j : Nat) :
    PhaseLogged identity log' j (update handlers id phase j) := by
  by_cases hj : j = id
  · subst hj
    rw [update_self]
    exact hphase
  · rw [update_of_ne hj]
    exact (h j).mono hsub

/-! ## The invariant -/

structure Inv (identity : P.SigningKey) (tunnel : TunnelSettings) (st : State P) : Prop where
  phases : ∀ id, PhaseLogged identity st.log id (st.system.server.handlers id)
  finished : ∀ {id ex frame}, .finished id ex frame ∈ st.log →
    ∃ slot, PhaseLogged identity st.log id (.persisted ex slot) ∧
      frame = ex.serverFinish P tunnel slot
  connected : ∀ r ∈ st.connected, r.finished ∈ st.agreement.finished ∧ r.client.Finished r.finished ∧
    r.client.connect identity = .ok r.config ∧
    st.Maced r.finished.keys.confirmKey (labelServerFinished ++ r.finished.transcript)

theorem inv_start (stores : Stores) : Inv identity tunnel (State.start stores) where
  phases := fun _ => trivial
  finished := by intro id ex frame h; cases h
  connected := by intro r hr; cases hr

/-- What the parties have tagged, they have tagged. -/
theorem State.Maced.mono {s t : State P} {key : Bytes 32} {message : List UInt8}
    (h : s.Maced key message) (hfinished : s.agreement.finished ⊆ t.agreement.finished)
    (hlog : s.log ⊆ t.log) : t.Maced key message := by
  cases h with
  | client he => exact .client (hfinished he)
  | server h => exact .server (hlog h)

/-- An accepted `ServerHello` stays accepted. -/
theorem finished_subset {a : Agreement.Action P} {s t : Agreement.State P}
    (h : Agreement.Step identity s a t) : s.finished ⊆ t.finished := by
  cases h with
  | finishOk _ _ _ => exact List.subset_cons_self _ _
  | _ => exact fun _ h => h

/-- A step that only adds to what was accepted and logged, moves no client to `Ok`, and logs no
`ServerFinish`. -/
theorem Inv.of_quiet {st st' : State P} (h : Inv identity tunnel st)
    (hfinished : st.agreement.finished ⊆ st'.agreement.finished) (hlog : st.log ⊆ st'.log)
    (hsent : ∀ {id ex frame}, .finished id ex frame ∈ st'.log → .finished id ex frame ∈ st.log)
    (hconnected : st'.connected = st.connected)
    (hphases : ∀ id, PhaseLogged identity st'.log id (st'.system.server.handlers id)) :
    Inv identity tunnel st' where
  phases := hphases
  finished := by
    intro id ex frame hmem
    rcases h.finished (hsent hmem) with ⟨slot, hphase, hframe⟩
    exact ⟨slot, hphase.mono hlog, hframe⟩
  connected := by
    intro r hr
    rw [hconnected] at hr
    rcases h.connected r hr with ⟨hr, hread, hconnect, hmaced⟩
    exact ⟨hfinished hr, hread, hconnect, hmaced.mono hfinished hlog⟩

/-- The sweep moves no handler. -/
theorem handlers_of_sweep {s t : System} {a : Server.Action} (ha : IsSweep a)
    (h : Server.Step identity c timeout s a t) : t.server.handlers = s.server.handlers := by
  cases h with
  | handler _ => exact ha.elim
  | _ => rfl

theorem Inv.step {st st' : State P} {a : Action P} (h : Inv identity tunnel st)
    (hstep : Step identity tunnel c timeout st a st') : Inv identity tunnel st' := by
  cases hstep with
  | start client hstart =>
      exact h.of_quiet (finished_subset hstart) (List.Subset.refl _) id rfl h.phases
  | finish _ _ hfinish =>
      exact h.of_quiet (finished_subset hfinish) (List.Subset.refl _) id rfl h.phases
  | greet _ _ _ _ _ hrespond =>
      exact h.of_quiet (finished_subset hrespond) (List.Subset.refl _) id rfl h.phases
  | @complete client e config hclient he hfinished hconnect hunforged =>
      -- the one step that moves a client to `Ok`: its tag was computed by somebody
      have hmono : ∀ {key message}, st.Maced key message →
          State.Maced { st with connected := ⟨client, e, config⟩ :: st.connected } key message :=
        fun hmaced => hmaced.mono (List.Subset.refl _) (List.Subset.refl _)
      refine ⟨h.phases, h.finished, ?_⟩
      intro r hr
      rcases List.mem_cons.1 hr with rfl | hr
      · exact ⟨he, hfinished, hconnect, hmono (hunforged ⟨e, he, rfl⟩)⟩
      · rcases h.connected r hr with ⟨hr, hread, hconnect', hmaced⟩
        exact ⟨hr, hread, hconnect', hmono hmaced⟩
  | authorise _ _ _ haccept =>
      cases haccept with
      | accept _ hex =>
          exact h.of_quiet (List.Subset.refl _) (List.Subset.refl _) id rfl
            (phaseLogged_update (List.Subset.refl _) h.phases hex)
  | @register id now ex slot record server hregister hphase hrecord =>
      have hsub : st.log ⊆ .registered id ex record :: st.log := List.subset_cons_self _ _
      cases hregister with
      | refuse _ _ =>
          -- a refused handler is closed, not updated
          simp only [update_self] at hphase
          cases hphase
      | @update _ ex' _ slot' r hauthorised hupdate =>
          simp only [update_self, Phase.updated.injEq] at hphase
          rcases hphase with ⟨rfl, rfl⟩
          have hex : PhaseLogged identity st.log id (.authorised ex') := hauthorised ▸ h.phases id
          rcases Exchange.update_ok hupdate with ⟨q, rfl, rfl, hsession, halgo⟩
          cases (Finmap.lookup_insert _).symm.trans hrecord
          refine h.of_quiet (List.Subset.refl _) hsub (fun hmem => by simpa using hmem) rfl
            (phaseLogged_update hsub h.phases ⟨hex, _, List.mem_cons_self, rfl, ?_, halgo⟩)
          exact hsession.trans (Exchange.Genuine.sessionId hex)
  | @refuse id now server hrefuse hphase =>
      cases hrefuse with
      | refuse _ _ =>
          exact h.of_quiet (List.Subset.refl _) (List.Subset.refl _) (fun hmem => hmem) rfl
            (phaseLogged_update (List.Subset.refl _) h.phases trivial)
      | update _ _ =>
          simp only [update_self] at hphase
          cases hphase
  | @install id ex slot entry server hinstall hphase hentry =>
      have hsub : st.log ⊆ .installed id ex entry :: st.log := List.subset_cons_self _ _
      cases hinstall with
      | @install _ ex' slot' hupdated =>
          simp only [update_self, Phase.installed.injEq] at hphase
          rcases hphase with ⟨rfl, rfl⟩
          -- the handler's registration is in the log already; the entry it installs joins it
          have hlogged : PhaseLogged identity st.log id (.updated ex' slot') := hupdated ▸ h.phases id
          cases (Finmap.lookup_insert _).symm.trans hentry
          exact h.of_quiet (List.Subset.refl _) hsub (fun hmem => by simpa using hmem) rfl
            (phaseLogged_update hsub h.phases
              ⟨hlogged.1, hlogged.2.mono hsub, List.mem_cons_self⟩)
  | installFails _ =>
      exact h.of_quiet (List.Subset.refl _) (List.Subset.refl _) (fun hmem => hmem) rfl
        (phaseLogged_update (List.Subset.refl _) h.phases trivial)
  | @persist id server hpersist =>
      cases hpersist with
      | persist _ _ hinstalled =>
          have hlogged := h.phases id
          rw [hinstalled] at hlogged
          exact h.of_quiet (List.Subset.refl _) (List.Subset.refl _) (fun hmem => hmem) rfl
            (phaseLogged_update (List.Subset.refl _) h.phases hlogged)
  | @serverFinish id ex slot server hphase hfinish =>
      have hsub : st.log ⊆ .finished id ex (ex.serverFinish P tunnel slot) :: st.log :=
        List.subset_cons_self _ _
      have hlogged : PhaseLogged identity st.log id (.persisted ex slot) := hphase ▸ h.phases id
      cases hfinish with
      | finish _ =>
          refine ⟨phaseLogged_update hsub h.phases trivial, ?_, ?_⟩
          · -- the new `ServerFinish` comes from the phase its handler was in
            intro id' ex' frame hmem
            rcases List.mem_cons.1 hmem with hnew | hold
            · cases hnew
              exact ⟨slot, hlogged.mono hsub, rfl⟩
            · rcases h.finished hold with ⟨slot', hphase', hframe⟩
              exact ⟨slot', hphase'.mono hsub, hframe⟩
          · intro r hr
            rcases h.connected r hr with ⟨hr, hread, hconnect, hmaced⟩
            exact ⟨hr, hread, hconnect, hmaced.mono (List.Subset.refl _) hsub⟩
  | sweep ha hsweep =>
      refine h.of_quiet (List.Subset.refl _) (List.Subset.refl _) id rfl ?_
      intro id
      rw [handlers_of_sweep ha hsweep]
      exact h.phases id

theorem inv_of_reachable {st : State P} (h : Reachable identity tunnel c timeout st) :
    Inv identity tunnel st :=
  h.invariant (by rintro s ⟨stores, rfl⟩; exact inv_start stores) Inv.step

/-! ## The handler behind an accepted `ServerFinish` -/

/-- Only handlers compute the tag of a `ServerFinish`. -/
theorem State.Maced.of_server {st : State P} {key : Bytes 32} {t : List UInt8}
    (h : st.Maced key (labelServerFinished ++ t)) :
    ∃ id ex frame, .finished id ex frame ∈ st.log ∧ ex.outcome.keys.confirmKey = key ∧
      ex.outcome.transcript = t := by
  generalize hm : labelServerFinished ++ t = m at h
  cases h with
  | client he => exact absurd hm.symm label_append_inj
  | @server id ex frame hlog => exact ⟨id, ex, frame, hlog, rfl, (List.append_cancel_left hm).symm⟩

/-- The frames a connected client read and the keys it derived. -/
theorem completed_of_connected {st : State P} (h : Reachable identity tunnel c timeout st)
    {r : ConnectedRun P} (hr : r ∈ st.connected) :
    ∃ sf, r.client.ReadsFinish sf ∧
      Completed r.client.handshake (Agreement.pinnedKey identity) r.client.stream r.config
        r.finished.serverHello r.finished.keys r.finished.fin r.finished.transcript sf := by
  rcases (inv_of_reachable h).connected r hr with ⟨hfinished, ⟨hclient, s₁, hread⟩, hconnect, _⟩
  have hfinish := ((Agreement.inv_of_reachable (agreement_of_reachable h)).finished _ hfinished).2.1
  rcases hrun : r.client.run identity with ⟨result, s'⟩
  have hresult : result = .ok r.config := by
    rw [ClientRun.connect, hrun] at hconnect
    exact hconnect
  rw [hresult] at hrun
  rcases connect_ok hrun with ⟨sh, keys, fin, t, sf, hcompleted⟩
  rw [Socket.opened_input] at hcompleted
  rcases hcompleted.reads with ⟨s₂, s₃, hread', hread''⟩
  rw [hread] at hread'
  cases hread'
  -- `connect` and the accepted `ServerHello` ran the same `finish`
  have hsame := hcompleted.finish
  rw [hclient] at hfinish
  cases hfinish.symm.trans hsame
  exact ⟨sf, ⟨_, _, _, hread, hread''⟩, hcompleted⟩

/-- The handler `id` carried its exchange through with the keys and the transcript of the connected
client `r`. -/
structure Serves (identity : P.SigningKey) (tunnel : TunnelSettings) (st : State P)
    (r : ConnectedRun P) (id : Nat) (ex : Exchange) (slot : PeerSlot) : Prop where
  genuine : ex.Genuine identity
  registered : Registered st.log id ex slot
  installed : .installed id ex (ex.wgPeer slot) ∈ st.log
  finished : .finished id ex (ex.serverFinish P tunnel slot) ∈ st.log
  transcript : ex.outcome.transcript = r.finished.transcript
  keys : ex.outcome.keys = r.finished.keys
  exchange : Agreement.SameExchange r.client.handshake.hello r.finished.serverHello ex.hello
    ex.outcome.serverHello

theorem serves_of_connected (hP : P.Correct) {st : State P}
    (h : Reachable identity tunnel c timeout st) {r : ConnectedRun P} (hr : r ∈ st.connected) :
    ∃ id ex slot, Serves identity tunnel st r id ex slot := by
  have hinv := inv_of_reachable h
  rcases hinv.connected r hr with ⟨hfinished, ⟨hclient, _⟩, _, hmaced⟩
  have hfinish := ((Agreement.inv_of_reachable (agreement_of_reachable h)).finished _ hfinished).2.1
  rw [hclient] at hfinish
  -- the tag names a handler with the client's transcript, and the transcript fixes the rest
  rcases hmaced.of_server with ⟨id, ex, frame, hlog, hkey, ht⟩
  rcases hinv.finished hlog with ⟨slot, ⟨hgenuine, hregistered, hinstalled⟩, rfl⟩
  have hrespond : ∃ sid nonce seed, respond identity ex.hello sid nonce seed = .ok ex.outcome := by
    rcases hgenuine with ⟨env, w, w₁, rfl, _, _, first, fin, hneg⟩
    exact ⟨_, _, _, hneg.respond⟩
  rcases hrespond with ⟨sid, nonce, seed, hrespond⟩
  have htw : r.finished.transcript = r.client.handshake.transcriptWith r.finished.serverHello :=
    (ClientHandshake.finish_ok hfinish).2.1
  exact ⟨id, ex, slot,
    { genuine := hgenuine
      registered := hregistered
      installed := hinstalled
      finished := hlog
      transcript := ht
      keys := Agreement.keys_eq_of_transcript hP hrespond hfinish ht
      exchange := Agreement.sameExchange_of_transcript hrespond (ht.trans htw) }⟩

end Network
end PqcVpn
