import PqcVpn.Network.Invariant
import PqcVpn.Network.Reference

/-!
# Binding — what a connected client shares with the server

A client whose `connect` returned `Ok` shares transcript and PSK with a handler that registered and
installed them.  Nothing else of the four frames is signed or tagged: the WireGuard key, the session,
the kind of the first message and the tunnel parameters are the same for the client and the server
only as far as the attacker delivers them.
-/

namespace PqcVpn
namespace Network

open Crypto Handshake Handshake.Client Registry Server Wire

variable {P : Primitives} {identity : P.SigningKey} {tunnel : TunnelSettings} {c : TextCodecs}
  {timeout : Duration}

/-- The handler `id` registered and installed its peer over the transcript of `r`, with the PSK the
client holds. -/
structure Answers (st : State P) (r : ConnectedRun P) (id : Nat) (ex : Exchange) (record : Peer)
    (entry : WgPeer) : Prop where
  transcript : ex.outcome.transcript = r.finished.transcript
  registered : .registered id ex record ∈ st.log
  installed : .installed id ex entry ∈ st.log
  psk : entry.psk = r.config.psk

theorem Serves.answers {st : State P} {r : ConnectedRun P} {id : Nat} {ex : Exchange}
    {slot : PeerSlot} (h : Serves identity tunnel st r id ex slot)
    (hpsk : r.config.psk = r.finished.keys.psk) :
    ∃ record, Answers st r id ex record (ex.wgPeer slot) ∧ record.sessionId = ex.sessionId ∧
      record.algo = ex.hello.algo := by
  rcases h.registered with ⟨record, hregistered, _, hsession, halgo⟩
  refine ⟨record, ⟨h.transcript, hregistered, h.installed, ?_⟩, hsession, halgo⟩
  rw [hpsk, ← h.keys]
  rfl

/-! ## Tunnel parameters -/

/-- The configuration holds the tunnel parameters of the frame. -/
def Configures (sf : ServerFinish) (config : TunnelConfig) : Prop :=
  config.assignedIp.octets = sf.assignedIp ∧ config.serverWgPubkey = sf.serverWgPubkey ∧
    config.serverEndpoint.port = sf.wgPort

def SameParameters (sf sf' : ServerFinish) : Prop :=
  sf.assignedIp = sf'.assignedIp ∧ sf.serverWgPubkey = sf'.serverWgPubkey ∧ sf.wgPort = sf'.wgPort

theorem Configures.iff_sameParameters {sf sf' : ServerFinish} {config : TunnelConfig}
    (h : Configures sf config) : Configures sf' config ↔ SameParameters sf sf' := by
  unfold Configures at h ⊢
  rw [h.1, h.2.1, h.2.2]
  rfl

/-- A client's configuration is that of a `ServerFinish` whose tag a handler of the same handshake
computed, after it had registered the peer and installed the client's PSK.  The values are the
handler's exactly if the three fields arrived as they were sent. -/
theorem config_of_connected (hP : P.Correct) {st : State P}
    (h : Reachable identity tunnel c timeout st) {r : ConnectedRun P} (hr : r ∈ st.connected) :
    ∃ id ex record entry sent read, Answers st r id ex record entry ∧
      .finished id ex sent ∈ st.log ∧ r.client.ReadsFinish read ∧
      read.serverTag = sent.serverTag ∧ Configures read r.config ∧
      (Configures sent r.config ↔ SameParameters read sent) := by
  rcases completed_of_connected h hr with ⟨read, hread, hcompleted⟩
  rcases serves_of_connected hP h hr with ⟨id, ex, slot, hserves⟩
  rcases hserves.answers hcompleted.psk with ⟨record, hanswers, _, _⟩
  have hconfigures : Configures read r.config :=
    ⟨hcompleted.assignedIp, hcompleted.serverWgPubkey, hcompleted.port⟩
  have htag : read.serverTag =
      serverTag P r.finished.keys.confirmKey r.finished.transcript :=
    (verifyServerTag_iff P).1 hcompleted.serverTag
  refine ⟨id, ex, record, _, _, read, hanswers, hserves.finished, hread, ?_, hconfigures,
    hconfigures.iff_sameParameters⟩
  rw [htag, ← hserves.keys, ← hserves.transcript]
  rfl

/-- With every field delivered as sent. -/
theorem config_of_faithful_connection :
    ∃ (st : State Crypto.Reference.primitives) (r : ConnectedRun Crypto.Reference.primitives),
      r ∈ st.connected ∧ r.config.serverWgPubkey = Reference.tunnel.serverWgPubkey ∧
      ∃ id ex record entry sent read, Answers st r id ex record entry ∧
        .finished id ex sent ∈ st.log ∧ r.client.ReadsFinish read ∧
        read.serverTag = sent.serverTag ∧ Configures read r.config ∧
        (Configures sent r.config ↔ SameParameters read sent) := by
  rcases Reference.run Reference.faithful (Reference.accepts_fresh rfl) with
    ⟨st, r, _, _, hst, hr, hreaches, _⟩
  exact ⟨st, r, hr, hreaches.serverWgPubkey,
    config_of_connected Crypto.Reference.primitives_correct hst hr⟩

/-- The attacker replaces the server's WireGuard key in `ServerFinish`: no handler sent the client's
configuration. -/
theorem config_rewritten :
    ∃ (st : State Crypto.Reference.primitives) (r : ConnectedRun Crypto.Reference.primitives),
      Reachable Server.Reference.identity Reference.tunnel Registry.Reference.codecs
        Server.Reference.fiveMinutes st ∧ r ∈ st.connected ∧
      ¬ ∃ id ex sent, .finished id ex sent ∈ st.log ∧
        ex.outcome.transcript = r.finished.transcript ∧ Configures sent r.config := by
  rcases Reference.run { Reference.faithful with serverWgPubkey := .replicate 32 9 }
    (Reference.accepts_fresh rfl) with ⟨st, r, ex, record, hst, hr, hreaches, hlog, _⟩
  refine ⟨st, r, hst, hr, ?_⟩
  rintro ⟨id, ex', sent, hmem, _, _, hkey, _⟩
  rw [hlog] at hmem
  have hsent : sent = ex.serverFinish Crypto.Reference.primitives Reference.tunnel record.slot := by
    simp only [List.mem_cons, ServerEvent.finished.injEq, reduceCtorEq, List.not_mem_nil, or_false]
      at hmem
    exact hmem.2.2
  have hother : (Bytes.replicate 32 9 : Bytes 32) ≠ Reference.tunnel.serverWgPubkey := by decide
  rw [hreaches.serverWgPubkey, hsent] at hkey
  exact hother hkey

/-! ## Peer, session and kind of message -/

/-- The hello a handler of the same handshake answered is the client's, but for the WireGuard key. -/
theorem Serves.hello {st : State P} {r : ConnectedRun P} {id : Nat} {ex : Exchange}
    {slot : PeerSlot} (h : Serves identity tunnel st r id ex slot) :
    ex.hello =
      { r.client.handshake.hello.mapAlgo codeOf with clientWgPubkey := ex.hello.clientWgPubkey } := by
  have hsame := h.exchange
  have halgo : ex.hello.algo = codeOf r.client.handshake.hello.algo := by
    rw [← hsame.algo, codeOf_kemOf]
  rcases hex : ex.hello with ⟨algo, nonce, key, x25519, mlkem⟩
  rw [hex] at hsame halgo
  cases hsame.clientNonce
  cases hsame.clientX25519Pub
  cases hsame.clientMlkemPub
  cases halgo
  rfl

/-- A handler of the same handshake registered and installed the client's PSK, at the algorithm of
the client, under the WireGuard key it read and the session it sent; both are the client's as far as
the two hellos arrived as they were sent. -/
theorem binding_of_connected (hP : P.Correct) {st : State P}
    (h : Reachable identity tunnel c timeout st) {r : ConnectedRun P} (hr : r ∈ st.connected) :
    ∃ id ex record entry, Answers st r id ex record entry ∧
      ex.hello = { r.client.handshake.hello.mapAlgo codeOf with clientWgPubkey := ex.peer } ∧
      record.algo = codeOf r.client.algo ∧
      record.sessionId = ex.outcome.serverHello.sessionId ∧
      (firstMessage ex.hello ex.rekeySession =
          .clientHello (r.client.handshake.hello.mapAlgo codeOf) →
        ex.peer = r.client.clientWgPubkey ∧ ex.rekeySession = none) ∧
      (r.finished.serverHello.sessionId = ex.outcome.serverHello.sessionId →
        r.finished.fin.sessionId = record.sessionId) := by
  rcases completed_of_connected h hr with ⟨_, _, hcompleted⟩
  rcases serves_of_connected hP h hr with ⟨id, ex, slot, hserves⟩
  rcases hserves.answers hcompleted.psk with ⟨record, hanswers, hsession, halgo⟩
  -- `respond` copies the session it was given into the hello it sends
  have hsent : ex.outcome.serverHello.sessionId = ex.sessionId := by
    rcases hserves.genuine with ⟨env, w, w₁, _, _, _, first, fin, hneg⟩
    rcases respond_ok rfl hneg.respond with ⟨_, _, _, _, _, _, hreply⟩
    rw [hreply]
  -- and `finish` echoes the session of the hello it read
  have hechoed : r.finished.fin.sessionId = r.finished.serverHello.sessionId := by
    rw [(ClientHandshake.finish_ok hcompleted.finish).2.2.2.1]
  refine ⟨id, ex, record, _, hanswers, hserves.hello, ?_, hsession.trans hsent.symm, ?_, ?_⟩
  · rw [halgo, hserves.hello]
    rfl
  · intro hfirst
    cases hkind : ex.rekeySession with
    | none =>
        rw [hkind] at hfirst
        exact ⟨congrArg ClientHello.clientWgPubkey (Message.clientHello.inj hfirst), rfl⟩
    | some sid =>
        rw [hkind] at hfirst
        cases hfirst
  · intro hdelivered
    rw [hechoed, hdelivered, hsent, hsession]

/-- With every field delivered as sent. -/
theorem binding_of_faithful_connection :
    ∃ (st : State Crypto.Reference.primitives) (r : ConnectedRun Crypto.Reference.primitives),
      r ∈ st.connected ∧ r.client.clientWgPubkey = Reference.clientKey ∧
      ∃ id ex record entry, Answers st r id ex record entry ∧
        ex.hello = { r.client.handshake.hello.mapAlgo codeOf with clientWgPubkey := ex.peer } ∧
        record.algo = codeOf r.client.algo ∧
        record.sessionId = ex.outcome.serverHello.sessionId ∧
        (firstMessage ex.hello ex.rekeySession =
            .clientHello (r.client.handshake.hello.mapAlgo codeOf) →
          ex.peer = r.client.clientWgPubkey ∧ ex.rekeySession = none) ∧
        (r.finished.serverHello.sessionId = ex.outcome.serverHello.sessionId →
          r.finished.fin.sessionId = record.sessionId) := by
  rcases Reference.run Reference.faithful (Reference.accepts_fresh rfl) with
    ⟨st, r, _, _, hst, hr, hreaches, _⟩
  exact ⟨st, r, hr, hreaches.clientWgPubkey,
    binding_of_connected Crypto.Reference.primitives_correct hst hr⟩

theorem Answers.of_log {st : State P} {r : ConnectedRun P} {id id' : Nat} {ex ex' : Exchange}
    {record record' : Peer} {entry entry' : WgPeer} {sent : ServerFinish}
    (hlog : st.log = [.finished id ex sent, .installed id ex entry, .registered id ex record])
    (h : Answers st r id' ex' record' entry') : ex' = ex ∧ record' = record := by
  have hmem := h.registered
  rw [hlog] at hmem
  simp only [List.mem_cons, reduceCtorEq, ServerEvent.registered.injEq, List.not_mem_nil, or_false,
    false_or] at hmem
  exact hmem.2

/-- The attacker changes, in three runs, the WireGuard key of `ClientHello`, the session id of
`ServerHello`, and `ClientHello` to a `RekeyRequest`: each time the client is connected. -/
theorem binding_rewritten :
    (∃ (st : State Crypto.Reference.primitives) (r : ConnectedRun Crypto.Reference.primitives),
      Reachable Server.Reference.identity Reference.tunnel Registry.Reference.codecs
        Server.Reference.fiveMinutes st ∧ r ∈ st.connected ∧
      ∀ id ex record entry, Answers st r id ex record entry → ex.peer ≠ r.client.clientWgPubkey) ∧
    (∃ (st : State Crypto.Reference.primitives) (r : ConnectedRun Crypto.Reference.primitives),
      Reachable Server.Reference.identity Reference.tunnel Registry.Reference.codecs
        Server.Reference.fiveMinutes st ∧ r ∈ st.connected ∧
      ∀ id ex record entry, Answers st r id ex record entry →
        record.sessionId ≠ r.finished.fin.sessionId) ∧
    ∃ (st : State Crypto.Reference.primitives) (r : ConnectedRun Crypto.Reference.primitives),
      Reachable Server.Reference.identity Reference.tunnel Registry.Reference.codecs
        Server.Reference.fiveMinutes st ∧ r ∈ st.connected ∧
      ∀ id ex record entry, Answers st r id ex record entry → ex.rekeySession ≠ none := by
  -- three networks, each rewriting one field that the transcript does not cover
  refine ⟨?_, ?_, ?_⟩
  · rcases Reference.run { Reference.faithful with clientWgPubkey := .replicate 32 9 }
      (Reference.accepts_fresh rfl) with ⟨st, r, ex, record, hst, hr, hreaches, hlog, hpeer, _⟩
    refine ⟨st, r, hst, hr, ?_⟩
    intro id ex' record' entry h
    rw [(h.of_log hlog).1, hpeer, hreaches.clientWgPubkey]
    decide
  · rcases Reference.run { Reference.faithful with sessionId := .replicate 16 9 }
      (Reference.accepts_fresh rfl) with
      ⟨st, r, ex, record, hst, hr, hreaches, hlog, _, _, hsession⟩
    refine ⟨st, r, hst, hr, ?_⟩
    intro id ex' record' entry h
    rw [(h.of_log hlog).2, hsession, hreaches.sessionId]
    decide
  · rcases Reference.run
      { Reference.faithful with
        clientWgPubkey := Registry.Reference.key
        rekeySession := some Registry.Reference.session }
      (Reference.accepts_rekey rfl rfl) with ⟨st, r, ex, record, hst, hr, _, hlog, _, hkind, _⟩
    refine ⟨st, r, hst, hr, ?_⟩
    intro id ex' record' entry h
    rw [(h.of_log hlog).1, hkind]
    exact Option.some_ne_none _

end Network
end PqcVpn
