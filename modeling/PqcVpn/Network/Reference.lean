import PqcVpn.Network.Model
import PqcVpn.Server.Reference

/-!
# Reference — what neither signature nor tag covers

`Meets.run` carries one client and one handler through to the end.  Over the reference cryptography
`Reference.meets` lets the attacker fill in every field of the four frames that neither the
signature nor the two tags cover, as it likes.
-/

namespace PqcVpn
namespace Network

open Crypto Function Handshake Handshake.Client Registry Server Transition Wire

/-! ## One client and one handler -/

section

variable {P : Primitives} {identity : P.SigningKey} {tunnel : TunnelSettings} {c : TextCodecs}
  {timeout : Duration}

/-- The bytes a client and a handler read take both of them through one exchange. -/
structure Meets (identity : P.SigningKey) (tunnel : TunnelSettings) (stores : Stores)
    (connection : Connection P) (ex : Exchange) (r : ConnectedRun P) : Prop where
  hidentity : connection.env.identity = identity
  htunnel : connection.env.tunnel = tunnel
  authorised : ∃ w₁, Authorised connection.env (.start stores connection.stream) ex w₁
  finished : r.client.Finished r.finished
  finish : r.finished.client.finish r.finished.serverHello (Agreement.pinnedKey identity) =
    .ok (r.finished.keys, r.finished.fin, r.finished.transcript)
  transcript : ex.outcome.transcript = r.finished.transcript
  keys : ex.outcome.keys = r.finished.keys
  connect : r.client.connect identity = .ok r.config

/-- The two hellos: the client sends its own, the server answers one, the client accepts one. -/
theorem Meets.run_hellos {stores : Stores} {connection : Connection P} {ex : Exchange}
    {r : ConnectedRun P} (h : Meets identity tunnel stores connection ex r) (c : TextCodecs)
    (timeout : Duration) :
    ∃ st, Run (Step identity tunnel c timeout) (.start stores)
        [.start r.client, .greet 0 connection, .finish r.client r.finished.serverHello] st ∧
      st.system = .start stores ∧ r.finished ∈ st.agreement.finished ∧
      st.connections 0 = some connection ∧ r.client ∈ st.clients ∧ st.log = [] := by
  rcases h.authorised with ⟨w₁, _, _, first, fin, hneg⟩
  rcases hneg.frames with ⟨t₁, t₂, hfirst, _, _⟩
  rcases h.finished with ⟨hclient, s₁, hread⟩
  have hrespond := hneg.respond
  rw [hneg.sessionId, h.hidentity] at hrespond
  have hfinish := h.finish
  rw [hclient] at hfinish
  have ht : r.client.handshake.transcriptWith r.finished.serverHello = ex.outcome.transcript :=
    ((ClientHandshake.finish_ok hfinish).2.1.symm.trans h.transcript.symm)
  -- the answer is signed by the server, so the client's signature check is no forgery
  refine ⟨_, .cons (.start r.client (.start _ _ _ _)) <|
    .cons (.greet rfl h.hidentity h.htunnel hfirst hneg.hello (.respondOk hrespond)) <|
    .single (.finish List.mem_cons_self hread (.finishOk List.mem_cons_self ?_ hfinish)),
    rfl, ?_, rfl, List.mem_cons_self, rfl⟩
  · intro _
    rw [ht]
    exact List.mem_cons_self
  · rw [← hclient]
    exact List.mem_cons_self

/-- From its authorisation on nothing stops a handler whose exchange the registry accepts. -/
theorem run_handler (tunnel : TunnelSettings) (c : TextCodecs) (timeout : Duration) {st : State P}
    {id : Nat} {connection : Connection P} {ex : Exchange} {w₁ : World} {now : SystemTime}
    {record : Peer} (order : (r : Registry) → r.Iteration)
    (hidentity : connection.env.identity = identity)
    (hidle : st.system.server.handlers id = .idle)
    (hconnection : st.connections id = some connection)
    (hauth : Authorised connection.env (.start st.system.server.stores connection.stream) ex w₁)
    (hunforged : st.MacUnforged ex.outcome.keys.confirmKey
      (labelClientFinished ++ ex.outcome.transcript))
    (hupdate : ex.update now st.system.server.stores.registry =
      (.ok record.slot, st.system.server.stores.registry.store ex.peer record)) :
    ∃ st', Run (Step identity tunnel c timeout) st
        [.authorise id ex, .register id now, .install id, .persist id, .serverFinish id] st' ∧
      st'.agreement = st.agreement ∧ st'.clients = st.clients ∧
      st'.log = .finished id ex (ex.serverFinish P tunnel record.slot) ::
        .installed id ex (ex.wgPeer record.slot) :: .registered id ex record :: st.log := by
  -- the handler's five steps in order, on an idle handler
  have hgenuine : ex.Genuine identity := ⟨connection.env, _, w₁, hidentity, hauth⟩
  exact ⟨_, .cons (.authorise hconnection hauth hunforged (.accept hidle hgenuine)) <|
    .cons (.register (.update (update_self ..) hupdate) (update_self ..) (Finmap.lookup_insert _)) <|
    .cons (.install (.install (update_self ..)) (update_self ..) (Finmap.lookup_insert _)) <|
    .cons (.persist (.persist (order _) ⟨.ok (), .ok ()⟩ (update_self ..))) <|
    .single (.serverFinish (update_self ..) (.finish (update_self ..))), rfl, rfl, rfl⟩

theorem Meets.run {stores : Stores} {connection : Connection P} {ex : Exchange}
    {r : ConnectedRun P} (h : Meets identity tunnel stores connection ex r) {now : SystemTime}
    {record : Peer} (order : (r : Registry) → r.Iteration)
    (hupdate : ex.update now stores.registry =
      (.ok record.slot, stores.registry.store ex.peer record)) :
    ∃ st, Reachable identity tunnel c timeout st ∧ r ∈ st.connected ∧
      st.log = [.finished 0 ex (ex.serverFinish P tunnel record.slot),
        .installed 0 ex (ex.wgPeer record.slot), .registered 0 ex record] := by
  rcases h.run_hellos c timeout with ⟨st₁, hrun₁, hsystem, hmem, hconnection, hclient, hlog⟩
  have hstores : st₁.system.server.stores = stores := by
    rw [hsystem]
    rfl
  have hidle : st₁.system.server.handlers 0 = .idle := by
    rw [hsystem]
    rfl
  rcases h.authorised with ⟨w₁, hauth⟩
  rw [← hstores] at hauth hupdate
  -- each tag is one its owner computed: the client's over its finish, the server's over its reply
  have hclientTag : st₁.MacUnforged ex.outcome.keys.confirmKey
      (labelClientFinished ++ ex.outcome.transcript) := by
    intro _
    rw [h.keys, h.transcript]
    exact .client hmem
  rcases run_handler tunnel c timeout order h.hidentity hidle hconnection hauth hclientTag hupdate with
    ⟨st₂, hrun₂, hagreement, hclients, hlog₂⟩
  rw [hlog] at hlog₂
  have hserverTag : st₂.MacUnforged r.finished.keys.confirmKey
      (labelServerFinished ++ r.finished.transcript) := by
    intro _
    rw [← h.keys, ← h.transcript]
    refine .server (?_ : .finished 0 ex (ex.serverFinish P tunnel record.slot) ∈ st₂.log)
    rw [hlog₂]
    exact List.mem_cons_self
  have hcomplete : Step identity tunnel c timeout st₂ (.complete r.client)
      { st₂ with connected := ⟨r.client, r.finished, r.config⟩ :: st₂.connected } :=
    .complete (hclients ▸ hclient) (hagreement ▸ hmem) h.finished h.connect hserverTag
  exact ⟨_, ⟨_, _, ⟨stores, rfl⟩, hrun₁.append (hrun₂.append (.single hcomplete))⟩,
    List.mem_cons_self, hlog₂⟩

end

namespace Reference

/-! ## The fields left to the attacker -/

def clientKey : Bytes 32 := .replicate 32 1

def clientEnv : ClientEnv Crypto.Reference.primitives where
  tcpConnect := .ok ()
  setReadTimeout := .ok ()
  setWriteTimeout := .ok ()
  peerIp := .ok (.v4 (.new 203 0 113 7))
  writeAll := fun _ => .ok ()
  seed := { clientNonce := .replicate 32 5, x25519 := .replicate 32 6, kem := .replicate 32 8 }

theorem clientEnv_works : clientEnv.Works (.v4 (.new 203 0 113 7)) where
  tcpConnect := rfl
  setReadTimeout := rfl
  setWriteTimeout := rfl
  peerIp := rfl
  writeAll := fun _ => rfl

noncomputable def serverEnv : HandlerEnv Crypto.Reference.primitives :=
  Server.Reference.env fun _ _ _ _ => .ok ()

def tunnel : TunnelSettings := { serverWgPubkey := .replicate 32 0x5A, wgPort := 51820 }

/-- What reaches the other side of the fields that neither the signature nor a tag covers. -/
structure Uncovered where
  /-- Of the hello, as the server reads it. -/
  clientWgPubkey : Bytes 32
  /-- The session, when the server reads the hello as a `RekeyRequest`. -/
  rekeySession : Option (Bytes 16)
  /-- Of `ServerHello` and `ServerFinish`, as the client reads them. -/
  sessionId : Bytes 16
  serverWgPubkey : Bytes 32
  assignedIp : Bytes 4
  wgPort : UInt16

/-- The client ends with the fields of `d`. -/
structure Uncovered.Reaches (d : Uncovered) (r : ConnectedRun Crypto.Reference.primitives) : Prop where
  clientWgPubkey : r.client.clientWgPubkey = clientKey
  sessionId : r.finished.fin.sessionId = d.sessionId
  serverWgPubkey : r.config.serverWgPubkey = d.serverWgPubkey
  assignedIp : r.config.assignedIp.octets = d.assignedIp
  wgPort : r.config.serverEndpoint.port = d.wgPort

/-- The client's hello as the server reads it. -/
def helloWith (wgKey : Bytes 32) : ClientHello AlgoCode :=
  (ClientHandshake.start .mlKem768 wgKey clientEnv.seed).hello.mapAlgo codeOf

theorem helloWith_wellSized (wgKey : Bytes 32) : (helloWith wgKey).WellSized :=
  List.Vector.toList_length _

/-- The server's end of the connection: the hello and a `ClientFinish` with the right tag. -/
noncomputable def connection (d : Uncovered) : Connection Crypto.Reference.primitives where
  env := serverEnv
  stream := provingStream serverEnv (helloWith d.clientWgPubkey) d.rekeySession

/-- The client's end: it reads the session id and the tunnel parameters of `d`. -/
theorem client_connects (d : Uncovered) {sessionId : Bytes 16} {o : HandshakeOutcome}
    (ho : respond (P := Crypto.Reference.primitives) Server.Reference.identity
      (helloWith d.clientWgPubkey) sessionId serverEnv.serverNonce serverEnv.seed = .ok o) :
    ∃ r : ConnectedRun Crypto.Reference.primitives,
      r.client.Finished r.finished ∧
      r.finished.client.finish r.finished.serverHello
          (Agreement.pinnedKey (P := Crypto.Reference.primitives) Server.Reference.identity) =
        .ok (r.finished.keys, r.finished.fin, r.finished.transcript) ∧
      o.transcript = r.finished.transcript ∧ o.keys = r.finished.keys ∧
      r.client.connect Server.Reference.identity = .ok r.config ∧ d.Reaches r := by
  have hanswer := Agreement.finish_of_respond Crypto.Reference.primitives_correct ho
  rw [ClientHandshake.finish_start _ _ clientKey] at hanswer
  have hfinish := ClientHandshake.finish_sessionId hanswer d.sessionId
  have hsized :
      ServerHello.WellSized { o.serverHello.mapAlgo kemOf with sessionId := d.sessionId } := by
    have h := serverHello_wellSized ho
    exact ⟨h.mlkemCiphertext.trans (length_kemOf _).2, h.signature⟩
  -- the frames the client reads and writes, in the order they go over the wire
  rcases serverHello_writes hsized with ⟨f₁, hf₁⟩
  rcases serverFinish_writes (A := MlKemLevel)
    { sessionId := d.sessionId
      serverTag := serverTag Crypto.Reference.primitives o.keys.confirmKey o.transcript
      serverWgPubkey := d.serverWgPubkey
      assignedIp := d.assignedIp
      wgPort := d.wgPort } with ⟨f₂, hf₂⟩
  rcases clientFinish_writes (A := MlKemLevel)
    { sessionId := d.sessionId
      clientTag := clientTag Crypto.Reference.primitives o.keys.confirmKey o.transcript } with
    ⟨f₃, hf₃⟩
  have hhello : (ClientHandshake.start .mlKem768 clientKey clientEnv.seed).hello.WellSized :=
    List.Vector.toList_length _
  rcases clientHello_writes hhello with ⟨f₄, hf₄⟩
  have hread := read_of_write (decodes_serverHello hsized) hf₁ (f₂ ++ []) .unexpectedEof
  have hread' := read_of_write (decodes_serverFinish _) hf₂ [] .unexpectedEof
  have hconnect := connect_of_frames (s := .opened ⟨f₁ ++ (f₂ ++ []), .unexpectedEof⟩)
    clientEnv_works hf₄ hread hfinish hf₃ hread' rfl (beq_self_eq_true _)
  exact
    ⟨{ client := ⟨clientEnv, .mlKem768, clientKey, ⟨f₁ ++ (f₂ ++ []), .unexpectedEof⟩⟩
       finished :=
         { client := .start .mlKem768 clientKey clientEnv.seed
           serverHello := _
           keys := o.keys
           fin := _
           transcript := o.transcript }
       config := _ }, ⟨rfl, _, hread⟩, hfinish, rfl, rfl, hconnect,
      ⟨rfl, rfl, rfl, rfl, rfl⟩⟩

/-- Whatever the uncovered fields, both ends take the exchange to its end. -/
theorem meets (d : Uncovered) (stores : Stores) :
    ∃ ex r, Meets Server.Reference.identity tunnel stores (connection d) ex r ∧ d.Reaches r ∧
      ex.hello = helloWith d.clientWgPubkey ∧ ex.rekeySession = d.rekeySession ∧
      ex.sessionId = d.rekeySession.getD serverEnv.randSession := by
  rcases Handshake.Reference.respond_ok Server.Reference.identity
    (helloWith_wellSized d.clientWgPubkey) (d.rekeySession.getD serverEnv.randSession)
    serverEnv.serverNonce serverEnv.seed with ⟨o, ho⟩
  rcases client_connects d ho with ⟨r, hfinished, hfinish, ht, hkeys, hconnect, hreaches⟩
  -- the server's half: the stream the client sends proves the client
  have hauth : ∃ w₁, Authorised serverEnv
      (.start stores (provingStream serverEnv (helloWith d.clientWgPubkey) d.rekeySession))
      { hello := helloWith d.clientWgPubkey
        rekeySession := d.rekeySession
        sessionId := d.rekeySession.getD serverEnv.randSession
        outcome := o } w₁ :=
    authorised_of_provingStream rfl rfl rfl (helloWith_wellSized d.clientWgPubkey) ho
  exact ⟨_, r,
    { hidentity := rfl
      htunnel := rfl
      authorised := by simpa only [connection] using hauth
      finished := hfinished
      finish := hfinish
      transcript := ht
      keys := hkeys
      connect := hconnect }, hreaches, rfl, rfl, rfl⟩

/-- The whole run, where the registry accepts the exchange. -/
theorem run (d : Uncovered) {stores : Stores} {ip : Ipv4Addr}
    (haccepts : ∀ ex : Exchange, ex.hello = helloWith d.clientWgPubkey →
      ex.rekeySession = d.rekeySession → ex.Accepts stores.registry ip) :
    ∃ (st : State Crypto.Reference.primitives) (r : ConnectedRun Crypto.Reference.primitives)
      (ex : Exchange) (record : Peer),
      Reachable Server.Reference.identity tunnel Registry.Reference.codecs
        Server.Reference.fiveMinutes st ∧ r ∈ st.connected ∧ d.Reaches r ∧
      st.log = [.finished 0 ex (ex.serverFinish Crypto.Reference.primitives tunnel record.slot),
        .installed 0 ex (ex.wgPeer record.slot), .registered 0 ex record] ∧
      ex.peer = d.clientWgPubkey ∧ ex.rekeySession = d.rekeySession ∧
      record.sessionId = d.rekeySession.getD serverEnv.randSession := by
  rcases meets d stores with ⟨ex, r, hmeets, hreaches, hhello, hkind, hsession⟩
  rcases Exchange.update_of_accepts (haccepts ex hhello hkind) Registry.Reference.now with
    ⟨record, hupdate⟩
  -- the record holds the session the exchange answered under
  have hrecord : record.sessionId = ex.rekeySession.getD ex.sessionId := by
    rcases Exchange.update_ok hupdate with ⟨q, hslot, _, hq, _⟩
    exact (congrArg PeerSlot.sessionId hslot).trans hq
  rw [hkind, hsession] at hrecord
  rcases hmeets.run Registry.Reference.anyOrder hupdate with ⟨st, hst, hr, hlog⟩
  refine ⟨st, r, ex, record, hst, hr, hreaches, hlog, ?_, hkind, ?_⟩
  · rw [Exchange.peer, hhello]
    rfl
  · rw [hrecord]
    cases d.rekeySession <;> rfl

/-- Every field as it was sent. -/
def faithful : Uncovered where
  clientWgPubkey := clientKey
  rekeySession := none
  sessionId := .replicate 16 7
  serverWgPubkey := .replicate 32 0x5A
  assignedIp := ⟨[10, 8, 0, 2], rfl⟩
  wgPort := 51820

theorem accepts_fresh {d : Uncovered} (hfresh : d.rekeySession = none) (ex : Exchange)
    (_ : ex.hello = helloWith d.clientWgPubkey) (hkind : ex.rekeySession = d.rekeySession) :
    ex.Accepts Server.Reference.stores.registry (.new 10 8 0 2) :=
  Server.Reference.accepts_first (hkind.trans hfresh)

/-- A server on which one peer is registered. -/
def registeredStores : Stores :=
  { Server.Reference.stores with
    registry := Registry.Reference.empty.store Registry.Reference.key Registry.Reference.peer }

theorem accepts_rekey {d : Uncovered} (hkey : d.clientWgPubkey = Registry.Reference.key)
    (hrekey : d.rekeySession = some Registry.Reference.session) (ex : Exchange)
    (hhello : ex.hello = helloWith d.clientWgPubkey) (hkind : ex.rekeySession = d.rekeySession) :
    ex.Accepts registeredStores.registry (.new 10 8 0 2) := by
  have hpeer : ex.peer = Registry.Reference.key := by
    rw [Exchange.peer, hhello, hkey]
    rfl
  have hlookup : registeredStores.registry.inner.lookup ex.peer = some Registry.Reference.peer := by
    rw [hpeer]
    exact Finmap.lookup_insert _
  have halgo : Registry.Reference.peer.algo ≤ ex.hello.algo := by
    rw [hhello]
    exact le_refl AlgoCode.mlKem768
  exact .rekey (hkind.trans hrekey) hlookup rfl halgo

end Reference
end Network
end PqcVpn
