import PqcVpn.Handshake.Parity
import PqcVpn.Network.Reference
import PqcVpn.Registry.Capacity
import PqcVpn.Server.Completion

/-!
# Honest — a client and a server on a network that delivers

`connect` of `core` against `handle_connection` of the server, on one connection and through both
codecs.  `Delivered` says that the bytes each end reads are the bytes the other end wrote.  Neither
end can run ahead of the other, so the exchange is determined: the hello is sent before anything is
read, the answer to it before the next read, and so on up to `ServerFinish`.
-/

namespace PqcVpn
namespace Network

open Crypto Handshake Handshake.Client Registry Server Wire

variable {P : Primitives}

/-- The connection once the server's handler is done with it. -/
def Connection.run (connection : Connection P) (stores : Stores) :
    Except ConnError ConnResult × World :=
  handleConnection connection.env (.start stores connection.stream)

/-- Frames are delivered unmodified: each end reads, byte for byte, what the other end wrote. -/
structure Delivered (identity : P.SigningKey) (stores : Stores) (client : ClientRun P)
    (connection : Connection P) : Prop where
  toServer : Message.writeMany (client.run identity).2.sent = .ok connection.stream.bytes
  toClient : Message.writeMany (connection.run stores).2.sent = .ok client.stream.bytes

/-! ## The messages of the handshake -/

/-- The server can answer the hello of an honest client. -/
theorem respond_of_start (hP : P.Encapsulates) (identity : P.SigningKey) (algo : MlKemLevel)
    (pk : Bytes 32) (cseed : ClientHandshake.Seed P) (sessionId : Bytes 16)
    (serverNonce : Bytes 32) (seed : RespondSeed P) :
    ∃ o, respond identity ((ClientHandshake.start algo pk cseed).hello.mapAlgo codeOf) sessionId
      serverNonce seed = .ok o := by
  rcases hP algo cseed.kem seed.encaps with ⟨⟨ct, ss⟩, henc⟩
  -- the start's own key has the right length, and encapsulating to it succeeds
  have hkem : ∃ r, encapsulateFor algo (P.x25519Public cseed.x25519)
      (P.generate algo cseed.kem).2.toList seed = .ok r := by
    simp only [encapsulateFor, Bytes.tryFrom_toList, serverEncapsulate, henc]
    exact ⟨_, rfl⟩
  rcases hkem with ⟨⟨serverPub, ciphertext, secret⟩, hkem⟩
  set hello := (ClientHandshake.start algo pk cseed).hello.mapAlgo codeOf with hdef
  have hlevel : encapsulateFor (kemOf hello.algo) hello.clientX25519Pub hello.clientMlkemPub seed =
      .ok (serverPub, ciphertext, secret) := by
    change encapsulateFor (kemOf (codeOf algo)) _ _ seed = _
    rw [kemOf_codeOf]
    exact hkem
  unfold respond
  rw [hlevel]
  exact ⟨_, rfl⟩

/-- What the two ends draw settles the four messages; these are the first three and their frames. -/
structure Script (env : ClientEnv P) (senv : HandlerEnv P) (algo : MlKemLevel) (pk : Bytes 32)
    (o : HandshakeOutcome) (f₁ g₁ f₂ : List UInt8) : Prop where
  respond : Handshake.respond senv.identity
    ((ClientHandshake.start algo pk env.seed).hello.mapAlgo codeOf) senv.randSession
    senv.serverNonce senv.seed = .ok o
  hello : (Message.clientHello (ClientHandshake.start algo pk env.seed).hello).write = .ok f₁
  serverHello : (Message.serverHello o.serverHello).write = .ok g₁
  finish : (Message.clientFinish (finishFor P o senv.randSession) : Message MlKemLevel).write =
    .ok f₂

theorem script_of_start (hP : P.Encapsulates) (env : ClientEnv P) (senv : HandlerEnv P)
    (algo : MlKemLevel) (pk : Bytes 32) : ∃ o f₁ g₁ f₂, Script env senv algo pk o f₁ g₁ f₂ := by
  rcases respond_of_start hP senv.identity algo pk env.seed senv.randSession senv.serverNonce
    senv.seed with ⟨o, ho⟩
  have hsized : (ClientHandshake.start algo pk env.seed).hello.WellSized :=
    List.Vector.toList_length _
  rcases clientHello_writes hsized with ⟨f₁, hf₁⟩
  rcases serverHello_writes (serverHello_wellSized ho) with ⟨g₁, hg₁⟩
  rcases clientFinish_writes (A := MlKemLevel) (finishFor P o senv.randSession) with ⟨f₂, hf₂⟩
  exact ⟨o, f₁, g₁, f₂, ⟨ho, hf₁, hg₁, hf₂⟩⟩

namespace Script

variable {env : ClientEnv P} {senv : HandlerEnv P} {algo : MlKemLevel} {pk : Bytes 32}
  {o : HandshakeOutcome} {f₁ g₁ f₂ : List UInt8}

/-- The exchange the server commits. -/
def exchange (algo : MlKemLevel) (pk : Bytes 32) (env : ClientEnv P) (senv : HandlerEnv P)
    (o : HandshakeOutcome) : Exchange :=
  { hello := (ClientHandshake.start algo pk env.seed).hello.mapAlgo codeOf
    rekeySession := none
    sessionId := senv.randSession
    outcome := o }

theorem hello_wellSized (algo : MlKemLevel) (pk : Bytes 32) (seed : ClientHandshake.Seed P) :
    ((ClientHandshake.start algo pk seed).hello.mapAlgo codeOf).WellSized := by
  have hlen : (P.generate algo seed.kem).2.toList.length = (codeOf algo).mlkemPubLen := by
    rw [List.Vector.toList_length, (length_kemOf (codeOf algo)).1, kemOf_codeOf]
  exact hlen

/-- The server reads the client's hello. -/
theorem server_reads_hello (h : Script env senv algo pk o f₁ g₁ f₂) (rest : List UInt8)
    (e : IoError) :
    Message.read (A := AlgoCode) ⟨f₁ ++ rest, e⟩ =
      (.ok (.clientHello ((ClientHandshake.start algo pk env.seed).hello.mapAlgo codeOf)),
        ⟨rest, e⟩) :=
  read_mapAlgo_of_write (m := .clientHello _) sameCodes_codeOf
    (decodes_clientHello (hello_wellSized algo pk env.seed)) h.hello rest e

/-- The client reads the server's answer. -/
theorem client_reads_serverHello (h : Script env senv algo pk o f₁ g₁ f₂) (rest : List UInt8)
    (e : IoError) :
    Message.read (A := MlKemLevel) ⟨g₁ ++ rest, e⟩ =
      (.ok (.serverHello (o.serverHello.mapAlgo kemOf)), ⟨rest, e⟩) := by
  have hsized := serverHello_wellSized h.respond
  have hmapped : (o.serverHello.mapAlgo kemOf).WellSized :=
    ⟨hsized.mlkemCiphertext.trans (length_kemOf _).2, hsized.signature⟩
  exact read_mapAlgo_of_write (m := .serverHello _) sameCodes_kemOf (decodes_serverHello hmapped)
    h.serverHello rest e

/-- The same bytes are a `ClientFinish` of either crate. -/
theorem finish_server (h : Script env senv algo pk o f₁ g₁ f₂) :
    (Message.clientFinish (finishFor P o senv.randSession) : Message AlgoCode).write = .ok f₂ :=
  (write_mapAlgo sameCodes_codeOf (.clientFinish (finishFor P o senv.randSession))).trans h.finish

/-- Whatever follows the `ServerHello`, the client answers it. -/
theorem client_sends (hP : P.Correct) {peerIp : IpAddr} (hclient : env.Works peerIp)
    (h : Script env senv algo pk o f₁ g₁ f₂) (rest : List UInt8) (e : IoError) :
    (ClientRun.run ⟨env, algo, pk, ⟨g₁ ++ rest, e⟩⟩ senv.identity).2.sent =
      [.clientHello (ClientHandshake.start algo pk env.seed).hello,
        .clientFinish (finishFor P o senv.randSession)] := by
  have hfinish := Agreement.finish_of_respond hP h.respond
  exact connect_answers (s := .opened ⟨g₁ ++ rest, e⟩) hclient h.hello
    (h.client_reads_serverHello rest e) hfinish h.finish

/-- The client accepts the `ServerFinish` of the exchange, whatever slot it carries. -/
theorem client_completes (hP : P.Correct) {peerIp : IpAddr} (hclient : env.Works peerIp)
    (h : Script env senv algo pk o f₁ g₁ f₂) {slot : PeerSlot} {g₂ : List UInt8}
    (hslot : slot.sessionId = senv.randSession)
    (hg₂ : (Message.serverFinish ((exchange algo pk env senv o).serverFinish P senv.tunnel slot) :
      Message AlgoCode).write = .ok g₂) (e : IoError) :
    (ClientRun.run ⟨env, algo, pk, ⟨g₁ ++ (g₂ ++ []), e⟩⟩ senv.identity).1 =
      .ok
        { assignedIp := slot.assignedIp
          serverWgPubkey := senv.tunnel.serverWgPubkey
          serverEndpoint := { ip := peerIp, port := senv.tunnel.wgPort }
          psk := o.keys.psk } := by
  have hfinish := Agreement.finish_of_respond hP h.respond
  have hread := read_mapAlgo_of_write sameCodes_kemOf (m := .serverFinish _)
    (decodes_serverFinish _) hg₂ [] e
  exact connect_of_frames (s := .opened ⟨g₁ ++ (g₂ ++ []), e⟩) hclient h.hello
    (h.client_reads_serverHello (g₂ ++ []) e) hfinish h.finish hread hslot ((verifyServerTag_iff P).2 rfl)

/-- An accepted exchange is committed and answered with `ServerFinish`. -/
theorem server_completes (hserver : senv.Works) (h : Script env senv algo pk o f₁ g₁ f₂)
    {stores : Stores} {q : Peer}
    (hupdate : (exchange algo pk env senv o).update senv.now stores.registry =
      (.ok q.slot, stores.registry.store pk q)) (e : IoError) :
    ∃ onDisk persisted, Connection.run ⟨senv, ⟨f₁ ++ (f₂ ++ []), e⟩⟩ stores =
      (.ok (.handshake q.sessionId),
        { stores := stores.committed (exchange algo pk env senv o) q onDisk
          stream := ⟨[], e⟩
          writes := 2
          trace :=
            [.received (.clientHello ((ClientHandshake.start algo pk env.seed).hello.mapAlgo codeOf)),
              .sent (.serverHello o.serverHello),
              .received (.clientFinish (finishFor P o senv.randSession)),
              .updated (.ok q.slot),
              .called (.install pk o.keys.psk q.assignedIp (codeOf algo)) (.ok ()),
              .persisted persisted,
              .sent (.serverFinish
                ((exchange algo pk env senv o).serverFinish P senv.tunnel q.slot))] }) := by
  have hof : helloOf (.clientHello ((ClientHandshake.start algo pk env.seed).hello.mapAlgo codeOf)) =
      some ((ClientHandshake.start algo pk env.seed).hello.mapAlgo codeOf, none) := rfl
  have hfirst : (Message.clientHello
      ((ClientHandshake.start algo pk env.seed).hello.mapAlgo codeOf)).write = .ok f₁ :=
    (write_mapAlgo sameCodes_codeOf (.clientHello _)).trans h.hello
  -- the two frames the client sent are all the server reads before it commits
  have hneg := negotiated_of_frames senv (w := .start stores ⟨f₁ ++ (f₂ ++ []), e⟩) hof
    (decodes_clientHello (hello_wellSized algo pk env.seed)) hfirst h.respond (hserver.writeAll _)
    rfl rfl h.finish_server rfl
  have hauth : Authorised senv (.start stores ⟨f₁ ++ (f₂ ++ []), e⟩)
      (exchange algo pk env senv o) _ :=
    ⟨hserver.setReadTimeout, hserver.setWriteTimeout, _, _, hneg⟩
  rcases commit_of_update hserver (w := { stores := stores, stream := ⟨[], e⟩, writes := 1, trace := _ })
    hupdate with ⟨onDisk, persisted, hcommit⟩
  refine ⟨onDisk, persisted, ?_⟩
  exact (handleConnection_of_authorised hauth).trans hcommit

end Script

/-! ## The delivered bytes are determined -/

section Delivery

variable {env : ClientEnv P} {senv : HandlerEnv P} {algo : MlKemLevel} {pk : Bytes 32}
  {o : HandshakeOutcome} {f₁ g₁ f₂ : List UInt8} {stores : Stores} {x y : Stream}
  (h : Script env senv algo pk o f₁ g₁ f₂) {peerIp : IpAddr} (hclient : env.Works peerIp)
  (hdelivered : Delivered senv.identity stores ⟨env, algo, pk, x⟩ ⟨senv, y⟩)

include h hclient hdelivered

/-- The server's stream starts with the hello. -/
theorem Delivered.hello : ∃ rest, y.bytes = f₁ ++ rest := by
  rcases connect_greets (s := .opened x) hclient h.hello with ⟨more, hmore⟩
  have hsent : (ClientRun.run ⟨env, algo, pk, x⟩ senv.identity).2.sent =
      .clientHello (ClientHandshake.start algo pk env.seed).hello :: more := hmore.symm
  have hbytes := hdelivered.toServer
  rw [hsent] at hbytes
  rcases Message.writeMany_cons_eq_ok hbytes with ⟨f, rest, hf, _, hy⟩
  rw [h.hello] at hf
  cases hf
  exact ⟨rest, hy⟩

/-- The client's stream starts with the answer to it. -/
theorem Delivered.serverHello (hserver : senv.Works) : ∃ rest, x.bytes = g₁ ++ rest := by
  rcases hdelivered.hello h hclient with ⟨rest, hy⟩
  have hread : Message.read (A := AlgoCode) y =
      (.ok (.clientHello ((ClientHandshake.start algo pk env.seed).hello.mapAlgo codeOf)),
        ⟨rest, y.atEnd⟩) := by
    rw [show y = ⟨f₁ ++ rest, y.atEnd⟩ by rw [← hy]]
    exact h.server_reads_hello rest y.atEnd
  rcases handleConnection_greets hserver (w := .start stores y)
    (Script.exchange algo pk env senv o) hread rfl rfl h.respond with ⟨more, hmore⟩
  have hsent : (Connection.run ⟨senv, y⟩ stores).2.sent =
      .serverHello o.serverHello :: more.filterMap Event.sentMessage := by
    rw [World.sent, Connection.run, ← hmore]
    rfl
  have hbytes := hdelivered.toClient
  rw [hsent] at hbytes
  rcases Message.writeMany_cons_eq_ok hbytes with ⟨g, rest', hg, _, hx⟩
  rw [h.serverHello] at hg
  cases hg
  exact ⟨rest', hx⟩

/-- The server's stream is the hello and the `ClientFinish`. -/
theorem Delivered.toServer_eq (hP : P.Correct) (hserver : senv.Works) :
    y.bytes = f₁ ++ (f₂ ++ []) := by
  rcases hdelivered.serverHello h hclient hserver with ⟨rest, hx⟩
  have hsent := Script.client_sends hP hclient h rest x.atEnd
  have hbytes := hdelivered.toServer
  rw [show x = ⟨g₁ ++ rest, x.atEnd⟩ by rw [← hx], hsent,
    Message.writeMany_cons_of_ok h.hello (Message.writeMany_cons_of_ok h.finish rfl)] at hbytes
  exact (Except.ok.inj hbytes).symm

end Delivery

/-! ## Completeness -/

/-- A handshake both ends took to its end: the messages exchanged, the client's tunnel and the
server's record of the peer, with one session id and one PSK. -/
structure HandshakeCompleted (identity : P.SigningKey) (stores : Stores) (client : ClientRun P)
    (connection : Connection P) (config : TunnelConfig) (serverHello : ServerHello AlgoCode)
    (clientFinish : ClientFinish) (serverFinish : ServerFinish) (record : Peer) : Prop where
  connected : client.connect identity = .ok config
  clientSent : (client.run identity).2.sent =
    [.clientHello client.handshake.hello, .clientFinish clientFinish]
  handled : (connection.run stores).1 = .ok (.handshake record.sessionId)
  trace : ∃ persisted, (connection.run stores).2.trace =
    [.received (.clientHello (client.handshake.hello.mapAlgo codeOf)),
      .sent (.serverHello serverHello),
      .received (.clientFinish clientFinish),
      .updated (.ok record.slot),
      .called (.install client.clientWgPubkey config.psk record.assignedIp (codeOf client.algo))
        (.ok ()),
      .persisted persisted,
      .sent (.serverFinish serverFinish)]
  registered : (connection.run stores).2.stores.registry.inner.lookup client.clientWgPubkey =
    some record
  installed : (connection.run stores).2.stores.wg.lookup client.clientWgPubkey =
    some { psk := config.psk, allowedIp := config.assignedIp }
  sessionIds : serverHello.sessionId = record.sessionId ∧
    clientFinish.sessionId = record.sessionId ∧ serverFinish.sessionId = record.sessionId
  assignedIp : config.assignedIp = record.assignedIp
  serverWgPubkey : config.serverWgPubkey = connection.env.tunnel.serverWgPubkey
  port : config.serverEndpoint.port = connection.env.tunnel.wgPort

/-- The streams of an honest handshake exist, and on whatever streams deliver the frames unmodified
the handshake completes. -/
theorem honest_handshake_completes (hP : P.Correct) (hencaps : P.Encapsulates) {env : ClientEnv P}
    {senv : HandlerEnv P} {peerIp : IpAddr} (hclient : env.Works peerIp) (hserver : senv.Works)
    (algo : MlKemLevel) (pk : Bytes 32) {stores : Stores}
    (hheld : Held senv.codecs stores.registry)
    (hroom : pk ∈ stores.registry.inner ∨ stores.registry.len < stores.registry.maxPeers) :
    (∃ x y, Delivered senv.identity stores ⟨env, algo, pk, x⟩ ⟨senv, y⟩) ∧
    ∀ x y, Delivered senv.identity stores ⟨env, algo, pk, x⟩ ⟨senv, y⟩ →
      ∃ config serverHello clientFinish serverFinish record,
        HandshakeCompleted senv.identity stores ⟨env, algo, pk, x⟩ ⟨senv, y⟩ config serverHello
          clientFinish serverFinish record := by
  rcases script_of_start hencaps env senv algo pk with ⟨o, f₁, g₁, f₂, h⟩
  set ex := Script.exchange algo pk env senv o with hex
  rcases upsertHandshake_of_room hheld hroom senv.now (codeOf algo) senv.randSession with
    ⟨q, hqsession, _, hupdate⟩
  rcases serverFinish_writes (A := AlgoCode) (ex.serverFinish P senv.tunnel q.slot) with ⟨g₂, hg₂⟩
  -- the server's end, on whatever error its stream would end
  have hrun := fun e => h.server_completes hserver hupdate e
  refine ⟨?_, ?_⟩
  · rcases hrun .unexpectedEof with ⟨onDisk, persisted, hserved⟩
    refine ⟨⟨g₁ ++ (g₂ ++ []), .unexpectedEof⟩, ⟨f₁ ++ (f₂ ++ []), .unexpectedEof⟩, ?_, ?_⟩
    · rw [Script.client_sends hP hclient h]
      exact Message.writeMany_cons_of_ok h.hello (Message.writeMany_cons_of_ok h.finish rfl)
    · rw [hserved]
      exact Message.writeMany_cons_of_ok h.serverHello (Message.writeMany_cons_of_ok hg₂ rfl)
  · rintro ⟨x, xe⟩ ⟨y, ye⟩ hdelivered
    have hy : y = f₁ ++ (f₂ ++ []) := hdelivered.toServer_eq h hclient hP hserver
    subst hy
    rcases hrun ye with ⟨onDisk, persisted, hserved⟩
    have hx : x = g₁ ++ (g₂ ++ []) := by
      have hbytes := hdelivered.toClient
      rw [hserved, World.sent] at hbytes
      exact (Except.ok.inj (hbytes.symm.trans (Message.writeMany_cons_of_ok h.serverHello
        (Message.writeMany_cons_of_ok hg₂ rfl))))
    subst hx
    have hsessions : o.serverHello.sessionId = q.sessionId := by
      rcases respond_ok rfl h.respond with ⟨_, _, _, _, _, _, hreply⟩
      rw [hreply]
      exact hqsession.symm
    exact ⟨_, o.serverHello, finishFor P o senv.randSession,
      ex.serverFinish P senv.tunnel q.slot, q,
      { connected := h.client_completes hP hclient hqsession hg₂ xe
        clientSent := Script.client_sends hP hclient h (g₂ ++ []) xe
        handled := by rw [hserved]
        trace := by
          rw [hserved]
          exact ⟨persisted, rfl⟩
        registered := by
          rw [hserved]
          exact Finmap.lookup_insert _
        installed := by
          rw [hserved]
          exact Finmap.lookup_insert _
        sessionIds := ⟨hsessions, hqsession.symm, rfl⟩
        assignedIp := rfl
        serverWgPubkey := rfl
        port := rfl }⟩

/-- The first handshake of a new server. -/
theorem honest_handshake_completes_once :
    ∃ x y config serverHello clientFinish serverFinish record,
      Delivered (P := Crypto.Reference.primitives) Server.Reference.identity Server.Reference.stores
        ⟨Reference.clientEnv, .mlKem768, Reference.clientKey, x⟩ ⟨Reference.serverEnv, y⟩ ∧
      HandshakeCompleted (P := Crypto.Reference.primitives) Server.Reference.identity
        Server.Reference.stores ⟨Reference.clientEnv, .mlKem768, Reference.clientKey, x⟩
        ⟨Reference.serverEnv, y⟩ config serverHello clientFinish serverFinish record := by
  have hserver : Reference.serverEnv.Works :=
    { setReadTimeout := rfl
      setWriteTimeout := rfl
      writeAll := fun _ => rfl
      install := fun _ _ _ _ => rfl }
  have hroom : Server.Reference.stores.registry.len < Server.Reference.stores.registry.maxPeers := by
    decide
  rcases honest_handshake_completes Crypto.Reference.primitives_correct
    Crypto.Reference.primitives_encapsulates Reference.clientEnv_works hserver .mlKem768
    Reference.clientKey (.new _ _) (.inr hroom) with ⟨⟨x, y, hdelivered⟩, hcompleted⟩
  rcases hcompleted x y hdelivered with ⟨config, sh, fin, sf, record, h⟩
  exact ⟨x, y, config, sh, fin, sf, record, hdelivered, h⟩

end Network
end PqcVpn
