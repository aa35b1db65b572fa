import PqcVpn.Crypto.Transcript
import PqcVpn.Handshake.Client
import PqcVpn.Handshake.Respond
import PqcVpn.Lib.Transition

/-!
# Agreement — what a successful `finish` says about the server

Any number of honest clients (`ClientHandshake::start`, then `finish`) and honest server runs
(`handshake::respond`) share one network, which the attacker owns: it chooses every hello a server
answers and every `ServerHello` a client is handed.  The one thing it cannot do is forge the pinned
signature (`Unforged`).

The main result, `finish_agrees_with_respond`, says that a client whose `finish` succeeds shares
transcript and keys with an honest server run on its own hello.
-/

namespace PqcVpn
namespace Handshake
namespace Agreement

open Crypto Wire Client Transition

variable {P : Primitives}

/-! ## Static agreement: one `respond`, one `finish`, one transcript -/

theorem kemOf_name (a : AlgoCode) : asBytes a.transcriptName = asBytes (kemOf a).name := by
  cases a <;> rfl

theorem transcriptWith_start (algo : MlKemLevel) (pk : Bytes 32)
    (seed : ClientHandshake.Seed P) (sh : ServerHello MlKemLevel) :
    (ClientHandshake.start algo pk seed).transcriptWith sh =
      buildHandshakeTranscriptFromBytes (asBytes algo.name) seed.clientNonce sh.serverNonce
        (P.x25519Public seed.x25519) (P.generate algo seed.kem).2.toList sh.serverX25519Pub
        sh.mlkemCiphertext := rfl

/-- The public values a client run and a server run have in common. -/
structure SameExchange (c : ClientHello MlKemLevel) (sh : ServerHello MlKemLevel)
    (hello : ClientHello AlgoCode) (reply : ServerHello AlgoCode) : Prop where
  algo : kemOf hello.algo = c.algo
  clientNonce : hello.clientNonce = c.clientNonce
  clientX25519Pub : hello.clientX25519Pub = c.clientX25519Pub
  clientMlkemPub : hello.clientMlkemPub = c.clientMlkemPub
  serverNonce : reply.serverNonce = sh.serverNonce
  serverX25519Pub : reply.serverX25519Pub = sh.serverX25519Pub
  mlkemCiphertext : reply.mlkemCiphertext = sh.mlkemCiphertext

/-- A `respond` and an honest client's `finish` over equal transcripts ran the same exchange. -/
theorem sameExchange_of_transcript {identity : P.SigningKey} {hello : ClientHello AlgoCode}
    {sessionId : Bytes 16} {serverNonce : Bytes 32} {rseed : RespondSeed P} {o : HandshakeOutcome}
    {algo : MlKemLevel} {pk : Bytes 32} {seed : ClientHandshake.Seed P}
    {sh : ServerHello MlKemLevel}
    (hrespond : respond identity hello sessionId serverNonce rseed = .ok o)
    (ht : o.transcript = (ClientHandshake.start algo pk seed).transcriptWith sh) :
    SameExchange (ClientHandshake.start algo pk seed).hello sh hello o.serverHello := by
  rcases respond_ok rfl hrespond with ⟨ek, r, hek, _, htranscript, _, hreply⟩
  rw [htranscript, transcriptWith_start, buildTranscript, kemOf_name] at ht
  -- both sides hold keys of their algorithm's length, which makes the transcript injective
  have hlen : hello.clientMlkemPub.length = (kemOf hello.algo).mlkemPubLen := by
    rw [hek]
    exact ek.toList_length
  have hlen' : (P.generate algo seed.kem).2.toList.length = algo.mlkemPubLen :=
    (P.generate algo seed.kem).2.toList_length
  rcases buildHandshakeTranscriptFromBytes_inj hlen hlen' ht with
    ⟨halgo, hcn, hsn, hcx, hmk, hsx, hct⟩
  exact
    { algo := halgo
      clientNonce := hcn
      clientX25519Pub := hcx
      clientMlkemPub := hmk
      serverNonce := by rw [hreply]; exact hsn
      serverX25519Pub := by rw [hreply]; exact hsx
      mlkemCiphertext := by rw [hreply]; exact hct }

/-- Over the same exchange the two sides derive the same session keys. -/
theorem keys_eq_of_transcript (hP : P.Correct) {identity : P.SigningKey}
    {hello : ClientHello AlgoCode} {sessionId : Bytes 16} {serverNonce : Bytes 32}
    {rseed : RespondSeed P} {o : HandshakeOutcome} {algo : MlKemLevel} {pk : Bytes 32}
    {seed : ClientHandshake.Seed P} {sh : ServerHello MlKemLevel} {vk : List UInt8}
    {keys : SessionKeys} {fin : ClientFinish} {t : List UInt8}
    (hrespond : respond identity hello sessionId serverNonce rseed = .ok o)
    (hfinish : (ClientHandshake.start algo pk seed).finish sh vk = .ok (keys, fin, t))
    (ht : o.transcript = t) :
    o.keys = keys := by
  rcases ClientHandshake.finish_ok hfinish with ⟨_, htw, _, _, ct, secret, hct, hdec, hkeys⟩
  have same := sameExchange_of_transcript hrespond (ht.trans htw)
  rcases respond_ok same.algo hrespond with ⟨ek, r, hek, henc, _, hokeys, hreply⟩
  have hekc : ek = (P.generate algo seed.kem).2 :=
    Subtype.ext (hek.symm.trans same.clientMlkemPub)
  have hxc : hello.clientX25519Pub = P.x25519Public seed.x25519 := same.clientX25519Pub
  -- what the server drew is what the client read
  have hctr : r.ciphertext = ct := by
    have hct' := same.mlkemCiphertext
    rw [hreply, hct] at hct'
    exact Subtype.ext hct'
  have hsx : r.serverX25519Public = sh.serverX25519Pub := by
    simpa [hreply] using same.serverX25519Pub
  have hsn : serverNonce = sh.serverNonce := by
    simpa [hreply] using same.serverNonce
  rw [hekc, hxc] at henc
  -- decapsulation then returns the secret the server encapsulated
  have hagree := clientDecapsulate_of_serverEncapsulate hP (ClientHandshake.start algo pk seed).keys
    henc
  rw [hsx, hctr, hdec] at hagree
  have hsecret : secret = r.hybridSecret := Except.ok.inj hagree
  rw [hokeys, hkeys, hsecret, same.clientNonce, hsn]

/-- An exchange nobody interferes with: the client accepts the server's answer and both hold the
same keys and transcript. -/
theorem finish_of_respond (hP : P.Correct) {identity : P.SigningKey} {algo : MlKemLevel}
    {pk : Bytes 32} {seed : ClientHandshake.Seed P} {sessionId : Bytes 16} {serverNonce : Bytes 32}
    {rseed : RespondSeed P} {o : HandshakeOutcome}
    (hrespond : respond identity ((ClientHandshake.start algo pk seed).hello.mapAlgo codeOf)
      sessionId serverNonce rseed = .ok o) :
    (ClientHandshake.start algo pk seed).finish (o.serverHello.mapAlgo kemOf)
        (P.verifyingKey identity).toList =
      .ok (o.keys, { sessionId := sessionId, clientTag := clientTag P o.keys.confirmKey o.transcript },
        o.transcript) := by
  set c := ClientHandshake.start algo pk seed with hc
  rcases respond_ok (kemOf_codeOf algo) hrespond with ⟨ek, r, hek, henc, ht, hkeys, hreply⟩
  have hekc : ek = (P.generate algo seed.kem).2 := Subtype.ext hek.symm
  rw [hekc] at henc
  -- both ends derive the secret from one ciphertext, and the transcript from the same fields
  have hdec := clientDecapsulate_of_serverEncapsulate hP c.keys henc
  have htw : c.transcriptWith (o.serverHello.mapAlgo kemOf) = o.transcript := by
    rw [ht, buildTranscript, kemOf_name, hreply]
    simp [ClientHandshake.transcriptWith, ServerHello.mapAlgo, ClientHello.mapAlgo, hc,
      ClientHandshake.start]
  have hsig : verifyServerSignature P (P.verifyingKey identity).toList o.transcript
      (o.serverHello.mapAlgo kemOf).signature = true := by
    rw [hreply]
    simp [verifyServerSignature, ServerHello.mapAlgo, hP.verify_sign]
  rw [← htw] at hsig
  have hfinish := ClientHandshake.finish_of_checks c r.ciphertext o.keys
    (by rw [hreply]; simp [ServerHello.mapAlgo, ClientHello.mapAlgo])
    hsig
    (by rw [hreply]; rfl)
    (by rw [hreply]; exact hdec)
    (by rw [hkeys, hreply]; rfl)
  rw [hfinish, htw]
  rw [hreply]
  rfl

/-! ## The system: honest runs on a network the attacker owns -/

/-- An honest server run: the hello it answered, what it drew and what it answered. -/
structure ServerRun (P : Primitives) where
  hello : ClientHello AlgoCode
  sessionId : Bytes 16
  serverNonce : Bytes 32
  seed : RespondSeed P
  outcome : HandshakeOutcome

/-- A `finish` call of an honest client that returned `Ok`. -/
structure FinishedRun (P : Primitives) where
  client : ClientHandshake P
  serverHello : ServerHello MlKemLevel
  keys : SessionKeys
  fin : ClientFinish
  transcript : List UInt8

structure State (P : Primitives) where
  clients : List (ClientHandshake P)
  runs : List (ServerRun P)
  finished : List (FinishedRun P)

namespace State

def initial : State P := { clients := [], runs := [], finished := [] }

/-- The transcripts honest server runs have signed so far. -/
def signed (st : State P) : List (List UInt8) := st.runs.map fun run => run.outcome.transcript

end State

/-- The bytes of the server identity that every client ships. -/
def pinnedKey (identity : P.SigningKey) : List UInt8 := (P.verifyingKey identity).toList

/-- The pinned signature is not forged: it verifies only over bytes the server signed. -/
def Unforged (identity : P.SigningKey) (st : State P) (message signature : List UInt8) : Prop :=
  verifyServerSignature P (pinnedKey identity) message signature = true → message ∈ st.signed

inductive Action (P : Primitives)
  | start (algo : MlKemLevel) (clientWgPubkey : Bytes 32) (seed : ClientHandshake.Seed P)
  | respond (hello : ClientHello AlgoCode) (sessionId : Bytes 16) (serverNonce : Bytes 32)
      (seed : RespondSeed P)
  | finish (client : ClientHandshake P) (serverHello : ServerHello MlKemLevel)

inductive Step (identity : P.SigningKey) : State P → Action P → State P → Prop
  | start (st : State P) (algo : MlKemLevel) (pk : Bytes 32) (seed : ClientHandshake.Seed P) :
      Step identity st (.start algo pk seed)
        { st with clients := ClientHandshake.start algo pk seed :: st.clients }
  | respondOk {st : State P} {hello : ClientHello AlgoCode} {sessionId : Bytes 16}
      {serverNonce : Bytes 32} {seed : RespondSeed P} {outcome : HandshakeOutcome}
      (h : Handshake.respond identity hello sessionId serverNonce seed = .ok outcome) :
      Step identity st (.respond hello sessionId serverNonce seed)
        { st with runs := { hello, sessionId, serverNonce, seed, outcome } :: st.runs }
  | respondError {st : State P} {hello : ClientHello AlgoCode} {sessionId : Bytes 16}
      {serverNonce : Bytes 32} {seed : RespondSeed P} {e : HandshakeError}
      (h : Handshake.respond identity hello sessionId serverNonce seed = .error e) :
      Step identity st (.respond hello sessionId serverNonce seed) st
  | finishOk {st : State P} {client : ClientHandshake P} {serverHello : ServerHello MlKemLevel}
      {keys : SessionKeys} {fin : ClientFinish} {transcript : List UInt8}
      (hmem : client ∈ st.clients)
      (hunforged : Unforged identity st (client.transcriptWith serverHello) serverHello.signature)
      (h : client.finish serverHello (pinnedKey identity) = .ok (keys, fin, transcript)) :
      Step identity st (.finish client serverHello)
        { st with finished := { client, serverHello, keys, fin, transcript } :: st.finished }
  | finishError {st : State P} {client : ClientHandshake P} {serverHello : ServerHello MlKemLevel}
      {e : Client.HandshakeError} (hmem : client ∈ st.clients)
      (h : client.finish serverHello (pinnedKey identity) = .error e) :
      Step identity st (.finish client serverHello) st

/-- The states the system can reach from the start, whatever the attacker does. -/
def Reachable (identity : P.SigningKey) (st : State P) : Prop :=
  Transition.Reachable (· = State.initial) (Step identity) st

/-! ## The invariant -/

/-- Every logged event is what the code computed, and every accepted transcript was signed. -/
structure Inv (identity : P.SigningKey) (st : State P) : Prop where
  clients : ∀ c ∈ st.clients, ∃ algo pk seed, c = ClientHandshake.start algo pk seed
  runs : ∀ run ∈ st.runs,
    Handshake.respond identity run.hello run.sessionId run.serverNonce run.seed = .ok run.outcome
  finished : ∀ e ∈ st.finished,
    e.client ∈ st.clients ∧
      e.client.finish e.serverHello (pinnedKey identity) = .ok (e.keys, e.fin, e.transcript) ∧
      e.transcript ∈ st.signed

theorem inv_initial (identity : P.SigningKey) : Inv identity (State.initial : State P) where
  clients := by intro c hc; simp [State.initial] at hc
  runs := by intro run hrun; simp [State.initial] at hrun
  finished := by intro e he; simp [State.initial] at he

theorem inv_step {identity : P.SigningKey} {st st' : State P} {a : Action P}
    (h : Inv identity st) (hstep : Step identity st a st') : Inv identity st' := by
  cases hstep with
  | start algo pk seed =>
      refine ⟨?_, h.runs, ?_⟩
      · intro c hc
        rcases List.mem_cons.1 hc with rfl | hc
        · exact ⟨algo, pk, seed, rfl⟩
        · exact h.clients c hc
      · intro e he
        rcases h.finished e he with ⟨hmem, hfin, hsigned⟩
        exact ⟨List.mem_cons_of_mem _ hmem, hfin, hsigned⟩
  | respondOk hrespond =>
      refine ⟨h.clients, ?_, ?_⟩
      · intro run hrun
        rcases List.mem_cons.1 hrun with rfl | hrun
        · exact hrespond
        · exact h.runs run hrun
      · intro e he
        rcases h.finished e he with ⟨hmem, hfin, hsigned⟩
        exact ⟨hmem, hfin, List.mem_cons_of_mem _ hsigned⟩
  | respondError _ => exact h
  | finishOk hmem hunforged hfinish =>
      refine ⟨h.clients, h.runs, ?_⟩
      intro e he
      rcases List.mem_cons.1 he with rfl | he
      · -- a signature that verifies over the transcript was made by an honest run
        rcases ClientHandshake.finish_ok hfinish with ⟨_, ht, hverify, _⟩
        refine ⟨hmem, hfinish, ?_⟩
        rw [ht] at hverify ⊢
        exact hunforged hverify
      · exact h.finished e he
  | finishError _ _ => exact h

theorem inv_of_reachable {identity : P.SigningKey} {st : State P} (h : Reachable identity st) :
    Inv identity st :=
  h.invariant (by rintro s rfl; exact inv_initial identity) inv_step

/-! ## Server authentication and key agreement -/

/-- Whenever an honest client's `finish` returns `Ok`, an honest server run answered a hello with
this client's algorithm, nonce and public keys, sent the nonce, key and ciphertext the client saw,
and shares transcript, PSK and confirmation key with the client; the algorithm of the `ServerHello`
is the one the client asked for. -/
theorem finish_agrees_with_respond (hP : P.Correct) {identity : P.SigningKey} {st : State P}
    (h : Reachable identity st) {e : FinishedRun P} (he : e ∈ st.finished) :
    e.serverHello.algo = e.client.hello.algo ∧
      ∃ run ∈ st.runs,
        Handshake.respond identity run.hello run.sessionId run.serverNonce run.seed =
          .ok run.outcome ∧
        SameExchange e.client.hello e.serverHello run.hello run.outcome.serverHello ∧
        run.outcome.transcript = e.transcript ∧
        run.outcome.keys.psk = e.keys.psk ∧
        run.outcome.keys.confirmKey = e.keys.confirmKey := by
  have hinv := inv_of_reachable h
  rcases hinv.finished e he with ⟨hmem, hfinish, hsigned⟩
  rcases ClientHandshake.finish_ok hfinish with ⟨halgo, htw, _⟩
  rcases List.mem_map.1 hsigned with ⟨run, hrun, ht⟩
  rcases hinv.clients e.client hmem with ⟨algo, pk, seed, hclient⟩
  have hrespond := hinv.runs run hrun
  -- equal transcripts are transcripts of equal fields
  have hsame : SameExchange e.client.hello e.serverHello run.hello run.outcome.serverHello := by
    rw [hclient] at htw ⊢
    exact sameExchange_of_transcript hrespond (ht.trans htw)
  have hkeys : run.outcome.keys = e.keys := by
    rw [hclient] at hfinish
    exact keys_eq_of_transcript hP hrespond hfinish ht
  refine ⟨halgo, run, hrun, hrespond, hsame, ht, ?_, ?_⟩
  · rw [hkeys]
  · rw [hkeys]

/-- One client, one server, and frames delivered as they were sent. -/
theorem finish_agrees_with_respond_once :
    ∃ (st : State Crypto.Reference.primitives) (e : FinishedRun Crypto.Reference.primitives),
      e ∈ st.finished ∧ e.serverHello.algo = e.client.hello.algo ∧
      ∃ run ∈ st.runs,
        Handshake.respond (P := Crypto.Reference.primitives) () run.hello run.sessionId
            run.serverNonce run.seed = .ok run.outcome ∧
        SameExchange e.client.hello e.serverHello run.hello run.outcome.serverHello ∧
        run.outcome.transcript = e.transcript ∧
        run.outcome.keys.psk = e.keys.psk ∧
        run.outcome.keys.confirmKey = e.keys.confirmKey := by
  let seed : ClientHandshake.Seed Crypto.Reference.primitives :=
    { clientNonce := .replicate 32 5, x25519 := .replicate 32 6, kem := .replicate 32 8 }
  let c := ClientHandshake.start .mlKem768 (.replicate 32 1) seed
  have hsized : (c.hello.mapAlgo codeOf).WellSized := List.Vector.toList_length _
  rcases Handshake.Reference.respond_ok () hsized (.replicate 16 7) (.replicate 32 2)
    { x25519 := .replicate 32 3, encaps := .replicate 32 4 } with ⟨o, ho⟩
  have hfinish := finish_of_respond Crypto.Reference.primitives_correct ho
  have ht : c.transcriptWith (o.serverHello.mapAlgo kemOf) = o.transcript :=
    (ClientHandshake.finish_ok hfinish).2.1.symm
  -- an honest run of three steps: start, respond, finish
  have hrun : ∃ st, Run (Step (P := Crypto.Reference.primitives) ()) .initial
      [.start .mlKem768 (.replicate 32 1) seed, .respond (c.hello.mapAlgo codeOf) (.replicate 16 7)
        (.replicate 32 2) { x25519 := .replicate 32 3, encaps := .replicate 32 4 },
        .finish c (o.serverHello.mapAlgo kemOf)] st ∧
      ∃ e, e ∈ st.finished := by
    refine ⟨_, .cons (.start _ _ _ _) <| .cons (.respondOk ho) <|
      .single (.finishOk List.mem_cons_self ?_ hfinish), _, List.mem_cons_self⟩
    intro _
    rw [ht]
    exact List.mem_cons_self
  rcases hrun with ⟨st, hrun, e, he⟩
  exact ⟨st, e, he,
    finish_agrees_with_respond Crypto.Reference.primitives_correct ⟨_, _, rfl, hrun⟩ he⟩

end Agreement
end Handshake
end PqcVpn
