import PqcVpn.Crypto.Reference
import PqcVpn.Wire.RoundTrip

/-!
# Respond — the server side of the handshake, `ClientHello → ServerHello`

`server/handshake-server/src/{handshake,transcript,kdf,identity}.rs`: the server rebuilds the
client's public values from wire bytes, encapsulates, signs the transcript and derives the session
keys.
-/

namespace PqcVpn
namespace Handshake

open Crypto Wire

variable {P : Primitives}

/-- Failure completing a handshake on the server. -/
inductive HandshakeError
  | algoRejected
  | unknownSession
  | algoMismatch
  | authFailed
  | crypto (m : String)
  deriving DecidableEq, Repr

namespace HandshakeError

def protocolCode : HandshakeError → UInt8
  | algoRejected => 0x03
  | unknownSession => 0x04
  | algoMismatch => 0x05
  | authFailed => 0x06
  | crypto _ => 0x08

def toText : HandshakeError → String
  | algoRejected => "algorithm rejected by server policy"
  | unknownSession => "unknown session id"
  | algoMismatch => "rekey algorithm mismatch"
  | authFailed => "client authentication failed"
  | crypto m => "crypto error: " ++ m

end HandshakeError

/-! ## Transcript -/

/-- Everything that goes into the transcript, as raw wire bytes. -/
structure TranscriptInputs where
  algo : AlgoCode
  clientNonce : Bytes 32
  serverNonce : Bytes 32
  clientX25519Pub : Bytes 32
  clientMlkemPub : List UInt8
  serverX25519Pub : Bytes 32
  mlkemCiphertext : List UInt8
  deriving DecidableEq

/-- `transcript::build`. -/
def buildTranscript (i : TranscriptInputs) : List UInt8 :=
  buildHandshakeTranscriptFromBytes (asBytes i.algo.transcriptName) i.clientNonce i.serverNonce
    i.clientX25519Pub i.clientMlkemPub i.serverX25519Pub i.mlkemCiphertext

/-! ## Responding to a hello -/

structure HandshakeOutcome where
  serverHello : ServerHello AlgoCode
  keys : SessionKeys
  /-- The signed transcript, kept for the finish MACs. -/
  transcript : List UInt8
  deriving DecidableEq

/-- The randomness one `respond` draws. -/
structure RespondSeed (P : Primitives) where
  x25519 : P.X25519Secret
  encaps : P.EncapsSeed

/-- `encapsulate_for::<K>`. -/
def encapsulateFor (k : MlKemLevel) (clientX : Bytes 32) (clientMlkemPub : List UInt8)
    (seed : RespondSeed P) : Except HandshakeError (Bytes 32 × List UInt8 × Bytes 32) :=
  -- the hello's key is a byte string, and `K` fixes its length
  match Bytes.tryFrom k.mlkemPubLen clientMlkemPub with
  | none => .error (.crypto "client ML-KEM public key wrong length")
  | some ek =>
      match serverEncapsulate k clientX ek seed.x25519 seed.encaps with
      | .error m => .error (.crypto m)
      | .ok r => .ok (r.serverX25519Public, r.ciphertext.toList, r.hybridSecret)

/-- The parameter set `respond` runs a requested algorithm at. -/
def kemOf : AlgoCode → MlKemLevel
  | .mlKem512 => .mlKem512
  | .mlKem768 => .mlKem768
  | .mlKem1024 => .mlKem1024

/-- The code of a parameter set. -/
def codeOf : MlKemLevel → AlgoCode
  | .mlKem512 => .mlKem512
  | .mlKem768 => .mlKem768
  | .mlKem1024 => .mlKem1024

@[simp] theorem kemOf_codeOf (k : MlKemLevel) : kemOf (codeOf k) = k := by
  cases k <;> rfl

@[simp] theorem codeOf_kemOf (a : AlgoCode) : codeOf (kemOf a) = a := by
  cases a <;> rfl

/-- Produce a `ServerHello` in response to `hello`. -/
def respond (identity : P.SigningKey) (hello : ClientHello AlgoCode) (sessionId : Bytes 16)
    (serverNonce : Bytes 32) (seed : RespondSeed P) : Except HandshakeError HandshakeOutcome :=
  match encapsulateFor (kemOf hello.algo) hello.clientX25519Pub hello.clientMlkemPub seed with
  | .error e => .error e
  | .ok (serverX25519Pub, ciphertext, hybridSecret) =>
      let transcript := buildTranscript
        { algo := hello.algo
          clientNonce := hello.clientNonce
          serverNonce := serverNonce
          clientX25519Pub := hello.clientX25519Pub
          clientMlkemPub := hello.clientMlkemPub
          serverX25519Pub := serverX25519Pub
          mlkemCiphertext := ciphertext }
      let signature := P.sign identity transcript
      let keys := deriveSessionKeys P hybridSecret hello.clientNonce serverNonce
      .ok
        { serverHello :=
            { algo := hello.algo
              sessionId := sessionId
              serverNonce := serverNonce
              serverX25519Pub := serverX25519Pub
              mlkemCiphertext := ciphertext
              signature := signature.toList }
          keys := keys
          transcript := transcript }

/-- What a successful `respond` at parameter set `k` says about its hello and its outcome: the hello
carried a key of the algorithm's length, and the outcome is that key's encapsulation, signed and
keyed. -/
theorem respond_ok {identity : P.SigningKey} {hello : ClientHello AlgoCode} {sessionId : Bytes 16}
    {serverNonce : Bytes 32} {seed : RespondSeed P} {o : HandshakeOutcome} {k : MlKemLevel}
    (hk : kemOf hello.algo = k)
    (h : respond identity hello sessionId serverNonce seed = .ok o) :
    ∃ (ek : Bytes k.mlkemPubLen) (r : ServerEncapsulation k),
      hello.clientMlkemPub = ek.toList ∧
      serverEncapsulate k hello.clientX25519Pub ek seed.x25519 seed.encaps = .ok r ∧
      o.transcript = buildTranscript
        { algo := hello.algo
          clientNonce := hello.clientNonce
          serverNonce := serverNonce
          clientX25519Pub := hello.clientX25519Pub
          clientMlkemPub := hello.clientMlkemPub
          serverX25519Pub := r.serverX25519Public
          mlkemCiphertext := r.ciphertext.toList } ∧
      o.keys = deriveSessionKeys P r.hybridSecret hello.clientNonce serverNonce ∧
      o.serverHello =
        { algo := hello.algo
          sessionId := sessionId
          serverNonce := serverNonce
          serverX25519Pub := r.serverX25519Public
          mlkemCiphertext := r.ciphertext.toList
          signature := (P.sign identity o.transcript).toList } := by
  subst hk
  unfold respond encapsulateFor at h
  -- the two ways to fail: a key of another length, or an encapsulation that fails
  cases hek : Bytes.tryFrom (kemOf hello.algo).mlkemPubLen hello.clientMlkemPub with
  | none => simp [hek] at h
  | some ek =>
      cases henc : serverEncapsulate (kemOf hello.algo) hello.clientX25519Pub ek
          seed.x25519 seed.encaps with
      | error m => simp [hek, henc] at h
      | ok r =>
          simp only [hek, henc, Except.ok.injEq] at h
          subst h
          exact ⟨ek, r, Bytes.tryFrom_eq_some_iff.1 hek, henc, rfl, rfl, rfl⟩

theorem length_kemOf (a : AlgoCode) :
    a.mlkemPubLen = (kemOf a).mlkemPubLen ∧ a.ciphertextLen = (kemOf a).ciphertextLen := by
  cases a <;> exact ⟨rfl, rfl⟩

/-- An answer has the sizes its algorithm prescribes. -/
theorem serverHello_wellSized {identity : P.SigningKey} {hello : ClientHello AlgoCode}
    {sessionId : Bytes 16} {serverNonce : Bytes 32} {seed : RespondSeed P} {o : HandshakeOutcome}
    (h : respond identity hello sessionId serverNonce seed = .ok o) : o.serverHello.WellSized := by
  rcases respond_ok rfl h with ⟨_, r, _, _, _, _, hreply⟩
  rw [hreply]
  exact
    { mlkemCiphertext := r.ciphertext.toList_length.trans (length_kemOf hello.algo).2.symm
      signature := (P.sign identity o.transcript).toList_length }

namespace Reference

/-- The reference cryptography answers every hello whose key has the right length. -/
theorem respond_ok (identity : Crypto.Reference.primitives.SigningKey) {hello : ClientHello AlgoCode}
    (h : hello.WellSized) (sessionId : Bytes 16) (serverNonce : Bytes 32)
    (seed : RespondSeed Crypto.Reference.primitives) :
    ∃ o, respond (P := Crypto.Reference.primitives) identity hello sessionId serverNonce seed =
      .ok o := by
  have hlen : hello.clientMlkemPub.length = (kemOf hello.algo).mlkemPubLen :=
    h.trans (length_kemOf hello.algo).1
  unfold respond encapsulateFor
  rw [Bytes.tryFrom, dif_pos hlen]
  exact ⟨_, rfl⟩

end Reference
end Handshake
end PqcVpn
