import PqcVpn.Crypto.HybridKem
import PqcVpn.Wire.Message

/-!
# Client — the client side of the handshake

`core/src/protocol/client.rs`: ephemeral keys and the `ClientHello`, then `finish`, which checks the
pinned signature before it derives any secret.
-/

namespace PqcVpn
namespace Handshake
namespace Client

open Crypto Wire

variable {P : Primitives}

/-- Failure verifying a `ServerHello` or deriving the session keys from it. -/
inductive HandshakeError
  | algoMismatch
  | authFailed
  | crypto (m : String)
  deriving DecidableEq, Repr

/-- A client mid-handshake.  `level` is the variant of the source's enum, `K512`, `K768` or
`K1024`. -/
structure ClientHandshake (P : Primitives) where
  level : MlKemLevel
  keys : HybridClientKeys P level
  hello : ClientHello MlKemLevel

namespace ClientHandshake

/-- The randomness one `start` draws. -/
structure Seed (P : Primitives) where
  clientNonce : Bytes 32
  x25519 : P.X25519Secret
  kem : P.KemSeed

def start (algo : MlKemLevel) (clientWgPubkey : Bytes 32) (seed : Seed P) : ClientHandshake P :=
  let keys := generateClientKeypairs P algo seed.x25519 seed.kem
  { level := algo
    keys := keys
    hello :=
      { algo := algo
        clientNonce := seed.clientNonce
        clientWgPubkey := clientWgPubkey
        clientX25519Pub := keys.x25519Public
        clientMlkemPub := keys.mlkemPublic.toList } }

/-- The transcript of this client's hello and a server's answer. -/
def transcriptWith (c : ClientHandshake P) (serverHello : ServerHello MlKemLevel) : List UInt8 :=
  buildHandshakeTranscriptFromBytes (asBytes c.hello.algo.name) c.hello.clientNonce
    serverHello.serverNonce c.hello.clientX25519Pub c.hello.clientMlkemPub
    serverHello.serverX25519Pub serverHello.mlkemCiphertext

/-- Verify the server's signature, decapsulate and derive the session keys. -/
def finish (c : ClientHandshake P) (serverHello : ServerHello MlKemLevel)
    (pinnedVerifyingKey : List UInt8) :
    Except HandshakeError (SessionKeys × ClientFinish × List UInt8) :=
  if serverHello.algo ≠ c.hello.algo then
    .error .algoMismatch
  else
    let transcript := c.transcriptWith serverHello
    -- nothing secret is used before the signature has been checked
    if ¬ verifyServerSignature P pinnedVerifyingKey transcript serverHello.signature then
      .error .authFailed
    else
      -- the decoder fixed the length already; the array conversion checks it again
      match Bytes.tryFrom c.level.ciphertextLen serverHello.mlkemCiphertext with
      | none => .error (.crypto "server ciphertext has the wrong length")
      | some ct =>
          match clientDecapsulate c.keys serverHello.serverX25519Pub ct with
          | .error m => .error (.crypto m)
          | .ok hybridSecret =>
              let keys :=
                deriveSessionKeys P hybridSecret c.hello.clientNonce serverHello.serverNonce
              .ok (keys,
                { sessionId := serverHello.sessionId
                  clientTag := clientTag P keys.confirmKey transcript },
                transcript)

/-- What a successful `finish` has checked, and the keys it derived. -/
theorem finish_ok {c : ClientHandshake P} {sh : ServerHello MlKemLevel} {vk : List UInt8}
    {keys : SessionKeys} {fin : ClientFinish} {t : List UInt8}
    (h : c.finish sh vk = .ok (keys, fin, t)) :
    sh.algo = c.hello.algo ∧
      t = c.transcriptWith sh ∧
      verifyServerSignature P vk t sh.signature = true ∧
      fin = { sessionId := sh.sessionId, clientTag := clientTag P keys.confirmKey t } ∧
      ∃ (ct : Bytes c.level.ciphertextLen) (secret : Bytes 32),
        sh.mlkemCiphertext = ct.toList ∧
        clientDecapsulate c.keys sh.serverX25519Pub ct = .ok secret ∧
        keys = deriveSessionKeys P secret c.hello.clientNonce sh.serverNonce := by
  unfold finish at h
  -- the checks in the order of the source: algorithm, signature, ciphertext, decapsulation
  by_cases halgo : sh.algo = c.hello.algo
  · by_cases hsig : verifyServerSignature P vk (c.transcriptWith sh) sh.signature = true
    · cases hct : Bytes.tryFrom c.level.ciphertextLen sh.mlkemCiphertext with
      | none => simp [halgo, hsig, hct] at h
      | some ct =>
          cases hdec : clientDecapsulate c.keys sh.serverX25519Pub ct with
          | error m => simp [halgo, hsig, hct, hdec] at h
          | ok secret =>
              simp only [halgo, hsig, hct, hdec, ne_eq, not_true_eq_false, ite_false,
                Except.ok.injEq, Prod.mk.injEq] at h
              rcases h with ⟨rfl, rfl, rfl⟩
              exact ⟨halgo, rfl, hsig, rfl, ct, secret, Bytes.tryFrom_eq_some_iff.1 hct, hdec, rfl⟩
    · simp [halgo, hsig] at h
  · simp [halgo] at h

/-- When every check passes, `finish` returns the derived keys. -/
theorem finish_of_checks (c : ClientHandshake P) {sh : ServerHello MlKemLevel} {vk : List UInt8}
    (ct : Bytes c.level.ciphertextLen) {secret : Bytes 32} (keys : SessionKeys)
    (halgo : sh.algo = c.hello.algo)
    (hsig : verifyServerSignature P vk (c.transcriptWith sh) sh.signature = true)
    (hct : sh.mlkemCiphertext = ct.toList)
    (hdec : clientDecapsulate c.keys sh.serverX25519Pub ct = .ok secret)
    (hkeys : keys = deriveSessionKeys P secret c.hello.clientNonce sh.serverNonce) :
    c.finish sh vk =
      .ok (keys,
        { sessionId := sh.sessionId
          clientTag := clientTag P keys.confirmKey (c.transcriptWith sh) },
        c.transcriptWith sh) := by
  have hct' : Bytes.tryFrom c.level.ciphertextLen sh.mlkemCiphertext = some ct :=
    Bytes.tryFrom_eq_some_iff.2 hct
  subst hkeys
  simp [finish, halgo, hsig, hct', hdec]

/-- The session id of a `ServerHello` is only echoed. -/
theorem finish_sessionId {c : ClientHandshake P} {sh : ServerHello MlKemLevel} {vk : List UInt8}
    {keys : SessionKeys} {fin : ClientFinish} {t : List UInt8}
    (h : c.finish sh vk = .ok (keys, fin, t)) (sessionId : Bytes 16) :
    c.finish { sh with sessionId := sessionId } vk =
      .ok (keys, { fin with sessionId := sessionId }, t) := by
  rcases finish_ok h with ⟨halgo, rfl, hsig, rfl, ct, secret, hct, hdec, hkeys⟩
  exact finish_of_checks c ct keys halgo hsig hct hdec hkeys

/-- The WireGuard key of a hello plays no part in `finish`. -/
theorem finish_start (algo : MlKemLevel) (pk pk' : Bytes 32) (seed : Seed P)
    (sh : ServerHello MlKemLevel) (vk : List UInt8) :
    (start algo pk seed).finish sh vk = (start algo pk' seed).finish sh vk := by
  simp only [finish, start, transcriptWith]
  cases Bytes.tryFrom algo.ciphertextLen sh.mlkemCiphertext <;> rfl

end ClientHandshake

end Client
end Handshake
end PqcVpn
