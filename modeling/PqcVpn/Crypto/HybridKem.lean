import PqcVpn.Crypto.Primitives
import PqcVpn.Wire.Utf8

/-!
# HybridKem — X25519 + ML-KEM exchange, transcript and session keys

`core::crypto::hybrid_kem` and `core::crypto::kdf`, shared by the client and the server, and the
confirmation MAC both sides compute over the transcript.
-/

namespace PqcVpn
namespace Crypto

open Wire (asBytes)

variable (P : Primitives)

/-! ## Hybrid exchange -/

/-- The client's ephemeral keys.  The private fields of the source are only ever filled by
`generateClientKeypairs`, so the public halves are those of the private ones. -/
structure HybridClientKeys (k : MlKemLevel) where
  x25519Private : P.X25519Secret
  kemSeed : P.KemSeed

namespace HybridClientKeys

variable {P} {k : MlKemLevel}

def x25519Public (keys : HybridClientKeys P k) : Bytes 32 := P.x25519Public keys.x25519Private

def mlkemPrivate (keys : HybridClientKeys P k) : P.DecapsulationKey k :=
  (P.generate k keys.kemSeed).1

def mlkemPublic (keys : HybridClientKeys P k) : Bytes k.mlkemPubLen :=
  (P.generate k keys.kemSeed).2

end HybridClientKeys

def generateClientKeypairs (k : MlKemLevel) (x25519Private : P.X25519Secret)
    (kemSeed : P.KemSeed) : HybridClientKeys P k :=
  { x25519Private, kemSeed }

/-- `SHA256(x25519_secret || mlkem_secret)`. -/
def combineSharedSecrets (x25519Secret mlkemSecret : List UInt8) : Bytes 32 :=
  P.sha256 (x25519Secret ++ mlkemSecret)

variable {P}

def clientDecapsulate {k : MlKemLevel} (clientKeys : HybridClientKeys P k)
    (serverX25519Public : Bytes 32) (ciphertext : Bytes k.ciphertextLen) :
    Except String (Bytes 32) :=
  let clientX25519Secret := P.diffieHellman clientKeys.x25519Private serverX25519Public
  match P.decapsulate k clientKeys.mlkemPrivate ciphertext with
  | none => .error "ML-KEM decapsulation failed"
  | some clientMlkemSecret =>
      .ok (combineSharedSecrets P clientX25519Secret.toList clientMlkemSecret.toList)

structure ServerEncapsulation (k : MlKemLevel) where
  serverX25519Public : Bytes 32
  ciphertext : Bytes k.ciphertextLen
  hybridSecret : Bytes 32

/-- The server's side of the exchange; `x25519Private` and `rand` are its fresh randomness. -/
def serverEncapsulate (k : MlKemLevel) (clientX25519Public : Bytes 32)
    (clientMlkemPublic : Bytes k.mlkemPubLen) (x25519Private : P.X25519Secret)
    (rand : P.EncapsSeed) : Except String (ServerEncapsulation k) :=
  let serverX25519Secret := P.diffieHellman x25519Private clientX25519Public
  match P.encapsulate k clientMlkemPublic rand with
  | none => .error "ML-KEM encapsulation failed"
  | some (ciphertext, serverMlkemSecret) =>
      .ok { serverX25519Public := P.x25519Public x25519Private
            ciphertext := ciphertext
            hybridSecret :=
              combineSharedSecrets P serverX25519Secret.toList serverMlkemSecret.toList }

/-- Both ends of one exchange derive the same hybrid secret. -/
theorem clientDecapsulate_of_serverEncapsulate (hP : P.Correct) {k : MlKemLevel}
    (keys : HybridClientKeys P k) {x : P.X25519Secret} {rand : P.EncapsSeed}
    {r : ServerEncapsulation k}
    (h : serverEncapsulate k keys.x25519Public keys.mlkemPublic x rand = .ok r) :
    clientDecapsulate keys r.serverX25519Public r.ciphertext = .ok r.hybridSecret := by
  unfold serverEncapsulate at h
  cases henc : P.encapsulate k keys.mlkemPublic rand with
  | none => simp [henc] at h
  | some ctss =>
      rcases ctss with ⟨ct, ss⟩
      simp only [henc, Except.ok.injEq] at h
      subst h
      have hdec : P.decapsulate k keys.mlkemPrivate ct = some ss :=
        hP.decapsulate_encapsulate k keys.kemSeed rand ct ss henc
      have hdh : P.diffieHellman keys.x25519Private (P.x25519Public x) =
          P.diffieHellman x keys.x25519Public :=
        hP.diffieHellman_comm keys.x25519Private x
      simp [clientDecapsulate, hdec, hdh]

/-! ## Transcript -/

def protocolLabel : List UInt8 := asBytes "PQC-VPN-HANDSHAKE-v1"

/-- The handshake bytes the server signs. -/
def buildHandshakeTranscriptFromBytes (algorithmName : List UInt8)
    (clientNonce serverNonce clientX25519Public : Bytes 32) (clientMlkemPublic : List UInt8)
    (serverX25519Public : Bytes 32) (ciphertext : List UInt8) : List UInt8 :=
  protocolLabel ++ algorithmName ++ clientNonce.toList ++ serverNonce.toList ++
    clientX25519Public.toList ++ clientMlkemPublic ++ serverX25519Public.toList ++ ciphertext

/-! ## Session keys -/

structure SessionKeys where
  /-- Installed as the WireGuard preshared key. -/
  psk : Bytes 32
  /-- Keys the `ClientFinish` / `ServerFinish` MACs. -/
  confirmKey : Bytes 32
  deriving DecidableEq

variable (P)

def deriveSessionKeys (hybridSecret clientNonce serverNonce : Bytes 32) : SessionKeys :=
  let salt := clientNonce.toList ++ serverNonce.toList
  { psk := P.hkdf salt hybridSecret.toList (asBytes "pqc-vpn wg psk")
    confirmKey := P.hkdf salt hybridSecret.toList (asBytes "pqc-vpn confirm") }

/-! ## Confirmation tags -/

def labelClientFinished : List UInt8 := asBytes "client finished"
def labelServerFinished : List UInt8 := asBytes "server finished"

/-- The MAC that has absorbed the label and the transcript; both crates start their tags so. -/
def absorbed (confirmKey : Bytes 32) (label transcript : List UInt8) : P.hmacSha256.Mac :=
  let mac := P.hmacSha256.newFromSlice confirmKey
  let mac := P.hmacSha256.update mac label
  P.hmacSha256.update mac transcript

def tag (confirmKey : Bytes 32) (label transcript : List UInt8) : Bytes 32 :=
  P.hmacSha256.finalize (absorbed P confirmKey label transcript)

def clientTag (confirmKey : Bytes 32) (transcript : List UInt8) : Bytes 32 :=
  tag P confirmKey labelClientFinished transcript

def serverTag (confirmKey : Bytes 32) (transcript : List UInt8) : Bytes 32 :=
  tag P confirmKey labelServerFinished transcript

def verifyClientTag (confirmKey : Bytes 32) (transcript : List UInt8) (claimed : Bytes 32) :
    Bool :=
  P.hmacSha256.verifySlice (absorbed P confirmKey labelClientFinished transcript) claimed

def verifyServerTag (confirmKey : Bytes 32) (transcript : List UInt8) (claimed : Bytes 32) :
    Bool :=
  P.hmacSha256.verifySlice (absorbed P confirmKey labelServerFinished transcript) claimed

/-- A tag is the HMAC-SHA256 of `label || transcript`. -/
theorem tag_eq_hmac (confirmKey : Bytes 32) (label transcript : List UInt8) :
    tag P confirmKey label transcript = P.hmac confirmKey (label ++ transcript) :=
  P.hmacSha256.finalize_update_update _ label transcript

theorem verifyClientTag_iff {confirmKey : Bytes 32} {transcript : List UInt8}
    {claimed : Bytes 32} : verifyClientTag P confirmKey transcript claimed = true ↔
      claimed = clientTag P confirmKey transcript := by
  rw [verifyClientTag, P.hmacSha256.verifySlice_eq, beq_iff_eq]
  exact eq_comm

theorem verifyServerTag_iff {confirmKey : Bytes 32} {transcript : List UInt8}
    {claimed : Bytes 32} : verifyServerTag P confirmKey transcript claimed = true ↔
      claimed = serverTag P confirmKey transcript := by
  rw [verifyServerTag, P.hmacSha256.verifySlice_eq, beq_iff_eq]
  exact eq_comm

/-- `verify_server_signature` of `core` and `identity::verify` of the server: wrong lengths do not
verify. -/
def verifyServerSignature (verifyingKeyBytes message signatureBytes : List UInt8) : Bool :=
  match Bytes.tryFrom verifyingKeyLen verifyingKeyBytes with
  | none => false
  | some vk =>
      match Bytes.tryFrom serverSignatureLen signatureBytes with
      | none => false
      | some sig => P.verify vk message sig

end Crypto
end PqcVpn
