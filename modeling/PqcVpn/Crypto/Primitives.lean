import PqcVpn.Basic.Bytes
import PqcVpn.Crypto.Algorithm

/-!
# Primitives — the third-party cryptography as a parameter

X25519 (`x25519-dalek`), ML-KEM (`ml-kem`), ML-DSA-65 (`ml-dsa`), SHA-256, HKDF and HMAC are not
part of the repository.  `Primitives` is what the code calls, with the encoded lengths in the
types; randomness the libraries draw is an explicit argument.  `Primitives.Correct` is the
documented behaviour the handshake relies on.
-/

namespace PqcVpn
namespace Crypto

/-- ML-DSA-65 encoded verifying-key length. -/
def verifyingKeyLen : Nat := 1952

/-- ML-DSA-65 encoded signature length. -/
def serverSignatureLen : Nat := 3309

/-- `Hmac<Sha256>`: the type of a MAC in progress, what the code does with one, and what it relies
on: two updates in a row absorb what one update with both pieces does, and a tag verifies if it is
the one the MAC finalizes to. -/
structure HmacSha256 where
  Mac : Type
  newFromSlice : Bytes 32 → Mac
  update : Mac → List UInt8 → Mac
  finalize : Mac → Bytes 32
  verifySlice : Mac → Bytes 32 → Bool
  finalize_update_update : ∀ mac a b,
    finalize (update (update mac a) b) = finalize (update mac (a ++ b))
  verifySlice_eq : ∀ mac claimed, verifySlice mac claimed = (finalize mac == claimed)

structure Primitives where
  /-- `StaticSecret`. -/
  X25519Secret : Type
  x25519Public : X25519Secret → Bytes 32
  diffieHellman : X25519Secret → Bytes 32 → Bytes 32
  /-- Randomness of `KemCore::generate`. -/
  KemSeed : Type
  DecapsulationKey : MlKemLevel → Type
  generate : (k : MlKemLevel) → KemSeed → DecapsulationKey k × Bytes k.mlkemPubLen
  /-- Randomness of `Encapsulate::encapsulate`. -/
  EncapsSeed : Type
  encapsulate : (k : MlKemLevel) → Bytes k.mlkemPubLen → EncapsSeed →
    Option (Bytes k.ciphertextLen × Bytes 32)
  decapsulate : (k : MlKemLevel) → DecapsulationKey k → Bytes k.ciphertextLen → Option (Bytes 32)
  sha256 : List UInt8 → Bytes 32
  /-- HKDF-SHA256 with salt, input key and info, expanded to 32 bytes. -/
  hkdf : List UInt8 → List UInt8 → List UInt8 → Bytes 32
  hmacSha256 : HmacSha256
  SigningKey : Type
  verifyingKey : SigningKey → Bytes verifyingKeyLen
  sign : SigningKey → List UInt8 → Bytes serverSignatureLen
  /-- `false` also when the signature bytes do not decode. -/
  verify : Bytes verifyingKeyLen → List UInt8 → Bytes serverSignatureLen → Bool

namespace Primitives

/-- HMAC-SHA256 of a message in one piece. -/
def hmac (P : Primitives) (key : Bytes 32) (message : List UInt8) : Bytes 32 :=
  P.hmacSha256.finalize (P.hmacSha256.update (P.hmacSha256.newFromSlice key) message)

/-- What the handshake relies on: the two Diffie-Hellman directions agree, decapsulating what was
encapsulated to one's own key gives the same secret, and a signature verifies under its own key. -/
structure Correct (P : Primitives) : Prop where
  diffieHellman_comm : ∀ a b,
    P.diffieHellman a (P.x25519Public b) = P.diffieHellman b (P.x25519Public a)
  decapsulate_encapsulate : ∀ k seed rand ct ss,
    P.encapsulate k (P.generate k seed).2 rand = some (ct, ss) →
      P.decapsulate k (P.generate k seed).1 ct = some ss
  verify_sign : ∀ sk m, P.verify (P.verifyingKey sk) m (P.sign sk m) = true

/-- Encapsulating to a generated key does not fail. -/
def Encapsulates (P : Primitives) : Prop :=
  ∀ k seed rand, ∃ r, P.encapsulate k (P.generate k seed).2 rand = some r

end Primitives

end Crypto
end PqcVpn
