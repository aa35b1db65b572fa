import PqcVpn.Crypto.HybridKem

/-!
# Reference — a lawful stand-in for the cryptography

`Reference.primitives` is short enough to compute with and satisfies `Primitives.Correct`.  It is
not secure; it shows that the assumptions about the third-party code can be met.
-/

namespace PqcVpn
namespace Crypto
namespace Reference

/-- The first `n` bytes of `l`, padded with zeros. -/
def fit (n : Nat) (l : List UInt8) : Bytes n :=
  ⟨(l ++ List.replicate n 0).take n, by simp⟩

theorem fit_toList_of_le {m n : Nat} (h : m ≤ n) (b : Bytes m) : fit m (fit n b.toList).toList = b := by
  have hlen : b.toList.length = m := b.toList_length
  refine Subtype.ext ?_
  change (((b.toList ++ List.replicate n 0).take n) ++ List.replicate m 0).take m = b.toList
  rw [List.take_append_of_le_length (by simp; omega), List.take_take, min_eq_left h,
    List.take_left' hlen]

def primitives : Primitives where
  X25519Secret := Bytes 32
  x25519Public := id
  diffieHellman := fun a b => List.Vector.map₂ (· ^^^ ·) a b
  KemSeed := Bytes 32
  DecapsulationKey := fun _ => Bytes 32
  generate := fun k seed => (seed, fit k.mlkemPubLen seed.toList)
  EncapsSeed := Bytes 32
  encapsulate := fun k _ rand => some (fit k.ciphertextLen rand.toList, rand)
  decapsulate := fun _ _ ct => some (fit 32 ct.toList)
  sha256 := fit 32
  hkdf := fun salt _ _ => fit 32 salt
  hmacSha256 :=
    { Mac := List UInt8
      newFromSlice := fun _ => []
      update := fun mac data => mac ++ data
      finalize := fun mac => fit 32 mac.reverse
      verifySlice := fun mac claimed => fit 32 mac.reverse == claimed
      finalize_update_update := fun mac a b => by rw [List.append_assoc]
      verifySlice_eq := fun _ _ => rfl }
  SigningKey := Unit
  verifyingKey := fun _ => .replicate verifyingKeyLen 0
  sign := fun _ m => fit serverSignatureLen m
  verify := fun _ m sig => sig == fit serverSignatureLen m

theorem primitives_correct : primitives.Correct where
  diffieHellman_comm := by
    intro a b
    refine Subtype.ext ?_
    change List.zipWith (· ^^^ ·) a.toList b.toList = List.zipWith (· ^^^ ·) b.toList a.toList
    exact List.zipWith_comm_of_comm UInt8.xor_comm
  decapsulate_encapsulate := by
    intro k seed rand ct ss h
    cases h
    have hle : 32 ≤ k.ciphertextLen := by cases k <;> decide
    exact congrArg some (fit_toList_of_le hle rand)
  verify_sign := by
    intro sk m
    exact beq_self_eq_true _

theorem primitives_encapsulates : primitives.Encapsulates := by
  intro k seed rand
  exact ⟨_, rfl⟩

/-- Sessions of different client nonces get different PSKs. -/
theorem psk_deriveSessionKeys (hybridSecret clientNonce serverNonce : Bytes 32) :
    (deriveSessionKeys primitives hybridSecret clientNonce serverNonce).psk = clientNonce := by
  have hlen : clientNonce.toList.length = 32 := clientNonce.toList_length
  refine Subtype.ext ?_
  change ((clientNonce.toList ++ serverNonce.toList) ++ List.replicate 32 0).take 32 =
    clientNonce.toList
  rw [List.append_assoc, List.take_left' hlen]

end Reference
end Crypto
end PqcVpn
