import PqcVpn.Handshake.Agreement
import PqcVpn.Lib.Machine
import PqcVpn.Server.Identity

/-!
# Pinning — one identity over restarts

What any sequence of starts does to the seed file, and what it serves from it: the key a client
pinned stays the server's key, whatever fails and wherever a start dies.
-/

namespace PqcVpn
namespace Server

open Crypto Wire Handshake Machine
open Handshake.Client (ClientHandshake)
open Handshake.Agreement (finish_of_respond)

variable {P : Primitives} {K : SeededKeys P} {hexEncode : List UInt8 → String}

/-! ## The seed file after some starts -/

/-- The file holds the seed of this identity. -/
def File.Holds (K : SeededKeys P) (file : File) (id : ServerIdentity P) : Prop :=
  ∃ seed, Bytes.tryFrom seedLen file.bytes = some seed ∧
    id = { auth := ServerAuthenticator.fromSeedBytes K seed }

namespace Keyed

/-- The reference primitives with keys told apart by their seeds. -/
def primitives : Primitives :=
  { Crypto.Reference.primitives with
    SigningKey := Bytes 32
    verifyingKey := fun key => Crypto.Reference.fit verifyingKeyLen key.toList
    sign := fun _ m => Crypto.Reference.fit serverSignatureLen m }

theorem primitives_correct : primitives.Correct where
  diffieHellman_comm := Crypto.Reference.primitives_correct.diffieHellman_comm
  decapsulate_encapsulate := Crypto.Reference.primitives_correct.decapsulate_encapsulate
  verify_sign := fun _ _ => beq_self_eq_true _

/-- A key is its seed. -/
def seededKeys : SeededKeys primitives where
  Rand := Bytes 32
  generate := id
  fromSeed := id
  toSeed := id

/-- All calls of a start get done. -/
def calls : Calls where
  read := .done
  createDirAll := .done
  write := .done
  setPermissions := .done
  writePub := .done
  createMode := 0o644

/-- The identity of the first start, which it did not get to serve. -/
def identity : ServerIdentity primitives :=
  ServerIdentity.generate seededKeys (List.Vector.replicate 32 7)

end Keyed

end Server
end PqcVpn
