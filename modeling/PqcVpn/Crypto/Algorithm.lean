import Mathlib.Order.Nat

/-!
# Algorithm — the ML-KEM security levels of `core::crypto`

`MlKemLevel` with its display name, its one-byte wire code and the encoded sizes of its keys and
ciphertexts.  The derived `Ord` of the source is the declaration order 512 < 768 < 1024.
-/

namespace PqcVpn
namespace Crypto

inductive MlKemLevel
  | mlKem512
  | mlKem768
  | mlKem1024
  deriving DecidableEq, Repr

namespace MlKemLevel

/-- Position in the derived order. -/
def strength : MlKemLevel → Nat
  | mlKem512 => 0
  | mlKem768 => 1
  | mlKem1024 => 2

theorem strength_injective : Function.Injective strength := by
  intro a b h
  cases a <;> cases b <;> simp_all [strength]

instance : LinearOrder MlKemLevel := LinearOrder.lift' strength strength_injective

/-- Display name, which is also signed into the handshake transcript. -/
def name : MlKemLevel → String
  | mlKem512 => "ML-KEM-512"
  | mlKem768 => "ML-KEM-768"
  | mlKem1024 => "ML-KEM-1024"

def wireCode : MlKemLevel → UInt8
  | mlKem512 => 0x00
  | mlKem768 => 0x01
  | mlKem1024 => 0x02

def fromWireCode (byte : UInt8) : Option MlKemLevel :=
  match byte with
  | 0x00 => some mlKem512
  | 0x01 => some mlKem768
  | 0x02 => some mlKem1024
  | _ => none

@[simp] theorem fromWireCode_wireCode (l : MlKemLevel) : fromWireCode l.wireCode = some l := by
  cases l <;> rfl

/-- Encoded encapsulation-key length (client → server). -/
def mlkemPubLen : MlKemLevel → Nat
  | mlKem512 => 800
  | mlKem768 => 1184
  | mlKem1024 => 1568

/-- Encoded ciphertext length (server → client). -/
def ciphertextLen : MlKemLevel → Nat
  | mlKem512 => 768
  | mlKem768 => 1088
  | mlKem1024 => 1568

end MlKemLevel

end Crypto
end PqcVpn
