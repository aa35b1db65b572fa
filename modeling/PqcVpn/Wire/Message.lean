import PqcVpn.Crypto.Algorithm
import PqcVpn.Wire.Error
import PqcVpn.Wire.Utf8

/-!
# Messages — the six wire messages and their payload codec

`server/handshake-server/src/wire.rs` and its port `core/src/protocol/wire.rs` are the same codec
over two algorithm enumerations: `AlgoCode` on the server, `MlKemLevel` in `core`.  The codec is
stated once over `WireAlgo`; `HandshakeServer` and `Core` are the two crates' own.

A payload writes fixed-size fields raw and variable ones as a `u16` length followed by the bytes.
-/

namespace PqcVpn
namespace Wire

open Crypto (MlKemLevel)

def protocolVersion : UInt8 := 0x01
def maxPayload : Nat := 8192

/-- ML-DSA-65 signature length. -/
def signatureLen : Nat := 3309

/-! ## Algorithm codes -/

/-- What the codec asks of an algorithm enumeration. -/
class WireAlgo (A : Type) where
  toU8 : A → UInt8
  fromU8 : UInt8 → Except WireError A
  mlkemPubLen : A → Nat
  ciphertextLen : A → Nat

/-- The server's algorithm enumeration. -/
inductive AlgoCode
  | mlKem512
  | mlKem768
  | mlKem1024
  deriving DecidableEq, Repr

namespace AlgoCode

/-- Position in the derived order. -/
def strength : AlgoCode → Nat
  | mlKem512 => 0
  | mlKem768 => 1
  | mlKem1024 => 2

theorem strength_injective : Function.Injective strength := by
  intro a b h
  cases a <;> cases b <;> simp_all [strength]

instance : LinearOrder AlgoCode := LinearOrder.lift' strength strength_injective

def toU8 : AlgoCode → UInt8
  | mlKem512 => 0x00
  | mlKem768 => 0x01
  | mlKem1024 => 0x02

def fromU8 (b : UInt8) : Except WireError AlgoCode :=
  match b with
  | 0x00 => .ok mlKem512
  | 0x01 => .ok mlKem768
  | 0x02 => .ok mlKem1024
  | _ => .error (.invalid "algorithm code")

/-- Name as it appears in the signed transcript. -/
def transcriptName : AlgoCode → String
  | mlKem512 => "ML-KEM-512"
  | mlKem768 => "ML-KEM-768"
  | mlKem1024 => "ML-KEM-1024"

/-- Name in the logs and in the persisted registry. -/
def name : AlgoCode → String
  | mlKem512 => "ML-KEM-512"
  | mlKem768 => "ML-KEM-768"
  | mlKem1024 => "ML-KEM-1024"

def fromName (s : String) : Option AlgoCode :=
  if s = "ML-KEM-512" then some mlKem512
  else if s = "ML-KEM-768" then some mlKem768
  else if s = "ML-KEM-1024" then some mlKem1024
  else none

@[simp] theorem fromName_name (a : AlgoCode) : fromName a.name = some a := by
  cases a <;> decide

def mlkemPubLen : AlgoCode → Nat
  | mlKem512 => 800
  | mlKem768 => 1184
  | mlKem1024 => 1568

def ciphertextLen : AlgoCode → Nat
  | mlKem512 => 768
  | mlKem768 => 1088
  | mlKem1024 => 1568

end AlgoCode

instance : WireAlgo AlgoCode where
  toU8 := AlgoCode.toU8
  fromU8 := AlgoCode.fromU8
  mlkemPubLen := AlgoCode.mlkemPubLen
  ciphertextLen := AlgoCode.ciphertextLen

/-- `algo_from_u8` of `core`. -/
def algoFromU8 (b : UInt8) : Except WireError MlKemLevel :=
  match MlKemLevel.fromWireCode b with
  | some l => .ok l
  | none => .error (.invalid "algorithm code")

instance : WireAlgo MlKemLevel where
  toU8 := MlKemLevel.wireCode
  fromU8 := algoFromU8
  mlkemPubLen := MlKemLevel.mlkemPubLen
  ciphertextLen := MlKemLevel.ciphertextLen

/-! ## Message types -/

inductive MsgType
  | clientHello
  | serverHello
  | clientFinish
  | serverFinish
  | rekeyRequest
  | error
  deriving DecidableEq, Repr

namespace MsgType

def toU8 : MsgType → UInt8
  | clientHello => 0x01
  | serverHello => 0x02
  | clientFinish => 0x03
  | serverFinish => 0x04
  | rekeyRequest => 0x05
  | error => 0xEE

def fromU8 (b : UInt8) : Except WireError MsgType :=
  match b with
  | 0x01 => .ok clientHello
  | 0x02 => .ok serverHello
  | 0x03 => .ok clientFinish
  | 0x04 => .ok serverFinish
  | 0x05 => .ok rekeyRequest
  | 0xEE => .ok error
  | other => .error (.unknownMsgType other)

end MsgType

/-! ## Writing -/

/-- `u16::to_be_bytes`. -/
def u16ToBeBytes (v : UInt16) : List UInt8 :=
  [UInt8.ofNat (v.toNat / 256), UInt8.ofNat (v.toNat % 256)]

/-- `Writer::lv`: the length truncated to `u16`, then the bytes. -/
def lv (v : List UInt8) : List UInt8 :=
  u16ToBeBytes (UInt16.ofNat v.length) ++ v

/-! ## Reading -/

/-- The payload reader: a buffer and the position of the next unread byte. -/
structure Reader where
  buf : List UInt8
  pos : Nat
  pos_le : pos ≤ buf.length

abbrev Decode : Type → Type := StateT Reader (Except WireError)

namespace Reader

def new (buf : List UInt8) : Reader := ⟨buf, 0, Nat.zero_le _⟩

def remaining (r : Reader) : Nat := r.buf.length - r.pos

def take (n : Nat) : Decode (Bytes n) := fun r =>
  if h : r.remaining < n then
    .error .truncated
  else
    have hle : r.pos + n ≤ r.buf.length := by
      have := r.pos_le
      unfold remaining at h
      omega
    .ok (⟨(r.buf.drop r.pos).take n, by simp; omega⟩, ⟨r.buf, r.pos + n, hle⟩)

def takeU8 : Decode UInt8 := do
  return (← take 1).get 0

def takeU16 : Decode UInt16 := do
  let b ← take 2
  return UInt16.ofNat ((b.get 0).toNat * 256 + (b.get 1).toNat)

/-- A fixed-size field; running out of bytes is reported under the field's name. -/
def takeArr (n : Nat) (what : String) : Decode (Bytes n) := fun r =>
  match take n r with
  | .ok a => .ok a
  | .error _ => .error (.invalid what)

/-- A `u16` length prefix, then that many bytes. -/
def takeLv : Decode (List UInt8) := do
  let n ← takeU16
  -- the bound is checked before the bytes are looked for
  if n.toNat > maxPayload then
    throw .lengthOutOfRange
  return (← take n.toNat).toList

/-- A length-prefixed field that must be exactly `n` bytes. -/
def takeLvArr (n : Nat) (what : String) : Decode (Bytes n) := do
  match Bytes.tryFrom n (← takeLv) with
  | some a => return a
  | none => throw (.invalid what)

/-- A length-prefixed field whose length the algorithm determines. -/
def takeLvLen (n : Nat) (what : String) : Decode (List UInt8) := do
  let v ← takeLv
  if v.length ≠ n then
    throw (.invalid what)
  return v

def expectEnd : Decode Unit := fun r =>
  if r.remaining = 0 then .ok ((), r) else .error (.invalid "trailing bytes")

end Reader

/-! ## The messages -/

structure ClientHello (A : Type) where
  algo : A
  clientNonce : Bytes 32
  clientWgPubkey : Bytes 32
  clientX25519Pub : Bytes 32
  clientMlkemPub : List UInt8
  deriving DecidableEq

structure ServerHello (A : Type) where
  algo : A
  sessionId : Bytes 16
  serverNonce : Bytes 32
  serverX25519Pub : Bytes 32
  mlkemCiphertext : List UInt8
  signature : List UInt8
  deriving DecidableEq

structure ClientFinish where
  sessionId : Bytes 16
  clientTag : Bytes 32
  deriving DecidableEq

structure ServerFinish where
  sessionId : Bytes 16
  serverTag : Bytes 32
  /-- WireGuard parameters the client brings the tunnel up with. -/
  serverWgPubkey : Bytes 32
  assignedIp : Bytes 4
  wgPort : UInt16
  deriving DecidableEq

structure RekeyRequest (A : Type) where
  sessionId : Bytes 16
  hello : ClientHello A
  deriving DecidableEq

structure ErrorMsg where
  code : UInt8
  message : String
  deriving DecidableEq

inductive Message (A : Type)
  | clientHello (m : ClientHello A)
  | serverHello (m : ServerHello A)
  | clientFinish (m : ClientFinish)
  | serverFinish (m : ServerFinish)
  | rekeyRequest (m : RekeyRequest A)
  | error (m : ErrorMsg)
  deriving DecidableEq

/-! The same message over another algorithm enumeration. -/

def ClientHello.mapAlgo {A B : Type} (f : A → B) (m : ClientHello A) : ClientHello B :=
  { m with algo := f m.algo }

def ServerHello.mapAlgo {A B : Type} (f : A → B) (m : ServerHello A) : ServerHello B :=
  { m with algo := f m.algo }

def Message.mapAlgo {A B : Type} (f : A → B) : Message A → Message B
  | .clientHello m => .clientHello (m.mapAlgo f)
  | .serverHello m => .serverHello (m.mapAlgo f)
  | .clientFinish m => .clientFinish m
  | .serverFinish m => .serverFinish m
  | .rekeyRequest m => .rekeyRequest { sessionId := m.sessionId, hello := m.hello.mapAlgo f }
  | .error m => .error m

variable {A : Type} [WireAlgo A]

namespace ClientHello

def encodeInto (m : ClientHello A) : List UInt8 :=
  [WireAlgo.toU8 m.algo] ++ m.clientNonce.toList ++ m.clientWgPubkey.toList ++
    lv m.clientX25519Pub.toList ++ lv m.clientMlkemPub

def decodeFrom : Decode (ClientHello A) := do
  let algo : A ← WireAlgo.fromU8 (← Reader.takeU8)
  let clientNonce ← Reader.takeArr 32 "client_nonce"
  let clientWgPubkey ← Reader.takeArr 32 "client_wg_pubkey"
  let clientX25519Pub ← Reader.takeLvArr 32 "client_x25519_pub length"
  let clientMlkemPub ← Reader.takeLvLen (WireAlgo.mlkemPubLen algo) "client_mlkem_pub length"
  return { algo, clientNonce, clientWgPubkey, clientX25519Pub, clientMlkemPub }

end ClientHello

namespace ServerHello

def encodeInto (m : ServerHello A) : List UInt8 :=
  [WireAlgo.toU8 m.algo] ++ m.sessionId.toList ++ m.serverNonce.toList ++
    lv m.serverX25519Pub.toList ++ lv m.mlkemCiphertext ++ lv m.signature

def decodeFrom : Decode (ServerHello A) := do
  let algo : A ← WireAlgo.fromU8 (← Reader.takeU8)
  let sessionId ← Reader.takeArr 16 "session_id"
  let serverNonce ← Reader.takeArr 32 "server_nonce"
  let serverX25519Pub ← Reader.takeLvArr 32 "server_x25519_pub length"
  let mlkemCiphertext ← Reader.takeLvLen (WireAlgo.ciphertextLen algo) "mlkem_ciphertext length"
  let signature ← Reader.takeLvLen signatureLen "signature length"
  return { algo, sessionId, serverNonce, serverX25519Pub, mlkemCiphertext, signature }

end ServerHello

namespace Message

def msgType : Message A → MsgType
  | clientHello _ => .clientHello
  | serverHello _ => .serverHello
  | clientFinish _ => .clientFinish
  | serverFinish _ => .serverFinish
  | rekeyRequest _ => .rekeyRequest
  | error _ => .error

/-- Payload bytes only, without the frame header. -/
def encodePayload : Message A → List UInt8
  | clientHello m => m.encodeInto
  | serverHello m => m.encodeInto
  | clientFinish m => m.sessionId.toList ++ m.clientTag.toList
  | serverFinish m =>
      m.sessionId.toList ++ m.serverTag.toList ++ m.serverWgPubkey.toList ++
        m.assignedIp.toList ++ u16ToBeBytes m.wgPort
  | rekeyRequest m => m.sessionId.toList ++ m.hello.encodeInto
  | error m => [m.code] ++ lv (asBytes m.message)

/-- The fields of a payload, before the check that nothing follows them. -/
def decodeFields : MsgType → Decode (Message A)
  | .clientHello => return clientHello (← ClientHello.decodeFrom)
  | .serverHello => return serverHello (← ServerHello.decodeFrom)
  | .clientFinish => do
      let sessionId ← Reader.takeArr 16 "session_id"
      let clientTag ← Reader.takeArr 32 "client_tag"
      return clientFinish { sessionId, clientTag }
  | .serverFinish => do
      let sessionId ← Reader.takeArr 16 "session_id"
      let serverTag ← Reader.takeArr 32 "server_tag"
      let serverWgPubkey ← Reader.takeArr 32 "server_wg_pubkey"
      let assignedIp ← Reader.takeArr 4 "assigned_ip"
      let wgPort ← Reader.takeU16
      return serverFinish { sessionId, serverTag, serverWgPubkey, assignedIp, wgPort }
  | .rekeyRequest => do
      let sessionId ← Reader.takeArr 16 "session_id"
      let hello ← ClientHello.decodeFrom
      return rekeyRequest { sessionId, hello }
  | .error => do
      let code ← Reader.takeU8
      let message := fromUtf8Lossy (← Reader.takeLv)
      return error { code, message }

def decodePayload (ty : MsgType) (payload : List UInt8) : Except WireError (Message A) :=
  -- the fields first: what is wrong with one is reported before what follows it
  let decode : Decode (Message A) := do
    let msg ← decodeFields ty
    Reader.expectEnd
    return msg
  decode.run' (Reader.new payload)

end Message

/-! ## Frames -/

/-- The bytes a peer has yet to deliver, and what a read reports once they run out: an end of
file, a timeout, a reset connection. -/
structure Stream where
  bytes : List UInt8
  atEnd : IoError
  deriving DecidableEq

/-- Reading from a stream; what was consumed stays consumed when a read fails. -/
abbrev FrameM : Type → Type := ExceptT FrameError (StateM Stream)

/-- `Read::read_exact` into an `n`-byte buffer. -/
def readExact (n : Nat) : FrameM (Bytes n) := fun s =>
  if h : n ≤ s.bytes.length then
    (.ok ⟨s.bytes.take n, by simp [h]⟩, { s with bytes := s.bytes.drop n })
  else
    (.error (.io s.atEnd), { s with bytes := [] })

/-- Content errors travel as `FrameError::Wire`. -/
def liftWire {α : Type} : Except WireError α → FrameM α
  | .ok a => pure a
  | .error e => throw (.wire e)

namespace Message

/-- The full frame `VER | TYPE | LEN | PAYLOAD`, or the refusal to send an oversized payload. -/
def write (m : Message A) : Except IoError (List UInt8) :=
  let payload := m.encodePayload
  if payload.length > maxPayload then
    .error (.invalidData "payload exceeds MAX_PAYLOAD")
  else
    .ok ([protocolVersion, m.msgType.toU8] ++ u16ToBeBytes (UInt16.ofNat payload.length) ++ payload)

/-- Read one full frame. -/
def read : FrameM (Message A) := do
  let header ← readExact 4
  if header.get 0 ≠ protocolVersion then
    throw (.wire (.unsupportedVersion (header.get 0)))
  let ty ← liftWire (MsgType.fromU8 (header.get 1))
  let len := (UInt16.ofNat ((header.get 2).toNat * 256 + (header.get 3).toNat)).toNat
  -- nothing is read for a payload that is too long
  if len > maxPayload then
    throw (.wire .lengthOutOfRange)
  let payload ← readExact len
  liftWire (decodePayload ty payload.toList)

end Message

/-! ## The two crates -/

/-! `server/handshake-server/src/wire.rs` -/

namespace HandshakeServer

abbrev ClientHello : Type := Wire.ClientHello AlgoCode
abbrev ServerHello : Type := Wire.ServerHello AlgoCode
abbrev RekeyRequest : Type := Wire.RekeyRequest AlgoCode
abbrev Message : Type := Wire.Message AlgoCode

namespace Message

abbrev msgType : Message → MsgType := Wire.Message.msgType
abbrev encodePayload : Message → List UInt8 := Wire.Message.encodePayload
abbrev decodePayload : MsgType → List UInt8 → Except WireError Message := Wire.Message.decodePayload
abbrev write : Message → Except IoError (List UInt8) := Wire.Message.write
abbrev read : FrameM Message := Wire.Message.read

end Message

end HandshakeServer

/-! `core/src/protocol/wire.rs` -/

namespace Core

abbrev ClientHello : Type := Wire.ClientHello MlKemLevel
abbrev ServerHello : Type := Wire.ServerHello MlKemLevel
abbrev RekeyRequest : Type := Wire.RekeyRequest MlKemLevel
abbrev Message : Type := Wire.Message MlKemLevel

namespace Message

abbrev msgType : Message → MsgType := Wire.Message.msgType
abbrev encodePayload : Message → List UInt8 := Wire.Message.encodePayload
abbrev decodePayload : MsgType → List UInt8 → Except WireError Message := Wire.Message.decodePayload
abbrev write : Message → Except IoError (List UInt8) := Wire.Message.write
abbrev read : FrameM Message := Wire.Message.read

end Message

end Core

end Wire
end PqcVpn
