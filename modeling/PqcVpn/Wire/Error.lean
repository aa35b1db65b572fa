import PqcVpn.Basic.Bytes

/-!
# Wire errors

`WireError` is the failure of decoding a frame (both crates declare the same five constructors),
`FrameError` adds the transport failures of `Message::read`.  The texts are those of the source's
`Display` implementations: they travel in `Error` replies.
-/

namespace PqcVpn
namespace Wire

/-- One lower-case hexadecimal digit. -/
def hexDigit (n : Nat) : Char :=
  if n < 10 then Char.ofNat (48 + n) else Char.ofNat (87 + n)

/-- The format `{v:#04x}` of a byte. -/
def hexByte (v : UInt8) : String :=
  String.ofList ['0', 'x', hexDigit (v.toNat / 16), hexDigit (v.toNat % 16)]

/-- Failure decoding a wire message. -/
inductive WireError
  | unsupportedVersion (v : UInt8)
  | unknownMsgType (t : UInt8)
  | lengthOutOfRange
  | truncated
  | invalid (what : String)
  deriving DecidableEq, Repr

namespace WireError

/-- The error code of an `Error` reply to the peer. -/
def protocolCode : WireError → UInt8
  | unsupportedVersion _ => 0x01
  | _ => 0x02

def toText : WireError → String
  | unsupportedVersion v => "unsupported protocol version " ++ hexByte v
  | unknownMsgType t => "unknown message type " ++ hexByte t
  | lengthOutOfRange => "declared length out of range"
  | truncated => "message truncated"
  | invalid what => "invalid " ++ what

end WireError

/-- `std::io::Error`: the kinds the modelled code produces, and `os` for everything the operating
system reports (a timeout, a reset connection) with its text. -/
inductive IoError
  | unexpectedEof
  | invalidData (message : String)
  | os (message : String)
  deriving DecidableEq, Repr

namespace IoError

def toText : IoError → String
  | unexpectedEof => "failed to fill whole buffer"
  | invalidData message => message
  | os message => message

end IoError

/-- Either a transport error or a malformed-message error. -/
inductive FrameError
  | io (e : IoError)
  | wire (e : WireError)
  deriving DecidableEq, Repr

namespace FrameError

def toText : FrameError → String
  | io e => "transport error: " ++ e.toText
  | wire e => e.toText

end FrameError

end Wire
end PqcVpn
