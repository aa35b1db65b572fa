import PqcVpn.Registry.Persist

/-!
# Tunnel — the seam to WireGuard

`server/handshake-server/src/tunnel.rs`: install errors with the texts that reach the client, the
server's own tunnel settings, and the peers an interface holds.  `PskInstaller` is a trait; the
model keeps the interface as a table and takes the outcome of each call from its environment.
-/

namespace PqcVpn
namespace Server

open Registry Wire

structure TunnelSettings where
  /-- The server's own WireGuard public key, sent in `ServerFinish`. -/
  serverWgPubkey : Bytes 32
  /-- UDP port the server's WireGuard listens on. -/
  wgPort : UInt16

inductive InstallError
  | spawn (e : String)
  | wgFailed (code : Option Int) (stderr : String)
  | parse (m : String)
  deriving DecidableEq, Repr

/-- The Unicode `White_Space` property, which `str::trim` cuts. -/
def isWhitespace (c : Char) : Bool :=
  let n := c.toNat
  (0x09 ≤ n && n ≤ 0x0D) || n = 0x20 || n = 0x85 || n = 0xA0 || n = 0x1680 ||
    (0x2000 ≤ n && n ≤ 0x200A) || n = 0x2028 || n = 0x2029 || n = 0x202F || n = 0x205F || n = 0x3000

/-- `str::trim`. -/
def trim (s : String) : String :=
  String.ofList (((s.toList.dropWhile isWhitespace).reverse.dropWhile isWhitespace).reverse)

/-- `Option<i32>` in debug format. -/
def debugCode : Option Int → String
  | none => "None"
  | some n => "Some(" ++ toString n ++ ")"

def InstallError.toText : InstallError → String
  | spawn e => "could not run `wg`: " ++ e
  | wgFailed code stderr => "`wg` failed (exit " ++ debugCode code ++ "): " ++ trim stderr
  | parse m => "parsing `wg` output: " ++ m

/-- A peer as the interface holds it: its preshared key and its `allowed-ips`, a single /32. -/
structure WgPeer where
  psk : Bytes 32
  allowedIp : Ipv4Addr
  deriving DecidableEq

/-- The peers on the interface. -/
abbrev WgInterface : Type := Table (Bytes 32) WgPeer

/-- What a call of `install` with outcome `result` does to the interface: a failing call leaves it
untouched. -/
def WgInterface.install (wg : WgInterface) (peer : Bytes 32) (psk : Bytes 32) (assignedIp : Ipv4Addr)
    (result : Except InstallError Unit) : WgInterface :=
  match result with
  | .ok () => wg.insert peer { psk := psk, allowedIp := assignedIp }
  | .error _ => wg

/-- What a call of `remove_peer` does to the interface. -/
def WgInterface.removePeer (wg : WgInterface) (peer : Bytes 32) (result : Except InstallError Unit) :
    WgInterface :=
  match result with
  | .ok () => wg.erase peer
  | .error _ => wg

/-- The stores all connections share: the registry, the interface, and the registry's backing
file. -/
structure Stores where
  registry : Registry
  wg : WgInterface
  onDisk : Option (List UInt8)

end Server
end PqcVpn
