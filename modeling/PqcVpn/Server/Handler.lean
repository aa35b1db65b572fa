import PqcVpn.Handshake.Respond
import PqcVpn.Server.Tunnel

/-!
# Handler — one connection, `ClientHello` to `ServerFinish`

`handle_connection` of `server/handshake-server/src/server.rs`.  A connection runs in `Conn`, over a
`World` that holds the shared stores, the bytes the client has yet to deliver, and a trace of what
was received, sent and called.  Everything the operating system and the random generator decide is
in `HandlerEnv`.

The handler is `negotiate`, up to the check of the client's tag, followed by `commit`.
-/

namespace PqcVpn
namespace Server

open Crypto Handshake Registry Wire

inductive ConnResult
  | handshake (sessionId : Bytes 16)
  | rekey (sessionId : Bytes 16)
  | rejected (code : UInt8)
  deriving DecidableEq

inductive ConnError
  | io (e : IoError)
  | frame (e : FrameError)
  /-- The text is the context followed by the message in debug format. -/
  | protocol (context : String) (other : Message AlgoCode)
  | install (e : InstallError)
  deriving DecidableEq

def registryRejectCode : RegistryError → UInt8 × String
  | .atCapacity => (0x09, "server at peer capacity")
  | .unknownPeer => (0x04, "unknown session for this peer")
  | .sessionMismatch => (0x04, "unknown session for this peer")
  | .downgrade => (0x05, "rekey may not downgrade the algorithm")
  | .addressPoolExhausted => (0x08, "tunnel address pool exhausted")

/-! ## The world of a connection -/

/-- A call of the `PskInstaller` interface. -/
inductive InstallerCall
  | install (peer : Bytes 32) (psk : Bytes 32) (assignedIp : Ipv4Addr) (algo : AlgoCode)
  | listInstalledPeers
  | removePeer (peer : Bytes 32)
  | lastHandshakes
  deriving DecidableEq

/-- What a connection does that others can observe. -/
inductive Event
  | received (m : Message AlgoCode)
  | sent (m : Message AlgoCode)
  /-- The registry was called under its mutex. -/
  | updated (result : Except RegistryError PeerSlot)
  | called (call : InstallerCall) (result : Except InstallError Unit)
  | persisted (result : Except IoError Unit)

structure World where
  stores : Stores
  stream : Stream
  /-- Writes attempted so far on this connection. -/
  writes : Nat
  trace : List Event

/-- What a connection finds: the server's settings, and the outcomes of the calls it makes. -/
structure HandlerEnv (P : Primitives) where
  identity : P.SigningKey
  tunnel : TunnelSettings
  setReadTimeout : Except IoError Unit
  setWriteTimeout : Except IoError Unit
  /-- The outcome of the connection's `n`th `write_all`. -/
  writeAll : Nat → Except IoError Unit
  randSession : Bytes 16
  serverNonce : Bytes 32
  seed : RespondSeed P
  /-- The clock at the registry update. -/
  now : SystemTime
  install : Bytes 32 → Bytes 32 → Ipv4Addr → AlgoCode → Except InstallError Unit
  codecs : TextCodecs
  order : (r : Registry) → r.Iteration
  persistIo : PersistIo

/-- A computation of the handler.  An early `Err` keeps what already happened. -/
def Conn (α : Type) : Type := World → Except ConnError α × World

instance : Monad Conn where
  pure a := fun w => (.ok a, w)
  bind m f := fun w =>
    match m w with
    | (.ok a, w') => f a w'
    | (.error e, w') => (.error e, w')

instance : MonadExceptOf ConnError Conn where
  throw e := fun w => (.error e, w)
  tryCatch m handler := fun w =>
    match m w with
    | (.ok a, w') => (.ok a, w')
    | (.error e, w') => handler e w'

/-- The `?` of an `io::Result`. -/
def orIo : Except IoError Unit → Conn Unit
  | .ok () => pure ()
  | .error e => throw (.io e)

/-- `Message::read` on the connection. -/
def receive : Conn (Except FrameError (Message AlgoCode)) := fun w =>
  match Message.read (A := AlgoCode) w.stream with
  | (.ok m, stream) => (.ok (.ok m), { w with stream := stream, trace := w.trace ++ [.received m] })
  | (.error e, stream) => (.ok (.error e), { w with stream := stream })

variable {P : Primitives}

/-- `Message::write` on the connection. -/
def transmit (env : HandlerEnv P) (m : Message AlgoCode) : Conn (Except IoError Unit) := fun w =>
  match m.write with
  -- an oversized payload is refused before anything is written
  | .error e => (.ok (.error e), w)
  | .ok _ =>
      match env.writeAll w.writes with
      | .error e => (.ok (.error e), { w with writes := w.writes + 1 })
      | .ok () => (.ok (.ok ()), { w with writes := w.writes + 1, trace := w.trace ++ [.sent m] })

def reject (env : HandlerEnv P) (code : UInt8) (message : String) : Conn (Except IoError Unit) :=
  transmit env (.error { code, message })

/-! ## Up to the client's proof -/

/-- An exchange whose `ClientFinish` verified. -/
structure Exchange where
  hello : ClientHello AlgoCode
  /-- The session a `RekeyRequest` claims. -/
  rekeySession : Option (Bytes 16)
  sessionId : Bytes 16
  outcome : HandshakeOutcome
  deriving DecidableEq

/-- Message 1: `ClientHello` or `RekeyRequest`. -/
def readHello (env : HandlerEnv P) : Conn (ClientHello AlgoCode × Option (Bytes 16)) := do
  match ← receive with
  | .ok (.clientHello h) => return (h, none)
  | .ok (.rekeyRequest r) => return (r.hello, some r.sessionId)
  | .ok other =>
      orIo (← reject env 0x02 "expected ClientHello or RekeyRequest")
      throw (.protocol "unexpected first message" other)
  | .error e =>
      -- the `Error` frame is sent if it can be
      let _ ← reject env 0x02 e.toText
      throw (.frame e)

/-- Message 3: `ClientFinish`. -/
def readFinish (env : HandlerEnv P) : Conn ClientFinish := do
  match ← receive with
  | .ok (.clientFinish f) => return f
  | .ok other =>
      orIo (← reject env 0x02 "expected ClientFinish")
      throw (.protocol "expected ClientFinish, got" other)
  -- unlike a first message, a broken third one is not answered
  | .error e => throw (.frame e)

/-- Read the hello, answer it and check the client's tag: either the connection ends here, or the
exchange is to be committed. -/
def negotiate (env : HandlerEnv P) : Conn (ConnResult ⊕ Exchange) := do
  let (hello, rekeySession) ← readHello env
  -- a rekey keeps the session the client names; the registry checks it at the commit
  let sessionId := rekeySession.getD env.randSession
  match Handshake.respond env.identity hello sessionId env.serverNonce env.seed with
  | .error e =>
      orIo (← reject env e.protocolCode e.toText)
      return .inl (.rejected e.protocolCode)
  | .ok outcome =>
      orIo (← transmit env (.serverHello outcome.serverHello))
      let fin ← readFinish env
      if fin.sessionId ≠ sessionId ∨
          verifyClientTag P outcome.keys.confirmKey outcome.transcript fin.clientTag = false then
        orIo (← reject env HandshakeError.authFailed.protocolCode "client finish tag did not verify")
        return .inl (.rejected 0x06)
      else
        return .inr { hello, rekeySession, sessionId, outcome }

/-! ## Committing an exchange -/

namespace Exchange

/-- The peer the exchange is about. -/
def peer (ex : Exchange) : Bytes 32 := ex.hello.clientWgPubkey

/-- The registry call of the exchange. -/
def update (ex : Exchange) (now : SystemTime) (r : Registry) :
    Except RegistryError PeerSlot × Registry :=
  match ex.rekeySession with
  | some sid => r.rekey now ex.peer sid ex.hello.algo
  | none => r.upsertHandshake now ex.peer ex.hello.algo ex.sessionId

/-- The `ServerFinish` that answers the exchange. -/
def serverFinish (P : Primitives) (ex : Exchange) (tunnel : TunnelSettings) (slot : PeerSlot) :
    ServerFinish :=
  { sessionId := slot.sessionId
    serverTag := serverTag P ex.outcome.keys.confirmKey ex.outcome.transcript
    serverWgPubkey := tunnel.serverWgPubkey
    assignedIp := slot.assignedIp.octets
    wgPort := tunnel.wgPort }

def result (ex : Exchange) (slot : PeerSlot) : ConnResult :=
  if ex.rekeySession.isSome then .rekey slot.sessionId else .handshake slot.sessionId

end Exchange

namespace Stores

/-- The registry update of an exchange. -/
def update (s : Stores) (ex : Exchange) (now : SystemTime) : Except RegistryError PeerSlot × Stores :=
  let (result, registry) := ex.update now s.registry
  (result, { s with registry := registry })

/-- `installer.install` for an exchange. -/
def install (s : Stores) (ex : Exchange) (slot : PeerSlot) (result : Except InstallError Unit) :
    Stores :=
  { s with wg := s.wg.install ex.peer ex.outcome.keys.psk slot.assignedIp result }

/-- `registry.persist`. -/
def persist (s : Stores) (c : TextCodecs) (order : s.registry.Iteration) (os : PersistIo) :
    Except IoError Unit × Stores :=
  let (result, onDisk) := s.registry.persist c order os s.onDisk
  (result, { s with onDisk := onDisk })

end Stores

def updateRegistry (env : HandlerEnv P) (ex : Exchange) : Conn (Except RegistryError PeerSlot) :=
  fun w =>
    let (result, stores) := w.stores.update ex env.now
    (.ok result, { w with stores := stores, trace := w.trace ++ [.updated result] })

def installPsk (env : HandlerEnv P) (ex : Exchange) (slot : PeerSlot) :
    Conn (Except InstallError Unit) := fun w =>
  let result := env.install ex.peer ex.outcome.keys.psk slot.assignedIp ex.hello.algo
  let call := .install ex.peer ex.outcome.keys.psk slot.assignedIp ex.hello.algo
  (.ok result,
    { w with
      stores := w.stores.install ex slot result
      trace := w.trace ++ [.called call result] })

def persistRegistry (env : HandlerEnv P) : Conn (Except IoError Unit) := fun w =>
  let (result, stores) := w.stores.persist env.codecs (env.order w.stores.registry) env.persistIo
  (.ok result, { w with stores := stores, trace := w.trace ++ [.persisted result] })

/-- Update the registry, install the PSK, persist, and answer with `ServerFinish`. -/
def commit (env : HandlerEnv P) (ex : Exchange) : Conn ConnResult := do
  match ← updateRegistry env ex with
  | .error e =>
      let (code, message) := registryRejectCode e
      -- the registry took nothing
      orIo (← reject env code message)
      return .rejected code
  | .ok slot =>
      match ← installPsk env ex slot with
      | .error e =>
          -- the registry update stands
          orIo (← reject env 0x08 e.toText)
          throw (.install e)
      | .ok () =>
          -- a failed persist is only logged
          let _ ← persistRegistry env
          orIo (← transmit env (.serverFinish (ex.serverFinish P env.tunnel slot)))
          return ex.result slot

def handleConnection (env : HandlerEnv P) : Conn ConnResult := do
  orIo env.setReadTimeout
  orIo env.setWriteTimeout
  match ← negotiate env with
  | .inl result => return result
  | .inr ex => commit env ex

end Server
end PqcVpn
