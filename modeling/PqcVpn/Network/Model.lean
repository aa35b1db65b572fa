import PqcVpn.Handshake.Agreement
import PqcVpn.Handshake.Connect
import PqcVpn.Server.SweepRace

/-!
# Network — clients and a server with an attacker in between

Any number of honest `connect` runs and `handle_connection` runs, and the idle sweep, interleaved in
any order.  The attacker owns the network: a connection reads whatever bytes the attacker feeds it.
Those bytes are fixed when the connection opens, which loses nothing, since every choice the
attacker could make later is one of them.

Two things the attacker cannot do.  It cannot forge the pinned signature (`Agreement.Unforged`), and
it cannot compute a tag under the confirmation key of an honest client that has checked the server's
signature (`MacUnforged`): such a key is derived from ephemeral secrets of two honest parties.
-/

namespace PqcVpn
namespace Network

open Crypto Function Handshake Handshake.Client Registry Server Wire

variable {P : Primitives}

/-! ## State -/

/-- A run of `connect`: its arguments, what it finds, and the bytes it will read. -/
structure ClientRun (P : Primitives) where
  env : ClientEnv P
  algo : MlKemLevel
  clientWgPubkey : Bytes 32
  stream : Stream

namespace ClientRun

def handshake (client : ClientRun P) : ClientHandshake P :=
  .start client.algo client.clientWgPubkey client.env.seed

/-- `connect`: what it returns, and its end of the connection afterwards. -/
def run (client : ClientRun P) (identity : P.SigningKey) :
    Except ProtocolError TunnelConfig × Socket :=
  Client.connect client.env client.algo client.clientWgPubkey (Agreement.pinnedKey identity)
    (.opened client.stream)

/-- What `connect` returns. -/
def connect (client : ClientRun P) (identity : P.SigningKey) : Except ProtocolError TunnelConfig :=
  (client.run identity).1

/-- `e` is the `finish` call of this run, on the `ServerHello` it read. -/
def Finished (client : ClientRun P) (e : Agreement.FinishedRun P) : Prop :=
  e.client = client.handshake ∧
    ∃ s₁, Message.read (A := MlKemLevel) client.stream = (.ok (.serverHello e.serverHello), s₁)

/-- `sf` is the `ServerFinish` the run read after its `ServerHello`. -/
def ReadsFinish (client : ClientRun P) (sf : ServerFinish) : Prop :=
  ∃ sh s₁ s₂, Message.read (A := MlKemLevel) client.stream = (.ok (.serverHello sh), s₁) ∧
    Message.read (A := MlKemLevel) s₁ = (.ok (.serverFinish sf), s₂)

end ClientRun

/-- A connection the server accepted, and the bytes it will read. -/
structure Connection (P : Primitives) where
  env : HandlerEnv P
  stream : Stream

/-- What the handler of a connection did for its exchange. -/
inductive ServerEvent
  /-- It updated the registry, and this is the peer's record afterwards. -/
  | registered (id : Nat) (ex : Exchange) (record : Peer)
  /-- It called `install`, and this is the peer's entry on the interface afterwards. -/
  | installed (id : Nat) (ex : Exchange) (entry : WgPeer)
  /-- It sent `ServerFinish`. -/
  | finished (id : Nat) (ex : Exchange) (frame : ServerFinish)

/-- A `connect` that returned `Ok`. -/
structure ConnectedRun (P : Primitives) where
  client : ClientRun P
  finished : Agreement.FinishedRun P
  config : TunnelConfig

structure State (P : Primitives) where
  /-- Hellos sent, hellos answered and signed, and `ServerHello`s accepted. -/
  agreement : Agreement.State P
  system : System
  connections : Nat → Option (Connection P)
  clients : List (ClientRun P)
  connected : List (ConnectedRun P)
  log : List ServerEvent

namespace State

def start (stores : Stores) : State P :=
  { agreement := .initial
    system := .start stores
    connections := fun _ => none
    clients := []
    connected := []
    log := [] }

/-- The state with another server state. -/
def setServer (st : State P) (server : ServerState) : State P :=
  { st with system := { st.system with server := server } }

/-- The confirmation keys of honest clients that checked the server's signature. -/
def Secret (st : State P) (key : Bytes 32) : Prop :=
  ∃ e ∈ st.agreement.finished, e.keys.confirmKey = key

/-- An honest party computed the tag of `message` under `key`: a client for its `ClientFinish`, or a
handler for its `ServerFinish`. -/
inductive Maced (st : State P) : Bytes 32 → List UInt8 → Prop
  | client {e : Agreement.FinishedRun P} (he : e ∈ st.agreement.finished) :
      Maced st e.keys.confirmKey (labelClientFinished ++ e.transcript)
  | server {id : Nat} {ex : Exchange} {frame : ServerFinish} (h : .finished id ex frame ∈ st.log) :
      Maced st ex.outcome.keys.confirmKey (labelServerFinished ++ ex.outcome.transcript)

/-- No forged tag: one that verifies under a secret key was computed by an honest party. -/
def MacUnforged (st : State P) (key : Bytes 32) (message : List UInt8) : Prop :=
  st.Secret key → st.Maced key message

end State

/-! ## Steps -/

inductive Action (P : Primitives)
  /-- A client opens a connection and sends its hello. -/
  | start (client : ClientRun P)
  /-- A client reads a `ServerHello` and runs `finish` on it. -/
  | finish (client : ClientRun P) (serverHello : ServerHello MlKemLevel)
  /-- A client reads a `ServerFinish`, and `connect` returns `Ok`. -/
  | complete (client : ClientRun P)
  /-- The server reads a hello or a rekey request and answers it. -/
  | greet (id : Nat) (connection : Connection P)
  /-- The server reads a `ClientFinish` that verifies. -/
  | authorise (id : Nat) (ex : Exchange)
  | register (id : Nat) (now : SystemTime)
  | install (id : Nat)
  | installFails (id : Nat)
  | persist (id : Nat)
  | serverFinish (id : Nat)
  | sweep (a : Server.Action)

/-- The actions of the sweep. -/
def IsSweep : Server.Action → Prop
  | .handler _ _ => False
  | _ => True

/-- The steps of the parties, with the server's identity, settings, codecs and idle timeout. -/
inductive Step (identity : P.SigningKey) (tunnel : TunnelSettings) (c : TextCodecs)
    (timeout : Duration) : State P → Action P → State P → Prop
  | start {st : State P} {agreement : Agreement.State P} (client : ClientRun P)
      (h : Agreement.Step identity st.agreement
        (.start client.algo client.clientWgPubkey client.env.seed) agreement) :
      Step identity tunnel c timeout st (.start client)
        { st with
          agreement := agreement
          clients := client :: st.clients }
  | finish {st : State P} {agreement : Agreement.State P} {client : ClientRun P} {s₁ : Stream}
      {serverHello : ServerHello MlKemLevel} (hclient : client ∈ st.clients)
      (hread : Message.read (A := MlKemLevel) client.stream = (.ok (.serverHello serverHello), s₁))
      (h : Agreement.Step identity st.agreement (.finish client.handshake serverHello) agreement) :
      Step identity tunnel c timeout st (.finish client serverHello)
        { st with agreement := agreement }
  -- `connect` runs again over the whole stream: its result is the one the client returns
  | complete {st : State P} {client : ClientRun P} {e : Agreement.FinishedRun P}
      {config : TunnelConfig} (hclient : client ∈ st.clients) (he : e ∈ st.agreement.finished)
      (hfinished : client.Finished e) (hconnect : client.connect identity = .ok config)
      (hunforged : st.MacUnforged e.keys.confirmKey (labelServerFinished ++ e.transcript)) :
      Step identity tunnel c timeout st (.complete client)
        { st with connected := ⟨client, e, config⟩ :: st.connected }
  | greet {st : State P} {agreement : Agreement.State P} {id : Nat} {connection : Connection P}
      {first : Message AlgoCode} {s₁ : Stream} {hello : ClientHello AlgoCode}
      {rekeySession : Option (Bytes 16)} (hnew : st.connections id = none)
      (hidentity : connection.env.identity = identity) (htunnel : connection.env.tunnel = tunnel)
      (hread : Message.read (A := AlgoCode) connection.stream = (.ok first, s₁))
      (hhello : helloOf first = some (hello, rekeySession))
      (h : Agreement.Step identity st.agreement
        (.respond hello (rekeySession.getD connection.env.randSession) connection.env.serverNonce
          connection.env.seed) agreement) :
      Step identity tunnel c timeout st (.greet id connection)
        { st with
          agreement := agreement
          connections := update st.connections id (some connection) }
  | authorise {st : State P} {id : Nat} {connection : Connection P} {ex : Exchange} {w₁ : World}
      {server : ServerState} (hconnection : st.connections id = some connection)
      (hauth : Authorised connection.env (.start st.system.server.stores connection.stream) ex w₁)
      (hunforged : st.MacUnforged ex.outcome.keys.confirmKey
        (labelClientFinished ++ ex.outcome.transcript))
      (h : HandlerStep identity c st.system.server (id, .accept ex) server) :
      Step identity tunnel c timeout st (.authorise id ex) (st.setServer server)
  | register {st : State P} {id : Nat} {now : SystemTime} {ex : Exchange} {slot : PeerSlot}
      {record : Peer} {server : ServerState}
      (h : HandlerStep identity c st.system.server (id, .update now) server)
      (hphase : server.handlers id = .updated ex slot)
      (hrecord : server.stores.registry.inner.lookup ex.peer = some record) :
      Step identity tunnel c timeout st (.register id now)
        { st.setServer server with log := .registered id ex record :: st.log }
  | refuse {st : State P} {id : Nat} {now : SystemTime} {server : ServerState}
      (h : HandlerStep identity c st.system.server (id, .update now) server)
      (hphase : server.handlers id = .closed) :
      Step identity tunnel c timeout st (.register id now) (st.setServer server)
  | install {st : State P} {id : Nat} {ex : Exchange} {slot : PeerSlot} {entry : WgPeer}
      {server : ServerState} (h : HandlerStep identity c st.system.server (id, .install) server)
      (hphase : server.handlers id = .installed ex slot)
      (hentry : server.stores.wg.lookup ex.peer = some entry) :
      Step identity tunnel c timeout st (.install id)
        { st.setServer server with log := .installed id ex entry :: st.log }
  | installFails {st : State P} {id : Nat} {ex : Exchange} {slot : PeerSlot}
      (hphase : st.system.server.handlers id = .updated ex slot) :
      Step identity tunnel c timeout st (.installFails id)
        (st.setServer (st.system.server.setPhase id .closed))
  | persist {st : State P} {id : Nat} {server : ServerState}
      (h : HandlerStep identity c st.system.server (id, .persist) server) :
      Step identity tunnel c timeout st (.persist id) (st.setServer server)
  | serverFinish {st : State P} {id : Nat} {ex : Exchange} {slot : PeerSlot} {server : ServerState}
      (hphase : st.system.server.handlers id = .persisted ex slot)
      (h : HandlerStep identity c st.system.server (id, .finish) server) :
      Step identity tunnel c timeout st (.serverFinish id)
        { st.setServer server with
          log := .finished id ex (ex.serverFinish P tunnel slot) :: st.log }
  | sweep {st : State P} {a : Server.Action} {system : System} (ha : IsSweep a)
      (h : Server.Step identity c timeout st.system a system) :
      Step identity tunnel c timeout st (.sweep a) { st with system := system }

/-- The states the system can reach from some stores, whatever the attacker does. -/
def Reachable (identity : P.SigningKey) (tunnel : TunnelSettings) (c : TextCodecs)
    (timeout : Duration) (st : State P) : Prop :=
  Transition.Reachable (fun s => ∃ stores, s = State.start stores)
    (Step identity tunnel c timeout) st

/-- Seen through its hellos alone, the network is the system of `Agreement`. -/
theorem agreement_of_reachable {identity : P.SigningKey} {tunnel : TunnelSettings} {c : TextCodecs}
    {timeout : Duration} {st : State P} (h : Reachable identity tunnel c timeout st) :
    Agreement.Reachable identity st.agreement := by
  refine h.simulate State.agreement ?_ ?_
  · rintro s ⟨stores, rfl⟩
    rfl
  · intro s a t hstep
    cases hstep with
    | start client h => exact ⟨_, .single h⟩
    | finish _ _ h => exact ⟨_, .single h⟩
    | greet _ _ _ _ _ h => exact ⟨_, .single h⟩
    | _ => exact ⟨[], .nil _⟩

end Network
end PqcVpn
