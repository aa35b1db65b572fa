import PqcVpn.Handshake.Client
import PqcVpn.Lib.ExceptState

/-!
# Connect — one handshake over the network, from the client

`connect` of `core/src/protocol/transport.rs`: four messages on one connection, and the tunnel
configuration once `server_tag` verifies.  What the operating system and the random generator decide
is in `ClientEnv`; the connection itself, with the bytes to read and the messages written, is the
`Socket` the client runs on.
-/

namespace PqcVpn
namespace Handshake
namespace Client

open Crypto Wire

variable {P : Primitives}

/-- Everything that can go wrong running the handshake over the network. -/
inductive ProtocolError
  | io (e : IoError)
  | wire (e : WireError)
  | handshake (e : HandshakeError)
  | server (code : UInt8) (message : String)
  | unexpectedMessage (what : String)
  deriving DecidableEq, Repr

/-- `From<FrameError>`. -/
def ProtocolError.ofFrame : FrameError → ProtocolError
  | .io e => .io e
  | .wire e => .wire e

inductive IpAddr
  | v4 (ip : Ipv4Addr)
  | v6 (octets : Bytes 16)
  deriving DecidableEq

structure SocketAddr where
  ip : IpAddr
  port : UInt16
  deriving DecidableEq

structure TunnelConfig where
  assignedIp : Ipv4Addr
  serverWgPubkey : Bytes 32
  serverEndpoint : SocketAddr
  psk : Bytes 32
  deriving DecidableEq

/-- What a client finds: the outcomes of the calls it makes, and its randomness. -/
structure ClientEnv (P : Primitives) where
  /-- `TcpStream::connect`. -/
  tcpConnect : Except IoError Unit
  setReadTimeout : Except IoError Unit
  setWriteTimeout : Except IoError Unit
  /-- The address of `peer_addr`. -/
  peerIp : Except IoError IpAddr
  /-- The outcome of the connection's `n`th `write_all`. -/
  writeAll : Nat → Except IoError Unit
  seed : ClientHandshake.Seed P

/-- The client's end of the connection: the bytes it has yet to read and the messages written. -/
structure Socket where
  input : Stream
  sent : List (Message MlKemLevel)

/-- A connection nothing was written to. -/
def Socket.opened (input : Stream) : Socket := { input := input, sent := [] }

@[simp] theorem Socket.opened_input (input : Stream) : (Socket.opened input).input = input := rfl

@[simp] theorem Socket.opened_sent (input : Stream) : (Socket.opened input).sent = [] := rfl

/-- A computation of the client on its connection. -/
abbrev ConnectM : Type → Type := ExceptT ProtocolError (StateM Socket)

/-- The `?` of a call that returns an error of type `ε`. -/
def orReturn {ε α : Type} (into : ε → ProtocolError) : Except ε α → ConnectM α
  | .ok a => pure a
  | .error e => throw (into e)

/-- `Message::read`. -/
def readMessage : ConnectM (Message MlKemLevel) := fun s =>
  match Message.read (A := MlKemLevel) s.input with
  | (.ok m, input) => (.ok m, { s with input := input })
  | (.error e, input) => (.error (.ofFrame e), { s with input := input })

/-- A message that reached the connection. -/
def noteSent (m : Message MlKemLevel) : ConnectM Unit := fun s =>
  (.ok (), { s with sent := s.sent ++ [m] })

/-- `Message::write`, as the connection's `n`th. -/
def writeMessage (env : ClientEnv P) (n : Nat) (m : Message MlKemLevel) : ConnectM Unit := do
  let _ ← orReturn .io m.write
  orReturn .io (env.writeAll n)
  noteSent m

def readServerHello : ConnectM (ServerHello MlKemLevel) := do
  match ← readMessage with
  | .serverHello sh => return sh
  | .error e => throw (.server e.code e.message)
  | _ => throw (.unexpectedMessage "expected ServerHello")

def readServerFinish : ConnectM ServerFinish := do
  match ← readMessage with
  | .serverFinish sf => return sf
  | .error e => throw (.server e.code e.message)
  | _ => throw (.unexpectedMessage "expected ServerFinish")

def connect (env : ClientEnv P) (algo : MlKemLevel) (clientWgPubkey : Bytes 32)
    (pinnedVerifyingKey : List UInt8) : ConnectM TunnelConfig := do
  orReturn .io env.tcpConnect
  orReturn .io env.setReadTimeout
  orReturn .io env.setWriteTimeout
  let peerIp ← orReturn .io env.peerIp
  let handshake := ClientHandshake.start algo clientWgPubkey env.seed
  writeMessage env 0 (.clientHello handshake.hello)
  let serverHello ← readServerHello
  let (keys, finish, transcript) ←
    orReturn .handshake (handshake.finish serverHello pinnedVerifyingKey)
  writeMessage env 1 (.clientFinish finish)
  let serverFinish ← readServerFinish
  if serverFinish.sessionId ≠ finish.sessionId then
    throw (.unexpectedMessage "ServerFinish session id did not match ClientFinish")
  else if verifyServerTag P keys.confirmKey transcript serverFinish.serverTag = false then
    throw (.handshake .authFailed)
  else
    return {
      assignedIp := { octets := serverFinish.assignedIp }
      serverWgPubkey := serverFinish.serverWgPubkey
      serverEndpoint := { ip := peerIp, port := serverFinish.wgPort }
      psk := keys.psk }

/-! ## What a successful connection went through -/

theorem orReturn_ok_iff {ε α : Type} {into : ε → ProtocolError} {r : Except ε α} {s s' : Socket}
    {a : α} : orReturn into r s = (.ok a, s') ↔ r = .ok a ∧ s' = s := by
  cases r with
  | ok b =>
      change (Except.ok b, s) = (Except.ok a, s') ↔ _
      simp [eq_comm]
  | error e =>
      change (Except.error (into e), s) = (Except.ok a, s') ↔ _
      simp

theorem readMessage_ok_iff {s s' : Socket} {m : Message MlKemLevel} :
    readMessage s = (.ok m, s') ↔
      ∃ t, Message.read (A := MlKemLevel) s.input = (.ok m, t) ∧ s' = { s with input := t } := by
  unfold readMessage
  rcases Message.read (A := MlKemLevel) s.input with ⟨e | m', t⟩
  · constructor
    · intro h
      cases h
    · rintro ⟨t', h, _⟩
      cases h
  · constructor
    · intro h
      cases h
      exact ⟨t, rfl, rfl⟩
    · rintro ⟨t', h, rfl⟩
      cases h
      rfl

theorem throw_ne_ok {α : Type} {e : ProtocolError} {s s' : Socket} {a : α} :
    (throw e : ConnectM α) s ≠ (.ok a, s') := by
  intro h
  cases h

theorem readServerHello_ok_iff {s s' : Socket} {sh : ServerHello MlKemLevel} :
    readServerHello s = (.ok sh, s') ↔
      ∃ t, Message.read (A := MlKemLevel) s.input = (.ok (.serverHello sh), t) ∧
        s' = { s with input := t } := by
  unfold readServerHello
  rw [ExceptState.bind_eq_ok_iff, ← readMessage_ok_iff]
  constructor
  · rintro ⟨m, s₁, hm, hrest⟩
    cases m with
    | serverHello sh' =>
        cases hrest
        exact hm
    | _ => exact absurd hrest throw_ne_ok
  · intro h
    exact ⟨_, _, h, rfl⟩

theorem readServerFinish_ok_iff {s s' : Socket} {sf : ServerFinish} :
    readServerFinish s = (.ok sf, s') ↔
      ∃ t, Message.read (A := MlKemLevel) s.input = (.ok (.serverFinish sf), t) ∧
        s' = { s with input := t } := by
  unfold readServerFinish
  rw [ExceptState.bind_eq_ok_iff, ← readMessage_ok_iff]
  constructor
  · rintro ⟨m, s₁, hm, hrest⟩
    cases m with
    | serverFinish sf' =>
        cases hrest
        exact hm
    | _ => exact absurd hrest throw_ne_ok
  · intro h
    exact ⟨_, _, h, rfl⟩

theorem writeMessage_of_ok {env : ClientEnv P} {n : Nat} {m : Message MlKemLevel}
    {frame : List UInt8} (hframe : m.write = .ok frame) (hwrite : env.writeAll n = .ok ())
    (s : Socket) : writeMessage env n m s = (.ok (), { s with sent := s.sent ++ [m] }) := by
  unfold writeMessage
  rw [ExceptState.bind_of_ok (orReturn_ok_iff.2 ⟨hframe, rfl⟩),
    ExceptState.bind_of_ok (orReturn_ok_iff.2 ⟨hwrite, rfl⟩)]
  rfl

theorem writeMessage_ok {env : ClientEnv P} {n : Nat} {m : Message MlKemLevel} {s s' : Socket}
    {u : Unit} (h : writeMessage env n m s = (.ok u, s')) :
    s' = { s with sent := s.sent ++ [m] } := by
  unfold writeMessage at h
  rcases ExceptState.bind_eq_ok_iff.1 h with ⟨_, s₁, hframe, h⟩
  rcases ExceptState.bind_eq_ok_iff.1 h with ⟨_, s₂, hwrite, hnote⟩
  rcases orReturn_ok_iff.1 hframe with ⟨_, rfl⟩
  rcases orReturn_ok_iff.1 hwrite with ⟨_, rfl⟩
  cases hnote
  rfl

/-- The frames a connection read and what the client made of them. -/
structure Completed (handshake : ClientHandshake P) (pinnedVerifyingKey : List UInt8) (s : Stream)
    (config : TunnelConfig) (serverHello : ServerHello MlKemLevel) (keys : SessionKeys)
    (fin : ClientFinish) (transcript : List UInt8) (serverFinish : ServerFinish) : Prop where
  reads : ∃ s₁ s₂, Message.read s = (.ok (.serverHello serverHello), s₁) ∧
    Message.read (A := MlKemLevel) s₁ = (.ok (.serverFinish serverFinish), s₂)
  finish : handshake.finish serverHello pinnedVerifyingKey = .ok (keys, fin, transcript)
  sessionId : serverFinish.sessionId = fin.sessionId
  serverTag : verifyServerTag P keys.confirmKey transcript serverFinish.serverTag = true
  assignedIp : config.assignedIp.octets = serverFinish.assignedIp
  serverWgPubkey : config.serverWgPubkey = serverFinish.serverWgPubkey
  port : config.serverEndpoint.port = serverFinish.wgPort
  psk : config.psk = keys.psk

theorem connect_ok {env : ClientEnv P} {algo : MlKemLevel} {pk : Bytes 32} {vk : List UInt8}
    {s s' : Socket} {config : TunnelConfig} (h : connect env algo pk vk s = (.ok config, s')) :
    ∃ serverHello keys finish transcript serverFinish,
      Completed (ClientHandshake.start algo pk env.seed) vk s.input config serverHello keys finish
        transcript serverFinish := by
  unfold connect at h
  rcases ExceptState.bind_eq_ok_iff.1 h with ⟨_, s₁, htcp, h⟩
  rcases ExceptState.bind_eq_ok_iff.1 h with ⟨_, s₂, hread, h⟩
  rcases ExceptState.bind_eq_ok_iff.1 h with ⟨_, s₃, hwrite, h⟩
  rcases ExceptState.bind_eq_ok_iff.1 h with ⟨peerIp, s₄, hpeer, h⟩
  rcases ExceptState.bind_eq_ok_iff.1 h with ⟨_, s₅, hsend, h⟩
  rcases ExceptState.bind_eq_ok_iff.1 h with ⟨serverHello, s₆, hhello, h⟩
  rcases ExceptState.bind_eq_ok_iff.1 h with ⟨⟨keys, finish, transcript⟩, s₇, hfinish, h⟩
  rcases ExceptState.bind_eq_ok_iff.1 h with ⟨_, s₈, hsend', h⟩
  rcases ExceptState.bind_eq_ok_iff.1 h with ⟨serverFinish, s₉, hserver, h⟩
  -- before the first read the input is untouched
  have hs₅ : s₅.input = s.input := by
    rw [writeMessage_ok hsend, (orReturn_ok_iff.1 hpeer).2, (orReturn_ok_iff.1 hwrite).2,
      (orReturn_ok_iff.1 hread).2, (orReturn_ok_iff.1 htcp).2]
  rcases readServerHello_ok_iff.1 hhello with ⟨t₁, hread₁, hs₆⟩
  rw [hs₅] at hread₁
  -- and between the two reads nothing is consumed
  have hs₈ : s₈.input = t₁ := by
    rw [writeMessage_ok hsend', (orReturn_ok_iff.1 hfinish).2, hs₆]
  rcases readServerFinish_ok_iff.1 hserver with ⟨t₂, hread₂, _⟩
  rw [hs₈] at hread₂
  by_cases hsession : serverFinish.sessionId = finish.sessionId
  · by_cases htag : verifyServerTag P keys.confirmKey transcript serverFinish.serverTag = true
    · simp only [hsession, htag, ne_eq, not_true_eq_false, ite_false, Bool.true_eq_false] at h
      cases h
      exact ⟨serverHello, keys, finish, transcript, serverFinish,
        { reads := ⟨t₁, t₂, hread₁, hread₂⟩
          finish := (orReturn_ok_iff.1 hfinish).1
          sessionId := hsession
          serverTag := htag
          assignedIp := rfl
          serverWgPubkey := rfl
          port := rfl
          psk := rfl }⟩
    · simp only [hsession, htag, ne_eq, not_true_eq_false, ite_false, ite_true] at h
      exact absurd h throw_ne_ok
  · simp only [hsession, ne_eq, not_false_eq_true, ite_true] at h
    exact absurd h throw_ne_ok

/-! ## On a working transport -/

/-- Every call of a connection to `peerIp` succeeds. -/
structure ClientEnv.Works (env : ClientEnv P) (peerIp : IpAddr) : Prop where
  tcpConnect : env.tcpConnect = .ok ()
  setReadTimeout : env.setReadTimeout = .ok ()
  setWriteTimeout : env.setWriteTimeout = .ok ()
  peerIp : env.peerIp = .ok peerIp
  writeAll : ∀ n, env.writeAll n = .ok ()

/-- What was written stays written. -/
def Grows {α : Type} (m : ConnectM α) : Prop := ∀ s, s.sent <+: (m s).2.sent

/-- Nothing is written. -/
def Silent {α : Type} (m : ConnectM α) : Prop := ∀ s, (m s).2.sent = s.sent

theorem Silent.grows {α : Type} {m : ConnectM α} (h : Silent m) : Grows m := by
  intro s
  exact ⟨[], (List.append_nil _).trans (h s).symm⟩

theorem Grows.bind {α β : Type} {m : ConnectM α} {f : α → ConnectM β} (hm : Grows m)
    (hf : ∀ a, Grows (f a)) : Grows (m >>= f) :=
  ExceptState.Moves.bind (R := fun (s t : Socket) => s.sent <+: t.sent)
    (fun h h' => h.trans h') hm hf

theorem Silent.bind {α β : Type} {m : ConnectM α} {f : α → ConnectM β} (hm : Silent m)
    (hf : ∀ a, Silent (f a)) : Silent (m >>= f) :=
  ExceptState.Moves.bind (R := fun (s t : Socket) => t.sent = s.sent)
    (fun h h' => h'.trans h) hm hf

theorem silent_orReturn {ε α : Type} (into : ε → ProtocolError) (r : Except ε α) :
    Silent (orReturn into r) := by
  intro s
  cases r <;> rfl

theorem silent_throw {α : Type} (e : ProtocolError) : Silent (throw e : ConnectM α) :=
  fun _ => rfl

theorem silent_readMessage : Silent readMessage := by
  intro s
  unfold readMessage
  rcases Message.read (A := MlKemLevel) s.input with ⟨e | m, t⟩ <;> rfl

theorem silent_readServerHello : Silent readServerHello := by
  refine silent_readMessage.bind ?_
  intro m
  cases m <;> exact fun _ => rfl

theorem silent_readServerFinish : Silent readServerFinish := by
  refine silent_readMessage.bind ?_
  intro m
  cases m <;> exact fun _ => rfl

theorem grows_writeMessage (env : ClientEnv P) (n : Nat) (m : Message MlKemLevel) :
    Grows (writeMessage env n m) :=
  (silent_orReturn _ _).grows.bind fun _ =>
    (silent_orReturn _ _).grows.bind fun _ s => List.prefix_append s.sent [m]

/-- The end of `connect`: the checks on `ServerFinish`. -/
def acceptFinish (keys : SessionKeys) (fin : ClientFinish) (transcript : List UInt8)
    (peerIp : IpAddr) (serverFinish : ServerFinish) : ConnectM TunnelConfig :=
  if serverFinish.sessionId ≠ fin.sessionId then
    throw (.unexpectedMessage "ServerFinish session id did not match ClientFinish")
  else if verifyServerTag P keys.confirmKey transcript serverFinish.serverTag = false then
    throw (.handshake .authFailed)
  else
    return {
      assignedIp := { octets := serverFinish.assignedIp }
      serverWgPubkey := serverFinish.serverWgPubkey
      serverEndpoint := { ip := peerIp, port := serverFinish.wgPort }
      psk := keys.psk }

/-- What `connect` does once its hello is sent. -/
def afterHello (env : ClientEnv P) (handshake : ClientHandshake P) (vk : List UInt8)
    (peerIp : IpAddr) : ConnectM TunnelConfig := do
  let serverHello ← readServerHello
  let (keys, fin, transcript) ← orReturn .handshake (handshake.finish serverHello vk)
  writeMessage env 1 (.clientFinish fin)
  let serverFinish ← readServerFinish
  acceptFinish (P := P) keys fin transcript peerIp serverFinish

theorem silent_acceptFinish {keys : SessionKeys} {fin : ClientFinish} {t : List UInt8}
    {peerIp : IpAddr} (sf : ServerFinish) :
    Silent (acceptFinish (P := P) keys fin t peerIp sf) := by
  unfold acceptFinish
  split
  · exact silent_throw _
  · split
    · exact silent_throw _
    · exact fun _ => rfl

theorem grows_afterHello (env : ClientEnv P) (handshake : ClientHandshake P) (vk : List UInt8)
    (peerIp : IpAddr) : Grows (afterHello env handshake vk peerIp) := by
  refine silent_readServerHello.grows.bind fun sh => ?_
  refine (silent_orReturn _ _).grows.bind ?_
  rintro ⟨keys, fin, t⟩
  refine (grows_writeMessage env 1 _).bind fun _ => ?_
  exact (silent_readServerFinish.bind silent_acceptFinish).grows

section Working

variable {env : ClientEnv P} {peerIp : IpAddr} {algo : MlKemLevel} {pk : Bytes 32} {vk : List UInt8}
  {s : Socket} {f₁ : List UInt8} (hworks : env.Works peerIp)
  (hf₁ : (Message.clientHello (ClientHandshake.start algo pk env.seed).hello).write = .ok f₁)

include hworks hf₁

theorem connect_eq_afterHello :
    connect env algo pk vk s =
      afterHello env (ClientHandshake.start algo pk env.seed) vk peerIp
        { s with
          sent := s.sent ++ [.clientHello (ClientHandshake.start algo pk env.seed).hello] } := by
  unfold connect
  rw [ExceptState.bind_of_ok (orReturn_ok_iff.2 ⟨hworks.tcpConnect, rfl⟩),
    ExceptState.bind_of_ok (orReturn_ok_iff.2 ⟨hworks.setReadTimeout, rfl⟩),
    ExceptState.bind_of_ok (orReturn_ok_iff.2 ⟨hworks.setWriteTimeout, rfl⟩),
    ExceptState.bind_of_ok (orReturn_ok_iff.2 ⟨hworks.peerIp, rfl⟩)]
  dsimp only
  rw [ExceptState.bind_of_ok (writeMessage_of_ok hf₁ (hworks.writeAll 0) s)]
  rfl

/-- The hello is sent before anything is read. -/
theorem connect_greets :
    s.sent ++ [.clientHello (ClientHandshake.start algo pk env.seed).hello] <+:
      (connect env algo pk vk s).2.sent := by
  rw [connect_eq_afterHello hworks hf₁]
  have hgrows := grows_afterHello env (ClientHandshake.start algo pk env.seed) vk peerIp
    { s with sent := s.sent ++ [.clientHello (ClientHandshake.start algo pk env.seed).hello] }
  exact hgrows

variable {t₁ : Stream} {sh : ServerHello MlKemLevel} {keys : SessionKeys} {fin : ClientFinish}
  {t f₂ : List UInt8} (hhello : Message.read s.input = (.ok (.serverHello sh), t₁))
  (hfinish : (ClientHandshake.start algo pk env.seed).finish sh vk = .ok (keys, fin, t))
  (hf₂ : (Message.clientFinish fin : Message MlKemLevel).write = .ok f₂)

include hhello hfinish hf₂

/-- An acceptable `ServerHello` is answered before anything else is read. -/
theorem connect_eq_acceptFinish :
    connect env algo pk vk s =
      (readServerFinish >>= acceptFinish (P := P) keys fin t peerIp)
        { input := t₁
          sent := s.sent ++ [.clientHello (ClientHandshake.start algo pk env.seed).hello,
            .clientFinish fin] } := by
  have hread (sent : List (Message MlKemLevel)) :
      readServerHello { s with sent := sent } = (.ok sh, { input := t₁, sent := sent }) :=
    readServerHello_ok_iff.2 ⟨t₁, hhello, rfl⟩
  rw [connect_eq_afterHello hworks hf₁]
  unfold afterHello
  rw [ExceptState.bind_of_ok (hread _), ExceptState.bind_of_ok (orReturn_ok_iff.2 ⟨hfinish, rfl⟩)]
  dsimp only
  rw [ExceptState.bind_of_ok (writeMessage_of_ok hf₂ (hworks.writeAll 1) _), List.append_assoc]
  rfl

theorem connect_answers :
    (connect env algo pk vk s).2.sent =
      s.sent ++ [.clientHello (ClientHandshake.start algo pk env.seed).hello, .clientFinish fin] := by
  rw [connect_eq_acceptFinish hworks hf₁ hhello hfinish hf₂]
  exact silent_readServerFinish.bind silent_acceptFinish _

/-- A client is connected once it is handed an acceptable `ServerFinish`. -/
theorem connect_of_frames {sf : ServerFinish} {t₂ : Stream}
    (hserver : Message.read (A := MlKemLevel) t₁ = (.ok (.serverFinish sf), t₂))
    (hsession : sf.sessionId = fin.sessionId)
    (htag : verifyServerTag P keys.confirmKey t sf.serverTag = true) :
    (connect env algo pk vk s).1 =
      .ok
        { assignedIp := { octets := sf.assignedIp }
          serverWgPubkey := sf.serverWgPubkey
          serverEndpoint := { ip := peerIp, port := sf.wgPort }
          psk := keys.psk } := by
  rw [connect_eq_acceptFinish hworks hf₁ hhello hfinish hf₂,
    ExceptState.bind_of_ok (readServerFinish_ok_iff.2 ⟨t₂, hserver, rfl⟩)]
  simp only [acceptFinish, hsession, htag, ne_eq, not_true_eq_false, ite_false, Bool.true_eq_false]
  rfl

end Working

end Client
end Handshake
end PqcVpn
