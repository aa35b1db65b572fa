import PqcVpn.Crypto.Reference
import PqcVpn.Registry.Reference
import PqcVpn.Server.Concurrent

/-!
# Reference — a server over the lawful stand-ins

`env` is a server on a working transport with the reference cryptography; only the outcome of
`install` is left open.  Under it every well-sized hello is answered.
-/

namespace PqcVpn
namespace Server
namespace Reference

open Crypto Handshake Registry Wire

noncomputable def env (install : Bytes 32 → Bytes 32 → Ipv4Addr → AlgoCode → Except InstallError Unit) :
    HandlerEnv Crypto.Reference.primitives where
  identity := ()
  tunnel := { serverWgPubkey := .replicate 32 0x5A, wgPort := 51820 }
  setReadTimeout := .ok ()
  setWriteTimeout := .ok ()
  writeAll := fun _ => .ok ()
  randSession := .replicate 16 7
  serverNonce := .replicate 32 2
  seed := { x25519 := .replicate 32 3, encaps := .replicate 32 4 }
  now := Registry.Reference.now
  install := install
  codecs := Registry.Reference.codecs
  order := Registry.Reference.anyOrder
  persistIo := { writeTmp := .ok (), rename := .ok () }

/-- A fresh hello at ML-KEM-768. -/
def helloWith (clientNonce : Bytes 32) : ClientHello AlgoCode :=
  { algo := .mlKem768
    clientNonce := clientNonce
    clientWgPubkey := .replicate 32 1
    clientX25519Pub := .replicate 32 6
    clientMlkemPub := List.replicate 1184 0 }

def hello : ClientHello AlgoCode := helloWith (.replicate 32 5)

theorem helloWith_wellSized (clientNonce : Bytes 32) : (helloWith clientNonce).WellSized :=
  List.length_replicate

/-- A server nobody has talked to yet. -/
def stores : Stores :=
  { registry := Registry.Reference.empty
    wg := ∅
    onDisk := none }

/-- The exchange of a client that sends such a hello and proves itself. -/
theorem authorised_helloWith
    (install : Bytes 32 → Bytes 32 → Ipv4Addr → AlgoCode → Except InstallError Unit)
    (clientNonce : Bytes 32) :
    ∃ ex w₁, Authorised (env install)
        (.start stores (provingStream (env install) (helloWith clientNonce) none)) ex w₁ ∧
      ex.hello = helloWith clientNonce ∧ ex.rekeySession = none ∧
      ex.outcome.keys.psk = clientNonce := by
  rcases Handshake.Reference.respond_ok () (helloWith_wellSized clientNonce) (env install).randSession
    (env install).serverNonce (env install).seed with ⟨o, ho⟩
  -- the proving stream carries the hello and the tag that answers it
  have hauth : ∃ w₁, Authorised (env install)
      (.start stores (provingStream (env install) (helloWith clientNonce) none))
      { hello := helloWith clientNonce
        rekeySession := none
        sessionId := (env install).randSession
        outcome := o } w₁ :=
    authorised_of_provingStream rfl rfl rfl (helloWith_wellSized clientNonce) ho
  rcases hauth with ⟨w₁, hauth⟩
  refine ⟨_, w₁, hauth, rfl, rfl, ?_⟩
  rcases Handshake.respond_ok rfl ho with ⟨_, r, _, _, _, hkeys, _⟩
  dsimp only
  rw [hkeys]
  exact Crypto.Reference.psk_deriveSessionKeys r.hybridSecret clientNonce _

theorem authorised (install : Bytes 32 → Bytes 32 → Ipv4Addr → AlgoCode → Except InstallError Unit) :
    ∃ ex w₁, Authorised (env install) (.start stores (provingStream (env install) hello none)) ex w₁ ∧
      ex.hello = hello ∧ ex.rekeySession = none := by
  rcases authorised_helloWith install (.replicate 32 5) with ⟨ex, w₁, hauth, hhello, hkind, _⟩
  exact ⟨ex, w₁, hauth, hhello, hkind⟩

/-! ## Exchanges of one peer -/

/-- The server's identity: the reference signature has no secret. -/
def identity : Crypto.Reference.primitives.SigningKey := ()

/-- Whatever nonce the peer draws, there is an exchange for it, and its PSK tells the nonce. -/
theorem genuine_helloWith (clientNonce : Bytes 32) :
    ∃ ex : Exchange, ex.Genuine identity ∧ ex.hello = helloWith clientNonce ∧
      ex.rekeySession = none ∧ ex.outcome.keys.psk = clientNonce := by
  rcases authorised_helloWith (fun _ _ _ _ => .ok ()) clientNonce with
    ⟨ex, w₁, hauth, hhello, hkind, hpsk⟩
  exact ⟨ex, ⟨_, _, w₁, rfl, hauth⟩, hhello, hkind, hpsk⟩

/-- It is the peer of the reference registry. -/
theorem peer_of_helloWith {ex : Exchange} {clientNonce : Bytes 32}
    (hhello : ex.hello = helloWith clientNonce) : ex.peer = Registry.Reference.key := by
  rw [Exchange.peer, hhello]
  rfl

/-- The empty registry accepts a first handshake. -/
theorem accepts_first {ex : Exchange} (hkind : ex.rekeySession = none) :
    ex.Accepts stores.registry (.new 10 8 0 2) :=
  .new hkind (Finmap.lookup_empty _) (by decide) (by decide)

end Reference
end Server
end PqcVpn
