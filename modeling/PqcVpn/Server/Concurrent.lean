import PqcVpn.Lib.Mirror
import PqcVpn.Server.Effects

/-!
# Concurrent — any number of handlers over shared stores

`serve` runs every connection on a thread of its own.  What a handler does to the stores after its
client proved itself is four atomic steps: the registry update under the mutex, `installer.install`,
`persist` and `ServerFinish`.  `HandlerStep` interleaves the steps of any number of handlers;
`handleConnection_run` says that one handler's connection is a run of its steps.

All installs succeed here.
-/

namespace PqcVpn
namespace Server

open Crypto Function Handshake Registry Transition Wire

variable {P : Primitives}

/-! ## Handlers -/

/-- An exchange a connection to this server can bring to its commit. -/
def Exchange.Genuine (identity : P.SigningKey) (ex : Exchange) : Prop :=
  ∃ (env : HandlerEnv P) (w w₁ : World), env.identity = identity ∧ Authorised env w ex w₁

/-- Where a handler stands. -/
inductive Phase
  | idle
  | authorised (ex : Exchange)
  | updated (ex : Exchange) (slot : PeerSlot)
  | installed (ex : Exchange) (slot : PeerSlot)
  | persisted (ex : Exchange) (slot : PeerSlot)
  | closed

/-- A registry update that succeeded. -/
structure Update where
  handler : Nat
  exchange : Exchange
  slot : PeerSlot

/-- What an exchange installs for its peer. -/
def Exchange.wgPeer (ex : Exchange) (slot : PeerSlot) : WgPeer :=
  { psk := ex.outcome.keys.psk
    allowedIp := slot.assignedIp }

structure ServerState where
  stores : Stores
  handlers : Nat → Phase
  /-- The last update of each peer's record; the code does not keep it. -/
  lastUpdate : Bytes 32 → Option Update

namespace ServerState

def setPhase (s : ServerState) (id : Nat) (phase : Phase) : ServerState :=
  { s with handlers := update s.handlers id phase }

/-- The server before any connection. -/
def start (stores : Stores) : ServerState :=
  { stores := stores
    handlers := fun _ => .idle
    lastUpdate := fun _ => none }

/-- No handler is between its registry update and the end of its install. -/
def Settled (s : ServerState) : Prop := ∀ id ex slot, s.handlers id ≠ .updated ex slot

end ServerState

inductive HandlerAction
  | accept (ex : Exchange)
  | update (now : SystemTime)
  | install
  | persist
  | finish

/-- One step of the handler `id`. -/
inductive HandlerStep (identity : P.SigningKey) (c : TextCodecs) :
    ServerState → Nat × HandlerAction → ServerState → Prop
  | accept {s : ServerState} {id : Nat} {ex : Exchange} (hphase : s.handlers id = .idle)
      (hex : ex.Genuine identity) :
      HandlerStep identity c s (id, .accept ex) (s.setPhase id (.authorised ex))
  | update {s : ServerState} {id : Nat} {ex : Exchange} {now : SystemTime} {slot : PeerSlot}
      {r : Registry} (hphase : s.handlers id = .authorised ex)
      (h : ex.update now s.stores.registry = (.ok slot, r)) :
      HandlerStep identity c s (id, .update now)
        { stores := { s.stores with registry := r }
          handlers := update s.handlers id (.updated ex slot)
          lastUpdate := update s.lastUpdate ex.peer (some ⟨id, ex, slot⟩) }
  | refuse {s : ServerState} {id : Nat} {ex : Exchange} {now : SystemTime} {e : RegistryError}
      {r : Registry} (hphase : s.handlers id = .authorised ex)
      (h : ex.update now s.stores.registry = (.error e, r)) :
      HandlerStep identity c s (id, .update now)
        { s with
          stores := { s.stores with registry := r }
          handlers := update s.handlers id .closed }
  | install {s : ServerState} {id : Nat} {ex : Exchange} {slot : PeerSlot}
      (hphase : s.handlers id = .updated ex slot) :
      HandlerStep identity c s (id, .install)
        { s with
          stores := s.stores.install ex slot (.ok ())
          handlers := update s.handlers id (.installed ex slot) }
  | persist {s : ServerState} {id : Nat} {ex : Exchange} {slot : PeerSlot}
      (order : s.stores.registry.Iteration) (os : PersistIo)
      (hphase : s.handlers id = .installed ex slot) :
      HandlerStep identity c s (id, .persist)
        { s with
          stores := (s.stores.persist c order os).2
          handlers := update s.handlers id (.persisted ex slot) }
  | finish {s : ServerState} {id : Nat} {ex : Exchange} {slot : PeerSlot}
      (hphase : s.handlers id = .persisted ex slot) :
      HandlerStep identity c s (id, .finish) (s.setPhase id .closed)

/-! ## One handler on its own -/

variable {env : HandlerEnv P}

/-- The stores a commit leaves when the registry refuses the exchange. -/
theorem stores_commit_of_refused {ex : Exchange} {w : World} {e : RegistryError} {r : Registry}
    (h : ex.update env.now w.stores.registry = (.error e, r)) :
    (commit env ex w).2.stores = { w.stores with registry := r } := by
  unfold commit
  rw [Conn.bind_of_ok (updateRegistry_apply ex w h)]
  exact (quiet_reject_then env _ _ (.pure _) _).stores

/-- The stores a commit leaves when its install succeeds. -/
theorem stores_commit_of_installed {ex : Exchange} {w : World} {slot : PeerSlot} {r : Registry}
    (h : ex.update env.now w.stores.registry = (.ok slot, r))
    (hinstall : ex.installResult env slot = .ok ()) :
    (commit env ex w).2.stores =
      (({ w.stores with registry := r } : Stores).install ex slot (.ok ()) |>.persist env.codecs
        (env.order r) env.persistIo).2 := by
  unfold commit
  rw [Conn.bind_of_ok (updateRegistry_apply ex w h)]
  dsimp only
  rw [Conn.bind_of_ok (installPsk_apply ex slot _ hinstall)]
  have hquiet := Quiet.bind (quiet_transmit env
    (.serverFinish (ex.serverFinish P env.tunnel slot))) (f := fun r => do
      orIo r
      return ex.result slot) (fun r => .bind (quiet_orIo r) fun _ => .pure _)
  exact (hquiet _).stores

/-- A connection whose install succeeds is a run of its handler's steps. -/
theorem handleConnection_run {s : ServerState} {id : Nat} {stream : Stream} {ex : Exchange}
    {w₁ : World} (hidle : s.handlers id = .idle)
    (hauth : Authorised env (.start s.stores stream) ex w₁)
    (hinstall : ∀ slot, ex.installResult env slot = .ok ()) :
    ∃ as t, Run (HandlerStep env.identity env.codecs) s as t ∧ (∀ a ∈ as, a.1 = id) ∧
      t.handlers id = .closed ∧
      t.stores = (handleConnection env (.start s.stores stream)).2.stores := by
  have hstores : w₁.stores = s.stores := hauth.stores
  rw [handleConnection_of_authorised hauth]
  have haccept : HandlerStep env.identity env.codecs s (id, .accept ex)
      (s.setPhase id (.authorised ex)) := .accept hidle ⟨env, _, w₁, rfl, hauth⟩
  -- a refused exchange closes the handler at once
  rcases hupdate : ex.update env.now s.stores.registry with ⟨e | slot, r⟩
  · refine ⟨[_, _], _, .cons haccept (.single (.refuse (update_self ..) hupdate)), ?_, ?_, ?_⟩
    · simp
    · exact update_self ..
    · rw [stores_commit_of_refused (hstores ▸ hupdate), hstores]
      rfl
  · refine ⟨_, _, .cons haccept (.cons (.update (update_self ..) hupdate)
      (.cons (.install (update_self ..)) (.cons (.persist (env.order r) env.persistIo
        (update_self ..)) (.single (.finish (update_self ..)))))), ?_, ?_, ?_⟩
    · simp
    · exact update_self ..
    · rw [stores_commit_of_installed (hstores ▸ hupdate) (hinstall slot), hstores]
      rfl

end Server
end PqcVpn
