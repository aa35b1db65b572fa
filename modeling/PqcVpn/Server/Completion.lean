import PqcVpn.Server.Effects

/-!
# Completion — what a connection sends on a working transport

The handler answers a hello before it reads anything else, and an exchange the registry accepts is
carried to its `ServerFinish`.
-/

namespace PqcVpn
namespace Server

open Crypto Handshake Registry Wire

variable {α β : Type} {P : Primitives}

/-- Every call of a connection succeeds, the installs included. -/
structure HandlerEnv.Works (env : HandlerEnv P) : Prop where
  setReadTimeout : env.setReadTimeout = .ok ()
  setWriteTimeout : env.setWriteTimeout = .ok ()
  writeAll : ∀ n, env.writeAll n = .ok ()
  install : ∀ peer psk ip algo, env.install peer psk ip algo = .ok ()

/-! ## Messages sent -/

def Event.sentMessage : Event → Option (Message AlgoCode)
  | .sent m => some m
  | _ => none

/-- The messages of a connection that reached the client. -/
def World.sent (w : World) : List (Message AlgoCode) := w.trace.filterMap Event.sentMessage

/-- What a connection did stays on its trace. -/
def Extends (m : Conn α) : Prop := ∀ w, w.trace <+: (m w).2.trace

theorem Quiet.extends {m : Conn α} (h : Quiet m) : Extends m := by
  intro w
  rcases (h w).trace with ⟨evs, hevs, _⟩
  rw [hevs]
  exact List.prefix_append w.trace evs

theorem Extends.bind {m : Conn α} {f : α → Conn β} (hm : Extends m) (hf : ∀ a, Extends (f a)) :
    Extends (m >>= f) := by
  intro w
  have h := hm w
  rw [Conn.bind_apply]
  rcases hmw : m w with ⟨e | a, w₁⟩
  · rw [hmw] at h
    exact h
  · rw [hmw] at h
    exact h.trans (hf a w₁)

theorem extends_commit (env : HandlerEnv P) (ex : Exchange) : Extends (commit env ex) := by
  intro w
  cases commit_cases env ex w with
  | refused e _ h =>
      rcases h.trace with ⟨evs, hevs, _⟩
      rw [hevs, List.append_assoc]
      exact List.prefix_append _ _
  | notInstalled q e _ _ _ h =>
      rcases h.trace with ⟨evs, hevs, _⟩
      rw [hevs, List.append_assoc]
      exact List.prefix_append _ _
  | installed q onDisk persisted _ _ _ _ h =>
      rcases h.trace with ⟨evs, hevs, _⟩
      rw [hevs, List.append_assoc]
      exact List.prefix_append _ _

/-! ## The answer to a hello -/

theorem Conn.bind_assoc_apply {γ : Type} (m : Conn α) (f : α → Conn β) (g : β → Conn γ) (w : World) :
    ((m >>= f) >>= g) w = (m >>= fun a => f a >>= g) w := by
  simp only [Conn.bind_apply]
  rcases m w with ⟨e | a, w₁⟩ <;> rfl

/-- What `handle_connection` does once its `ServerHello` is sent. -/
def afterServerHello (env : HandlerEnv P) (ex : Exchange) : Conn ConnResult := do
  let fin ← readFinish env
  if fin.sessionId ≠ ex.sessionId ∨
      verifyClientTag P ex.outcome.keys.confirmKey ex.outcome.transcript fin.clientTag = false then
    orIo (← reject env HandshakeError.authFailed.protocolCode "client finish tag did not verify")
    return .rejected 0x06
  else
    commit env ex

theorem extends_afterServerHello (env : HandlerEnv P) (ex : Exchange) :
    Extends (afterServerHello env ex) := by
  refine (quiet_readFinish env).extends.bind fun fin => ?_
  split
  · exact (quiet_reject_then env _ _ (.pure _)).extends
  · exact extends_commit env ex

variable {env : HandlerEnv P}

/-- A hello that can be answered is answered before anything else is read. -/
theorem handleConnection_eq_afterServerHello
    (htimeouts : env.setReadTimeout = .ok () ∧ env.setWriteTimeout = .ok ()) {w : World}
    (hio : env.writeAll w.writes = .ok ()) {first : Message AlgoCode} {s₁ : Stream} {ex : Exchange}
    (hread : Message.read (A := AlgoCode) w.stream = (.ok first, s₁))
    (hhello : helloOf first = some (ex.hello, ex.rekeySession))
    (hsession : ex.sessionId = ex.rekeySession.getD env.randSession)
    (hrespond : Handshake.respond env.identity ex.hello ex.sessionId env.serverNonce env.seed =
      .ok ex.outcome) :
    handleConnection env w =
      afterServerHello env ex
        { stores := w.stores
          stream := s₁
          writes := w.writes + 1
          trace := w.trace ++ [.received first, .sent (.serverHello ex.outcome.serverHello)] } := by
  have hfirst : readHello env w = (.ok (ex.hello, ex.rekeySession),
      { w with stream := s₁, trace := w.trace ++ [.received first] }) :=
    readHello_ok_iff.2 ⟨first, receive_ok_iff.2 ⟨s₁, hread, rfl⟩, hhello⟩
  have hsent : transmit env (.serverHello ex.outcome.serverHello)
      { w with stream := s₁, trace := w.trace ++ [.received first] } =
      (.ok (.ok ()),
        { w with
          stream := s₁
          writes := w.writes + 1
          trace := w.trace ++ [.received first] ++ [.sent (.serverHello ex.outcome.serverHello)] }) :=
    transmit_ok_iff.2 ⟨serverHello_writes (serverHello_wellSized hrespond), hio, rfl⟩
  unfold handleConnection
  rw [htimeouts.1, htimeouts.2]
  change (negotiate env >>= _) w = _
  unfold negotiate
  rw [Conn.bind_assoc_apply, Conn.bind_of_ok hfirst]
  dsimp only
  rw [← hsession]
  simp only [hrespond]
  rw [Conn.bind_assoc_apply, Conn.bind_of_ok hsent, Conn.bind_assoc_apply]
  refine (Conn.bind_of_ok (m := orIo (.ok ())) rfl).trans ?_
  rw [Conn.bind_assoc_apply, List.append_assoc]
  -- the two continuations differ only in how they hand on the verdict on the tag
  refine congrFun (congrArg (readFinish env >>= ·) (funext fun fin => funext fun w₂ => ?_)) _
  split
  · rw [Conn.bind_assoc_apply]
    refine congrFun (congrArg (reject env _ _ >>= ·) (funext fun r => funext fun w₃ => ?_)) _
    rw [Conn.bind_assoc_apply]
    rfl
  · rfl

theorem handleConnection_greets (hworks : env.Works) {w : World} {first : Message AlgoCode}
    {s₁ : Stream} (ex : Exchange) (hread : Message.read (A := AlgoCode) w.stream = (.ok first, s₁))
    (hhello : helloOf first = some (ex.hello, ex.rekeySession))
    (hsession : ex.sessionId = ex.rekeySession.getD env.randSession)
    (hrespond : Handshake.respond env.identity ex.hello ex.sessionId env.serverNonce env.seed =
      .ok ex.outcome) :
    w.trace ++ [.received first, .sent (.serverHello ex.outcome.serverHello)] <+:
      (handleConnection env w).2.trace := by
  rw [handleConnection_eq_afterServerHello ⟨hworks.setReadTimeout, hworks.setWriteTimeout⟩
    (hworks.writeAll _) hread hhello hsession hrespond]
  exact extends_afterServerHello env ex
    { stores := w.stores
      stream := s₁
      writes := w.writes + 1
      trace := w.trace ++ [.received first, .sent (.serverHello ex.outcome.serverHello)] }

/-! ## The commit of an accepted exchange -/

/-- The stores after an exchange that left the record `q`. -/
def Stores.committed (s : Stores) (ex : Exchange) (q : Peer) (onDisk : Option (List UInt8)) :
    Stores :=
  { registry := s.registry.store ex.peer q
    wg := s.wg.insert ex.peer { psk := ex.outcome.keys.psk, allowedIp := q.assignedIp }
    onDisk := onDisk }

/-- An exchange the registry accepts is installed, persisted if the disk allows, and answered. -/
theorem commit_of_update (hworks : env.Works) {ex : Exchange} {w : World} {q : Peer}
    (hupdate : ex.update env.now w.stores.registry =
      (.ok q.slot, w.stores.registry.store ex.peer q)) :
    ∃ onDisk persisted, commit env ex w =
      (.ok (ex.result q.slot),
        { stores := w.stores.committed ex q onDisk
          stream := w.stream
          writes := w.writes + 1
          trace := w.trace ++ [.updated (.ok q.slot), .called (ex.installCall q.slot) (.ok ()),
            .persisted persisted, .sent (.serverFinish (ex.serverFinish P env.tunnel q.slot))] }) := by
  have hinstall : ex.installResult env q.slot = .ok () := hworks.install _ _ _ _
  -- no setting makes `ServerFinish` too long to send
  rcases serverFinish_writes (A := AlgoCode) (ex.serverFinish P env.tunnel q.slot) with ⟨f, hf⟩
  rcases persistRegistry_apply env
    { w with
      stores := { w.stores with registry := w.stores.registry.store ex.peer q }.install ex q.slot
        (.ok ())
      trace := w.trace ++ [.updated (.ok q.slot)] ++ [.called (ex.installCall q.slot) (.ok ())] }
    with ⟨persisted, onDisk, hpersist⟩
  refine ⟨onDisk, persisted, ?_⟩
  unfold commit
  rw [Conn.bind_of_ok (updateRegistry_apply ex w hupdate)]
  dsimp only
  rw [Conn.bind_of_ok (installPsk_apply ex q.slot _ hinstall)]
  dsimp only
  rw [Conn.bind_of_ok hpersist,
    orIo_of_ok (transmit_ok_iff.2 ⟨⟨f, hf⟩, hworks.writeAll _, rfl⟩)]
  simp [Conn.pure_apply, Stores.install, WgInterface.install, Stores.committed]

end Server
end PqcVpn
