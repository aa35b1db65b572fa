import PqcVpn.Registry.History
import PqcVpn.Server.Negotiate

/-!
# Effects — what one connection does to the shared stores

`commit_cases` is the whole effect of an authorised exchange, and `handleConnection_cases` says that
a connection does nothing else: it only exchanges frames, or makes one `commit`.
-/

namespace PqcVpn
namespace Server

open Crypto Handshake Registry Wire

variable {P : Primitives} {env : HandlerEnv P}

/-! ## What a commit does -/

namespace Exchange

/-- The call `commit` makes for an exchange. -/
def installCall (ex : Exchange) (slot : PeerSlot) : InstallerCall :=
  .install ex.peer ex.outcome.keys.psk slot.assignedIp ex.hello.algo

/-- The outcome of that call. -/
def installResult (ex : Exchange) (env : HandlerEnv P) (slot : PeerSlot) :
    Except InstallError Unit :=
  env.install ex.peer ex.outcome.keys.psk slot.assignedIp ex.hello.algo

/-- The registry answers an exchange with an address exactly in these cases. -/
inductive Accepts (ex : Exchange) (r : Registry) : Ipv4Addr → Prop
  | rekey {sid : Bytes 16} {p : Peer} (hkind : ex.rekeySession = some sid)
      (hlookup : r.inner.lookup ex.peer = some p) (hsid : p.sessionId = sid)
      (halgo : p.algo ≤ ex.hello.algo) : Accepts ex r p.assignedIp
  | known {p : Peer} (hkind : ex.rekeySession = none)
      (hlookup : r.inner.lookup ex.peer = some p) : Accepts ex r p.assignedIp
  | new {ip : Ipv4Addr} (hkind : ex.rekeySession = none)
      (hlookup : r.inner.lookup ex.peer = none) (hcap : r.len < r.maxPeers)
      (halloc : r.allocIp = .ok ip) : Accepts ex r ip

/-- A fresh hello that would write back the very record the registry holds. -/
def Rewrites (ex : Exchange) (now : SystemTime) (r : Registry) : Prop :=
  ex.rekeySession = none ∧ ∃ p, r.inner.lookup ex.peer = some p ∧ p.sessionId = ex.sessionId ∧
    p.algo = ex.hello.algo ∧ p.lastActivity = now ∧ p.rekeys = 0

/-- What the update of an exchange does: it stores one record for the peer, or changes nothing. -/
inductive Updated (ex : Exchange) (now : SystemTime) (r : Registry) : Prop
  | stored (q : Peer) (haccepts : ex.Accepts r q.assignedIp)
      (hsession : q.sessionId = ex.rekeySession.getD ex.sessionId) (halgo : q.algo = ex.hello.algo)
      (hsame : r.inner.lookup ex.peer = some q ↔ ex.Rewrites now r)
      (h : ex.update now r = (.ok q.slot, r.store ex.peer q))
  | refused (e : RegistryError) (hnot : ∀ ip, ¬ ex.Accepts r ip)
      (h : ex.update now r = (.error e, r))

theorem updated_rekey {ex : Exchange} {sid : Bytes 16} (hkind : ex.rekeySession = some sid)
    (now : SystemTime) (r : Registry) : ex.Updated now r := by
  have hupdate : ex.update now r = r.rekey now ex.peer sid ex.hello.algo := by
    simp only [update, hkind]
  rcases rekey_cases r now ex.peer sid ex.hello.algo with ⟨p, hp, hsid, halgo, h⟩ | ⟨e, hnot, h⟩
  · have haccepts : ex.Accepts r p.assignedIp := .rekey hkind hp hsid halgo
    refine .stored (p.rekeyed now ex.hello.algo) haccepts ?_ rfl ?_ (hupdate.trans h)
    · rw [hkind]
      exact hsid
    · constructor
      · intro hsame
        -- a rekey counts up, so it never stores the record it found
        have hcount := congrArg Peer.rekeys (Option.some.inj (hp.symm.trans hsame))
        simp [Peer.rekeyed] at hcount
      · rintro ⟨hnone, _⟩
        simp [hkind] at hnone
  · refine .refused e ?_ (hupdate.trans h)
    intro ip haccepts
    cases haccepts with
    | rekey hkind' hlookup hsid halgo =>
        rw [hkind] at hkind'
        cases hkind'
        exact hnot _ hlookup hsid halgo
    | known hkind' _ => simp [hkind] at hkind'
    | new hkind' _ _ _ => simp [hkind] at hkind'

theorem updated_fresh {ex : Exchange} (hkind : ex.rekeySession = none) (now : SystemTime)
    (r : Registry) : ex.Updated now r := by
  have hupdate : ex.update now r = r.upsertHandshake now ex.peer ex.hello.algo ex.sessionId := by
    simp only [update, hkind]
  rcases upsertHandshake_cases r now ex.peer ex.hello.algo ex.sessionId with
    ⟨p, hp, h⟩ | ⟨ip, hnone, hcap, halloc, h⟩ | ⟨e, hnone, h⟩
  · have haccepts : ex.Accepts r p.assignedIp := .known hkind hp
    refine .stored (p.reconnected now ex.hello.algo ex.sessionId) haccepts (by rw [hkind]; rfl) rfl
      ?_ (hupdate.trans h)
    constructor
    · intro hsame
      -- the record is as before only when every field it rewrites already had that value
      have heq : p = p.reconnected now ex.hello.algo ex.sessionId :=
        Option.some.inj (hp.symm.trans hsame)
      exact ⟨hkind, p, hp, congrArg Peer.sessionId heq, congrArg Peer.algo heq,
        congrArg Peer.lastActivity heq, congrArg Peer.rekeys heq⟩
    · rintro ⟨_, p', hp', hsid, halgo, hnow, hcount⟩
      rw [hp] at hp' ⊢
      cases hp'
      rcases p with ⟨pk, ip, sid, algo, created, last, rekeys⟩
      simp only at hsid halgo hnow hcount
      subst hsid halgo hnow hcount
      rfl
  · refine .stored (Peer.fresh now ex.peer ex.hello.algo ex.sessionId ip)
      (.new hkind hnone hcap halloc) (by rw [hkind]; rfl) rfl ?_ (hupdate.trans h)
    constructor
    · intro hsame
      simp [hnone] at hsame
    · rintro ⟨_, p, hp, _⟩
      simp [hnone] at hp
  · refine .refused e ?_ (hupdate.trans h)
    intro ip haccepts
    cases haccepts with
    | rekey hkind' _ _ _ => simp [hkind] at hkind'
    | known _ hlookup => simp [hnone] at hlookup
    | new _ _ hcap halloc =>
        have hok := upsertHandshake_new now ex.peer ex.hello.algo ex.sessionId hnone hcap halloc
        rw [h] at hok
        cases hok

theorem update_cases (ex : Exchange) (now : SystemTime) (r : Registry) : ex.Updated now r := by
  cases hkind : ex.rekeySession with
  | some sid => exact updated_rekey hkind now r
  | none => exact updated_fresh hkind now r

/-- An update that succeeds stores one record for the exchange's peer. -/
theorem update_ok {ex : Exchange} {now : SystemTime} {r r' : Registry} {slot : PeerSlot}
    (h : ex.update now r = (.ok slot, r')) :
    ∃ q : Peer, slot = q.slot ∧ r' = r.store ex.peer q ∧
      q.sessionId = ex.rekeySession.getD ex.sessionId ∧ q.algo = ex.hello.algo := by
  cases ex.update_cases now r with
  | stored q _ hsession halgo _ hstored =>
      rw [hstored] at h
      cases h
      exact ⟨q, rfl, rfl, hsession, halgo⟩
  | refused e _ hrefused =>
      rw [hrefused] at h
      cases h

theorem update_of_accepts {ex : Exchange} {r : Registry} {ip : Ipv4Addr} (h : ex.Accepts r ip)
    (now : SystemTime) : ∃ q : Peer, ex.update now r = (.ok q.slot, r.store ex.peer q) := by
  cases ex.update_cases now r with
  | stored q _ _ _ _ hstored => exact ⟨q, hstored⟩
  | refused e hnot _ => exact absurd h (hnot ip)

theorem update_known {ex : Exchange} {r : Registry} {p : Peer} (hkind : ex.rekeySession = none)
    (now : SystemTime) (hlookup : r.inner.lookup ex.peer = some p) :
    ex.update now r =
      (.ok (p.reconnected now ex.hello.algo ex.sessionId).slot,
        r.store ex.peer (p.reconnected now ex.hello.algo ex.sessionId)) := by
  simp only [update, hkind, upsertHandshake, hlookup]
  rfl

/-- The registry operation of an exchange. -/
def op (ex : Exchange) (now : SystemTime) : Op :=
  match ex.rekeySession with
  | some sid => .rekey now ex.peer sid ex.hello.algo
  | none => .upsertHandshake now ex.peer ex.hello.algo ex.sessionId

theorem exec_op (ex : Exchange) (now : SystemTime) (r : Registry) :
    (r.exec (ex.op now)).2 = (ex.update now r).2 := by
  unfold op update
  cases ex.rekeySession <;> rfl

theorem update_error {ex : Exchange} {now : SystemTime} {r r' : Registry} {e : RegistryError}
    (h : ex.update now r = (.error e, r')) : r' = r := by
  cases ex.update_cases now r with
  | stored q _ _ _ _ hstored =>
      rw [hstored] at h
      cases h
  | refused e' _ hrefused =>
      rw [hrefused] at h
      cases h
      rfl

end Exchange

/-- What `commit` does to the world: refused by the registry, updated but not installed, or updated
and installed.  Whatever follows only sends a frame. -/
inductive Committed (env : HandlerEnv P) (ex : Exchange) (w w' : World) : Prop
  | refused (e : RegistryError) (hnot : ∀ ip, ¬ ex.Accepts w.stores.registry ip)
      (h : OnlyFrames { w with trace := w.trace ++ [.updated (.error e)] } w')
  | notInstalled (q : Peer) (e : InstallError) (haccepts : ex.Accepts w.stores.registry q.assignedIp)
      (hsame : w.stores.registry.inner.lookup ex.peer = some q ↔
        ex.Rewrites env.now w.stores.registry)
      (hinstall : ex.installResult env q.slot = .error e)
      (h : OnlyFrames
        { w with
          stores := { w.stores with registry := w.stores.registry.store ex.peer q }
          trace := w.trace ++ [.updated (.ok q.slot), .called (ex.installCall q.slot) (.error e)] }
        w')
  | installed (q : Peer) (onDisk : Option (List UInt8)) (persisted : Except IoError Unit)
      (haccepts : ex.Accepts w.stores.registry q.assignedIp)
      (hsession : q.sessionId = ex.rekeySession.getD ex.sessionId) (halgo : q.algo = ex.hello.algo)
      (hinstall : ex.installResult env q.slot = .ok ())
      (h : OnlyFrames
        { w with
          stores :=
            { registry := w.stores.registry.store ex.peer q
              wg := w.stores.wg.insert ex.peer
                { psk := ex.outcome.keys.psk, allowedIp := q.assignedIp }
              onDisk := onDisk }
          trace := w.trace ++ [.updated (.ok q.slot), .called (ex.installCall q.slot) (.ok ()),
            .persisted persisted] }
        w')

theorem updateRegistry_apply (ex : Exchange) (w : World) {result : Except RegistryError PeerSlot}
    {r : Registry} (h : ex.update env.now w.stores.registry = (result, r)) :
    updateRegistry env ex w =
      (.ok result,
        { w with
          stores := { w.stores with registry := r }
          trace := w.trace ++ [.updated result] }) := by
  simp only [updateRegistry, Stores.update, h]

theorem installPsk_apply (ex : Exchange) (slot : PeerSlot) (w : World)
    {result : Except InstallError Unit} (h : ex.installResult env slot = result) :
    installPsk env ex slot w =
      (.ok result,
        { w with
          stores := w.stores.install ex slot result
          trace := w.trace ++ [.called (ex.installCall slot) result] }) := by
  subst h
  rfl

theorem persistRegistry_apply (env : HandlerEnv P) (w : World) :
    ∃ result onDisk, persistRegistry env w =
      (.ok result,
        { w with
          stores := { w.stores with onDisk := onDisk }
          trace := w.trace ++ [.persisted result] }) :=
  ⟨_, _, rfl⟩

theorem commit_cases (env : HandlerEnv P) (ex : Exchange) (w : World) :
    Committed env ex w (commit env ex w).2 := by
  -- the steps of `commit` in order; each failure ends in a rejection, which touches no store
  cases ex.update_cases env.now w.stores.registry with
  | refused e hnot h =>
      refine .refused e hnot ?_
      unfold commit
      rw [Conn.bind_of_ok (updateRegistry_apply ex w h)]
      exact quiet_reject_then env _ _ (.pure _) _
  | stored q haccepts hsession halgo hsame h =>
      unfold commit
      rw [Conn.bind_of_ok (updateRegistry_apply ex w h)]
      dsimp only
      cases hinstall : ex.installResult env q.slot with
      | error e =>
          refine .notInstalled q e haccepts hsame hinstall ?_
          rw [Conn.bind_of_ok (installPsk_apply ex q.slot _ hinstall)]
          have hquiet := quiet_reject_then env 0x08 e.toText (m := (throw (.install e) : Conn ConnResult))
            (.throw _) { w with
              stores := { w.stores with registry := w.stores.registry.store ex.peer q }
              trace := w.trace ++ [.updated (.ok q.slot), .called (ex.installCall q.slot) (.error e)] }
          simpa [Stores.install, WgInterface.install] using hquiet
      | ok u =>
          cases u
          rw [Conn.bind_of_ok (installPsk_apply ex q.slot _ hinstall)]
          dsimp only
          -- from here on only the file and the socket are touched
          rcases persistRegistry_apply env { w with
              stores := { w.stores with registry := w.stores.registry.store ex.peer q }.install ex
                q.slot (.ok ())
              trace := w.trace ++ [.updated (.ok q.slot)] ++
                [.called (ex.installCall q.slot) (.ok ())] } with ⟨persisted, onDisk, hpersist⟩
          refine .installed q onDisk persisted haccepts hsession halgo hinstall ?_
          rw [Conn.bind_of_ok hpersist]
          have hquiet := Quiet.bind (quiet_transmit env
            (.serverFinish (ex.serverFinish P env.tunnel q.slot))) (f := fun r => do
              orIo r
              return ex.result q.slot) (fun r => .bind (quiet_orIo r) fun _ => .pure _)
          simpa [Stores.install, WgInterface.install] using hquiet _

/-! ## A whole connection -/

/-- A connection before anything was read. -/
def World.start (stores : Stores) (stream : Stream) : World :=
  { stores := stores
    stream := stream
    writes := 0
    trace := [] }

/-- The connection gets as far as committing `ex`, in the world `w₁`. -/
def Authorised (env : HandlerEnv P) (w : World) (ex : Exchange) (w₁ : World) : Prop :=
  env.setReadTimeout = .ok () ∧ env.setWriteTimeout = .ok () ∧
    ∃ first fin, Negotiated env w ex w₁ first fin

theorem Authorised.stores {w w₁ : World} {ex : Exchange} (h : Authorised env w ex w₁) :
    w₁.stores = w.stores := by
  rcases h with ⟨_, _, first, fin, hneg⟩
  rcases hneg.frames with ⟨s₁, s₂, _, _, rfl⟩
  rfl

theorem handleConnection_of_authorised {w w₁ : World} {ex : Exchange}
    (h : Authorised env w ex w₁) : handleConnection env w = commit env ex w₁ := by
  rcases h with ⟨hread, hwrite, hneg⟩
  unfold handleConnection
  rw [hread, hwrite]
  exact Conn.bind_of_ok (negotiate_ok_iff.2 hneg)

/-- A connection either only exchanges frames, or commits one authorised exchange. -/
theorem handleConnection_cases (env : HandlerEnv P) (w : World) :
    (OnlyFrames w (handleConnection env w).2 ∧ ∀ ex w₁, ¬ Authorised env w ex w₁) ∨
      ∃ ex w₁, Authorised env w ex w₁ ∧ handleConnection env w = commit env ex w₁ := by
  by_cases hauth : ∃ ex w₁, Authorised env w ex w₁
  · rcases hauth with ⟨ex, w₁, h⟩
    exact .inr ⟨ex, w₁, h, handleConnection_of_authorised h⟩
  -- no exchange is authorised, so `negotiate` ends the connection
  · refine .inl ⟨?_, fun ex w₁ h => hauth ⟨ex, w₁, h⟩⟩
    unfold handleConnection
    cases hread : env.setReadTimeout with
    | error e => exact .refl w
    | ok _ =>
        cases hwrite : env.setWriteTimeout with
        | error e => exact .refl w
        | ok _ =>
            change OnlyFrames w ((negotiate env >>= _) w).2
            have hquiet := quiet_negotiate env w
            rw [Conn.bind_apply]
            rcases hneg : negotiate env w with ⟨e | r, w₁⟩
            · rw [hneg] at hquiet
              exact hquiet
            · rw [hneg] at hquiet
              cases r with
              | inl result => exact hquiet
              | inr ex => exact absurd ⟨ex, w₁, hread, hwrite, negotiate_ok_iff.1 hneg⟩ hauth

/-! ## A client that proves itself -/

/-- The first message of a handshake, or of a rekey that claims a session. -/
def firstMessage (hello : ClientHello AlgoCode) : Option (Bytes 16) → Message AlgoCode
  | none => .clientHello hello
  | some sid => .rekeyRequest { sessionId := sid, hello := hello }

/-- The `ClientFinish` of a client that holds the keys of `outcome`. -/
def finishFor (P : Primitives) (outcome : HandshakeOutcome) (sessionId : Bytes 16) : ClientFinish :=
  { sessionId := sessionId
    clientTag := clientTag P outcome.keys.confirmKey outcome.transcript }

/-- The bytes of a client that sends `hello` and answers with the right tag, then hangs up. -/
def provingStream (env : HandlerEnv P) (hello : ClientHello AlgoCode)
    (rekeySession : Option (Bytes 16)) : Stream :=
  let sessionId := rekeySession.getD env.randSession
  match Handshake.respond env.identity hello sessionId env.serverNonce env.seed with
  | .error _ => { bytes := [], atEnd := .unexpectedEof }
  | .ok outcome =>
      match (firstMessage hello rekeySession).write,
          (Message.clientFinish (finishFor P outcome sessionId) : Message AlgoCode).write with
      | .ok f₁, .ok f₂ => { bytes := f₁ ++ (f₂ ++ []), atEnd := .unexpectedEof }
      | _, _ => { bytes := [], atEnd := .unexpectedEof }

theorem firstMessage_spec {hello : ClientHello AlgoCode} (h : hello.WellSized)
    (rekeySession : Option (Bytes 16)) :
    helloOf (firstMessage hello rekeySession) = some (hello, rekeySession) ∧
      (firstMessage hello rekeySession).Decodes ∧
      ∃ f, (firstMessage hello rekeySession).write = .ok f := by
  cases rekeySession with
  | none => exact ⟨rfl, decodes_clientHello h, clientHello_writes h⟩
  | some sid => exact ⟨rfl, decodes_rekeyRequest h, rekeyRequest_writes h⟩

/-- On a working transport such a client is authorised. -/
theorem authorised_of_provingStream {stores : Stores} {hello : ClientHello AlgoCode}
    {rekeySession : Option (Bytes 16)} {outcome : HandshakeOutcome}
    (hread : env.setReadTimeout = .ok ()) (hwrite : env.setWriteTimeout = .ok ())
    (hio : env.writeAll 0 = .ok ()) (hsized : hello.WellSized)
    (hrespond : Handshake.respond env.identity hello (rekeySession.getD env.randSession)
      env.serverNonce env.seed = .ok outcome) :
    ∃ w₁, Authorised env (.start stores (provingStream env hello rekeySession))
      { hello, rekeySession, sessionId := rekeySession.getD env.randSession, outcome } w₁ := by
  rcases firstMessage_spec hsized rekeySession with ⟨hof, hdecodes, f₁, hf₁⟩
  rcases clientFinish_writes (A := AlgoCode) (finishFor P outcome (rekeySession.getD env.randSession))
    with ⟨f₂, hf₂⟩
  have hstream : (World.start stores (provingStream env hello rekeySession)).stream =
      ⟨f₁ ++ (f₂ ++ []), .unexpectedEof⟩ := by
    simp only [World.start, provingStream, hrespond, hf₁, hf₂]
  have hneg := negotiated_of_frames env hof hdecodes hf₁ hrespond hio rfl rfl hf₂ hstream
  exact ⟨_, hread, hwrite, _, _, hneg⟩

end Server
end PqcVpn
