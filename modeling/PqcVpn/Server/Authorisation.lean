import PqcVpn.Server.Reference

/-!
# Authorisation — no effect before the client proved itself

Whatever bytes a connection is fed, a store changes only after the trace shows a hello that was read
and answered and a `ClientFinish` carrying the exchange's session and the tag of its transcript.
-/

namespace PqcVpn
namespace Server

open Crypto Handshake Registry Wire

variable {P : Primitives} {env : HandlerEnv P}

/-- A change others can see: a registry call that succeeded, or a call of the installer. -/
inductive Event.IsEffect : Event → Prop
  | updated (slot : PeerSlot) : IsEffect (.updated (.ok slot))
  | called (call : InstallerCall) (result : Except InstallError Unit) : IsEffect (.called call result)

theorem Event.IsEffect.not_frame {e : Event} (h : e.IsEffect) : e.isFrame = false := by
  cases h <;> rfl

/-- What the trace shows before the first effect, for the exchange `ex`. -/
structure ClientProved (env : HandlerEnv P) (ex : Exchange) (trace : List Event) : Prop where
  frames : ∃ first fin rest,
    trace = .received first :: .sent (.serverHello ex.outcome.serverHello) ::
      .received (.clientFinish fin) :: rest ∧
    helloOf first = some (ex.hello, ex.rekeySession) ∧
    fin.sessionId = ex.outcome.serverHello.sessionId ∧
    fin.clientTag = P.hmac ex.outcome.keys.confirmKey (labelClientFinished ++ ex.outcome.transcript)
  respond : Handshake.respond env.identity ex.hello (ex.rekeySession.getD env.randSession)
    env.serverNonce env.seed = .ok ex.outcome

theorem clientProved_of_authorised {stores : Stores} {stream : Stream} {ex : Exchange} {w₁ w' : World}
    (h : Authorised env (.start stores stream) ex w₁) {rest : List Event}
    (htrace : w'.trace = w₁.trace ++ rest) : ClientProved env ex w'.trace := by
  rcases h with ⟨_, _, first, fin, hneg⟩
  rcases hneg.frames with ⟨s₁, s₂, _, _, rfl⟩
  have hsession : ex.outcome.serverHello.sessionId = ex.sessionId := by
    rcases Handshake.respond_ok rfl hneg.respond with ⟨_, _, _, _, _, _, hreply⟩
    rw [hreply]
  exact
    { frames := ⟨first, fin, rest, by simpa [World.start] using htrace, hneg.hello,
        hneg.finSession.trans hsession.symm, hneg.finTag.trans (tag_eq_hmac P _ _ _)⟩
      respond := hneg.sessionId ▸ hneg.respond }

/-- What an effect entails: a proof by the client, at most one install, for the peer and with the
PSK of this very exchange at the address the registry holds, and on the rekey path a registered peer
that claimed its session at an algorithm not stronger than the one asked for. -/
structure EffectsOf (ex : Exchange) (before after : Stores) (trace : List Event) : Prop where
  one : trace.countP Event.isInstall ≤ 1
  installs : ∀ peer psk ip algo result, .called (.install peer psk ip algo) result ∈ trace →
    peer = ex.hello.clientWgPubkey ∧ psk = ex.outcome.keys.psk ∧
      ∃ p, after.registry.inner.lookup peer = some p ∧ p.assignedIp = ip
  rekey : ∀ sid, ex.rekeySession = some sid →
    ∃ p, before.registry.inner.lookup ex.hello.clientWgPubkey = some p ∧ p.sessionId = sid ∧
      p.algo ≤ ex.hello.algo

theorem Exchange.Accepts.rekey_registered {ex : Exchange} {r : Registry} {ip : Ipv4Addr}
    (h : ex.Accepts r ip) {sid : Bytes 16} (hsid : ex.rekeySession = some sid) :
    ∃ p, r.inner.lookup ex.peer = some p ∧ p.sessionId = sid ∧ p.algo ≤ ex.hello.algo := by
  cases h with
  | rekey hkind hlookup hsession halgo =>
      rw [hsid] at hkind
      cases hkind
      exact ⟨_, hlookup, hsession, halgo⟩
  | known hkind _ => simp [hsid] at hkind
  | new hkind _ _ _ => simp [hsid] at hkind

/-- Up to the commit the trace holds only frames. -/
theorem Authorised.onlyFrames {w w₁ : World} {ex : Exchange} (h : Authorised env w ex w₁) :
    OnlyFrames w w₁ := by
  have hquiet := quiet_negotiate env w
  rw [negotiate_ok_iff.2 h.2.2] at hquiet
  exact hquiet

/-- The installs of a commit that called the installer once. -/
theorem effectsOf_called {ex : Exchange} {stores : Stores} {w₀ w₁ w₂ w' : World} {q : Peer}
    {result : Except InstallError Unit} {rest : List Event}
    (hstart : w₀.trace = []) (hframes : OnlyFrames w₀ w₁)
    (haccepts : ex.Accepts stores.registry q.assignedIp)
    (hregistry : w₂.stores.registry = stores.registry.store ex.peer q)
    (htrace : w₂.trace = w₁.trace ++ .updated (.ok q.slot) :: .called (ex.installCall q.slot) result ::
      rest)
    (hrest : ∀ e ∈ rest, e.isInstall = false ∧ ∀ call r, e ≠ .called call r)
    (h : OnlyFrames w₂ w') : EffectsOf ex stores w'.stores w'.trace where
  one := by
    -- neither the frames before nor the events after are calls of the installer
    have hzero : rest.countP Event.isInstall = 0 := by
      rw [List.countP_eq_zero]
      intro e he
      simp [(hrest e he).1]
    rw [h.countP_isInstall, htrace, List.countP_append, hframes.countP_isInstall, hstart]
    simp [List.countP_cons, Event.isInstall, Exchange.installCall, hzero]
  installs := by
    intro peer psk ip algo result' hmem
    rw [h.mem_iff rfl, htrace, List.mem_append, hframes.mem_iff rfl, hstart] at hmem
    simp only [List.not_mem_nil, List.mem_cons, reduceCtorEq, false_or] at hmem
    rcases hmem with hcall | hmem
    · simp only [Exchange.installCall, Event.called.injEq, InstallerCall.install.injEq] at hcall
      rcases hcall with ⟨⟨rfl, rfl, rfl, rfl⟩, rfl⟩
      refine ⟨rfl, rfl, q, ?_, rfl⟩
      rw [h.stores, hregistry]
      exact Finmap.lookup_insert _
    · exact absurd rfl ((hrest _ hmem).2 _ _)
  rekey := fun _ hsid => haccepts.rekey_registered hsid

/-- For every byte stream, registry and choice of session and nonce: if the registry changed or the
registry or installer was called with effect, the client proved itself over the exchange that caused
it, and that exchange accounts for all of it.  The handler never removes a peer. -/
theorem effects_only_after_proof (env : HandlerEnv P) (stores : Stores) (stream : Stream) :
    (((handleConnection env (.start stores stream)).2.stores.registry.inner ≠
          stores.registry.inner ∨
        ∃ e ∈ (handleConnection env (.start stores stream)).2.trace, e.IsEffect) →
      ∃ ex, ClientProved env ex (handleConnection env (.start stores stream)).2.trace ∧
        EffectsOf ex stores (handleConnection env (.start stores stream)).2.stores
          (handleConnection env (.start stores stream)).2.trace) ∧
    ∀ peer result, .called (.removePeer peer) result ∉
      (handleConnection env (.start stores stream)).2.trace := by
  rcases handleConnection_cases env (.start stores stream) with
    ⟨hquiet, _⟩ | ⟨ex, w₁, hauth, hrun⟩
  · -- a connection that only exchanged frames
    refine ⟨?_, ?_⟩
    · rintro (hchanged | ⟨e, he, heffect⟩)
      · exact absurd (by rw [hquiet.stores]; rfl) hchanged
      · rw [hquiet.mem_iff heffect.not_frame] at he
        cases he
    · intro peer result hmem
      rw [hquiet.mem_iff rfl] at hmem
      cases hmem
  · have hstores : w₁.stores = stores := hauth.stores
    have hframes := hauth.onlyFrames
    rw [hrun]
    cases commit_cases env ex w₁ with
    | refused e hnot h =>
        -- the refusal itself is all that joins the frames, and it has no effect
        have hmem : ∀ e' : Event, e'.isFrame = false →
            e' ∈ (commit env ex w₁).2.trace → e' = .updated (.error e) := by
          intro e' hframe he'
          rw [h.mem_iff hframe, List.mem_append, hframes.mem_iff hframe] at he'
          simpa [World.start] using he'
        refine ⟨?_, ?_⟩
        · rintro (hchanged | ⟨e', he', heffect⟩)
          · exact absurd (by rw [h.stores, hstores]) hchanged
          · rw [hmem e' heffect.not_frame he'] at heffect
            cases heffect
        · intro peer result he'
          cases hmem _ rfl he'
    | notInstalled q e haccepts hsame hinstall h =>
        -- the registry was updated, so the exchange has to account for it
        rw [hstores] at haccepts
        refine ⟨fun _ => ⟨ex, ?_, ?_⟩, ?_⟩
        · rcases h.trace with ⟨evs, htrace, _⟩
          exact clientProved_of_authorised hauth (htrace.trans (List.append_assoc _ _ _))
        · exact effectsOf_called rfl hframes haccepts (by rw [hstores]) rfl (by simp) h
        · intro peer result hmem
          rw [h.mem_iff rfl, List.mem_append, hframes.mem_iff rfl] at hmem
          simp [World.start, Exchange.installCall] at hmem
    | installed q onDisk persisted haccepts hsession halgo hinstall h =>
        rw [hstores] at haccepts
        refine ⟨fun _ => ⟨ex, ?_, ?_⟩, ?_⟩
        · rcases h.trace with ⟨evs, htrace, _⟩
          exact clientProved_of_authorised hauth (htrace.trans (List.append_assoc _ _ _))
        · refine effectsOf_called rfl hframes haccepts (by rw [hstores]) rfl ?_ h
          simp [Event.isInstall]
        · intro peer result hmem
          rw [h.mem_iff rfl, List.mem_append, hframes.mem_iff rfl] at hmem
          simp [World.start, Exchange.installCall] at hmem

end Server
end PqcVpn
