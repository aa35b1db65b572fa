import PqcVpn.Server.Reference

/-!
# Atomicity — a connection that installs nothing should change nothing

The handler updates the registry before it calls the installer, and an installer that fails leaves
the update in place.  `registry_unchanged_iff` says exactly when a connection that ends without a successful
install leaves the registry's map as it was.
-/

namespace PqcVpn
namespace Server

open Crypto Handshake Registry Wire

variable {P : Primitives} {env : HandlerEnv P}

/-- Some call of `install` succeeded. -/
def Installed (trace : List Event) : Prop :=
  ∃ peer psk ip algo, Event.called (.install peer psk ip algo) (.ok ()) ∈ trace

theorem OnlyFrames.installed_iff {w w' : World} (h : OnlyFrames w w') :
    Installed w'.trace ↔ Installed w.trace := by
  have hmem : ∀ peer psk ip algo, Event.called (.install peer psk ip algo) (.ok ()) ∈ w'.trace ↔
      Event.called (.install peer psk ip algo) (.ok ()) ∈ w.trace :=
    fun peer psk ip algo => h.mem_iff rfl
  simp only [Installed, hmem]

/-- Up to the commit nothing was installed. -/
theorem Authorised.not_installed {stores : Stores} {stream : Stream} {ex : Exchange} {w₁ : World}
    (h : Authorised env (.start stores stream) ex w₁) : ¬ Installed w₁.trace := by
  rcases h with ⟨_, _, first, fin, hneg⟩
  rcases hneg.frames with ⟨s₁, s₂, _, _, rfl⟩
  rintro ⟨peer, psk, ip, algo, hmem⟩
  simp [World.start] at hmem

theorem Exchange.Accepts.unique {ex : Exchange} {r : Registry} {ip ip' : Ipv4Addr}
    (h : ex.Accepts r ip) (h' : ex.Accepts r ip') : ip = ip' := by
  cases h <;> cases h' <;> simp_all

/-- The condition under which the handler keeps its stores together: whatever exchange is authorised
and accepted by the registry, the installer takes it, or the update writes back what was there. -/
def InstallsWhatItUpdates (env : HandlerEnv P) (stores : Stores) (stream : Stream) : Prop :=
  ∀ ex w₁ ip, Authorised env (.start stores stream) ex w₁ → ex.Accepts stores.registry ip →
    env.install ex.peer ex.outcome.keys.psk ip ex.hello.algo = .ok () ∨
      ex.Rewrites env.now stores.registry

/-- What a failing install leaves behind. -/
theorem handleConnection_of_install_error {stores : Stores} {stream : Stream} {ex : Exchange}
    {w₁ : World} {ip : Ipv4Addr} {e : InstallError}
    (hauth : Authorised env (.start stores stream) ex w₁) (haccepts : ex.Accepts stores.registry ip)
    (hfail : env.install ex.peer ex.outcome.keys.psk ip ex.hello.algo = .error e) :
    ¬ Installed (handleConnection env (.start stores stream)).2.trace ∧
      ((handleConnection env (.start stores stream)).2.stores.registry.inner =
          stores.registry.inner ↔ ex.Rewrites env.now stores.registry) := by
  have hstores : w₁.stores = stores := hauth.stores
  rw [handleConnection_of_authorised hauth]
  -- the registry accepts and the installer does not, so only one outcome is left
  cases commit_cases env ex w₁ with
  | refused e' hnot h => exact absurd haccepts (hstores ▸ hnot ip)
  | notInstalled q e' hacc hsame hinstall h =>
      rw [hstores] at hsame
      refine ⟨?_, ?_⟩
      · rw [h.installed_iff]
        rintro ⟨peer, psk, ip', algo, hmem⟩
        rcases List.mem_append.1 hmem with hmem | hmem
        · exact hauth.not_installed ⟨peer, psk, ip', algo, hmem⟩
        · simp at hmem
      · rw [h.stores, ← hsame, ← Table.insert_eq_self_iff]
        simp [hstores]
  | installed q onDisk persisted hacc hsession halgo hinstall h =>
      rw [hstores] at hacc
      have hip : q.assignedIp = ip := hacc.unique haccepts
      rw [Exchange.installResult, Peer.slot_assignedIp, hip, hfail] at hinstall
      cases hinstall

/-- A connection that ends without a successful install leaves the registry's map as it was, exactly
when every exchange it authorises and the registry accepts is also taken by the installer (or
changed nothing to begin with). -/
theorem registry_unchanged_iff (env : HandlerEnv P) (stores : Stores) (stream : Stream) :
    (¬ Installed (handleConnection env (.start stores stream)).2.trace →
      (handleConnection env (.start stores stream)).2.stores.registry.inner =
        stores.registry.inner) ↔
    InstallsWhatItUpdates env stores stream := by
  constructor
  -- a connection that fails at the installer has already stored the record
  · intro hclaim ex w₁ ip hauth haccepts
    cases hinstall : env.install ex.peer ex.outcome.keys.psk ip ex.hello.algo with
    | ok u => exact .inl rfl
    | error e =>
        rcases handleConnection_of_install_error hauth haccepts hinstall with ⟨hnot, hiff⟩
        exact .inr (hiff.1 (hclaim hnot))
  · intro hcond hnot
    -- without an install the connection was quiet, was refused, or failed to install
    rcases handleConnection_cases env (.start stores stream) with
      ⟨hquiet, _⟩ | ⟨ex, w₁, hauth, hrun⟩
    · rw [hquiet.stores]
      rfl
    · have hstores : w₁.stores = stores := hauth.stores
      rw [hrun] at hnot ⊢
      cases commit_cases env ex w₁ with
      | refused e hnone h => rw [h.stores, hstores]
      | notInstalled q e hacc hsame hinstall h =>
          rw [hstores] at hacc hsame
          rcases hcond ex w₁ _ hauth hacc with hok | hrewrites
          · rw [Exchange.installResult, Peer.slot_assignedIp, hok] at hinstall
            cases hinstall
          · rw [h.stores]
            simpa [hstores] using Table.insert_of_lookup (hsame.2 hrewrites)
      | installed q onDisk persisted hacc hsession halgo hinstall h =>
          refine absurd (h.installed_iff.2 ?_) hnot
          exact ⟨_, _, _, _, List.mem_append_right _ (List.mem_cons_of_mem _ List.mem_cons_self)⟩

/-- An installer that cannot run `wg`. -/
noncomputable def Reference.failingEnv : HandlerEnv Crypto.Reference.primitives :=
  Reference.env fun _ _ _ _ => .error (.spawn "No such file or directory")

/-- A first handshake whose install fails leaves the new peer registered. -/
theorem registry_changed_by_failed_install :
    ¬ (¬ Installed (handleConnection Reference.failingEnv
          (.start Reference.stores (provingStream Reference.failingEnv Reference.hello none))).2.trace →
        (handleConnection Reference.failingEnv
          (.start Reference.stores
            (provingStream Reference.failingEnv Reference.hello none))).2.stores.registry.inner =
          Reference.stores.registry.inner) := by
  intro hclaim
  have hclient : ∃ ex w₁, Authorised Reference.failingEnv (.start Reference.stores
      (provingStream Reference.failingEnv Reference.hello none)) ex w₁ ∧
      ex.hello = Reference.hello ∧ ex.rekeySession = none := Reference.authorised _
  rcases hclient with ⟨ex, w₁, hauth, hhello, hkind⟩
  have haccepts := Reference.accepts_first hkind
  have hfail : Reference.failingEnv.install ex.peer ex.outcome.keys.psk (.new 10 8 0 2)
      ex.hello.algo = .error (.spawn "No such file or directory") := rfl
  rcases handleConnection_of_install_error hauth haccepts hfail with ⟨hnot, hiff⟩
  rcases hiff.1 (hclaim hnot) with ⟨_, p, hp, _⟩
  simp [Reference.stores, Registry.Reference.empty, Registry.new] at hp

end Server
end PqcVpn
