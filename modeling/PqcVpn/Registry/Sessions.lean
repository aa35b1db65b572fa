import PqcVpn.Registry.History

/-!
# Sessions — no downgrade without a fresh handshake

Between two fresh handshakes of a peer its session and address stay, its algorithm only rises and
its counter counts rekeys.  `Since` relates a peer's record to the one the handshake left; every
operation short of a new handshake or a removal keeps it.
-/

namespace PqcVpn
namespace Registry

open Wire

/-! ## One rekey -/

/-- A rekey succeeds exactly for a registered peer that claims its current session at an algorithm
not weaker than the recorded one. -/
theorem rekey_ok_iff (r : Registry) (now : SystemTime) (pk : Bytes 32) (claimed : Bytes 16)
    (algo : AlgoCode) :
    (∃ slot, (r.rekey now pk claimed algo).1 = .ok slot) ↔
      ∃ p, r.inner.lookup pk = some p ∧ p.sessionId = claimed ∧ p.algo ≤ algo := by
  rcases rekey_cases r now pk claimed algo with ⟨p, hp, hsid, halgo, h⟩ | ⟨e, hnot, h⟩
  · constructor
    · intro _
      exact ⟨p, hp, hsid, halgo⟩
    · intro _
      exact ⟨_, by rw [h]⟩
  · constructor
    · rintro ⟨slot, hslot⟩
      rw [h] at hslot
      cases hslot
    · rintro ⟨p, hp, hsid, halgo⟩
      exact absurd halgo (hnot p hp hsid)

/-- A successful rekey records the algorithm it asked for. -/
theorem rekey_ok_algo {r : Registry} {now : SystemTime} {pk : Bytes 32} {claimed : Bytes 16}
    {algo : AlgoCode} {slot : PeerSlot} (hok : (r.rekey now pk claimed algo).1 = .ok slot) :
    ∃ p, (r.rekey now pk claimed algo).2.inner.lookup pk = some p ∧ p.algo = algo := by
  rcases rekey_cases r now pk claimed algo with ⟨p, _, _, _, h⟩ | ⟨e, _, h⟩
  · refine ⟨p.rekeyed now algo, ?_, rfl⟩
    rw [h]
    exact Finmap.lookup_insert _
  · rw [h] at hok
    cases hok

/-- An operation that is refused changes nothing. -/
theorem exec_error {r : Registry} {op : Op} {e : RegistryError}
    (h : (r.exec op).1 = .slot (.error e)) : (r.exec op).2 = r := by
  cases op with
  | upsertHandshake now pk algo sid =>
      rcases upsertHandshake_cases r now pk algo sid with
        ⟨p, _, hr⟩ | ⟨ip, _, _, _, hr⟩ | ⟨e', _, hr⟩
      · simp [exec, hr] at h
      · simp [exec, hr] at h
      · simp only [exec, hr]
  | rekey now pk claimed algo =>
      rcases rekey_cases r now pk claimed algo with ⟨p, _, _, _, hr⟩ | ⟨e', _, hr⟩
      · simp [exec, hr] at h
      · simp only [exec, hr]
  | touch now pk => simp [exec] at h
  | remove pk => simp [exec, remove] at h
  | idlePeers timeout now => simp [exec] at h
  | persist => simp [exec] at h

/-! ## The stretch after a handshake -/

/-- A successful fresh handshake of `pk`. -/
def IsHandshake (pk : Bytes 32) (e : Op × Reply) : Prop :=
  ∃ now algo sid slot, e = (.upsertHandshake now pk algo sid, .slot (.ok slot))

/-- A successful rekey of `pk`. -/
def isRekey (pk : Bytes 32) : Op × Reply → Bool
  | (.rekey _ pk' _ _, .slot (.ok _)) => decide (pk' = pk)
  | _ => false

/-- Neither a successful handshake of `pk` nor its removal. -/
def Continues (pk : Bytes 32) (e : Op × Reply) : Prop :=
  ¬ IsHandshake pk e ∧ e.1 ≠ .remove pk

/-- The successful rekeys of `pk` in a trace. -/
def rekeyCount (pk : Bytes 32) (trace : List (Op × Reply)) : Nat := trace.countP (isRekey pk)

/-- The record `q` of a peer, `n` rekeys after its record was `p`. -/
structure Since (p : Peer) (n : Nat) (q : Peer) : Prop where
  sessionId : q.sessionId = p.sessionId
  assignedIp : q.assignedIp = p.assignedIp
  algo : p.algo ≤ q.algo
  rekeys : q.rekeys = p.rekeys + n

theorem Since.refl (p : Peer) : Since p 0 p where
  sessionId := rfl
  assignedIp := rfl
  algo := le_rfl
  rekeys := rfl

theorem Since.trans {p q s : Peer} {m n : Nat} (h₁ : Since p m q) (h₂ : Since q n s) :
    Since p (m + n) s where
  sessionId := h₂.sessionId.trans h₁.sessionId
  assignedIp := h₂.assignedIp.trans h₁.assignedIp
  algo := h₁.algo.trans h₂.algo
  rekeys := by rw [h₂.rekeys, h₁.rekeys, Nat.add_assoc]

/-- An operation that is not about `pk` is not one of its rekeys. -/
theorem isRekey_of_key_ne {pk : Bytes 32} {op : Op} {reply : Reply} (h : op.key ≠ some pk) :
    isRekey pk (op, reply) = false := by
  unfold isRekey
  split
  · rename_i pk' _ _ _ heq
    cases heq
    exact decide_eq_false fun hpk => h (congrArg some hpk)
  · rfl

/-- One step: the peer is still there, with its counter advanced by its own rekeys only. -/
theorem since_exec {r : Registry} {op : Op} {pk : Bytes 32} {p : Peer}
    (hp : r.inner.lookup pk = some p) (hcont : Continues pk (op, (r.exec op).1)) :
    ∃ q, (r.exec op).2.inner.lookup pk = some q ∧
      Since p (isRekey pk (op, (r.exec op).1)).toNat q := by
  by_cases hkey : op.key = some pk
  · cases op with
    | upsertHandshake now pk' algo sid =>
        cases hkey
        rcases upsertHandshake_cases r now pk algo sid with ⟨q, _, h⟩ | ⟨ip, hnone, _⟩ | ⟨e, hnone, _⟩
        · -- a handshake that succeeds would end the stretch
          have hshake : IsHandshake pk (.upsertHandshake now pk algo sid,
              (r.exec (.upsertHandshake now pk algo sid)).1) :=
            ⟨now, algo, sid, (q.reconnected now algo sid).slot, by simp only [exec, h]⟩
          exact absurd hshake hcont.1
        · simp [hp] at hnone
        · simp [hp] at hnone
    | rekey now pk' claimed algo =>
        cases hkey
        rcases rekey_cases r now pk claimed algo with ⟨q, hq, hsid, halgo, h⟩ | ⟨e, _, h⟩
        · rw [hp] at hq
          cases hq
          refine ⟨p.rekeyed now algo, by simp only [exec, h]; exact Finmap.lookup_insert _, ?_⟩
          simp only [exec, h, isRekey, decide_true, Bool.toNat_true]
          exact { sessionId := rfl, assignedIp := rfl, algo := halgo, rekeys := rfl }
        · refine ⟨p, by simpa only [exec, h] using hp, ?_⟩
          simp only [exec, h, isRekey, Bool.toNat_false]
          exact .refl p
    | touch now pk' =>
        cases hkey
        have hinner := inner_touch r now pk
        rw [hp] at hinner
        refine ⟨{ p with lastActivity := now }, ?_, ?_⟩
        · simp only [exec, hinner]
          exact Finmap.lookup_insert _
        · exact { sessionId := rfl, assignedIp := rfl, algo := le_rfl, rekeys := rfl }
    | remove pk' =>
        cases hkey
        exact absurd rfl hcont.2
    | idlePeers timeout now => cases hkey
    | persist => cases hkey
  · -- an operation of somebody else
    refine ⟨p, by rw [lookup_exec_of_ne hkey, hp], ?_⟩
    rw [isRekey_of_key_ne hkey]
    exact .refl p

/-- A whole stretch of operations. -/
theorem since_run {r : Registry} {ops : List Op} {pk : Bytes 32} {p : Peer}
    (hp : r.inner.lookup pk = some p) (hcont : ∀ e ∈ r.trace ops, Continues pk e) :
    ∃ q, (r.run ops).inner.lookup pk = some q ∧ Since p (rekeyCount pk (r.trace ops)) q := by
  induction ops generalizing r p with
  | nil => exact ⟨p, hp, .refl p⟩
  | cons op ops ih =>
      rw [trace_cons, List.forall_mem_cons] at hcont
      rcases since_exec hp hcont.1 with ⟨q, hq, hpq⟩
      rcases ih hq hcont.2 with ⟨s, hs, hqs⟩
      refine ⟨s, hs, ?_⟩
      -- the first operation counts once if it was a rekey of this peer
      have hcount : rekeyCount pk (r.trace (op :: ops)) =
          (isRekey pk (op, (r.exec op).1)).toNat + rekeyCount pk ((r.exec op).2.trace ops) := by
        calc
          rekeyCount pk (r.trace (op :: ops))
              = rekeyCount pk ((r.exec op).2.trace ops) +
                  if isRekey pk (op, (r.exec op).1) then 1 else 0 := by
                rw [rekeyCount, trace_cons, List.countP_cons]
                rfl
          _ = (isRekey pk (op, (r.exec op).1)).toNat + rekeyCount pk ((r.exec op).2.trace ops) := by
                rw [Nat.add_comm]
                cases isRekey pk (op, (r.exec op).1) <;> rfl
      rw [hcount]
      exact hpq.trans hqs

/-- What a successful handshake leaves. -/
theorem upsertHandshake_ok {r : Registry} {now : SystemTime} {pk : Bytes 32} {algo : AlgoCode}
    {sid : Bytes 16} {slot : PeerSlot} (h : (r.upsertHandshake now pk algo sid).1 = .ok slot) :
    ∃ p, (r.upsertHandshake now pk algo sid).2.inner.lookup pk = some p ∧
      p.sessionId = sid ∧ p.algo = algo ∧ p.rekeys = 0 ∧ p.slot = slot := by
  rcases upsertHandshake_stores h with ⟨p, hslot, hsession, halgo, hrekeys, hstored⟩
  rw [hstored]
  exact ⟨p, Finmap.lookup_insert _, hsession, halgo, hrekeys, hslot⟩

/-- No downgrade without a fresh handshake, in every registry state.  From a successful handshake of
`pk` and as long as neither another one nor a removal follows: the session and address are those of
the handshake, the counter is the number of successful rekeys since, and the algorithm at any
earlier point is at most the one now.  A rekey succeeds exactly when the peer is registered, claims
its current session and asks for at least the recorded algorithm, and records what it asked for.
A refused operation changes nothing, and no operation changes another peer's record. -/
theorem no_downgrade_without_handshake :
    (∀ (r : Registry) (now : SystemTime) (pk : Bytes 32) (algo : AlgoCode) (sid : Bytes 16)
      (slot : PeerSlot) (ops : List Op),
      (r.upsertHandshake now pk algo sid).1 = .ok slot →
      (∀ e ∈ (r.upsertHandshake now pk algo sid).2.trace ops, Continues pk e) →
      ∃ p, ((r.upsertHandshake now pk algo sid).2.run ops).inner.lookup pk = some p ∧
        p.sessionId = sid ∧ p.assignedIp = slot.assignedIp ∧
        p.rekeys = rekeyCount pk ((r.upsertHandshake now pk algo sid).2.trace ops) ∧
        ∀ ops₁ ops₂, ops = ops₁ ++ ops₂ →
          ∃ q, ((r.upsertHandshake now pk algo sid).2.run ops₁).inner.lookup pk = some q ∧
            algo ≤ q.algo ∧ q.algo ≤ p.algo) ∧
    (∀ (r : Registry) (now : SystemTime) (pk : Bytes 32) (claimed : Bytes 16) (algo : AlgoCode),
      ((∃ slot, (r.rekey now pk claimed algo).1 = .ok slot) ↔
        ∃ p, r.inner.lookup pk = some p ∧ p.sessionId = claimed ∧ p.algo ≤ algo) ∧
      ∀ slot, (r.rekey now pk claimed algo).1 = .ok slot →
        ∃ p, (r.rekey now pk claimed algo).2.inner.lookup pk = some p ∧ p.algo = algo) ∧
    (∀ (r : Registry) (op : Op) (e : RegistryError),
      (r.exec op).1 = .slot (.error e) → (r.exec op).2.inner = r.inner) ∧
    ∀ (r : Registry) (op : Op) (j : Bytes 32),
      op.key ≠ some j → (r.exec op).2.inner.lookup j = r.inner.lookup j := by
  refine ⟨?_, ?_, ?_, ?_⟩
  · intro r now pk algo sid slot ops hok hcont
    rcases upsertHandshake_ok hok with ⟨p₀, hp₀, hsid, halgo, hrekeys, hslot⟩
    rcases since_run hp₀ hcont with ⟨p, hp, hsince⟩
    refine ⟨p, hp, hsince.sessionId.trans hsid, ?_, ?_, ?_⟩
    · rw [hsince.assignedIp, ← hslot]
      rfl
    · rw [hsince.rekeys, hrekeys, Nat.zero_add]
    · -- the stretch splits at the earlier point, and the algorithm grows over both parts
      rintro ops₁ ops₂ rfl
      rw [trace_append, List.forall_mem_append] at hcont
      rcases since_run hp₀ hcont.1 with ⟨q, hq, h₁⟩
      rcases since_run hq hcont.2 with ⟨s, hs, h₂⟩
      rw [run_append, hs] at hp
      cases hp
      exact ⟨q, hq, halgo ▸ h₁.algo, h₂.algo⟩
  · intro r now pk claimed algo
    exact ⟨rekey_ok_iff r now pk claimed algo, fun slot hok => rekey_ok_algo hok⟩
  · intro r op e h
    rw [exec_error h]
  · intro r op j hj
    exact lookup_exec_of_ne hj

end Registry
end PqcVpn
