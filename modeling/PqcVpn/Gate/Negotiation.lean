import PqcVpn.Gate.Laws
import PqcVpn.Handshake.Respond
import PqcVpn.Registry.Reference
import PqcVpn.Registry.Sessions

/-!
# Negotiation — a gated client and the server's registry

Step 4 of `contracts/INTEGRATION.md`: a change of algorithm is a fresh handshake at the algorithm in
force, a rekey a `RekeyRequest` at it under the current session.  The client's gate only escalates
on a rekey and the registry refuses weaker ones, so the two never disagree, whatever the registry
does for other peers in between.
-/

namespace PqcVpn
namespace Gate

open Crypto (MlKemLevel)
open Handshake Registry Wire

/-- One client with its gate and current session, and the registry of its server. -/
structure Joint (R : Type) where
  gate : DecisionGate R
  sessionId : Bytes 16
  registry : Registry

/-- A tick of the client, with the clock reading and the session id the server would use, or an
operation of the registry that is none of the client's. -/
inductive Event (R : Type)
  | tick (probs : Probs R) (now : SystemTime) (sessionId : Bytes 16)
  | other (op : Op)

/-- What a tick decided and what the registry answered to the request it sent. -/
structure Outcome (R : Type) where
  decision : Option Decision
  reply : Option (Except RegistryError PeerSlot)
  after : Joint R

variable {R : Type} [LinearOrder R] [Sub R]

namespace Joint

/-- Act on a decision. -/
def act (j : Joint R) (wgPubkey : Bytes 32) (d : Decision) (now : SystemTime)
    (sessionId : Bytes 16) : Option (Except RegistryError PeerSlot) × Joint R :=
  if d.changeAlgorithm then
    let (result, registry) := j.registry.upsertHandshake now wgPubkey (codeOf d.inForce) sessionId
    match result with
    | .ok slot => (some result, { j with sessionId := slot.sessionId, registry })
    | .error _ => (some result, { j with registry })
  else if d.rekey then
    let (result, registry) := j.registry.rekey now wgPubkey j.sessionId (codeOf d.inForce)
    (some result, { j with registry })
  else
    (none, j)

def step (wgPubkey : Bytes 32) (j : Joint R) : Event R → Option (Outcome R)
  | .tick probs now sessionId => do
      let (d, gate) ← j.gate.update probs
      let (reply, after) := { j with gate }.act wgPubkey d now sessionId
      return { decision := some d, reply, after }
  | .other op =>
      some { decision := none, reply := none, after := { j with registry := (j.registry.exec op).2 } }

/-- The outcomes of a sequence of events. -/
def run (wgPubkey : Bytes 32) : Joint R → List (Event R) → Option (List (Outcome R))
  | _, [] => some []
  | j, e :: es => do
      let o ← j.step wgPubkey e
      let os ← o.after.run wgPubkey es
      return o :: os

end Joint

/-- An operation of the registry that neither reconnects, rekeys nor removes the peer: those of
other peers, persisting, looking for idle peers, noting activity. -/
def Spares (wgPubkey : Bytes 32) (op : Op) : Prop :=
  op.key ≠ some wgPubkey ∨ ∃ now, op = .touch now wgPubkey

/-! ## The joint invariant -/

theorem codeOf_le_iff {a b : MlKemLevel} : codeOf a ≤ codeOf b ↔ a ≤ b := by
  cases a <;> cases b <;> decide

/-- The registry holds the peer under the client's session, at the algorithm its gate has in
force. -/
def Registered (wgPubkey : Bytes 32) (j : Joint R) : Prop :=
  ∃ p, j.registry.inner.lookup wgPubkey = some p ∧ p.sessionId = j.sessionId ∧
    p.algo = codeOf j.gate.inForce

/-- The registry agrees with the gate, and the gate follows its rule. -/
structure Agrees (wgPubkey : Bytes 32) (p : Rule.Params R) (j : Joint R) : Prop where
  registered : Registered wgPubkey j
  follows : ∃ s, Refines j.gate p s

omit [LinearOrder R] [Sub R] in
theorem Registered.other {wgPubkey : Bytes 32} {j : Joint R} (h : Registered wgPubkey j) {op : Op}
    (hop : Spares wgPubkey op) :
    Registered wgPubkey { j with registry := (j.registry.exec op).2 } := by
  rcases h with ⟨p, hp, hsid, halgo⟩
  rcases hop with hkey | ⟨now, rfl⟩
  · exact ⟨p, by rw [lookup_exec_of_ne hkey, hp], hsid, halgo⟩
  · have hinner := inner_touch j.registry now wgPubkey
    rw [hp] at hinner
    refine ⟨{ p with lastActivity := now }, ?_, hsid, halgo⟩
    simp only [exec, hinner]
    exact Finmap.lookup_insert _

omit [LinearOrder R] [Sub R] in
/-- A fresh handshake of a registered peer is never refused. -/
theorem act_of_change {j : Joint R} {wgPubkey : Bytes 32} {p : Peer} {d : Decision}
    (hp : j.registry.inner.lookup wgPubkey = some p) (hchange : d.changeAlgorithm = true)
    (now : SystemTime) (sessionId : Bytes 16) :
    ∃ q : Peer, q.sessionId = sessionId ∧ q.algo = codeOf d.inForce ∧
      j.act wgPubkey d now sessionId = (some (.ok q.slot),
        { j with sessionId := q.sessionId, registry := j.registry.store wgPubkey q }) := by
  rcases upsertHandshake_cases j.registry now wgPubkey (codeOf d.inForce) sessionId with
    ⟨q, _, hr⟩ | ⟨_, hnone, _⟩ | ⟨_, hnone, _⟩
  · refine ⟨q.reconnected now (codeOf d.inForce) sessionId, rfl, rfl, ?_⟩
    simp only [Joint.act, hchange, if_true, hr]
    rfl
  · rw [hp] at hnone
    cases hnone
  · rw [hp] at hnone
    cases hnone

omit [LinearOrder R] [Sub R] in
/-- A rekey under the current session at an algorithm that is not weaker is never refused. -/
theorem act_of_rekey {j : Joint R} {wgPubkey : Bytes 32} {p : Peer} {d : Decision}
    (hp : j.registry.inner.lookup wgPubkey = some p) (hsid : p.sessionId = j.sessionId)
    (hle : p.algo ≤ codeOf d.inForce) (hchange : d.changeAlgorithm = false)
    (hrekey : d.rekey = true) (now : SystemTime) (sessionId : Bytes 16) :
    ∃ q : Peer, q.sessionId = j.sessionId ∧ q.algo = codeOf d.inForce ∧
      j.act wgPubkey d now sessionId = (some (.ok q.slot),
        { j with registry := j.registry.store wgPubkey q }) := by
  rcases rekey_cases j.registry now wgPubkey j.sessionId (codeOf d.inForce) with
    ⟨q, _, hqsid, _, hr⟩ | ⟨_, hnot, _⟩
  · refine ⟨q.rekeyed now (codeOf d.inForce), hqsid, rfl, ?_⟩
    simp only [Joint.act, hchange, hrekey, if_true, Bool.false_eq_true, if_false, hr]
  · exact absurd hle (hnot p hp hsid)

omit [LinearOrder R] [Sub R] in
theorem act_of_neither (j : Joint R) (wgPubkey : Bytes 32) {d : Decision}
    (hchange : d.changeAlgorithm = false) (hrekey : d.rekey = false) (now : SystemTime)
    (sessionId : Bytes 16) : j.act wgPubkey d now sessionId = (none, j) := by
  simp only [Joint.act, hchange, hrekey, Bool.false_eq_true, if_false]

/-- Whatever was asked of the registry was granted. -/
def Outcome.Granted (o : Outcome R) : Prop :=
  ∀ d, o.decision = some d → d.changeAlgorithm = true ∨ d.rekey = true →
    ∃ slot, o.reply = some (.ok slot)

/-- One tick: the request is granted, and the registry agrees with the gate again. -/
theorem Agrees.tick {wgPubkey : Bytes 32} {p : Rule.Params R} {j : Joint R}
    (h : Agrees wgPubkey p j) (probs : Probs R) (now : SystemTime) (sessionId : Bytes 16) :
    ∃ o, j.step wgPubkey (.tick probs now sessionId) = some o ∧ o.Granted ∧
      Agrees wgPubkey p o.after := by
  rcases h with ⟨⟨q, hq, hsid, halgo⟩, s, hs⟩
  rcases update_refines hs probs with ⟨gate, hupdate, hgate⟩
  have hin : j.gate.inForce = s.inForce := hs.inForce
  set d := Rule.decision p s probs with hd
  have hgin : gate.inForce = d.inForce := hgate.inForce
  have hstep : j.step wgPubkey (.tick probs now sessionId) = some
      { decision := some d
        reply := (Joint.act { j with gate } wgPubkey d now sessionId).1
        after := (Joint.act { j with gate } wgPubkey d now sessionId).2 } := by
    simp only [Joint.step, hupdate, Option.bind_eq_bind, Option.bind_some, Option.pure_def]
  refine ⟨_, hstep, ?_⟩
  -- a change is a fresh handshake, which the registry grants to any peer it has
  cases hchange : d.changeAlgorithm with
  | true =>
      rcases act_of_change (j := { j with gate }) hq hchange now sessionId with
        ⟨q', _, halgo', hact⟩
      rw [hact]
      refine ⟨fun _ _ _ => ⟨_, rfl⟩, ⟨q', Finmap.lookup_insert _, rfl, ?_⟩, _, hgate⟩
      rw [halgo', ← hgin]
  | false =>
      cases hrekey : d.rekey with
      | true =>
          -- a granted rekey never asks for less than what is in force, so it is no downgrade
          have hle : q.algo ≤ codeOf d.inForce := by
            rw [halgo, hin, codeOf_le_iff, hd, (Rule.inForce_of_rekey hrekey).1]
            split
            · exact le_max_left _ _
            · exact le_refl _
          rcases act_of_rekey (j := { j with gate }) hq hsid hle hchange hrekey now sessionId with
            ⟨q', hsid', halgo', hact⟩
          rw [hact]
          refine ⟨fun _ _ _ => ⟨_, rfl⟩, ⟨q', Finmap.lookup_insert _, hsid', ?_⟩, _, hgate⟩
          rw [halgo', ← hgin]
      | false =>
          -- nothing was asked, and the level in force is the one the registry holds
          have hsame : d.inForce = s.inForce := Rule.inForce_of_neither hchange hrekey
          rw [act_of_neither _ wgPubkey hchange hrekey]
          refine ⟨?_, ⟨q, hq, hsid, ?_⟩, _, hgate⟩
          · intro d' hd' hasked
            cases hd'
            rw [hchange, hrekey] at hasked
            simp at hasked
          · rw [halgo, hin, ← hsame, ← hgin]

/-- The events that leave the client registered. -/
def Event.Spares (wgPubkey : Bytes 32) : Event R → Prop
  | .tick _ _ _ => True
  | .other op => Gate.Spares wgPubkey op

theorem Agrees.step {wgPubkey : Bytes 32} {p : Rule.Params R} {j : Joint R}
    (h : Agrees wgPubkey p j) (e : Event R) (he : e.Spares wgPubkey) :
    ∃ o, j.step wgPubkey e = some o ∧ o.Granted ∧ Agrees wgPubkey p o.after := by
  cases e with
  | tick probs now sessionId =>
      exact h.tick probs now sessionId
  | other op =>
      refine ⟨_, rfl, ?_, h.registered.other he, h.follows⟩
      intro d hd
      cases hd

/-- A whole sequence of events. -/
theorem Agrees.run {wgPubkey : Bytes 32} {p : Rule.Params R} {j : Joint R}
    (h : Agrees wgPubkey p j) (es : List (Event R)) (hes : ∀ e ∈ es, e.Spares wgPubkey) :
    ∃ os, j.run wgPubkey es = some os ∧ os.length = es.length ∧
      ∀ o ∈ os, o.Granted ∧ Registered wgPubkey o.after := by
  induction es generalizing j with
  | nil =>
      exact ⟨[], rfl, rfl, by simp⟩
  | cons e es ih =>
      rw [List.forall_mem_cons] at hes
      rcases h.step e hes.1 with ⟨o, ho, hgranted, hafter⟩
      rcases ih hafter hes.2 with ⟨os, hos, hlen, hall⟩
      refine ⟨o :: os, ?_, by rw [List.length_cons, List.length_cons, hlen], ?_⟩
      · simp only [Joint.run, ho, Option.bind_eq_bind, Option.bind_some, hos, Option.pure_def]
      · rw [List.forall_mem_cons]
        exact ⟨⟨hgranted, hafter.registered⟩, hall⟩

/-- From a successful handshake at the level the gate starts from, with any gate parameters, any
probabilities and any operations of the registry for other peers in between: every request the
client derives from its gate is granted, and after every event the registry has the client at the
algorithm the gate has in force. -/
theorem gate_and_registry_agree (wgPubkey : Bytes 32) (inForce : MlKemLevel)
    (confirmTicks : UInt32) (minMargin : R) (rekeyCooldownTicks : UInt32) (rekeyEscalates : Bool)
    (r : Registry) (now : SystemTime) (sessionId : Bytes 16) (slot : PeerSlot)
    (hshake : (r.upsertHandshake now wgPubkey (codeOf inForce) sessionId).1 = .ok slot)
    (es : List (Event R)) (hes : ∀ e ∈ es, e.Spares wgPubkey) :
    ∃ os, Joint.run wgPubkey
        { gate := .withParams inForce confirmTicks minMargin rekeyCooldownTicks rekeyEscalates
          sessionId := slot.sessionId
          registry := (r.upsertHandshake now wgPubkey (codeOf inForce) sessionId).2 } es = some os ∧
      os.length = es.length ∧ ∀ o ∈ os, o.Granted ∧ Registered wgPubkey o.after := by
  rcases upsertHandshake_ok hshake with ⟨q, hq, _, halgo, _, hslot⟩
  have hagrees : Agrees wgPubkey
      ⟨confirmTicks.toNat, minMargin, rekeyCooldownTicks.toNat, rekeyEscalates⟩
      { gate := .withParams inForce confirmTicks minMargin rekeyCooldownTicks rekeyEscalates
        sessionId := slot.sessionId
        registry := (r.upsertHandshake now wgPubkey (codeOf inForce) sessionId).2 } := by
    refine ⟨⟨q, hq, by rw [← hslot]; rfl, halgo⟩, _, refines_withParams inForce confirmTicks
      minMargin rekeyCooldownTicks rekeyEscalates⟩
  exact hagrees.run es hes

theorem upsertHandshake_reference :
    (Reference.empty.upsertHandshake Reference.now Reference.key (codeOf .mlKem768)
      Reference.session).1 = .ok Reference.peer.slot :=
  Reply.slot.inj (congrArg Prod.fst Reference.exec_op)

/-- Two rekeys of the one peer of the reference registry, with a sweep's touch in between. -/
theorem gate_and_registry_agree_two_ticks :
    ∃ os, Joint.run Reference.key
        { gate := .withParams .mlKem768 3 (15 : Int) 1 true
          sessionId := Reference.session
          registry := (Reference.empty.upsertHandshake Reference.now Reference.key
            (codeOf .mlKem768) Reference.session).2 }
        [.tick ![5, 10, 20, 65] Reference.now Reference.session,
          .other (.touch Reference.now Reference.key),
          .tick ![5, 10, 20, 65] Reference.now Reference.session] = some os ∧
      os.length = 3 ∧ ∀ o ∈ os, o.Granted ∧ Registered Reference.key o.after := by
  refine gate_and_registry_agree Reference.key .mlKem768 3 (15 : Int) 1 true Reference.empty
    Reference.now Reference.session Reference.peer.slot upsertHandshake_reference _ ?_
  intro e he
  simp only [List.mem_cons, List.not_mem_nil, or_false] at he
  rcases he with rfl | rfl | rfl
  · trivial
  · exact .inr ⟨_, rfl⟩
  · trivial

end Gate
end PqcVpn
