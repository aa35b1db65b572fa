import PqcVpn.Server.Handler
import PqcVpn.Wire.RoundTrip

/-!
# Negotiate — a connection up to the client's proof

`Quiet` computations only read and write frames, and everything up to the client's proof is quiet.
`negotiate_ok_iff` says exactly when an exchange is authorised.
-/

namespace PqcVpn
namespace Server

open Crypto Handshake Registry Wire

variable {α β : Type}

/-! ## Running a connection -/

namespace Conn

theorem bind_apply (m : Conn α) (f : α → Conn β) (w : World) :
    (m >>= f) w =
      match m w with
      | (.ok a, w') => f a w'
      | (.error e, w') => (.error e, w') := rfl

theorem pure_apply (a : α) (w : World) : (pure a : Conn α) w = (.ok a, w) := rfl

theorem throw_apply (e : ConnError) (w : World) : (throw e : Conn α) w = (.error e, w) := rfl

theorem bind_of_ok {m : Conn α} {f : α → Conn β} {w w₁ : World} {a : α} (h : m w = (.ok a, w₁)) :
    (m >>= f) w = f a w₁ := by
  rw [bind_apply, h]

theorem bind_eq_ok_iff {m : Conn α} {f : α → Conn β} {w w' : World} {b : β} :
    (m >>= f) w = (.ok b, w') ↔ ∃ a w₁, m w = (.ok a, w₁) ∧ f a w₁ = (.ok b, w') := by
  rw [bind_apply]
  constructor
  · intro h
    rcases hm : m w with ⟨_ | a, w₁⟩
    · simp [hm] at h
    · rw [hm] at h
      exact ⟨a, w₁, rfl, h⟩
  · rintro ⟨a, w₁, hm, hf⟩
    rw [hm]
    exact hf

end Conn

/-! ## Quiet computations -/

/-- A frame read or written. -/
def Event.isFrame : Event → Bool
  | .received _ => true
  | .sent _ => true
  | _ => false

/-- The world after a computation that touched no store and added only frames to the trace. -/
structure OnlyFrames (w w' : World) : Prop where
  stores : w'.stores = w.stores
  trace : ∃ evs, w'.trace = w.trace ++ evs ∧ ∀ e ∈ evs, e.isFrame = true

theorem OnlyFrames.refl (w : World) : OnlyFrames w w where
  stores := rfl
  trace := ⟨[], by simp, by simp⟩

theorem OnlyFrames.trans {w₁ w₂ w₃ : World} (h₁ : OnlyFrames w₁ w₂) (h₂ : OnlyFrames w₂ w₃) :
    OnlyFrames w₁ w₃ := by
  rcases h₁ with ⟨hs₁, evs₁, ht₁, hf₁⟩
  rcases h₂ with ⟨hs₂, evs₂, ht₂, hf₂⟩
  refine ⟨hs₂.trans hs₁, evs₁ ++ evs₂, ?_, ?_⟩
  · rw [ht₂, ht₁, List.append_assoc]
  · intro e he
    rcases List.mem_append.1 he with he | he
    · exact hf₁ e he
    · exact hf₂ e he

/-- Frames are all that was added. -/
theorem OnlyFrames.mem_iff {w w' : World} (h : OnlyFrames w w') {e : Event}
    (he : e.isFrame = false) : e ∈ w'.trace ↔ e ∈ w.trace := by
  rcases h.trace with ⟨evs, ht, hf⟩
  rw [ht, List.mem_append]
  constructor
  · rintro (hmem | hmem)
    · exact hmem
    · simp [hf e hmem] at he
  · exact .inl

/-- A call of `install`. -/
def Event.isInstall : Event → Bool
  | .called (.install _ _ _ _) _ => true
  | _ => false

theorem OnlyFrames.countP_isInstall {w w' : World} (h : OnlyFrames w w') :
    w'.trace.countP Event.isInstall = w.trace.countP Event.isInstall := by
  rcases h.trace with ⟨evs, ht, hf⟩
  have hzero : evs.countP Event.isInstall = 0 := by
    rw [List.countP_eq_zero]
    intro e he
    have hframe := hf e he
    cases e <;> simp_all [Event.isFrame, Event.isInstall]
  rw [ht, List.countP_append, hzero, Nat.add_zero]

/-- Whatever happens, the stores are left alone. -/
def Quiet (m : Conn α) : Prop := ∀ w, OnlyFrames w (m w).2

theorem Quiet.pure (a : α) : Quiet (pure a) := fun w => .refl w

theorem Quiet.throw (e : ConnError) : Quiet (throw e : Conn α) := fun w => .refl w

theorem Quiet.bind {m : Conn α} {f : α → Conn β} (hm : Quiet m) (hf : ∀ a, Quiet (f a)) :
    Quiet (m >>= f) := by
  intro w
  have h := hm w
  rw [Conn.bind_apply]
  rcases hmw : m w with ⟨e | a, w₁⟩
  · rw [hmw] at h
    exact h
  · rw [hmw] at h
    exact h.trans (hf a w₁)

theorem quiet_orIo (r : Except IoError Unit) : Quiet (orIo r) := by
  cases r with
  | error e => exact .throw _
  | ok u => exact .pure _

theorem quiet_receive : Quiet receive := by
  intro w
  unfold receive
  rcases Message.read (A := AlgoCode) w.stream with ⟨e | m, s⟩
  · exact ⟨rfl, [], by simp, by simp⟩
  · exact ⟨rfl, [.received m], rfl, by simp [Event.isFrame]⟩

variable {P : Primitives} (env : HandlerEnv P)

theorem quiet_transmit (m : Message AlgoCode) : Quiet (transmit env m) := by
  intro w
  unfold transmit
  cases m.write with
  | error e => exact .refl w
  | ok frame =>
      cases env.writeAll w.writes with
      | error e => exact ⟨rfl, [], by simp, by simp⟩
      | ok u => exact ⟨rfl, [.sent m], rfl, by simp [Event.isFrame]⟩

theorem quiet_reject (code : UInt8) (message : String) : Quiet (reject env code message) :=
  quiet_transmit env _

/-- Rejecting and then ending the connection is quiet. -/
theorem quiet_reject_then (code : UInt8) (message : String) {m : Conn α} (hm : Quiet m) :
    Quiet (do orIo (← reject env code message); m) :=
  .bind (quiet_reject env code message) fun r => .bind (quiet_orIo r) fun _ => hm

theorem quiet_readHello : Quiet (readHello env) := by
  refine .bind quiet_receive ?_
  rintro (e | m)
  · exact .bind (quiet_reject env 0x02 e.toText) fun _ => .throw _
  · cases m with
    | clientHello h => exact .pure _
    | rekeyRequest r => exact .pure _
    | _ => exact quiet_reject_then env _ _ (.throw _)

theorem quiet_readFinish : Quiet (readFinish env) := by
  refine .bind quiet_receive ?_
  rintro (e | m)
  · exact .throw _
  · cases m with
    | clientFinish f => exact .pure _
    | _ => exact quiet_reject_then env _ _ (.throw _)

/-- Nothing up to the client's proof touches a store. -/
theorem quiet_negotiate : Quiet (negotiate env) := by
  refine .bind (quiet_readHello env) ?_
  rintro ⟨hello, rekeySession⟩
  dsimp only
  cases Handshake.respond env.identity hello (rekeySession.getD env.randSession) env.serverNonce
      env.seed with
  | error e => exact quiet_reject_then env _ _ (.pure _)
  | ok outcome =>
      refine .bind (quiet_transmit env _) fun r => .bind (quiet_orIo r) fun _ =>
        .bind (quiet_readFinish env) ?_
      intro fin
      split
      · exact quiet_reject_then env _ _ (.pure _)
      · exact .pure _

/-! ## When an exchange is authorised -/

/-- What a first message asks for. -/
def helloOf : Message AlgoCode → Option (ClientHello AlgoCode × Option (Bytes 16))
  | .clientHello h => some (h, none)
  | .rekeyRequest r => some (r.hello, some r.sessionId)
  | _ => none

theorem receive_ok_iff {m : Message AlgoCode} {w w' : World} :
    receive w = (.ok (.ok m), w') ↔
      ∃ s, Message.read (A := AlgoCode) w.stream = (.ok m, s) ∧
        w' = { w with stream := s, trace := w.trace ++ [.received m] } := by
  unfold receive
  rcases hread : Message.read (A := AlgoCode) w.stream with ⟨e | m', s⟩
  · constructor
    · intro h
      cases h
    · rintro ⟨s', hs, _⟩
      cases hs
  · constructor
    · intro h
      cases h
      exact ⟨s, rfl, rfl⟩
    · rintro ⟨s', hs, rfl⟩
      cases hs
      rfl

variable {env}

theorem transmit_ok_iff {m : Message AlgoCode} {w w' : World} :
    transmit env m w = (.ok (.ok ()), w') ↔
      (∃ frame, m.write = .ok frame) ∧ env.writeAll w.writes = .ok () ∧
        w' = { w with writes := w.writes + 1, trace := w.trace ++ [.sent m] } := by
  unfold transmit
  cases m.write with
  | error e => simp
  | ok frame =>
      cases env.writeAll w.writes with
      | error e => simp
      | ok u => simp [eq_comm]

theorem orIo_ok_iff {r : Except IoError Unit} {u : Unit} {w w' : World} :
    orIo r w = (.ok u, w') ↔ r = .ok () ∧ w' = w := by
  cases r with
  | error e => simp [orIo, Conn.throw_apply]
  | ok u => simp [orIo, Conn.pure_apply, eq_comm]

/-- A `?` that succeeds leads into what follows it. -/
theorem of_orIo_ok {m : Conn (Except IoError Unit)} {k : Conn α} {w w' : World} {a : α}
    (h : (do orIo (← m); k) w = (.ok a, w')) :
    ∃ w₁, m w = (.ok (.ok ()), w₁) ∧ k w₁ = (.ok a, w') := by
  rcases Conn.bind_eq_ok_iff.1 h with ⟨r, w₁, hm, hrest⟩
  rcases Conn.bind_eq_ok_iff.1 hrest with ⟨u, w₂, hio, hk⟩
  rcases orIo_ok_iff.1 hio with ⟨rfl, rfl⟩
  exact ⟨_, hm, hk⟩

theorem orIo_of_ok {m : Conn (Except IoError Unit)} {k : Conn α} {w w₁ : World}
    (h : m w = (.ok (.ok ()), w₁)) : (do orIo (← m); k) w = k w₁ := by
  rw [Conn.bind_of_ok h]
  rfl

/-- A refusal never hands on a value. -/
theorem orIo_throw_ne {m : Conn (Except IoError Unit)} {e : ConnError} {w w' : World} {a : α} :
    (do orIo (← m); throw e : Conn α) w ≠ (.ok a, w') := by
  intro h
  rcases of_orIo_ok h with ⟨w₁, _, hk⟩
  cases hk

theorem readHello_ok_iff {hello : ClientHello AlgoCode} {rekeySession : Option (Bytes 16)}
    {w w' : World} :
    readHello env w = (.ok (hello, rekeySession), w') ↔
      ∃ first, receive w = (.ok (.ok first), w') ∧ helloOf first = some (hello, rekeySession) := by
  unfold readHello
  rw [Conn.bind_eq_ok_iff]
  constructor
  · rintro ⟨r, w₁, hr, hrest⟩
    cases r with
    | error e =>
        rcases Conn.bind_eq_ok_iff.1 hrest with ⟨_, w₂, _, hthrow⟩
        cases hthrow
    | ok m =>
        -- only the two opening messages come out as a hello; the rest are rejected
        cases m with
        | clientHello h =>
            cases hrest
            exact ⟨_, hr, rfl⟩
        | rekeyRequest q =>
            cases hrest
            exact ⟨_, hr, rfl⟩
        | _ => exact absurd hrest orIo_throw_ne
  · rintro ⟨first, hr, hhello⟩
    refine ⟨.ok first, w', hr, ?_⟩
    cases first with
    | clientHello h =>
        cases hhello
        rfl
    | rekeyRequest q =>
        cases hhello
        rfl
    | _ => cases hhello

theorem readFinish_ok_iff {fin : ClientFinish} {w w' : World} :
    readFinish env w = (.ok fin, w') ↔ receive w = (.ok (.ok (.clientFinish fin)), w') := by
  unfold readFinish
  rw [Conn.bind_eq_ok_iff]
  constructor
  · rintro ⟨r, w₁, hr, hrest⟩
    cases r with
    | error e => cases hrest
    | ok m =>
        cases m with
        | clientFinish f =>
            cases hrest
            exact hr
        | _ => exact absurd hrest orIo_throw_ne
  · intro hr
    exact ⟨_, w', hr, rfl⟩

/-- The client proved itself over this exchange: its hello was read and answered, and its
`ClientFinish` carries the exchange's session and the tag of its transcript. -/
structure Negotiated (env : HandlerEnv P) (w : World) (ex : Exchange) (w' : World)
    (first : Message AlgoCode) (fin : ClientFinish) : Prop where
  hello : helloOf first = some (ex.hello, ex.rekeySession)
  sessionId : ex.sessionId = ex.rekeySession.getD env.randSession
  respond : Handshake.respond env.identity ex.hello ex.sessionId env.serverNonce env.seed =
    .ok ex.outcome
  fits : ∃ frame, (Message.serverHello ex.outcome.serverHello).write = .ok frame
  answered : env.writeAll w.writes = .ok ()
  finSession : fin.sessionId = ex.sessionId
  finTag : fin.clientTag = clientTag P ex.outcome.keys.confirmKey ex.outcome.transcript
  frames : ∃ s₁ s₂, Message.read (A := AlgoCode) w.stream = (.ok first, s₁) ∧
    Message.read (A := AlgoCode) s₁ = (.ok (.clientFinish fin), s₂) ∧
    w' = { stores := w.stores
           stream := s₂
           writes := w.writes + 1
           trace := w.trace ++
            [.received first, .sent (.serverHello ex.outcome.serverHello),
              .received (.clientFinish fin)] }

/-- `negotiate` hands an exchange on exactly when the client proved itself over it. -/
theorem negotiate_ok_iff {ex : Exchange} {w w' : World} :
    negotiate env w = (.ok (.inr ex), w') ↔ ∃ first fin, Negotiated env w ex w' first fin := by
  unfold negotiate
  rw [Conn.bind_eq_ok_iff]
  constructor
  -- every other branch rejects, and a rejection hands nothing on
  · rintro ⟨⟨hello, rekeySession⟩, w₁, hhello, hrest⟩
    rcases readHello_ok_iff.1 hhello with ⟨first, hfirst, hof⟩
    rcases receive_ok_iff.1 hfirst with ⟨s₁, hread₁, rfl⟩
    dsimp only at hrest
    cases hrespond : Handshake.respond env.identity hello (rekeySession.getD env.randSession)
        env.serverNonce env.seed with
    | error e =>
        simp only [hrespond] at hrest
        rcases of_orIo_ok hrest with ⟨w₂, _, hpure⟩
        cases hpure
    | ok outcome =>
        simp only [hrespond] at hrest
        rcases of_orIo_ok hrest with ⟨w₂, hsent, hrest'⟩
        rcases transmit_ok_iff.1 hsent with ⟨hfits, hio, rfl⟩
        rcases Conn.bind_eq_ok_iff.1 hrest' with ⟨fin, w₃, hfin, hlast⟩
        rcases receive_ok_iff.1 (readFinish_ok_iff.1 hfin) with ⟨s₂, hread₂, rfl⟩
        split at hlast
        · rcases of_orIo_ok hlast with ⟨w₄, _, hpure⟩
          cases hpure
        · rename_i hchecks
          rw [not_or, Bool.not_eq_false, not_not] at hchecks
          cases hlast
          refine ⟨first, fin, ?_⟩
          exact
            { hello := hof
              sessionId := rfl
              respond := hrespond
              fits := hfits
              answered := hio
              finSession := hchecks.1
              finTag := (verifyClientTag_iff P).1 hchecks.2
              frames := ⟨s₁, s₂, hread₁, hread₂, by simp⟩ }
  -- conversely, the facts recorded are what each branch tests
  · rintro ⟨first, fin, h⟩
    rcases h.frames with ⟨s₁, s₂, hread₁, hread₂, rfl⟩
    refine ⟨(ex.hello, ex.rekeySession), _,
      readHello_ok_iff.2 ⟨first, receive_ok_iff.2 ⟨s₁, hread₁, rfl⟩, h.hello⟩, ?_⟩
    have hchecks : ¬ (fin.sessionId ≠ ex.sessionId ∨
        verifyClientTag P ex.outcome.keys.confirmKey ex.outcome.transcript fin.clientTag = false) := by
      rw [not_or, Bool.not_eq_false, not_not]
      exact ⟨h.finSession, (verifyClientTag_iff P).2 h.finTag⟩
    dsimp only
    rw [← h.sessionId]
    simp only [h.respond]
    refine (orIo_of_ok (transmit_ok_iff.2 ⟨h.fits, ?_, rfl⟩)).trans ?_
    · exact h.answered
    · refine (Conn.bind_of_ok
        (readFinish_ok_iff.2 (receive_ok_iff.2 ⟨s₂, hread₂, rfl⟩))).trans ?_
      rw [if_neg hchecks, Conn.pure_apply]
      simp

/-- A client that sends a hello and the matching `ClientFinish` is authorised. -/
theorem negotiated_of_frames (env : HandlerEnv P) {w : World} {first : Message AlgoCode}
    {hello : ClientHello AlgoCode} {rekeySession : Option (Bytes 16)} {outcome : HandshakeOutcome}
    {fin : ClientFinish} {f₁ f₂ rest : List UInt8} {atEnd : IoError}
    (hof : helloOf first = some (hello, rekeySession)) (hdecodes : first.Decodes)
    (hfirst : first.write = .ok f₁)
    (hrespond : Handshake.respond env.identity hello (rekeySession.getD env.randSession)
      env.serverNonce env.seed = .ok outcome)
    (hio : env.writeAll w.writes = .ok ())
    (hsession : fin.sessionId = rekeySession.getD env.randSession)
    (htag : fin.clientTag = clientTag P outcome.keys.confirmKey outcome.transcript)
    (hfin : (Message.clientFinish fin : Message AlgoCode).write = .ok f₂)
    (hstream : w.stream = ⟨f₁ ++ (f₂ ++ rest), atEnd⟩) :
    Negotiated env w
      { hello, rekeySession, sessionId := rekeySession.getD env.randSession, outcome }
      { stores := w.stores
        stream := ⟨rest, atEnd⟩
        writes := w.writes + 1
        trace := w.trace ++ [.received first, .sent (.serverHello outcome.serverHello),
          .received (.clientFinish fin)] }
      first fin where
  hello := hof
  sessionId := rfl
  respond := hrespond
  fits := serverHello_writes (serverHello_wellSized hrespond)
  answered := hio
  finSession := hsession
  finTag := htag
  frames := by
    -- each read takes its own frame and leaves the next
    refine ⟨⟨f₂ ++ rest, atEnd⟩, ⟨rest, atEnd⟩, ?_, ?_, rfl⟩
    · rw [hstream]
      exact read_of_write hdecodes hfirst _ _
    · exact read_of_write (decodes_clientFinish fin) hfin _ _

end Server
end PqcVpn
