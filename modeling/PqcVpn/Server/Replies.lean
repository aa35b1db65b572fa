import PqcVpn.Server.Reference
import PqcVpn.Server.Completion
import PqcVpn.Wire.ErrorText

/-!
# Replies — the `Error` frames of a connection

A malformed first message is answered under the constant code 0x02, whatever was wrong with it; a
malformed third one is not answered at all.
-/

namespace PqcVpn
namespace Server

open Crypto Handshake Registry Wire

variable {α : Type} {P : Primitives} {env : HandlerEnv P}

/-! ## `Error` frames sent -/

def errorOf : Message AlgoCode → Option ErrorMsg
  | .error m => some m
  | _ => none

/-- The `Error` frames of a connection that reached the client. -/
def World.errorsSent (w : World) : List ErrorMsg := w.sent.filterMap errorOf

/-- The `Error` frames among these events. -/
def errorsOf (evs : List Event) : List ErrorMsg := evs.filterMap fun e => e.sentMessage.bind errorOf

theorem errorsOf_append (evs evs' : List Event) :
    errorsOf (evs ++ evs') = errorsOf evs ++ errorsOf evs' :=
  List.filterMap_append

theorem World.errorsSent_eq (w : World) : w.errorsSent = errorsOf w.trace := by
  rw [errorsSent, sent, errorsOf, List.filterMap_filterMap]

/-- A reply whose text fits, on a socket that takes it. -/
theorem reject_of_ok {w : World} {text : String} (hfits : FitsError text) (code : UInt8)
    (hio : env.writeAll w.writes = .ok ()) :
    reject env code text w =
      (.ok (.ok ()),
        { w with
          writes := w.writes + 1
          trace := w.trace ++ [.sent (.error { code := code, message := text })] }) := by
  rcases (ErrorMsg.wellFormed_iff (m := ⟨code, text⟩)).2 hfits with ⟨_, frame, hframe, _⟩
  exact transmit_ok_iff.2 ⟨⟨frame, hframe⟩, hio, rfl⟩

/-- A reply the socket does not take. -/
theorem reject_of_error {w : World} {text : String} (hfits : FitsError text) (code : UInt8)
    {e : IoError} (hio : env.writeAll w.writes = .error e) :
    reject env code text w = (.ok (.error e), { w with writes := w.writes + 1 }) := by
  rcases (ErrorMsg.wellFormed_iff (m := ⟨code, text⟩)).2 hfits with ⟨_, frame, hframe, _⟩
  simp only [reject, transmit, hframe, hio]

/-! ## Malformed input -/

inductive ReadPoint
  | first
  | second
  deriving DecidableEq

/-- One of a connection's two reads fails on malformed bytes. -/
inductive FailsAt (env : HandlerEnv P) (w : World) : ReadPoint → WireError → Prop
  | first {e : WireError} {s : Stream}
      (htimeouts : env.setReadTimeout = .ok () ∧ env.setWriteTimeout = .ok ())
      (hread : Message.read (A := AlgoCode) w.stream = (.error (.wire e), s)) :
      FailsAt env w .first e
  | second {first : Message AlgoCode} {ex : Exchange} {e : WireError} {s₁ s₂ : Stream}
      (htimeouts : env.setReadTimeout = .ok () ∧ env.setWriteTimeout = .ok ())
      (hread : Message.read (A := AlgoCode) w.stream = (.ok first, s₁))
      (hhello : helloOf first = some (ex.hello, ex.rekeySession))
      (hsession : ex.sessionId = ex.rekeySession.getD env.randSession)
      (hrespond : Handshake.respond env.identity ex.hello ex.sessionId env.serverNonce env.seed =
        .ok ex.outcome)
      (hanswered : env.writeAll w.writes = .ok ())
      (hfail : Message.read (A := AlgoCode) s₁ = (.error (.wire e), s₂)) :
      FailsAt env w .second e

theorem receive_error {w : World} {e : FrameError} {s : Stream}
    (h : Message.read (A := AlgoCode) w.stream = (.error e, s)) :
    receive w = (.ok (.error e), { w with stream := s }) := by
  simp only [receive, h]

theorem handleConnection_of_readHello_error
    (htimeouts : env.setReadTimeout = .ok () ∧ env.setWriteTimeout = .ok ()) {w w₁ : World}
    {e : ConnError} (h : readHello env w = (.error e, w₁)) :
    handleConnection env w = (.error e, w₁) := by
  unfold handleConnection
  rw [htimeouts.1, htimeouts.2]
  change (negotiate env >>= _) w = _
  rw [negotiate, Conn.bind_assoc_apply, Conn.bind_apply, h]

/-- A malformed first message is answered with code 0x02. -/
theorem handleConnection_of_first_malformed
    (htimeouts : env.setReadTimeout = .ok () ∧ env.setWriteTimeout = .ok ()) {w : World}
    {e : WireError} {s : Stream}
    (hread : Message.read (A := AlgoCode) w.stream = (.error (.wire e), s)) :
    ∃ w', handleConnection env w = (.error (.frame (.wire e)), w') ∧
      w'.trace = w.trace ++
        match env.writeAll w.writes with
        | .ok () => [.sent (.error { code := 0x02, message := e.toText })]
        | .error _ => [] := by
  have hfits : FitsError e.toText := fits_of_read hread
  have hhello : ∃ w', readHello env w = (.error (.frame (.wire e)), w') ∧
      w'.trace = w.trace ++
        match env.writeAll w.writes with
        | .ok () => [.sent (.error { code := 0x02, message := e.toText })]
        | .error _ => [] := by
    unfold readHello
    rw [Conn.bind_of_ok (receive_error hread)]
    -- the reply may not reach the client; the failure of the read is returned either way
    cases hio : env.writeAll w.writes with
    | ok u => exact ⟨_, Conn.bind_of_ok (reject_of_ok hfits 0x02 hio), rfl⟩
    | error io =>
        exact ⟨_, Conn.bind_of_ok (reject_of_error hfits 0x02 hio), (List.append_nil _).symm⟩
  rcases hhello with ⟨w', hhello, htrace⟩
  exact ⟨w', handleConnection_of_readHello_error htimeouts hhello, htrace⟩

/-- A malformed third message ends the connection without an answer. -/
theorem handleConnection_of_second_malformed
    (htimeouts : env.setReadTimeout = .ok () ∧ env.setWriteTimeout = .ok ()) {w : World}
    {first : Message AlgoCode} {ex : Exchange} {e : FrameError} {s₁ s₂ : Stream}
    (hread : Message.read (A := AlgoCode) w.stream = (.ok first, s₁))
    (hhello : helloOf first = some (ex.hello, ex.rekeySession))
    (hsession : ex.sessionId = ex.rekeySession.getD env.randSession)
    (hrespond : Handshake.respond env.identity ex.hello ex.sessionId env.serverNonce env.seed =
      .ok ex.outcome)
    (hanswered : env.writeAll w.writes = .ok ())
    (hfail : Message.read (A := AlgoCode) s₁ = (.error e, s₂)) :
    ∃ w', handleConnection env w = (.error (.frame e), w') ∧
      w'.trace = w.trace ++ [.received first, .sent (.serverHello ex.outcome.serverHello)] := by
  rw [handleConnection_eq_afterServerHello htimeouts hanswered hread hhello hsession hrespond]
  -- the read's failure goes straight to the result
  unfold afterServerHello readFinish
  rw [Conn.bind_assoc_apply, Conn.bind_of_ok (receive_error hfail)]
  exact ⟨_, rfl, rfl⟩

/-- Exactly one `Error` frame was sent, under the code the protocol gives the failure. -/
def Answered (w : World) (e : WireError) : Prop :=
  ∃ m, w.errorsSent = [m] ∧ m.code = e.protocolCode

theorem protocolCode_eq_malformed_iff {e : WireError} :
    e.protocolCode = 0x02 ↔ ∀ v, e ≠ .unsupportedVersion v := by
  cases e with
  | unsupportedVersion v =>
      have hcode : ¬ (0x01 : UInt8) = 0x02 := by decide
      exact iff_of_false hcode fun h => h v rfl
  | _ => exact iff_of_true rfl fun v h => by cases h

/-- Malformed input is answered as the protocol requires exactly when it is the first message, its
version byte is right, and the socket takes the answer. -/
theorem malformed_answered_iff {stores : Stores} {stream : Stream} {point : ReadPoint}
    {e : WireError} (h : FailsAt env (.start stores stream) point e) :
    Answered (handleConnection env (.start stores stream)).2 e ↔
      point = .first ∧ (∀ v, e ≠ .unsupportedVersion v) ∧ env.writeAll 0 = .ok () := by
  unfold Answered
  cases h with
  | first htimeouts hread =>
      -- the code sent is a constant, so it is right exactly for the errors it belongs to
      rcases handleConnection_of_first_malformed htimeouts hread with ⟨w', hw', htrace⟩
      rw [hw', World.errorsSent_eq, htrace, ← protocolCode_eq_malformed_iff]
      change (∃ m, errorsOf (match env.writeAll 0 with | .ok () => _ | .error _ => _) = _ ∧ _) ↔ _
      cases hio : env.writeAll 0 with
      | ok u =>
          constructor
          · rintro ⟨m, hm, hcode⟩
            cases hm
            exact ⟨rfl, hcode.symm, rfl⟩
          · rintro ⟨_, hcode, _⟩
            exact ⟨_, rfl, hcode.symm⟩
      | error io =>
          refine iff_of_false ?_ fun h => by cases h.2.2
          rintro ⟨m, hm, _⟩
          cases hm
  | second htimeouts hread hhello hsession hrespond hanswered hfail =>
      -- nothing but the ServerHello was sent
      rcases handleConnection_of_second_malformed htimeouts hread hhello hsession hrespond hanswered
        hfail with ⟨w', hw', htrace⟩
      refine iff_of_false ?_ fun h => by cases h.1
      rintro ⟨m, hm, _⟩
      rw [hw', World.errorsSent_eq, htrace] at hm
      cases hm

namespace Reference

/-- A server whose installs succeed. -/
noncomputable def installing : HandlerEnv Crypto.Reference.primitives :=
  Reference.env fun _ _ _ _ => .ok ()

theorem timeouts_installing :
    installing.setReadTimeout = .ok () ∧ installing.setWriteTimeout = .ok () := ⟨rfl, rfl⟩

theorem failsAt_first {bytes : List UInt8} {e : WireError} {s : Stream}
    (h : Message.read (A := AlgoCode) ⟨bytes, .unexpectedEof⟩ = (.error (.wire e), s)) :
    FailsAt installing (.start stores ⟨bytes, .unexpectedEof⟩) .first e :=
  .first timeouts_installing h

end Reference

/-- An unknown message type is answered with 0x02. -/
theorem unknown_type_answered :
    Answered (handleConnection Reference.installing
      (.start Reference.stores ⟨[0x01, 0x77, 0x00, 0x00], .unexpectedEof⟩)).2
      (.unknownMsgType 0x77) :=
  (malformed_answered_iff (Reference.failsAt_first rfl)).2 ⟨rfl, fun v h => (by cases h), rfl⟩

/-- So is a wrong version byte, whose code is 0x01. -/
theorem wrong_version_answered_as_malformed :
    let w : World := .start Reference.stores ⟨[0x02, 0x01, 0x00, 0x00], .unexpectedEof⟩
    let e : WireError := .unsupportedVersion 0x02
    FailsAt Reference.installing w .first e ∧
      (handleConnection Reference.installing w).2.errorsSent =
        [{ code := 0x02, message := e.toText }] ∧
      ¬ Answered (handleConnection Reference.installing w).2 e := by
  intro w e
  have hread : Message.read (A := AlgoCode) w.stream =
      (.error (.wire e), ⟨[], .unexpectedEof⟩) := rfl
  -- the frame that goes out has code 0x02, the error's own code is 0x01
  have hsent : (handleConnection Reference.installing w).2.errorsSent =
      [{ code := 0x02, message := e.toText }] := by
    rcases handleConnection_of_first_malformed Reference.timeouts_installing hread with
      ⟨w', hw', htrace⟩
    rw [hw', World.errorsSent_eq, htrace]
    rfl
  refine ⟨Reference.failsAt_first hread, hsent, ?_⟩
  rintro ⟨m, hm, hcode⟩
  rw [hsent] at hm
  cases hm
  exact absurd hcode (by decide)

end Server
end PqcVpn
