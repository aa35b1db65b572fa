import PqcVpn.Server.Replies

/-!
# Rejections — what a rejected client and the server's log are told

A rejection is one `Error` frame and a result that names the cause.  Its text is fixed and short,
except when `wg` fails: then it carries whatever `wg` printed, and a text that does not fit the
protocol's 256 bytes is sent all the same, or replaces the cause when it does not even fit a frame.
-/

namespace PqcVpn
namespace Server

open Crypto Handshake Registry Wire

variable {α : Type} {P : Primitives} {env : HandlerEnv P}

/-- The transport of a connection works, whatever becomes of the other calls. -/
structure HandlerEnv.Connected (env : HandlerEnv P) : Prop where
  setReadTimeout : env.setReadTimeout = .ok ()
  setWriteTimeout : env.setWriteTimeout = .ok ()
  writeAll : ∀ n, env.writeAll n = .ok ()

theorem HandlerEnv.Connected.timeouts (h : env.Connected) :
    env.setReadTimeout = .ok () ∧ env.setWriteTimeout = .ok () :=
  ⟨h.setReadTimeout, h.setWriteTimeout⟩

/-! ## Causes -/

/-- Why a client whose first frame decoded is rejected. -/
inductive Cause
  | crypto (e : HandshakeError)
  | wrongFirst (other : Message AlgoCode)
  | wrongThird (other : Message AlgoCode)
  | badTag
  | registry (e : RegistryError)
  | install (e : InstallError)

namespace Cause

/-- The reply. -/
def reply : Cause → ErrorMsg
  | crypto e => { code := e.protocolCode, message := e.toText }
  | wrongFirst _ => { code := 0x02, message := "expected ClientHello or RekeyRequest" }
  | wrongThird _ => { code := 0x02, message := "expected ClientFinish" }
  | badTag =>
      { code := HandshakeError.authFailed.protocolCode
        message := "client finish tag did not verify" }
  | registry e => { code := (registryRejectCode e).1, message := (registryRejectCode e).2 }
  | install e => { code := 0x08, message := e.toText }

/-- The result that names the cause. -/
def result : Cause → Except ConnError ConnResult
  | crypto e => .ok (.rejected e.protocolCode)
  | wrongFirst other => .error (.protocol "unexpected first message" other)
  | wrongThird other => .error (.protocol "expected ClientFinish, got" other)
  | badTag => .ok (.rejected 0x06)
  | registry e => .ok (.rejected (registryRejectCode e).1)
  | install e => .error (.install e)

end Cause

/-- The hello was read and answered, over the exchange `ex`; `s₁` is what follows it. -/
structure Greeted (env : HandlerEnv P) (w : World) (ex : Exchange) (first : Message AlgoCode)
    (s₁ : Stream) : Prop where
  read : Message.read (A := AlgoCode) w.stream = (.ok first, s₁)
  hello : helloOf first = some (ex.hello, ex.rekeySession)
  session : ex.sessionId = ex.rekeySession.getD env.randSession
  respond : Handshake.respond env.identity ex.hello ex.sessionId env.serverNonce env.seed =
    .ok ex.outcome

/-- A connection over `w` is rejected for this cause. -/
inductive Rejects (env : HandlerEnv P) (w : World) : Cause → Prop
  | wrongFirst {first : Message AlgoCode} {s₁ : Stream}
      (hread : Message.read (A := AlgoCode) w.stream = (.ok first, s₁))
      (hhello : helloOf first = none) : Rejects env w (.wrongFirst first)
  | crypto {first : Message AlgoCode} {s₁ : Stream} {hello : ClientHello AlgoCode}
      {rekeySession : Option (Bytes 16)} {e : HandshakeError}
      (hread : Message.read (A := AlgoCode) w.stream = (.ok first, s₁))
      (hhello : helloOf first = some (hello, rekeySession))
      (hrespond : Handshake.respond env.identity hello (rekeySession.getD env.randSession)
        env.serverNonce env.seed = .error e) : Rejects env w (.crypto e)
  | wrongThird {first third : Message AlgoCode} {ex : Exchange} {s₁ s₂ : Stream}
      (hgreeted : Greeted env w ex first s₁)
      (hthird : Message.read (A := AlgoCode) s₁ = (.ok third, s₂))
      (hother : ∀ fin, third ≠ .clientFinish fin) : Rejects env w (.wrongThird third)
  | badTag {first : Message AlgoCode} {ex : Exchange} {fin : ClientFinish} {s₁ s₂ : Stream}
      (hgreeted : Greeted env w ex first s₁)
      (hthird : Message.read (A := AlgoCode) s₁ = (.ok (.clientFinish fin), s₂))
      (htag : ¬ (fin.sessionId = ex.sessionId ∧
        fin.clientTag = clientTag P ex.outcome.keys.confirmKey ex.outcome.transcript)) :
      Rejects env w .badTag
  | registry {ex : Exchange} {w₁ : World} {e : RegistryError} {r : Registry}
      (hauth : Authorised env w ex w₁)
      (hupdate : ex.update env.now w.stores.registry = (.error e, r)) : Rejects env w (.registry e)
  | install {ex : Exchange} {w₁ : World} {slot : PeerSlot} {e : InstallError} {r : Registry}
      (hauth : Authorised env w ex w₁)
      (hupdate : ex.update env.now w.stores.registry = (.ok slot, r))
      (hinstall : ex.installResult env slot = .error e) : Rejects env w (.install e)

/-! ## The texts of the causes -/

theorem fitsError_of_respond_error {identity : P.SigningKey} {hello : ClientHello AlgoCode}
    {sessionId : Bytes 16} {serverNonce : Bytes 32} {seed : RespondSeed P} {e : HandshakeError}
    (h : Handshake.respond identity hello sessionId serverNonce seed = .error e) :
    FitsError e.toText := by
  unfold Handshake.respond at h
  split at h
  · rename_i e' hencaps
    cases h
    -- two ways to fail, each with a fixed text
    unfold encapsulateFor at hencaps
    split at hencaps
    · cases hencaps
      exact fitsError_of_length_le (by decide)
    · rename_i ek _
      split at hencaps
      · rename_i m henc
        cases hencaps
        unfold serverEncapsulate at henc
        dsimp only at henc
        split at henc
        · cases henc
          exact fitsError_of_length_le (by decide)
        · cases henc
      · cases hencaps
  · cases h

theorem fitsError_registryRejectCode (e : RegistryError) : FitsError (registryRejectCode e).2 := by
  cases e <;> exact fitsError_of_length_le (by decide)

theorem fitsError_wrongFirst : FitsError "expected ClientHello or RekeyRequest" :=
  fitsError_of_length_le (by decide)

theorem fitsError_wrongThird : FitsError "expected ClientFinish" :=
  fitsError_of_length_le (by decide)

theorem fitsError_badTag : FitsError "client finish tag did not verify" :=
  fitsError_of_length_le (by decide)

/-- What the failure carries from outside leaves room for the words around it. -/
def InstallError.OutputFits : InstallError → Prop
  | spawn e => (asBytes e).length ≤ 236
  | wgFailed code stderr =>
      (asBytes (debugCode code)).length + (asBytes (trim stderr)).length ≤ 235
  | parse m => (asBytes m).length ≤ 235

theorem InstallError.fitsError_toText_iff {e : InstallError} :
    FitsError e.toText ↔ e.OutputFits := by
  have hspawn : (asBytes "could not run `wg`: ").length = 20 := by decide
  have hfailed : (asBytes "`wg` failed (exit ").length = 18 := by decide
  have hexit : (asBytes "): ").length = 3 := by decide
  have hparse : (asBytes "parsing `wg` output: ").length = 21 := by decide
  -- what is left of 256 bytes after the fixed words of each variant
  unfold FitsError maxErrorText
  cases e with
  | spawn e =>
      change (asBytes ("could not run `wg`: " ++ e)).length ≤ 256 ↔ (asBytes e).length ≤ 236
      rw [asBytes_append, List.length_append, hspawn]
      omega
  | wgFailed code stderr =>
      change (asBytes ("`wg` failed (exit " ++ debugCode code ++ "): " ++ trim stderr)).length ≤ 256 ↔
        (asBytes (debugCode code)).length + (asBytes (trim stderr)).length ≤ 235
      rw [asBytes_append, asBytes_append, asBytes_append, List.length_append, List.length_append,
        List.length_append, hfailed, hexit]
      omega
  | parse m =>
      change (asBytes ("parsing `wg` output: " ++ m)).length ≤ 256 ↔ (asBytes m).length ≤ 235
      rw [asBytes_append, List.length_append, hparse]
      omega

/-- Only the text of a failed install is open. -/
theorem Rejects.fitsError {w : World} {cause : Cause} (h : Rejects env w cause)
    (hinstall : ∀ e, cause = .install e → FitsError e.toText) : FitsError cause.reply.message := by
  cases h with
  | wrongFirst hread hhello => exact fitsError_wrongFirst
  | crypto hread hhello hrespond => exact fitsError_of_respond_error hrespond
  | wrongThird hgreeted hthird hother => exact fitsError_wrongThird
  | badTag hgreeted hthird htag => exact fitsError_badTag
  | registry hauth hupdate => exact fitsError_registryRejectCode _
  | install hauth hupdate hfailed => exact hinstall _ rfl

/-! ## Reporting -/

/-- The client got exactly this reply, well formed, and the result names the cause. -/
structure Reported (cause : Cause) (ending : Except ConnError ConnResult × World) : Prop where
  reply : ending.2.errorsSent = [cause.reply]
  wellFormed : cause.reply.WellFormed
  result : ending.1 = cause.result

/-- The reply was sent, and the connection ended with the result of the cause. -/
def RepliesTo (w : World) (cause : Cause) (ending : Except ConnError ConnResult × World) : Prop :=
  ending.1 = cause.result ∧ ending.2.errorsSent = w.errorsSent ++ [cause.reply]

variable (hconn : env.Connected)

include hconn

/-- A rejection sends its reply and goes on. -/
theorem reject_then {w : World} {text : String} (hfits : FitsError text) (code : UInt8)
    (k : Conn α) :
    (do orIo (← reject env code text); k) w =
      k { w with
          writes := w.writes + 1
          trace := w.trace ++ [.sent (.error { code := code, message := text })] } :=
  orIo_of_ok (reject_of_ok hfits code (hconn.writeAll _))

omit hconn in
theorem readHello_wrongFirst {w : World} {first : Message AlgoCode} {s₁ : Stream}
    (hread : Message.read (A := AlgoCode) w.stream = (.ok first, s₁)) (hhello : helloOf first = none) :
    readHello env w =
      (do orIo (← reject env 0x02 "expected ClientHello or RekeyRequest")
          throw (.protocol "unexpected first message" first) :
        Conn (ClientHello AlgoCode × Option (Bytes 16)))
        { w with stream := s₁, trace := w.trace ++ [.received first] } := by
  unfold readHello
  rw [Conn.bind_of_ok (receive_ok_iff.2 ⟨s₁, hread, rfl⟩)]
  cases first with
  | clientHello h => cases hhello
  | rekeyRequest r => cases hhello
  | _ => rfl

theorem repliesTo_wrongFirst {w : World} {first : Message AlgoCode} {s₁ : Stream}
    (hread : Message.read (A := AlgoCode) w.stream = (.ok first, s₁)) (hhello : helloOf first = none) :
    RepliesTo w (.wrongFirst first) (handleConnection env w) := by
  have hrefused : readHello env w = _ := readHello_wrongFirst hread hhello
  rw [reject_then hconn fitsError_wrongFirst, Conn.throw_apply] at hrefused
  rw [handleConnection_of_readHello_error hconn.timeouts hrefused]
  refine ⟨rfl, ?_⟩
  simp only [World.errorsSent_eq, errorsOf_append, List.append_assoc]
  rfl

/-- What a greeted client gets to see first. -/
theorem Greeted.handleConnection_eq {w : World} {ex : Exchange} {first : Message AlgoCode}
    {s₁ : Stream} (h : Greeted env w ex first s₁) :
    handleConnection env w =
      afterServerHello env ex
        { stores := w.stores
          stream := s₁
          writes := w.writes + 1
          trace := w.trace ++ [.received first, .sent (.serverHello ex.outcome.serverHello)] } :=
  handleConnection_eq_afterServerHello hconn.timeouts (hconn.writeAll _) h.read h.hello h.session
    h.respond

theorem repliesTo_crypto {w : World} {first : Message AlgoCode} {s₁ : Stream}
    {hello : ClientHello AlgoCode} {rekeySession : Option (Bytes 16)} {e : HandshakeError}
    (hread : Message.read (A := AlgoCode) w.stream = (.ok first, s₁))
    (hhello : helloOf first = some (hello, rekeySession))
    (hrespond : Handshake.respond env.identity hello (rekeySession.getD env.randSession)
      env.serverNonce env.seed = .error e) :
    RepliesTo w (.crypto e) (handleConnection env w) := by
  have hfirst : readHello env w = (.ok (hello, rekeySession),
      { w with stream := s₁, trace := w.trace ++ [.received first] }) :=
    readHello_ok_iff.2 ⟨first, receive_ok_iff.2 ⟨s₁, hread, rfl⟩, hhello⟩
  -- the hello was read; `respond` fails and its text is sent
  unfold handleConnection
  rw [hconn.setReadTimeout, hconn.setWriteTimeout]
  change RepliesTo w _ ((negotiate env >>= _) w)
  unfold negotiate
  rw [Conn.bind_assoc_apply, Conn.bind_of_ok hfirst]
  dsimp only
  simp only [hrespond]
  rw [Conn.bind_apply, reject_then hconn (fitsError_of_respond_error hrespond)]
  refine ⟨rfl, ?_⟩
  simp only [Conn.pure_apply, World.errorsSent_eq, errorsOf_append, List.append_assoc]
  rfl

theorem repliesTo_wrongThird {w : World} {first third : Message AlgoCode} {ex : Exchange}
    {s₁ s₂ : Stream} (hgreeted : Greeted env w ex first s₁)
    (hthird : Message.read (A := AlgoCode) s₁ = (.ok third, s₂))
    (hother : ∀ fin, third ≠ .clientFinish fin) :
    RepliesTo w (.wrongThird third) (handleConnection env w) := by
  rw [hgreeted.handleConnection_eq hconn]
  unfold afterServerHello readFinish
  rw [Conn.bind_assoc_apply, Conn.bind_of_ok (receive_ok_iff.2 ⟨s₂, hthird, rfl⟩)]
  -- every message but a ClientFinish takes the same arm
  cases third with
  | clientFinish fin => exact absurd rfl (hother fin)
  | _ =>
      dsimp only
      rw [Conn.bind_apply, reject_then hconn fitsError_wrongThird]
      refine ⟨rfl, ?_⟩
      simp only [Conn.throw_apply, World.errorsSent_eq, errorsOf_append, List.append_assoc]
      rfl

theorem repliesTo_badTag {w : World} {first : Message AlgoCode} {ex : Exchange}
    {fin : ClientFinish} {s₁ s₂ : Stream} (hgreeted : Greeted env w ex first s₁)
    (hthird : Message.read (A := AlgoCode) s₁ = (.ok (.clientFinish fin), s₂))
    (htag : ¬ (fin.sessionId = ex.sessionId ∧
      fin.clientTag = clientTag P ex.outcome.keys.confirmKey ex.outcome.transcript)) :
    RepliesTo w .badTag (handleConnection env w) := by
  -- the source checks the session id and the tag in one condition
  have hchecks : fin.sessionId ≠ ex.sessionId ∨
      verifyClientTag P ex.outcome.keys.confirmKey ex.outcome.transcript fin.clientTag = false := by
    rwa [← verifyClientTag_iff, not_and_or, Bool.not_eq_true] at htag
  rw [hgreeted.handleConnection_eq hconn]
  unfold afterServerHello
  rw [Conn.bind_of_ok (readFinish_ok_iff.2 (receive_ok_iff.2 ⟨s₂, hthird, rfl⟩)), if_pos hchecks,
    reject_then hconn fitsError_badTag]
  refine ⟨rfl, ?_⟩
  simp only [Conn.pure_apply, World.errorsSent_eq, errorsOf_append, List.append_assoc]
  rfl

omit hconn in
/-- The client's proof drew no `Error`. -/
theorem Authorised.errorsSent {w w₁ : World} {ex : Exchange} (h : Authorised env w ex w₁) :
    w₁.errorsSent = w.errorsSent := by
  rcases h with ⟨_, _, first, fin, hneg⟩
  rcases hneg.frames with ⟨s₁, s₂, _, _, rfl⟩
  simp only [World.errorsSent_eq, errorsOf_append]
  exact List.append_nil _

theorem repliesTo_registry {w w₁ : World} {ex : Exchange} {e : RegistryError} {r : Registry}
    (hauth : Authorised env w ex w₁) (hupdate : ex.update env.now w.stores.registry = (.error e, r)) :
    RepliesTo w (.registry e) (handleConnection env w) := by
  rw [handleConnection_of_authorised hauth, RepliesTo, ← hauth.errorsSent]
  rw [← hauth.stores] at hupdate
  unfold commit
  rw [Conn.bind_of_ok (updateRegistry_apply ex w₁ hupdate)]
  dsimp only
  rw [reject_then hconn (fitsError_registryRejectCode e)]
  refine ⟨rfl, ?_⟩
  simp only [Conn.pure_apply, World.errorsSent_eq, errorsOf_append, List.append_assoc]
  rfl

omit hconn in
/-- A failed install leaves only its reply to be sent. -/
theorem commit_of_install_error {w : World} {ex : Exchange} {slot : PeerSlot} {e : InstallError}
    {r : Registry} (hupdate : ex.update env.now w.stores.registry = (.ok slot, r))
    (hinstall : ex.installResult env slot = .error e) :
    ∃ w', w'.errorsSent = w.errorsSent ∧ commit env ex w =
      (do orIo (← reject env 0x08 e.toText); throw (.install e) : Conn ConnResult) w' := by
  unfold commit
  rw [Conn.bind_of_ok (updateRegistry_apply ex w hupdate)]
  dsimp only
  rw [Conn.bind_of_ok (installPsk_apply ex slot _ hinstall)]
  refine ⟨_, ?_, rfl⟩
  simp only [World.errorsSent_eq, errorsOf_append, List.append_assoc]
  exact List.append_nil _

theorem repliesTo_install {w w₁ : World} {ex : Exchange} {slot : PeerSlot} {e : InstallError}
    {r : Registry} (hauth : Authorised env w ex w₁)
    (hupdate : ex.update env.now w.stores.registry = (.ok slot, r))
    (hinstall : ex.installResult env slot = .error e) (hfits : FitsError e.toText) :
    RepliesTo w (.install e) (handleConnection env w) := by
  rw [← hauth.stores] at hupdate
  rcases commit_of_install_error hupdate hinstall with ⟨w₂, herrors, hcommit⟩
  rw [handleConnection_of_authorised hauth, hcommit, RepliesTo, ← hauth.errorsSent, ← herrors,
    reject_then hconn hfits]
  refine ⟨rfl, ?_⟩
  simp only [Conn.throw_apply, World.errorsSent_eq, errorsOf_append]
  rfl

theorem Rejects.repliesTo {w : World} {cause : Cause} (h : Rejects env w cause)
    (hfits : FitsError cause.reply.message) : RepliesTo w cause (handleConnection env w) := by
  cases h with
  | wrongFirst hread hhello => exact repliesTo_wrongFirst hconn hread hhello
  | crypto hread hhello hrespond => exact repliesTo_crypto hconn hread hhello hrespond
  | wrongThird hgreeted hthird hother => exact repliesTo_wrongThird hconn hgreeted hthird hother
  | badTag hgreeted hthird htag => exact repliesTo_badTag hconn hgreeted hthird htag
  | registry hauth hupdate => exact repliesTo_registry hconn hauth hupdate
  | install hauth hupdate hfailed => exact repliesTo_install hconn hauth hupdate hfailed hfits

/-- A rejection is reported exactly when the output of `wg`, if there is any, leaves room for the
words around it. -/
theorem rejection_reported_iff {stores : Stores} {stream : Stream} {cause : Cause}
    (h : Rejects env (.start stores stream) cause) :
    Reported cause (handleConnection env (.start stores stream)) ↔
      ∀ e, cause = .install e → e.OutputFits := by
  constructor
  · rintro hreported e rfl
    exact InstallError.fitsError_toText_iff.1 hreported.wellFormed.1
  · intro hinstall
    have hfits := h.fitsError fun e he => InstallError.fitsError_toText_iff.2 (hinstall e he)
    rcases h.repliesTo hconn hfits with ⟨hresult, herrors⟩
    exact ⟨herrors, ErrorMsg.wellFormed_iff.2 hfits, hresult⟩

/-! ## Output too long for a frame -/

omit hconn in
/-- An oversized reply is not sent, and its own failure takes the place of what follows. -/
theorem reject_oversized {w : World} {text : String} (hlong : maxPayload < (asBytes text).length + 3)
    (code : UInt8) (k : Conn α) :
    (do orIo (← reject env code text); k) w =
      (.error (.io (.invalidData "payload exceeds MAX_PAYLOAD")), w) := by
  have hrefused : (Message.error { code := code, message := text } : Message AlgoCode).write =
      .error (.invalidData "payload exceeds MAX_PAYLOAD") := by
    refine write_eq_error_iff.2 ⟨?_, rfl⟩
    simp only [Message.encodePayload, List.length_append, List.length_singleton, length_lv]
    omega
  have hreject : reject env code text w =
      (.ok (.error (.invalidData "payload exceeds MAX_PAYLOAD")), w) := by
    simp only [reject, transmit, hrefused]
  rw [Conn.bind_of_ok hreject]
  rfl

omit hconn in
theorem install_error_masked {w w₁ : World} {ex : Exchange} {slot : PeerSlot} {e : InstallError}
    {r : Registry} (hauth : Authorised env w ex w₁)
    (hupdate : ex.update env.now w.stores.registry = (.ok slot, r))
    (hinstall : ex.installResult env slot = .error e)
    (hlong : maxPayload < (asBytes e.toText).length + 3) :
    (handleConnection env w).1 = .error (.io (.invalidData "payload exceeds MAX_PAYLOAD")) ∧
      (handleConnection env w).2.errorsSent = w.errorsSent := by
  rw [← hauth.stores] at hupdate
  rcases commit_of_install_error hupdate hinstall with ⟨w₂, herrors, hcommit⟩
  rw [handleConnection_of_authorised hauth, hcommit, reject_oversized hlong, ← hauth.errorsSent]
  exact ⟨rfl, herrors⟩

omit hconn

namespace Reference

/-- A server whose installs all fail alike. -/
noncomputable def failing (e : InstallError) : HandlerEnv Crypto.Reference.primitives :=
  Reference.env fun _ _ _ _ => .error e

theorem connected_failing (e : InstallError) : (failing e).Connected := ⟨rfl, rfl, fun _ => rfl⟩

/-- A first client of such a server proves itself and is accepted. -/
theorem accepted_failing (e : InstallError) :
    ∃ ex w₁ slot r, Authorised (failing e) (.start stores (provingStream (failing e) hello none)) ex w₁ ∧
      ex.update (failing e).now stores.registry = (.ok slot, r) ∧
      ex.installResult (failing e) slot = .error e := by
  rcases authorised fun _ _ _ _ => .error e with ⟨ex, w₁, hauth, _, hkind⟩
  rcases Exchange.update_of_accepts (accepts_first hkind) (failing e).now with ⟨q, hq⟩
  exact ⟨ex, w₁, q.slot, _, hauth, hq, rfl⟩

theorem rejects_failing (e : InstallError) :
    Rejects (failing e) (.start stores (provingStream (failing e) hello none)) (.install e) := by
  rcases accepted_failing e with ⟨ex, w₁, slot, r, hauth, hupdate, hinstall⟩
  exact .install hauth hupdate hinstall

/-- `wg` failing with `n` bytes on its standard error. -/
def verbose (n : Nat) : InstallError := .wgFailed (some 1) (String.ofList (List.replicate n 'x'))

theorem length_asBytes_trim_replicate (n : Nat) :
    (asBytes (trim (String.ofList (List.replicate n 'x')))).length = n := by
  have hspace : isWhitespace 'x' = false := by decide
  have htrim : trim (String.ofList (List.replicate n 'x')) = String.ofList (List.replicate n 'x') := by
    simp [trim, hspace]
  have hsize : 'x'.utf8Size = 1 := by decide
  rw [htrim]
  simp [asBytes, hsize]

theorem outputFits_verbose_iff {n : Nat} : (verbose n).OutputFits ↔ n ≤ 228 := by
  have hcode : (asBytes (debugCode (some 1))).length = 7 := by decide
  change (asBytes (debugCode (some 1))).length +
    (asBytes (trim (String.ofList (List.replicate n 'x')))).length ≤ 235 ↔ n ≤ 228
  rw [hcode, length_asBytes_trim_replicate]
  omega

end Reference

/-- A refused `wg` whose complaint is short is reported. -/
theorem short_complaint_reported :
    Reported (.install (Reference.verbose 228))
      (handleConnection (Reference.failing (Reference.verbose 228))
        (.start Reference.stores
          (provingStream (Reference.failing (Reference.verbose 228)) Reference.hello none))) := by
  refine (rejection_reported_iff (Reference.connected_failing _) (Reference.rejects_failing _)).2 ?_
  intro e he
  cases he
  exact Reference.outputFits_verbose_iff.2 (le_refl 228)

/-- With 8192 bytes of complaint nothing is sent, and the result names the encoder instead. -/
theorem long_complaint_not_reported :
    let e := Reference.verbose 8192
    let w : World := .start Reference.stores (provingStream (Reference.failing e) Reference.hello none)
    (Reference.failing e).Connected ∧ Rejects (Reference.failing e) w (.install e) ∧
      (handleConnection (Reference.failing e) w).1 =
        .error (.io (.invalidData "payload exceeds MAX_PAYLOAD")) ∧
      (handleConnection (Reference.failing e) w).2.errorsSent = [] ∧
      ¬ Reported (.install e) (handleConnection (Reference.failing e) w) := by
  intro e w
  rcases Reference.accepted_failing e with ⟨ex, w₁, slot, r, hauth, hupdate, hinstall⟩
  -- the complaint alone fills a payload
  have hlong : maxPayload < (asBytes e.toText).length + 3 := by
    have hmax : maxPayload = 8192 := rfl
    change maxPayload < (asBytes ("`wg` failed (exit " ++ debugCode (some 1) ++ "): " ++
      trim (String.ofList (List.replicate 8192 'x')))).length + 3
    rw [asBytes_append, List.length_append, Reference.length_asBytes_trim_replicate]
    omega
  rcases install_error_masked hauth hupdate hinstall hlong with ⟨hresult, herrors⟩
  refine ⟨Reference.connected_failing e, .install hauth hupdate hinstall, hresult, herrors, ?_⟩
  intro hreported
  have hcause := hreported.result
  rw [hresult] at hcause
  cases hcause

end Server
end PqcVpn
