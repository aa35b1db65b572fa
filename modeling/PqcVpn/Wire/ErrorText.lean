import PqcVpn.Lib.Raises
import PqcVpn.Wire.Frames

/-!
# ErrorText — the texts of `Error` replies

The protocol allows an `Error` frame a text of 256 bytes.  The texts of wire errors are fixed and
short, so whatever made a read fail, its `Error` reply can be encoded.
-/

namespace PqcVpn
namespace Wire

/-- Bytes the protocol allows in the text of an `Error`. -/
def maxErrorText : Nat := 256

/-- The text fits an `Error` frame. -/
def FitsError (text : String) : Prop := (asBytes text).length ≤ maxErrorText

/-! ## Lengths of texts -/

theorem asBytes_append (s t : String) : asBytes (s ++ t) = asBytes s ++ asBytes t := by
  simp [asBytes]

theorem length_utf8EncodeChar_le (c : Char) : (String.utf8EncodeChar c).length ≤ 4 := by
  rw [String.length_utf8EncodeChar]
  exact c.utf8Size_le_four

/-- A character takes at most four bytes. -/
theorem length_asBytes_le (s : String) : (asBytes s).length ≤ 4 * s.length := by
  -- induction on the characters, each of at most four bytes
  have hchars (cs : List Char) : (cs.flatMap String.utf8EncodeChar).length ≤ 4 * cs.length := by
    induction cs with
    | nil => simp
    | cons c cs ih =>
        have hc := length_utf8EncodeChar_le c
        rw [List.flatMap_cons, List.length_append, List.length_cons]
        omega
  exact hchars s.toList

/-- A short text fits. -/
theorem fitsError_of_length_le {text : String} (h : text.length ≤ 64) : FitsError text := by
  have hle := length_asBytes_le text
  unfold FitsError maxErrorText
  omega

/-! ## Wire errors -/

namespace WireError

/-- The error's text fits an `Error` frame. -/
def Fits (e : WireError) : Prop := FitsError e.toText

theorem length_hexByte (v : UInt8) : (hexByte v).length = 4 := String.length_ofList

theorem fits_unsupportedVersion (v : UInt8) : Fits (.unsupportedVersion v) := by
  have hprefix : "unsupported protocol version ".length = 29 := by decide
  have hlen : ("unsupported protocol version " ++ hexByte v).length ≤ 64 := by
    rw [String.length_append, hprefix, length_hexByte]
    omega
  exact fitsError_of_length_le hlen

theorem fits_unknownMsgType (t : UInt8) : Fits (.unknownMsgType t) := by
  have hprefix : "unknown message type ".length = 21 := by decide
  have hlen : ("unknown message type " ++ hexByte t).length ≤ 64 := by
    rw [String.length_append, hprefix, length_hexByte]
    omega
  exact fitsError_of_length_le hlen

theorem fits_lengthOutOfRange : Fits .lengthOutOfRange := fitsError_of_length_le (by decide)

theorem fits_truncated : Fits .truncated := fitsError_of_length_le (by decide)

theorem fits_invalid {what : String} (h : what.length ≤ 48) : Fits (.invalid what) := by
  have hprefix : "invalid ".length = 8 := by decide
  have hlen : ("invalid " ++ what).length ≤ 64 := by
    rw [String.length_append, hprefix]
    omega
  exact fitsError_of_length_le hlen

end WireError

open WireError

theorem raises_take (n : Nat) : Raises Fits (Reader.take n) := by
  intro r e h
  unfold Reader.take at h
  split at h
  · cases h
    exact fits_truncated
  · cases h

theorem raises_takeU8 : Raises Fits Reader.takeU8 := .bind (raises_take 1) fun _ => .pure _

theorem raises_takeU16 : Raises Fits Reader.takeU16 := .bind (raises_take 2) fun _ => .pure _

theorem raises_takeArr (n : Nat) {what : String} (h : what.length ≤ 48) :
    Raises Fits (Reader.takeArr n what) := by
  intro r e he
  unfold Reader.takeArr at he
  split at he
  · cases he
  · cases he
    exact fits_invalid h

theorem raises_takeLv : Raises Fits Reader.takeLv := by
  refine .bind raises_takeU16 fun n => ?_
  dsimp only
  split
  · exact .throw fits_lengthOutOfRange
  · exact .bind (raises_take n.toNat) fun _ => .pure _

theorem raises_takeLvArr (n : Nat) {what : String} (h : what.length ≤ 48) :
    Raises Fits (Reader.takeLvArr n what) := by
  refine .bind raises_takeLv fun v => ?_
  cases Bytes.tryFrom n v with
  | none => exact .throw (fits_invalid h)
  | some a => exact .pure a

theorem raises_takeLvLen (n : Nat) {what : String} (h : what.length ≤ 48) :
    Raises Fits (Reader.takeLvLen n what) := by
  refine .bind raises_takeLv fun v => ?_
  dsimp only
  split
  · exact .throw (fits_invalid h)
  · exact .pure v

theorem raises_expectEnd : Raises Fits Reader.expectEnd := by
  intro r e h
  unfold Reader.expectEnd at h
  split at h
  · cases h
  · cases h
    exact fits_invalid (by decide)

theorem raises_algo : ∀ e, (b : UInt8) → AlgoCode.fromU8 b = .error e → Fits e := by
  intro e b h
  unfold AlgoCode.fromU8 at h
  split at h <;> cases h
  exact fits_invalid (by decide)

theorem raises_clientHello : Raises Fits (ClientHello.decodeFrom : Decode (ClientHello AlgoCode)) := by
  refine .bind raises_takeU8 fun b => ?_
  refine .bind (.lift fun e => raises_algo e b) fun algo => ?_
  refine .bind (raises_takeArr 32 (by decide)) fun _ => ?_
  refine .bind (raises_takeArr 32 (by decide)) fun _ => ?_
  refine .bind (raises_takeLvArr 32 (by decide)) fun _ => ?_
  exact .bind (raises_takeLvLen _ (by decide)) fun _ => .pure _

theorem raises_serverHello : Raises Fits (ServerHello.decodeFrom : Decode (ServerHello AlgoCode)) := by
  refine .bind raises_takeU8 fun b => ?_
  refine .bind (.lift fun e => raises_algo e b) fun algo => ?_
  refine .bind (raises_takeArr 16 (by decide)) fun _ => ?_
  refine .bind (raises_takeArr 32 (by decide)) fun _ => ?_
  refine .bind (raises_takeLvArr 32 (by decide)) fun _ => ?_
  refine .bind (raises_takeLvLen _ (by decide)) fun _ => ?_
  exact .bind (raises_takeLvLen _ (by decide)) fun _ => .pure _

theorem raises_decodeFields (ty : MsgType) :
    Raises Fits (Message.decodeFields ty : Decode (Message AlgoCode)) := by
  -- one bind for each field of the message
  cases ty with
  | clientHello => exact .bind raises_clientHello fun _ => .pure _
  | serverHello => exact .bind raises_serverHello fun _ => .pure _
  | clientFinish =>
      refine .bind (raises_takeArr 16 (by decide)) fun _ => ?_
      exact .bind (raises_takeArr 32 (by decide)) fun _ => .pure _
  | serverFinish =>
      refine .bind (raises_takeArr 16 (by decide)) fun _ => ?_
      refine .bind (raises_takeArr 32 (by decide)) fun _ => ?_
      refine .bind (raises_takeArr 32 (by decide)) fun _ => ?_
      refine .bind (raises_takeArr 4 (by decide)) fun _ => ?_
      exact .bind raises_takeU16 fun _ => .pure _
  | rekeyRequest =>
      refine .bind (raises_takeArr 16 (by decide)) fun _ => ?_
      exact .bind raises_clientHello fun _ => .pure _
  | error =>
      refine .bind raises_takeU8 fun _ => ?_
      exact .bind raises_takeLv fun _ => .pure _

theorem fits_of_decodePayload {ty : MsgType} {payload : List UInt8} {e : WireError}
    (h : (Message.decodePayload ty payload : Except WireError (Message AlgoCode)) = .error e) :
    e.Fits :=
  (Raises.bind (raises_decodeFields ty) fun _ => .bind raises_expectEnd fun _ => .pure _).run' h

theorem fits_of_fromU8 {b : UInt8} {e : WireError} (h : MsgType.fromU8 b = .error e) : e.Fits := by
  unfold MsgType.fromU8 at h
  split at h <;> cases h
  exact fits_unknownMsgType _

/-- A transport error, or a wire error whose text fits. -/
def FrameError.FitsIfWire : FrameError → Prop
  | .io _ => True
  | .wire e => e.Fits

theorem raises_readExact (n : Nat) : ExceptState.Raises FrameError.FitsIfWire (readExact n) := by
  intro s e s' h
  unfold readExact at h
  split at h
  · cases h
  · cases h
    trivial

theorem raises_liftWire {α : Type} {x : Except WireError α} (hx : ∀ e, x = .error e → e.Fits) :
    ExceptState.Raises FrameError.FitsIfWire (liftWire x) := by
  cases x with
  | ok a => exact .pure a
  | error e => exact .throw (hx e rfl)

/-- Every wire error of a read has a text that fits its `Error` reply. -/
theorem fits_of_read {s s' : Stream} {e : WireError}
    (h : Message.read (A := AlgoCode) s = (.error (.wire e), s')) : e.Fits := by
  have hread : ExceptState.Raises FrameError.FitsIfWire (Message.read : FrameM (Message AlgoCode)) := by
    -- the checks in the order of the source: version, type, length, payload
    refine .bind (raises_readExact 4) fun header => ?_
    dsimp only
    split
    · exact .throw (fits_unsupportedVersion _)
    refine .bind (raises_liftWire fun e => fits_of_fromU8) fun ty => ?_
    split
    · exact .throw fits_lengthOutOfRange
    exact .bind (raises_readExact _) fun payload => raises_liftWire fun e => fits_of_decodePayload
  exact hread s _ s' h

/-! ## `Error` frames -/

/-- An `Error` can be sent as long as its text fits a payload. -/
theorem error_writes_iff {m : ErrorMsg} :
    (∃ frame, (Message.error m : Message AlgoCode).write = .ok frame) ↔
      (asBytes m.message).length + 3 ≤ maxPayload := by
  have hlen : (Message.error m : Message AlgoCode).encodePayload.length =
      (asBytes m.message).length + 3 := by
    simp only [Message.encodePayload, List.length_append, List.length_singleton, length_lv]
    omega
  rw [← hlen]
  constructor
  · rintro ⟨frame, h⟩
    exact (write_eq_ok_iff.1 h).1
  · intro h
    exact ⟨_, write_eq_ok_iff.2 ⟨h, rfl⟩⟩

/-- An `Error` as the protocol describes it: a text that fits, in a frame that reads back. -/
def ErrorMsg.WellFormed (m : ErrorMsg) : Prop :=
  FitsError m.message ∧ ∃ frame, (Message.error m : Message AlgoCode).write = .ok frame ∧
    ∀ rest e, Message.read (A := AlgoCode) ⟨frame ++ rest, e⟩ = (.ok (.error m), ⟨rest, e⟩)

/-- The text is all that can be wrong with an `Error`. -/
theorem ErrorMsg.wellFormed_iff {m : ErrorMsg} : m.WellFormed ↔ FitsError m.message := by
  refine ⟨And.left, fun h => ⟨h, ?_⟩⟩
  have hmax : maxPayload = 8192 := rfl
  have htext : (asBytes m.message).length ≤ 256 := h
  -- a text of 256 bytes is far below what a frame can carry
  rcases error_writes_iff.2 (show (asBytes m.message).length + 3 ≤ maxPayload by omega) with
    ⟨frame, hframe⟩
  exact ⟨frame, hframe, read_of_write (decodes_error m (by omega)) hframe⟩

end Wire
end PqcVpn
