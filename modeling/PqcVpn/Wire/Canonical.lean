import PqcVpn.Lib.Tiling
import PqcVpn.Wire.Frames

/-!
# Canonical — the decoder accepts only what the encoder produces

Each read of the payload parser takes exactly the bytes the encoder writes for the value it returns,
so the reads of a message tile its payload and the end check leaves no byte over.  The one exception
is the text of an `Error`: bytes that are not UTF-8 are replaced on the way in.
-/

namespace PqcVpn
namespace Wire

variable {α β : Type}

/-! ## Fields -/

theorem tiles_take (n : Nat) : Tiles Reader.rest (Reader.take n) fun s b => s = b.toList := by
  intro r b r' hok
  unfold Reader.take at hok
  split at hok
  · cases hok
  · cases hok
    refine ⟨_, ?_, rfl⟩
    have hsplit := List.take_append_drop n r.rest
    rw [Reader.rest, List.drop_drop] at hsplit
    exact hsplit.symm

theorem toList_one (b : Bytes 1) : b.toList = [b.get 0] := by
  rcases b with ⟨l, hl⟩
  rcases List.length_eq_one_iff.1 hl with ⟨x, rfl⟩
  rfl

theorem tiles_takeU8 : Tiles Reader.rest Reader.takeU8 fun s v => s = [v] := by
  refine (tiles_take 1).bind ?_
  rintro s b rfl
  refine .pure ?_
  rw [List.append_nil]
  exact toList_one b

/-- The number a big-endian pair of bytes spells is written as that pair. -/
theorem u16ToBeBytes_ofNat (x y : UInt8) :
    u16ToBeBytes (UInt16.ofNat (x.toNat * 256 + y.toNat)) = [x, y] := by
  have hx := x.toNat_lt
  have hy := y.toNat_lt
  have hnat : (UInt16.ofNat (x.toNat * 256 + y.toNat)).toNat = x.toNat * 256 + y.toNat := by
    rw [UInt16.toNat_ofNat', Nat.mod_eq_of_lt]
    omega
  have hhigh : (x.toNat * 256 + y.toNat) / 256 = x.toNat := by omega
  have hlow : (x.toNat * 256 + y.toNat) % 256 = y.toNat := by omega
  rw [u16ToBeBytes, hnat, hhigh, hlow, UInt8.ofNat_toNat, UInt8.ofNat_toNat]

theorem tiles_takeU16 : Tiles Reader.rest Reader.takeU16 fun s v => s = u16ToBeBytes v := by
  refine (tiles_take 2).bind ?_
  rintro s b rfl
  refine .pure ?_
  rw [List.append_nil, u16ToBeBytes_ofNat]
  rcases b with ⟨l, hl⟩
  rcases List.length_eq_two.1 hl with ⟨x, y, rfl⟩
  rfl

theorem tiles_takeArr (n : Nat) (what : String) :
    Tiles Reader.rest (Reader.takeArr n what) fun s b => s = b.toList := by
  intro r b r' hok
  unfold Reader.takeArr at hok
  cases htake : Reader.take n r with
  | error e =>
      rw [htake] at hok
      cases hok
  | ok a =>
      rw [htake] at hok
      cases hok
      exact tiles_take n r b r' htake

theorem tiles_takeLv : Tiles Reader.rest Reader.takeLv fun s v => s = lv v := by
  refine tiles_takeU16.bind ?_
  rintro s n rfl
  refine Tiles.ite (fun _ => ?_) (fun _ => ?_)
  · exact .throw
  · refine (tiles_take n.toNat).bind ?_
    rintro t b rfl
    refine .pure ?_
    rw [List.append_nil, lv, b.toList_length, UInt16.ofNat_toNat]

theorem tiles_takeLvArr (n : Nat) (what : String) :
    Tiles Reader.rest (Reader.takeLvArr n what) fun s b => s = lv b.toList := by
  refine tiles_takeLv.bind ?_
  rintro s v rfl
  cases hv : Bytes.tryFrom n v with
  | none =>
      exact .throw
  | some a =>
      refine .pure ?_
      rw [List.append_nil, Bytes.tryFrom_eq_some_iff.1 hv]

theorem tiles_takeLvLen (n : Nat) (what : String) :
    Tiles Reader.rest (Reader.takeLvLen n what) fun s v => s = lv v ∧ v.length = n := by
  refine tiles_takeLv.bind ?_
  rintro s v rfl
  refine Tiles.ite (fun _ => ?_) (fun hlen => ?_)
  · exact .throw
  · refine .pure ⟨?_, not_not.1 hlen⟩
    rw [List.append_nil]

/-! ## Messages -/

/-- What the codec relies on: an accepted algorithm byte is the code of its algorithm. -/
class CanonicalWireAlgo (A : Type) [WireAlgo A] : Prop where
  toU8_of_fromU8 : ∀ (b : UInt8) (a : A), WireAlgo.fromU8 b = .ok a → WireAlgo.toU8 a = b

instance : CanonicalWireAlgo AlgoCode where
  toU8_of_fromU8 := by
    intro b a h
    change AlgoCode.fromU8 b = .ok a at h
    unfold AlgoCode.fromU8 at h
    split at h <;> cases h <;> rfl

theorem MsgType.toU8_of_fromU8 {b : UInt8} {ty : MsgType} (h : MsgType.fromU8 b = .ok ty) :
    ty.toU8 = b := by
  unfold MsgType.fromU8 at h
  split at h <;> cases h <;> rfl

/-- The bytes are the UTF-8 encoding of some text. -/
def ValidUtf8 (bytes : List UInt8) : Prop := ∃ s : String, asBytes s = bytes

theorem validUtf8_iff {bytes : List UInt8} :
    ValidUtf8 bytes ↔ asBytes (fromUtf8Lossy bytes) = bytes := by
  constructor
  · rintro ⟨s, rfl⟩
    rw [fromUtf8Lossy_asBytes]
  · intro h
    exact ⟨_, h⟩

instance : DecidablePred ValidUtf8 := fun _ => decidable_of_iff _ validUtf8_iff.symm

section Codec

variable {A : Type} [WireAlgo A] [CanonicalWireAlgo A]

theorem tiles_algo (b : UInt8) :
    Tiles Reader.rest (liftM (WireAlgo.fromU8 b : Except WireError A) : Decode A)
      fun s a => s = [] ∧ WireAlgo.toU8 a = b :=
  .lift fun a h => ⟨rfl, CanonicalWireAlgo.toU8_of_fromU8 b a h⟩

theorem tiles_clientHello : Tiles Reader.rest (ClientHello.decodeFrom : Decode (ClientHello A))
    fun s m => s = m.encodeInto ∧ m.WellSized := by
  refine tiles_takeU8.bind ?_
  rintro _ b rfl
  refine (tiles_algo b).bind ?_
  rintro _ algo ⟨rfl, hb⟩
  refine (tiles_takeArr 32 _).bind ?_
  rintro _ clientNonce rfl
  refine (tiles_takeArr 32 _).bind ?_
  rintro _ clientWgPubkey rfl
  refine (tiles_takeLvArr 32 _).bind ?_
  rintro _ clientX25519Pub rfl
  refine (tiles_takeLvLen _ _).bind ?_
  rintro _ clientMlkemPub ⟨rfl, hlen⟩
  refine .pure ⟨?_, hlen⟩
  simp [ClientHello.encodeInto, hb]

theorem tiles_serverHello : Tiles Reader.rest (ServerHello.decodeFrom : Decode (ServerHello A))
    fun s m => s = m.encodeInto ∧ m.WellSized := by
  refine tiles_takeU8.bind ?_
  rintro _ b rfl
  refine (tiles_algo b).bind ?_
  rintro _ algo ⟨rfl, hb⟩
  refine (tiles_takeArr 16 _).bind ?_
  rintro _ sessionId rfl
  refine (tiles_takeArr 32 _).bind ?_
  rintro _ serverNonce rfl
  refine (tiles_takeLvArr 32 _).bind ?_
  rintro _ serverX25519Pub rfl
  refine (tiles_takeLvLen _ _).bind ?_
  rintro _ mlkemCiphertext ⟨rfl, hct⟩
  refine (tiles_takeLvLen _ _).bind ?_
  rintro _ signature ⟨rfl, hsig⟩
  refine .pure ⟨?_, hct, hsig⟩
  simp [ServerHello.encodeInto, hb]

/-- The text of an `Error` payload (behind the code and the length) is UTF-8. -/
def Utf8Payload (ty : MsgType) (payload : List UInt8) : Prop :=
  ty = .error → ValidUtf8 (payload.drop 3)

theorem tiles_decodeFields (ty : MsgType) :
    Tiles Reader.rest (Message.decodeFields ty : Decode (Message A)) fun s m =>
      m.msgType = ty ∧ m.WellSized ∧ (Utf8Payload ty s → s = m.encodePayload) := by
  cases ty with
  | clientHello =>
      refine tiles_clientHello.bind ?_
      rintro _ m ⟨rfl, hsized⟩
      exact .pure ⟨rfl, hsized, fun _ => List.append_nil _⟩
  | serverHello =>
      refine tiles_serverHello.bind ?_
      rintro _ m ⟨rfl, hsized⟩
      exact .pure ⟨rfl, hsized, fun _ => List.append_nil _⟩
  | clientFinish =>
      refine (tiles_takeArr 16 _).bind ?_
      rintro _ sessionId rfl
      refine (tiles_takeArr 32 _).bind ?_
      rintro _ clientTag rfl
      refine .pure ⟨rfl, trivial, fun _ => ?_⟩
      simp [Message.encodePayload]
  | serverFinish =>
      refine (tiles_takeArr 16 _).bind ?_
      rintro _ sessionId rfl
      refine (tiles_takeArr 32 _).bind ?_
      rintro _ serverTag rfl
      refine (tiles_takeArr 32 _).bind ?_
      rintro _ serverWgPubkey rfl
      refine (tiles_takeArr 4 _).bind ?_
      rintro _ assignedIp rfl
      refine tiles_takeU16.bind ?_
      rintro _ wgPort rfl
      refine .pure ⟨rfl, trivial, fun _ => ?_⟩
      simp [Message.encodePayload]
  | rekeyRequest =>
      refine (tiles_takeArr 16 _).bind ?_
      rintro _ sessionId rfl
      refine tiles_clientHello.bind ?_
      rintro _ hello ⟨rfl, hsized⟩
      refine .pure ⟨rfl, hsized, fun _ => ?_⟩
      simp [Message.encodePayload]
  | error =>
      refine tiles_takeU8.bind ?_
      rintro _ code rfl
      refine tiles_takeLv.bind ?_
      rintro _ text rfl
      refine .pure ⟨rfl, trivial, fun hvalid => ?_⟩
      -- lossy decoding loses nothing on UTF-8
      have htext : asBytes (fromUtf8Lossy text) = text := validUtf8_iff.1 (by
        simpa [lv, u16ToBeBytes] using hvalid rfl)
      simp [Message.encodePayload, htext]

/-- A payload that decodes is the payload of the message it decodes to. -/
theorem decodePayload_eq_ok {ty : MsgType} {payload : List UInt8} {m : Message A}
    (h : Message.decodePayload ty payload = .ok m) :
    m.msgType = ty ∧ m.WellSized ∧ (Utf8Payload ty payload → payload = m.encodePayload) := by
  rcases decodePayload_eq_ok_iff.1 h with ⟨r', hfields, hend⟩
  -- the fields tile the payload up to the reader's position, and nothing is left there
  rcases tiles_decodeFields ty _ _ _ hfields with ⟨s, hs, hm⟩
  rw [Reader.rest_new, hend, List.append_nil] at hs
  subst hs
  exact hm

omit [CanonicalWireAlgo A]

/-! ## Frames -/

theorem readExact_eq_ok {n : Nat} {s s' : Stream} {b : Bytes n}
    (h : readExact n s = (.ok b, s')) : s.bytes = b.toList ++ s'.bytes ∧ s'.atEnd = s.atEnd := by
  unfold readExact at h
  split at h
  · cases h
    exact ⟨(List.take_append_drop n s.bytes).symm, rfl⟩
  · cases h

theorem toList_four (b : Bytes 4) : b.toList = [b.get 0, b.get 1, b.get 2, b.get 3] := by
  rcases b with ⟨l, hl⟩
  match l, hl with
  | [_, _, _, _], _ => rfl

theorem liftWire_eq_ok {x : Except WireError α} {a : α} {s s' : Stream}
    (h : liftWire x s = (.ok a, s')) : x = .ok a ∧ s' = s := by
  cases x with
  | error e =>
      cases h
  | ok b =>
      cases h
      exact ⟨rfl, rfl⟩

/-- A read that succeeds took one frame: a right header, the stated number of bytes, and a payload
that decodes. -/
theorem read_eq_ok {s s' : Stream} {m : Message A} (h : Message.read s = (.ok m, s')) :
    ∃ (ty : MsgType) (payload : List UInt8), payload.length ≤ maxPayload ∧
      s.bytes = [protocolVersion, ty.toU8] ++ u16ToBeBytes (UInt16.ofNat payload.length) ++
        payload ++ s'.bytes ∧
      s'.atEnd = s.atEnd ∧ Message.decodePayload ty payload = .ok m := by
  unfold Message.read at h
  rcases ExceptState.bind_eq_ok_iff.1 h with ⟨header, s₁, hheader, h₁⟩
  rcases readExact_eq_ok hheader with ⟨hbytes₁, hend₁⟩
  dsimp only at h₁
  -- the checks of the header, then the payload it announces
  by_cases hversion : header.get 0 ≠ protocolVersion
  · rw [if_pos hversion] at h₁
    rcases ExceptState.bind_eq_ok_iff.1 h₁ with ⟨_, _, hthrow, _⟩
    cases hthrow
  · rw [if_neg hversion] at h₁
    rcases ExceptState.bind_eq_ok_iff.1 h₁ with ⟨ty, s₂, hty, h₂⟩
    rcases liftWire_eq_ok hty with ⟨hcode, rfl⟩
    set len := UInt16.ofNat ((header.get 2).toNat * 256 + (header.get 3).toNat) with hlen
    by_cases hlong : len.toNat > maxPayload
    · rw [if_pos hlong] at h₂
      rcases ExceptState.bind_eq_ok_iff.1 h₂ with ⟨_, _, hthrow, _⟩
      cases hthrow
    · rw [if_neg hlong] at h₂
      rcases ExceptState.bind_eq_ok_iff.1 h₂ with ⟨payload, s₃, hpayload, h₃⟩
      rcases readExact_eq_ok hpayload with ⟨hbytes₂, hend₂⟩
      rcases liftWire_eq_ok h₃ with ⟨hdecode, rfl⟩
      refine ⟨ty, payload.toList, ?_, ?_, hend₂.trans hend₁, hdecode⟩
      · rw [payload.toList_length]
        omega
      -- the header is spelled by the values that were read from it
      · have hspell : [protocolVersion, ty.toU8] ++ u16ToBeBytes len = header.toList := by
          rw [hlen, u16ToBeBytes_ofNat, MsgType.toU8_of_fromU8 hcode, ← not_not.1 hversion]
          exact (toList_four header).symm
        rw [payload.toList_length, UInt16.ofNat_toNat, hspell, hbytes₁, hbytes₂,
          List.append_assoc]

/-- If the message is an `Error`, the text bytes of its frame are UTF-8. -/
def TextIsUtf8 (m : Message A) (frame : List UInt8) : Prop :=
  ∀ err, m = .error err → ValidUtf8 (frame.drop 7)

/-- Behind the header, the error code and the length stands the text. -/
theorem textIsUtf8_of_write {m : Message A} {frame : List UInt8} (h : m.write = .ok frame) :
    TextIsUtf8 m frame := by
  rintro err rfl
  rcases write_eq_ok_iff.1 h with ⟨_, rfl⟩
  exact ⟨err.message, by simp [Message.encodePayload, lv, u16ToBeBytes]⟩

section Canonical

variable [CanonicalWireAlgo A]

/-- A read consumes the frame of a well-sized message, and unless a text was not UTF-8 it is the
frame `write` produces for the message read. -/
theorem read_eq_ok_written {s s' : Stream} {m : Message A} (h : Message.read s = (.ok m, s')) :
    m.WellSized ∧ ∃ n, n ≤ s.bytes.length ∧ s' = ⟨s.bytes.drop n, s.atEnd⟩ ∧
      (TextIsUtf8 m (s.bytes.take n) → m.write = .ok (s.bytes.take n)) := by
  rcases read_eq_ok h with ⟨ty, payload, hle, hbytes, hend, hdecode⟩
  rcases decodePayload_eq_ok hdecode with ⟨rfl, hsized, hpayload⟩
  set frame := [protocolVersion, m.msgType.toU8] ++
    u16ToBeBytes (UInt16.ofNat payload.length) ++ payload with hframe
  have hsplit : s.bytes.take frame.length = frame ∧ s.bytes.drop frame.length = s'.bytes := by
    rw [hbytes]
    exact ⟨List.take_left, List.drop_left⟩
  refine ⟨hsized, frame.length, ?_, ?_, ?_⟩
  · rw [hbytes]
    exact (List.prefix_append frame s'.bytes).length_le
  · rw [hsplit.2, ← hend]
  · rw [hsplit.1]
    intro htext
    -- the text stands seven bytes into the frame: header, error code and its own length
    have hutf8 : Utf8Payload m.msgType payload := by
      intro hty
      cases m with
      | error err =>
          have hvalid := htext err rfl
          simpa [hframe, u16ToBeBytes] using hvalid
      | _ =>
          cases hty
    have hencode := hpayload hutf8
    exact write_eq_ok_iff.2 ⟨hencode ▸ hle, by rw [hframe, ← hencode]⟩

/-- A frame that is read to its end is the frame of the message read. -/
theorem written_of_read_whole {frame : List UInt8} {e : IoError} {m : Message A}
    (h : Message.read ⟨frame, e⟩ = (.ok m, ⟨[], e⟩)) (htext : TextIsUtf8 m frame) :
    m.WellSized ∧ m.write = .ok frame := by
  rcases read_eq_ok_written h with ⟨hsized, n, hn, hs', hwrite⟩
  have hnil : frame.drop n = [] := congrArg Stream.bytes hs'.symm
  have htake : frame.take n = frame := by
    have hsplit := List.take_append_drop n frame
    rwa [hnil, List.append_nil] at hsplit
  dsimp only at hwrite
  rw [htake] at hwrite
  exact ⟨hsized, hwrite htext⟩

end Canonical

/-- The server's decoder and the frames of the server's encoder. -/
theorem server_accepts_only_written :
    (∀ (b : List UInt8) (e : IoError) (m : Message AlgoCode) (s' : Stream),
      Message.read ⟨b, e⟩ = (.ok m, s') →
        ∃ n, n ≤ b.length ∧ s' = ⟨b.drop n, e⟩ ∧
          (TextIsUtf8 m (b.take n) → m.write = .ok (b.take n))) ∧
    (∀ (frame frame' : List UInt8) (e e' : IoError) (m : Message AlgoCode),
      Message.read ⟨frame, e⟩ = (.ok m, ⟨[], e⟩) → TextIsUtf8 m frame →
      Message.read ⟨frame', e'⟩ = (.ok m, ⟨[], e'⟩) → TextIsUtf8 m frame' → frame = frame') ∧
    ∀ (frame : List UInt8) (e : IoError) (m : Message AlgoCode),
      (Message.read ⟨frame, e⟩ = (.ok m, ⟨[], e⟩) ∧ TextIsUtf8 m frame) ↔
        m.WellSized ∧ m.encodePayload.length ≤ maxPayload ∧
          frame = [protocolVersion, m.msgType.toU8] ++
            u16ToBeBytes (UInt16.ofNat m.encodePayload.length) ++ m.encodePayload := by
  refine ⟨?_, ?_, ?_⟩
  · intro b e m s' h
    exact (read_eq_ok_written h).2
  · intro frame frame' e e' m h htext h' htext'
    have hwrite := (written_of_read_whole h htext).2
    rw [(written_of_read_whole h' htext').2] at hwrite
    exact (Except.ok.inj hwrite).symm
  · intro frame e m
    constructor
    · rintro ⟨h, htext⟩
      rcases written_of_read_whole h htext with ⟨hsized, hwrite⟩
      exact ⟨hsized, write_eq_ok_iff.1 hwrite⟩
    · rintro ⟨hsized, hwrite⟩
      have hwrite := write_eq_ok_iff.2 hwrite
      have hread := (read_emitted hwrite [] e).1 hsized
      rw [List.append_nil] at hread
      exact ⟨hread, textIsUtf8_of_write hwrite⟩

end Codec

end Wire
end PqcVpn
