import PqcVpn.Wire.RoundTrip

/-!
# Frames — every emitted frame reads back or is refused

A message whose key, ciphertext and signature have the lengths of its algorithm is read back.  Any
other message that fits a frame is refused for the length that is wrong: the sender's prefix states
the length it really wrote, since a payload that fits leaves no prefix truncated.
-/

namespace PqcVpn
namespace Wire

open Crypto (MlKemLevel)

variable {α β : Type}

/-! ## Refusals -/

/-- On these bytes, whatever follows, the decoder fails with `e`. -/
def Rejects (d : Decode α) (bytes : List UInt8) (e : WireError) : Prop :=
  ∀ (r : Reader) (rest : List UInt8), r.rest = bytes ++ rest → d r = .error e

namespace Rejects

theorem bind {d : Decode α} {f : α → Decode β} {s t : List UInt8} {e : WireError}
    (hd : Rejects d s e) : Rejects (d >>= f) (s ++ t) e := by
  intro r rest h
  rw [List.append_assoc] at h
  change (d r >>= fun p => f p.1 p.2) = _
  rw [hd r _ h]
  rfl

/-- A decoder whose last read fails. -/
theorem bind_nil {d : Decode α} {f : α → Decode β} {s : List UInt8} {e : WireError}
    (hd : Rejects d s e) : Rejects (d >>= f) s e := by
  have h := hd.bind (f := f) (t := [])
  rwa [List.append_nil] at h

theorem run_new {d : Decode α} {bytes : List UInt8} {e : WireError} (hd : Rejects d bytes e) :
    d (Reader.new bytes) = .error e :=
  hd (Reader.new bytes) [] (by simp)

end Rejects

theorem Parses.bind_rejects {d : Decode α} {f : α → Decode β} {s t : List UInt8} {a : α}
    {e : WireError} (hd : Parses d s a) (hf : Rejects (f a) t e) :
    Rejects (d >>= f) (s ++ t) e := by
  intro r rest h
  rw [List.append_assoc] at h
  rcases hd r _ h with ⟨r₁, hr₁, hrest₁⟩
  change (d r >>= fun p => f p.1 p.2) = _
  rw [hr₁]
  exact hf r₁ _ hrest₁

/-- A first step that consumes nothing. -/
theorem Parses.bind_nil_rejects {d : Decode α} {f : α → Decode β} {t : List UInt8} {a : α}
    {e : WireError} (hd : Parses d [] a) (hf : Rejects (f a) t e) : Rejects (d >>= f) t e :=
  hd.bind_rejects hf

theorem rejects_takeLvLen {n : Nat} (what : String) {v : List UInt8} (hv : v.length ≠ n)
    (hle : v.length ≤ maxPayload) : Rejects (Reader.takeLvLen n what) (lv v) (.invalid what) := by
  have h : Rejects (Reader.takeLvLen n what) (lv v ++ []) (.invalid what) := by
    refine (parses_takeLv hle).bind_rejects ?_
    intro r rest _
    rw [if_pos hv]
    rfl
  rwa [List.append_nil] at h

/-! ## Messages of any lengths -/

section Codec

variable {A : Type} [WireAlgo A]

namespace Message

/-- The lengths the decoder insists on: those the message's algorithm determines. -/
def WellSized : Message A → Prop
  | clientHello m => m.WellSized
  | serverHello m => m.WellSized
  | clientFinish _ => True
  | serverFinish _ => True
  | rekeyRequest m => m.hello.WellSized
  | error _ => True

instance : DecidablePred (WellSized : Message A → Prop)
  | clientHello _ => inferInstanceAs (Decidable (_ = _))
  | serverHello m => decidable_of_iff (m.mlkemCiphertext.length = WireAlgo.ciphertextLen m.algo ∧
      m.signature.length = signatureLen) ⟨fun h => ⟨h.1, h.2⟩, fun h => ⟨h.1, h.2⟩⟩
  | clientFinish _ => .isTrue trivial
  | serverFinish _ => .isTrue trivial
  | rekeyRequest _ => inferInstanceAs (Decidable (_ = _))
  | error _ => .isTrue trivial

/-- The fields that go on the wire behind a `u16` length. -/
def lvFields : Message A → List (List UInt8)
  | clientHello m => [m.clientX25519Pub.toList, m.clientMlkemPub]
  | serverHello m => [m.serverX25519Pub.toList, m.mlkemCiphertext, m.signature]
  | clientFinish _ => []
  | serverFinish _ => []
  | rekeyRequest m => [m.hello.clientX25519Pub.toList, m.hello.clientMlkemPub]
  | error m => [asBytes m.message]

theorem lv_infix_encodeInto {m : ClientHello A} {v : List UInt8}
    (h : v = m.clientX25519Pub.toList ∨ v = m.clientMlkemPub) : lv v <:+: m.encodeInto := by
  rcases h with rfl | rfl
  · exact ⟨_, lv m.clientMlkemPub, rfl⟩
  · exact ⟨_, [], List.append_nil _⟩

theorem lv_infix_of_mem_lvFields {m : Message A} {v : List UInt8} (h : v ∈ m.lvFields) :
    lv v <:+: m.encodePayload := by
  cases m with
  | clientHello m =>
      simp only [lvFields, List.mem_cons, List.not_mem_nil, or_false] at h
      exact lv_infix_encodeInto h
  | serverHello m =>
      simp only [lvFields, List.mem_cons, List.not_mem_nil, or_false] at h
      rcases h with rfl | rfl | rfl
      · refine ⟨[WireAlgo.toU8 m.algo] ++ m.sessionId.toList ++ m.serverNonce.toList,
          lv m.mlkemCiphertext ++ lv m.signature, ?_⟩
        simp only [encodePayload, ServerHello.encodeInto, List.append_assoc]
      · exact ⟨_, lv m.signature, rfl⟩
      · exact ⟨_, [], List.append_nil _⟩
  | clientFinish m =>
      cases h
  | serverFinish m =>
      cases h
  | rekeyRequest m =>
      simp only [lvFields, List.mem_cons, List.not_mem_nil, or_false] at h
      exact (lv_infix_encodeInto h).trans (List.suffix_append _ _).isInfix
  | error m =>
      simp only [lvFields, List.mem_singleton] at h
      subst h
      exact ⟨_, [], List.append_nil _⟩

theorem length_le_of_mem_lvFields {m : Message A} {v : List UInt8} (h : v ∈ m.lvFields) :
    v.length + 2 ≤ m.encodePayload.length := by
  have hle := (lv_infix_of_mem_lvFields h).length_le
  rwa [length_lv] at hle

end Message

/-- A length that fits a payload is its own `u16`. -/
theorem toNat_u16_of_le {n : Nat} (h : n ≤ maxPayload) : (UInt16.ofNat n).toNat = n := by
  have hmax : maxPayload = 8192 := rfl
  rw [UInt16.toNat_ofNat', Nat.mod_eq_of_lt]
  omega

theorem decodes_error (m : ErrorMsg) (hle : (asBytes m.message).length ≤ maxPayload) :
    (Message.error m : Message A).Decodes := by
  refine (parses_takeU8 m.code).bind ?_
  have h := (parses_takeLv hle).map
    (f := fun text => (Message.error { m with message := fromUtf8Lossy text } : Message A))
  rwa [fromUtf8Lossy_asBytes] at h

theorem decodePayload_of_rejects {m : Message A} {e : WireError}
    (h : Rejects (Message.decodeFields m.msgType : Decode (Message A)) m.encodePayload e) :
    (Message.decodePayload m.msgType m.encodePayload : Except WireError (Message A)) = .error e := by
  have hdecode := (h.bind_nil (f := fun msg => do
    Reader.expectEnd
    return msg)).run_new
  unfold Message.decodePayload
  dsimp only [StateT.run']
  rw [hdecode]
  rfl

/-- `write` refuses exactly the payloads that are too long. -/
theorem write_eq_error_iff {m : Message A} {err : IoError} :
    m.write = .error err ↔ maxPayload < m.encodePayload.length ∧
      err = .invalidData "payload exceeds MAX_PAYLOAD" := by
  unfold Message.write
  dsimp only
  split
  · rename_i h
    constructor
    · intro hw
      cases hw
      exact ⟨h, rfl⟩
    · rintro ⟨_, rfl⟩
      rfl
  · rename_i h
    refine ⟨fun hw => ?_, fun hlt => absurd hlt.1 h⟩
    cases hw

namespace Message

/-- Messages written one after another; the first that does not fit a frame ends the writing. -/
def writeMany : List (Message A) → Except IoError (List UInt8)
  | [] => .ok []
  | m :: ms => do
      let frame ← m.write
      let frames ← writeMany ms
      return frame ++ frames

/-- `n` reads in a row. -/
def readMany : Nat → FrameM (List (Message A))
  | 0 => pure []
  | n + 1 => do
      let m ← read
      let ms ← readMany n
      return m :: ms

theorem writeMany_cons_eq_ok {m : Message A} {ms : List (Message A)} {bytes : List UInt8}
    (h : writeMany (m :: ms) = .ok bytes) :
    ∃ frame frames, m.write = .ok frame ∧ writeMany ms = .ok frames ∧ bytes = frame ++ frames := by
  change (m.write >>= fun frame => writeMany ms >>= fun frames => .ok (frame ++ frames)) = _ at h
  cases hm : m.write with
  | error err =>
      rw [hm] at h
      cases h
  | ok frame =>
      cases hms : writeMany ms with
      | error err =>
          rw [hm, hms] at h
          cases h
      | ok frames =>
          rw [hm, hms] at h
          cases h
          exact ⟨frame, frames, rfl, rfl, rfl⟩

theorem writeMany_cons_of_ok {m : Message A} {ms : List (Message A)} {frame frames : List UInt8}
    (hm : m.write = .ok frame) (hms : writeMany ms = .ok frames) :
    writeMany (m :: ms) = .ok (frame ++ frames) := by
  change (m.write >>= fun frame => writeMany ms >>= fun frames => .ok (frame ++ frames)) = _
  rw [hm, hms]
  rfl

end Message

section Lawful

variable [LawfulWireAlgo A]

theorem rejects_clientHello {m : ClientHello A} (h : ¬ m.WellSized)
    (hle : m.encodeInto.length ≤ maxPayload) :
    Rejects (ClientHello.decodeFrom : Decode (ClientHello A)) m.encodeInto
      (.invalid "client_mlkem_pub length") := by
  have hmax : maxPayload = 8192 := rfl
  have hlen := length_encodeInto m
  have hencode : m.encodeInto = [WireAlgo.toU8 m.algo] ++ (m.clientNonce.toList ++
      (m.clientWgPubkey.toList ++ (lv m.clientX25519Pub.toList ++ lv m.clientMlkemPub))) := by
    simp [ClientHello.encodeInto]
  rw [hencode]
  refine (parses_takeU8 _).bind_rejects ?_
  refine (Parses.lift (LawfulWireAlgo.fromU8_toU8 m.algo)).bind_nil_rejects ?_
  refine (parses_takeArr _ m.clientNonce).bind_rejects ?_
  refine (parses_takeArr _ m.clientWgPubkey).bind_rejects ?_
  refine (parses_takeLvArr _ m.clientX25519Pub (by omega)).bind_rejects ?_
  exact (rejects_takeLvLen _ h (by omega)).bind_nil

theorem rejects_serverHello {m : ServerHello A} (h : ¬ m.WellSized)
    (hle : m.encodeInto.length ≤ maxPayload) :
    ∃ e, Rejects (ServerHello.decodeFrom : Decode (ServerHello A)) m.encodeInto e := by
  have hmax : maxPayload = 8192 := rfl
  have hencode : m.encodeInto = [WireAlgo.toU8 m.algo] ++ (m.sessionId.toList ++
      (m.serverNonce.toList ++ (lv m.serverX25519Pub.toList ++ (lv m.mlkemCiphertext ++
        lv m.signature)))) := by
    simp [ServerHello.encodeInto]
  have hlen : m.mlkemCiphertext.length ≤ maxPayload ∧ m.signature.length ≤ maxPayload := by
    rw [hencode] at hle
    simp only [List.length_append, length_lv] at hle
    omega
  suffices hlast : ∃ e, Rejects (do
      let ct ← Reader.takeLvLen (WireAlgo.ciphertextLen m.algo) "mlkem_ciphertext length"
      let sig ← Reader.takeLvLen signatureLen "signature length"
      return ({ m with mlkemCiphertext := ct, signature := sig } : ServerHello A))
      (lv m.mlkemCiphertext ++ lv m.signature) e by
    rcases hlast with ⟨e, hlast⟩
    refine ⟨e, ?_⟩
    rw [hencode]
    refine (parses_takeU8 _).bind_rejects ?_
    refine (Parses.lift (LawfulWireAlgo.fromU8_toU8 m.algo)).bind_nil_rejects ?_
    refine (parses_takeArr _ m.sessionId).bind_rejects ?_
    refine (parses_takeArr _ m.serverNonce).bind_rejects ?_
    exact (parses_takeLvArr _ m.serverX25519Pub (by omega)).bind_rejects hlast
  -- the ciphertext is read first, so its length is the one reported when both are wrong
  by_cases hct : m.mlkemCiphertext.length = WireAlgo.ciphertextLen m.algo
  · have hsig : m.signature.length ≠ signatureLen := fun hsig => h ⟨hct, hsig⟩
    refine ⟨.invalid "signature length", (parses_takeLvLen _ hct (by omega)).bind_rejects ?_⟩
    exact (rejects_takeLvLen _ hsig hlen.2).bind_nil
  · exact ⟨_, (rejects_takeLvLen _ hct hlen.1).bind⟩

theorem Message.decodes_of_wellSized {m : Message A} (h : m.WellSized)
    (hle : m.encodePayload.length ≤ maxPayload) : m.Decodes := by
  cases m with
  | clientHello m =>
      exact decodes_clientHello h
  | serverHello m =>
      exact decodes_serverHello h
  | clientFinish m =>
      exact decodes_clientFinish m
  | serverFinish m =>
      exact decodes_serverFinish m
  | rekeyRequest m =>
      exact decodes_rekeyRequest h
  | error m =>
      have htext := length_le_of_mem_lvFields (A := A) (m := .error m) (List.mem_singleton_self _)
      exact decodes_error m (by omega)

theorem Message.rejects_of_not_wellSized {m : Message A} (h : ¬ m.WellSized)
    (hle : m.encodePayload.length ≤ maxPayload) :
    ∃ e, Rejects (Message.decodeFields m.msgType : Decode (Message A)) m.encodePayload e := by
  -- only messages that carry a key, a ciphertext or a signature can be ill-sized
  cases m with
  | clientHello m =>
      exact ⟨_, (rejects_clientHello h hle).bind_nil⟩
  | serverHello m =>
      rcases rejects_serverHello h hle with ⟨e, he⟩
      exact ⟨e, he.bind_nil⟩
  | clientFinish m =>
      exact absurd trivial h
  | serverFinish m =>
      exact absurd trivial h
  | rekeyRequest m =>
      have hhello : m.hello.encodeInto.length ≤ maxPayload := by
        simp only [Message.encodePayload, List.length_append] at hle
        omega
      exact ⟨_, (parses_takeArr _ m.sessionId).bind_rejects
        (rejects_clientHello h hhello).bind_nil⟩
  | error m =>
      exact absurd trivial h

/-! ## Emitted frames -/

/-- What reading an emitted frame yields, whatever follows it. -/
theorem read_emitted {m : Message A} {frame : List UInt8} (hwrite : m.write = .ok frame)
    (rest : List UInt8) (e : IoError) :
    (m.WellSized → Message.read ⟨frame ++ rest, e⟩ = (.ok m, ⟨rest, e⟩)) ∧
      (¬ m.WellSized → ∃ err, (Message.read : FrameM (Message A)) ⟨frame ++ rest, e⟩ =
        (.error (.wire err), ⟨rest, e⟩)) := by
  rcases write_eq_ok_iff.1 hwrite with ⟨hle, hframe⟩
  constructor
  · intro h
    exact read_of_write (Message.decodes_of_wellSized h hle) hwrite rest e
  · intro h
    rcases Message.rejects_of_not_wellSized h hle with ⟨err, herr⟩
    refine ⟨err, ?_⟩
    subst hframe
    refine (read_frame m.msgType hle rest e).trans ?_
    rw [decodePayload_of_rejects herr]
    rfl

namespace Message

/-- Written messages are read in order, up to the first byte behind them. -/
theorem readMany_of_writeMany (ms : List (Message A)) (hsized : ∀ m ∈ ms, m.WellSized) :
    ∀ {bytes : List UInt8}, writeMany ms = .ok bytes → ∀ (rest : List UInt8) (e : IoError),
      readMany ms.length ⟨bytes ++ rest, e⟩ = (.ok ms, ⟨rest, e⟩) := by
  induction ms with
  | nil =>
      intro bytes hwrite rest e
      cases hwrite
      rfl
  | cons m ms ih =>
      intro bytes hwrite rest e
      rcases writeMany_cons_eq_ok hwrite with ⟨frame, frames, hm, hms, rfl⟩
      have hhead := (read_emitted hm (frames ++ rest) e).1 (hsized m List.mem_cons_self)
      have htail := ih (fun x hx => hsized x (List.mem_cons_of_mem _ hx)) hms rest e
      rw [List.append_assoc]
      refine (ExceptState.bind_of_ok hhead).trans ?_
      refine (ExceptState.bind_of_ok htail).trans ?_
      rfl

end Message

end Lawful

/-- `core`'s codec over messages with fields of any lengths. -/
theorem core_frames_round_trip :
    (∀ m : Message MlKemLevel,
      ((∃ err, m.write = .error err) ↔ maxPayload < m.encodePayload.length) ∧
      ∀ frame, m.write = .ok frame →
        (∀ v ∈ m.lvFields, lv v <:+: frame ∧ (UInt16.ofNat v.length).toNat = v.length) ∧
        ∀ (rest : List UInt8) (e : IoError),
          (m.WellSized → Message.read ⟨frame ++ rest, e⟩ = (.ok m, ⟨rest, e⟩)) ∧
          (¬ m.WellSized → ∃ err, (Message.read : FrameM (Message MlKemLevel)) ⟨frame ++ rest, e⟩ =
            (.error (.wire err), ⟨rest, e⟩))) ∧
    ∀ (ms : List (Message MlKemLevel)) (bytes : List UInt8), (∀ m ∈ ms, m.WellSized) →
      Message.writeMany ms = .ok bytes → ∀ (rest : List UInt8) (e : IoError),
        Message.readMany ms.length ⟨bytes ++ rest, e⟩ = (.ok ms, ⟨rest, e⟩) := by
  refine ⟨?_, ?_⟩
  · intro m
    refine ⟨⟨fun ⟨_, herr⟩ => (write_eq_error_iff.1 herr).1,
      fun hlong => ⟨_, write_eq_error_iff.2 ⟨hlong, rfl⟩⟩⟩, ?_⟩
    intro frame hwrite
    rcases write_eq_ok_iff.1 hwrite with ⟨hle, rfl⟩
    refine ⟨?_, fun rest e => read_emitted hwrite rest e⟩
    intro v hv
    have hlen := Message.length_le_of_mem_lvFields hv
    have hin : lv v <:+: m.encodePayload := Message.lv_infix_of_mem_lvFields hv
    exact ⟨hin.trans (List.suffix_append _ _).isInfix, toNat_u16_of_le (by omega)⟩
  · intro ms bytes hsized hwrite rest e
    exact Message.readMany_of_writeMany ms hsized hwrite rest e

end Codec

end Wire
end PqcVpn
