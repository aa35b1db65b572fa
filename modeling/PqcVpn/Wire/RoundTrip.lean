import PqcVpn.Lib.ExceptState
import PqcVpn.Wire.Message

/-!
# RoundTrip — a frame that was written reads back

`Parses d bytes a` says that the decoder `d` consumes exactly `bytes`, whatever follows, and returns
`a`.  It composes along `bind`, so each field has one lemma and each message is their chain.
-/

namespace PqcVpn
namespace Wire

variable {α β : Type}

/-- The bytes a reader has not consumed. -/
def Reader.rest (r : Reader) : List UInt8 := r.buf.drop r.pos

theorem Reader.remaining_eq (r : Reader) : r.remaining = r.rest.length := by
  simp [Reader.remaining, Reader.rest]

@[simp] theorem Reader.rest_new (buf : List UInt8) : (Reader.new buf).rest = buf := rfl

def Parses (d : Decode α) (bytes : List UInt8) (a : α) : Prop :=
  ∀ (r : Reader) (rest : List UInt8), r.rest = bytes ++ rest → ∃ r', d r = .ok (a, r') ∧ r'.rest = rest

namespace Parses

theorem pure (a : α) : Parses (pure a) [] a := fun r _ h => ⟨r, rfl, h⟩

theorem bind {d : Decode α} {f : α → Decode β} {s t : List UInt8} {a : α} {b : β}
    (hd : Parses d s a) (hf : Parses (f a) t b) : Parses (d >>= f) (s ++ t) b := by
  intro r rest h
  rw [List.append_assoc] at h
  rcases hd r _ h with ⟨r₁, hr₁, hrest₁⟩
  rcases hf r₁ _ hrest₁ with ⟨r₂, hr₂, hrest₂⟩
  refine ⟨r₂, ?_, hrest₂⟩
  change (d r >>= fun p => f p.1 p.2) = _
  rw [hr₁]
  exact hr₂

theorem lift {x : Except WireError α} {a : α} (h : x = .ok a) :
    Parses (liftM x : Decode α) [] a := by
  intro r rest hr
  subst h
  exact ⟨r, rfl, hr⟩

/-- A first step that consumes nothing. -/
theorem bind_nil {d : Decode α} {f : α → Decode β} {t : List UInt8} {a : α} {b : β}
    (hd : Parses d [] a) (hf : Parses (f a) t b) : Parses (d >>= f) t b :=
  hd.bind hf

/-- A decoder that ends in a pure result. -/
theorem map {d : Decode α} {f : α → β} {s : List UInt8} {a : α} (hd : Parses d s a) :
    Parses (d >>= fun x => Pure.pure (f x)) s (f a) := by
  have h := hd.bind (f := fun x => Pure.pure (f x)) (pure (f a))
  rwa [List.append_nil] at h

/-- Reading the whole buffer. -/
theorem run_new {d : Decode α} {bytes : List UInt8} {a : α} (hd : Parses d bytes a) :
    ∃ r', d (Reader.new bytes) = .ok (a, r') ∧ r'.rest = [] :=
  hd (Reader.new bytes) [] (by simp)

end Parses

/-! ## Fields -/

theorem parses_take {n : Nat} (b : Bytes n) : Parses (Reader.take n) b.toList b := by
  intro r rest h
  have hlen : b.toList.length = n := b.toList_length
  have hfit : ¬ r.remaining < n := by
    rw [Reader.remaining_eq, h, List.length_append]
    omega
  have htake : r.rest.take n = b.toList := by rw [h, List.take_left' hlen]
  have hdrop : r.rest.drop n = rest := by rw [h, List.drop_left' hlen]
  unfold Reader.take
  rw [dif_neg hfit]
  refine ⟨_, congrArg Except.ok (Prod.ext (Subtype.ext htake) rfl), ?_⟩
  rw [Reader.rest, List.drop_drop] at hdrop
  exact hdrop

theorem parses_takeU8 (v : UInt8) : Parses Reader.takeU8 [v] v :=
  (parses_take (⟨[v], rfl⟩ : Bytes 1)).map

/-- A big-endian pair of bytes is the number it spells. -/
theorem ofNat_u16ToBeBytes (v : UInt16) :
    UInt16.ofNat ((UInt8.ofNat (v.toNat / 256)).toNat * 256 + (UInt8.ofNat (v.toNat % 256)).toNat) =
      v := by
  have hlt := v.toNat_lt
  rw [UInt8.toNat_ofNat', UInt8.toNat_ofNat', Nat.mod_eq_of_lt (by omega),
    Nat.mod_eq_of_lt (by omega), Nat.div_add_mod', UInt16.ofNat_toNat]

theorem parses_takeU16 (v : UInt16) : Parses Reader.takeU16 (u16ToBeBytes v) v := by
  intro r rest h
  rcases parses_take (⟨u16ToBeBytes v, rfl⟩ : Bytes 2) r rest h with ⟨r', hr', hrest⟩
  refine ⟨r', ?_, hrest⟩
  change (Reader.take 2 r >>= fun p => .ok (UInt16.ofNat ((p.1.get 0).toNat * 256 +
    (p.1.get 1).toNat), p.2)) = _
  rw [hr']
  exact congrArg (fun x => Except.ok (x, r')) (ofNat_u16ToBeBytes v)

theorem parses_takeArr {n : Nat} (what : String) (b : Bytes n) :
    Parses (Reader.takeArr n what) b.toList b := by
  intro r rest h
  rcases parses_take b r rest h with ⟨r', hr', hrest⟩
  exact ⟨r', by rw [Reader.takeArr, hr'], hrest⟩

theorem parses_takeLv {v : List UInt8} (hlen : v.length ≤ maxPayload) :
    Parses Reader.takeLv (lv v) v := by
  have hnat : (UInt16.ofNat v.length).toNat = v.length := by
    rw [UInt16.toNat_ofNat', Nat.mod_eq_of_lt]
    have : maxPayload = 8192 := rfl
    omega
  refine (parses_takeU16 (UInt16.ofNat v.length)).bind ?_
  rw [if_neg (by rw [hnat]; omega)]
  have hbody := (parses_take (⟨v, hnat.symm⟩ : Bytes (UInt16.ofNat v.length).toNat)).map
    (f := fun b => b.toList)
  exact hbody

theorem parses_takeLvArr {n : Nat} (what : String) (b : Bytes n) (hn : n ≤ maxPayload) :
    Parses (Reader.takeLvArr n what) (lv b.toList) b := by
  have hlen : b.toList.length ≤ maxPayload := by rw [b.toList_length]; exact hn
  have h : Parses (Reader.takeLvArr n what) (lv b.toList ++ []) b := by
    refine (parses_takeLv hlen).bind ?_
    rw [Bytes.tryFrom_toList]
    exact .pure b
  rwa [List.append_nil] at h

theorem parses_takeLvLen {n : Nat} (what : String) {v : List UInt8} (hv : v.length = n)
    (hn : n ≤ maxPayload) : Parses (Reader.takeLvLen n what) (lv v) v := by
  have h : Parses (Reader.takeLvLen n what) (lv v ++ []) v := by
    refine (parses_takeLv (by omega)).bind ?_
    rw [if_neg (by simp [hv])]
    exact .pure v
  rwa [List.append_nil] at h

theorem expectEnd_eq_ok_iff {r : Reader} {p : Unit × Reader} :
    Reader.expectEnd r = .ok p ↔ r.rest = [] ∧ p = ((), r) := by
  have hlength : r.remaining = 0 ↔ r.rest = [] := by
    rw [Reader.remaining_eq, List.length_eq_zero_iff]
  unfold Reader.expectEnd
  split
  · rename_i hend
    constructor
    · intro h
      cases h
      exact ⟨hlength.1 hend, rfl⟩
    · rintro ⟨_, rfl⟩
      rfl
  · rename_i hend
    constructor
    · intro h
      cases h
    · rintro ⟨hnil, _⟩
      exact absurd (hlength.2 hnil) hend

/-! ## Messages -/

/-- What the codec relies on: an algorithm's code reads back, and its sizes fit a payload. -/
class LawfulWireAlgo (A : Type) [WireAlgo A] : Prop where
  fromU8_toU8 : ∀ a : A, WireAlgo.fromU8 (WireAlgo.toU8 a) = .ok a
  mlkemPubLen_le : ∀ a : A, WireAlgo.mlkemPubLen a ≤ 1568
  ciphertextLen_le : ∀ a : A, WireAlgo.ciphertextLen a ≤ 1568

instance : LawfulWireAlgo AlgoCode where
  fromU8_toU8 := by intro a; cases a <;> rfl
  mlkemPubLen_le := by intro a; cases a <;> decide
  ciphertextLen_le := by intro a; cases a <;> decide

instance : LawfulWireAlgo Crypto.MlKemLevel where
  fromU8_toU8 := by intro a; cases a <;> rfl
  mlkemPubLen_le := by intro a; cases a <;> decide
  ciphertextLen_le := by intro a; cases a <;> decide

variable {A : Type} [WireAlgo A]

/-- The lengths the decoder insists on. -/
def ClientHello.WellSized (m : ClientHello A) : Prop :=
  m.clientMlkemPub.length = WireAlgo.mlkemPubLen m.algo

structure ServerHello.WellSized (m : ServerHello A) : Prop where
  mlkemCiphertext : m.mlkemCiphertext.length = WireAlgo.ciphertextLen m.algo
  signature : m.signature.length = signatureLen

/-- The fields of the message read back from its payload. -/
def Message.Decodes (m : Message A) : Prop :=
  Parses (Message.decodeFields m.msgType) m.encodePayload m

section Lawful

variable [LawfulWireAlgo A]

theorem parses_clientHello {m : ClientHello A} (h : m.WellSized) :
    Parses ClientHello.decodeFrom m.encodeInto m := by
  have hpub := LawfulWireAlgo.mlkemPubLen_le m.algo
  have hmax : maxPayload = 8192 := rfl
  have hencode : m.encodeInto = [WireAlgo.toU8 m.algo] ++ (m.clientNonce.toList ++
      (m.clientWgPubkey.toList ++ (lv m.clientX25519Pub.toList ++ lv m.clientMlkemPub))) := by
    simp [ClientHello.encodeInto]
  rw [hencode]
  refine (parses_takeU8 _).bind ?_
  refine (Parses.lift (LawfulWireAlgo.fromU8_toU8 m.algo)).bind_nil ?_
  refine (parses_takeArr _ m.clientNonce).bind ?_
  refine (parses_takeArr _ m.clientWgPubkey).bind ?_
  refine (parses_takeLvArr _ m.clientX25519Pub (by omega)).bind ?_
  exact (parses_takeLvLen _ h (by omega)).map
    (f := fun mk => ({ m with clientMlkemPub := mk } : ClientHello A))

theorem parses_serverHello {m : ServerHello A} (h : m.WellSized) :
    Parses ServerHello.decodeFrom m.encodeInto m := by
  have hct := LawfulWireAlgo.ciphertextLen_le m.algo
  have hmax : maxPayload = 8192 := rfl
  have hsig : signatureLen = 3309 := rfl
  have hencode : m.encodeInto = [WireAlgo.toU8 m.algo] ++ (m.sessionId.toList ++
      (m.serverNonce.toList ++ (lv m.serverX25519Pub.toList ++ (lv m.mlkemCiphertext ++
        lv m.signature)))) := by
    simp [ServerHello.encodeInto]
  rw [hencode]
  refine (parses_takeU8 _).bind ?_
  refine (Parses.lift (LawfulWireAlgo.fromU8_toU8 m.algo)).bind_nil ?_
  refine (parses_takeArr _ m.sessionId).bind ?_
  refine (parses_takeArr _ m.serverNonce).bind ?_
  refine (parses_takeLvArr _ m.serverX25519Pub (by omega)).bind ?_
  refine (parses_takeLvLen _ h.mlkemCiphertext (by omega)).bind ?_
  exact (parses_takeLvLen _ h.signature (by omega)).map
    (f := fun sig => ({ m with signature := sig } : ServerHello A))

end Lawful

theorem decodes_clientFinish (m : ClientFinish) : (Message.clientFinish m : Message A).Decodes :=
  (parses_takeArr _ m.sessionId).bind <|
    (parses_takeArr _ m.clientTag).map
      (f := fun tag => (Message.clientFinish { m with clientTag := tag } : Message A))

theorem decodes_serverFinish (m : ServerFinish) :
    (Message.serverFinish m : Message A).Decodes := by
  have hencode : (Message.serverFinish m : Message A).encodePayload = m.sessionId.toList ++
      (m.serverTag.toList ++ (m.serverWgPubkey.toList ++ (m.assignedIp.toList ++
        u16ToBeBytes m.wgPort))) := by
    simp [Message.encodePayload]
  rw [Message.Decodes, hencode]
  refine (parses_takeArr _ m.sessionId).bind ?_
  refine (parses_takeArr _ m.serverTag).bind ?_
  refine (parses_takeArr _ m.serverWgPubkey).bind ?_
  refine (parses_takeArr _ m.assignedIp).bind ?_
  exact (parses_takeU16 m.wgPort).map
    (f := fun port => (Message.serverFinish { m with wgPort := port } : Message A))

variable [LawfulWireAlgo A]

theorem decodes_clientHello {m : ClientHello A} (h : m.WellSized) :
    (Message.clientHello m : Message A).Decodes :=
  (parses_clientHello h).map

theorem decodes_serverHello {m : ServerHello A} (h : m.WellSized) :
    (Message.serverHello m : Message A).Decodes :=
  (parses_serverHello h).map

theorem decodes_rekeyRequest {m : RekeyRequest A} (h : m.hello.WellSized) :
    (Message.rekeyRequest m : Message A).Decodes :=
  (parses_takeArr _ m.sessionId).bind <|
    (parses_clientHello h).map
      (f := fun hello => (Message.rekeyRequest { m with hello := hello } : Message A))

/-! ## Frames -/

theorem readExact_append {n : Nat} (b : Bytes n) (rest : List UInt8) (e : IoError) :
    readExact n ⟨b.toList ++ rest, e⟩ = (.ok b, ⟨rest, e⟩) := by
  have hlen : b.toList.length = n := b.toList_length
  have hle : n ≤ (b.toList ++ rest).length := by
    rw [List.length_append]
    omega
  unfold readExact
  rw [dif_pos hle]
  simp only [List.take_left' hlen, List.drop_left' hlen]
  rfl

theorem liftWire_of_ok {x : Except WireError α} {a : α} (h : x = .ok a) (s : Stream) :
    liftWire x s = (.ok a, s) := by
  subst h
  rfl

theorem MsgType.fromU8_toU8 (t : MsgType) : MsgType.fromU8 t.toU8 = .ok t := by
  cases t <;> rfl

omit [LawfulWireAlgo A]

/-- A payload is accepted when its fields take the whole of it. -/
theorem decodePayload_eq_ok_iff {ty : MsgType} {payload : List UInt8} {m : Message A} :
    Message.decodePayload ty payload = .ok m ↔ ∃ r',
      (Message.decodeFields ty : Decode (Message A)) (Reader.new payload) = .ok (m, r') ∧
        r'.rest = [] := by
  have hrun : Message.decodePayload ty payload = (·.1) <$>
      ((Message.decodeFields ty : Decode (Message A)) (Reader.new payload) >>=
        fun p => Reader.expectEnd p.2 >>= fun q => Except.ok (p.1, q.2)) := rfl
  rw [hrun]
  cases hfields : (Message.decodeFields ty : Decode (Message A)) (Reader.new payload) with
  | error err =>
      constructor
      · intro h
        cases h
      · rintro ⟨r', h, _⟩
        cases h
  | ok p =>
      rcases p with ⟨m', r'⟩
      change (·.1) <$> (Reader.expectEnd r' >>= fun q => Except.ok (m', q.2)) = _ ↔ _
      constructor
      · intro h
        cases hend : Reader.expectEnd r' with
        | error err =>
            rw [hend] at h
            cases h
        | ok q =>
            rcases expectEnd_eq_ok_iff.1 hend with ⟨hnil, rfl⟩
            rw [hend] at h
            cases h
            exact ⟨r', rfl, hnil⟩
      · rintro ⟨_, h, hnil⟩
        cases h
        rw [expectEnd_eq_ok_iff.2 ⟨hnil, rfl⟩]
        rfl

theorem decodePayload_of_decodes {m : Message A} (h : m.Decodes) :
    Message.decodePayload m.msgType m.encodePayload = .ok m :=
  decodePayload_eq_ok_iff.2 h.run_new

/-- What `write` emits. -/
theorem write_eq_ok_iff {m : Message A} {frame : List UInt8} :
    m.write = .ok frame ↔ m.encodePayload.length ≤ maxPayload ∧
      frame = [protocolVersion, m.msgType.toU8] ++
        u16ToBeBytes (UInt16.ofNat m.encodePayload.length) ++ m.encodePayload := by
  unfold Message.write
  dsimp only
  split
  · rename_i h
    constructor
    · intro hok
      cases hok
    · rintro ⟨hle, _⟩
      omega
  · rename_i h
    constructor
    · intro hok
      cases hok
      exact ⟨by omega, rfl⟩
    · rintro ⟨_, rfl⟩
      rfl

/-- Reading a frame whose header is right comes down to decoding its payload. -/
theorem read_frame (ty : MsgType) {payload : List UInt8} (hle : payload.length ≤ maxPayload)
    (rest : List UInt8) (e : IoError) :
    (Message.read : FrameM (Message A)) ⟨[protocolVersion, ty.toU8] ++
        u16ToBeBytes (UInt16.ofNat payload.length) ++ payload ++ rest, e⟩ =
      liftWire (Message.decodePayload ty payload) ⟨rest, e⟩ := by
  have hmax : maxPayload = 8192 := rfl
  have hnat : (UInt16.ofNat payload.length).toNat = payload.length := by
    rw [UInt16.toNat_ofNat', Nat.mod_eq_of_lt]
    omega
  set len := UInt16.ofNat payload.length with hlen
  let header : Bytes 4 := ⟨[protocolVersion, ty.toU8] ++ u16ToBeBytes len, rfl⟩
  let body : Bytes len.toNat := ⟨payload, hnat.symm⟩
  have hbytes : [protocolVersion, ty.toU8] ++ u16ToBeBytes len ++ payload ++ rest =
      header.toList ++ (body.toList ++ rest) := by
    simp [header, body, List.Vector.toList]
  have hspell : UInt16.ofNat ((header.get 2).toNat * 256 + (header.get 3).toNat) = len :=
    ofNat_u16ToBeBytes len
  -- past the bytes already seen, each step of `read` succeeds
  rw [hbytes]
  unfold Message.read
  refine (ExceptState.bind_of_ok (readExact_append header _ e)).trans ?_
  rw [if_neg (by simp [header, List.Vector.get])]
  refine (ExceptState.bind_of_ok rfl).trans ?_
  refine (ExceptState.bind_of_ok (liftWire_of_ok (MsgType.fromU8_toU8 ty) _)).trans ?_
  dsimp only
  rw [hspell, if_neg (by omega)]
  refine (ExceptState.bind_of_ok rfl).trans ?_
  exact ExceptState.bind_of_ok (readExact_append body rest e)

/-- A frame that was written reads back, and leaves exactly what follows it. -/
theorem read_of_write {m : Message A} (h : m.Decodes) {frame : List UInt8}
    (hwrite : m.write = .ok frame) (rest : List UInt8) (e : IoError) :
    Message.read ⟨frame ++ rest, e⟩ = (.ok m, ⟨rest, e⟩) := by
  rcases write_eq_ok_iff.1 hwrite with ⟨hle, rfl⟩
  refine (read_frame m.msgType hle rest e).trans ?_
  exact liftWire_of_ok (decodePayload_of_decodes h) _

/-! ## Sizes -/

@[simp] theorem length_lv (v : List UInt8) : (lv v).length = v.length + 2 := by
  simp [lv, u16ToBeBytes]

theorem write_of_length_le {m : Message A} (h : m.encodePayload.length ≤ maxPayload) :
    ∃ frame, m.write = .ok frame :=
  ⟨_, write_eq_ok_iff.2 ⟨h, rfl⟩⟩

theorem length_encodeInto (m : ClientHello A) :
    m.encodeInto.length = 101 + m.clientMlkemPub.length := by
  simp [ClientHello.encodeInto]
  omega

variable [LawfulWireAlgo A]

theorem clientHello_writes {m : ClientHello A} (h : m.WellSized) :
    ∃ frame, (Message.clientHello m : Message A).write = .ok frame := by
  have hlen := length_encodeInto m
  have hpub := LawfulWireAlgo.mlkemPubLen_le m.algo
  have hmax : maxPayload = 8192 := rfl
  refine write_of_length_le ?_
  simp only [Message.encodePayload]
  rw [hlen, h]
  omega

theorem rekeyRequest_writes {m : RekeyRequest A} (h : m.hello.WellSized) :
    ∃ frame, (Message.rekeyRequest m : Message A).write = .ok frame := by
  have hlen := length_encodeInto m.hello
  have hpub := LawfulWireAlgo.mlkemPubLen_le m.hello.algo
  have hmax : maxPayload = 8192 := rfl
  refine write_of_length_le ?_
  simp only [Message.encodePayload, List.length_append, List.Vector.toList_length]
  rw [hlen, h]
  omega

theorem serverHello_writes {m : ServerHello A} (h : m.WellSized) :
    ∃ frame, (Message.serverHello m : Message A).write = .ok frame := by
  have hct := LawfulWireAlgo.ciphertextLen_le m.algo
  have hmax : maxPayload = 8192 := rfl
  have hsig : signatureLen = 3309 := rfl
  refine write_of_length_le ?_
  simp only [Message.encodePayload, ServerHello.encodeInto, List.length_append, length_lv,
    List.Vector.toList_length, List.length_cons, List.length_nil]
  rw [h.mlkemCiphertext, h.signature]
  omega

omit [LawfulWireAlgo A]

theorem clientFinish_writes (m : ClientFinish) :
    ∃ frame, (Message.clientFinish m : Message A).write = .ok frame := by
  have hmax : maxPayload = 8192 := rfl
  refine write_of_length_le ?_
  simp only [Message.encodePayload, List.length_append, List.Vector.toList_length]
  omega

theorem serverFinish_writes (m : ServerFinish) :
    ∃ frame, (Message.serverFinish m : Message A).write = .ok frame := by
  have hmax : maxPayload = 8192 := rfl
  refine write_of_length_le ?_
  simp only [Message.encodePayload, List.length_append, List.Vector.toList_length, u16ToBeBytes,
    List.length_cons, List.length_nil]
  omega

end Wire
end PqcVpn
