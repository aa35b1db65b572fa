import PqcVpn.Wire.Canonical

/-!
# SelfDelimiting — a payload says where it ends

Every field of a payload has a fixed length or states its own, so what the reader takes is decided
by the bytes it took.  No accepted payload is then a proper prefix of another of its type, whatever
bytes the text of an `Error` is made of, and a frame that stops early runs out of bytes before there
is a message.
-/

namespace PqcVpn
namespace Wire

open Crypto (MlKemLevel)

variable {α : Type}

/-! ## Fields -/

namespace Reader

theorem selfDelimiting_take (n : Nat) : SelfDelimiting rest (take n) := by
  intro r b r' h
  rcases tiles_take n r b r' h with ⟨s, hs, rfl⟩
  exact ⟨_, hs, parses_take b⟩

theorem selfDelimiting_takeU8 : SelfDelimiting rest takeU8 :=
  (selfDelimiting_take 1).bind fun _ => .pure _

theorem selfDelimiting_takeU16 : SelfDelimiting rest takeU16 :=
  (selfDelimiting_take 2).bind fun _ => .pure _

theorem selfDelimiting_takeArr (n : Nat) (what : String) :
    SelfDelimiting rest (takeArr n what) := by
  intro r b r' h
  rcases tiles_takeArr n what r b r' h with ⟨s, hs, rfl⟩
  exact ⟨_, hs, parses_takeArr what b⟩

theorem selfDelimiting_takeLv : SelfDelimiting rest takeLv := by
  refine selfDelimiting_takeU16.bind ?_
  intro n
  exact .ite (.throw _) ((selfDelimiting_take n.toNat).bind fun _ => .pure _)

theorem selfDelimiting_takeLvArr (n : Nat) (what : String) :
    SelfDelimiting rest (takeLvArr n what) := by
  refine selfDelimiting_takeLv.bind ?_
  intro v
  cases hv : Bytes.tryFrom n v with
  | none =>
      exact .throw _
  | some a =>
      exact .pure a

theorem selfDelimiting_takeLvLen (n : Nat) (what : String) :
    SelfDelimiting rest (takeLvLen n what) := by
  refine selfDelimiting_takeLv.bind ?_
  intro v
  exact .ite (.throw _) (.pure v)

end Reader

/-! ## Messages -/

section Codec

variable {A : Type} [WireAlgo A]

theorem selfDelimiting_clientHello :
    SelfDelimiting Reader.rest (ClientHello.decodeFrom : Decode (ClientHello A)) := by
  refine Reader.selfDelimiting_takeU8.bind fun b => ?_
  refine (SelfDelimiting.lift _).bind fun algo => ?_
  refine (Reader.selfDelimiting_takeArr 32 _).bind fun clientNonce => ?_
  refine (Reader.selfDelimiting_takeArr 32 _).bind fun clientWgPubkey => ?_
  refine (Reader.selfDelimiting_takeLvArr 32 _).bind fun clientX25519Pub => ?_
  -- the length asked of the key depends on the algorithm byte
  refine (Reader.selfDelimiting_takeLvLen (WireAlgo.mlkemPubLen algo) _).bind fun key => ?_
  exact .pure _

theorem selfDelimiting_serverHello :
    SelfDelimiting Reader.rest (ServerHello.decodeFrom : Decode (ServerHello A)) := by
  refine Reader.selfDelimiting_takeU8.bind fun b => ?_
  refine (SelfDelimiting.lift _).bind fun algo => ?_
  refine (Reader.selfDelimiting_takeArr 16 _).bind fun sessionId => ?_
  refine (Reader.selfDelimiting_takeArr 32 _).bind fun serverNonce => ?_
  refine (Reader.selfDelimiting_takeLvArr 32 _).bind fun serverX25519Pub => ?_
  refine (Reader.selfDelimiting_takeLvLen (WireAlgo.ciphertextLen algo) _).bind fun ct => ?_
  refine (Reader.selfDelimiting_takeLvLen signatureLen _).bind fun signature => ?_
  exact .pure _

/-- The fields of every type of message. -/
theorem selfDelimiting_decodeFields (ty : MsgType) :
    SelfDelimiting Reader.rest (Message.decodeFields ty : Decode (Message A)) := by
  cases ty with
  | clientHello =>
      exact selfDelimiting_clientHello.bind fun _ => .pure _
  | serverHello =>
      exact selfDelimiting_serverHello.bind fun _ => .pure _
  | clientFinish =>
      refine (Reader.selfDelimiting_takeArr 16 _).bind fun sessionId => ?_
      refine (Reader.selfDelimiting_takeArr 32 _).bind fun clientTag => ?_
      exact .pure _
  | serverFinish =>
      refine (Reader.selfDelimiting_takeArr 16 _).bind fun sessionId => ?_
      refine (Reader.selfDelimiting_takeArr 32 _).bind fun serverTag => ?_
      refine (Reader.selfDelimiting_takeArr 32 _).bind fun serverWgPubkey => ?_
      refine (Reader.selfDelimiting_takeArr 4 _).bind fun assignedIp => ?_
      refine Reader.selfDelimiting_takeU16.bind fun wgPort => ?_
      exact .pure _
  | rekeyRequest =>
      refine (Reader.selfDelimiting_takeArr 16 _).bind fun sessionId => ?_
      refine selfDelimiting_clientHello.bind fun hello => ?_
      exact .pure _
  | error =>
      refine Reader.selfDelimiting_takeU8.bind fun code => ?_
      -- the text is replaced after its bytes were taken, so what it says does not matter
      refine Reader.selfDelimiting_takeLv.bind fun text => ?_
      exact .pure _

/-! ## Payloads -/

/-- The payloads accepted for one type of message. -/
def AcceptedPayloads (A : Type) [WireAlgo A] (ty : MsgType) : Set (List UInt8) :=
  {payload | ∃ m : Message A, Message.decodePayload ty payload = .ok m}

theorem prefixFree_acceptedPayloads (ty : MsgType) : PrefixFree (AcceptedPayloads A ty) := by
  have hfree := (selfDelimiting_decodeFields (A := A) ty).prefixFree
  have hsub : ∀ payload ∈ AcceptedPayloads A ty, ∃ r m r', Reader.rest r = payload ∧
      (Message.decodeFields ty : Decode (Message A)) r = .ok (m, r') ∧ r'.rest = [] := by
    rintro payload ⟨m, h⟩
    rcases decodePayload_eq_ok_iff.1 h with ⟨r', hr', hend⟩
    exact ⟨Reader.new payload, m, r', rfl, hr', hend⟩
  intro a ha b hb hab
  exact hfree a (hsub a ha) b (hsub b hb) hab

/-- Not to be accepted is to fail. -/
theorem exists_error_of_not_accepted {ty : MsgType} {payload : List UInt8}
    (h : payload ∉ AcceptedPayloads A ty) :
    ∃ err, (Message.decodePayload ty payload : Except WireError (Message A)) = .error err := by
  cases hdecode : (Message.decodePayload ty payload : Except WireError (Message A)) with
  | error err =>
      exact ⟨err, rfl⟩
  | ok m =>
      exact absurd ⟨m, hdecode⟩ h

/-! ## Frames -/

theorem readExact_of_lt {n : Nat} {bytes : List UInt8} (h : bytes.length < n) (e : IoError) :
    readExact n ⟨bytes, e⟩ = (.error (.io e), ⟨[], e⟩) := by
  unfold readExact
  rw [dif_neg (by dsimp only; omega)]

/-- A stream that ends inside a frame whose header is right ends the read. -/
theorem read_truncated {ty : MsgType} {payload : List UInt8} (hle : payload.length ≤ maxPayload)
    {q : List UInt8} (hpre : q <+: [protocolVersion, ty.toU8] ++
      u16ToBeBytes (UInt16.ofNat payload.length) ++ payload)
    (hlt : q.length < 4 + payload.length) (e : IoError) :
    (Message.read : FrameM (Message A)) ⟨q, e⟩ = (.error (.io e), ⟨[], e⟩) := by
  set len := UInt16.ofNat payload.length with hlen
  let header : Bytes 4 := ⟨[protocolVersion, ty.toU8] ++ u16ToBeBytes len, rfl⟩
  by_cases hshort : q.length < 4
  · -- the header itself is cut
    exact ExceptState.bind_of_error (readExact_of_lt hshort e)
  · -- the header is whole and announces more than there is
    have hheader : header.toList <+: q :=
      List.prefix_of_prefix_length_le (List.prefix_append _ payload) hpre
        (by rw [header.toList_length]; omega)
    rcases hheader with ⟨body, rfl⟩
    have hbody : body.length < len.toNat := by
      rw [hlen, toNat_u16_of_le hle]
      rw [List.length_append, header.toList_length] at hlt
      omega
    have hspell : UInt16.ofNat ((header.get 2).toNat * 256 + (header.get 3).toNat) = len :=
      ofNat_u16ToBeBytes len
    unfold Message.read
    refine (ExceptState.bind_of_ok (readExact_append header body e)).trans ?_
    rw [if_neg (by simp [header, List.Vector.get])]
    refine (ExceptState.bind_of_ok rfl).trans ?_
    refine (ExceptState.bind_of_ok (liftWire_of_ok (MsgType.fromU8_toU8 ty) _)).trans ?_
    dsimp only
    rw [hspell, if_neg (by rw [hlen, toNat_u16_of_le hle]; omega)]
    refine (ExceptState.bind_of_ok rfl).trans ?_
    exact ExceptState.bind_of_error (readExact_of_lt hbody e)

end Codec

/-- In `core`: no accepted payload is a proper prefix of another of its type, so a payload that was
cut or continued is refused, and a frame that was cut yields no message. -/
theorem core_payloads_self_delimiting :
    (∀ (ty : MsgType) (p q : List UInt8), p ∈ AcceptedPayloads MlKemLevel ty →
      q ∈ AcceptedPayloads MlKemLevel ty → p <+: q → p = q) ∧
    (∀ (ty : MsgType) (p : List UInt8), p ∈ AcceptedPayloads MlKemLevel ty →
      (∀ q, q <+: p → q ≠ p → ∃ err,
        (Message.decodePayload ty q : Except WireError (Message MlKemLevel)) = .error err) ∧
      ∀ t, t ≠ [] → ∃ err,
        (Message.decodePayload ty (p ++ t) : Except WireError (Message MlKemLevel)) = .error err) ∧
    ∀ (frame : List UInt8) (e : IoError) (m : Message MlKemLevel),
      Message.read ⟨frame, e⟩ = (.ok m, ⟨[], e⟩) →
        ∀ q, q <+: frame → q ≠ frame → ∀ e' : IoError,
          (Message.read : FrameM (Message MlKemLevel)) ⟨q, e'⟩ = (.error (.io e'), ⟨[], e'⟩) := by
  refine ⟨fun ty p q hp hq => prefixFree_acceptedPayloads ty p hp q hq, ?_, ?_⟩
  · intro ty p hp
    constructor
    · intro q hpre hne
      apply exists_error_of_not_accepted
      intro hq
      exact hne (prefixFree_acceptedPayloads ty q hq p hp hpre)
    · intro t ht
      apply exists_error_of_not_accepted
      intro hq
      have heq := prefixFree_acceptedPayloads ty p hp _ hq (List.prefix_append p t)
      exact ht (List.append_right_eq_self.1 heq.symm)
  · intro frame e m h q hpre hne e'
    rcases read_eq_ok h with ⟨ty, payload, hle, hbytes, _, _⟩
    -- the read took the whole frame, so a shorter one stops inside it
    rw [List.append_nil] at hbytes
    dsimp only at hbytes
    subst hbytes
    have hlt := lt_of_le_of_ne hpre.length_le fun hlen => hne (hpre.eq_of_length hlen)
    simp only [List.length_append, List.length_cons, List.length_nil, u16ToBeBytes] at hlt
    exact read_truncated hle hpre (by omega) e'

end Wire
end PqcVpn
