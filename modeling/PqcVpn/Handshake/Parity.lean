import PqcVpn.Handshake.Respond
import PqcVpn.Wire.Frames

/-!
# Parity — the two crates' codecs are the same codec

`core` speaks `MlKemLevel` on the wire and the server `AlgoCode`.  A translation between two
algorithm enumerations that keeps the codes, their parsing and the sizes (`SameCodes`) commutes with
every step of the codec, so the two crates emit the same bytes for the same message and read the
same message, or report the same error, on the same bytes.
-/

namespace PqcVpn
namespace Handshake

open Crypto Wire

/-- `f` renames the algorithms and keeps everything the codec asks of them. -/
structure SameCodes {A B : Type} [WireAlgo A] [WireAlgo B] (f : A → B) : Prop where
  toU8 : ∀ a, WireAlgo.toU8 (f a) = WireAlgo.toU8 a
  fromU8 : ∀ b, (WireAlgo.fromU8 b : Except WireError B) = f <$> WireAlgo.fromU8 b
  mlkemPubLen : ∀ a, WireAlgo.mlkemPubLen (f a) = WireAlgo.mlkemPubLen a
  ciphertextLen : ∀ a, WireAlgo.ciphertextLen (f a) = WireAlgo.ciphertextLen a

theorem SameCodes.inverse {A B : Type} [WireAlgo A] [WireAlgo B] {f : A → B} {g : B → A}
    (hf : SameCodes f) (hgf : Function.LeftInverse g f) (hfg : Function.RightInverse g f) :
    SameCodes g where
  toU8 := by
    intro b
    rw [← hf.toU8 (g b), hfg b]
  fromU8 := by
    intro b
    rw [hf.fromU8 b, ← comp_map, hgf.comp_eq_id, id_map]
  mlkemPubLen := by
    intro b
    rw [← hf.mlkemPubLen (g b), hfg b]
  ciphertextLen := by
    intro b
    rw [← hf.ciphertextLen (g b), hfg b]

theorem sameCodes_codeOf : SameCodes codeOf where
  toU8 := by
    intro k
    cases k <;> rfl
  fromU8 := by
    intro b
    change AlgoCode.fromU8 b = codeOf <$> algoFromU8 b
    unfold AlgoCode.fromU8 algoFromU8 MlKemLevel.fromWireCode
    split
    · rfl
    · rfl
    · rfl
    · split <;> simp_all
  mlkemPubLen := by
    intro k
    cases k <;> rfl
  ciphertextLen := by
    intro k
    cases k <;> rfl

theorem sameCodes_kemOf : SameCodes kemOf :=
  sameCodes_codeOf.inverse kemOf_codeOf codeOf_kemOf

theorem codeOf_bijective : Function.Bijective codeOf :=
  ⟨Function.LeftInverse.injective kemOf_codeOf, Function.RightInverse.surjective codeOf_kemOf⟩

theorem mapAlgo_of_leftInverse {A B : Type} {f : A → B} {g : B → A} (h : Function.LeftInverse g f)
    (m : Message A) : (m.mapAlgo f).mapAlgo g = m := by
  cases m with
  | clientHello m =>
      simp only [Message.mapAlgo, ClientHello.mapAlgo, h m.algo]
  | serverHello m =>
      simp only [Message.mapAlgo, ServerHello.mapAlgo, h m.algo]
  | clientFinish m =>
      rfl
  | serverFinish m =>
      rfl
  | rekeyRequest m =>
      simp only [Message.mapAlgo, ClientHello.mapAlgo, h m.hello.algo]
  | error m =>
      rfl

theorem mapAlgo_codeOf_bijective : Function.Bijective (Message.mapAlgo codeOf) :=
  ⟨Function.LeftInverse.injective (mapAlgo_of_leftInverse kemOf_codeOf),
    Function.RightInverse.surjective (mapAlgo_of_leftInverse codeOf_kemOf)⟩

section Renaming

variable {A B : Type} [WireAlgo A] [WireAlgo B] {f : A → B}

/-! ## Writing -/

theorem encodeInto_mapAlgo (hf : SameCodes f) (m : ClientHello A) :
    (m.mapAlgo f).encodeInto = m.encodeInto := by
  simp only [ClientHello.encodeInto, ClientHello.mapAlgo, hf.toU8]

theorem encodePayload_mapAlgo (hf : SameCodes f) (m : Message A) :
    (m.mapAlgo f).encodePayload = m.encodePayload := by
  cases m with
  | clientHello m =>
      exact encodeInto_mapAlgo hf m
  | serverHello m =>
      simp only [Message.mapAlgo, Message.encodePayload, ServerHello.encodeInto,
        ServerHello.mapAlgo, hf.toU8]
  | clientFinish m =>
      rfl
  | serverFinish m =>
      rfl
  | rekeyRequest m =>
      simp only [Message.mapAlgo, Message.encodePayload, encodeInto_mapAlgo hf]
  | error m =>
      rfl

omit [WireAlgo A] [WireAlgo B] in
theorem msgType_mapAlgo (m : Message A) : (m.mapAlgo f).msgType = m.msgType := by
  cases m <;> rfl

theorem write_mapAlgo (hf : SameCodes f) (m : Message A) : (m.mapAlgo f).write = m.write := by
  simp only [Message.write, encodePayload_mapAlgo hf, msgType_mapAlgo]

/-! ## Reading -/

theorem clientHello_decodeFrom (hf : SameCodes f) :
    (ClientHello.decodeFrom : Decode (ClientHello B)) =
      ClientHello.mapAlgo f <$> ClientHello.decodeFrom := by
  simp only [ClientHello.decodeFrom, hf.fromU8, liftM_map, map_bind, bind_map_left, map_pure,
    hf.mlkemPubLen, ClientHello.mapAlgo]

theorem serverHello_decodeFrom (hf : SameCodes f) :
    (ServerHello.decodeFrom : Decode (ServerHello B)) =
      ServerHello.mapAlgo f <$> ServerHello.decodeFrom := by
  simp only [ServerHello.decodeFrom, hf.fromU8, liftM_map, map_bind, bind_map_left, map_pure,
    hf.ciphertextLen, ServerHello.mapAlgo]

theorem decodeFields_mapAlgo (hf : SameCodes f) (ty : MsgType) :
    (Message.decodeFields ty : Decode (Message B)) =
      Message.mapAlgo f <$> Message.decodeFields ty := by
  cases ty with
  | clientHello =>
      simp only [Message.decodeFields, clientHello_decodeFrom hf, map_bind, bind_map_left,
        map_pure, Message.mapAlgo]
  | serverHello =>
      simp only [Message.decodeFields, serverHello_decodeFrom hf, map_bind, bind_map_left,
        map_pure, Message.mapAlgo]
  | clientFinish =>
      simp only [Message.decodeFields, map_bind, map_pure, Message.mapAlgo]
  | serverFinish =>
      simp only [Message.decodeFields, map_bind, map_pure, Message.mapAlgo]
  | rekeyRequest =>
      simp only [Message.decodeFields, clientHello_decodeFrom hf, map_bind, bind_map_left,
        map_pure, Message.mapAlgo]
  | error =>
      simp only [Message.decodeFields, map_bind, map_pure, Message.mapAlgo]

theorem run'_map {α β : Type} (g : α → β) (d : Decode α) (r : Reader) :
    (g <$> d).run' r = g <$> d.run' r := by
  change (·.1) <$> (d r >>= fun p => Except.ok (g p.1, p.2)) = g <$> (·.1) <$> d r
  cases d r <;> rfl

theorem liftWire_map {α β : Type} (g : α → β) (x : Except WireError α) :
    liftWire (g <$> x) = g <$> liftWire x := by
  cases x <;> rfl

theorem decodePayload_mapAlgo (hf : SameCodes f) (ty : MsgType) (payload : List UInt8) :
    (Message.decodePayload ty payload : Except WireError (Message B)) =
      Message.mapAlgo f <$> Message.decodePayload ty payload := by
  have hdecode : (do
      let msg : Message B ← Message.decodeFields ty
      Reader.expectEnd
      return msg : Decode (Message B)) = Message.mapAlgo f <$> (do
      let msg : Message A ← Message.decodeFields ty
      Reader.expectEnd
      return msg : Decode (Message A)) := by
    simp only [decodeFields_mapAlgo hf, map_bind, bind_map_left, map_pure]
  unfold Message.decodePayload
  dsimp only
  rw [hdecode, run'_map]

theorem read_mapAlgo (hf : SameCodes f) :
    (Message.read : FrameM (Message B)) = Message.mapAlgo f <$> Message.read := by
  simp only [Message.read, decodePayload_mapAlgo hf, liftWire_map, map_bind, apply_ite (Functor.map _)]

/-- What one crate writes, the other reads as the same message. -/
theorem read_mapAlgo_of_write (hf : SameCodes f) {m : Message A} (h : (m.mapAlgo f).Decodes)
    {frame : List UInt8} (hwrite : m.write = .ok frame) (rest : List UInt8) (e : IoError) :
    Message.read ⟨frame ++ rest, e⟩ = (.ok (m.mapAlgo f), ⟨rest, e⟩) :=
  read_of_write h ((write_mapAlgo hf m).trans hwrite) rest e

end Renaming

/-- `core`'s codec and the server's, on every message and on every stream. -/
theorem codecs_agree :
    Function.Bijective codeOf ∧
    Function.Bijective (Message.mapAlgo codeOf : Core.Message → HandshakeServer.Message) ∧
    (∀ m : Core.Message, HandshakeServer.Message.write (m.mapAlgo codeOf) = Core.Message.write m) ∧
    ∀ s : Stream, HandshakeServer.Message.read s =
      (Message.mapAlgo codeOf <$> (Core.Message.read s).1, (Core.Message.read s).2) := by
  refine ⟨codeOf_bijective, mapAlgo_codeOf_bijective, write_mapAlgo sameCodes_codeOf, ?_⟩
  intro s
  change (Message.read : FrameM HandshakeServer.Message) s = _
  rw [read_mapAlgo sameCodes_codeOf]
  cases hread : Core.Message.read s with
  | mk result s' =>
      cases result with
      | error err =>
          exact ExceptState.bind_of_error hread
      | ok m =>
          exact ExceptState.bind_of_ok hread

end Handshake
end PqcVpn
