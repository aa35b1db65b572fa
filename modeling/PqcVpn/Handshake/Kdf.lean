import PqcVpn.Crypto.Transcript
import PqcVpn.Handshake.Respond
import PqcVpn.Wire.Message

/-!
# Kdf — the server crate's key schedule and finish MACs, and what the MACs and the signature cover

`server/handshake-server/src/kdf.rs` copies the keys `core` derives and declares the two finish
labels a second time.  A finish MAC absorbs its label and then the transcript.  The transcript of
well-sized inputs determines them (`buildTranscript_inj`), and the labels keep the roles apart
(`Role.tagInput_inj`).
-/

namespace PqcVpn
namespace Handshake

open Crypto Wire

/-! ## The key schedule -/

namespace Kdf

variable (P : Primitives)

structure SessionKeys where
  /-- Installed as the WireGuard preshared key. -/
  psk : Bytes 32
  /-- Keys the `ClientFinish` / `ServerFinish` MACs. -/
  confirmKey : Bytes 32
  deriving DecidableEq

def derive (hybridSecret clientNonce serverNonce : Bytes 32) : SessionKeys :=
  let keys := deriveSessionKeys P hybridSecret clientNonce serverNonce
  { psk := keys.psk
    confirmKey := keys.confirmKey }

def labelClientFinished : List UInt8 := asBytes "client finished"
def labelServerFinished : List UInt8 := asBytes "server finished"

def tag (confirmKey : Bytes 32) (label transcript : List UInt8) : Bytes 32 :=
  let mac := P.hmacSha256.newFromSlice confirmKey
  let mac := P.hmacSha256.update mac label
  let mac := P.hmacSha256.update mac transcript
  P.hmacSha256.finalize mac

def clientTag (confirmKey : Bytes 32) (transcript : List UInt8) : Bytes 32 :=
  tag P confirmKey labelClientFinished transcript

def serverTag (confirmKey : Bytes 32) (transcript : List UInt8) : Bytes 32 :=
  tag P confirmKey labelServerFinished transcript

def verifyClientTag (confirmKey : Bytes 32) (transcript : List UInt8) (claimed : Bytes 32) :
    Bool :=
  let mac := P.hmacSha256.newFromSlice confirmKey
  let mac := P.hmacSha256.update mac labelClientFinished
  let mac := P.hmacSha256.update mac transcript
  P.hmacSha256.verifySlice mac claimed

def verifyServerTag (confirmKey : Bytes 32) (transcript : List UInt8) (claimed : Bytes 32) :
    Bool :=
  let mac := P.hmacSha256.newFromSlice confirmKey
  let mac := P.hmacSha256.update mac labelServerFinished
  let mac := P.hmacSha256.update mac transcript
  P.hmacSha256.verifySlice mac claimed

@[simp] theorem derive_psk (hybridSecret clientNonce serverNonce : Bytes 32) :
    (derive P hybridSecret clientNonce serverNonce).psk =
      (deriveSessionKeys P hybridSecret clientNonce serverNonce).psk := rfl

@[simp] theorem derive_confirmKey (hybridSecret clientNonce serverNonce : Bytes 32) :
    (derive P hybridSecret clientNonce serverNonce).confirmKey =
      (deriveSessionKeys P hybridSecret clientNonce serverNonce).confirmKey := rfl

/-- The two crates' MACs are the same function. -/
theorem tag_eq (confirmKey : Bytes 32) (label transcript : List UInt8) :
    tag P confirmKey label transcript = Crypto.tag P confirmKey label transcript := rfl

theorem clientTag_eq (confirmKey : Bytes 32) (transcript : List UInt8) :
    clientTag P confirmKey transcript = Crypto.clientTag P confirmKey transcript :=
  tag_eq P confirmKey labelClientFinished transcript

theorem serverTag_eq (confirmKey : Bytes 32) (transcript : List UInt8) :
    serverTag P confirmKey transcript = Crypto.serverTag P confirmKey transcript :=
  tag_eq P confirmKey labelServerFinished transcript

end Kdf

/-! ## What a finish MAC authenticates -/

/-- The two ends that send a finish MAC. -/
inductive Role
  | client
  | server
  deriving DecidableEq, Repr

namespace Role

def label : Role → List UInt8
  | client => Kdf.labelClientFinished
  | server => Kdf.labelServerFinished

/-- The tag a role sends. -/
def tag (P : Primitives) : Role → Bytes 32 → List UInt8 → Bytes 32
  | client => Kdf.clientTag P
  | server => Kdf.serverTag P

/-- The bytes the tag of a role is computed over. -/
def tagInput (role : Role) (transcript : List UInt8) : List UInt8 := role.label ++ transcript

theorem tag_eq (P : Primitives) (role : Role) (confirmKey : Bytes 32) (transcript : List UInt8) :
    role.tag P confirmKey transcript = P.hmac confirmKey (role.tagInput transcript) := by
  cases role with
  | client => exact tag_eq_hmac P confirmKey _ transcript
  | server => exact tag_eq_hmac P confirmKey _ transcript

theorem label_length (role : Role) : role.label.length = 15 := by
  cases role <;> decide

theorem label_injective : Function.Injective label := by
  intro r r' h
  cases r <;> cases r' <;> first | rfl | exact absurd h (by decide)

/-- The labels have one length, so what a tag is computed over says whose tag it is and of what. -/
theorem tagInput_inj {r r' : Role} {t t' : List UInt8} (h : r.tagInput t = r'.tagInput t') :
    r = r' ∧ t = t' := by
  rcases (PrefixFree.of_length 15).append_inj r.label_length r'.label_length h with ⟨hlabel, ht⟩
  exact ⟨label_injective hlabel, ht⟩

end Role

/-! ## What the transcript covers -/

namespace TranscriptInputs

/-- The byte strings have the lengths the algorithm prescribes. -/
structure WellSized (i : TranscriptInputs) : Prop where
  clientMlkemPub : i.clientMlkemPub.length = i.algo.mlkemPubLen
  mlkemCiphertext : i.mlkemCiphertext.length = i.algo.ciphertextLen

/-- The inputs that a hello and its answer give. -/
def ofHellos (hello : ClientHello AlgoCode) (serverHello : ServerHello AlgoCode) :
    TranscriptInputs :=
  { algo := hello.algo
    clientNonce := hello.clientNonce
    serverNonce := serverHello.serverNonce
    clientX25519Pub := hello.clientX25519Pub
    clientMlkemPub := hello.clientMlkemPub
    serverX25519Pub := serverHello.serverX25519Pub
    mlkemCiphertext := serverHello.mlkemCiphertext }

end TranscriptInputs

theorem transcriptName_eq (a : AlgoCode) : a.transcriptName = (kemOf a).name := by
  cases a <;> rfl

/-- The signed bytes determine everything that went into them. -/
theorem buildTranscript_inj {i j : TranscriptInputs} (hi : i.WellSized) (hj : j.WellSized)
    (h : buildTranscript i = buildTranscript j) : i = j := by
  have hmk : i.clientMlkemPub.length = (kemOf i.algo).mlkemPubLen :=
    hi.clientMlkemPub.trans (length_kemOf i.algo).1
  have hmk' : j.clientMlkemPub.length = (kemOf j.algo).mlkemPubLen :=
    hj.clientMlkemPub.trans (length_kemOf j.algo).1
  simp only [buildTranscript, transcriptName_eq] at h
  -- the name is read first, and it fixes the length of every later field
  rcases buildHandshakeTranscriptFromBytes_inj hmk hmk' h with ⟨hkem, hcn, hsn, hcx, hpub, hsx, hct⟩
  have halgo : i.algo = j.algo := by
    calc
      i.algo = codeOf (kemOf i.algo) := (codeOf_kemOf i.algo).symm
      _ = codeOf (kemOf j.algo) := congrArg codeOf hkem
      _ = j.algo := codeOf_kemOf j.algo
  cases i
  cases j
  simp only at halgo hcn hsn hcx hpub hsx hct
  subst halgo hcn hsn hcx hpub hsx hct
  rfl

/-! ## The signed and the MACed bytes -/

/-- Equal transcripts have equal inputs, and what a finish MAC is computed over determines the role
and the transcript. -/
theorem authenticated_bytes_unambiguous {i j : TranscriptInputs} (hi : i.WellSized)
    (hj : j.WellSized) :
    (buildTranscript i = buildTranscript j →
      i.algo = j.algo ∧ i.clientNonce = j.clientNonce ∧ i.serverNonce = j.serverNonce ∧
        i.clientX25519Pub = j.clientX25519Pub ∧ i.serverX25519Pub = j.serverX25519Pub ∧
        i.clientMlkemPub = j.clientMlkemPub ∧ i.mlkemCiphertext = j.mlkemCiphertext) ∧
    (∀ (P : Primitives) (confirmKey : Bytes 32),
      Kdf.clientTag P confirmKey (buildTranscript i) =
        P.hmac confirmKey (Role.client.tagInput (buildTranscript i)) ∧
      Kdf.serverTag P confirmKey (buildTranscript i) =
        P.hmac confirmKey (Role.server.tagInput (buildTranscript i))) ∧
    (∀ r r' : Role, r.tagInput (buildTranscript i) = r'.tagInput (buildTranscript j) →
      r = r' ∧ buildTranscript i = buildTranscript j) ∧
    Role.client.tagInput (buildTranscript i) ≠ Role.server.tagInput (buildTranscript j) := by
  refine ⟨?_, ?_, ?_, ?_⟩
  · -- the transcript determines all of its inputs
    intro h
    cases buildTranscript_inj hi hj h
    exact ⟨rfl, rfl, rfl, rfl, rfl, rfl, rfl⟩
  · intro P confirmKey
    exact ⟨Role.tag_eq P .client confirmKey _, Role.tag_eq P .server confirmKey _⟩
  · -- the labels have one length and differ
    intro r r' h
    exact Role.tagInput_inj h
  · intro h
    cases (Role.tagInput_inj h).1

/-- The field values of the layout test, at any algorithm. -/
def layoutInputs (algo : AlgoCode) : TranscriptInputs :=
  { algo := algo
    clientNonce := .replicate 32 1
    serverNonce := .replicate 32 2
    clientX25519Pub := .replicate 32 3
    clientMlkemPub := List.replicate algo.mlkemPubLen 4
    serverX25519Pub := .replicate 32 5
    mlkemCiphertext := List.replicate algo.ciphertextLen 6 }

theorem layoutInputs_wellSized (algo : AlgoCode) : (layoutInputs algo).WellSized where
  clientMlkemPub := List.length_replicate
  mlkemCiphertext := List.length_replicate

/-- The same fields under two algorithms are signed as different bytes. -/
theorem layouts_signed_apart :
    buildTranscript (layoutInputs .mlKem512) ≠ buildTranscript (layoutInputs .mlKem768) ∧
    Role.client.tagInput (buildTranscript (layoutInputs .mlKem512)) ≠
      Role.server.tagInput (buildTranscript (layoutInputs .mlKem768)) := by
  have h := authenticated_bytes_unambiguous (layoutInputs_wellSized .mlKem512)
    (layoutInputs_wellSized .mlKem768)
  refine ⟨?_, h.2.2.2⟩
  intro heq
  cases (h.1 heq).1

end Handshake
end PqcVpn
