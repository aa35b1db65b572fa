import PqcVpn.Handshake.Client
import PqcVpn.Handshake.Kdf
import PqcVpn.Handshake.Parity
import PqcVpn.Lib.ExceptState

/-!
# ClientState — the server crate's client, and its agreement with `core`'s

`server/handshake-server/src/client_handshake.rs` is a second client, used by the end-to-end tests.
Both clients are run in lock step: they record the same steps and their results correspond, so what
the tests see of one holds of the other (`finish_lockStep`).
-/

namespace PqcVpn
namespace Handshake

open Crypto Wire ExceptState

variable {P : Primitives}

/-! ## The steps of a finish -/

/-- What `finish` has done so far, as far as the order of its checks matters. -/
inductive FinishStep
  | checkedAlgo (passed : Bool)
  | checkedSignature (verifyingKey message signature : List UInt8) (passed : Bool)
  | decapsulates (serverX25519Public : Bytes 32) (ciphertext : List UInt8)
  deriving DecidableEq

/-- A `finish` that records its steps; a failure keeps the record. -/
abbrev FinishM (ε α : Type) : Type := ExceptT ε (StateM (List FinishStep)) α

namespace FinishM

variable {ε : Type}

def record (step : FinishStep) : FinishM ε Unit := fun steps => (.ok (), steps ++ [step])

/-- Record a check and return early when it did not pass. -/
def check (step : Bool → FinishStep) (passed : Bool) (e : ε) : FinishM ε Unit := do
  record (step passed)
  if ¬ passed then
    throw e

theorem check_of_passed (step : Bool → FinishStep) (e : ε) (steps : List FinishStep) :
    check step true e steps = (.ok (), steps ++ [step true]) := rfl

theorem check_of_failed (step : Bool → FinishStep) (e : ε) (steps : List FinishStep) :
    check step false e steps = (.error e, steps ++ [step false]) := rfl

end FinishM

open FinishM

/-! ## `core`'s client, step by step -/

namespace Client
namespace ClientHandshake

/-- The tail of `finish`, which touches the client's secrets. -/
def decapsulateM (c : ClientHandshake P) (serverHello : ServerHello MlKemLevel) :
    FinishM HandshakeError (Bytes 32) :=
  match Bytes.tryFrom c.level.ciphertextLen serverHello.mlkemCiphertext with
  | none => throw (.crypto "server ciphertext has the wrong length")
  | some ct => do
      record (.decapsulates serverHello.serverX25519Pub ct.toList)
      match clientDecapsulate c.keys serverHello.serverX25519Pub ct with
      | .error m => throw (.crypto m)
      | .ok hybridSecret => return hybridSecret

/-- `finish`, recording its steps. -/
def finishM (c : ClientHandshake P) (serverHello : ServerHello MlKemLevel)
    (pinnedVerifyingKey : List UInt8) :
    FinishM HandshakeError (SessionKeys × ClientFinish × List UInt8) := do
  check .checkedAlgo (serverHello.algo = c.hello.algo) .algoMismatch
  let transcript := c.transcriptWith serverHello
  check (.checkedSignature pinnedVerifyingKey transcript serverHello.signature)
    (verifyServerSignature P pinnedVerifyingKey transcript serverHello.signature) .authFailed
  let hybridSecret ← c.decapsulateM serverHello
  let keys := deriveSessionKeys P hybridSecret c.hello.clientNonce serverHello.serverNonce
  return (keys,
    { sessionId := serverHello.sessionId
      clientTag := clientTag P keys.confirmKey transcript },
    transcript)

/-- The signature check `finish` records. -/
def signatureStep (c : ClientHandshake P) (serverHello : ServerHello MlKemLevel)
    (vk : List UInt8) : Bool → FinishStep :=
  .checkedSignature vk (c.transcriptWith serverHello) serverHello.signature

/-- A hello for another algorithm, or with a signature that does not verify, stops the finish at
that check. -/
theorem finishM_of_check_failed (c : ClientHandshake P) {serverHello : ServerHello MlKemLevel}
    {vk : List UInt8} (steps : List FinishStep) :
    (serverHello.algo ≠ c.hello.algo → c.finishM serverHello vk steps =
      (.error .algoMismatch, steps ++ [.checkedAlgo false])) ∧
    (serverHello.algo = c.hello.algo →
      verifyServerSignature P vk (c.transcriptWith serverHello) serverHello.signature = false →
      c.finishM serverHello vk steps =
        (.error .authFailed,
          steps ++ [.checkedAlgo true] ++ [c.signatureStep serverHello vk false])) := by
  constructor
  · intro halgo
    unfold finishM
    rw [decide_eq_false halgo]
    exact bind_of_error (check_of_failed _ _ _)
  · intro halgo hsig
    unfold finishM
    -- the first check passes and is recorded, the second stops the run
    rw [decide_eq_true halgo, bind_of_ok (check_of_passed _ _ _)]
    dsimp only
    rw [hsig]
    exact bind_of_error (check_of_failed _ _ _)

/-- Past both checks, `finish` is the decapsulation and what follows from its secret. -/
theorem finishM_of_checks_passed (c : ClientHandshake P) {serverHello : ServerHello MlKemLevel}
    {vk : List UInt8} (steps : List FinishStep) (halgo : serverHello.algo = c.hello.algo)
    (hsig : verifyServerSignature P vk (c.transcriptWith serverHello) serverHello.signature = true) :
    c.finishM serverHello vk steps = (c.decapsulateM serverHello >>= fun hybridSecret =>
      let keys := deriveSessionKeys P hybridSecret c.hello.clientNonce serverHello.serverNonce
      pure (keys,
        { sessionId := serverHello.sessionId
          clientTag := clientTag P keys.confirmKey (c.transcriptWith serverHello) },
        c.transcriptWith serverHello))
      (steps ++ [.checkedAlgo true] ++ [c.signatureStep serverHello vk true]) := by
  unfold finishM
  rw [decide_eq_true halgo, bind_of_ok (check_of_passed _ _ _)]
  dsimp only
  rw [hsig, bind_of_ok (check_of_passed _ _ _)]
  rfl

/-- Recording changes nothing about the result. -/
theorem finishM_result (c : ClientHandshake P) (serverHello : ServerHello MlKemLevel)
    (vk : List UInt8) (steps : List FinishStep) :
    (c.finishM serverHello vk steps).1 = c.finish serverHello vk := by
  unfold finish
  by_cases halgo : serverHello.algo = c.hello.algo
  · cases hsig : verifyServerSignature P vk (c.transcriptWith serverHello) serverHello.signature with
    | false =>
        rw [(c.finishM_of_check_failed steps).2 halgo hsig]
        simp [halgo, hsig]
    | true =>
        rw [c.finishM_of_checks_passed steps halgo hsig]
        simp only [halgo, hsig, ne_eq, not_true_eq_false, ite_false]
        -- both runs go through the same conversion and decapsulation
        unfold decapsulateM
        cases Bytes.tryFrom c.level.ciphertextLen serverHello.mlkemCiphertext with
        | none => rfl
        | some ct =>
            cases hdec : clientDecapsulate c.keys serverHello.serverX25519Pub ct with
            | error m => simp only [hdec]; rfl
            | ok hybridSecret => simp only [hdec]; rfl
  · rw [(c.finishM_of_check_failed steps).1 halgo]
    simp [halgo]

/-- The tail of `finish` records at most its decapsulation. -/
theorem decapsulateM_steps (c : ClientHandshake P) (serverHello : ServerHello MlKemLevel)
    (steps : List FinishStep) :
    (c.decapsulateM serverHello steps).2 = steps ∨
      ∃ ct, (c.decapsulateM serverHello steps).2 =
        steps ++ [.decapsulates serverHello.serverX25519Pub ct] := by
  unfold decapsulateM
  cases Bytes.tryFrom c.level.ciphertextLen serverHello.mlkemCiphertext with
  | none => exact .inl rfl
  | some ct =>
      refine .inr ⟨ct.toList, ?_⟩
      cases hdec : clientDecapsulate c.keys serverHello.serverX25519Pub ct with
      | error m => simp only [hdec]; rfl
      | ok hybridSecret => simp only [hdec]; rfl

/-- The steps of a finish, in every case. -/
theorem finishM_steps (c : ClientHandshake P) (serverHello : ServerHello MlKemLevel)
    (vk : List UInt8) :
    (∃ passed, (c.finishM serverHello vk []).2 = [.checkedAlgo passed]) ∨
    (∃ passed, (c.finishM serverHello vk []).2 =
      [.checkedAlgo true, c.signatureStep serverHello vk passed]) ∨
    (serverHello.algo = c.hello.algo ∧
      verifyServerSignature P vk (c.transcriptWith serverHello) serverHello.signature = true ∧
      ∃ ct, (c.finishM serverHello vk []).2 =
        [.checkedAlgo true, c.signatureStep serverHello vk true,
          .decapsulates serverHello.serverX25519Pub ct]) := by
  by_cases halgo : serverHello.algo = c.hello.algo
  · cases hsig : verifyServerSignature P vk (c.transcriptWith serverHello) serverHello.signature with
    | false =>
        rw [(c.finishM_of_check_failed []).2 halgo hsig]
        exact .inr (.inl ⟨false, rfl⟩)
    | true =>
        rw [c.finishM_of_checks_passed [] halgo hsig]
        -- what follows the decapsulation records nothing
        have hsteps : ∀ (m : FinishM HandshakeError (Bytes 32)) (g : Bytes 32 → _)
            (steps : List FinishStep), ((m >>= fun secret =>
              (pure (g secret) : FinishM HandshakeError
                (SessionKeys × ClientFinish × List UInt8))) steps).2 = (m steps).2 := by
          intro m g steps
          rcases hm : m steps with ⟨e | secret, steps'⟩
          · rw [bind_of_error hm]
          · rw [bind_of_ok hm]
            rfl
        rw [hsteps]
        rcases c.decapsulateM_steps serverHello
          ([] ++ [.checkedAlgo true] ++ [c.signatureStep serverHello vk true]) with h | ⟨ct, h⟩
        · exact .inr (.inl ⟨true, h⟩)
        · exact .inr (.inr ⟨halgo, rfl, ct, h⟩)
  · rw [(c.finishM_of_check_failed []).1 halgo]
    exact .inl ⟨false, rfl⟩

end ClientHandshake
end Client

/-! ## The server crate's client -/

/-- `identity::verify`. -/
def Identity.verify (P : Primitives) (verifyingKeyBytes message signatureBytes : List UInt8) :
    Bool :=
  match Bytes.tryFrom verifyingKeyLen verifyingKeyBytes with
  | none => false
  | some vk =>
      match Bytes.tryFrom serverSignatureLen signatureBytes with
      | none => false
      | some sig => P.verify vk message sig

theorem Identity.verify_eq (vk message signature : List UInt8) :
    Identity.verify P vk message signature = verifyServerSignature P vk message signature := rfl

/-- A client mid-handshake: holds the ephemeral keys needed to finish. -/
inductive ClientState (P : Primitives)
  | k512 (keys : HybridClientKeys P .mlKem512) (hello : ClientHello AlgoCode)
  | k768 (keys : HybridClientKeys P .mlKem768) (hello : ClientHello AlgoCode)
  | k1024 (keys : HybridClientKeys P .mlKem1024) (hello : ClientHello AlgoCode)

namespace ClientState

/-- One arm of `start`: fresh keys of a parameter set and the hello for `algo`. -/
def build {k : MlKemLevel} (variant : HybridClientKeys P k → ClientHello AlgoCode → ClientState P)
    (algo : AlgoCode) (clientNonce clientWgPubkey : Bytes 32) (x25519 : P.X25519Secret)
    (kem : P.KemSeed) : ClientState P :=
  let keys := generateClientKeypairs P k x25519 kem
  variant keys
    { algo := algo
      clientNonce := clientNonce
      clientWgPubkey := clientWgPubkey
      clientX25519Pub := keys.x25519Public
      clientMlkemPub := keys.mlkemPublic.toList }

/-- `x25519` and `kem` are the randomness of the generated keys. -/
def start (algo : AlgoCode) (clientNonce clientWgPubkey : Bytes 32) (x25519 : P.X25519Secret)
    (kem : P.KemSeed) : ClientState P :=
  match algo with
  | .mlKem512 => build .k512 algo clientNonce clientWgPubkey x25519 kem
  | .mlKem768 => build .k768 algo clientNonce clientWgPubkey x25519 kem
  | .mlKem1024 => build .k1024 algo clientNonce clientWgPubkey x25519 kem

def hello : ClientState P → ClientHello AlgoCode
  | k512 _ h => h
  | k768 _ h => h
  | k1024 _ h => h

/-- One arm of the match in `finish`, at parameter set `k`: the ciphertext conversion and the decapsulation. -/
def decapsulateAt {k : MlKemLevel} (keys : HybridClientKeys P k) (serverX : Bytes 32)
    (ctBytes : List UInt8) : FinishM HandshakeError (Bytes 32) :=
  match Bytes.tryFrom k.ciphertextLen ctBytes with
  | none => throw (.crypto "server ciphertext wrong length")
  | some ct => do
      record (.decapsulates serverX ct.toList)
      match clientDecapsulate keys serverX ct with
      | .error m => throw (.crypto m)
      | .ok hybridSecret => return hybridSecret

/-- The match over the variants in `finish`. -/
def decapsulateM (c : ClientState P) (serverX : Bytes 32) (ctBytes : List UInt8) :
    FinishM HandshakeError (Bytes 32) :=
  match c with
  | k512 keys _ => decapsulateAt keys serverX ctBytes
  | k768 keys _ => decapsulateAt keys serverX ctBytes
  | k1024 keys _ => decapsulateAt keys serverX ctBytes

/-- `finish`, recording its steps. -/
def finishM (c : ClientState P) (serverHello : ServerHello AlgoCode)
    (pinnedVerifyingKey : List UInt8) :
    FinishM HandshakeError (Kdf.SessionKeys × ClientFinish × List UInt8) := do
  let hello := c.hello
  check .checkedAlgo (serverHello.algo = hello.algo) .algoMismatch
  let transcript := buildTranscript
    { algo := hello.algo
      clientNonce := hello.clientNonce
      serverNonce := serverHello.serverNonce
      clientX25519Pub := hello.clientX25519Pub
      clientMlkemPub := hello.clientMlkemPub
      serverX25519Pub := serverHello.serverX25519Pub
      mlkemCiphertext := serverHello.mlkemCiphertext }
  check (.checkedSignature pinnedVerifyingKey transcript serverHello.signature)
    (Identity.verify P pinnedVerifyingKey transcript serverHello.signature) .authFailed
  let hybridSecret ← c.decapsulateM serverHello.serverX25519Pub serverHello.mlkemCiphertext
  let keys := Kdf.derive P hybridSecret hello.clientNonce serverHello.serverNonce
  let clientTag := Kdf.clientTag P keys.confirmKey transcript
  return (keys, { sessionId := serverHello.sessionId, clientTag := clientTag }, transcript)

/-- Verify the server's signature, derive keys, and produce `ClientFinish`. -/
def finish (c : ClientState P) (serverHello : ServerHello AlgoCode)
    (pinnedVerifyingKey : List UInt8) :
    Except HandshakeError (Kdf.SessionKeys × ClientFinish × List UInt8) :=
  (c.finishM serverHello pinnedVerifyingKey []).1

/-! ## The same client in both crates -/

/-- The server crate's client with the keys and the hello of a client of `core`. -/
def ofCore : Client.ClientHandshake P → ClientState P
  | ⟨.mlKem512, keys, hello⟩ => .k512 keys (hello.mapAlgo codeOf)
  | ⟨.mlKem768, keys, hello⟩ => .k768 keys (hello.mapAlgo codeOf)
  | ⟨.mlKem1024, keys, hello⟩ => .k1024 keys (hello.mapAlgo codeOf)

def toCore : ClientState P → Client.ClientHandshake P
  | k512 keys hello => ⟨.mlKem512, keys, hello.mapAlgo kemOf⟩
  | k768 keys hello => ⟨.mlKem768, keys, hello.mapAlgo kemOf⟩
  | k1024 keys hello => ⟨.mlKem1024, keys, hello.mapAlgo kemOf⟩

theorem ofCore_bijective : Function.Bijective (ofCore : Client.ClientHandshake P → ClientState P) := by
  refine ⟨Function.LeftInverse.injective (g := toCore) ?_,
    Function.RightInverse.surjective (g := toCore) ?_⟩
  · rintro ⟨level, keys, hello⟩
    cases level <;> simp [ofCore, toCore, ClientHello.mapAlgo]
  · intro c
    cases c <;> simp [ofCore, toCore, ClientHello.mapAlgo]

theorem ofCore_start (algo : MlKemLevel) (clientWgPubkey : Bytes 32)
    (seed : Client.ClientHandshake.Seed P) :
    ofCore (Client.ClientHandshake.start algo clientWgPubkey seed) =
      start (codeOf algo) seed.clientNonce clientWgPubkey seed.x25519 seed.kem := by
  cases algo <;> rfl

theorem ofCore_hello (c : Client.ClientHandshake P) : (ofCore c).hello = c.hello.mapAlgo codeOf := by
  rcases c with ⟨level, keys, hello⟩
  cases level <;> rfl

theorem ofCore_decapsulateM (c : Client.ClientHandshake P) (serverX : Bytes 32)
    (ctBytes : List UInt8) :
    (ofCore c).decapsulateM serverX ctBytes = decapsulateAt c.keys serverX ctBytes := by
  rcases c with ⟨level, keys, hello⟩
  cases level <;> rfl

end ClientState

/-- The two transcript front ends build the same bytes. -/
theorem buildTranscript_ofCore (c : Client.ClientHandshake P) (serverHello : ServerHello MlKemLevel) :
    buildTranscript (.ofHellos (ClientState.ofCore c).hello (serverHello.mapAlgo codeOf)) =
      c.transcriptWith serverHello := by
  rw [ClientState.ofCore_hello]
  simp only [buildTranscript, TranscriptInputs.ofHellos, transcriptName_eq, ClientHello.mapAlgo,
    ServerHello.mapAlgo, kemOf_codeOf]
  rfl

/-! ## Lock step -/

/-- Failures of one kind.  The crates differ in the wording of one message. -/
inductive SameFailure : Client.HandshakeError → HandshakeError → Prop
  | algoMismatch : SameFailure .algoMismatch .algoMismatch
  | authFailed : SameFailure .authFailed .authFailed
  | crypto (m : String) : SameFailure (.crypto m) (.crypto m)
  | ciphertextLength :
      SameFailure (.crypto "server ciphertext has the wrong length")
        (.crypto "server ciphertext wrong length")

/-- The same keys, `ClientFinish` and transcript. -/
structure SameOutcome (a : SessionKeys × ClientFinish × List UInt8)
    (b : Kdf.SessionKeys × ClientFinish × List UInt8) : Prop where
  psk : a.1.psk = b.1.psk
  confirmKey : a.1.confirmKey = b.1.confirmKey
  clientFinish : a.2.1 = b.2.1
  transcript : a.2.2 = b.2.2

theorem check_lockStep (step : Bool → FinishStep) {passed passed' : Bool} (h : passed = passed')
    {e : Client.HandshakeError} {e' : HandshakeError} (he : SameFailure e e') :
    LockStep SameFailure (fun _ _ => True) (check step passed e) (check step passed' e') := by
  subst h
  intro steps
  cases passed with
  | false => exact ⟨.error he, rfl⟩
  | true => exact ⟨.ok trivial, rfl⟩

theorem record_lockStep (step : FinishStep) :
    LockStep SameFailure (fun _ _ => True) (record step) (record step) := by
  intro steps
  exact ⟨.ok trivial, rfl⟩

theorem decapsulate_lockStep (c : Client.ClientHandshake P) (serverHello : ServerHello MlKemLevel) :
    LockStep SameFailure Eq (c.decapsulateM serverHello)
      ((ClientState.ofCore c).decapsulateM serverHello.serverX25519Pub
        serverHello.mlkemCiphertext) := by
  rw [ClientState.ofCore_decapsulateM]
  unfold Client.ClientHandshake.decapsulateM ClientState.decapsulateAt
  -- the variant fixes the parameter set; the texts for a wrong length differ
  cases Bytes.tryFrom c.level.ciphertextLen serverHello.mlkemCiphertext with
  | none => exact .throw .ciphertextLength
  | some ct =>
      refine .bind (record_lockStep _) ?_
      intro _ _ _
      cases clientDecapsulate c.keys serverHello.serverX25519Pub ct with
      | error m => exact .throw (.crypto m)
      | ok hybridSecret => exact .pure rfl

/-- The two clients take the same steps and end alike. -/
theorem finish_lockStep (c : Client.ClientHandshake P) (serverHello : ServerHello MlKemLevel)
    (vk : List UInt8) :
    LockStep SameFailure SameOutcome (c.finishM serverHello vk)
      ((ClientState.ofCore c).finishM (serverHello.mapAlgo codeOf) vk) := by
  have htranscript := buildTranscript_ofCore c serverHello
  have halgo : (decide (serverHello.algo = c.hello.algo)) =
      decide ((serverHello.mapAlgo codeOf).algo = (ClientState.ofCore c).hello.algo) := by
    rw [ClientState.ofCore_hello]
    exact decide_eq_decide.2 codeOf_bijective.injective.eq_iff.symm
  unfold TranscriptInputs.ofHellos at htranscript
  unfold Client.ClientHandshake.finishM ClientState.finishM
  -- step for step: algorithm, signature, decapsulation, keys and tag
  refine .bind (check_lockStep _ halgo .algoMismatch) ?_
  intro _ _ _
  dsimp only
  rw [htranscript]
  refine .bind (check_lockStep _ (Identity.verify_eq vk _ _).symm .authFailed) ?_
  intro _ _ _
  refine .bind (decapsulate_lockStep c serverHello) ?_
  rintro secret _ rfl
  refine .pure ?_
  rw [ClientState.ofCore_hello]
  exact
    { psk := (Kdf.derive_psk P secret _ _).symm
      confirmKey := (Kdf.derive_confirmKey P secret _ _).symm
      clientFinish := by
        rw [Kdf.derive_confirmKey, Kdf.clientTag_eq]
        rfl
      transcript := rfl }

/-! ## What guards the decapsulation -/

/-- The decapsulation comes right after the two checks, and both passed. -/
def Guarded (vk transcript signature : List UInt8) (steps : List FinishStep) : Prop :=
  ∀ before x ct after, steps = before ++ .decapsulates x ct :: after →
    before = [.checkedAlgo true, .checkedSignature vk transcript signature true]

theorem guarded_of_not_mem {vk transcript signature : List UInt8} {steps : List FinishStep}
    (h : ∀ x ct, FinishStep.decapsulates x ct ∉ steps) : Guarded vk transcript signature steps := by
  intro before x ct after heq
  refine absurd ?_ (h x ct)
  rw [heq]
  exact List.mem_append_right before List.mem_cons_self

/-- A decapsulation that `core`'s client reaches is guarded by checks that hold. -/
theorem finishM_guarded (c : Client.ClientHandshake P) (serverHello : ServerHello MlKemLevel)
    (vk : List UInt8) :
    Guarded vk (c.transcriptWith serverHello) serverHello.signature
        (c.finishM serverHello vk []).2 ∧
      ∀ x ct, .decapsulates x ct ∈ (c.finishM serverHello vk []).2 →
        serverHello.algo = c.hello.algo ∧
        verifyServerSignature P vk (c.transcriptWith serverHello) serverHello.signature = true := by
  rcases c.finishM_steps serverHello vk with ⟨passed, h⟩ | ⟨passed, h⟩ | ⟨halgo, hsig, ct', h⟩
  · have hnone : ∀ x ct, FinishStep.decapsulates x ct ∉ (c.finishM serverHello vk []).2 := by
      simp [h]
    exact ⟨guarded_of_not_mem hnone, fun x ct hmem => absurd hmem (hnone x ct)⟩
  · have hnone : ∀ x ct, FinishStep.decapsulates x ct ∉ (c.finishM serverHello vk []).2 := by
      simp [h, Client.ClientHandshake.signatureStep]
    exact ⟨guarded_of_not_mem hnone, fun x ct hmem => absurd hmem (hnone x ct)⟩
  -- the decapsulation is the third of three steps, so exactly two come before it
  · refine ⟨?_, fun _ _ _ => ⟨halgo, hsig⟩⟩
    intro before x ct after heq
    rw [h] at heq
    match before, heq with
    | [], heq => cases heq
    | [_], heq => cases heq
    | [_, _], heq =>
        cases heq
        rfl
    | _ :: _ :: _ :: _, heq => simp at heq

/-! ## The two clients -/

/-- The two clients start alike, correspond on every input, guard their decapsulation alike, and
accept each other's tags. -/
theorem clients_agree (P : Primitives) :
    Function.Bijective (ClientState.ofCore : Client.ClientHandshake P → ClientState P) ∧
    (∀ (algo : MlKemLevel) (clientWgPubkey : Bytes 32) (seed : Client.ClientHandshake.Seed P),
      ClientState.ofCore (Client.ClientHandshake.start algo clientWgPubkey seed) =
        ClientState.start (codeOf algo) seed.clientNonce clientWgPubkey seed.x25519 seed.kem) ∧
    (∀ (c : Client.ClientHandshake P) (serverHello : ServerHello MlKemLevel) (vk : List UInt8),
      Corresponds SameFailure SameOutcome (c.finish serverHello vk)
        ((ClientState.ofCore c).finish (serverHello.mapAlgo codeOf) vk)) ∧
    (∀ (c : Client.ClientHandshake P) (serverHello : ServerHello MlKemLevel) (vk : List UInt8),
      (c.finishM serverHello vk []).1 = c.finish serverHello vk ∧
      Guarded vk (c.transcriptWith serverHello) serverHello.signature
        (c.finishM serverHello vk []).2 ∧
      ∀ x ct, .decapsulates x ct ∈ (c.finishM serverHello vk []).2 →
        serverHello.algo = c.hello.algo ∧
        verifyServerSignature P vk (c.transcriptWith serverHello) serverHello.signature = true) ∧
    (∀ (c : ClientState P) (serverHello : ServerHello AlgoCode) (vk : List UInt8),
      Guarded vk (buildTranscript (.ofHellos c.hello serverHello)) serverHello.signature
        (c.finishM serverHello vk []).2 ∧
      ∀ x ct, .decapsulates x ct ∈ (c.finishM serverHello vk []).2 →
        serverHello.algo = c.hello.algo ∧
        Identity.verify P vk (buildTranscript (.ofHellos c.hello serverHello))
          serverHello.signature = true) ∧
    ∀ (confirmKey : Bytes 32) (transcript : List UInt8) (claimed : Bytes 32),
      Crypto.verifyServerTag P confirmKey transcript claimed = true ↔
        claimed = Kdf.serverTag P confirmKey transcript := by
  refine ⟨ClientState.ofCore_bijective, ClientState.ofCore_start, ?_, ?_, ?_, ?_⟩
  · intro c serverHello vk
    rw [← c.finishM_result serverHello vk []]
    exact (finish_lockStep c serverHello vk []).1
  · intro c serverHello vk
    exact ⟨c.finishM_result serverHello vk [], finishM_guarded c serverHello vk⟩
  · intro c serverHello vk
    -- every client and hello of the server crate is the translation of one of `core`'s
    rcases ClientState.ofCore_bijective.surjective c with ⟨c, rfl⟩
    have hsh : serverHello = (serverHello.mapAlgo kemOf).mapAlgo codeOf := by
      simp [ServerHello.mapAlgo]
    rw [hsh]
    rw [buildTranscript_ofCore, ← (finish_lockStep c (serverHello.mapAlgo kemOf) vk []).2]
    rcases finishM_guarded c (serverHello.mapAlgo kemOf) vk with ⟨hguarded, hchecks⟩
    refine ⟨hguarded, ?_⟩
    intro x ct hmem
    rcases hchecks x ct hmem with ⟨halgo, hsig⟩
    rw [ClientState.ofCore_hello]
    exact ⟨congrArg codeOf halgo, hsig⟩
  · intro confirmKey transcript claimed
    rw [verifyServerTag_iff, Kdf.serverTag_eq]

end Handshake
end PqcVpn
