import Mathlib.Logic.Function.Basic
import PqcVpn.Crypto.Primitives
import PqcVpn.Lib.ExceptState
import PqcVpn.Wire.Error
import PqcVpn.Wire.Utf8

/-!
# Identity — the server's long-term key over restarts

`server/handshake-server/src/identity.rs`, `ServerAuthenticator` of `core/src/crypto/auth.rs`, and
what `main.rs` does with the two files.  Every system call of a start may fail, and the process may
die in it; what a call has written by then stays written.  The keys of `ml-dsa` and `hex::encode` are
parameters.
-/

namespace PqcVpn
namespace Server

open Crypto Wire

variable {P : Primitives}

/-! ## Keys and seeds -/

def seedLen : Nat := 32

/-- Making and saving keys with `ml-dsa`. -/
structure SeededKeys (P : Primitives) where
  /-- Randomness of `SigningKey::generate`. -/
  Rand : Type
  generate : Rand → P.SigningKey
  fromSeed : Bytes seedLen → P.SigningKey
  toSeed : P.SigningKey → Bytes seedLen

/-- A generated key is the key of its seed. -/
structure SeededKeys.Lawful (K : SeededKeys P) : Prop where
  fromSeed_toSeed : ∀ r, K.fromSeed (K.toSeed (K.generate r)) = K.generate r

/-- Owns the server's long-term private identity key. -/
structure ServerAuthenticator (P : Primitives) where
  signingKey : P.SigningKey

namespace ServerAuthenticator

variable (K : SeededKeys P)

def generate (rand : K.Rand) : ServerAuthenticator P := { signingKey := K.generate rand }

def fromSeedBytes (seed : Bytes seedLen) : ServerAuthenticator P :=
  { signingKey := K.fromSeed seed }

def toSeedBytes (auth : ServerAuthenticator P) : Bytes seedLen := K.toSeed auth.signingKey

def verifyingKey (auth : ServerAuthenticator P) : Bytes verifyingKeyLen :=
  P.verifyingKey auth.signingKey

def sign (auth : ServerAuthenticator P) (message : List UInt8) : Bytes serverSignatureLen :=
  P.sign auth.signingKey message

end ServerAuthenticator

/-! ## Files -/

/-- A path to a file: its directory, empty for the working directory, and its file name. -/
structure Path where
  dir : String
  name : List Char
  normal : name ≠ [] ∧ name ≠ ['.'] ∧ name ≠ ['.', '.'] ∧ '/' ∉ name
  deriving DecidableEq

namespace Path

/-- `rsplit_file_at_dot`: the parts before and after the last dot of a file name; a name whose only
dot is its first character has no extension. -/
def rsplitFileAtDot (name : List Char) : Option (List Char) × Option (List Char) :=
  let after := (name.reverse.takeWhile (· ≠ '.')).reverse
  match name.reverse.dropWhile (· ≠ '.') with
  | [] => (none, some after)
  | [_] => (some name, none)
  | _ :: before => (some before.reverse, some after)

def fileStem (path : Path) : List Char :=
  let (before, after) := rsplitFileAtDot path.name
  (before.or after).getD []

def extension (path : Path) : Option (List Char) :=
  let (before, after) := rsplitFileAtDot path.name
  before.bind fun _ => after

/-- A name is its stem, or its stem, a dot and its extension. -/
theorem name_eq (path : Path) : path.name = path.fileStem ∧ path.extension = none ∨
    ∃ ext, path.extension = some ext ∧ path.name = path.fileStem ++ '.' :: ext := by
  have hsplit : path.name.reverse = path.name.reverse.takeWhile (· ≠ '.') ++
      path.name.reverse.dropWhile (· ≠ '.') := List.takeWhile_append_dropWhile.symm
  unfold fileStem extension rsplitFileAtDot
  generalize path.name.reverse.takeWhile (· ≠ '.') = after at hsplit ⊢
  cases hdrop : path.name.reverse.dropWhile (· ≠ '.') with
  | nil =>
      rw [hdrop, List.append_nil] at hsplit
      refine .inl ⟨?_, rfl⟩
      simp [← hsplit]
  | cons c before =>
      -- the scan stopped at a dot
      have hdot : c = '.' := by
        have hhead := List.head?_dropWhile_not (· ≠ '.') path.name.reverse
        rw [hdrop] at hhead
        simpa using hhead
      rw [hdrop, hdot] at hsplit
      cases before with
      | nil => exact .inl ⟨rfl, rfl⟩
      | cons d before =>
          refine .inr ⟨after.reverse, rfl, ?_⟩
          have hname := congrArg List.reverse hsplit
          simpa using hname

theorem not_mem_fileStem (path : Path) : '/' ∉ path.fileStem := by
  intro h
  refine path.normal.2.2.2 ?_
  rcases path.name_eq with ⟨hname, _⟩ | ⟨ext, _, hname⟩
  · rwa [hname]
  · rw [hname]
    exact List.mem_append_left _ h

/-- `with_extension("pub")`, where `main` writes the public half: the name up to its last dot is
copied, and the stem of the copy extended.  A copy that is `..` has no stem and stays, which is a
directory and no file. -/
def pub (path : Path) : Option Path :=
  if path.extension.isSome ∧ path.fileStem = ['.'] then
    none
  else
    some
      { dir := path.dir
        name := path.fileStem ++ ['.', 'p', 'u', 'b']
        normal := by
          refine ⟨by simp, fun h => ?_, fun h => ?_, ?_⟩
          · simpa using congrArg List.length h
          · simpa using congrArg List.length h
          · have hstem := path.not_mem_fileStem
            simp [hstem] }

end Path

/-- A file: its bytes and its permission bits. -/
structure File where
  bytes : List UInt8
  mode : Nat
  deriving DecidableEq

/-- The files at the paths; no two paths name one file, as links would. -/
abbrev Disk : Type := Path → Option File

/-- Why a start does not go on. -/
inductive Stop
  | error (e : IoError)
  | died
  deriving DecidableEq

/-- How a system call ends. -/
inductive Outcome
  | done
  | stops (stop : Stop)

/-- How `fs::write` ends: it may not get to open the file, or stop when only the first `written`
bytes have reached it. -/
inductive WriteOutcome
  | done
  | notOpened (stop : Stop)
  | stopsAfter (written : Nat) (stop : Stop)

/-- The system calls of one start, in their order. -/
structure Calls where
  /-- Errors other than `NotFound`, which is what the call says of a path without a file. -/
  read : Outcome
  createDirAll : Outcome
  write : WriteOutcome
  setPermissions : Outcome
  writePub : WriteOutcome
  /-- The permission bits of a new file: `0o666` less the umask. -/
  createMode : Nat

inductive ReadError
  | notFound
  | other (e : IoError)

/-- File operations: a failure keeps what was written. -/
abbrev FileM (α : Type) : Type := ExceptT Stop (StateM Disk) α

namespace FileM

def call : Outcome → FileM Unit
  | .done => pure ()
  | .stops stop => throw stop

/-- `fs::read`. -/
def read (outcome : Outcome) (path : Path) : FileM (Except ReadError (List UInt8)) :=
  match outcome with
  | .stops .died => throw .died
  | .stops (.error e) => pure (.error (.other e))
  | .done => do
      match (← get) path with
      | none => return .error .notFound
      | some file => return .ok file.bytes

/-- Open a path for writing, which empties the file or makes a new one, and write `bytes`. -/
def put (disk : Disk) (path : Path) (createMode : Nat) (bytes : List UInt8) : Disk :=
  let mode := ((disk path).map File.mode).getD createMode
  Function.update disk path (some { bytes := bytes, mode := mode })

/-- `fs::write`. -/
def write (outcome : WriteOutcome) (createMode : Nat) (path : Path) (contents : List UInt8) :
    FileM Unit :=
  match outcome with
  | .done => modify fun disk => put disk path createMode contents
  | .notOpened stop => throw stop
  | .stopsAfter written stop => do
      modify fun disk => put disk path createMode (contents.take written)
      throw stop

/-- `fs::write` to a directory, which is never opened. -/
def writeDir : WriteOutcome → FileM Unit
  | .done => throw (.error (.os "Is a directory (os error 21)"))
  | .notOpened stop => throw stop
  | .stopsAfter _ stop => throw stop

/-- `fs::set_permissions`. -/
def setPermissions (outcome : Outcome) (path : Path) (mode : Nat) : FileM Unit := do
  call outcome
  modify fun disk =>
    Function.update disk path ((disk path).map fun file => { file with mode := mode })

/-- `.ok()` on a result nobody looks at. -/
def ignoreError (m : FileM Unit) : FileM Unit :=
  tryCatch m fun stop =>
    match stop with
    | .error _ => pure ()
    | .died => throw .died

end FileM

/-! ## `ServerIdentity` -/

/-- Owns the server's long-term signing key. -/
structure ServerIdentity (P : Primitives) where
  auth : ServerAuthenticator P

namespace ServerIdentity

variable (K : SeededKeys P)

def generate (rand : K.Rand) : ServerIdentity P := { auth := ServerAuthenticator.generate K rand }

/-- The bytes a client pins. -/
def verifyingKeyBytes (identity : ServerIdentity P) : List UInt8 :=
  identity.auth.verifyingKey.toList

def sign (identity : ServerIdentity P) (message : List UInt8) : List UInt8 :=
  (identity.auth.sign message).toList

def save (identity : ServerIdentity P) (calls : Calls) (path : Path) : FileM Unit := do
  if path.dir ≠ "" then
    FileM.call calls.createDirAll
  FileM.write calls.write calls.createMode path (identity.auth.toSeedBytes K).toList
  FileM.setPermissions calls.setPermissions path 0o600

/-- Load the identity seed from `path`; if absent, generate a new one and persist it. -/
def loadOrCreate (calls : Calls) (rand : K.Rand) (path : Path) : FileM (ServerIdentity P) := do
  match ← FileM.read calls.read path with
  | .ok bytes =>
      match Bytes.tryFrom seedLen bytes with
      | none => throw (.error (.invalidData "identity seed must be 32 bytes"))
      | some seed => return { auth := ServerAuthenticator.fromSeedBytes K seed }
  | .error .notFound =>
      let id := generate K rand
      id.save K calls path
      return id
  | .error (.other e) => throw (.error e)

end ServerIdentity

/-- What one start of the process meets: how its system calls end, and what it draws. -/
structure Start (K : SeededKeys P) where
  calls : Calls
  rand : K.Rand

/-- Write the public half. -/
def publish (calls : Calls) (path : Path) (vkHex : List UInt8) : FileM Unit :=
  match path.pub with
  | some pub => FileM.write calls.writePub calls.createMode pub vkHex
  | none => FileM.writeDir calls.writePub

section Start

variable (K : SeededKeys P) (hexEncode : List UInt8 → String) (path : Path)

/-- The part of `main` that finds the identity and publishes its public half. -/
def openIdentity (s : Start K) : FileM (ServerIdentity P) := do
  let identity ← ServerIdentity.loadOrCreate K s.calls s.rand path
  let vkHex := asBytes (hexEncode identity.verifyingKeyBytes)
  FileM.ignoreError (publish s.calls path vkHex)
  return identity

/-- One start on a disk: the identity it goes on to serve, if any, and the disk it leaves. -/
def start (disk : Disk) (s : Start K) : Except Stop (ServerIdentity P) × Disk :=
  openIdentity K hexEncode path s disk

end Start

/-! ## What a start comes to -/

def Outcome.result : Outcome → Except Stop Unit
  | .done => .ok ()
  | .stops stop => .error stop

def WriteOutcome.result : WriteOutcome → Except Stop Unit
  | .done => .ok ()
  | .notOpened stop => .error stop
  | .stopsAfter _ stop => .error stop

/-- The part of `contents` that reaches a file, if the file is opened. -/
def WriteOutcome.written (contents : List UInt8) : WriteOutcome → Option (List UInt8)
  | .done => some contents
  | .notOpened _ => none
  | .stopsAfter n _ => some (contents.take n)

namespace Calls

/-- Whether the directory of `path` is there when the seed is to be written. -/
def madeDir (calls : Calls) (path : Path) : Except Stop Unit :=
  if path.dir ≠ "" then calls.createDirAll.result else .ok ()

/-- Whether `save` succeeds. -/
def saved (calls : Calls) (path : Path) : Except Stop Unit := do
  calls.madeDir path
  calls.write.result
  calls.setPermissions.result

end Calls

namespace Start

variable {K : SeededKeys P}

end Start

variable {K : SeededKeys P} {hexEncode : List UInt8 → String}

section Steps

open FileM

end Steps

end Server
end PqcVpn
