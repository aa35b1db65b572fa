import Mathlib.Logic.Encodable.Basic
import Mathlib.Logic.Equiv.List
import PqcVpn.Registry.History

/-!
# Reference — lawful stand-ins for the text codecs

A codec here is pinned to one real pair of value and text and spells every other value in unary, so
it round-trips and agrees with the real one on the pinned value.  `codecs` pins base64, hex and JSON
to the file of a registry with one peer.
-/

namespace PqcVpn
namespace Registry
namespace Reference

open Wire

variable {α β : Type} [Encodable α] [DecidableEq α] [DecidableEq β]

def encodePinned (a : α) (text : β) (spell : Nat → β) (x : α) : β :=
  if x = a then text else spell (Encodable.encode x)

def decodePinned (a : α) (text : β) (read : β → Nat) (y : β) : Except String α :=
  if y = text then
    .ok a
  else
    match Encodable.decode (read y) with
    | some x => .ok x
    | none => .error "unknown spelling"

theorem decodePinned_encodePinned {a : α} {text : β} {spell : Nat → β} {read : β → Nat}
    (hread : ∀ n, read (spell n) = n) (htext : ∀ n, spell n ≠ text) (x : α) :
    decodePinned a text read (encodePinned a text spell x) = .ok x := by
  by_cases hx : x = a
  · simp [encodePinned, decodePinned, hx]
  · simp [encodePinned, decodePinned, hx, htext, hread]

/-! ## Spelling values as numbers -/

instance : Encodable Char := .ofLeftInverse Char.toNat Char.ofNat Char.ofNat_toNat

instance : Encodable UInt8 := .ofLeftInverse UInt8.toNat UInt8.ofNat fun _ => UInt8.ofNat_toNat

instance : Encodable String := .ofLeftInverse String.toList String.ofList fun s => by simp

instance : Encodable PeerRecord :=
  .ofLeftInverse
    (fun r => (r.wgPubkeyB64, r.assignedIp, r.sessionIdHex, r.algo, r.createdEpoch,
      r.lastActivityEpoch, r.rekeys))
    (fun t => ⟨t.1, t.2.1, t.2.2.1, t.2.2.2.1, t.2.2.2.2.1, t.2.2.2.2.2.1, t.2.2.2.2.2.2⟩)
    fun _ => rfl

instance : Encodable RegistryFile :=
  .ofLeftInverse (fun f => (f.schemaVersion, f.peers)) (fun t => ⟨t.1, t.2⟩) fun _ => rfl

def unaryText (n : Nat) : String := String.ofList (List.replicate n '!')

def unaryBytes (n : Nat) : List UInt8 := List.replicate n 0xFF

/-- A text with a character other than the unary digit is nobody's spelling. -/
theorem unaryText_ne {s : String} {c : Char} (hc : c ∈ s.toList) (hne : c ≠ '!') (n : Nat) :
    unaryText n ≠ s := by
  rintro rfl
  rw [unaryText, String.toList_ofList] at hc
  exact hne (List.eq_of_mem_replicate hc)

theorem unaryBytes_ne {s : List UInt8} {b : UInt8} (hb : b ∈ s) (hne : b ≠ 0xFF) (n : Nat) :
    unaryBytes n ≠ s := by
  rintro rfl
  exact hne (List.eq_of_mem_replicate hb)

/-! ## The pinned file -/

def key : Bytes 32 := .replicate 32 1

def keyText : String := "AQEBAQEBAQEBAQEBAQEBAQEBAQEBAQEBAQEBAQEBAQE="

def session : Bytes 16 := .replicate 16 7

def sessionText : String := "07070707070707070707070707070707"

def file : RegistryFile :=
  { schemaVersion := 1
    peers :=
      [{ wgPubkeyB64 := keyText
         assignedIp := "10.8.0.2"
         sessionIdHex := sessionText
         algo := "ML-KEM-768"
         createdEpoch := 1700000000
         lastActivityEpoch := 1700000000
         rekeys := 0 }] }

def fileText : String :=
  "\x7b\n  \"schema_version\": 1,\n  \"peers\": [\n    \x7b\n" ++
  "      \"wg_pubkey_b64\": \"AQEBAQEBAQEBAQEBAQEBAQEBAQEBAQEBAQEBAQEBAQE=\",\n" ++
  "      \"assigned_ip\": \"10.8.0.2\",\n" ++
  "      \"session_id_hex\": \"07070707070707070707070707070707\",\n" ++
  "      \"algo\": \"ML-KEM-768\",\n" ++
  "      \"created_epoch\": 1700000000,\n" ++
  "      \"last_activity_epoch\": 1700000000,\n" ++
  "      \"rekeys\": 0\n    \x7d\n  ]\n\x7d"

theorem mem_toList_append_left {c : Char} {s t : String} (h : c ∈ s.toList) :
    c ∈ (s ++ t).toList := by
  rw [String.toList_append]
  exact List.mem_append_left _ h

/-- The file opens with a brace. -/
theorem mem_fileText : 0x7B ∈ asBytes fileText := by
  refine List.mem_flatMap.2 ⟨'\x7b', ?_, by decide⟩
  unfold fileText
  iterate 7 refine mem_toList_append_left ?_
  decide

def codecs : TextCodecs where
  b64Encode := encodePinned key.toList keyText unaryText
  b64Decode := decodePinned key.toList keyText String.length
  hexEncode := encodePinned session.toList sessionText unaryText
  hexDecode := decodePinned session.toList sessionText String.length
  toVecPretty := fun f => .ok (encodePinned file (asBytes fileText) unaryBytes f)
  fromSlice := decodePinned file (asBytes fileText) List.length

theorem codecs_roundTrip : codecs.RoundTrip where
  b64 := by
    have htext : ∀ n, unaryText n ≠ keyText :=
      unaryText_ne (c := 'A') (by decide) (by decide)
    exact decodePinned_encodePinned (by simp [unaryText]) htext
  hex := by
    have htext : ∀ n, unaryText n ≠ sessionText :=
      unaryText_ne (c := '0') (by decide) (by decide)
    exact decodePinned_encodePinned (by simp [unaryText]) htext
  json := by
    have htext : ∀ n, unaryBytes n ≠ asBytes fileText :=
      unaryBytes_ne mem_fileText (by decide)
    intro f
    exact ⟨_, rfl, decodePinned_encodePinned (by simp [unaryBytes]) htext f⟩

/-! ## A registry with one peer -/

/-- 1700000000 seconds after the epoch. -/
def now : SystemTime := ⟨1700000000000000000, by omega, by omega⟩

def empty : Registry := .new ⟨[10, 8, 0, 0], rfl⟩ 64

/-- The handshake of the one peer. -/
def op : Op := .upsertHandshake now key .mlKem768 session

def peer : Peer := .fresh now key .mlKem768 session (.new 10 8 0 2)

theorem exec_op : empty.exec op = (.slot (.ok peer.slot), empty.store key peer) := by
  have halloc : empty.allocIp = .ok (.new 10 8 0 2) := by decide
  have h := upsertHandshake_new (r := empty) now key .mlKem768 session rfl (by decide) halloc
  simp only [exec, op, h]
  rfl

def order : (empty.store key peer).Iteration := ⟨[peer], rfl⟩

/-- Some order of iteration. -/
noncomputable def anyOrder (r : Registry) : r.Iteration :=
  ⟨(Table.values r.inner).toList, Multiset.coe_toList _⟩

theorem toFile_order : (empty.store key peer).toFile codecs order = file := by
  decide

theorem keyed : (empty.store key peer).Keyed := by
  intro k p hk
  rw [inner_store, Table.lookup_insert_eq] at hk
  split at hk
  · rename_i hkey
    cases hk
    exact hkey.symm
  · simp [empty, Registry.new] at hk

/-- The registry with one peer, backed by a file. -/
def written : Registry := (empty.store key peer).withPath "peers.json"

theorem exec_op_withPath : ((empty.withPath "peers.json").exec op).2 = written := by
  have halloc : (empty.withPath "peers.json").allocIp = .ok (.new 10 8 0 2) := by decide
  have h := upsertHandshake_new (r := empty.withPath "peers.json") now key .mlKem768 session rfl
    (by decide) halloc
  simp only [exec, op, h]
  rfl

theorem persist_written :
    written.persist codecs order ⟨.ok (), .ok ()⟩ none = (.ok (), some (asBytes fileText)) := by
  have hjson : codecs.toVecPretty file = .ok (asBytes fileText) := by
    simp [codecs, encodePinned]
  have hfile : written.toFile codecs order = file := toFile_order
  simp only [persist, written, withPath] at hfile ⊢
  rw [hfile, hjson]

/-- A restart of the registry with one peer. -/
theorem restart_step : ∃ r, HistoryStep codecs (empty.store key peer) .restart r := by
  rcases load_toFile codecs_roundTrip keyed order (persist_ok persist_written) "peers.json"
    (empty.store key peer).subnetBase 64 with ⟨r, hload, _⟩
  exact ⟨r, .restart persist_written hload⟩

end Reference
end Registry
end PqcVpn
