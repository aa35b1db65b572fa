import PqcVpn.Lib.Base64
import PqcVpn.Lib.Collect
import PqcVpn.Server.Sweep
import PqcVpn.Server.Text
import PqcVpn.Wire.Utf8

/-!
# WgText — the texts exchanged with `wg`

`WgCli` of `server/handshake-server/src/tunnel.rs` runs the `wg` command: it writes its arguments
and reads its output.  Neither `wg` nor the `base64` crate is part of the repository: both are
parameters, with what they document as hypotheses.
-/

namespace PqcVpn
namespace Server

open Registry Wire

/-! ## Keys -/

/-- `base64::engine::general_purpose::STANDARD`. -/
structure Base64Engine where
  encode : List UInt8 → String
  decode : String → Option (List UInt8)

/-- The engine writes the standard alphabet with padding, and takes canonical encodings only. -/
structure Base64Engine.Standard (engine : Base64Engine) : Prop where
  decode_encode : ∀ bytes, engine.decode (engine.encode bytes) = some bytes
  canonical : ∀ s bytes, engine.decode s = some bytes → engine.encode bytes = s
  alphabet : ∀ bytes, ∀ c ∈ (engine.encode bytes).toList, c ∈ '=' :: Base64.alphabet
  encode_nil : engine.encode [] = ""

section Keys

variable (engine : Base64Engine)

def b64 (bytes : Bytes 32) : String := engine.encode bytes.toList

/-- Decode a 32-byte WireGuard key from base64. -/
def wgKeyFromBase64 (s : String) : Option (Bytes 32) := do
  let v ← engine.decode (trim s)
  Bytes.tryFrom 32 v

end Keys

/-! ## `WgCli` -/

structure WgCli where
  interface : String

namespace WgCli

variable (engine : Base64Engine)

/-- `wg show <iface> public-key`; `out` is what `run` returns. -/
def queryPubkey (out : Except InstallError (List UInt8)) : Except InstallError (Bytes 32) := do
  let out ← out
  (wgKeyFromBase64 engine (trim (fromUtf8Lossy out))).elim (.error (.parse "public key")) .ok

def installArgv (cli : WgCli) (peer : Bytes 32) (assignedIp : Ipv4Addr) : List String :=
  ["set", cli.interface, "peer", b64 engine peer, "preshared-key", "/dev/stdin", "allowed-ips",
    assignedIp.toText ++ "/32"]

/-- What `install` writes to the standard input of `wg`. -/
def installStdin (psk : Bytes 32) : List UInt8 := asBytes (b64 engine psk ++ "\n")

def removeArgv (cli : WgCli) (peer : Bytes 32) : List String :=
  ["set", cli.interface, "peer", b64 engine peer, "remove"]

/-- The key on a line of `wg show <iface> peers`; `debug` is the format `{:?}` of a string. -/
def peerKey (debug : String → String) (l : String) : Except InstallError (Bytes 32) :=
  (wgKeyFromBase64 engine (trim l)).elim (.error (.parse ("peer key " ++ debug l))) .ok

def listInstalledPeers (debug : String → String) (out : Except InstallError (List UInt8)) :
    Except InstallError (List (Bytes 32)) := do
  let out ← out
  ((lines (fromUtf8Lossy out)).filter fun l => trim l ≠ "").mapM (peerKey engine debug)

/-- A line of `wg show <iface> latest-handshakes`, if both columns parse. -/
def handshakeLine (line : String) : Option (Bytes 32 × Nat) :=
  match splitWhitespace line with
  | pk :: ts :: _ => do
      let pk ← wgKeyFromBase64 engine pk
      let ts ← parseUnsigned (2 ^ 64) ts
      return (pk, ts)
  | _ => none

/-- One line of the loop; `none` is the panic of a time out of range. -/
def handshakeStep (map : Handshakes) (line : String) : Option Handshakes :=
  match handshakeLine engine line with
  | none => some map
  | some (pk, ts) =>
      if ts > 0 then
        (SystemTime.unixEpoch.checkedAdd (Duration.fromSecs ts)).map (map.insert pk)
      else
        some map

def lastHandshakes (out : Except InstallError (List UInt8)) :
    Option (Except InstallError Handshakes) :=
  match out with
  | .error e => some (.error e)
  | .ok out => ((lines (fromUtf8Lossy out)).foldlM (handshakeStep engine) ∅).map .ok

end WgCli

/-! ## `wg` -/

/-- What `wg` prints: `wg show <iface> peers` of the keys of its peers, and
`wg show <iface> latest-handshakes` of their keys and the seconds of their last handshakes. -/
structure Wg where
  showPeers : List (Bytes 32) → List UInt8
  showLatestHandshakes : List (Bytes 32 × Nat) → List UInt8

/-- The formats `wg` documents: a line for each peer, with its key in base64; and after it, for the
handshakes, a tab and whole seconds since the epoch, zero for a peer without a handshake. -/
structure Wg.Documented (wg : Wg) (engine : Base64Engine) : Prop where
  showPeers : ∀ keys, wg.showPeers keys =
    asBytes (String.ofList (keys.flatMap fun k => (b64 engine k).toList ++ ['\n']))
  showLatestHandshakes : ∀ peers, wg.showLatestHandshakes peers =
    asBytes (String.ofList (peers.flatMap fun p =>
      (b64 engine p.1).toList ++ '\t' :: (Nat.toDigits 10 p.2 ++ ['\n'])))

/-! ## Keys read back -/

section Keys

variable {engine : Base64Engine} (he : engine.Standard)

include he

theorem isWhitespace_of_mem_b64 {k : Bytes 32} {c : Char} (h : c ∈ (b64 engine k).toList) :
    isWhitespace c = false := by
  have hall : ('=' :: Base64.alphabet).all (fun c => !isWhitespace c) = true := by decide
  exact Bool.not_eq_true' _ ▸ List.all_eq_true.1 hall c (he.alphabet _ c h)

theorem trim_b64 (k : Bytes 32) : trim (b64 engine k) = b64 engine k :=
  trim_of_forall fun _ => isWhitespace_of_mem_b64 he

/-- A text is the key it is the base64 of, white space aside. -/
theorem wgKeyFromBase64_eq_some_iff {s : String} {k : Bytes 32} :
    wgKeyFromBase64 engine s = some k ↔ trim s = b64 engine k := by
  unfold wgKeyFromBase64 b64
  simp only [Option.bind_eq_bind, Option.bind_eq_some_iff, Bytes.tryFrom_eq_some_iff]
  constructor
  · rintro ⟨v, hv, rfl⟩
    exact (he.canonical _ _ hv).symm
  · intro h
    refine ⟨k.toList, ?_, rfl⟩
    rw [h, he.decode_encode]

theorem wgKeyFromBase64_b64 (k : Bytes 32) : wgKeyFromBase64 engine (b64 engine k) = some k :=
  (wgKeyFromBase64_eq_some_iff he).2 (trim_b64 he k)

theorem b64_inj {k k' : Bytes 32} : b64 engine k = b64 engine k' ↔ k = k' := by
  constructor
  · intro h
    have hk := wgKeyFromBase64_b64 he k
    rw [h, wgKeyFromBase64_b64 he] at hk
    exact (Option.some.inj hk).symm
  · rintro rfl
    rfl

theorem not_mem_b64 {c : Char} (h : isWhitespace c = true) (k : Bytes 32) :
    c ∉ (b64 engine k).toList := by
  intro hmem
  rw [isWhitespace_of_mem_b64 he hmem] at h
  cases h

theorem b64_ne_empty (k : Bytes 32) : b64 engine k ≠ "" := by
  intro h
  have hdecode := he.decode_encode k.toList
  rw [← b64, h, ← he.encode_nil, he.decode_encode] at hdecode
  have hlen := congrArg List.length (Option.some.inj hdecode)
  rw [k.toList_length] at hlen
  cases hlen

end Keys

/-! ## An engine and a `wg` to run with -/

/-- The encoding of RFC 4648. -/
def Base64Engine.rfc4648 : Base64Engine where
  encode bytes := String.ofList (Base64.encode bytes)
  decode s := Base64.decode s.toList

theorem Base64Engine.rfc4648_standard : rfc4648.Standard where
  decode_encode bytes := by
    change Base64.decode (String.ofList (Base64.encode bytes)).toList = some bytes
    rw [String.toList_ofList, Base64.decode_eq_some_iff]
  canonical s bytes h := by
    have hencode : s.toList = Base64.encode bytes := Base64.decode_eq_some_iff.1 h
    change String.ofList (Base64.encode bytes) = s
    rw [← hencode, String.ofList_toList]
  alphabet bytes c hc := by
    have hchar : c ∈ Base64.encode bytes := by
      rwa [← String.toList_ofList (l := Base64.encode bytes)]
    exact Base64.mem_encode hchar
  encode_nil := rfl

/-- A `wg` that prints the lines it documents. -/
def Wg.plain : Wg where
  showPeers keys := asBytes (String.ofList (keys.flatMap fun k =>
    (b64 .rfc4648 k).toList ++ ['\n']))
  showLatestHandshakes peers := asBytes (String.ofList (peers.flatMap fun p =>
    (b64 .rfc4648 p.1).toList ++ '\t' :: (Nat.toDigits 10 p.2 ++ ['\n'])))

theorem Wg.plain_documented : plain.Documented .rfc4648 := ⟨fun _ => rfl, fun _ => rfl⟩

/-- The key of 32 equal bytes. -/
def keyOf (b : UInt8) : Bytes 32 := List.Vector.replicate 32 b

/-! ## The list of peers -/

namespace WgCli

/-- The lines of an output that have a text on them. -/
def entryLines (out : List UInt8) : List String :=
  (lines (fromUtf8Lossy out)).filter fun l => trim l ≠ ""

section Peers

variable {engine : Base64Engine} (he : engine.Standard)

include he

theorem peerKey_ok_iff {debug : String → String} {l : String} {k : Bytes 32} :
    peerKey engine debug l = .ok k ↔ trim l = b64 engine k := by
  rw [← trim_trim, ← wgKeyFromBase64_eq_some_iff he, peerKey]
  cases wgKeyFromBase64 engine (trim l) <;> simp

theorem peerKey_error_iff {debug : String → String} {l : String} {e : InstallError} :
    peerKey engine debug l = .error e ↔
      (∀ k, trim l ≠ b64 engine k) ∧ e = .parse ("peer key " ++ debug l) := by
  cases hkey : wgKeyFromBase64 engine (trim l) with
  | some k =>
      have htrim := (wgKeyFromBase64_eq_some_iff he).1 hkey
      rw [trim_trim] at htrim
      rw [peerKey, hkey]
      constructor
      · intro h
        cases h
      · rintro ⟨hno, _⟩
        exact absurd htrim (hno k)
  | none =>
      rw [peerKey, hkey]
      constructor
      · intro h
        cases h
        refine ⟨fun k htrim => ?_, rfl⟩
        rw [← trim_trim, ← wgKeyFromBase64_eq_some_iff he, hkey] at htrim
        cases htrim
      · rintro ⟨_, rfl⟩
        rfl

theorem queryPubkey_ok_iff {out : List UInt8} {k : Bytes 32} :
    queryPubkey engine (.ok out) = .ok k ↔ trim (fromUtf8Lossy out) = b64 engine k := by
  have hquery : queryPubkey engine (.ok out) = (wgKeyFromBase64 engine
      (trim (fromUtf8Lossy out))).elim (.error (.parse "public key")) .ok := by
    simp only [queryPubkey, bind, Except.bind]
  have hkey : wgKeyFromBase64 engine (trim (fromUtf8Lossy out)) = some k ↔
      trim (fromUtf8Lossy out) = b64 engine k := by
    rw [wgKeyFromBase64_eq_some_iff he, trim_trim]
  rw [hquery, ← hkey]
  generalize wgKeyFromBase64 engine (trim (fromUtf8Lossy out)) = key
  cases key <;> simp

theorem entryLines_showPeers {wg : Wg} (hwg : wg.Documented engine) (keys : List (Bytes 32)) :
    entryLines (wg.showPeers keys) = keys.map (b64 engine) := by
  have hlines := lines_flatMap (fun k : Bytes 32 => (b64 engine k).toList)
    (fun k => ⟨not_mem_b64 he (by decide) k, not_mem_b64 he (by decide) k⟩) keys
  have htext : (fun k : Bytes 32 => String.ofList (b64 engine k).toList) = b64 engine :=
    funext fun k => String.ofList_toList
  unfold entryLines
  rw [hwg.showPeers, fromUtf8Lossy_asBytes, hlines, htext, List.filter_eq_self]
  intro l hl
  rcases List.mem_map.1 hl with ⟨k, _, rfl⟩
  rw [trim_b64 he]
  exact decide_eq_true (b64_ne_empty he k)

theorem wgKeyFromBase64_installStdin (psk : Bytes 32) :
    wgKeyFromBase64 engine (fromUtf8Lossy (installStdin engine psk)) = some psk := by
  rw [installStdin, fromUtf8Lossy_asBytes, wgKeyFromBase64_eq_some_iff he]
  exact trim_append (fun _ => isWhitespace_of_mem_b64 he) (List.forall_mem_singleton.2 rfl)

end Peers

theorem toText_inj {ip ip' : Ipv4Addr} : ip.toText = ip'.toText ↔ ip = ip' := by
  constructor
  · intro h
    have hparse := Ipv4Addr.parse_toText ip
    rw [h, Ipv4Addr.parse_toText] at hparse
    exact (Option.some.inj hparse).symm
  · rintro rfl
    rfl

/-- A command says which interface, which peer and which address it is about. -/
theorem commands_unambiguous {engine : Base64Engine} (he : engine.Standard) (cli cli' : WgCli)
    (peer peer' : Bytes 32) (ip ip' : Ipv4Addr) :
    (cli.installArgv engine peer ip = cli'.installArgv engine peer' ip' ↔
      cli.interface = cli'.interface ∧ peer = peer' ∧ ip = ip') ∧
    (cli.removeArgv engine peer = cli'.removeArgv engine peer' ↔
      cli.interface = cli'.interface ∧ peer = peer') ∧
    cli.installArgv engine peer ip ≠ cli'.removeArgv engine peer' := by
  refine ⟨?_, ?_, ?_⟩
  · simp [installArgv, b64_inj he, toText_inj]
  · simp [removeArgv, b64_inj he]
  · simp [installArgv, removeArgv]

/-- `list_installed_peers` reads one key from every line with a text on it, in order, and nothing
else; a single other line fails the whole list, with the first such line in the error.  What `wg`
prints of its peers is read back as it is.  `query_pubkey` takes a single key.  The commands that
are run for different peers, addresses or interfaces differ, and the pre-shared key is written as a
text that is read back as that key. -/
theorem installed_peers_exact {engine : Base64Engine} (he : engine.Standard) {wg : Wg}
    (hwg : wg.Documented engine) (debug : String → String) (out : List UInt8) :
    (∀ keys, listInstalledPeers engine debug (.ok out) = .ok keys ↔
      List.Forall₂ (fun l k => trim l = b64 engine k) (entryLines out) keys) ∧
    (∀ e, listInstalledPeers engine debug (.ok out) = .error e ↔
      ∃ before l after, entryLines out = before ++ l :: after ∧
        (∀ z ∈ before, ∃ k, trim z = b64 engine k) ∧ (∀ k, trim l ≠ b64 engine k) ∧
        e = .parse ("peer key " ++ debug l)) ∧
    (∀ keys, listInstalledPeers engine debug (.ok (wg.showPeers keys)) = .ok keys) ∧
    (∀ k, queryPubkey engine (.ok out) = .ok k ↔ trim (fromUtf8Lossy out) = b64 engine k) ∧
    (∀ psk, wgKeyFromBase64 engine (fromUtf8Lossy (installStdin engine psk)) = some psk) ∧
    ∀ (cli cli' : WgCli) (peer peer' : Bytes 32) (ip ip' : Ipv4Addr),
      (cli.installArgv engine peer ip = cli'.installArgv engine peer' ip' ↔
        cli.interface = cli'.interface ∧ peer = peer' ∧ ip = ip') ∧
      (cli.removeArgv engine peer = cli'.removeArgv engine peer' ↔
        cli.interface = cli'.interface ∧ peer = peer') ∧
      cli.installArgv engine peer ip ≠ cli'.removeArgv engine peer' := by
  have hlist : ∀ out', listInstalledPeers engine debug (.ok out') =
      (entryLines out').mapM (peerKey engine debug) := fun _ => rfl
  refine ⟨?_, ?_, ?_, ?_, ?_, commands_unambiguous he⟩
  · intro keys
    rw [hlist, Collect.mapM_eq_ok_iff]
    simp only [peerKey_ok_iff he]
  · intro e
    rw [hlist, Collect.mapM_eq_error_iff]
    simp only [peerKey_ok_iff he, peerKey_error_iff he]
  · intro keys
    rw [hlist, entryLines_showPeers he hwg, Collect.mapM_eq_ok_iff, List.forall₂_map_left_iff,
      List.forall₂_same]
    intro k _
    exact (peerKey_ok_iff he).2 (trim_b64 he k)
  · intro k
    exact queryPubkey_ok_iff he
  · intro psk
    exact wgKeyFromBase64_installStdin he psk

/-- What `Debug` shows of a text with nothing to escape. -/
def quoted (s : String) : String := "\"" ++ s ++ "\""

/-- Two keys come back from what `wg` prints; a line that is no key is named in the error. -/
theorem installed_peers_of_plain :
    listInstalledPeers .rfc4648 quoted (.ok (Wg.plain.showPeers [keyOf 1, keyOf 2])) =
      .ok [keyOf 1, keyOf 2] ∧
    listInstalledPeers .rfc4648 quoted (.ok (asBytes (b64 .rfc4648 (keyOf 1) ++ "\n ? \n"))) =
      .error (.parse "peer key \" ? \"") := by
  have h := installed_peers_exact Base64Engine.rfc4648_standard Wg.plain_documented quoted
  refine ⟨(h []).2.2.1 _, ((h _).2.1 _).2 ⟨[b64 .rfc4648 (keyOf 1)], " ? ", [], ?_, ?_, ?_, rfl⟩⟩
  · decide +kernel
  · refine List.forall_mem_singleton.2 ⟨keyOf 1, trim_b64 Base64Engine.rfc4648_standard _⟩
  · intro k hk
    have htrim : trim " ? " = "?" := by decide
    have hmem : '?' ∈ (b64 .rfc4648 k).toList := by
      rw [← hk, htrim]
      decide
    exact absurd (Base64Engine.rfc4648_standard.alphabet _ _ hmem) (by decide)

/-! ## The latest handshakes -/

section Handshakes

variable (engine : Base64Engine)

end Handshakes

section Printed

variable {engine : Base64Engine} (he : engine.Standard)

include he

end Printed

end WgCli

end Server
end PqcVpn
