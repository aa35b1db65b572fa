import PqcVpn.Basic.Ipv4Text
import PqcVpn.Registry.Model

/-!
# Persist — the registry's backing file

`persist`, `load` and the record conversions of `registry.rs`.  The base64, hex and JSON codecs are
third-party and enter as `TextCodecs`; `TextCodecs.RoundTrip` is what the code relies on.
-/

namespace PqcVpn
namespace Registry

open Wire

structure PeerRecord where
  wgPubkeyB64 : String
  assignedIp : String
  sessionIdHex : String
  algo : String
  createdEpoch : Nat
  lastActivityEpoch : Nat
  rekeys : Nat
  deriving DecidableEq

structure RegistryFile where
  schemaVersion : Nat
  peers : List PeerRecord
  deriving DecidableEq

/-- The text formats the records are written in: `base64` (standard alphabet), `hex` and
`serde_json`. -/
structure TextCodecs where
  b64Encode : List UInt8 → String
  b64Decode : String → Except String (List UInt8)
  hexEncode : List UInt8 → String
  hexDecode : String → Except String (List UInt8)
  toVecPretty : RegistryFile → Except IoError (List UInt8)
  fromSlice : List UInt8 → Except String RegistryFile

/-- What was encoded decodes to itself. -/
structure TextCodecs.RoundTrip (c : TextCodecs) : Prop where
  b64 : ∀ v, c.b64Decode (c.b64Encode v) = .ok v
  hex : ∀ v, c.hexDecode (c.hexEncode v) = .ok v
  json : ∀ file, ∃ bytes, c.toVecPretty file = .ok bytes ∧ c.fromSlice bytes = .ok file

variable (c : TextCodecs)

/-! ## Records -/

/-- Whole seconds since the epoch; a time before it counts as zero. -/
def epoch (t : SystemTime) : Nat :=
  ((t.durationSince .unixEpoch).map Duration.asSecs).getD 0

/-- `UNIX_EPOCH + Duration::from_secs(secs)`, where `none` is the panic on overflow. -/
def fromEpoch (secs : Nat) : Option SystemTime :=
  SystemTime.unixEpoch.checkedAdd (Duration.fromSecs secs)

/-- `Option::ok_or`. -/
def okOr {α ε : Type} (o : Option α) (e : ε) : Except ε α :=
  match o with
  | some a => .ok a
  | none => .error e

namespace PeerRecord

def fromPeer (p : Peer) : PeerRecord :=
  { wgPubkeyB64 := c.b64Encode p.wgPubkey.toList
    assignedIp := p.assignedIp.toText
    sessionIdHex := c.hexEncode p.sessionId.toList
    algo := p.algo.name
    createdEpoch := epoch p.created
    lastActivityEpoch := epoch p.lastActivity
    rekeys := p.rekeys }

/-- The fields that can be malformed, in the order they are checked. -/
def parseFields (rec : PeerRecord) :
    Except String (Bytes 32 × Bytes 16 × Ipv4Addr × AlgoCode) := do
  let wgPubkey ← c.b64Decode rec.wgPubkeyB64
  let wgPubkey ← okOr (Bytes.tryFrom 32 wgPubkey) "wg_pubkey not 32 bytes"
  let sessionId ← c.hexDecode rec.sessionIdHex
  let sessionId ← okOr (Bytes.tryFrom 16 sessionId) "session_id not 16 bytes"
  let assignedIp ← okOr (Ipv4Addr.parse rec.assignedIp) "bad ip"
  let algo ← okOr (AlgoCode.fromName rec.algo) ("bad algo " ++ rec.algo)
  return (wgPubkey, sessionId, assignedIp, algo)

/-- The outer `none` is a panic in the clock arithmetic. -/
def intoPeer (rec : PeerRecord) : Option (Except String Peer) :=
  match rec.parseFields c with
  | .error e => some (.error e)
  | .ok (wgPubkey, sessionId, assignedIp, algo) => do
      let created ← fromEpoch rec.createdEpoch
      let lastActivity ← fromEpoch rec.lastActivityEpoch
      return .ok
        { wgPubkey := wgPubkey
          assignedIp := assignedIp
          sessionId := sessionId
          algo := algo
          created := created
          lastActivity := lastActivity
          rekeys := rec.rekeys }

end PeerRecord

/-! ## Writing -/

/-- An order in which the map's values are visited. -/
abbrev Iteration (r : Registry) : Type :=
  {order : List Peer // (order : Multiset Peer) = Table.values r.inner}

/-- The file `persist` writes when it visits the peers in this order. -/
def toFile (r : Registry) (order : r.Iteration) : RegistryFile :=
  { schemaVersion := 1
    peers := order.val.map (PeerRecord.fromPeer c) }

/-- What the operating system answers to the two file operations of one `persist`. -/
structure PersistIo where
  writeTmp : Except IoError Unit
  rename : Except IoError Unit

/-- Atomic write to the backing file, whose content is `onDisk`.  A no-op for an in-memory registry;
the file changes only when the rename succeeds. -/
def persist (r : Registry) (order : r.Iteration) (os : PersistIo)
    (onDisk : Option (List UInt8)) : Except IoError Unit × Option (List UInt8) :=
  match r.path with
  | none => (.ok (), onDisk)
  | some _ =>
      match c.toVecPretty (r.toFile c order) with
      | .error e => (.error e, onDisk)
      | .ok json =>
          match os.writeTmp with
          | .error e => (.error e, onDisk)
          | .ok () =>
              match os.rename with
              | .error e => (.error e, onDisk)
              | .ok () => (.ok (), some json)

/-! ## Loading -/

/-- The outcome of `std::fs::read`. -/
inductive FileRead
  | bytes (content : List UInt8)
  | notFound
  | failed (e : IoError)

/-- What reading the backing file gives when the operating system lets it. -/
def FileRead.ofDisk : Option (List UInt8) → FileRead
  | some content => .bytes content
  | none => .notFound

/-- One turn of the loop over the file's records: a bad record is skipped. -/
def loadRecord (map : Table (Bytes 32) Peer) (rec : PeerRecord) :
    Option (Table (Bytes 32) Peer) :=
  match rec.intoPeer c with
  | none => none
  | some (.error _) => some map
  | some (.ok p) => some (map.insert p.wgPubkey p)

/-- Load from `path` if it exists, else start empty.  The outer `none` is a panic. -/
def load (path : String) (file : FileRead) (subnetBase : Bytes 4) (maxPeers : Nat) :
    Option (Except IoError Registry) :=
  let withPeers (map : Table (Bytes 32) Peer) : Registry :=
    { path := some path
      subnetBase := subnetBase
      maxPeers := min maxPeers poolSize
      inner := map }
  match file with
  | .bytes content =>
      match c.fromSlice content with
      | .error e => some (.error (.invalidData e))
      | .ok file => (file.peers.foldlM (loadRecord c) ∅).map fun map => .ok (withPeers map)
  | .notFound => some (.ok (withPeers ∅))
  | .failed e => some (.error e)

/-! ## What a restart keeps -/

theorem epoch_lt (t : SystemTime) : epoch t < 2 ^ 63 := by
  have hupper := t.upper
  unfold epoch SystemTime.durationSince
  split
  · simp only [SystemTime.unixEpoch, Duration.asSecs, Option.map_some, Option.getD_some]
    omega
  · simp

/-- A clock reading as the file keeps it: whole seconds, not before the epoch. -/
def truncated (t : SystemTime) : SystemTime where
  nanos := epoch t * 1000000000
  lower := by omega
  upper := by have := epoch_lt t; omega

/-- The peer that comes back from its own record. -/
def Peer.restored (p : Peer) : Peer :=
  { p with created := truncated p.created, lastActivity := truncated p.lastActivity }

@[simp] theorem Peer.restored_wgPubkey (p : Peer) : p.restored.wgPubkey = p.wgPubkey := rfl

@[simp] theorem Peer.restored_assignedIp (p : Peer) : p.restored.assignedIp = p.assignedIp := rfl

/-- Reading back a time that was written never overflows. -/
theorem fromEpoch_epoch (t : SystemTime) : fromEpoch (epoch t) = some (truncated t) := by
  have hlt : SystemTime.unixEpoch.nanos + (Duration.fromSecs (epoch t) : Int) <
      2 ^ 63 * 1000000000 := by
    have := epoch_lt t
    simp only [SystemTime.unixEpoch, Duration.fromSecs]
    omega
  unfold fromEpoch SystemTime.checkedAdd
  rw [dif_pos hlt]
  refine congrArg some (SystemTime.ext ?_)
  simp [SystemTime.unixEpoch, Duration.fromSecs, truncated]

variable {c}

theorem parseFields_fromPeer (hc : c.RoundTrip) (p : Peer) :
    (PeerRecord.fromPeer c p).parseFields c =
      .ok (p.wgPubkey, p.sessionId, p.assignedIp, p.algo) := by
  simp only [PeerRecord.parseFields, PeerRecord.fromPeer, hc.b64, hc.hex, Bytes.tryFrom_toList,
    Ipv4Addr.parse_toText, AlgoCode.fromName_name, okOr, bind, Except.bind, pure, Except.pure]

theorem intoPeer_fromPeer (hc : c.RoundTrip) (p : Peer) :
    (PeerRecord.fromPeer c p).intoPeer c = some (.ok p.restored) := by
  simp only [PeerRecord.intoPeer, parseFields_fromPeer hc]
  simp only [PeerRecord.fromPeer, fromEpoch_epoch]
  rfl

theorem foldlM_loadRecord (hc : c.RoundTrip) (order : List Peer) (map : Table (Bytes 32) Peer) :
    (order.map (PeerRecord.fromPeer c)).foldlM (loadRecord c) map =
      some (Table.insertAll map (order.map fun p => (p.wgPubkey, p.restored))) := by
  induction order generalizing map with
  | nil => rfl
  | cons p rest ih =>
      have hload : loadRecord c map (PeerRecord.fromPeer c p) =
          some (map.insert p.wgPubkey p.restored) := by
        simp only [loadRecord, intoPeer_fromPeer hc, Peer.restored_wgPubkey]
      simp only [List.map_cons, List.foldlM_cons, hload, Option.bind_eq_bind, Option.bind_some, ih,
        Table.insertAll_cons]

/-- Every peer is stored under its own key. -/
def Keyed (r : Registry) : Prop := ∀ k p, r.inner.lookup k = some p → p.wgPubkey = k

/-- Loading the file `persist` wrote brings back every peer, with its times cut to seconds. -/
theorem load_toFile (hc : c.RoundTrip) {r : Registry} (hkeyed : r.Keyed) (order : r.Iteration)
    {content : List UInt8} (hwrite : c.toVecPretty (r.toFile c order) = .ok content)
    (path : String) (subnetBase : Bytes 4) (maxPeers : Nat) :
    ∃ r', load c path (.bytes content) subnetBase maxPeers = some (.ok r') ∧
      r'.path = some path ∧ r'.subnetBase = subnetBase ∧ r'.maxPeers = min maxPeers poolSize ∧
      ∀ k, r'.inner.lookup k = (r.inner.lookup k).map Peer.restored := by
  -- the parser reads back the file, and each of its records in turn
  have hread : c.fromSlice content = .ok (r.toFile c order) := by
    rcases hc.json (r.toFile c order) with ⟨bytes, hbytes, hslice⟩
    rw [hwrite] at hbytes
    rw [Except.ok.inj hbytes, hslice]
  have hfold := foldlM_loadRecord hc order.val ∅
  refine ⟨_, by simp only [load, hread, toFile, hfold, Option.map_some]; rfl, rfl, rfl, rfl, ?_⟩
  intro k
  -- every record of the file is some peer's, and `hkeyed` says which
  have hmem : ∀ p, p ∈ order.val ↔ ∃ j, r.inner.lookup j = some p := by
    intro p
    rw [← Multiset.mem_coe, order.property, Table.mem_values_iff]
  cases hk : r.inner.lookup k with
  | none =>
      rw [Table.lookup_insertAll_of_notMem]
      · simp
      · intro v hv
        rcases List.mem_map.1 hv with ⟨p, hp, hpv⟩
        rcases (hmem p).1 hp with ⟨j, hj⟩
        have hjk : j = k := (hkeyed j p hj).symm.trans (congrArg Prod.fst hpv)
        rw [hjk, hk] at hj
        cases hj
  | some p =>
      have hpk := hkeyed k p hk
      rw [Table.lookup_insertAll_of_mem (v := p.restored)]
      · rfl
      · exact List.mem_map.2 ⟨p, (hmem p).2 ⟨k, hk⟩, by rw [hpk]⟩
      · intro w hw
        rcases List.mem_map.1 hw with ⟨q, hq, hqw⟩
        rcases (hmem q).1 hq with ⟨j, hj⟩
        have hjk : j = k := (hkeyed j q hj).symm.trans (congrArg Prod.fst hqw)
        rw [hjk, hk] at hj
        rw [Option.some.inj hj]
        exact (congrArg Prod.snd hqw).symm

/-! ## What a persist writes -/

/-- A `persist` that succeeds leaves the file of the registry's current map. -/
theorem persist_eq_ok {r : Registry} {path : String} (hpath : r.path = some path)
    {order : r.Iteration} {os : PersistIo} {onDisk onDisk' : Option (List UInt8)}
    (h : r.persist c order os onDisk = (.ok (), onDisk')) :
    ∃ content, onDisk' = some content ∧ c.toVecPretty (r.toFile c order) = .ok content := by
  unfold persist at h
  rw [hpath] at h
  cases hjson : c.toVecPretty (r.toFile c order) with
  | error e => simp [hjson] at h
  | ok json =>
      cases hwrite : os.writeTmp with
      | error e => simp [hjson, hwrite] at h
      | ok _ =>
          cases hrename : os.rename with
          | error e => simp [hjson, hwrite, hrename] at h
          | ok _ =>
              simp only [hjson, hwrite, hrename, Prod.mk.injEq, true_and] at h
              exact ⟨json, h.symm, rfl⟩

/-! ## What a load returns -/

/-- What a successful `load` sets from its arguments. -/
theorem load_ok {path : String} {file : FileRead} {subnetBase : Bytes 4}
    {maxPeers : Nat} {r : Registry} (h : load c path file subnetBase maxPeers = some (.ok r)) :
    r.path = some path ∧ r.subnetBase = subnetBase ∧ r.maxPeers = min maxPeers poolSize := by
  unfold load at h
  cases file with
  | bytes content =>
      cases hslice : c.fromSlice content with
      | error e => simp [hslice] at h
      | ok parsed =>
          simp only [hslice, Option.map_eq_some_iff, Except.ok.injEq] at h
          rcases h with ⟨map, _, rfl⟩
          exact ⟨rfl, rfl, rfl⟩
  | notFound =>
      cases h
      exact ⟨rfl, rfl, rfl⟩
  | failed e => simp at h

theorem keyed_loadRecord {map map' : Table (Bytes 32) Peer} {rec : PeerRecord}
    (h : ∀ k p, map.lookup k = some p → p.wgPubkey = k) (hload : loadRecord c map rec = some map') :
    ∀ k p, map'.lookup k = some p → p.wgPubkey = k := by
  unfold loadRecord at hload
  -- a record that converts is stored under its own key, any other changes nothing
  cases hrec : rec.intoPeer c with
  | none => simp [hrec] at hload
  | some result =>
      cases result with
      | error e =>
          simp only [hrec, Option.some.injEq] at hload
          exact hload ▸ h
      | ok q =>
          simp only [hrec, Option.some.injEq] at hload
          intro k p hk
          rw [← hload, Table.lookup_insert_eq] at hk
          split at hk
          · rename_i hkq
            cases hk
            exact hkq.symm
          · exact h k p hk

theorem keyed_foldlM_loadRecord {peers : List PeerRecord} {map map' : Table (Bytes 32) Peer}
    (h : ∀ k p, map.lookup k = some p → p.wgPubkey = k)
    (hload : peers.foldlM (loadRecord c) map = some map') :
    ∀ k p, map'.lookup k = some p → p.wgPubkey = k := by
  induction peers generalizing map with
  | nil =>
      cases hload
      exact h
  | cons rec rest ih =>
      rw [List.foldlM_cons] at hload
      rcases Option.bind_eq_some_iff.1 hload with ⟨map₁, hrec, hrest⟩
      exact ih (keyed_loadRecord h hrec) hrest

/-- Whatever the file holds, `load` stores every peer under its own key. -/
theorem keyed_of_load {path : String} {file : FileRead} {subnetBase : Bytes 4} {maxPeers : Nat}
    {r : Registry} (h : load c path file subnetBase maxPeers = some (.ok r)) : r.Keyed := by
  have hempty : ∀ k p, (∅ : Table (Bytes 32) Peer).lookup k = some p → p.wgPubkey = k := by
    intro k p hk
    simp at hk
  unfold load at h
  cases file with
  | bytes content =>
      cases hslice : c.fromSlice content with
      | error e => simp [hslice] at h
      | ok parsed =>
          simp only [hslice, Option.map_eq_some_iff, Except.ok.injEq] at h
          rcases h with ⟨map, hmap, rfl⟩
          exact keyed_foldlM_loadRecord hempty hmap
  | notFound =>
      cases h
      exact hempty
  | failed e => simp at h

end Registry
end PqcVpn
