import PqcVpn.Registry.Reference

/-!
# Overflow — where loaded values can panic

`into_peer` refuses a bad field and the record is skipped, but the two epochs are added to the clock
unchecked; and a rekey counts up a `u32`.  `checkedExec` is `exec` with that addition checked, as a
build with overflow checks runs it.
-/

namespace PqcVpn
namespace Registry

open Wire

variable (c : TextCodecs)

/-! ## What a file holds -/

/-- Every check of `into_peer` passes. -/
def PeerRecord.Convertible (rec : PeerRecord) : Prop := ∃ fields, rec.parseFields c = .ok fields

/-- The peer of a record, if it has one. -/
def PeerRecord.converted (rec : PeerRecord) : Option Peer :=
  match rec.intoPeer c with
  | some (.ok p) => some p
  | _ => none

/-- The peers of a file, in its order. -/
def RegistryFile.converted (file : RegistryFile) : List Peer :=
  file.peers.filterMap (PeerRecord.converted c)

/-- Exactly the file's peers are registered, the last one under each key. -/
def KeepsConvertible (file : RegistryFile) (r : Registry) : Prop :=
  ∀ k, r.inner.lookup k = (file.converted c).reverse.find? fun p => p.wgPubkey = k

/-- The clock can hold the epochs of the records that convert. -/
def EpochsFit (file : RegistryFile) : Prop :=
  ∀ rec ∈ file.peers, rec.Convertible c → rec.createdEpoch < 2 ^ 63 ∧ rec.lastActivityEpoch < 2 ^ 63

/-- The registry of a file's peers. -/
def kept (file : RegistryFile) (path : String) (subnetBase : Bytes 4) (maxPeers : Nat) : Registry where
  path := some path
  subnetBase := subnetBase
  maxPeers := min maxPeers poolSize
  inner := Table.insertAll ∅ ((file.converted c).map fun p => (p.wgPubkey, p))

/-! ## Checked counters -/

def u32Max : Nat := 4294967295

/-- `a + b` on `u32`, where `none` is the panic on overflow. -/
def addU32 (a b : Nat) : Option Nat := if a + b ≤ u32Max then some (a + b) else none

/-- `rekey` with its counter checked. -/
def checkedRekey (r : Registry) (now : SystemTime) (wgPubkey : Bytes 32)
    (claimedSessionId : Bytes 16) (algo : AlgoCode) :
    Option (Except RegistryError PeerSlot × Registry) :=
  match r.inner.lookup wgPubkey with
  | none => some (.error .unknownPeer, r)
  | some p =>
      if p.sessionId ≠ claimedSessionId then
        some (.error .sessionMismatch, r)
      else if algo < p.algo then
        some (.error .downgrade, r)
      else do
        let rekeys ← addU32 p.rekeys 1
        let p' := { p with algo := algo, rekeys := rekeys, lastActivity := now }
        return (.ok { sessionId := p.sessionId, assignedIp := p.assignedIp }, r.store wgPubkey p')

/-- `exec` with its arithmetic checked: only `rekey` has any. -/
def checkedExec (r : Registry) : Op → Option (Reply × Registry)
  | .rekey now pk claimed algo =>
      (r.checkedRekey now pk claimed algo).map fun (result, r') => (.slot result, r')
  | op => some (r.exec op)

/-- The registry after a sequence of operations, if none panics. -/
def checkedRun (r : Registry) : List Op → Option Registry
  | [] => some r
  | op :: ops => (r.checkedExec op).bind fun (_, r') => r'.checkedRun ops

/-- A rekey that would be granted to a peer whose counter is at its end. -/
def Saturates (r : Registry) (op : Op) : Prop :=
  ∃ now pk claimed algo p, op = .rekey now pk claimed algo ∧ r.inner.lookup pk = some p ∧
    p.sessionId = claimed ∧ p.algo ≤ algo ∧ u32Max ≤ p.rekeys

/-- No such rekey among the operations, each in the state the ones before it led to. -/
def NoSaturatedRekey (r : Registry) (ops : List Op) : Prop :=
  ∀ before op after, ops = before ++ op :: after → ¬ (r.run before).Saturates op

/-! ## Operations -/

theorem checkedRekey_of_not_saturates {r : Registry} {now : SystemTime} {pk : Bytes 32}
    {claimed : Bytes 16} {algo : AlgoCode} (h : ¬ r.Saturates (.rekey now pk claimed algo)) :
    r.checkedRekey now pk claimed algo = some (r.rekey now pk claimed algo) := by
  unfold checkedRekey rekey
  cases hp : r.inner.lookup pk with
  | none => rfl
  | some p =>
      dsimp only
      split
      · rfl
      split
      · rfl
      · rename_i hsid halgo
        -- both guards let the rekey through, so a full counter would saturate
        have hroom : p.rekeys + 1 ≤ u32Max := by
          by_contra hfull
          refine h ⟨now, pk, claimed, algo, p, rfl, hp, not_not.1 hsid, not_lt.1 halgo, ?_⟩
          omega
        simp only [addU32, if_pos hroom]
        rfl

theorem checkedRekey_of_saturates {r : Registry} {now : SystemTime} {pk : Bytes 32}
    {claimed : Bytes 16} {algo : AlgoCode} (h : r.Saturates (.rekey now pk claimed algo)) :
    r.checkedRekey now pk claimed algo = none := by
  rcases h with ⟨_, _, _, _, p, hop, hp, hsid, halgo, hfull⟩
  cases hop
  -- the guards pass and only the addition is left to fail
  have hover : ¬ p.rekeys + 1 ≤ u32Max := by omega
  simp only [checkedRekey, hp, hsid, ne_eq, not_true_eq_false, if_false, not_lt.2 halgo, addU32,
    if_neg hover]
  rfl

theorem checkedExec_of_not_saturates {r : Registry} {op : Op} (h : ¬ r.Saturates op) :
    r.checkedExec op = some (r.exec op) := by
  cases op with
  | rekey now pk claimed algo =>
      simp only [checkedExec, checkedRekey_of_not_saturates h]
      rfl
  | _ => rfl

theorem checkedExec_of_saturates {r : Registry} {op : Op} (h : r.Saturates op) :
    r.checkedExec op = none := by
  cases op with
  | rekey now pk claimed algo =>
      simp only [checkedExec, checkedRekey_of_saturates h]
      rfl
  | _ =>
      rcases h with ⟨_, _, _, _, _, hop, _⟩
      cases hop

theorem noSaturatedRekey_cons {r : Registry} {op : Op} {ops : List Op} :
    r.NoSaturatedRekey (op :: ops) ↔ ¬ r.Saturates op ∧ (r.exec op).2.NoSaturatedRekey ops := by
  constructor
  · intro h
    -- a later operation sees the state the first one left
    refine ⟨h [] op ops rfl, fun before op' after hsplit => ?_⟩
    exact h (op :: before) op' after (by rw [hsplit, List.cons_append])
  · rintro ⟨hop, hops⟩ before op' after hsplit
    cases before with
    | nil =>
        cases hsplit
        exact hop
    | cons op₁ before =>
        cases hsplit
        exact hops before op' after rfl

/-- A run goes through, with the result of `run`, as long as no counter is at its end. -/
theorem checkedRun_isSome_iff {r : Registry} {ops : List Op} :
    (r.checkedRun ops).isSome ↔ r.NoSaturatedRekey ops := by
  induction ops generalizing r with
  | nil => exact iff_of_true rfl fun before op after h => by simp at h
  | cons op ops ih =>
      rw [noSaturatedRekey_cons, checkedRun]
      -- either this operation panics, or it steps as `exec` does and the rest decides
      by_cases hop : r.Saturates op
      · rw [checkedExec_of_saturates hop]
        exact iff_of_false Bool.false_ne_true fun h => h.1 hop
      · rw [checkedExec_of_not_saturates hop, Option.bind_some, ih]
        exact (and_iff_right hop).symm

/-! ## Counters -/

/-- No peer was rekeyed more than `n` times. -/
def RekeysAtMost (n : Nat) (r : Registry) : Prop :=
  ∀ k p, r.inner.lookup k = some p → p.rekeys ≤ n

theorem RekeysAtMost.insert {n : Nat} {r r' : Registry} (h : RekeysAtMost n r) {pk : Bytes 32}
    {q : Peer} (hinner : r'.inner = r.inner.insert pk q) (hq : q.rekeys ≤ n + 1) :
    RekeysAtMost (n + 1) r' := by
  intro k p hk
  rw [hinner, Table.lookup_insert_eq] at hk
  split at hk
  · cases hk
    exact hq
  · exact (h k p hk).trans (Nat.le_succ n)

/-- An operation counts up by one at most. -/
theorem RekeysAtMost.exec {n : Nat} {r : Registry} (h : RekeysAtMost n r) (op : Op) :
    RekeysAtMost (n + 1) (r.exec op).2 := by
  have hsame : RekeysAtMost (n + 1) r := fun k p hk => (h k p hk).trans (Nat.le_succ n)
  -- `rekey` alone counts up; a handshake resets, the others keep what they find
  cases op with
  | upsertHandshake now pk algo sid =>
      rcases upsertHandshake_cases r now pk algo sid with
        ⟨p, _, hupsert⟩ | ⟨ip, _, _, _, hupsert⟩ | ⟨e, _, hupsert⟩
      · exact h.insert (by simp only [Registry.exec, hupsert]; rfl) (Nat.zero_le (n + 1))
      · exact h.insert (by simp only [Registry.exec, hupsert]; rfl) (Nat.zero_le (n + 1))
      · simp only [Registry.exec, hupsert]
        exact hsame
  | rekey now pk claimed algo =>
      rcases rekey_cases r now pk claimed algo with ⟨p, hp, _, _, hrekey⟩ | ⟨e, _, hrekey⟩
      · exact h.insert (by simp only [Registry.exec, hrekey]; rfl) (Nat.succ_le_succ (h pk p hp))
      · simp only [Registry.exec, hrekey]
        exact hsame
  | touch now pk =>
      have hinner := inner_touch r now pk
      cases hp : r.inner.lookup pk with
      | none =>
          rw [hp] at hinner
          intro k p hk
          change (r.touch now pk).inner.lookup k = some p at hk
          rw [hinner] at hk
          exact hsame k p hk
      | some p =>
          rw [hp] at hinner
          exact h.insert hinner ((h pk p hp).trans (Nat.le_succ n))
  | remove pk =>
      intro k p hk
      change (r.inner.erase pk).lookup k = some p at hk
      rw [Table.lookup_erase_eq] at hk
      split at hk
      · cases hk
      · exact hsame k p hk
  | idlePeers timeout now => exact hsame
  | persist => exact hsame

/-- Too few operations to fill a counter. -/
theorem noSaturatedRekey_of_le {n : Nat} {r : Registry} (h : RekeysAtMost n r) {ops : List Op}
    (hroom : n + ops.length ≤ u32Max) : r.NoSaturatedRekey ops := by
  induction ops generalizing n r with
  | nil => exact fun before op after hsplit => by simp at hsplit
  | cons op ops ih =>
      rw [List.length_cons] at hroom
      -- induction on the operations, the bound growing by one with each
      refine noSaturatedRekey_cons.2 ⟨?_, ih (h.exec op) (by omega)⟩
      rintro ⟨_, pk, _, _, p, _, hp, _, _, hfull⟩
      have hp' := h pk p hp
      omega

/-! ## Loading -/

theorem fromEpoch_eq_none_iff {secs : Nat} : fromEpoch secs = none ↔ 2 ^ 63 ≤ secs := by
  unfold fromEpoch SystemTime.checkedAdd
  split
  · rename_i h
    refine iff_of_false (by simp) ?_
    simp only [SystemTime.unixEpoch, Duration.fromSecs] at h
    omega
  · rename_i h
    refine iff_of_true rfl ?_
    simp only [SystemTime.unixEpoch, Duration.fromSecs] at h
    omega

variable {c}

theorem intoPeer_of_parseFields {rec : PeerRecord} {pk : Bytes 32} {sid : Bytes 16} {ip : Ipv4Addr}
    {algo : AlgoCode} {created lastActivity : SystemTime}
    (hfields : rec.parseFields c = .ok (pk, sid, ip, algo))
    (hcreated : fromEpoch rec.createdEpoch = some created)
    (hlast : fromEpoch rec.lastActivityEpoch = some lastActivity) :
    rec.intoPeer c = some (.ok
      { wgPubkey := pk
        assignedIp := ip
        sessionId := sid
        algo := algo
        created := created
        lastActivity := lastActivity
        rekeys := rec.rekeys }) := by
  simp only [PeerRecord.intoPeer, hfields, hcreated, hlast]
  rfl

theorem converted_of_intoPeer {rec : PeerRecord} {p : Peer} (h : rec.intoPeer c = some (.ok p)) :
    rec.converted c = some p := by
  simp only [PeerRecord.converted, h]

/-- A record panics exactly when it converts and one of its epochs is too large. -/
theorem intoPeer_eq_none_iff {rec : PeerRecord} :
    rec.intoPeer c = none ↔ rec.Convertible c ∧
      ¬ (rec.createdEpoch < 2 ^ 63 ∧ rec.lastActivityEpoch < 2 ^ 63) := by
  unfold PeerRecord.intoPeer PeerRecord.Convertible
  cases rec.parseFields c with
  | error e => simp
  | ok fields =>
      rcases fields with ⟨pk, sid, ip, algo⟩
      -- past the field checks, the two additions are all that can go wrong
      have hcreated := @fromEpoch_eq_none_iff rec.createdEpoch
      have hlast := @fromEpoch_eq_none_iff rec.lastActivityEpoch
      cases hc : fromEpoch rec.createdEpoch with
      | none =>
          rw [hc] at hcreated
          have := hcreated.1 rfl
          exact iff_of_true rfl ⟨⟨_, rfl⟩, by omega⟩
      | some created =>
          rw [hc] at hcreated
          cases hl : fromEpoch rec.lastActivityEpoch with
          | none =>
              rw [hl] at hlast
              have := hlast.1 rfl
              exact iff_of_true rfl ⟨⟨_, rfl⟩, by omega⟩
          | some lastActivity =>
              rw [hl] at hlast
              refine iff_of_false (fun h => by cases h) fun h => ?_
              have hno := mt hcreated.2 (by simp)
              have hno' := mt hlast.2 (by simp)
              omega

theorem epochsFit_iff {file : RegistryFile} :
    EpochsFit c file ↔ ∀ rec ∈ file.peers, rec.intoPeer c ≠ none := by
  refine forall₂_congr fun rec _ => ?_
  rw [Ne, intoPeer_eq_none_iff, not_and, not_not]

theorem foldlM_loadRecord_of_ne_none {peers : List PeerRecord}
    (h : ∀ rec ∈ peers, rec.intoPeer c ≠ none) (map : Table (Bytes 32) Peer) :
    peers.foldlM (loadRecord c) map =
      some (Table.insertAll map
        ((peers.filterMap (PeerRecord.converted c)).map fun p => (p.wgPubkey, p))) := by
  induction peers generalizing map with
  | nil => rfl
  | cons rec peers ih =>
      rw [List.forall_mem_cons] at h
      rw [List.foldlM_cons]
      cases hrec : rec.intoPeer c with
      | none => exact absurd hrec h.1
      | some result =>
          cases result with
          -- a record that does not convert leaves the table as it is
          | error e =>
              have hskip : PeerRecord.converted c rec = none := by
                simp only [PeerRecord.converted, hrec]
              have hload : loadRecord c map rec = some map := by simp only [loadRecord, hrec]
              rw [hload, List.filterMap_cons_none hskip]
              exact ih h.2 map
          | ok p =>
              have hload : loadRecord c map rec = some (map.insert p.wgPubkey p) := by
                simp only [loadRecord, hrec]
              rw [hload, List.filterMap_cons_some (converted_of_intoPeer hrec)]
              exact ih h.2 _

theorem foldlM_loadRecord_of_none {peers : List PeerRecord}
    (h : ∃ rec ∈ peers, rec.intoPeer c = none) (map : Table (Bytes 32) Peer) :
    peers.foldlM (loadRecord c) map = none := by
  rcases h with ⟨rec, hmem, hnone⟩
  induction peers generalizing map with
  | nil => cases hmem
  | cons rec' peers ih =>
      rw [List.foldlM_cons]
      -- the panic comes at this record, or at one after it if not earlier
      rcases List.mem_cons.1 hmem with rfl | hmem
      · simp only [loadRecord, hnone]
        rfl
      · cases hload : loadRecord c map rec' with
        | none => rfl
        | some map' => exact ih map' hmem

/-- A file whose epochs fit is loaded whole. -/
theorem load_of_epochsFit {content : List UInt8} {file : RegistryFile}
    (hparse : c.fromSlice content = .ok file) (h : EpochsFit c file) (path : String)
    (subnetBase : Bytes 4) (maxPeers : Nat) :
    load c path (.bytes content) subnetBase maxPeers =
      some (.ok (kept c file path subnetBase maxPeers)) := by
  simp only [load, hparse, foldlM_loadRecord_of_ne_none (epochsFit_iff.1 h), Option.map_some]
  rfl

/-- One epoch that does not fit takes the whole server down. -/
theorem load_of_not_epochsFit {content : List UInt8} {file : RegistryFile}
    (hparse : c.fromSlice content = .ok file) (h : ¬ EpochsFit c file) (path : String)
    (subnetBase : Bytes 4) (maxPeers : Nat) :
    load c path (.bytes content) subnetBase maxPeers = none := by
  rw [epochsFit_iff] at h
  push Not at h
  simp only [load, hparse, foldlM_loadRecord_of_none h, Option.map_none]

theorem keepsConvertible_kept (file : RegistryFile) (path : String) (subnetBase : Bytes 4)
    (maxPeers : Nat) : KeepsConvertible c file (kept c file path subnetBase maxPeers) := by
  intro k
  change (Table.insertAll ∅ _).lookup k = _
  -- later insertions win: the lookup finds the last pair under the key
  rw [Table.lookup_insertAll, ← List.map_reverse, List.find?_map, Option.map_map]
  exact Option.map_id'

/-- A file loads, and the operations after it run, without a panic exactly when its epochs fit the
clock and no rekey is granted to a peer whose counter is at its end. -/
theorem load_and_run_iff {content : List UInt8} {file : RegistryFile}
    (hparse : c.fromSlice content = .ok file) (path : String) (subnetBase : Bytes 4) (maxPeers : Nat)
    (ops : List Op) :
    (∃ r, load c path (.bytes content) subnetBase maxPeers = some (.ok r) ∧
        KeepsConvertible c file r ∧ (r.checkedRun ops).isSome) ↔
      EpochsFit c file ∧ (kept c file path subnetBase maxPeers).NoSaturatedRekey ops := by
  by_cases h : EpochsFit c file
  · rw [load_of_epochsFit hparse h]
    constructor
    · rintro ⟨r, hr, _, hrun⟩
      cases hr
      exact ⟨h, checkedRun_isSome_iff.1 hrun⟩
    · rintro ⟨_, hops⟩
      exact ⟨_, rfl, keepsConvertible_kept file path subnetBase maxPeers,
        checkedRun_isSome_iff.2 hops⟩
  · rw [load_of_not_epochsFit hparse h]
    refine iff_of_false ?_ fun h' => h h'.1
    rintro ⟨r, hr, _⟩
    cases hr

namespace Reference

/-- The record of the one peer, with another epoch and counter. -/
def record (createdEpoch rekeys : Nat) : PeerRecord :=
  { wgPubkeyB64 := keyText
    assignedIp := "10.8.0.2"
    sessionIdHex := sessionText
    algo := "ML-KEM-768"
    createdEpoch := createdEpoch
    lastActivityEpoch := 1700000000
    rekeys := rekeys }

theorem parseFields_record (createdEpoch rekeys : Nat) :
    (record createdEpoch rekeys).parseFields codecs =
      .ok (key, session, .new 10 8 0 2, .mlKem768) := by
  have hrecord : record 1700000000 0 = PeerRecord.fromPeer codecs peer := by decide
  have hfields : (record createdEpoch rekeys).parseFields codecs =
      (record 1700000000 0).parseFields codecs := rfl
  rw [hfields, hrecord]
  exact parseFields_fromPeer codecs_roundTrip peer

/-- A file with such a record. -/
def fileWith (createdEpoch rekeys : Nat) : RegistryFile :=
  { schemaVersion := 1
    peers := [record createdEpoch rekeys] }

theorem epochsFit_fileWith_iff {createdEpoch rekeys : Nat} :
    EpochsFit codecs (fileWith createdEpoch rekeys) ↔ createdEpoch < 2 ^ 63 := by
  constructor
  · intro h
    exact (h _ List.mem_cons_self ⟨_, parseFields_record createdEpoch rekeys⟩).1
  · intro h rec hrec _
    rw [List.mem_singleton.1 hrec]
    exact ⟨h, show 1700000000 < 2 ^ 63 by omega⟩

def subnet : Bytes 4 := empty.subnetBase

/-- A rekey the one peer is entitled to. -/
def rekeyOp : Op := .rekey now key session .mlKem768

theorem converted_fileWith {createdEpoch : Nat} (rekeys : Nat) (h : createdEpoch < 2 ^ 63) :
    ∃ p, (fileWith createdEpoch rekeys).converted codecs = [p] ∧ p.wgPubkey = key ∧
      p.sessionId = session ∧ p.algo = .mlKem768 ∧ p.rekeys = rekeys := by
  have hepoch {secs : Nat} (hsecs : secs < 2 ^ 63) : ∃ t, fromEpoch secs = some t :=
    Option.ne_none_iff_exists'.1 (mt fromEpoch_eq_none_iff.1 (by omega))
  rcases hepoch h with ⟨created, hcreated⟩
  rcases hepoch (show 1700000000 < 2 ^ 63 by omega) with ⟨lastActivity, hlast⟩
  have hinto := intoPeer_of_parseFields (parseFields_record createdEpoch rekeys) hcreated hlast
  exact ⟨_, List.filterMap_cons_some (converted_of_intoPeer hinto), rfl, rfl, rfl, rfl⟩

/-- All a registry loaded from such a file holds. -/
theorem lookup_kept_fileWith {createdEpoch : Nat} (rekeys : Nat) (h : createdEpoch < 2 ^ 63) :
    ∃ p, p.sessionId = session ∧ p.algo = .mlKem768 ∧ p.rekeys = rekeys ∧
      ∀ k, (kept codecs (fileWith createdEpoch rekeys) "peers.json" subnet 64).inner.lookup k =
        if k = key then some p else none := by
  rcases converted_fileWith rekeys h with ⟨p, hp, hpk, hsid, halgo, hrekeys⟩
  refine ⟨p, hsid, halgo, hrekeys, fun k => ?_⟩
  rw [keepsConvertible_kept, hp]
  by_cases hk : k = key
  · simp [hk, hpk]
  · simp [hk, hpk, Ne.symm hk]

end Reference

/-- A peer whose counter has room for one more is loaded and rekeyed. -/
theorem last_rekey_goes_through :
    ∃ content r, load Reference.codecs "peers.json" (.bytes content) Reference.subnet 64 =
        some (.ok r) ∧
      KeepsConvertible Reference.codecs (Reference.fileWith 1700000000 (u32Max - 1)) r ∧
      (r.checkedRun [Reference.rekeyOp]).isSome := by
  rcases Reference.codecs_roundTrip.json (Reference.fileWith 1700000000 (u32Max - 1)) with
    ⟨content, _, hparse⟩
  rcases Reference.lookup_kept_fileWith (u32Max - 1) (show 1700000000 < 2 ^ 63 by omega) with
    ⟨p, _, _, hrekeys, hlookup⟩
  -- one step below the end, one rekey fits
  have hcounters : RekeysAtMost (u32Max - 1)
      (kept Reference.codecs (Reference.fileWith 1700000000 (u32Max - 1)) "peers.json"
        Reference.subnet 64) := by
    intro k q hq
    rw [hlookup] at hq
    split at hq
    · cases hq
      exact hrekeys.le
    · cases hq
  rcases (load_and_run_iff hparse "peers.json" Reference.subnet 64 [Reference.rekeyOp]).2
    ⟨Reference.epochsFit_fileWith_iff.2 (by omega), noSaturatedRekey_of_le hcounters (by decide)⟩ with
    ⟨r, hload, hkeeps, hrun⟩
  exact ⟨content, r, hload, hkeeps, hrun⟩

/-- A record from the year 292277026596 stops the server from starting, and a counter that was
saved at its end stops the peer's next rekey. -/
theorem loaded_values_overflow :
    (∃ content, Reference.codecs.fromSlice content = .ok (Reference.fileWith (2 ^ 63) 0) ∧
      load Reference.codecs "peers.json" (.bytes content) Reference.subnet 64 = none) ∧
    ∃ content r, Reference.codecs.fromSlice content = .ok (Reference.fileWith 1700000000 u32Max) ∧
      load Reference.codecs "peers.json" (.bytes content) Reference.subnet 64 = some (.ok r) ∧
      r.checkedRun [Reference.rekeyOp] = none := by
  constructor
  · rcases Reference.codecs_roundTrip.json (Reference.fileWith (2 ^ 63) 0) with ⟨content, _, hparse⟩
    refine ⟨content, hparse, load_of_not_epochsFit hparse ?_ _ _ _⟩
    rw [Reference.epochsFit_fileWith_iff]
    exact lt_irrefl _
  · rcases Reference.codecs_roundTrip.json (Reference.fileWith 1700000000 u32Max) with
      ⟨content, _, hparse⟩
    have hsmall : 1700000000 < 2 ^ 63 := by omega
    rcases Reference.lookup_kept_fileWith u32Max hsmall with ⟨p, hsid, halgo, hrekeys, hlookup⟩
    refine ⟨content, _, hparse,
      load_of_epochsFit hparse (Reference.epochsFit_fileWith_iff.2 hsmall) _ _ _, ?_⟩
    -- the counter came in at its end, so the first granted rekey overflows
    have hfull : (kept Reference.codecs (Reference.fileWith 1700000000 u32Max) "peers.json"
        Reference.subnet 64).Saturates Reference.rekeyOp :=
      ⟨_, _, _, _, p, rfl, (hlookup Reference.key).trans (if_pos rfl), hsid, halgo.le, hrekeys.ge⟩
    rw [checkedRun, checkedExec_of_saturates hfull]
    rfl

end Registry
end PqcVpn
