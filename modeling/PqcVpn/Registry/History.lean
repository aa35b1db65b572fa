import PqcVpn.Lib.Transition
import PqcVpn.Registry.Persist

/-!
# History — sequences of registry operations

`Op` is one call of a registry method, `exec` runs it, and `trace` runs a sequence and keeps each
operation with its reply.  A restart writes the file and loads it again; `HistoryStep` is one
operation or one restart.
-/

namespace PqcVpn
namespace Registry

open Wire

/-! ## Operations -/

inductive Op
  | upsertHandshake (now : SystemTime) (wgPubkey : Bytes 32) (algo : AlgoCode) (sessionId : Bytes 16)
  | rekey (now : SystemTime) (wgPubkey : Bytes 32) (claimedSessionId : Bytes 16) (algo : AlgoCode)
  | touch (now : SystemTime) (wgPubkey : Bytes 32)
  | remove (wgPubkey : Bytes 32)
  | idlePeers (timeout : Duration) (now : SystemTime)
  | persist
  deriving DecidableEq

/-- The peer an operation is about. -/
def Op.key : Op → Option (Bytes 32)
  | .upsertHandshake _ pk _ _ => some pk
  | .rekey _ pk _ _ => some pk
  | .touch _ pk => some pk
  | .remove pk => some pk
  | .idlePeers _ _ => none
  | .persist => none

inductive Reply
  | slot (result : Except RegistryError PeerSlot)
  | removed (peer : Option Peer)
  | idle (wgPubkeys : Multiset (Bytes 32))
  | unit

/-- Run one operation.  `persist` only reads the map. -/
def exec (r : Registry) : Op → Reply × Registry
  | .upsertHandshake now pk algo sid =>
      let (result, r') := r.upsertHandshake now pk algo sid
      (.slot result, r')
  | .rekey now pk claimed algo =>
      let (result, r') := r.rekey now pk claimed algo
      (.slot result, r')
  | .touch now pk => (.unit, r.touch now pk)
  | .remove pk =>
      let (peer, r') := r.remove pk
      (.removed peer, r')
  | .idlePeers timeout now => (.idle (r.idlePeers timeout now), r)
  | .persist => (.unit, r)

/-- The registry after a sequence of operations. -/
def run (r : Registry) (ops : List Op) : Registry := ops.foldl (fun r op => (r.exec op).2) r

@[simp] theorem run_nil (r : Registry) : r.run [] = r := rfl

@[simp] theorem run_cons (r : Registry) (op : Op) (ops : List Op) :
    r.run (op :: ops) = (r.exec op).2.run ops := rfl

theorem run_append (r : Registry) (ops₁ ops₂ : List Op) :
    r.run (ops₁ ++ ops₂) = (r.run ops₁).run ops₂ :=
  List.foldl_append

/-- The operations of a sequence with their replies. -/
def trace (r : Registry) : List Op → List (Op × Reply)
  | [] => []
  | op :: ops => (op, (r.exec op).1) :: trace (r.exec op).2 ops

@[simp] theorem trace_nil (r : Registry) : r.trace [] = [] := rfl

@[simp] theorem trace_cons (r : Registry) (op : Op) (ops : List Op) :
    r.trace (op :: ops) = (op, (r.exec op).1) :: (r.exec op).2.trace ops := rfl

theorem trace_append (r : Registry) (ops₁ ops₂ : List Op) :
    r.trace (ops₁ ++ ops₂) = r.trace ops₁ ++ (r.run ops₁).trace ops₂ := by
  induction ops₁ generalizing r with
  | nil => rfl
  | cons op ops ih => simp [ih]

/-! ## Which record an operation writes -/

/-- What one operation does to the map: nothing, a new record for a peer it already holds, a first
record at a fresh address, or a removal. -/
inductive Effect (r : Registry) (op : Op) (m : Table (Bytes 32) Peer) : Prop
  | unchanged (hm : m = r.inner)
  | update (pk : Bytes 32) (p q : Peer) (hkey : op.key = some pk) (hlookup : r.inner.lookup pk = some p)
      (hpk : q.wgPubkey = p.wgPubkey) (hip : q.assignedIp = p.assignedIp)
      (hm : m = r.inner.insert pk q)
  | add (pk : Bytes 32) (q : Peer) (hkey : op.key = some pk) (hlookup : r.inner.lookup pk = none)
      (hpk : q.wgPubkey = pk) (halloc : r.allocIp = .ok q.assignedIp)
      (hm : m = r.inner.insert pk q)
  | delete (pk : Bytes 32) (hop : op = .remove pk) (hm : m = r.inner.erase pk)

theorem exec_effect (r : Registry) (op : Op) : Effect r op (r.exec op).2.inner := by
  -- each operation's outcomes, as the case lemmas of the operations list them
  cases op with
  | upsertHandshake now pk algo sid =>
      rcases upsertHandshake_cases r now pk algo sid with
        ⟨p, hp, h⟩ | ⟨ip, hnone, _, halloc, h⟩ | ⟨e, _, h⟩
      · exact .update pk p (p.reconnected now algo sid) rfl hp rfl rfl (by simp only [exec, h]; rfl)
      · exact .add pk _ rfl hnone rfl halloc (by simp only [exec, h]; rfl)
      · exact .unchanged (by simp only [exec, h])
  | rekey now pk claimed algo =>
      rcases rekey_cases r now pk claimed algo with ⟨p, hp, _, _, h⟩ | ⟨e, _, h⟩
      · exact .update pk p (p.rekeyed now algo) rfl hp rfl rfl (by simp only [exec, h]; rfl)
      · exact .unchanged (by simp only [exec, h])
  | touch now pk =>
      have h := inner_touch r now pk
      cases hp : r.inner.lookup pk with
      | some p =>
          rw [hp] at h
          exact .update pk p { p with lastActivity := now } rfl hp rfl rfl h
      | none =>
          rw [hp] at h
          exact .unchanged h
  | remove pk => exact .delete pk rfl rfl
  | idlePeers timeout now => exact .unchanged rfl
  | persist => exact .unchanged rfl

/-- The frame rule: an operation leaves every other peer's record alone. -/
theorem lookup_exec_of_ne {r : Registry} {op : Op} {j : Bytes 32} (hj : op.key ≠ some j) :
    (r.exec op).2.inner.lookup j = r.inner.lookup j := by
  have hne : ∀ pk, op.key = some pk → j ≠ pk := by
    rintro pk hkey rfl
    exact hj hkey
  cases exec_effect r op with
  | unchanged hm => rw [hm]
  | update pk _ _ hkey _ _ _ hm => rw [hm, Finmap.lookup_insert_of_ne _ (hne pk hkey)]
  | add pk _ hkey _ _ _ hm => rw [hm, Finmap.lookup_insert_of_ne _ (hne pk hkey)]
  | delete pk hop hm => rw [hm, Finmap.lookup_erase_ne (hne pk (by rw [hop]; rfl))]

theorem lookup_run_of_ne {r : Registry} {ops : List Op} {j : Bytes 32}
    (hj : ∀ op ∈ ops, op.key ≠ some j) : (r.run ops).inner.lookup j = r.inner.lookup j := by
  induction ops generalizing r with
  | nil => rfl
  | cons op ops ih =>
      rw [run_cons, ih fun op' hop' => hj op' (List.mem_cons_of_mem op hop')]
      exact lookup_exec_of_ne (hj op List.mem_cons_self)

/-- An operation only ever changes the map. -/
theorem exec_frame (r : Registry) (op : Op) :
    (r.exec op).2 = { r with inner := (r.exec op).2.inner } := by
  cases op with
  | upsertHandshake now pk algo sid =>
      rcases upsertHandshake_cases r now pk algo sid with
        ⟨p, _, h⟩ | ⟨ip, _, _, _, h⟩ | ⟨e, _, h⟩ <;> simp [exec, h, store]
  | rekey now pk claimed algo =>
      rcases rekey_cases r now pk claimed algo with ⟨p, _, _, _, h⟩ | ⟨e, _, h⟩ <;>
        simp [exec, h, store]
  | touch now pk =>
      simp only [exec, touch]
      split <;> rfl
  | remove pk => rfl
  | idlePeers timeout now => rfl
  | persist => rfl

@[simp] theorem subnetBase_exec (r : Registry) (op : Op) :
    (r.exec op).2.subnetBase = r.subnetBase := by
  rw [exec_frame]

@[simp] theorem maxPeers_exec (r : Registry) (op : Op) :
    (r.exec op).2.maxPeers = r.maxPeers := by
  rw [exec_frame]

@[simp] theorem path_exec (r : Registry) (op : Op) : (r.exec op).2.path = r.path := by
  rw [exec_frame]

/-! ## Peers under their own keys -/

theorem Keyed.insert {r r' : Registry} (h : r.Keyed) {pk : Bytes 32} {q : Peer}
    (hinner : r'.inner = r.inner.insert pk q) (hpk : q.wgPubkey = pk) : r'.Keyed := by
  intro k p hk
  rw [hinner, Table.lookup_insert_eq] at hk
  split at hk
  · rename_i hkpk
    cases hk
    rw [hpk, hkpk]
  · exact h k p hk

theorem Keyed.erase {r r' : Registry} (h : r.Keyed) {pk : Bytes 32}
    (hinner : r'.inner = r.inner.erase pk) : r'.Keyed := by
  intro k p hk
  rw [hinner, Table.lookup_erase_eq] at hk
  split at hk
  · cases hk
  · exact h k p hk

theorem Keyed.exec {r : Registry} (h : r.Keyed) (op : Op) : (r.exec op).2.Keyed := by
  cases exec_effect r op with
  | unchanged hm =>
      intro k p hk
      exact h k p (hm ▸ hk)
  | update pk p q _ hlookup hpk _ hm => exact h.insert hm (hpk.trans (h pk p hlookup))
  | add pk q _ _ hpk _ hm => exact h.insert hm hpk
  | delete pk _ hm => exact h.erase hm

/-! ## Restarts -/

/-- The registry with a backing file. -/
def withPath (r : Registry) (path : String) : Registry := { r with path := some path }

variable (c : TextCodecs)

inductive HistoryEvent
  | op (op : Op)
  | restart

/-- One operation, or a clean restart: `persist` succeeds and the file it wrote is loaded with the
same subnet and any capacity. -/
inductive HistoryStep : Registry → HistoryEvent → Registry → Prop
  | op (r : Registry) (op : Op) : HistoryStep r (.op op) (r.exec op).2
  | restart {r r' : Registry} {path : String} {order : r.Iteration} {os : PersistIo}
      {onDisk : Option (List UInt8)} {content : List UInt8} {maxPeers : Nat}
      (hpersist : (r.withPath path).persist c order os onDisk = (.ok (), some content))
      (hload : load c path (.bytes content) r.subnetBase maxPeers = some (.ok r')) :
      HistoryStep r .restart r'

variable {c}

theorem persist_ok {r : Registry} {path : String} {order : r.Iteration} {os : PersistIo}
    {onDisk : Option (List UInt8)} {content : List UInt8}
    (h : (r.withPath path).persist c order os onDisk = (.ok (), some content)) :
    c.toVecPretty (r.toFile c order) = .ok content := by
  rcases persist_eq_ok rfl h with ⟨content', hcontent, hjson⟩
  cases hcontent
  exact hjson

/-- A clean restart keeps every peer but for the sub-second part of its times. -/
theorem restart_restores (hc : c.RoundTrip) {r r' : Registry} {path : String} {order : r.Iteration}
    {os : PersistIo} {onDisk : Option (List UInt8)} {content : List UInt8} {maxPeers : Nat}
    (hkeyed : r.Keyed)
    (hpersist : (r.withPath path).persist c order os onDisk = (.ok (), some content))
    (hload : load c path (.bytes content) r.subnetBase maxPeers = some (.ok r')) :
    r'.subnetBase = r.subnetBase ∧
      ∀ k, r'.inner.lookup k = (r.inner.lookup k).map Peer.restored := by
  rcases load_toFile hc hkeyed order (persist_ok hpersist) path r.subnetBase maxPeers with
    ⟨r₁, hr₁, _, hbase, _, hlookup⟩
  rw [hload] at hr₁
  cases hr₁
  exact ⟨hbase, hlookup⟩

end Registry
end PqcVpn
