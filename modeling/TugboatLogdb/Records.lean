import TugboatLogdb.Codec

/-!
# Records of the log store

The `raftpb` messages this package persists, with the fields it reads, and the
records it keeps in the store.  A record is stored under the key the codec
derives from the record itself: the replica's IDs, and for entries and
snapshots the index the message carries.  So the index in a snapshot record's
key is always the index of the snapshot stored under it.
-/

namespace TugboatLogdb

/-- `pb.StateMachineType`. -/
inductive StateMachineType
  | unknownStateMachine
  | regularStateMachine
  | concurrentStateMachine
  | onDiskStateMachine
deriving DecidableEq, Repr

/-- `pb.State`: the persistent Raft state of a replica. -/
structure State where
  term : UInt64
  vote : UInt64
  commit : UInt64
deriving DecidableEq, Repr

/-- `pb.IsEmptyState`: every field zero.  `saveState` skips such a state, but
`importSnapshot` may store one, and `getState` then returns it: the code reads only a
missing record as no state. -/
def State.isEmpty (st : State) : Bool := st.term == 0 && st.vote == 0 && st.commit == 0

/-- `pb.Entry`, with the fields this package reads. -/
structure Entry where
  index : UInt64
  term : UInt64
deriving DecidableEq, Repr

/-- `pb.Snapshot`, with the fields this package reads. -/
structure Snapshot where
  index : UInt64
  term : UInt64
  clusterId : UInt64
  type : StateMachineType
deriving DecidableEq, Repr

/-- `pb.IsEmptySnapshot`. -/
def Snapshot.isEmpty (ss : Snapshot) : Bool := ss.index == 0

/-- The zero value `pb.Snapshot{}`. -/
def Snapshot.empty : Snapshot := ⟨0, 0, 0, .unknownStateMachine⟩

/-- `pb.Bootstrap`. -/
structure Bootstrap where
  addresses : List (UInt64 × String)
  join : Bool
  type : StateMachineType
deriving DecidableEq, Repr

/-- `pb.Update`, with the fields `saveRaftState` reads. -/
structure Update where
  clusterID : UInt64
  nodeID : UInt64
  state : State
  entriesToSave : List Entry
  snapshot : Snapshot
deriving DecidableEq, Repr

/-- `raftio.NodeInfo`: the identity of one replica. -/
structure NodeInfo where
  clusterID : UInt64
  nodeID : UInt64
deriving DecidableEq, Repr

/-- A record of the store, with the replica it belongs to. -/
inductive Record
  | entry (clusterID nodeID : UInt64) (e : Entry)
  | state (clusterID nodeID : UInt64) (st : State)
  | maxIndex (clusterID nodeID : UInt64) (index : UInt64)
  | bootstrap (clusterID nodeID : UInt64) (bs : Bootstrap)
  | snapshot (clusterID nodeID : UInt64) (ss : Snapshot)
deriving DecidableEq, Repr

namespace Record

/-- The kind of key a record is stored under. -/
def kind : Record → KeyKind
  | entry .. => .entry
  | state .. => .state
  | maxIndex .. => .maxIndex
  | bootstrap .. => .bootstrap
  | snapshot .. => .snapshot

/-- The integer fields of a record's key. -/
def fields : Record → List UInt64
  | entry c n e => [c, n, e.index]
  | state c n _ => [c, n]
  | maxIndex c n _ => [c, n]
  | bootstrap c n _ => [c, n]
  | snapshot c n ss => [c, n, ss.index]

/-- The key a record is stored under. -/
def key (r : Record) : Bytes := TugboatLogdb.key r.kind r.fields

/-- The replica a record belongs to. -/
def nodeInfo : Record → NodeInfo
  | entry c n _ | state c n _ | maxIndex c n _ | bootstrap c n _ | snapshot c n _ => ⟨c, n⟩

@[simp] theorem key_entry (c n : UInt64) (e : Entry) :
    (entry c n e).key = setEntryKey c n e.index := rfl

@[simp] theorem key_state (c n : UInt64) (st : State) :
    (state c n st).key = setStateKey c n := rfl

@[simp] theorem key_maxIndex (c n v : UInt64) :
    (maxIndex c n v).key = setMaxIndexKey c n := rfl

@[simp] theorem key_bootstrap (c n : UInt64) (bs : Bootstrap) :
    (bootstrap c n bs).key = setBootstrapKey c n := rfl

@[simp] theorem key_snapshot (c n : UInt64) (ss : Snapshot) :
    (snapshot c n ss).key = setSnapshotKey c n ss.index := rfl

theorem length_fields_of_kind {r : Record} {k : KeyKind} (h : r.kind = k) :
    r.fields.length = if k = .entry ∨ k = .snapshot then 3 else 2 := by
  subst h
  cases r <;> rfl

theorem key_eq_key_iff {r r' : Record} :
    r.key = r'.key ↔ r.kind = r'.kind ∧ r.fields = r'.fields := key_inj

/-! Which record a key of each kind can hold. -/

theorem key_eq_setMaxIndexKey_iff {r : Record} {c n : UInt64} :
    r.key = setMaxIndexKey c n ↔ ∃ v, r = maxIndex c n v := by
  rw [key, setMaxIndexKey, key_inj]
  cases r <;> simp [kind, fields]

theorem key_eq_setSnapshotKey_iff {r : Record} {c n i : UInt64} :
    r.key = setSnapshotKey c n i ↔ ∃ ss, r = snapshot c n ss ∧ ss.index = i := by
  rw [key, setSnapshotKey, key_inj]
  cases r <;> simp [kind, fields, and_assoc]

/-- A replica's snapshot scan from index `lo` to `hi` reaches exactly its snapshot
records with an index in between. -/
theorem inRange_snapshotRange_iff (r : Record) (c n lo hi : UInt64) :
    InRange (setSnapshotKey c n lo) (setSnapshotKey c n hi) true r.key ↔
      ∃ ss, r = snapshot c n ss ∧ lo ≤ ss.index ∧ ss.index ≤ hi := by
  rw [key, setSnapshotKey, setSnapshotKey,
    inRange_key3_iff (fun h ↦ by rw [length_fields_of_kind h]; rfl)]
  cases r <;> simp [kind, fields, and_assoc]

/-- A replica's snapshot scan, from index 0 to `math.MaxUint64`, reaches exactly its
snapshot records. -/
theorem inRange_snapshotKeys_iff (r : Record) (c n : UInt64) :
    InRange (setSnapshotKey c n 0) (setSnapshotKey c n MaxUint64) true r.key ↔
      ∃ ss, r = snapshot c n ss := by
  simp [inRange_snapshotRange_iff, u64_le_iff, toNat_le_MaxUint64]

/-- The bootstrap scan, from `(0, 0)` to `(math.MaxUint64, math.MaxUint64)`, reaches
exactly the bootstrap records. -/
theorem inRange_bootstrapKeys_iff (r : Record) :
    InRange (setBootstrapKey 0 0) (setBootstrapKey MaxUint64 MaxUint64) true r.key ↔
      ∃ c n bs, r = bootstrap c n bs := by
  rw [key, setBootstrapKey, setBootstrapKey,
    inRange_key2_iff (fun h ↦ by rw [length_fields_of_kind h]; rfl)]
  cases r <;> simp [kind]

/-- A replica's entry scan from index `lo` to `hi` reaches exactly its entries
with an index in between. -/
theorem inRange_entryKeys_iff (r : Record) (c n lo hi : UInt64) :
    InRange (setEntryKey c n lo) (setEntryKey c n hi) true r.key ↔
      ∃ e, r = entry c n e ∧ lo ≤ e.index ∧ e.index ≤ hi := by
  rw [key, setEntryKey, setEntryKey,
    inRange_key3_iff (fun h ↦ by rw [length_fields_of_kind h]; rfl)]
  cases r <;> simp [kind, fields, and_assoc]

/-- The scan over every replica's entry keys reaches exactly the entry records. -/
theorem inRange_allEntryKeys_iff (r : Record) :
    InRange (setEntryKey 0 0 0) (setEntryKey MaxUint64 MaxUint64 MaxUint64) true r.key ↔
      ∃ c n e, r = entry c n e := by
  rw [key, setEntryKey, setEntryKey,
    inRange_key3_all_iff (fun h ↦ by rw [length_fields_of_kind h]; rfl)]
  cases r <;> simp [kind]

end Record

end TugboatLogdb
