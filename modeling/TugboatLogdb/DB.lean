import TugboatLogdb.Cache
import TugboatLogdb.Entries

/-!
# The log database of one shard

The functions of `db.go`, each on an explicit `DB` value: the store instance and
the replica cache.  The key pool and the per-call context only recycle buffers,
so they are left out; the write batch of a context starts empty.  A Go `error`
is an `Option Err` (`none` is `nil`), and a panic ends the call in `.error`.
Storage calls are numbered within each operation, so that a fault schedule can
fail any one of them.
-/

namespace TugboatLogdb

/-- `db`: the store instance and the replica cache of one shard. -/
@[ext] structure DB where
  kvs : KV
  cs : Cache

/-- A freshly opened database over an empty store. -/
def DB.empty : DB := ⟨KV.empty, Cache.new⟩

/-- `hasEntryRecord`: whether the store holds any entry record, found by a scan over
every replica's entry keys that stops at the first one. -/
def hasEntryRecord (f : Faults) (kvs : KV) : Except Err Bool :=
  (fun rs ↦ !rs.isEmpty) <$>
    kvs.iterateValue f 0 (setEntryKey 0 0 0) (setEntryKey MaxUint64 MaxUint64 MaxUint64) true

/-- What the process panics with. -/
inductive Panic
  | maxIndexNotHandled (snapshotIndex lastIndex : UInt64)
  | unknownStateMachineType
deriving DecidableEq, Repr

/-- The snapshot a record holds (`pb.MustUnmarshal` of a snapshot value). -/
def Record.snapshot? : Record → Option Snapshot
  | .snapshot _ _ ss => some ss
  | _ => none

/-- `db.listSnapshots`, as storage call `i`: the replica's snapshots with an index up
to `index`, in ascending key order. -/
def listSnapshots (f : Faults) (i : Nat) (kvs : KV) (clusterID nodeID index : UInt64) :
    Except Err (List Snapshot) :=
  (fun rs ↦ rs.filterMap Record.snapshot?) <$>
    kvs.iterateValue f i (setSnapshotKey clusterID nodeID 0)
      (setSnapshotKey clusterID nodeID index) true

/-- `db.saveBootstrap`. -/
def saveBootstrap (wb : WriteBatch) (clusterID nodeID : UInt64) (bs : Bootstrap) :
    WriteBatch :=
  wb.put (.bootstrap clusterID nodeID bs)

/-- `db.saveMaxIndex`. -/
def saveMaxIndex (wb : WriteBatch) (clusterID nodeID index : UInt64) : WriteBatch :=
  wb.put (.maxIndex clusterID nodeID index)

/-- `db.saveStateAllocs`. -/
def saveStateAllocs (wb : WriteBatch) (clusterID nodeID : UInt64) (st : State) :
    WriteBatch :=
  wb.put (.state clusterID nodeID st)

/-- `db.setMaxIndex`: the cache and the batch together. -/
def setMaxIndex (wb : WriteBatch) (cs : Cache) (ud : Update) (maxIndex : UInt64) :
    WriteBatch × Cache :=
  (saveMaxIndex wb ud.clusterID ud.nodeID maxIndex,
    cs.setMaxIndex ud.clusterID ud.nodeID maxIndex)

/-- The deletions of stored snapshots that `saveSnapshot` stages: those with an index
below the new one. -/
def deleteOlderSnapshots (wb : WriteBatch) (clusterID nodeID index : UInt64) :
    List Snapshot → WriteBatch
  | [] => wb
  | ss :: rest =>
      deleteOlderSnapshots
        (if ss.index < index then wb.delete (setSnapshotKey clusterID nodeID ss.index) else wb)
        clusterID nodeID index rest

/-- `db.saveSnapshot`: stage `ud`'s snapshot, deleting the stored ones with a smaller
index.  Listing them is storage call `i`. -/
def saveSnapshot (f : Faults) (i : Nat) (kvs : KV) (wb : WriteBatch) (ud : Update) :
    Except Err WriteBatch :=
  if ud.snapshot.isEmpty then .ok wb else
  match listSnapshots f i kvs ud.clusterID ud.nodeID MaxUint64 with
  | .error e => .error e
  | .ok snapshots =>
      .ok ((deleteOlderSnapshots wb ud.clusterID ud.nodeID ud.snapshot.index snapshots).put
        (.snapshot ud.clusterID ud.nodeID ud.snapshot))

/-- `db.saveState`: stage `st` when it is not empty and the cache reports a change. -/
def saveState (cs : Cache) (clusterID nodeID : UInt64) (st : State) (wb : WriteBatch) :
    WriteBatch × Cache :=
  if st.isEmpty then (wb, cs) else
  match cs.setState clusterID nodeID st with
  | (true, cs) => (wb.put (.state clusterID nodeID st), cs)
  | (false, cs) => (wb, cs)

/-- The `Panicf("max index not handled")` check of `saveRaftState`: the update's last
entry lies below its snapshot. -/
def maxIndexNotHandled (ud : Update) : Option Panic :=
  match ud.entriesToSave.getLast? with
  | some e =>
      if e.index < ud.snapshot.index then some (.maxIndexNotHandled ud.snapshot.index e.index)
      else none
  | none => none

/-- The batch and cache a loop of `saveRaftState` or `saveSnapshots` has built, and the
storage calls it has made. -/
structure Staging where
  wb : WriteBatch
  cs : Cache
  calls : Nat

/-- How the first loop of `saveRaftState` ends early: a panic, or the `return nil`
taken when listing snapshots fails, with the cache as it then stands. -/
inductive Stop
  | panic (p : Panic)
  | returnNil (cs : Cache)

/-- One round of the first loop of `db.saveRaftState`. -/
def stageUpdate (f : Faults) (kvs : KV) (st : Staging) (ud : Update) : Except Stop Staging :=
  let (wb, cs) := saveState st.cs ud.clusterID ud.nodeID ud.state st.wb
  if ud.snapshot.isEmpty then .ok ⟨wb, cs, st.calls⟩ else
  match cs.trySaveSnapshot ud.clusterID ud.nodeID ud.snapshot.index with
  | (false, cs) => .ok ⟨wb, cs, st.calls⟩
  | (true, cs) =>
      match maxIndexNotHandled ud with
      | some p => .error (.panic p)
      | none =>
          match saveSnapshot f st.calls kvs wb ud with
          | .error _ => .error (.returnNil cs)
          | .ok wb =>
              let (wb, cs) := setMaxIndex wb cs ud ud.snapshot.index
              .ok ⟨wb, cs, st.calls + 1⟩

/-- The first loop of `db.saveRaftState`. -/
def stageUpdates (f : Faults) (kvs : KV) : Staging → List Update → Except Stop Staging
  | st, [] => .ok st
  | st, ud :: uds =>
      match stageUpdate f kvs st ud with
      | .ok st => stageUpdates f kvs st uds
      | .error e => .error e

/-- `db.saveEntries`: the second loop of `saveRaftState`. -/
def saveEntries (wb : WriteBatch) (cs : Cache) : List Update → WriteBatch × Cache
  | [] => (wb, cs)
  | ud :: uds =>
      if ud.entriesToSave.isEmpty then saveEntries wb cs uds else
      let (wb, mi) := PlainEntries.record wb ud.clusterID ud.nodeID ud.entriesToSave
      if 0 < mi then
        let (wb, cs) := setMaxIndex wb cs ud mi
        saveEntries wb cs uds
      else saveEntries wb cs uds

/-- `db.saveRaftState`. -/
def saveRaftState (f : Faults) (db : DB) (updates : List Update) :
    Except Panic (Option Err × DB) :=
  match stageUpdates f db.kvs ⟨.empty, db.cs, 0⟩ updates with
  | .error (.panic p) => .error p
  | .error (.returnNil cs) => .ok (none, { db with cs })
  | .ok st =>
      let (wb, cs) := saveEntries st.wb st.cs updates
      if 0 < wb.count then
        match db.kvs.commitWriteBatch f st.calls wb with
        | .error e => .ok (some e, { db with cs })
        | .ok kvs => .ok (none, ⟨kvs, cs⟩)
      else .ok (none, { db with cs })

/-- The loop of `db.saveSnapshots`, with its `toSave` flag; it ends early, with the
cache as it then stands, when listing snapshots fails. -/
def stageSnapshots (f : Faults) (kvs : KV) : Staging → Bool → List Update →
    Except Cache (Staging × Bool)
  | st, toSave, [] => .ok (st, toSave)
  | st, toSave, ud :: uds =>
      if ud.snapshot.isEmpty then stageSnapshots f kvs st toSave uds else
      match st.cs.trySaveSnapshot ud.clusterID ud.nodeID ud.snapshot.index with
      | (false, cs) => stageSnapshots f kvs { st with cs } toSave uds
      | (true, cs) =>
          match saveSnapshot f st.calls kvs st.wb ud with
          | .error _ => .error cs
          | .ok wb => stageSnapshots f kvs ⟨wb, cs, st.calls + 1⟩ true uds

/-- `db.saveSnapshots`. -/
def saveSnapshots (f : Faults) (db : DB) (updates : List Update) : Option Err × DB :=
  match stageSnapshots f db.kvs ⟨.empty, db.cs, 0⟩ false updates with
  | .error cs => (none, { db with cs })
  | .ok (st, toSave) =>
      if toSave then
        match db.kvs.commitWriteBatch f st.calls st.wb with
        | .error e => (some e, { db with cs := st.cs })
        | .ok kvs => (none, ⟨kvs, st.cs⟩)
      else (none, { db with cs := st.cs })

/-- The deletions `db.saveRemoveNodeData` stages: the replica's state, bootstrap and max
index records, and each listed snapshot. -/
def saveRemoveNodeData (wb : WriteBatch) (snapshots : List Snapshot)
    (clusterID nodeID : UInt64) : WriteBatch :=
  snapshots.foldl (fun wb ss ↦ wb.delete (setSnapshotKey clusterID nodeID ss.index))
    (((wb.delete (setStateKey clusterID nodeID)).delete (setBootstrapKey clusterID nodeID)).delete
      (setMaxIndexKey clusterID nodeID))

/-- `db.importSnapshot`. -/
def importSnapshot (f : Faults) (db : DB) (ss : Snapshot) (nodeID : UInt64) :
    Except Panic (Option Err × DB) :=
  if ss.type = .unknownStateMachine then .error .unknownStateMachineType else
  match listSnapshots f 0 db.kvs ss.clusterId nodeID MaxUint64 with
  | .error e => .ok (some e, db)
  | .ok snapshots =>
      let selectedss := snapshots.filter (fun curss ↦ ss.index ≤ curss.index)
      let bsrec : Bootstrap := ⟨[], true, ss.type⟩
      let state : State := ⟨ss.term, 0, ss.index⟩
      let wb := saveRemoveNodeData .empty selectedss ss.clusterId nodeID
      let wb := saveBootstrap wb ss.clusterId nodeID bsrec
      let wb := saveStateAllocs wb ss.clusterId nodeID state
      match saveSnapshot f 1 db.kvs wb ⟨ss.clusterId, nodeID, ⟨0, 0, 0⟩, [], ss⟩ with
      | .error e => .ok (some e, db)
      | .ok wb =>
          let wb := saveMaxIndex wb ss.clusterId nodeID ss.index
          match db.kvs.commitWriteBatch f (if ss.isEmpty then 1 else 2) wb with
          | .error e => .ok (some e, db)
          | .ok kvs => .ok (none, { db with kvs })

/-- `db.saveBootstrapInfo`. -/
def saveBootstrapInfo (f : Faults) (db : DB) (clusterID nodeID : UInt64) (bs : Bootstrap) :
    Option Err × DB :=
  match db.kvs.commitWriteBatch f 0 (saveBootstrap .empty clusterID nodeID bs) with
  | .error e => (some e, db)
  | .ok kvs => (none, { db with kvs })

/-- `db.removeEntriesTo`, as storage call `i`. -/
def removeEntriesTo (f : Faults) (i : Nat) (kvs : KV) (clusterID nodeID index : UInt64) :
    Except Err KV :=
  PlainEntries.rangedOp clusterID nodeID index (kvs.bulkRemoveEntries f i)

/-- `db.compact`, as storage call `i`. -/
def compact (f : Faults) (i : Nat) (kvs : KV) (clusterID nodeID index : UInt64) :
    Except Err KV :=
  PlainEntries.rangedOp clusterID nodeID index (kvs.compactEntries f i)

/-- `db.removeNodeData`. -/
def removeNodeData (f : Faults) (db : DB) (clusterID nodeID : UInt64) : Option Err × DB :=
  match listSnapshots f 0 db.kvs clusterID nodeID MaxUint64 with
  | .error e => (some e, db)
  | .ok snapshots =>
      match db.kvs.commitWriteBatch f 1 (saveRemoveNodeData .empty snapshots clusterID nodeID) with
      | .error e => (some e, db)
      | .ok kvs =>
          let cs := db.cs.setMaxIndex clusterID nodeID 0
          match removeEntriesTo f 2 kvs clusterID nodeID MaxUint64 with
          | .error e => (some e, ⟨kvs, cs⟩)
          | .ok kvs => (none, ⟨kvs, cs⟩)

/-- `db.getState`: the stored state, whatever its fields; `ErrNoSavedLog` only for a
missing record, the `len(data) == 0` case. -/
def getState (f : Faults) (db : DB) (clusterID nodeID : UInt64) : Except Err State :=
  match db.kvs.getValue f 0 (setStateKey clusterID nodeID) with
  | .error e => .error e
  | .ok (some (.state _ _ st)) => .ok st
  | .ok _ => .error .noSavedLog

/-- `db.getMaxIndex`: the cached value, else the stored record. -/
def getMaxIndex (f : Faults) (db : DB) (clusterID nodeID : UInt64) : Except Err UInt64 :=
  match db.cs.getMaxIndex clusterID nodeID with
  | some v => .ok v
  | none =>
      match db.kvs.getValue f 0 (setMaxIndexKey clusterID nodeID) with
      | .error e => .error e
      | .ok (some (.maxIndex _ _ v)) => .ok v
      | .ok _ => .error .noSavedLog

/-- The entry manager's `getRange` over the store: the first index and the number of
the replica's entries from a snapshot index up to a max index. -/
abbrev EntriesGetRange := KV → UInt64 → UInt64 → UInt64 → UInt64 → Except Err (UInt64 × UInt64)

/-- `db.getRange`.  The entry manager's file is not among the sources, so its
`getRange` is the parameter. -/
def getRange (entriesGetRange : EntriesGetRange) (f : Faults) (db : DB)
    (clusterID nodeID snapshotIndex : UInt64) : Except Err (UInt64 × UInt64) :=
  match getMaxIndex f db clusterID nodeID with
  | .error .noSavedLog => .ok (snapshotIndex, 0)
  | .error e => .error e
  | .ok maxIndex =>
      if snapshotIndex = maxIndex then .ok (snapshotIndex, 0)
      else entriesGetRange db.kvs clusterID nodeID snapshotIndex maxIndex

/-- `raftio.RaftState`. -/
structure RaftState where
  state : State
  firstIndex : UInt64
  entryCount : UInt64
deriving DecidableEq, Repr

/-- `db.readRaftState`: the range, then the state, whose read is the storage call after
the one `getMaxIndex` may make. -/
def readRaftState (entriesGetRange : EntriesGetRange) (f : Faults) (db : DB)
    (clusterID nodeID snapshotIndex : UInt64) : Except Err RaftState :=
  match getRange entriesGetRange f db clusterID nodeID snapshotIndex with
  | .error e => .error e
  | .ok (firstIndex, length) =>
      match getState (fun i ↦ f (i + 1)) db clusterID nodeID with
      | .error e => .error e
      | .ok state => .ok ⟨state, firstIndex, length⟩

/-- `db.getBootstrapInfo`: the stored record, whatever its fields;
`ErrNoBootstrapInfo` only for a missing record, the `len(data) == 0` case. -/
def getBootstrapInfo (f : Faults) (db : DB) (clusterID nodeID : UInt64) :
    Except Err Bootstrap :=
  match db.kvs.getValue f 0 (setBootstrapKey clusterID nodeID) with
  | .error e => .error e
  | .ok (some (.bootstrap _ _ bs)) => .ok bs
  | .ok _ => .error .noBootstrapInfo

/-- `db.getSnapshot`: the last listed snapshot, which it also records in the cache. -/
def getSnapshot (f : Faults) (db : DB) (clusterID nodeID : UInt64) : Except Err Snapshot × DB :=
  match listSnapshots f 0 db.kvs clusterID nodeID MaxUint64 with
  | .error e => (.error e, db)
  | .ok snapshots =>
      match snapshots.getLast? with
      | some ss => (.ok ss, { db with cs := db.cs.setSnapshotIndex clusterID nodeID ss.index })
      | none => (.ok Snapshot.empty, db)

/-- `db.listNodeInfo`. -/
def listNodeInfo (f : Faults) (db : DB) : Except Err (List NodeInfo) :=
  (fun rs ↦ rs.map fun r ↦ ⟨(parseNodeInfoKey r.key).1, (parseNodeInfoKey r.key).2⟩) <$>
    db.kvs.iterateValue f 0 (setBootstrapKey 0 0) (setBootstrapKey MaxUint64 MaxUint64) true

/-- The entry manager's `iterate` over the store: from the entries read so far, the max
index, their size, the replica, and the range `low` to `high` under a size limit, the
entries extended with the replica's stored ones, their size, and an error. -/
abbrev EntriesIterate :=
  KV → List Entry → UInt64 → UInt64 → UInt64 → UInt64 → UInt64 → UInt64 → UInt64 →
    List Entry × UInt64 × Option Err

/-- An error that `errors.Wrapf` wrapped: the message it adds, and the error it wraps. -/
structure WrappedErr where
  msg : String
  cause : Err
deriving DecidableEq, Repr

/-- `errors.Wrapf`: `nil` stays `nil`, and an error is wrapped with the message. -/
def wrapf (err : Option Err) (msg : String) : Option WrappedErr :=
  err.map (WrappedErr.mk msg)

/-- `mod`. -/
def mod : UInt64 := 100000

/-- The verb `%05d` of `fmt.Sprintf`: the decimal digits of `v`, padded with zeros to
five. -/
def padDecimal5 (v : UInt64) : String :=
  ⟨List.replicate (5 - (toString v.toNat).length) '0'⟩ ++ toString v.toNat

/-- `dn`: the replica as `[ccccc:nnnnn]`, each ID taken modulo `mod`. -/
def dn (clusterID nodeID : UInt64) : String :=
  "[" ++ padDecimal5 (clusterID % mod) ++ ":" ++ padDecimal5 (nodeID % mod) ++ "]"

/-- The message `iterateEntries` wraps the entry manager's error with. -/
def iterateEntriesMsg (clusterID nodeID low high maxSize maxIndex : UInt64) : String :=
  dn clusterID nodeID ++ " failed to iterate entries, " ++ toString low ++ ", " ++
    toString high ++ ", " ++ toString maxSize ++ ", " ++ toString maxIndex

/-- `db.iterateEntries`.  The entry manager's file is not among the sources, so its
`iterate` is the parameter; the Go `nil` slice is the empty list. -/
def iterateEntries (entriesIterate : EntriesIterate) (f : Faults) (db : DB) (ents : List Entry)
    (size clusterID nodeID low high maxSize : UInt64) : List Entry × UInt64 × Option WrappedErr :=
  match getMaxIndex f db clusterID nodeID with
  | .error .noSavedLog => (ents, size, none)
  | .error e => ([], 0, wrapf (some e) (dn clusterID nodeID ++ " failed to get max index"))
  | .ok maxIndex =>
      match entriesIterate db.kvs ents maxIndex size clusterID nodeID low high maxSize with
      | (entries, sz, err) =>
          (entries, sz, wrapf err (iterateEntriesMsg clusterID nodeID low high maxSize maxIndex))

/-- Each ID is taken modulo `mod` and padded to five digits. -/
example : dn 7 123456 = "[00007:23456]" := by decide

end TugboatLogdb
