import TugboatLogdb.SnapshotRetention
import TugboatLogdb.CacheCoherence

/-!
# Reading back what was saved

A store with no cache keeps, for each replica, the last state written (`saveRaftState`
writes only non-empty ones), the max index the last save set, and the latest snapshot.
The reads of `db.go` answer from those three: `getState`, `getMaxIndex` and
`getSnapshot` directly; `readRaftState` through `getRange`, which asks the entry
manager for the entries from the snapshot index up to the max index; and
`iterateEntries`, which asks it to read up to the max index.

Over every run of calls that keep the cached snapshot indexes (no `importSnapshot`
and no `removeNodeData`, and distinct replicas in each saving call), the database
answers each of these reads as that store does.  The reference projects onto the
snapshot reference of `SnapshotRetention`, and the invariant joins that module's and
the state cache's with the records of the states and max indexes.
-/

namespace TugboatLogdb

/-! ## The reference -/

/-- What a store with no cache keeps of one replica: its last state written, the max
index its last save set, and its latest snapshot. -/
structure Saved where
  state : Option State
  maxIndex : Option UInt64
  snapshot : Option Snapshot

namespace Saved

/-- A replica with nothing saved. -/
def empty : Saved := ⟨none, none, none⟩

/-- The snapshot kept after `ud`'s: `ud`'s when the reference takes it. -/
def takeSnapshot (cur : Option Snapshot) (ud : Update) : Option Snapshot :=
  if refTakes cur ud then some ud.snapshot else cur

/-- A replica after `saveRaftState` handles `ud`: its state when not empty; the index
its entries reach when positive, else its snapshot's index when the snapshot is taken;
and the snapshot taken. -/
def save (s : Saved) (ud : Update) : Saved where
  state := if ud.state.isEmpty then s.state else some ud.state
  maxIndex := if 0 < ud.recordIndex then some ud.recordIndex
    else if refTakes s.snapshot ud then some ud.snapshot.index else s.maxIndex
  snapshot := takeSnapshot s.snapshot ud

/-- A replica after `saveSnapshots` handles `ud`: only the snapshot moves. -/
def saveSnapshot (s : Saved) (ud : Update) : Saved :=
  { s with snapshot := takeSnapshot s.snapshot ud }

/-- A replica after `importSnapshot` of `ss`: the state the snapshot implies, written
whatever its fields, the snapshot's index as max index, and the snapshot. -/
def imported (ss : Snapshot) : Saved := ⟨some ⟨ss.term, 0, ss.index⟩, some ss.index, some ss⟩

@[simp] theorem save_state (s : Saved) (ud : Update) :
    (s.save ud).state = if ud.state.isEmpty then s.state else some ud.state := rfl

@[simp] theorem save_maxIndex (s : Saved) (ud : Update) :
    (s.save ud).maxIndex = if 0 < ud.recordIndex then some ud.recordIndex
      else if refTakes s.snapshot ud then some ud.snapshot.index else s.maxIndex := rfl

/-! ### The reads of the reference -/

/-- `getState` of the reference. -/
def getState (s : Saved) : Except Err State :=
  match s.state with
  | some st => .ok st
  | none => .error .noSavedLog

/-- `getMaxIndex` of the reference. -/
def getMaxIndex (s : Saved) : Except Err UInt64 :=
  match s.maxIndex with
  | some v => .ok v
  | none => .error .noSavedLog

/-- `getRange` of the reference, with the entry manager's range from a snapshot index up
to a max index as `entriesRange`: no entries when nothing set a max index or the
snapshot index is the max index. -/
def getRange (s : Saved) (entriesRange : UInt64 → UInt64 → Except Err (UInt64 × UInt64))
    (snapshotIndex : UInt64) : Except Err (UInt64 × UInt64) :=
  match s.maxIndex with
  | some maxIndex =>
      if snapshotIndex = maxIndex then .ok (snapshotIndex, 0)
      else entriesRange snapshotIndex maxIndex
  | none => .ok (snapshotIndex, 0)

/-- `readRaftState` of the reference: the range and the last state, or the range's
error, or `ErrNoSavedLog` when no state was saved. -/
def readRaftState (s : Saved) (entriesRange : UInt64 → UInt64 → Except Err (UInt64 × UInt64))
    (snapshotIndex : UInt64) : Except Err RaftState :=
  match s.getRange entriesRange snapshotIndex, s.state with
  | .ok (firstIndex, entryCount), some state => .ok ⟨state, firstIndex, entryCount⟩
  | .ok _, none => .error .noSavedLog
  | .error e, _ => .error e

/-- `iterateEntries` of the reference: the entries and size given when nothing set a
max index, else the entry manager's answer up to the max index, its error wrapped with
the replica and the arguments. -/
def iterateEntries (s : Saved) (entriesIterate : UInt64 → List Entry × UInt64 × Option Err)
    (ents : List Entry) (size : UInt64) (msg : UInt64 → String) :
    List Entry × UInt64 × Option WrappedErr :=
  match s.maxIndex with
  | some maxIndex => ((entriesIterate maxIndex).1, (entriesIterate maxIndex).2.1,
      wrapf (entriesIterate maxIndex).2.2 (msg maxIndex))
  | none => (ents, size, none)

end Saved

/-- The reference with `ud`'s replica moved by `step`. -/
def Saved.updateAt (step : Saved → Update → Saved) (σ : NodeInfo → Saved) (ud : Update) :
    NodeInfo → Saved :=
  Function.update σ ud.nodeInfo (step (σ ud.nodeInfo) ud)

/-- The reference after a call: the saving calls move each replica named by its
update, `importSnapshot` restarts the replica from the snapshot, and `removeNodeData`
forgets it. -/
def Call.saved (σ : NodeInfo → Saved) : Call → NodeInfo → Saved
  | .saveRaftState uds => uds.foldl (Saved.updateAt Saved.save) σ
  | .saveSnapshots uds => uds.foldl (Saved.updateAt Saved.saveSnapshot) σ
  | .importSnapshot ss nodeID => Function.update σ ⟨ss.clusterId, nodeID⟩ (Saved.imported ss)
  | .removeNodeData c n => Function.update σ ⟨c, n⟩ Saved.empty
  | _ => σ

/-- The reference after a run from nothing saved. -/
def savedRun (calls : List Call) : NodeInfo → Saved :=
  calls.foldl Call.saved fun _ ↦ Saved.empty

/-! ## The loops over updates in the reference -/

section UpdateAt

variable {step : Saved → Update → Saved}

theorem foldl_updateAt_of_not_mem {R : NodeInfo} :
    ∀ {uds : List Update} {σ : NodeInfo → Saved}, R ∉ uds.map Update.nodeInfo →
      uds.foldl (Saved.updateAt step) σ R = σ R
  | [], _, _ => rfl
  | ud :: uds, σ, hR => by
      simp only [List.map_cons, List.mem_cons, not_or] at hR
      rw [List.foldl_cons, foldl_updateAt_of_not_mem hR.2, Saved.updateAt,
        Function.update_noteq hR.1]

/-- Over distinct replicas, each replica named reads as after its own update. -/
theorem foldl_updateAt_of_mem {ud : Update} :
    ∀ {uds : List Update} {σ : NodeInfo → Saved}, (uds.map Update.nodeInfo).Nodup → ud ∈ uds →
      uds.foldl (Saved.updateAt step) σ ud.nodeInfo = step (σ ud.nodeInfo) ud
  | [], _, _, hud => absurd hud (List.not_mem_nil _)
  | u :: uds, σ, hnd, hud => by
      rw [List.map_cons, List.nodup_cons] at hnd
      rcases List.mem_cons.mp hud with rfl | hud
      · rw [List.foldl_cons, foldl_updateAt_of_not_mem hnd.1, Saved.updateAt, Function.update_same]
      · have hR : ud.nodeInfo ≠ u.nodeInfo := fun h ↦ hnd.1 (h ▸ List.mem_map_of_mem _ hud)
        rw [List.foldl_cons, foldl_updateAt_of_mem hnd.2 hud, Saved.updateAt,
          Function.update_noteq hR]

/-- A part of a replica that `step` leaves, the whole loop leaves. -/
theorem foldl_updateAt_field {β : Type} (f : Saved → β) (hstep : ∀ s ud, f (step s ud) = f s) :
    ∀ (uds : List Update) (σ : NodeInfo → Saved) (R : NodeInfo),
      f (uds.foldl (Saved.updateAt step) σ R) = f (σ R)
  | [], _, _ => rfl
  | ud :: uds, σ, R => by
      rw [List.foldl_cons, foldl_updateAt_field f hstep uds, Saved.updateAt]
      by_cases hR : R = ud.nodeInfo
      · rw [hR, Function.update_same, hstep]
      · rw [Function.update_noteq hR]

/-- Where `step` keeps the snapshot as the reference of `SnapshotRetention` does, the
loop's snapshots are that reference's loop. -/
theorem foldl_updateAt_snapshot
    (hstep : ∀ s ud, (step s ud).snapshot = Saved.takeSnapshot s.snapshot ud) :
    ∀ (uds : List Update) (σ : NodeInfo → Saved),
      (fun R ↦ (uds.foldl (Saved.updateAt step) σ R).snapshot) =
        uds.foldl refSave fun R ↦ (σ R).snapshot
  | [], _ => rfl
  | ud :: uds, σ => by
      rw [List.foldl_cons, List.foldl_cons, foldl_updateAt_snapshot hstep uds]
      congr 1
      funext R
      by_cases hR : R = ud.nodeInfo
      · subst hR
        simp only [Saved.updateAt, refSave, Function.update_same, hstep, Saved.takeSnapshot]
        split_ifs <;> simp
      · simp only [Saved.updateAt, refSave, Function.update_noteq hR]
        split_ifs <;> simp [Function.update_noteq hR]

end UpdateAt

/-- The reference's snapshots move as the snapshot reference, call by call. -/
theorem Call.saved_snapshot (σ : NodeInfo → Saved) (call : Call) :
    (fun R ↦ (call.saved σ R).snapshot) = call.ref fun R ↦ (σ R).snapshot := by
  cases call with
  | saveRaftState uds | saveSnapshots uds => exact foldl_updateAt_snapshot (fun _ _ ↦ rfl) uds σ
  | importSnapshot | removeNodeData =>
      funext R
      simp only [Call.saved, Call.ref, Function.update_apply]
      split_ifs <;> rfl
  | _ => rfl

/-! ## The database against the reference -/

/-- The records of replica `⟨c, n⟩`, and its cached max index, hold what `s` keeps. -/
def RecordsRefine (db : DB) (c n : UInt64) (s : Saved) : Prop :=
  db.kvs.get (setStateKey c n) = s.state.map (.state c n) ∧
    db.kvs.get (setMaxIndexKey c n) = s.maxIndex.map (.maxIndex c n) ∧
    db.cs.maxIndex ⟨c, n⟩ = s.maxIndex

/-- The database holds the reference: every cached state is stored, the snapshots and
cached snapshot indexes follow the reference's snapshots, and each replica's state and
max-index records and cached max index follow its state and max index. -/
structure SavedRefine (db : DB) (σ : NodeInfo → Saved) : Prop where
  stateCached : StateCached db
  snapshots : SnapshotsRefine db fun R ↦ (σ R).snapshot
  records : ∀ c n, RecordsRefine db c n (σ ⟨c, n⟩)

theorem SavedRefine.empty : SavedRefine DB.empty fun _ ↦ Saved.empty :=
  ⟨StateCached.empty, SnapshotsRefine.empty, fun _ _ ↦ ⟨rfl, rfl, rfl⟩⟩

/-- A call that leaves a replica's state and max-index records and cached max index
keeps them refining a reference whose state and max index stay. -/
theorem RecordsRefine.frame {db db' : DB} {c n : UInt64} {s s' : Saved}
    (h : RecordsRefine db c n s)
    (hstate : db'.kvs.get (setStateKey c n) = db.kvs.get (setStateKey c n))
    (hmax : db'.kvs.get (setMaxIndexKey c n) = db.kvs.get (setMaxIndexKey c n))
    (hcached : db'.cs.maxIndex ⟨c, n⟩ = db.cs.maxIndex ⟨c, n⟩)
    (hs : (s'.state, s'.maxIndex) = (s.state, s.maxIndex)) : RecordsRefine db' c n s' := by
  obtain ⟨hs₁, hs₂⟩ := Prod.mk.inj hs
  rw [RecordsRefine, hstate, hmax, hcached, hs₁, hs₂]
  exact h

/-- Where every cached state is stored, `saveRaftState` leaves each named replica's state
record at its update's state when not empty: a state the cache drops is the stored
one. -/
theorem get_stateKey_saveRaftState {db db' : DB} {uds : List Update} {ud : Update}
    (hinv : StateCached db) (hnd : (uds.map Update.nodeInfo).Nodup)
    (h : db.call (.saveRaftState uds) = some db') (hud : ud ∈ uds) :
    db'.kvs.get (setStateKey ud.clusterID ud.nodeID) =
      if ud.state.isEmpty then db.kvs.get (setStateKey ud.clusterID ud.nodeID)
      else some (.state ud.clusterID ud.nodeID ud.state) := by
  obtain ⟨-, hkvs, -⟩ := call_saveRaftState hnd h
  rw [hkvs, KV.get_apply, lastWrite_saveRaftState_of_mem hnd hud (keyOf_setStateKey _ _),
    lastWrite_stateKey_entryOps, Option.none_or, lastWrite_stateKey_stageOps, Cache.setState_fst]
  cases ud.state.isEmpty
  · by_cases hch : db.cs.ps ⟨ud.clusterID, ud.nodeID⟩ = some ud.state
    · simpa [hch] using hinv _ _ _ hch
    · simp [hch]
  · rfl

/-- `saveRaftState` over distinct replicas moves each named replica's records as the
reference's `save`. -/
theorem SavedRefine.records_saveRaftState {db db' : DB} {σ : NodeInfo → Saved}
    {uds : List Update} {ud : Update} (hinv : SavedRefine db σ)
    (hnd : (uds.map Update.nodeInfo).Nodup) (h : db.call (.saveRaftState uds) = some db')
    (hud : ud ∈ uds) : RecordsRefine db' ud.clusterID ud.nodeID ((σ ud.nodeInfo).save ud) := by
  obtain ⟨-, hkvs, hcs⟩ := call_saveRaftState hnd h
  obtain ⟨hstate, hmax, hcached⟩ := hinv.records ud.clusterID ud.nodeID
  -- the cache takes the snapshot exactly when the reference does
  have hacc : snapshotAccepted db.cs ud = refTakes (σ ud.nodeInfo).snapshot ud :=
    snapshotAccepted_eq_refTakes (hinv.snapshots ud.clusterID ud.nodeID).2
  refine ⟨?_, ?_, ?_⟩
  · rw [get_stateKey_saveRaftState hinv.stateCached hnd h hud, hstate, Saved.save_state]
    split_ifs <;> rfl
  · rw [hkvs, get_maxIndexKey_saveRaftState _ _ hnd hud, hmax, maxIndexAfter, hacc,
      Saved.save_maxIndex]
    split_ifs <;> rfl
  · show db'.cs.maxIndex ud.nodeInfo = _
    rw [hcs, maxIndex_saveRaftState _ hnd hud, show db.cs.maxIndex ud.nodeInfo = _ from hcached,
      maxIndexAfter, hacc, Saved.save_maxIndex]
    split_ifs <;> rfl

theorem SavedRefine.saveRaftState {db db' : DB} {σ : NodeInfo → Saved} {uds : List Update}
    (hinv : SavedRefine db σ) (hnd : (uds.map Update.nodeInfo).Nodup)
    (h : db.call (.saveRaftState uds) = some db') :
    ∀ c n, RecordsRefine db' c n ((Call.saveRaftState uds).saved σ ⟨c, n⟩) := by
  intro c n
  by_cases hR : (⟨c, n⟩ : NodeInfo) ∈ uds.map Update.nodeInfo
  · obtain ⟨ud, hud, hudR⟩ := List.mem_map.mp hR
    obtain ⟨rfl, rfl⟩ : ud.clusterID = c ∧ ud.nodeID = n := by
      simpa [Update.nodeInfo] using hudR
    rw [Call.saved, show (⟨ud.clusterID, ud.nodeID⟩ : NodeInfo) = ud.nodeInfo from rfl,
      foldl_updateAt_of_mem hnd hud]
    exact hinv.records_saveRaftState hnd h hud
  · obtain ⟨-, hkvs, hcs⟩ := call_saveRaftState hnd h
    rw [Call.saved, foldl_updateAt_of_not_mem hR]
    refine (hinv.records c n).frame ?_ ?_ ?_ rfl
    · rw [hkvs, KV.get_apply, lastWrite_saveRaftState_of_not_mem hR (keyOf_setStateKey c n)]
      rfl
    · rw [hkvs, KV.get_apply, lastWrite_saveRaftState_of_not_mem hR (keyOf_setMaxIndexKey c n)]
      rfl
    · rw [hcs]
      exact (caches_agree_of_not_mem hR).2.1

theorem Call.keepsStateCache_of_keepsSnapshotCache {call : Call}
    (hc : call.keepsSnapshotCache = true) : call.keepsStateCache = true := by
  cases call <;> first | exact hc | rfl

/-- Every call that keeps the cached snapshot indexes moves the database as the
reference. -/
theorem SavedRefine.call {db db' : DB} {σ : NodeInfo → Saved} {call : Call}
    (hinv : SavedRefine db σ) (hc : call.keepsSnapshotCache = true)
    (h : db.call call = some db') : SavedRefine db' (call.saved σ) := by
  refine ⟨hinv.stateCached.call (Call.keepsStateCache_of_keepsSnapshotCache hc) h,
    (Call.saved_snapshot σ call).symm ▸ hinv.snapshots.call hc h, ?_⟩
  cases call with
  | saveRaftState uds => exact hinv.saveRaftState (of_decide_eq_true hc) h
  | saveSnapshots uds =>
      obtain ⟨⟨ops, hkvs, hops⟩, -, hmi⟩ := call_saveSnapshots_frame h
      -- the loop writes snapshot keys only
      have hget : ∀ k, (∀ c n i, setSnapshotKey c n i ≠ k) → db'.kvs.get k = db.kvs.get k :=
        fun k hk ↦ hkvs ▸ KV.get_apply_of_forall_ne _ _ _ fun op hop ↦ by
          obtain ⟨c, n, i, hop⟩ := hops op hop
          exact hop ▸ hk c n i
      exact fun c n ↦ (hinv.records c n).frame
        (hget _ fun _ _ _ ↦ key_ne_of_kind_ne (by decide) _ _)
        (hget _ fun _ _ _ ↦ key_ne_of_kind_ne (by decide) _ _) (congrFun hmi _)
        (@foldl_updateAt_field Saved.saveSnapshot _ (fun s ↦ (s.state, s.maxIndex))
          (fun _ _ ↦ rfl) uds σ _)
  | importSnapshot | removeNodeData => cases hc
  | removeEntriesTo c₀ n₀ index =>
      rw [call_removeEntriesTo h]
      refine fun c n ↦ (hinv.records c n).frame ?_ ?_ rfl rfl
      · rw [KV.get_removeRange, if_neg (MetaKey.not_inRange_entries (Or.inl rfl))]
      · rw [KV.get_removeRange,
          if_neg (MetaKey.not_inRange_entries (Or.inr (Or.inr (Or.inl rfl))))]
  | compact =>
      rw [call_compact h]
      exact hinv.records
  | saveBootstrapInfo c₀ n₀ bs =>
      rw [call_saveBootstrapInfo h]
      refine fun c n ↦ (hinv.records c n).frame ?_ ?_ rfl rfl <;>
        rw [KV.get_put, Record.key_bootstrap, if_neg (by simp)]
  | getSnapshot c₀ n₀ =>
      rw [call_getSnapshot h]
      split
      · exact fun c n ↦ (hinv.records c n).frame rfl rfl (by simp) rfl
      · exact hinv.records

theorem SavedRefine.run {calls : List Call} {db : DB}
    (hcalls : ∀ c ∈ calls, c.keepsSnapshotCache = true) (h : DB.empty.run calls = some db) :
    SavedRefine db (savedRun calls) :=
  run_simulation SavedRefine Call.keepsSnapshotCache Call.saved (fun _ _ _ _ ↦ SavedRefine.call)
    SavedRefine.empty hcalls h

/-! ## Reading the reference back -/

section Reads

variable {db : DB} {σ : NodeInfo → Saved} (hinv : SavedRefine db σ) (c n : UInt64)
include hinv

theorem SavedRefine.getState_eq : getState noFaults db c n = (σ ⟨c, n⟩).getState := by
  rw [getState, KV.getValue, storageCall_noFaults, (hinv.records c n).1, Saved.getState]
  cases (σ ⟨c, n⟩).state <;> rfl

theorem SavedRefine.getMaxIndex_eq : getMaxIndex noFaults db c n = (σ ⟨c, n⟩).getMaxIndex := by
  obtain ⟨-, hmax, hcached⟩ := hinv.records c n
  rw [getMaxIndex, Cache.getMaxIndex, hcached, Saved.getMaxIndex]
  cases hm : (σ ⟨c, n⟩).maxIndex with
  | some v => rfl
  | none => simp [KV.getValue, storageCall_noFaults, hmax, hm]

theorem SavedRefine.readRaftState_eq (entriesGetRange : EntriesGetRange) (snapshotIndex : UInt64) :
    readRaftState entriesGetRange noFaults db c n snapshotIndex =
      (σ ⟨c, n⟩).readRaftState (entriesGetRange db.kvs c n) snapshotIndex := by
  have hstate : getState (fun i ↦ noFaults (i + 1)) db c n = (σ ⟨c, n⟩).getState :=
    hinv.getState_eq c n
  have hrange : getRange entriesGetRange noFaults db c n snapshotIndex =
      (σ ⟨c, n⟩).getRange (entriesGetRange db.kvs c n) snapshotIndex := by
    rw [getRange, hinv.getMaxIndex_eq, Saved.getMaxIndex, Saved.getRange]
    cases (σ ⟨c, n⟩).maxIndex <;> rfl
  rw [readRaftState, hrange, hstate, Saved.readRaftState, Saved.getState]
  rcases (σ ⟨c, n⟩).getRange (entriesGetRange db.kvs c n) snapshotIndex with _ | ⟨_, _⟩ <;>
    cases (σ ⟨c, n⟩).state <;> rfl

theorem SavedRefine.iterateEntries_eq (entriesIterate : EntriesIterate) (ents : List Entry)
    (size low high maxSize : UInt64) :
    iterateEntries entriesIterate noFaults db ents size c n low high maxSize =
      (σ ⟨c, n⟩).iterateEntries
        (fun maxIndex ↦ entriesIterate db.kvs ents maxIndex size c n low high maxSize) ents size
        (iterateEntriesMsg c n low high maxSize) := by
  rw [iterateEntries, hinv.getMaxIndex_eq, Saved.getMaxIndex, Saved.iterateEntries]
  cases (σ ⟨c, n⟩).maxIndex <;> rfl

end Reads

/-- Over every run of calls that keep the cached snapshot indexes, from an empty store
and cache with every storage call succeeding, the database answers a replica's reads as
a store with no cache that keeps its last non-empty state, the max index its last save
set, and its latest snapshot: `getState` returns that state, `getMaxIndex` that index,
each or `ErrNoSavedLog` when nothing was kept, `getSnapshot` that snapshot, or the empty
one, and `readRaftState`, for every entry manager and snapshot index, that state with
the entry manager's range up to that index. -/
theorem run_reads_saved {calls : List Call} {db : DB}
    (hcalls : ∀ c ∈ calls, c.keepsSnapshotCache = true) (h : DB.empty.run calls = some db)
    (entriesGetRange : EntriesGetRange) (c n snapshotIndex : UInt64) :
    getState noFaults db c n = (savedRun calls ⟨c, n⟩).getState ∧
      getMaxIndex noFaults db c n = (savedRun calls ⟨c, n⟩).getMaxIndex ∧
      (getSnapshot noFaults db c n).1 = .ok ((savedRun calls ⟨c, n⟩).snapshot.getD Snapshot.empty) ∧
      readRaftState entriesGetRange noFaults db c n snapshotIndex =
        (savedRun calls ⟨c, n⟩).readRaftState (entriesGetRange db.kvs c n) snapshotIndex := by
  have hinv := SavedRefine.run hcalls h
  exact ⟨hinv.getState_eq c n, hinv.getMaxIndex_eq c n, hinv.snapshots.getSnapshot_fst c n,
    hinv.readRaftState_eq c n entriesGetRange snapshotIndex⟩

/-- A run of calls that keep the caches: entries, states and snapshots saved for two
replicas, a later snapshot saved alone, entries removed, the snapshot read back, and a
newer state with a further entry saved. -/
def readBackCalls : List Call :=
  [.saveRaftState sampleUpdates, .saveSnapshots [snapshotUpdateAt 9], .removeEntriesTo 1 1 6,
    .getSnapshot 1 1, .saveRaftState [⟨1, 1, ⟨2, 1, 8⟩, [⟨8, 2⟩], Snapshot.empty⟩]]

/-- An entry manager that counts the indexes from the snapshot index up to the max index. -/
def countingRange : EntriesGetRange := fun _ _ _ lo hi ↦ .ok (lo + 1, hi - lo)

theorem run_reads_saved_readBack :
    ∃ db, DB.empty.run readBackCalls = some db ∧
      getState noFaults db 1 1 = (savedRun readBackCalls ⟨1, 1⟩).getState ∧
      getMaxIndex noFaults db 1 1 = (savedRun readBackCalls ⟨1, 1⟩).getMaxIndex ∧
      (getSnapshot noFaults db 1 1).1 =
        .ok ((savedRun readBackCalls ⟨1, 1⟩).snapshot.getD Snapshot.empty) ∧
      readRaftState countingRange noFaults db 1 1 5 =
        (savedRun readBackCalls ⟨1, 1⟩).readRaftState (countingRange db.kvs 1 1) 5 :=
  ⟨_, rfl, @run_reads_saved readBackCalls _ (by decide) rfl countingRange 1 1 5⟩

/-- The reference keeps the last state and the max index 8 of the last save, and the
snapshot at 9 saved alone. -/
example : ((savedRun readBackCalls ⟨1, 1⟩).readRaftState (fun lo hi ↦ .ok (lo + 1, hi - lo)) 5,
    (savedRun readBackCalls ⟨1, 1⟩).snapshot.map (·.index)) = (.ok ⟨⟨2, 1, 8⟩, 6, 3⟩, some 9) :=
  rfl

/-- Over every run of calls that keep the cached snapshot indexes, from an empty store
and cache with every storage call succeeding, `iterateEntries` reads as the store with
no cache: when nothing set the replica's max index it returns the entries and size it
was given, with no error; otherwise it returns the entry manager's entries and size for
the range up to the max index the last save set, and the entry manager's error, if any,
wrapped with the message naming the replica and the arguments. -/
theorem run_iterateEntries_reads_saved {calls : List Call} {db : DB}
    (hcalls : ∀ c ∈ calls, c.keepsSnapshotCache = true) (h : DB.empty.run calls = some db)
    (entriesIterate : EntriesIterate) (ents : List Entry) (size c n low high maxSize : UInt64) :
    iterateEntries entriesIterate noFaults db ents size c n low high maxSize =
      (savedRun calls ⟨c, n⟩).iterateEntries
        (fun maxIndex ↦ entriesIterate db.kvs ents maxIndex size c n low high maxSize) ents size
        (iterateEntriesMsg c n low high maxSize) :=
  (SavedRefine.run hcalls h).iterateEntries_eq c n entriesIterate ents size low high maxSize

/-- An entry manager that reads nothing and fails. -/
def failingIterate : EntriesIterate := fun _ ents _ size _ _ _ _ _ ↦ (ents, size, some (.storage 3))

theorem run_iterateEntries_reads_saved_readBack :
    ∃ db, DB.empty.run readBackCalls = some db ∧
      iterateEntries failingIterate noFaults db [] 0 1 1 6 9 100 =
        (savedRun readBackCalls ⟨1, 1⟩).iterateEntries
          (fun maxIndex ↦ failingIterate db.kvs [] maxIndex 0 1 1 6 9 100) [] 0
          (iterateEntriesMsg 1 1 6 9 100) :=
  ⟨_, rfl, @run_iterateEntries_reads_saved readBackCalls _ (by decide) rfl failingIterate [] 0
    1 1 6 9 100⟩

/-- The failure is reported against replica `[00001:00001]` and the max index 8. -/
example : (DB.empty.run readBackCalls).map (fun db ↦
    (iterateEntries failingIterate noFaults db [] 0 1 1 6 9 100).2.2) =
      some (some ⟨"[00001:00001] failed to iterate entries, 6, 9, 100, 8", .storage 3⟩) := by
  decide

end TugboatLogdb
