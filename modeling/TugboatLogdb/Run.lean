import TugboatLogdb.SaveRaftState
import TugboatLogdb.RemoveNodeData

/-!
# Runs of the database

A run is a sequence of calls on one database, with every storage call
succeeding.  What each call does to the store and to the cache is stated once
here, so that an invariant of runs is proved call by call.
-/

namespace TugboatLogdb

/-- The calls of a run that may change the database. -/
inductive Call
  | saveRaftState (updates : List Update)
  | saveSnapshots (updates : List Update)
  | importSnapshot (ss : Snapshot) (nodeID : UInt64)
  | removeNodeData (clusterID nodeID : UInt64)
  | removeEntriesTo (clusterID nodeID index : UInt64)
  | compact (clusterID nodeID index : UInt64)
  | saveBootstrapInfo (clusterID nodeID : UInt64) (bs : Bootstrap)
  | getSnapshot (clusterID nodeID : UInt64)

/-- The database after a call with every storage call succeeding; `none` when the call
panics. -/
def DB.call (db : DB) : Call → Option DB
  | .saveRaftState updates =>
      match saveRaftState noFaults db updates with
      | .ok (_, db') => some db'
      | .error _ => none
  | .saveSnapshots updates => some (saveSnapshots noFaults db updates).2
  | .importSnapshot ss nodeID =>
      match importSnapshot noFaults db ss nodeID with
      | .ok (_, db') => some db'
      | .error _ => none
  | .removeNodeData c n => some (removeNodeData noFaults db c n).2
  | .removeEntriesTo c n index =>
      match removeEntriesTo noFaults 0 db.kvs c n index with
      | .ok kvs => some { db with kvs }
      | .error _ => some db
  | .compact c n index =>
      match compact noFaults 0 db.kvs c n index with
      | .ok kvs => some { db with kvs }
      | .error _ => some db
  | .saveBootstrapInfo c n bs => some (saveBootstrapInfo noFaults db c n bs).2
  | .getSnapshot c n => some (getSnapshot noFaults db c n).2

/-- The database after a sequence of calls; `none` when one of them panics. -/
def DB.run (db : DB) : List Call → Option DB
  | [] => some db
  | c :: calls => (db.call c).bind fun db' ↦ db'.run calls

theorem DB.run_singleton (db : DB) (call : Call) : db.run [call] = db.call call := by
  simp [DB.run]

theorem DB.run_append (db : DB) (calls₁ calls₂ : List Call) :
    db.run (calls₁ ++ calls₂) = (db.run calls₁).bind (·.run calls₂) := by
  induction calls₁ generalizing db with
  | nil => rfl
  | cons call calls₁ ih =>
      simp only [DB.run, List.append_eq, Option.bind_assoc, ih]

/-- A relation between the database and an abstract state that every allowed call
keeps, the abstract state taking the call's own step, holds after every run of
allowed calls. -/
theorem run_simulation {α : Type} (R : DB → α → Prop) (allowed : Call → Bool)
    (step : α → Call → α)
    (hstep : ∀ db c db' a, R db a → allowed c = true → db.call c = some db' → R db' (step a c)) :
    ∀ {db db' : DB} {a : α} {calls : List Call}, R db a → (∀ c ∈ calls, allowed c = true) →
      db.run calls = some db' → R db' (calls.foldl step a)
  | db, db', a, [], hR, _, h => by
      cases h
      exact hR
  | db, db', a, c :: calls, hR, hall, h => by
      rw [DB.run] at h
      cases hc : db.call c with
      | none => simp [hc] at h
      | some db₁ =>
          rw [hc, Option.some_bind] at h
          show R db' (calls.foldl step (step a c))
          exact run_simulation R allowed step hstep
            (hstep db c db₁ a hR (hall c (List.mem_cons_self _ _)) hc)
            (fun c' hc' ↦ hall c' (List.mem_cons_of_mem _ hc')) h

/-- A property that every allowed call keeps holds after every run of allowed calls. -/
theorem run_invariant (P : DB → Prop) (allowed : Call → Bool)
    (hstep : ∀ db c db', P db → allowed c = true → db.call c = some db' → P db')
    {db db' : DB} {calls : List Call} (hP : P db) (hall : ∀ c ∈ calls, allowed c = true)
    (h : db.run calls = some db') : P db' :=
  @run_simulation Unit (fun db _ ↦ P db) allowed (fun _ _ ↦ ())
    (fun db c db' _ ↦ hstep db c db') db db' () calls hP hall h

/-! ## What each call does with no storage fault -/

theorem saveSnapshot_noFaults (i : Nat) (kvs : KV) (wb : WriteBatch) (ud : Update) :
    saveSnapshot noFaults i kvs wb ud =
      .ok ⟨wb.ops ++ if ud.snapshot.isEmpty then [] else snapshotOps kvs ud⟩ := by
  cases hne : ud.snapshot.isEmpty
  · rw [saveSnapshot_of_isEmpty_false ud hne, storageCall_noFaults]
    simp [deleteOlderSnapshots_eq, WriteBatch.put, snapshotOps, Functor.map, Except.map]
  · simp [saveSnapshot, hne]

theorem stageUpdate_noFaults {kvs : KV} {st : Staging} {ud : Update} {cs : Cache} :
    stageUpdate noFaults kvs st ud ≠ .error (.returnNil cs) := by
  intro h
  simp only [stageUpdate, saveState_eq, saveSnapshot_noFaults] at h
  split at h
  · cases h
  · split at h
    · cases h
    · split at h <;> cases h

theorem stageUpdates_noFaults {kvs : KV} {cs : Cache} :
    ∀ {st : Staging} {uds : List Update}, stageUpdates noFaults kvs st uds ≠ .error (.returnNil cs)
  | st, [] => by simp [stageUpdates]
  | st, ud :: uds => by
      rw [stageUpdates]
      cases h₁ : stageUpdate noFaults kvs st ud with
      | ok st₁ => exact stageUpdates_noFaults
      | error e =>
          rintro ⟨⟩
          exact stageUpdate_noFaults h₁

/-- With no storage fault `saveRaftState` runs its first loop to the end and returns
`nil`, unless it panics. -/
theorem saveRaftState_noFaults {db db' : DB} {uds : List Update} {r : Option Err}
    (h : saveRaftState noFaults db uds = .ok (r, db')) :
    r = none ∧ ∃ st, stageUpdates noFaults db.kvs ⟨.empty, db.cs, 0⟩ uds = .ok st := by
  unfold saveRaftState at h
  split at h
  · cases h
  · next cs hcs => exact absurd hcs stageUpdates_noFaults
  · next st hst =>
      refine ⟨?_, st, hst⟩
      dsimp only at h
      split at h
      · simp only [KV.commitWriteBatch, storageCall_noFaults] at h
        cases h
        rfl
      · cases h
        rfl

theorem call_saveRaftState {db db' : DB} {uds : List Update}
    (hnd : (uds.map Update.nodeInfo).Nodup) (h : db.call (.saveRaftState uds) = some db') :
    saveRaftState noFaults db uds = .ok (none, db') ∧
      db'.kvs = db.kvs.apply ⟨uds.flatMap (stageOps db.kvs db.cs) ++ uds.flatMap entryOps⟩ ∧
      db'.cs = uds.foldl entryCache (uds.foldl stageCache db.cs) := by
  simp only [DB.call] at h
  split at h
  · next r db₁ hr =>
      cases h
      obtain ⟨rfl, st, hst⟩ := saveRaftState_noFaults hr
      exact ⟨hr, saveRaftState_eq_none_of_distinct hnd hst hr⟩
  · cases h

/-- `saveRaftState`, over any updates, commits what its first loop staged followed by
each update's entries, and leaves the caches both loops fold. -/
theorem call_saveRaftState_thread {db db' : DB} {uds : List Update}
    (h : db.call (.saveRaftState uds) = some db') :
    db'.kvs = db.kvs.apply ⟨threadOps (stageOps db.kvs) stageCache db.cs uds ++
        uds.flatMap entryOps⟩ ∧
      db'.cs = uds.foldl entryCache (uds.foldl stageCache db.cs) := by
  simp only [DB.call] at h
  split at h
  · next r db₁ hr =>
      cases h
      obtain ⟨rfl, st, hst⟩ := saveRaftState_noFaults hr
      obtain ⟨hwb, hcs⟩ := stageUpdates_thread hst
      rcases saveRaftState_of_stageUpdates hst with h' | ⟨e, h'⟩ <;> rw [hr] at h' <;> cases h'
      simp [saveEntries_eq, hwb, hcs, WriteBatch.empty]
  · cases h

/-! ## The loop of `saveSnapshots` -/

/-- The loop of `saveSnapshots` stages operations on snapshot keys only, and changes
only the cached snapshot indexes. -/
theorem stageSnapshots_frame {f : Faults} {kvs : KV} :
    ∀ {st st' : Staging} {toSave toSave' : Bool} {uds : List Update},
      stageSnapshots f kvs st toSave uds = .ok (st', toSave') →
      (∃ ops, st'.wb = ⟨st.wb.ops ++ ops⟩ ∧ ∀ op ∈ ops, ∃ c n i, op.key = setSnapshotKey c n i) ∧
        st'.cs.ps = st.cs.ps ∧ st'.cs.maxIndex = st.cs.maxIndex
  | st, st', toSave, toSave', [], h => by
      cases h
      exact ⟨⟨[], by simp, by simp⟩, rfl, rfl⟩
  | st, st', toSave, toSave', ud :: uds, h => by
      rw [stageSnapshots] at h
      split at h
      · exact stageSnapshots_frame h
      · rw [Cache.trySaveSnapshot_eq] at h
        by_cases hlt : (st.cs.snapshotIndex ⟨ud.clusterID, ud.nodeID⟩).getD 0 < ud.snapshot.index
        · simp only [hlt, if_true] at h
          cases hs : saveSnapshot f st.calls kvs st.wb ud with
          | error e => simp [hs] at h
          | ok wb =>
              simp only [hs] at h
              obtain ⟨⟨ops, hwb, hops⟩, hps, hmi⟩ := stageSnapshots_frame h
              obtain ⟨ops₀, rfl, hops₀⟩ := saveSnapshot_ok hs
              refine ⟨⟨ops₀ ++ ops, by rw [hwb, List.append_assoc], fun op hop ↦ ?_⟩,
                by rw [hps]; rfl, by rw [hmi]; rfl⟩
              rcases List.mem_append.mp hop with hop | hop
              · obtain ⟨j, hj⟩ := hops₀ op hop
                exact ⟨_, _, _, hj⟩
              · exact hops op hop
        · simp only [hlt, if_false] at h
          exact stageSnapshots_frame h

/-- What the loop of `saveSnapshots` stages for `ud`: its snapshot, when the cache
takes it. -/
def snapshotsOps (kvs : KV) (cs : Cache) (ud : Update) : List Op :=
  if snapshotAccepted cs ud then snapshotOps kvs ud else []

/-- The cache after the loop of `saveSnapshots` handles `ud`. -/
def snapshotsCache (cs : Cache) (ud : Update) : Cache :=
  if snapshotAccepted cs ud then cs.setSnapshotIndex ud.clusterID ud.nodeID ud.snapshot.index
  else cs

theorem snapshotsOps_keyOf (kvs : KV) (cs : Cache) (ud : Update) :
    ∀ op ∈ snapshotsOps kvs cs ud, KeyOf ud.nodeInfo op.key := by
  unfold snapshotsOps snapshotOps
  split_ifs
  · simp only [List.mem_append, List.mem_map, List.mem_singleton, or_imp, forall_and,
      forall_exists_index, and_imp, forall_apply_eq_imp_iff₂, forall_eq]
    exact ⟨fun _ _ ↦ keyOf_setSnapshotKey _ _ _, keyOf_setSnapshotKey _ _ _⟩
  · simp

theorem snapshotsCache_agree_of_ne {cs : Cache} {ud : Update} {R : NodeInfo}
    (h : ud.nodeInfo ≠ R) : Cache.Agree R (snapshotsCache cs ud) cs := by
  have h' : R ≠ ⟨ud.clusterID, ud.nodeID⟩ := Ne.symm h
  unfold snapshotsCache
  split_ifs <;> simp [Cache.Agree, Function.update_noteq h']

theorem snapshotsCache_congr {cs cs' : Cache} {ud : Update} (h : Cache.Agree ud.nodeInfo cs cs') :
    Cache.Agree ud.nodeInfo (snapshotsCache cs ud) (snapshotsCache cs' ud) := by
  have hacc := snapshotAccepted_congr h
  obtain ⟨h₁, h₂, h₃⟩ := h
  unfold snapshotsCache
  rw [hacc]
  split_ifs <;> simp_all [Cache.Agree, Update.nodeInfo]

theorem snapshotsOps_congr {kvs : KV} {cs cs' : Cache} {ud : Update}
    (h : Cache.Agree ud.nodeInfo cs cs') : snapshotsOps kvs cs ud = snapshotsOps kvs cs' ud := by
  rw [snapshotsOps, snapshotsOps, snapshotAccepted_congr h]

/-- One round of the loop of `saveSnapshots` with no storage fault. -/
theorem stageSnapshots_cons_noFaults (kvs : KV) (st : Staging) (toSave : Bool) (ud : Update)
    (uds : List Update) :
    ∃ st₁ toSave₁, stageSnapshots noFaults kvs st toSave (ud :: uds) =
        stageSnapshots noFaults kvs st₁ toSave₁ uds ∧
      st₁.wb = ⟨st.wb.ops ++ snapshotsOps kvs st.cs ud⟩ ∧ st₁.cs = snapshotsCache st.cs ud := by
  rw [stageSnapshots]
  unfold snapshotsOps snapshotsCache snapshotAccepted
  cases hne : ud.snapshot.isEmpty
  · simp only [if_false, Bool.false_eq_true, Bool.not_false, Bool.true_and,
      Cache.trySaveSnapshot_eq, Cache.trySaveSnapshot_fst]
    by_cases hlt : (st.cs.snapshotIndex ⟨ud.clusterID, ud.nodeID⟩).getD 0 < ud.snapshot.index
    · simp only [hlt, if_true, decide_True, saveSnapshot_noFaults, hne]
      exact ⟨_, _, rfl, by simp, rfl⟩
    · simp only [hlt, if_false, decide_False]
      exact ⟨_, _, rfl, by simp, rfl⟩
  · simp only [if_true, Bool.not_true, Bool.false_and, Bool.false_eq_true, if_false]
    exact ⟨st, toSave, rfl, by simp, rfl⟩

theorem stageSnapshots_noFaults_ok (kvs : KV) :
    ∀ (st : Staging) (toSave : Bool) (uds : List Update),
      ∃ st' toSave', stageSnapshots noFaults kvs st toSave uds = .ok (st', toSave')
  | st, toSave, [] => ⟨st, toSave, rfl⟩
  | st, toSave, ud :: uds => by
      obtain ⟨st₁, toSave₁, hstep, -⟩ := stageSnapshots_cons_noFaults kvs st toSave ud uds
      rw [hstep]
      exact stageSnapshots_noFaults_ok kvs st₁ toSave₁ uds

/-- With no storage fault, the loop of `saveSnapshots` over updates that name distinct
replicas stages each update's own operations against the starting cache. -/
theorem stageSnapshots_noFaults {kvs : KV} :
    ∀ {st : Staging} {toSave : Bool} {uds : List Update}, (uds.map Update.nodeInfo).Nodup →
      ∃ st' toSave', stageSnapshots noFaults kvs st toSave uds = .ok (st', toSave') ∧
        st'.wb = ⟨st.wb.ops ++ uds.flatMap (snapshotsOps kvs st.cs)⟩ ∧
        st'.cs = uds.foldl snapshotsCache st.cs
  | st, toSave, [], _ => ⟨st, toSave, rfl, by simp, rfl⟩
  | st, toSave, ud :: uds, hnd => by
      rw [List.map_cons, List.nodup_cons] at hnd
      obtain ⟨st₁, toSave₁, hstep, hwb₁, hcs₁⟩ := stageSnapshots_cons_noFaults kvs st toSave ud uds
      obtain ⟨st', toSave', hrun, hwb, hcs⟩ := @stageSnapshots_noFaults kvs st₁ toSave₁ uds hnd.2
      refine ⟨st', toSave', hstep.trans hrun, ?_, by rw [hcs, hcs₁]; rfl⟩
      rw [hwb, hwb₁, List.flatMap_cons, List.append_assoc,
        List.flatMap_congr fun u hu ↦ snapshotsOps_congr (hcs₁ ▸
          snapshotsCache_agree_of_ne fun h ↦ hnd.1 (h ▸ List.mem_map_of_mem _ hu))]

theorem saveSnapshots_noFaults {db : DB} {uds : List Update} {st : Staging} {toSave : Bool}
    (h : stageSnapshots noFaults db.kvs ⟨.empty, db.cs, 0⟩ false uds = .ok (st, toSave)) :
    saveSnapshots noFaults db uds = (none, ⟨db.kvs.apply st.wb, st.cs⟩) := by
  unfold saveSnapshots
  rw [h]
  cases toSave
  · rw [(stageSnapshots_of_not_toSave h).2]
    rfl
  · rfl

/-! ## Each call -/

/-- `saveSnapshots` writes snapshot keys only, and changes only cached snapshot
indexes. -/
theorem call_saveSnapshots_frame {db db' : DB} {uds : List Update}
    (h : db.call (.saveSnapshots uds) = some db') :
    (∃ ops, db'.kvs = db.kvs.apply ⟨ops⟩ ∧ ∀ op ∈ ops, ∃ c n i, op.key = setSnapshotKey c n i) ∧
      db'.cs.ps = db.cs.ps ∧ db'.cs.maxIndex = db.cs.maxIndex := by
  cases h
  obtain ⟨st, toSave, hst⟩ := stageSnapshots_noFaults_ok db.kvs ⟨.empty, db.cs, 0⟩ false uds
  rw [saveSnapshots_noFaults hst]
  obtain ⟨⟨ops, hwb, hops⟩, hps, hmi⟩ := stageSnapshots_frame hst
  exact ⟨⟨ops, by rw [hwb]; rfl, hops⟩, hps, hmi⟩

theorem call_saveSnapshots {db db' : DB} {uds : List Update}
    (hnd : (uds.map Update.nodeInfo).Nodup) (h : db.call (.saveSnapshots uds) = some db') :
    db'.kvs = db.kvs.apply ⟨uds.flatMap (snapshotsOps db.kvs db.cs)⟩ ∧
      db'.cs = uds.foldl snapshotsCache db.cs := by
  cases h
  obtain ⟨st, toSave, hst, hwb, hcs⟩ :=
    @stageSnapshots_noFaults db.kvs ⟨.empty, db.cs, 0⟩ false uds hnd
  rw [saveSnapshots_noFaults hst, hwb, hcs]
  exact ⟨rfl, rfl⟩

theorem call_removeNodeData {db db' : DB} {c n : UInt64}
    (h : db.call (.removeNodeData c n) = some db') :
    db'.kvs = (db.kvs.apply (saveRemoveNodeData .empty (db.kvs.snapshotsOf c n) c n)).removeRange
        (setEntryKey c n 0) (setEntryKey c n MaxUint64) ∧
      db'.cs = db.cs.setMaxIndex c n 0 := by
  cases h
  exact @removeNodeData_eq_none noFaults db _ c n rfl

theorem call_removeEntriesTo {db db' : DB} {c n index : UInt64}
    (h : db.call (.removeEntriesTo c n index) = some db') :
    db' = { db with kvs := db.kvs.removeRange (setEntryKey c n 0) (setEntryKey c n index) } := by
  cases h
  rfl

theorem call_compact {db db' : DB} {c n index : UInt64}
    (h : db.call (.compact c n index) = some db') : db' = db := by
  cases h
  rfl

theorem call_saveBootstrapInfo {db db' : DB} {c n : UInt64} {bs : Bootstrap}
    (h : db.call (.saveBootstrapInfo c n bs) = some db') :
    db' = { db with kvs := db.kvs.put (.bootstrap c n bs) } := by
  cases h
  rfl

theorem call_getSnapshot {db db' : DB} {c n : UInt64}
    (h : db.call (.getSnapshot c n) = some db') :
    db' = match (db.kvs.snapshotsOf c n).getLast? with
      | some ss => { db with cs := db.cs.setSnapshotIndex c n ss.index }
      | none => db := by
  cases h
  simp only [getSnapshot, listSnapshots_eq, storageCall_noFaults]
  cases (db.kvs.snapshotsOf c n).getLast? <;> rfl

end TugboatLogdb
