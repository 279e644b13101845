import TugboatLogdb.Staging

/-!
# Saving raft state

`saveRaftState` and `saveSnapshots` stage one batch and commit it once, so the
store moves to the whole batch or stays where it was.  The replica cache does
not follow the store: it is written while the batch is staged, before the
commit, and nothing restores it when the commit fails.  When listing a
replica's snapshots fails, both functions return `nil` without committing.
-/

namespace TugboatLogdb

theorem WriteBatch.eq_empty_of_count {wb : WriteBatch} (h : ¬ 0 < wb.count) :
    wb = .empty := by
  obtain ⟨ops⟩ := wb
  have : ops = [] := List.eq_nil_of_length_eq_zero (Nat.eq_zero_of_not_pos h)
  rw [this]
  rfl

/-- When the first loop runs to its end, `saveRaftState` commits the whole batch the
two loops staged, or returns the commit's error with the store as it was; either
way the cache is the one the loops left. -/
theorem saveRaftState_of_stageUpdates {f : Faults} {db : DB} {updates : List Update}
    {st : Staging} (h : stageUpdates f db.kvs ⟨.empty, db.cs, 0⟩ updates = .ok st) :
    saveRaftState f db updates = .ok (none, ⟨db.kvs.apply (saveEntries st.wb st.cs updates).1,
        (saveEntries st.wb st.cs updates).2⟩) ∨
      ∃ e, saveRaftState f db updates =
        .ok (some e, ⟨db.kvs, (saveEntries st.wb st.cs updates).2⟩) := by
  unfold saveRaftState
  rw [h]
  dsimp only
  split
  · unfold KV.commitWriteBatch storageCall
    cases f st.calls
    · exact .inl rfl
    · exact .inr ⟨_, rfl⟩
  · next hc => rw [WriteBatch.eq_empty_of_count hc]; exact .inl rfl

/-- The loop of `saveSnapshots` reports nothing to save only when it staged nothing. -/
theorem stageSnapshots_of_not_toSave {f : Faults} {kvs : KV} :
    ∀ {st st' : Staging} {toSave : Bool} {uds : List Update},
      stageSnapshots f kvs st toSave uds = .ok (st', false) → toSave = false ∧ st'.wb = st.wb
  | st, st', toSave, [], h => by
      cases h
      exact ⟨rfl, rfl⟩
  | st, st', toSave, ud :: uds, h => by
      rw [stageSnapshots] at h
      split at h
      · exact stageSnapshots_of_not_toSave h
      · split at h
        · exact (stageSnapshots_of_not_toSave h :)
        · split at h
          · cases h
          · exact absurd (stageSnapshots_of_not_toSave h).1 (by decide)

/-- When its loop runs to its end, `saveSnapshots` commits the whole batch it staged,
or returns the commit's error with the store as it was; either way the cache is the
one the loop left. -/
theorem saveSnapshots_of_stageSnapshots {f : Faults} {db : DB} {updates : List Update}
    {st : Staging} {toSave : Bool}
    (h : stageSnapshots f db.kvs ⟨.empty, db.cs, 0⟩ false updates = .ok (st, toSave)) :
    saveSnapshots f db updates = (none, ⟨db.kvs.apply st.wb, st.cs⟩) ∨
      ∃ e, saveSnapshots f db updates = (some e, ⟨db.kvs, st.cs⟩) := by
  unfold saveSnapshots
  rw [h]
  dsimp only
  cases toSave
  · rw [if_neg Bool.false_ne_true, (stageSnapshots_of_not_toSave h).2]
    exact .inl rfl
  · rw [if_pos rfl]
    unfold KV.commitWriteBatch storageCall
    cases f st.calls
    · exact .inl rfl
    · exact .inr ⟨_, rfl⟩

/-- An update that carries only a state. -/
def stateUpdate : Update := ⟨1, 1, ⟨1, 1, 1⟩, [], Snapshot.empty⟩

/-- The first loop writes `ud`'s max-index key last with the snapshot's index, when it
takes the snapshot. -/
theorem lastWrite_maxIndexKey_stageOps (kvs : KV) (cs : Cache) (ud : Update) :
    lastWrite (setMaxIndexKey ud.clusterID ud.nodeID) (stageOps kvs cs ud) =
      if snapshotAccepted cs ud then
        some (some (.maxIndex ud.clusterID ud.nodeID ud.snapshot.index))
      else none := by
  unfold stageOps
  split
  · simp
  · rw [List.append_nil]
    refine lastWrite_eq_none fun op hop ↦ ?_
    unfold stateOps at hop
    split at hop <;> simp_all

/-- The second loop writes `ud`'s max-index key last with the index its entries reach,
when that is positive. -/
theorem lastWrite_maxIndexKey_entryOps (ud : Update) :
    lastWrite (setMaxIndexKey ud.clusterID ud.nodeID) (entryOps ud) =
      if 0 < ud.recordIndex then some (some (.maxIndex ud.clusterID ud.nodeID ud.recordIndex))
      else none := by
  unfold entryOps
  split
  · simp
  · rw [List.append_nil]
    exact lastWrite_eq_none (by simp)

theorem stageCache_maxIndex (cs : Cache) (ud : Update) :
    (stageCache cs ud).maxIndex ud.nodeInfo =
      if snapshotAccepted cs ud then some ud.snapshot.index else cs.maxIndex ud.nodeInfo := by
  unfold stageCache
  split <;> simp [Update.nodeInfo]

theorem entryCache_maxIndex (cs : Cache) (ud : Update) :
    (entryCache cs ud).maxIndex ud.nodeInfo =
      if 0 < ud.recordIndex then some ud.recordIndex else cs.maxIndex ud.nodeInfo := by
  unfold entryCache
  split <;> simp [Update.nodeInfo]

/-- Past the `max index not handled` check, entries that reach a positive index reach
the snapshot's index too. -/
theorem snapshot_index_le_recordIndex {ud : Update} (h : maxIndexNotHandled ud = none)
    (hpos : 0 < ud.recordIndex) : ud.snapshot.index ≤ ud.recordIndex := by
  unfold maxIndexNotHandled at h
  cases hl : ud.entriesToSave.getLast? with
  | none =>
      rw [List.getLast?_eq_none_iff] at hl
      simp [Update.recordIndex, hl, PlainEntries.record] at hpos
  | some e =>
      rw [hl] at h
      have hlt : ¬ e.index < ud.snapshot.index := fun hlt ↦ by simp [hlt] at h
      have hle : ud.snapshot.index ≤ e.index := by
        rw [u64_lt_iff] at hlt
        rw [u64_le_iff]
        omega
      exact UInt64.le_trans hle
        (PlainEntries.index_le_record _ _ _ _ e (List.mem_of_getLast?_eq_some hl))

/-- After both loops over updates that name distinct replicas, and a `nil` return:
the store with each update's operations committed, and the cache folded update by
update. -/
theorem saveRaftState_eq_none_of_distinct {f : Faults} {db db' : DB} {updates : List Update}
    {st : Staging} (hnd : (updates.map Update.nodeInfo).Nodup)
    (hst : stageUpdates f db.kvs ⟨.empty, db.cs, 0⟩ updates = .ok st)
    (h : saveRaftState f db updates = .ok (none, db')) :
    db'.kvs = db.kvs.apply ⟨updates.flatMap (stageOps db.kvs db.cs) ++ updates.flatMap entryOps⟩ ∧
      db'.cs = updates.foldl entryCache (updates.foldl stageCache db.cs) := by
  obtain ⟨hwb, hcs, -⟩ := stageUpdates_eq_ok hst hnd
  rcases saveRaftState_of_stageUpdates hst with h' | ⟨e, h'⟩
  · rw [h, saveEntries_eq, hwb, hcs] at h'
    cases h'
    exact ⟨by simp [WriteBatch.empty], rfl⟩
  · rw [h] at h'
    cases h'

/-- The max index `saveRaftState` gives `ud`'s replica: the index its entries reach
when positive, else its snapshot's index when the cache `cs` takes the snapshot;
`none` when it leaves the replica's max index as it was. -/
def maxIndexAfter (cs : Cache) (ud : Update) : Option UInt64 :=
  if 0 < ud.recordIndex then some ud.recordIndex
  else if snapshotAccepted cs ud then some ud.snapshot.index else none

theorem get_maxIndexKey_saveRaftState (kvs : KV) (cs : Cache) {uds : List Update} {ud : Update}
    (hnd : (uds.map Update.nodeInfo).Nodup) (hud : ud ∈ uds) :
    (kvs.apply ⟨uds.flatMap (stageOps kvs cs) ++ uds.flatMap entryOps⟩).get
        (setMaxIndexKey ud.clusterID ud.nodeID) =
      ((maxIndexAfter cs ud).map (.maxIndex ud.clusterID ud.nodeID)).or
        (kvs.get (setMaxIndexKey ud.clusterID ud.nodeID)) := by
  rw [KV.get_apply,
    lastWrite_saveRaftState_of_mem hnd hud (keyOf_setMaxIndexKey ud.clusterID ud.nodeID),
    lastWrite_maxIndexKey_entryOps, lastWrite_maxIndexKey_stageOps, maxIndexAfter]
  split_ifs <;> rfl

theorem maxIndex_saveRaftState (cs : Cache) {uds : List Update} {ud : Update}
    (hnd : (uds.map Update.nodeInfo).Nodup) (hud : ud ∈ uds) :
    (uds.foldl entryCache (uds.foldl stageCache cs)).maxIndex ud.nodeInfo =
      (maxIndexAfter cs ud).or (cs.maxIndex ud.nodeInfo) := by
  rw [(caches_agree_of_mem hnd hud).2.1, entryCache_maxIndex, stageCache_maxIndex, maxIndexAfter]
  split_ifs <;> rfl

/-- What `saveRaftState` leaves, from `db` to `db'`, for the max index of `ud`'s
replica: the stored record and the cached value both follow `maxIndexAfter`, which
covers the snapshot taken. -/
structure MaxIndexSaved (db db' : DB) (ud : Update) : Prop where
  stored : db'.kvs.get (setMaxIndexKey ud.clusterID ud.nodeID) =
    ((maxIndexAfter db.cs ud).map (.maxIndex ud.clusterID ud.nodeID)).or
      (db.kvs.get (setMaxIndexKey ud.clusterID ud.nodeID))
  cached : db'.cs.maxIndex ud.nodeInfo = (maxIndexAfter db.cs ud).or (db.cs.maxIndex ud.nodeInfo)
  covers_snapshot : snapshotAccepted db.cs ud = true →
    ∃ v, maxIndexAfter db.cs ud = some v ∧ ud.snapshot.index ≤ v

/-- When `saveRaftState` returns `nil` after listing every snapshot it needed, over
updates that name distinct replicas: each replica named gets the max index of its
update, in the store and in the cache alike, at least its accepted snapshot's index;
and no record of a replica not named changes. -/
theorem saveRaftState_sets_maxIndex (f : Faults) (db db' : DB) (updates : List Update)
    (hnd : (updates.map Update.nodeInfo).Nodup)
    (hlist : ∃ st, stageUpdates f db.kvs ⟨.empty, db.cs, 0⟩ updates = .ok st)
    (h : saveRaftState f db updates = .ok (none, db')) :
    (∀ ud ∈ updates, MaxIndexSaved db db' ud) ∧
      ∀ R ∉ updates.map Update.nodeInfo, ∀ k, KeyOf R k → db'.kvs.get k = db.kvs.get k := by
  obtain ⟨st, hst⟩ := hlist
  obtain ⟨hkvs, hcs⟩ := saveRaftState_eq_none_of_distinct hnd hst h
  refine ⟨fun ud hud ↦ ⟨?_, ?_, fun hacc ↦ ?_⟩, fun R hR k hk ↦ ?_⟩
  · rw [hkvs]
    exact get_maxIndexKey_saveRaftState _ _ hnd hud
  · rw [hcs]
    exact maxIndex_saveRaftState _ hnd hud
  · unfold maxIndexAfter
    split_ifs with hpos
    · exact ⟨_, rfl,
        snapshot_index_le_recordIndex ((stageUpdates_eq_ok hst hnd).2.2 ud hud hacc) hpos⟩
    · exact ⟨_, rfl, UInt64.le_refl _⟩
  · rw [hkvs, KV.get_apply, lastWrite_saveRaftState_of_not_mem hR hk]
    rfl

/-- Two replicas in one call: entries up to 7 with a snapshot at 5, and a snapshot
at 4 alone. -/
def sampleUpdates : List Update :=
  [⟨1, 1, ⟨1, 1, 7⟩, [⟨6, 1⟩, ⟨7, 1⟩], ⟨5, 1, 1, .regularStateMachine⟩⟩,
    ⟨1, 2, ⟨0, 0, 0⟩, [], ⟨4, 1, 1, .regularStateMachine⟩⟩]

theorem saveRaftState_sets_maxIndex_sample :
    ∃ db', saveRaftState noFaults DB.empty sampleUpdates = .ok (none, db') ∧
      (∀ ud ∈ sampleUpdates, MaxIndexSaved DB.empty db' ud) ∧
      ∀ R ∉ sampleUpdates.map Update.nodeInfo, ∀ k, KeyOf R k →
        db'.kvs.get k = DB.empty.kvs.get k :=
  ⟨_, rfl, saveRaftState_sets_maxIndex noFaults DB.empty _ sampleUpdates (by decide) ⟨_, rfl⟩ rfl⟩

/-- An update that carries only a snapshot, at index 5. -/
def snapshotUpdate : Update := ⟨1, 1, ⟨0, 0, 0⟩, [], ⟨5, 1, 1, .regularStateMachine⟩⟩

/-- Listing the replica's snapshots fails: the cache takes the snapshot, and
`saveRaftState` returns `nil` with no max index stored or cached. -/
theorem saveRaftState_failed_listing_returns_nil :
    ∃ db', saveRaftState (fun i ↦ i == 0) DB.empty [snapshotUpdate] = .ok (none, db') ∧
      snapshotAccepted DB.empty.cs snapshotUpdate = true ∧
      db'.kvs.get (setMaxIndexKey 1 1) = none ∧ db'.cs.maxIndex ⟨1, 1⟩ = none :=
  ⟨_, rfl, rfl, rfl, rfl⟩

/-! ## A failed listing in `saveSnapshots` -/

/-- The loop of `saveSnapshots` stops only on a failed listing, and then on an update
whose non-empty snapshot the cache has just taken. -/
theorem stageSnapshots_eq_error {f : Faults} {kvs : KV} :
    ∀ {st : Staging} {toSave : Bool} {uds : List Update} {cs : Cache},
      stageSnapshots f kvs st toSave uds = .error cs →
      ∃ ud ∈ uds, ud.snapshot.isEmpty = false ∧
        cs.snapshotIndex ud.nodeInfo = some ud.snapshot.index
  | _, _, [], _, h => by cases h
  | st, toSave, ud :: uds, cs, h => by
      have hrest : ∀ {st' toSave'}, stageSnapshots f kvs st' toSave' uds = .error cs →
          ∃ u ∈ ud :: uds, u.snapshot.isEmpty = false ∧
            cs.snapshotIndex u.nodeInfo = some u.snapshot.index := fun h' ↦ by
        obtain ⟨u, hu, hu'⟩ := stageSnapshots_eq_error h'
        exact ⟨u, List.mem_cons_of_mem _ hu, hu'⟩
      rw [stageSnapshots] at h
      split_ifs at h with hemp
      · exact hrest h
      · split at h
        · exact hrest h
        · next cs' htry =>
            split at h
            · -- the listing failed: the loop stops with the cache that took the snapshot
              cases h
              rw [Cache.trySaveSnapshot_eq] at htry
              split_ifs at htry <;> cases htry
              exact ⟨ud, List.mem_cons_self _ _, Bool.eq_false_iff.mpr hemp,
                by simp [Update.nodeInfo]⟩
            · exact hrest h

/-- With any storage faults, when a listing fails inside `saveSnapshots`, the call
returns `nil` and writes nothing, not even the snapshots it staged before the failure,
while its cache keeps the snapshot index of the update it stopped on.  Retried with no
storage fault, that update takes no snapshot and changes nothing: its snapshot is never
stored. -/
theorem saveSnapshots_failed_listing_loses_snapshot {f : Faults} {db : DB} {uds : List Update}
    {cs : Cache} (h : stageSnapshots f db.kvs ⟨.empty, db.cs, 0⟩ false uds = .error cs) :
    saveSnapshots f db uds = (none, ⟨db.kvs, cs⟩) ∧
      ∃ ud ∈ uds, ud.snapshot.isEmpty = false ∧
        saveSnapshots noFaults ⟨db.kvs, cs⟩ [ud] = (none, ⟨db.kvs, cs⟩) := by
  obtain ⟨ud, hud, hemp, hidx⟩ := stageSnapshots_eq_error h
  refine ⟨by rw [saveSnapshots, h], ud, hud, hemp, ?_⟩
  -- the cache already holds the update's index, so it declines the snapshot
  have hdecl : cs.trySaveSnapshot ud.clusterID ud.nodeID ud.snapshot.index = (false, cs) := by
    rw [Cache.trySaveSnapshot_eq, if_neg]
    rw [show cs.snapshotIndex ⟨ud.clusterID, ud.nodeID⟩ = _ from hidx, Option.getD_some]
    exact UInt64.lt_irrefl _
  simp only [saveSnapshots, stageSnapshots, hemp, hdecl, Bool.false_eq_true, if_false]

/-- Two snapshots in one call: replica `⟨1, 2⟩` at 4, then `⟨1, 1⟩` at 5. -/
def twoSnapshotUpdates : List Update :=
  [⟨1, 2, ⟨0, 0, 0⟩, [], ⟨4, 1, 1, .regularStateMachine⟩⟩, snapshotUpdate]

/-- The second listing fails: the first snapshot, staged, is dropped with the second. -/
theorem saveSnapshots_failed_listing_loses_snapshot_second :
    ∃ cs, stageSnapshots (fun i ↦ i == 1) DB.empty.kvs ⟨.empty, DB.empty.cs, 0⟩ false
        twoSnapshotUpdates = .error cs ∧
      saveSnapshots (fun i ↦ i == 1) DB.empty twoSnapshotUpdates = (none, ⟨DB.empty.kvs, cs⟩) ∧
      ∃ ud ∈ twoSnapshotUpdates, ud.snapshot.isEmpty = false ∧
        saveSnapshots noFaults ⟨DB.empty.kvs, cs⟩ [ud] = (none, ⟨DB.empty.kvs, cs⟩) :=
  ⟨_, rfl, saveSnapshots_failed_listing_loses_snapshot rfl⟩

/-- After the failure the cache holds index 4 for `⟨1, 2⟩`, but `getSnapshot` finds no
snapshot there. -/
example : ((saveSnapshots (fun i ↦ i == 1) DB.empty twoSnapshotUpdates).2.cs.snapshotIndex ⟨1, 2⟩,
    (getSnapshot noFaults (saveSnapshots (fun i ↦ i == 1) DB.empty twoSnapshotUpdates).2
      1 2).1) = (some 4, .ok Snapshot.empty) := rfl

end TugboatLogdb
