import TugboatLogdb.RemoveNodeData

/-!
# Importing a snapshot

`importSnapshot` replaces a replica's meta records in one batch: it deletes the
state, bootstrap and max-index records and the snapshots at or above the new
index, writes the bootstrap and state records, then, through `saveSnapshot`,
deletes the snapshots below the new index and writes the new one, and last the
max index.  The two deletion passes cover every stored snapshot, and a delete of
the new snapshot's own key comes before its put, so exactly one snapshot record
survives.
-/

namespace TugboatLogdb

/-- The batch `importSnapshot` stages before it calls `saveSnapshot`, given the
snapshots listed for the replica. -/
def importPrefix (ss : Snapshot) (nodeID : UInt64) (snaps : List Snapshot) : WriteBatch :=
  saveStateAllocs
    (saveBootstrap
      (saveRemoveNodeData .empty (snaps.filter (fun curss ↦ ss.index ≤ curss.index))
        ss.clusterId nodeID)
      ss.clusterId nodeID ⟨[], true, ss.type⟩)
    ss.clusterId nodeID ⟨ss.term, 0, ss.index⟩

/-- The update `importSnapshot` hands to `saveSnapshot`. -/
def importUpdate (ss : Snapshot) (nodeID : UInt64) : Update :=
  ⟨ss.clusterId, nodeID, ⟨0, 0, 0⟩, [], ss⟩

/-- What `importSnapshot` leaves when it returns `nil`: the store with its batch
committed, and the cache as it was. -/
theorem importSnapshot_eq_none {f : Faults} {db db' : DB} {ss : Snapshot} {nodeID : UInt64}
    (h : importSnapshot f db ss nodeID = .ok (none, db')) :
    ∃ wb, saveSnapshot f 1 db.kvs (importPrefix ss nodeID (db.kvs.snapshotsOf ss.clusterId nodeID))
        (importUpdate ss nodeID) = .ok wb ∧
      db'.kvs = db.kvs.apply (saveMaxIndex wb ss.clusterId nodeID ss.index) ∧ db'.cs = db.cs := by
  unfold importSnapshot at h
  split at h
  · cases h
  rw [listSnapshots_eq] at h
  cases h0 : f 0 <;> simp only [storageCall, h0, if_true, if_false, Bool.false_eq_true] at h
  · split at h
    · cases h
    · next wb hwb =>
        unfold KV.commitWriteBatch storageCall at h
        split_ifs at h <;> simp at h <;> subst h <;> exact ⟨wb, hwb, rfl, rfl⟩
  · cases h

/-- The batch `importSnapshot` stages before `saveSnapshot` writes meta keys of the
imported replica only. -/
theorem importPrefix_metaKey (ss : Snapshot) (nodeID : UInt64) (snaps : List Snapshot) :
    ∀ op ∈ (importPrefix ss nodeID snaps).ops, MetaKey ss.clusterId nodeID op.key := by
  simp only [importPrefix, saveStateAllocs, saveBootstrap, WriteBatch.put, List.mem_append,
    List.mem_singleton]
  rintro op ((hop | rfl) | rfl)
  · exact saveRemoveNodeData_metaKey _ _ _ op hop
  · exact .inr (.inl rfl)
  · exact .inl rfl

/-- When `importSnapshot` returns `nil`, it has committed a batch that writes meta keys
of the imported replica only. -/
theorem importSnapshot_metaKey {f : Faults} {db db' : DB} {ss : Snapshot} {nodeID : UInt64}
    (h : importSnapshot f db ss nodeID = .ok (none, db')) :
    ∃ ops, (∀ op ∈ ops, MetaKey ss.clusterId nodeID op.key) ∧ db'.kvs = db.kvs.apply ⟨ops⟩ := by
  obtain ⟨wb, hwb, hkvs, -⟩ := importSnapshot_eq_none h
  obtain ⟨ops₀, rfl, hops₀⟩ := saveSnapshot_ok hwb
  refine ⟨_, fun op hop ↦ ?_, hkvs⟩
  simp only [saveMaxIndex, WriteBatch.put, List.mem_append, List.mem_singleton] at hop
  rcases hop with (hop | hop) | rfl
  · exact importPrefix_metaKey _ _ _ op hop
  · exact .inr (.inr (.inr (hops₀ op hop)))
  · exact .inr (.inr (.inl rfl))

/-- The batch `importSnapshot` commits for a non-empty snapshot. -/
def importBatch (ss : Snapshot) (nodeID : UInt64) (snaps : List Snapshot) : WriteBatch :=
  saveMaxIndex
    ((deleteOlderSnapshots (importPrefix ss nodeID snaps) ss.clusterId nodeID ss.index snaps).put
      (.snapshot ss.clusterId nodeID ss))
    ss.clusterId nodeID ss.index

theorem importSnapshot_eq_none_of_pos {f : Faults} {db db' : DB} {ss : Snapshot}
    {nodeID : UInt64} (hidx : 0 < ss.index) (h : importSnapshot f db ss nodeID = .ok (none, db')) :
    db'.kvs = db.kvs.apply (importBatch ss nodeID (db.kvs.snapshotsOf ss.clusterId nodeID)) := by
  obtain ⟨wb, hwb, hkvs, -⟩ := importSnapshot_eq_none h
  have hempty : (importUpdate ss nodeID).snapshot.isEmpty = false := by
    simp only [importUpdate, Snapshot.isEmpty, beq_eq_false_iff_ne]
    exact (UInt64.ne_of_lt hidx).symm
  rw [saveSnapshot_of_isEmpty_false _ hempty] at hwb
  unfold storageCall at hwb
  split at hwb
  · cases hwb
  · cases hwb
    exact hkvs

/-- The record under each key after the import batch, the last write to a key
deciding it. -/
theorem get_apply_importBatch (s : KV) (ss : Snapshot) (n : UInt64) (snaps : List Snapshot)
    (k : Bytes) :
    (s.apply (importBatch ss n snaps)).get k =
      if setMaxIndexKey ss.clusterId n = k then some (.maxIndex ss.clusterId n ss.index)
      else if setSnapshotKey ss.clusterId n ss.index = k then some (.snapshot ss.clusterId n ss)
      else if ∃ x ∈ snaps, x.index < ss.index ∧ setSnapshotKey ss.clusterId n x.index = k then none
      else if setStateKey ss.clusterId n = k then
        some (.state ss.clusterId n ⟨ss.term, 0, ss.index⟩)
      else if setBootstrapKey ss.clusterId n = k then
        some (.bootstrap ss.clusterId n ⟨[], true, ss.type⟩)
      else if k = setStateKey ss.clusterId n ∨ k = setBootstrapKey ss.clusterId n ∨
          k = setMaxIndexKey ss.clusterId n ∨
          ∃ x ∈ snaps.filter (fun curss : Snapshot ↦ decide (ss.index ≤ curss.index)),
            setSnapshotKey ss.clusterId n x.index = k then none
      else s.get k := by
  simp only [importBatch, importPrefix, saveMaxIndex, saveStateAllocs, saveBootstrap,
    KV.apply_put, KV.get_put, get_apply_deleteOlderSnapshots, get_apply_saveRemoveNodeData,
    KV.apply_empty, Record.key_maxIndex, Record.key_snapshot, Record.key_state,
    Record.key_bootstrap]

/-- What `importSnapshot` leaves for replica `⟨ss.clusterId, nodeID⟩` when it returns
`nil`. -/
structure SnapshotImported (db db' : DB) (ss : Snapshot) (nodeID : UInt64) : Prop where
  snapshots : ∀ i, db'.kvs.get (setSnapshotKey ss.clusterId nodeID i) =
    if i = ss.index then some (.snapshot ss.clusterId nodeID ss) else none
  bootstrap : db'.kvs.get (setBootstrapKey ss.clusterId nodeID) =
    some (.bootstrap ss.clusterId nodeID ⟨[], true, ss.type⟩)
  state : db'.kvs.get (setStateKey ss.clusterId nodeID) =
    some (.state ss.clusterId nodeID ⟨ss.term, 0, ss.index⟩)
  maxIndex : db'.kvs.get (setMaxIndexKey ss.clusterId nodeID) =
    some (.maxIndex ss.clusterId nodeID ss.index)
  others_unchanged : ∀ k, ¬ MetaKey ss.clusterId nodeID k → db'.kvs.get k = db.kvs.get k

/-- `importSnapshot` returning `nil` for a non-empty snapshot leaves the replica with
exactly one snapshot record, the imported one, whatever snapshots it held before; a
bootstrap record that joins with the snapshot's type; the state the snapshot implies;
the snapshot's index as its max index; and every other key as it was.  (A snapshot of
unknown type never returns: it panics.) -/
theorem importSnapshot_replaces_replica (f : Faults) (db db' : DB) (ss : Snapshot)
    (nodeID : UInt64) (hidx : 0 < ss.index)
    (h : importSnapshot f db ss nodeID = .ok (none, db')) : SnapshotImported db db' ss nodeID := by
  have hkvs := importSnapshot_eq_none_of_pos hidx h
  have hget := fun k ↦ (congrArg (KV.get · k) hkvs).trans (get_apply_importBatch _ _ _ _ k)
  simp only at hget
  refine ⟨fun i ↦ ?_, ?bootstrap, ?state, ?maxIndex, fun k hk ↦ ?_⟩
  case bootstrap | state | maxIndex =>
    rw [hget]
    simp [setMaxIndexKey, setSnapshotKey, setStateKey, setBootstrapKey, key_inj]
  · rw [hget]
    by_cases hi : i = ss.index
    · subst hi
      simp [setMaxIndexKey, setSnapshotKey, key_inj]
    · have hi' : ss.index ≠ i := Ne.symm hi
      simp only [setMaxIndexKey, setSnapshotKey, setStateKey, setBootstrapKey, key_inj,
        List.cons.injEq, hi, hi', if_false, and_true, true_and, and_false, false_and,
        false_or, reduceCtorEq]
      split_ifs with h₁ h₂
      · rfl
      · rfl
      · rcases hs : db.kvs.get (setSnapshotKey ss.clusterId nodeID i) with _ | r
        · rfl
        · obtain ⟨x, hx, rfl, -⟩ := KV.get_setSnapshotKey_eq_some_iff.mp hs
          rcases Nat.lt_or_ge x.index.toNat ss.index.toNat with hlt | hge
          · exact absurd ⟨x, hx, hlt, rfl⟩ h₁
          · exact absurd ⟨x, List.mem_filter.mpr ⟨hx, by simpa [u64_le_iff] using hge⟩, rfl⟩ h₂
  · simp only [MetaKey, not_or, not_exists] at hk
    obtain ⟨h₁, h₂, h₃, h₄⟩ := hk
    rw [hget, if_neg (Ne.symm h₃), if_neg (Ne.symm (h₄ _)),
      if_neg (by rintro ⟨x, -, -, hx⟩; exact h₄ _ hx.symm), if_neg (Ne.symm h₁),
      if_neg (Ne.symm h₂),
      if_neg (by rintro (h | h | h | ⟨x, -, hx⟩); exacts [h₁ h, h₂ h, h₃ h, h₄ _ hx.symm])]

/-- Importing, below both of them, over the sample's snapshots at 3 and at
`math.MaxUint64`. -/
theorem importSnapshot_replaces_sample :
    ∃ db', importSnapshot noFaults removalSample ⟨2, 5, 1, .regularStateMachine⟩ 1 =
        .ok (none, db') ∧
      SnapshotImported removalSample db' ⟨2, 5, 1, .regularStateMachine⟩ 1 :=
  ⟨_, rfl, importSnapshot_replaces_replica noFaults removalSample _ _ 1 (by decide) rfl⟩

end TugboatLogdb
