import TugboatLogdb.DB

/-!
# What the staging helpers write

The snapshot listing of a replica, and the effect on each key of the batches
that `saveSnapshot` and `saveRemoveNodeData` stage.  A replica's *meta keys*
are the keys of its state, bootstrap, max-index and snapshot records: every
key except its entries.
-/

namespace TugboatLogdb

/-- The snapshots stored for a replica, in ascending index order. -/
def KV.snapshotsOf (s : KV) (c n : UInt64) : List Snapshot :=
  (s.scan (setSnapshotKey c n 0) (setSnapshotKey c n MaxUint64) true).filterMap Record.snapshot?

theorem listSnapshots_eq (f : Faults) (i : Nat) (kvs : KV) (c n : UInt64) :
    listSnapshots f i kvs c n MaxUint64 = storageCall f i (kvs.snapshotsOf c n) := by
  unfold listSnapshots KV.iterateValue storageCall
  split <;> rfl

theorem KV.mem_snapshotsOf {s : KV} {c n : UInt64} {ss : Snapshot} :
    ss ∈ s.snapshotsOf c n ↔ Record.snapshot c n ss ∈ s.recs := by
  simp only [snapshotsOf, List.mem_filterMap, mem_scan, Record.inRange_snapshotKeys_iff]
  constructor
  · rintro ⟨r, ⟨hr, ss', rfl⟩, h⟩
    cases h
    exact hr
  · intro h
    exact ⟨_, ⟨h, ss, rfl⟩, rfl⟩

/-- What a replica's snapshot key holds: a snapshot of its own listing. -/
theorem KV.get_setSnapshotKey_eq_some_iff {s : KV} {c n i : UInt64} {r : Record} :
    s.get (setSnapshotKey c n i) = some r ↔
      ∃ ss ∈ s.snapshotsOf c n, ss.index = i ∧ r = .snapshot c n ss := by
  rw [get_eq_some_iff, Record.key_eq_setSnapshotKey_iff]
  constructor
  · rintro ⟨hr, ss, rfl, hi⟩
    exact ⟨ss, mem_snapshotsOf.mpr hr, hi, rfl⟩
  · rintro ⟨ss, hss, hi, rfl⟩
    exact ⟨mem_snapshotsOf.mp hss, ss, rfl, hi⟩

/-- The keys of a replica's state, bootstrap, max-index and snapshot records. -/
def MetaKey (c n : UInt64) (k : Bytes) : Prop :=
  k = setStateKey c n ∨ k = setBootstrapKey c n ∨ k = setMaxIndexKey c n ∨
    ∃ i, k = setSnapshotKey c n i

/-- Meta keys of two replicas coincide only for one replica. -/
theorem MetaKey.eq {c n c' n' : UInt64} {k : Bytes} (h : MetaKey c n k) (h' : MetaKey c' n' k) :
    c = c' ∧ n = n' := by
  rcases h with rfl | rfl | rfl | ⟨i, rfl⟩ <;>
    rcases h' with h' | h' | h' | ⟨i', h'⟩ <;>
    simp_all [setStateKey, setBootstrapKey, setMaxIndexKey, setSnapshotKey, key_inj]

theorem MetaKey.ne_setEntryKey {c n c' n' i : UInt64} {k : Bytes} (h : MetaKey c n k) :
    k ≠ setEntryKey c' n' i := by
  rcases h with rfl | rfl | rfl | ⟨j, rfl⟩
  · exact key_ne_of_kind_ne (by decide) _ _
  · exact key_ne_of_kind_ne (by decide) _ _
  · exact key_ne_of_kind_ne (by decide) _ _
  · exact key_ne_of_kind_ne (by decide) _ _

theorem deleteOlderSnapshots_eq (wb : WriteBatch) (c n idx : UInt64) (snaps : List Snapshot) :
    deleteOlderSnapshots wb c n idx snaps =
      ⟨wb.ops ++ ((snaps.filter (fun ss ↦ ss.index < idx)).map
        (fun ss ↦ setSnapshotKey c n ss.index)).map .delete⟩ := by
  induction snaps generalizing wb with
  | nil => simp [deleteOlderSnapshots]
  | cons ss snaps ih =>
      rw [deleteOlderSnapshots, ih]
      split <;> simp_all [WriteBatch.delete]

theorem foldl_delete (g : Snapshot → Bytes) (snaps : List Snapshot) (wb : WriteBatch) :
    snaps.foldl (fun wb ss ↦ wb.delete (g ss)) wb = ⟨wb.ops ++ (snaps.map g).map .delete⟩ := by
  induction snaps generalizing wb with
  | nil => simp
  | cons ss snaps ih =>
      rw [List.foldl_cons, ih]
      simp [WriteBatch.delete]

theorem saveRemoveNodeData_eq (wb : WriteBatch) (snaps : List Snapshot) (c n : UInt64) :
    saveRemoveNodeData wb snaps c n =
      ⟨wb.ops ++ ([setStateKey c n, setBootstrapKey c n, setMaxIndexKey c n] ++
        snaps.map (fun ss ↦ setSnapshotKey c n ss.index)).map .delete⟩ := by
  rw [saveRemoveNodeData, foldl_delete]
  simp [WriteBatch.delete]

/-- `saveRemoveNodeData` deletes meta keys of its replica only. -/
theorem saveRemoveNodeData_metaKey (snaps : List Snapshot) (c n : UInt64) :
    ∀ op ∈ (saveRemoveNodeData .empty snaps c n).ops, MetaKey c n op.key := by
  intro op hop
  simp only [saveRemoveNodeData_eq, WriteBatch.empty, List.nil_append, List.map_append,
    List.map_cons, List.map_nil, List.mem_append, List.mem_cons, List.mem_map,
    List.not_mem_nil, or_false] at hop
  rcases hop with (rfl | rfl | rfl) | ⟨k, ⟨ss, -, rfl⟩, rfl⟩
  · exact .inl rfl
  · exact .inr (.inl rfl)
  · exact .inr (.inr (.inl rfl))
  · exact .inr (.inr (.inr ⟨_, rfl⟩))

theorem get_apply_deleteOlderSnapshots (s : KV) (wb : WriteBatch) (c n idx : UInt64)
    (snaps : List Snapshot) (k : Bytes) :
    (s.apply (deleteOlderSnapshots wb c n idx snaps)).get k =
      if ∃ ss ∈ snaps, ss.index < idx ∧ setSnapshotKey c n ss.index = k then none
      else (s.apply wb).get k := by
  rw [deleteOlderSnapshots_eq, KV.apply_append, KV.get_apply_deletes]
  simp only [List.mem_map, List.mem_filter, decide_eq_true_eq, and_assoc]

theorem get_apply_saveRemoveNodeData (s : KV) (wb : WriteBatch) (snaps : List Snapshot)
    (c n : UInt64) (k : Bytes) :
    (s.apply (saveRemoveNodeData wb snaps c n)).get k =
      if k = setStateKey c n ∨ k = setBootstrapKey c n ∨ k = setMaxIndexKey c n ∨
          ∃ ss ∈ snaps, setSnapshotKey c n ss.index = k then none
      else (s.apply wb).get k := by
  rw [saveRemoveNodeData_eq, KV.apply_append, KV.get_apply_deletes]
  simp only [List.cons_append, List.nil_append, List.mem_cons, List.mem_map]

/-- `saveSnapshot` of a non-empty snapshot: one listing, then the deletions of the
older snapshots and the put of the new one. -/
theorem saveSnapshot_of_isEmpty_false (ud : Update) (h : ud.snapshot.isEmpty = false)
    (f : Faults) (i : Nat) (kvs : KV) (wb : WriteBatch) :
    saveSnapshot f i kvs wb ud =
      (fun snaps ↦ (deleteOlderSnapshots wb ud.clusterID ud.nodeID ud.snapshot.index snaps).put
        (.snapshot ud.clusterID ud.nodeID ud.snapshot)) <$>
        storageCall f i (kvs.snapshotsOf ud.clusterID ud.nodeID) := by
  rw [saveSnapshot, if_neg (by simp [h]), listSnapshots_eq]
  unfold storageCall
  cases f i <;> rfl

/-- Whatever `saveSnapshot` stages goes after the batch it was given, and writes
only snapshot keys of the update's replica. -/
theorem saveSnapshot_ok {f : Faults} {i : Nat} {kvs : KV} {wb wb' : WriteBatch} {ud : Update}
    (h : saveSnapshot f i kvs wb ud = .ok wb') :
    ∃ ops, wb' = ⟨wb.ops ++ ops⟩ ∧
      ∀ op ∈ ops, ∃ j, op.key = setSnapshotKey ud.clusterID ud.nodeID j := by
  cases hss : ud.snapshot.isEmpty
  · rw [saveSnapshot_of_isEmpty_false ud hss] at h
    unfold storageCall at h
    split at h
    · cases h
    · cases h
      refine ⟨_, by simp only [WriteBatch.put, deleteOlderSnapshots_eq, List.append_assoc]; rfl, ?_⟩
      simp only [List.mem_append, List.mem_map, List.mem_singleton]
      rintro op (⟨k, ⟨x, -, rfl⟩, rfl⟩ | rfl)
      · exact ⟨x.index, rfl⟩
      · exact ⟨ud.snapshot.index, rfl⟩
  · simp only [saveSnapshot, hss, if_true] at h
    cases h
    exact ⟨[], by simp, by simp⟩

end TugboatLogdb
