import TugboatLogdb.Batches

/-!
# Removing a replica's data

`removeNodeData` lists the replica's snapshots, commits the deletion of its state,
bootstrap, max-index and listed snapshot records, resets the cached max index to
0, and bulk-removes its entries.  When it returns `nil`, every meta key of the
replica is empty, whatever snapshot indices it held, and no other replica's meta
records have changed; `readRaftState` then reports no state for the replica.  A
removal that fails part way is completed by a retry.
-/

namespace TugboatLogdb

theorem KV.snapshotsOf_eq_nil_iff {s : KV} {c n : UInt64} :
    s.snapshotsOf c n = [] ↔ ∀ i, s.get (setSnapshotKey c n i) = none := by
  rw [List.eq_nil_iff_forall_not_mem]
  constructor
  · intro h i
    rcases hs : s.get (setSnapshotKey c n i) with _ | r
    · rfl
    · obtain ⟨ss, hss, -, -⟩ := get_setSnapshotKey_eq_some_iff.mp hs
      exact absurd hss (h ss)
  · intro h ss hss
    have := h ss.index
    rw [get_setSnapshotKey_eq_some_iff.mpr ⟨ss, hss, rfl, rfl⟩] at this
    cases this

/-- A meta key lies outside every entry scan. -/
theorem MetaKey.not_inRange_entries {c n c' n' lo hi : UInt64} {k : Bytes}
    (h : MetaKey c n k) : ¬ InRange (setEntryKey c' n' lo) (setEntryKey c' n' hi) true k := by
  rcases h with rfl | rfl | rfl | ⟨i, rfl⟩ <;>
    exact not_inRange_of_kind_ne (by decide) _ _ _ _

/-- What `removeNodeData` leaves when it returns `nil`. -/
theorem removeNodeData_eq_none {f : Faults} {db db' : DB} {c n : UInt64}
    (h : removeNodeData f db c n = (none, db')) :
    db'.kvs = (db.kvs.apply (saveRemoveNodeData .empty (db.kvs.snapshotsOf c n) c n)).removeRange
        (setEntryKey c n 0) (setEntryKey c n MaxUint64) ∧
      db'.cs = db.cs.setMaxIndex c n 0 := by
  simp only [removeNodeData, listSnapshots_eq, storageCall, KV.commitWriteBatch,
    removeEntriesTo, PlainEntries.rangedOp, KV.bulkRemoveEntries] at h
  split_ifs at h <;> simp at h
  subst h
  exact ⟨rfl, rfl⟩

/-- After the removal batch, the replica's meta keys are empty. -/
theorem get_apply_removal_of_metaKey (kvs : KV) {c n : UInt64} {k : Bytes}
    (hk : MetaKey c n k) :
    (kvs.apply (saveRemoveNodeData .empty (kvs.snapshotsOf c n) c n)).get k = none := by
  rw [get_apply_saveRemoveNodeData]
  rcases hk with rfl | rfl | rfl | ⟨i, rfl⟩
  · simp
  · simp
  · simp
  · split
    · rfl
    · next hdel =>
        rw [KV.apply_empty]
        rcases hs : kvs.get (setSnapshotKey c n i) with _ | r
        · rfl
        · obtain ⟨ss, hss, rfl, -⟩ := KV.get_setSnapshotKey_eq_some_iff.mp hs
          exact absurd (Or.inr (Or.inr (Or.inr ⟨ss, hss, rfl⟩))) hdel

/-- After the removal batch and the entry range removal, the replica's meta keys
are empty. -/
theorem get_removed_of_metaKey (kvs : KV) {c n : UInt64} {k : Bytes} (hk : MetaKey c n k) :
    ((kvs.apply (saveRemoveNodeData .empty (kvs.snapshotsOf c n) c n)).removeRange
      (setEntryKey c n 0) (setEntryKey c n MaxUint64)).get k = none := by
  rw [KV.get_removeRange, if_neg hk.not_inRange_entries]
  exact get_apply_removal_of_metaKey kvs hk

/-- Another replica's meta keys are untouched by the removal. -/
theorem get_removed_of_metaKey_ne (kvs : KV) {c n c' n' : UInt64} {k : Bytes}
    (hne : c' ≠ c ∨ n' ≠ n) (hk : MetaKey c' n' k) :
    ((kvs.apply (saveRemoveNodeData .empty (kvs.snapshotsOf c n) c n)).removeRange
      (setEntryKey c n 0) (setEntryKey c n MaxUint64)).get k = kvs.get k := by
  rw [KV.get_removeRange, if_neg hk.not_inRange_entries, get_apply_saveRemoveNodeData, if_neg]
  · rfl
  · have hown : ¬ MetaKey c n k := fun h ↦ by
      obtain ⟨rfl, rfl⟩ := hk.eq h
      simp at hne
    rintro (rfl | rfl | rfl | ⟨ss, -, rfl⟩)
    · exact hown (Or.inl rfl)
    · exact hown (Or.inr (Or.inl rfl))
    · exact hown (Or.inr (Or.inr (Or.inl rfl)))
    · exact hown (Or.inr (Or.inr (Or.inr ⟨_, rfl⟩)))

/-- What `removeNodeData` leaves for replica `⟨c, n⟩` when it returns `nil`. -/
structure NodeDataRemoved (db db' : DB) (c n : UInt64) : Prop where
  metaKeys_empty : ∀ k, MetaKey c n k → db'.kvs.get k = none
  getState_noSavedLog : getState noFaults db' c n = .error .noSavedLog
  getBootstrapInfo_noBootstrapInfo : getBootstrapInfo noFaults db' c n = .error .noBootstrapInfo
  getSnapshot_empty : (getSnapshot noFaults db' c n).1 = .ok Snapshot.empty
  others_unchanged : ∀ c' n' k, (c' ≠ c ∨ n' ≠ n) → MetaKey c' n' k → db'.kvs.get k = db.kvs.get k

/-- `removeNodeData` returning `nil` leaves the replica with no state, bootstrap,
max-index or snapshot record, so its reads report `ErrNoSavedLog`,
`ErrNoBootstrapInfo` and the empty snapshot, and changes no meta record of any
other replica. -/
theorem removeNodeData_clears_replica (f : Faults) (db db' : DB) (c n : UInt64)
    (h : removeNodeData f db c n = (none, db')) : NodeDataRemoved db db' c n := by
  obtain ⟨hkvs, -⟩ := removeNodeData_eq_none h
  have hmeta : ∀ k, MetaKey c n k → db'.kvs.get k = none := fun k hk ↦
    hkvs ▸ get_removed_of_metaKey db.kvs hk
  have hnil : db'.kvs.snapshotsOf c n = [] :=
    KV.snapshotsOf_eq_nil_iff.mpr fun i ↦ hmeta _ (Or.inr (Or.inr (Or.inr ⟨i, rfl⟩)))
  refine ⟨hmeta, ?_, ?_, ?_, fun c' n' k hne hk ↦ hkvs ▸ get_removed_of_metaKey_ne db.kvs hne hk⟩
  · simp [getState, KV.getValue, hmeta _ (Or.inl rfl)]
  · simp [getBootstrapInfo, KV.getValue, hmeta _ (Or.inr (Or.inl rfl))]
  · simp [getSnapshot, listSnapshots_eq, hnil]

/-- A store holding replica `⟨1, 1⟩`'s state and two of its snapshot records, one at
`math.MaxUint64`, and replica `⟨1, 2⟩`'s bootstrap record. -/
def removalSample : DB :=
  ⟨(((KV.empty.put (.state 1 1 ⟨2, 1, 3⟩)).put (.snapshot 1 1 ⟨3, 2, 1, .regularStateMachine⟩)).put
      (.snapshot 1 1 ⟨MaxUint64, 2, 1, .regularStateMachine⟩)).put
      (.bootstrap 1 2 ⟨[], true, .regularStateMachine⟩), Cache.new⟩

theorem removeNodeData_clears_removalSample :
    ∃ db', removeNodeData noFaults removalSample 1 1 = (none, db') ∧
      NodeDataRemoved removalSample db' 1 1 :=
  ⟨_, rfl, removeNodeData_clears_replica noFaults removalSample _ 1 1 rfl⟩

/-- With no storage fault, once `removeNodeData` has removed a replica, `readRaftState`
reports no state for it.  The cache holds max index 0 rather than nothing, so at
snapshot index 0 the range is empty, and at any other snapshot index `getRange` asks
the entry manager for the range from that index up to 0: `readRaftState` reports that
call's error, if it reports one, and `ErrNoSavedLog` otherwise. -/
theorem readRaftState_after_removal (entriesGetRange : EntriesGetRange) {f : Faults}
    {db db' : DB} {c n : UInt64} (h : removeNodeData f db c n = (none, db'))
    (snapshotIndex : UInt64) :
    readRaftState entriesGetRange noFaults db' c n snapshotIndex =
      if snapshotIndex = 0 then .error .noSavedLog
      else match entriesGetRange db'.kvs c n snapshotIndex 0 with
        | .error e => .error e
        | .ok _ => .error .noSavedLog := by
  obtain ⟨hkvs, hcs⟩ := removeNodeData_eq_none h
  have hstate : db'.kvs.get (setStateKey c n) = none :=
    hkvs ▸ get_removed_of_metaKey db.kvs (.inl rfl)
  have hmax : getMaxIndex noFaults db' c n = .ok 0 := by
    simp [getMaxIndex, Cache.getMaxIndex, hcs, Cache.setMaxIndex]
  have hget : getState (fun i ↦ noFaults (i + 1)) db' c n = .error .noSavedLog := by
    simp [getState, KV.getValue, storageCall, noFaults, hstate]
  rw [readRaftState, getRange, hmax]
  by_cases h0 : snapshotIndex = 0
  · simp [h0, hget]
  · simp only [h0, if_false]
    rcases entriesGetRange db'.kvs c n snapshotIndex 0 with e | _ <;> simp [hget]

theorem readRaftState_after_removal_sample :
    ∃ db', removeNodeData noFaults removalSample 1 1 = (none, db') ∧
      readRaftState (fun _ _ _ _ _ ↦ .error (.storage 7)) noFaults db' 1 1 5 =
        if (5 : UInt64) = 0 then .error .noSavedLog
        else match (Except.error (.storage 7) : Except Err (UInt64 × UInt64)) with
          | .error e => .error e
          | .ok _ => .error .noSavedLog :=
  ⟨_, rfl, @readRaftState_after_removal (fun _ _ _ _ _ ↦ .error (.storage 7)) noFaults
    removalSample _ 1 1 rfl 5⟩

/-! ## Failures and retries -/

/-- What `removeNodeData` leaves when it reports an error: the database as it was when
listing the snapshots or committing the batch fails; the committed batch and the
cached max index reset to 0 when only the removal of the entries fails. -/
theorem removeNodeData_eq_some {f : Faults} {db db' : DB} {c n : UInt64} {e : Err}
    (h : removeNodeData f db c n = (some e, db')) :
    db' = db ∨ db' = ⟨db.kvs.apply (saveRemoveNodeData .empty (db.kvs.snapshotsOf c n) c n),
      db.cs.setMaxIndex c n 0⟩ := by
  simp only [removeNodeData, listSnapshots_eq, storageCall, KV.commitWriteBatch,
    removeEntriesTo, PlainEntries.rangedOp, KV.bulkRemoveEntries] at h
  split_ifs at h <;> simp only [Prod.mk.injEq, reduceCtorEq, false_and] at h <;>
    obtain ⟨-, rfl⟩ := h <;> first | exact .inl rfl | exact .inr rfl

/-- After the removal batch, a second removal batch of the replica, which lists no
snapshot, deletes nothing. -/
theorem apply_removal_twice (kvs : KV) (c n : UInt64) :
    let kvs' := kvs.apply (saveRemoveNodeData .empty (kvs.snapshotsOf c n) c n)
    kvs'.apply (saveRemoveNodeData .empty (kvs'.snapshotsOf c n) c n) = kvs' := by
  intro kvs'
  have hmeta : ∀ k, MetaKey c n k → kvs'.get k = none := fun k hk ↦
    get_apply_removal_of_metaKey kvs hk
  have hnil : kvs'.snapshotsOf c n = [] :=
    KV.snapshotsOf_eq_nil_iff.mpr fun i ↦ hmeta _ (.inr (.inr (.inr ⟨i, rfl⟩)))
  refine KV.ext_get fun k ↦ ?_
  rw [hnil, get_apply_saveRemoveNodeData, KV.apply_empty]
  split
  · next hk =>
      refine (hmeta k ?_).symm
      rcases hk with rfl | rfl | rfl | ⟨_, hss, -⟩
      exacts [.inl rfl, .inr (.inl rfl), .inr (.inr (.inl rfl)), absurd hss (List.not_mem_nil _)]
  · rfl

/-- Whatever storage call failed, `removeNodeData` retried with no fault leaves exactly
what one call with no fault would have left: a removal that fails after deleting the
replica's meta records, with its entries still stored, is completed by the retry. -/
theorem removeNodeData_retry (f : Faults) (db db' : DB) (c n : UInt64) (e : Err)
    (h : removeNodeData f db c n = (some e, db')) :
    removeNodeData noFaults db' c n = removeNodeData noFaults db c n := by
  rcases removeNodeData_eq_some h with rfl | rfl
  · rfl
  · simp only [removeNodeData, listSnapshots_eq, storageCall_noFaults, KV.commitWriteBatch,
      apply_removal_twice, Cache.setMaxIndex_setMaxIndex]

theorem removeNodeData_retry_removalSample :
    ∃ e db', removeNodeData (fun i ↦ i == 2) removalSample 1 1 = (some e, db') ∧
      removeNodeData noFaults db' 1 1 = removeNodeData noFaults removalSample 1 1 :=
  ⟨_, _, rfl, removeNodeData_retry (fun i ↦ i == 2) removalSample _ 1 1 _ rfl⟩

end TugboatLogdb
