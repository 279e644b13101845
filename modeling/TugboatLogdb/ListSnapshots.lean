import TugboatLogdb.Batches

/-!
# Listing a replica's snapshots

`listSnapshots` scans a replica's snapshot keys from index 0 up to a bound.  A
snapshot key ends in the snapshot's index, big-endian, so the scan meets the
replica's snapshots in ascending index order, and `getSnapshot`, which takes the
last one listed, answers with the stored snapshot of the greatest index.
-/

namespace TugboatLogdb

theorem setSnapshotKey_lt_iff {c n i j : UInt64} :
    KeyLt (setSnapshotKey c n i) (setSnapshotKey c n j) ↔ i < j := by
  rw [setSnapshotKey, setSnapshotKey, @key_lt_key_iff _ [c, n, i] [c, n, j] rfl]
  simp [lex_cons_cons_iff]

theorem listSnapshots_noFaults (i : Nat) (kvs : KV) (c n index : UInt64) :
    listSnapshots noFaults i kvs c n index =
      .ok ((kvs.scan (setSnapshotKey c n 0) (setSnapshotKey c n index) true).filterMap
        Record.snapshot?) := rfl

/-- What a scan of a replica's snapshot keys reaches: its snapshot records with an
index up to the bound. -/
theorem mem_scan_snapshotKeys {kvs : KV} {c n index : UInt64} {r : Record} :
    r ∈ kvs.scan (setSnapshotKey c n 0) (setSnapshotKey c n index) true ↔
      ∃ ss, r = .snapshot c n ss ∧ r ∈ kvs.recs ∧ ss.index ≤ index := by
  rw [KV.mem_scan, Record.inRange_snapshotRange_iff]
  constructor
  · rintro ⟨hr, ss, rfl, -, hi⟩
    exact ⟨ss, rfl, hr, hi⟩
  · rintro ⟨ss, rfl, hr, hi⟩
    exact ⟨hr, ss, rfl, u64_le_iff.mpr (Nat.zero_le _), hi⟩

/-- For every store, bound and storage call, `listSnapshots` with no fault lists
exactly the replica's stored snapshots with an index up to the bound, each once and in
strictly ascending index order. -/
theorem listSnapshots_ascending (i : Nat) (kvs : KV) (c n index : UInt64) :
    ∃ snaps, listSnapshots noFaults i kvs c n index = .ok snaps ∧
      (∀ ss, ss ∈ snaps ↔ Record.snapshot c n ss ∈ kvs.recs ∧ ss.index ≤ index) ∧
      snaps.Pairwise (·.index < ·.index) := by
  refine ⟨_, listSnapshots_noFaults i kvs c n index, fun ss ↦ ?_, ?_⟩
  · simp only [List.mem_filterMap, mem_scan_snapshotKeys]
    constructor
    · rintro ⟨_, ⟨ss', rfl, hr, hi⟩, he⟩
      cases he
      exact ⟨hr, hi⟩
    · rintro ⟨hr, hi⟩
      exact ⟨_, ⟨ss, rfl, hr, hi⟩, rfl⟩
  · rw [List.pairwise_filterMap]
    refine (kvs.scan_sorted _ _ _).imp_of_mem fun {a b} ha hb hab ↦ ?_
    obtain ⟨ss, rfl, -⟩ := mem_scan_snapshotKeys.mp ha
    obtain ⟨ss', rfl, -⟩ := mem_scan_snapshotKeys.mp hb
    rintro _ ⟨⟩ _ ⟨⟩
    exact setSnapshotKey_lt_iff.mp hab

/-- The last of a list in ascending index order is in it and has the greatest index. -/
theorem getLast?_index_greatest {l : List Snapshot} {ss : Snapshot}
    (hl : l.Pairwise (·.index < ·.index)) (h : l.getLast? = some ss) :
    ss ∈ l ∧ ∀ ss' ∈ l, ss'.index ≤ ss.index := by
  obtain ⟨l', rfl⟩ := List.getLast?_eq_some_iff.mp h
  refine ⟨List.mem_append_right _ (List.mem_singleton_self _), fun ss' hss' ↦ ?_⟩
  rcases List.mem_append.mp hss' with hss' | hss'
  · have hlt := (List.pairwise_append.mp hl).2.2 ss' hss' ss (List.mem_singleton_self _)
    exact u64_le_iff.mpr (Nat.le_of_lt (u64_lt_iff.mp hlt))
  · rw [List.mem_singleton.mp hss']
    exact u64_le_iff.mpr (Nat.le_refl _)

/-- For every store, `getSnapshot` with no fault returns the replica's stored snapshot
with the greatest index and records that index in the cache; when the replica has no
snapshot record, it returns the empty snapshot and leaves the database as it was. -/
theorem getSnapshot_returns_latest (db : DB) (c n : UInt64) :
    (∃ ss, Record.snapshot c n ss ∈ db.kvs.recs ∧
      (∀ ss', Record.snapshot c n ss' ∈ db.kvs.recs → ss'.index ≤ ss.index) ∧
      getSnapshot noFaults db c n =
        (.ok ss, { db with cs := db.cs.setSnapshotIndex c n ss.index })) ∨
    ((∀ ss, Record.snapshot c n ss ∉ db.kvs.recs) ∧
      getSnapshot noFaults db c n = (.ok Snapshot.empty, db)) := by
  obtain ⟨snaps, hl, hmem, hsorted⟩ := listSnapshots_ascending 0 db.kvs c n MaxUint64
  have hmem' : ∀ ss, ss ∈ snaps ↔ Record.snapshot c n ss ∈ db.kvs.recs := fun ss ↦
    (hmem ss).trans (and_iff_left (u64_le_iff.mpr (toNat_le_MaxUint64 _)))
  rw [getSnapshot, hl]
  dsimp only
  cases hlast : snaps.getLast? with
  | some ss =>
      obtain ⟨hss, hgreatest⟩ := getLast?_index_greatest hsorted hlast
      exact .inl ⟨ss, (hmem' ss).mp hss,
        fun ss' hss' ↦ hgreatest ss' ((hmem' ss').mpr hss'), rfl⟩
  | none =>
      refine .inr ⟨fun ss hss ↦ ?_, rfl⟩
      rw [List.getLast?_eq_none_iff.mp hlast] at hmem'
      exact List.not_mem_nil _ ((hmem' ss).mpr hss)

end TugboatLogdb
