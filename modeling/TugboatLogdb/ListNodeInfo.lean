import TugboatLogdb.ImportSnapshot

/-!
# Listing the bootstrapped replicas

`listNodeInfo` scans from the bootstrap key of `(0, 0)` to that of
`(math.MaxUint64, math.MaxUint64)`, upper end included, and parses the IDs back out
of each key.  The scan reaches exactly the bootstrap records, and the store's key
order on them is ascending `(ClusterID, NodeID)` order.
-/

namespace TugboatLogdb

/-- Ascending `(ClusterID, NodeID)` order. -/
def NodeInfo.Lt (a b : NodeInfo) : Prop :=
  a.clusterID < b.clusterID ∨ a.clusterID = b.clusterID ∧ a.nodeID < b.nodeID

theorem setBootstrapKey_lt_iff {c n c' n' : UInt64} :
    KeyLt (setBootstrapKey c n) (setBootstrapKey c' n') ↔ NodeInfo.Lt ⟨c, n⟩ ⟨c', n'⟩ := by
  rw [setBootstrapKey, setBootstrapKey, @key_lt_key_iff _ [c, n] [c', n'] rfl]
  simp [lex_cons_cons_iff, NodeInfo.Lt]

/-- The replica a listed key names. -/
def nodeInfoOfKey (k : Bytes) : NodeInfo := ⟨(parseNodeInfoKey k).1, (parseNodeInfoKey k).2⟩

@[simp] theorem nodeInfoOfKey_setBootstrapKey (c n : UInt64) :
    nodeInfoOfKey (setBootstrapKey c n) = ⟨c, n⟩ := by
  simp [nodeInfoOfKey, parseNodeInfoKey_setBootstrapKey]

theorem listNodeInfo_noFaults (db : DB) :
    listNodeInfo noFaults db = .ok ((db.kvs.scan (setBootstrapKey 0 0)
      (setBootstrapKey MaxUint64 MaxUint64) true).map fun r ↦ nodeInfoOfKey r.key) := rfl

theorem mem_listNodeInfo {db : DB} {l : List NodeInfo} (h : listNodeInfo noFaults db = .ok l)
    (c n : UInt64) :
    (⟨c, n⟩ : NodeInfo) ∈ l ↔
      ∃ bs, db.kvs.get (setBootstrapKey c n) = some (.bootstrap c n bs) := by
  rw [listNodeInfo_noFaults] at h
  cases h
  simp only [List.mem_map, KV.mem_scan, Record.inRange_bootstrapKeys_iff]
  constructor
  · rintro ⟨r, ⟨hr, c', n', bs, rfl⟩, he⟩
    simp only [Record.key_bootstrap, nodeInfoOfKey_setBootstrapKey, NodeInfo.mk.injEq] at he
    obtain ⟨rfl, rfl⟩ := he
    exact ⟨bs, KV.get_eq_some_iff.mpr ⟨hr, rfl⟩⟩
  · rintro ⟨bs, hbs⟩
    exact ⟨_, ⟨(KV.get_eq_some_iff.mp hbs).1, c, n, bs, rfl⟩, by simp⟩

theorem listNodeInfo_sorted {db : DB} {l : List NodeInfo} (h : listNodeInfo noFaults db = .ok l) :
    l.Pairwise NodeInfo.Lt := by
  rw [listNodeInfo_noFaults] at h
  cases h
  rw [List.pairwise_map]
  refine (db.kvs.scan_sorted _ _ _).imp_of_mem fun {a b} ha hb hab ↦ ?_
  obtain ⟨-, c, n, bs, rfl⟩ :=
    (KV.mem_scan.mp ha).imp_right (Record.inRange_bootstrapKeys_iff a).mp
  obtain ⟨-, c', n', bs', rfl⟩ :=
    (KV.mem_scan.mp hb).imp_right (Record.inRange_bootstrapKeys_iff b).mp
  simpa [setBootstrapKey_lt_iff] using hab

theorem get_bootstrap_of_saveBootstrapInfo {f : Faults} {db db' : DB} {c n : UInt64}
    {bs : Bootstrap} (h : saveBootstrapInfo f db c n bs = (none, db')) :
    db'.kvs.get (setBootstrapKey c n) = some (.bootstrap c n bs) := by
  simp only [saveBootstrapInfo, KV.commitWriteBatch, storageCall] at h
  split_ifs at h <;> simp at h
  subst h
  simp [saveBootstrap]

theorem get_bootstrap_of_importSnapshot {f : Faults} {db db' : DB} {ss : Snapshot}
    {nodeID : UInt64} (h : importSnapshot f db ss nodeID = .ok (none, db')) :
    db'.kvs.get (setBootstrapKey ss.clusterId nodeID) =
      some (.bootstrap ss.clusterId nodeID ⟨[], true, ss.type⟩) := by
  obtain ⟨wb, hwb, hkvs, -⟩ := importSnapshot_eq_none h
  obtain ⟨ops, rfl, hops⟩ := saveSnapshot_ok hwb
  rw [hkvs, saveMaxIndex, KV.apply_put, KV.get_put,
    if_neg (by simp [setMaxIndexKey, setBootstrapKey, key_inj]), KV.apply_append,
    KV.get_apply_of_forall_ne _ _ _ fun op hop he ↦ ?_]
  · simp [importPrefix, saveStateAllocs, saveBootstrap, setStateKey, setBootstrapKey, key_inj]
  · obtain ⟨j, hj⟩ := hops op hop
    rw [hj] at he
    simp [importUpdate, setSnapshotKey, setBootstrapKey, key_inj] at he

/-- `listNodeInfo` lists exactly the replicas with a stored bootstrap record, each once
and in ascending `(ClusterID, NodeID)` order, IDs 0 and `math.MaxUint64` included; so
after `saveBootstrapInfo` or `importSnapshot` for a replica it lists it, and after
`removeNodeData` it does not. -/
theorem listNodeInfo_lists_bootstrapped :
    (∀ db : DB, ∃ l, listNodeInfo noFaults db = .ok l ∧
      (∀ c n, (⟨c, n⟩ : NodeInfo) ∈ l ↔
        ∃ bs, db.kvs.get (setBootstrapKey c n) = some (.bootstrap c n bs)) ∧
      l.Pairwise NodeInfo.Lt) ∧
    (∀ f db db' c n bs l, saveBootstrapInfo f db c n bs = (none, db') →
      listNodeInfo noFaults db' = .ok l → (⟨c, n⟩ : NodeInfo) ∈ l) ∧
    (∀ f db db' ss nodeID l, importSnapshot f db ss nodeID = .ok (none, db') →
      listNodeInfo noFaults db' = .ok l → (⟨ss.clusterId, nodeID⟩ : NodeInfo) ∈ l) ∧
    (∀ f db db' c n l, removeNodeData f db c n = (none, db') →
      listNodeInfo noFaults db' = .ok l → (⟨c, n⟩ : NodeInfo) ∉ l) := by
  refine ⟨fun db ↦ ⟨_, listNodeInfo_noFaults db, mem_listNodeInfo (listNodeInfo_noFaults db),
    listNodeInfo_sorted (listNodeInfo_noFaults db)⟩, ?_, ?_, ?_⟩
  · intro f db db' c n bs l h hl
    exact (mem_listNodeInfo hl c n).mpr ⟨bs, get_bootstrap_of_saveBootstrapInfo h⟩
  · intro f db db' ss nodeID l h hl
    exact (mem_listNodeInfo hl _ _).mpr ⟨_, get_bootstrap_of_importSnapshot h⟩
  · intro f db db' c n l h hl hmem
    obtain ⟨bs, hbs⟩ := (mem_listNodeInfo hl c n).mp hmem
    rw [(removeNodeData_eq_none h).1, get_removed_of_metaKey db.kvs (Or.inr (Or.inl rfl))] at hbs
    cases hbs

end TugboatLogdb
