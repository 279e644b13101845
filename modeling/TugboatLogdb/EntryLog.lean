import TugboatLogdb.Run
import TugboatLogdb.ImportSnapshot

/-!
# The entry log over runs

No cache stands in front of the entries.  The plain entry manager stores each
entry under its replica and its own index; `saveRaftState` stages the entries it
carries after everything else in its batch; `removeEntriesTo` and
`removeNodeData` delete a range of one replica's entry keys; and no other call
writes an entry key.  So over every run, whatever its calls, the store holds the
entries of a plain reference log: each entry saved stays until a removal reaches
its index, and a removal takes nothing else.
-/

namespace TugboatLogdb

/-! ## The reference log -/

/-- The log after `e` is saved for replica `R`: `e` at its own index. -/
def logPut (log : NodeInfo → UInt64 → Option Entry) (R : NodeInfo) (e : Entry) :
    NodeInfo → UInt64 → Option Entry :=
  fun R' i ↦ if R' = R ∧ i = e.index then some e else log R' i

/-- The log after replica `R`'s entries at or below `index` are discarded. -/
def logRemoveTo (log : NodeInfo → UInt64 → Option Entry) (R : NodeInfo) (index : UInt64) :
    NodeInfo → UInt64 → Option Entry :=
  fun R' i ↦ if R' = R ∧ i ≤ index then none else log R' i

/-- The log after `ud`'s entries are saved, in order. -/
def logSave (log : NodeInfo → UInt64 → Option Entry) (ud : Update) :
    NodeInfo → UInt64 → Option Entry :=
  ud.entriesToSave.foldl (fun log e ↦ logPut log ud.nodeInfo e) log

/-- The log after a call: `saveRaftState` saves the entries of its updates in order,
`removeEntriesTo` discards up to its index and `removeNodeData` every entry of its
replica; no other call touches the log. -/
def Call.log (log : NodeInfo → UInt64 → Option Entry) :
    Call → NodeInfo → UInt64 → Option Entry
  | .saveRaftState uds => uds.foldl logSave log
  | .removeEntriesTo c n index => logRemoveTo log ⟨c, n⟩ index
  | .removeNodeData c n => logRemoveTo log ⟨c, n⟩ MaxUint64
  | _ => log

/-- The log after a run from an empty one. -/
def logRun (calls : List Call) : NodeInfo → UInt64 → Option Entry :=
  calls.foldl Call.log fun _ _ ↦ none

/-! ## Batches that write no entry key -/

/-- Operations none of which writes an entry key. -/
def NoEntryKey (ops : List Op) : Prop := ∀ op ∈ ops, ∀ c n i, op.key ≠ setEntryKey c n i

@[simp] theorem noEntryKey_append {ops₁ ops₂ : List Op} :
    NoEntryKey (ops₁ ++ ops₂) ↔ NoEntryKey ops₁ ∧ NoEntryKey ops₂ := by
  simp [NoEntryKey, or_imp, forall_and]

theorem noEntryKey_of_metaKey {c n : UInt64} {ops : List Op}
    (h : ∀ op ∈ ops, MetaKey c n op.key) : NoEntryKey ops :=
  fun op hop _ _ _ ↦ (h op hop).ne_setEntryKey

theorem stageOps_noEntryKey (kvs : KV) (cs : Cache) (ud : Update) :
    NoEntryKey (stageOps kvs cs ud) :=
  noEntryKey_of_metaKey (stageOps_metaKey kvs cs ud)

/-! ## What each call writes under entry keys -/

/-- `saveRaftState`, over any updates, commits a batch of non-entry operations followed
by each update's entries. -/
theorem call_saveRaftState_entries {db db' : DB} {uds : List Update}
    (h : db.call (.saveRaftState uds) = some db') :
    ∃ ops, NoEntryKey ops ∧ db'.kvs = db.kvs.apply ⟨ops ++ uds.flatMap entryOps⟩ := by
  refine ⟨_, fun op hop ↦ ?_, (call_saveRaftState_thread h).1⟩
  obtain ⟨cs, ud, -, hop⟩ := mem_threadOps hop
  exact stageOps_noEntryKey _ cs ud op hop

/-- With every storage call succeeding, `importSnapshot` returns `nil`. -/
theorem importSnapshot_noFaults {db db' : DB} {ss : Snapshot} {nodeID : UInt64}
    {r : Option Err} (h : importSnapshot noFaults db ss nodeID = .ok (r, db')) : r = none := by
  unfold importSnapshot at h
  split at h
  · cases h
  · simp only [listSnapshots_eq, storageCall_noFaults, saveSnapshot_noFaults,
      KV.commitWriteBatch] at h
    cases h
    rfl

theorem call_importSnapshot {db db' : DB} {ss : Snapshot} {nodeID : UInt64}
    (h : db.call (.importSnapshot ss nodeID) = some db') :
    importSnapshot noFaults db ss nodeID = .ok (none, db') := by
  simp only [DB.call] at h
  split at h
  · next r db₁ hr =>
      cases h
      cases importSnapshot_noFaults hr
      exact hr
  · cases h

/-- `importSnapshot` commits a batch that writes no entry key. -/
theorem call_importSnapshot_entries {db db' : DB} {ss : Snapshot} {nodeID : UInt64}
    (h : db.call (.importSnapshot ss nodeID) = some db') :
    ∃ ops, NoEntryKey ops ∧ db'.kvs = db.kvs.apply ⟨ops⟩ :=
  (importSnapshot_metaKey (call_importSnapshot h)).imp fun _ h ↦ ⟨noEntryKey_of_metaKey h.1, h.2⟩

/-! ## The store against the log -/

/-- The store holds the log: under each replica's entry key `i`, the log's entry at
`i`. -/
def EntriesRefine (kvs : KV) (log : NodeInfo → UInt64 → Option Entry) : Prop :=
  ∀ c n i, kvs.get (setEntryKey c n i) = (log ⟨c, n⟩ i).map (.entry c n)

theorem EntriesRefine.empty : EntriesRefine KV.empty fun _ _ ↦ none := fun _ _ _ ↦ rfl

theorem EntriesRefine.apply_of_noEntryKey {kvs : KV} {log : NodeInfo → UInt64 → Option Entry}
    (h : EntriesRefine kvs log) {ops : List Op} (hops : NoEntryKey ops) :
    EntriesRefine (kvs.apply ⟨ops⟩) log := fun c n i ↦
  (KV.get_apply_of_forall_ne _ _ _ fun op hop ↦ hops op hop c n i).trans (h c n i)

theorem EntriesRefine.put_entry {kvs : KV} {log : NodeInfo → UInt64 → Option Entry}
    (h : EntriesRefine kvs log) (c n : UInt64) (e : Entry) :
    EntriesRefine (kvs.put (.entry c n e)) (logPut log ⟨c, n⟩ e) := by
  intro c' n' i
  simp only [KV.get_put, Record.key_entry, setEntryKey_inj, logPut, NodeInfo.mk.injEq, and_assoc]
  by_cases hR : c = c' ∧ n = n' ∧ e.index = i
  · obtain ⟨rfl, rfl, rfl⟩ := hR
    simp
  · have hR' : ¬ (c' = c ∧ n' = n ∧ i = e.index) := fun ⟨h₁, h₂, h₃⟩ ↦
      hR ⟨h₁.symm, h₂.symm, h₃.symm⟩
    rw [if_neg hR, if_neg hR']
    exact h c' n' i

theorem EntriesRefine.apply_puts (c n : UInt64) :
    ∀ {kvs : KV} {log : NodeInfo → UInt64 → Option Entry} (es : List Entry),
      EntriesRefine kvs log →
      EntriesRefine (kvs.apply ⟨es.map fun e ↦ .put (.entry c n e)⟩)
        (es.foldl (fun log e ↦ logPut log ⟨c, n⟩ e) log)
  | _, _, [], h => h
  | _, _, e :: es, h => EntriesRefine.apply_puts c n es (h.put_entry c n e)

theorem EntriesRefine.apply_entryOps {kvs : KV} {log : NodeInfo → UInt64 → Option Entry}
    (h : EntriesRefine kvs log) (ud : Update) :
    EntriesRefine (kvs.apply ⟨entryOps ud⟩) (logSave log ud) := by
  rw [entryOps, KV.apply_append]
  refine (h.apply_puts ud.clusterID ud.nodeID ud.entriesToSave).apply_of_noEntryKey ?_
  split <;> simp [NoEntryKey]

theorem EntriesRefine.apply_flatMap_entryOps :
    ∀ {kvs : KV} {log : NodeInfo → UInt64 → Option Entry} (uds : List Update),
      EntriesRefine kvs log →
      EntriesRefine (kvs.apply ⟨uds.flatMap entryOps⟩) (uds.foldl logSave log)
  | _, _, [], h => h
  | kvs, _, ud :: uds, h => by
      rw [List.flatMap_cons, KV.apply_append]
      exact EntriesRefine.apply_flatMap_entryOps uds (h.apply_entryOps ud)

/-- A replica's entry scan from 0 to `hi` reaches exactly its entry keys up to `hi`. -/
theorem inRange_setEntryKey_iff {c n hi c' n' i : UInt64} :
    InRange (setEntryKey c n 0) (setEntryKey c n hi) true (setEntryKey c' n' i) ↔
      c' = c ∧ n' = n ∧ i ≤ hi := by
  have h := Record.inRange_entryKeys_iff (.entry c' n' ⟨i, 0⟩) c n 0 hi
  rw [Record.key_entry] at h
  rw [h]
  constructor
  · rintro ⟨e, he, -, h₂⟩
    cases he
    exact ⟨rfl, rfl, h₂⟩
  · rintro ⟨rfl, rfl, h₂⟩
    exact ⟨_, rfl, u64_le_iff.mpr (Nat.zero_le _), h₂⟩

theorem EntriesRefine.removeRange {kvs : KV} {log : NodeInfo → UInt64 → Option Entry}
    (h : EntriesRefine kvs log) (c n index : UInt64) :
    EntriesRefine (kvs.removeRange (setEntryKey c n 0) (setEntryKey c n index))
      (logRemoveTo log ⟨c, n⟩ index) := by
  intro c' n' i
  simp only [KV.get_removeRange, inRange_setEntryKey_iff, logRemoveTo, NodeInfo.mk.injEq,
    and_assoc]
  split_ifs
  · rfl
  · exact h c' n' i

/-- Every call moves the store as the log. -/
theorem EntriesRefine.call {db db' : DB} {log : NodeInfo → UInt64 → Option Entry} {call : Call}
    (h : EntriesRefine db.kvs log) (hc : db.call call = some db') :
    EntriesRefine db'.kvs (call.log log) := by
  cases call with
  | saveRaftState uds =>
      obtain ⟨ops, hops, hkvs⟩ := call_saveRaftState_entries hc
      rw [hkvs, KV.apply_append]
      exact (h.apply_of_noEntryKey hops).apply_flatMap_entryOps uds
  | saveSnapshots uds =>
      obtain ⟨⟨ops, hkvs, hops⟩, -, -⟩ := call_saveSnapshots_frame hc
      rw [hkvs]
      refine h.apply_of_noEntryKey fun op hop c n i ↦ ?_
      obtain ⟨c', n', j, hk⟩ := hops op hop
      rw [hk]
      exact key_ne_of_kind_ne (by decide) _ _
  | importSnapshot ss nodeID =>
      obtain ⟨ops, hops, hkvs⟩ := call_importSnapshot_entries hc
      rw [hkvs]
      exact h.apply_of_noEntryKey hops
  | removeNodeData c n =>
      rw [(call_removeNodeData hc).1]
      have hops := noEntryKey_of_metaKey (saveRemoveNodeData_metaKey (db.kvs.snapshotsOf c n) c n)
      exact (h.apply_of_noEntryKey hops).removeRange c n MaxUint64
  | removeEntriesTo c n index =>
      rw [call_removeEntriesTo hc]
      exact h.removeRange c n index
  | compact =>
      rw [call_compact hc]
      exact h
  | saveBootstrapInfo c n bs =>
      rw [call_saveBootstrapInfo hc]
      intro c' n' i
      rw [KV.get_put, Record.key_bootstrap, if_neg (key_ne_of_kind_ne (by decide) _ _)]
      exact h c' n' i
  | getSnapshot c n =>
      rw [call_getSnapshot hc]
      split <;> exact h

theorem EntriesRefine.run {calls : List Call} {db : DB} (h : DB.empty.run calls = some db) :
    EntriesRefine db.kvs (logRun calls) :=
  run_simulation (fun db log ↦ EntriesRefine db.kvs log) (fun _ ↦ true) Call.log
    (fun _ _ _ _ hR _ hc ↦ hR.call hc) EntriesRefine.empty (fun _ _ ↦ rfl) h

/-- Over every run from an empty store, with every storage call succeeding and any
calls at all, the store holds exactly the entries of the reference log: under a
replica's entry key `i`, the last entry saved at index `i` since the replica's entries
up to `i` were last removed, and nothing when there is none. -/
theorem run_refines_entry_log {calls : List Call} {db : DB} (h : DB.empty.run calls = some db) :
    ∀ c n i, db.kvs.get (setEntryKey c n i) = (logRun calls ⟨c, n⟩ i).map (.entry c n) :=
  EntriesRefine.run h

/-- A run that saves entries, removes some, imports a snapshot and removes a replica. -/
def entryCalls : List Call :=
  [.saveRaftState sampleUpdates, .removeEntriesTo 1 1 6,
    .importSnapshot ⟨10, 2, 1, .regularStateMachine⟩ 1,
    .saveRaftState [⟨1, 2, ⟨1, 1, 1⟩, [⟨1, 1⟩, ⟨2, 1⟩], Snapshot.empty⟩], .removeNodeData 1 2]

theorem run_refines_entry_log_sample :
    ∃ db, DB.empty.run entryCalls = some db ∧
      ∀ c n i, db.kvs.get (setEntryKey c n i) = (logRun entryCalls ⟨c, n⟩ i).map (.entry c n) :=
  ⟨_, rfl, @run_refines_entry_log entryCalls _ rfl⟩

/-! ## Whether any entry is stored -/

/-- `hasEntryRecord` with no fault reports whether the store holds an entry record of
any replica. -/
theorem hasEntryRecord_noFaults (kvs : KV) :
    ∃ b, hasEntryRecord noFaults kvs = .ok b ∧
      (b = true ↔ ∃ c n e, Record.entry c n e ∈ kvs.recs) := by
  refine ⟨_, rfl, ?_⟩
  simp only [Bool.not_eq_true', List.isEmpty_eq_false_iff_exists_mem, KV.mem_scan,
    Record.inRange_allEntryKeys_iff]
  constructor
  · rintro ⟨_, hr, c, n, e, rfl⟩
    exact ⟨c, n, e, hr⟩
  · rintro ⟨c, n, e, hr⟩
    exact ⟨_, hr, c, n, e, rfl⟩

/-- Over every run from an empty store, with every storage call succeeding and any
calls at all, `hasEntryRecord` reports whether the reference log holds an entry of any
replica; so it reports `false` again once every entry saved has been removed. -/
theorem run_hasEntryRecord_iff_log {calls : List Call} {db : DB}
    (h : DB.empty.run calls = some db) :
    ∃ b, hasEntryRecord noFaults db.kvs = .ok b ∧
      (b = true ↔ ∃ R i, (logRun calls R i).isSome) := by
  obtain ⟨b, hb, hiff⟩ := hasEntryRecord_noFaults db.kvs
  have hR := EntriesRefine.run h
  refine ⟨b, hb, hiff.trans ⟨fun ⟨c, n, e, he⟩ ↦ ?_, fun ⟨⟨c, n⟩, i, hi⟩ ↦ ?_⟩⟩
  · have hget := hR c n e.index
    have hsome : db.kvs.get (setEntryKey c n e.index) = some (.entry c n e) :=
      KV.get_eq_some_iff.mpr ⟨he, rfl⟩
    rw [hsome] at hget
    exact ⟨⟨c, n⟩, e.index, by simpa using congrArg Option.isSome hget.symm⟩
  · obtain ⟨e, he⟩ := Option.isSome_iff_exists.mp hi
    have hget := hR c n i
    rw [he] at hget
    exact ⟨c, n, e, (KV.get_eq_some_iff.mp hget).1⟩

theorem run_hasEntryRecord_iff_log_sample :
    ∃ db, DB.empty.run entryCalls = some db ∧
      ∃ b, hasEntryRecord noFaults db.kvs = .ok b ∧
        (b = true ↔ ∃ R i, (logRun entryCalls R i).isSome) :=
  ⟨_, rfl, @run_hasEntryRecord_iff_log entryCalls _ rfl⟩

/-- Entries saved for two replicas, and both replicas removed: no entry record is left. -/
example : (DB.empty.run [.saveRaftState sampleUpdates, .removeNodeData 1 1,
    .removeNodeData 1 2]).map (fun db ↦ hasEntryRecord noFaults db.kvs) = some (.ok false) :=
  rfl

end TugboatLogdb
