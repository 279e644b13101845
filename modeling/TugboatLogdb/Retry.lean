import TugboatLogdb.CacheCoherence
import TugboatLogdb.SnapshotRetention
import TugboatLogdb.Independence

/-!
# Retried saves

A write batch applied twice leaves what it left once.  After `saveRaftState` over
updates of distinct replicas, the cache has taken each update: its state is the cached
one, its snapshot's index is at most the cached snapshot index, and the index its
entries reach is the cached max index.  So the same call, retried, stages no state, no
snapshot and no cache change, writes each entry and max index again with the value it
already holds, and changes nothing.  `saveSnapshots` only raises cached snapshot
indexes, so its retry takes no snapshot, whatever its updates.

The cache takes the updates while the batch is staged, before the commit.  So when
the commit fails, the cache has taken them all the same, and a retry writes the entries
and max indexes but never the states or snapshots of the failed call.
-/

namespace TugboatLogdb

/-! ## Snapshot indexes only rise -/

/-- After a round of either loop, the replica's cached snapshot index is at least the
index of the update's non-empty snapshot, taken or not. -/
theorem index_le_snapshotsCache (cs : Cache) {ud : Update} (hne : ud.snapshot.isEmpty = false) :
    ud.snapshot.index ≤ ((snapshotsCache cs ud).snapshotIndex ud.nodeInfo).getD 0 := by
  rw [u64_le_iff]
  by_cases hacc : snapshotAccepted cs ud
  · simp [snapshotsCache, hacc, Cache.setSnapshotIndex, Update.nodeInfo]
  · have hge : ¬ (cs.snapshotIndex ud.nodeInfo).getD 0 < ud.snapshot.index := by
      simpa [snapshotAccepted, hne, Update.nodeInfo] using hacc
    rw [snapshotsCache, if_neg hacc]
    exact Nat.le_of_not_lt (mt u64_lt_iff.mpr hge)

theorem snapshotIndex_le_snapshotsCache (cs : Cache) (ud : Update) (R : NodeInfo) :
    (cs.snapshotIndex R).getD 0 ≤ ((snapshotsCache cs ud).snapshotIndex R).getD 0 := by
  rw [u64_le_iff]
  unfold snapshotsCache
  split
  · next hacc =>
      by_cases hR : R = ud.nodeInfo
      · subst hR
        simp only [snapshotAccepted, Bool.and_eq_true, Bool.not_eq_true', Cache.trySaveSnapshot_fst,
          decide_eq_true_eq] at hacc
        simpa [Cache.setSnapshotIndex, Update.nodeInfo] using Nat.le_of_lt (u64_lt_iff.mp hacc.2)
      · have hR' : R ≠ ⟨ud.clusterID, ud.nodeID⟩ := hR
        simp [Cache.setSnapshotIndex, Function.update_noteq hR']
  · exact Nat.le_refl _

theorem snapshotIndex_le_foldl (R : NodeInfo) :
    ∀ (cs : Cache) (uds : List Update),
      (cs.snapshotIndex R).getD 0 ≤ ((uds.foldl snapshotsCache cs).snapshotIndex R).getD 0
  | _, [] => u64_le_iff.mpr (Nat.le_refl _)
  | cs, ud :: uds => UInt64.le_trans (snapshotIndex_le_snapshotsCache cs ud R)
      (snapshotIndex_le_foldl R _ uds)

/-- After the loop of `saveSnapshots`, no snapshot of its updates is taken again. -/
theorem snapshotAccepted_foldl_snapshotsCache {cs : Cache} {uds : List Update} {ud : Update}
    (hud : ud ∈ uds) : snapshotAccepted (uds.foldl snapshotsCache cs) ud = false := by
  induction uds generalizing cs with
  | nil => exact absurd hud (List.not_mem_nil _)
  | cons u uds ih =>
      rcases List.mem_cons.mp hud with rfl | hud
      · cases hne : ud.snapshot.isEmpty
        · have hle := UInt64.le_trans (index_le_snapshotsCache cs hne)
            (snapshotIndex_le_foldl ud.nodeInfo _ uds)
          simpa [snapshotAccepted, hne, Update.nodeInfo, u64_le_iff] using hle
        · simp [snapshotAccepted, hne]
      · exact ih hud

/-! ## An update the cache has taken -/

/-- The cache has taken `ud` at its replica: the state is the cached one, the
snapshot's index is at most the cached snapshot index, and the index the entries reach
is the cached max index. -/
def Update.Settled (cs : Cache) (ud : Update) : Prop :=
  (ud.state.isEmpty = false → cs.ps ud.nodeInfo = some ud.state) ∧
    snapshotAccepted cs ud = false ∧
    (0 < ud.recordIndex → cs.maxIndex ud.nodeInfo = some ud.recordIndex)

namespace Update.Settled

variable {cs : Cache} {ud : Update}

theorem congr {cs' : Cache} (h : ud.Settled cs) (hcs : Cache.Agree ud.nodeInfo cs cs') :
    ud.Settled cs' :=
  ⟨hcs.1 ▸ h.1, snapshotAccepted_congr hcs ▸ h.2.1, hcs.2.1 ▸ h.2.2⟩

/-- A settled non-empty state is the cached one, so saving it reports no change. -/
theorem setState (h : ud.Settled cs) (he : ud.state.isEmpty = false) :
    cs.setState ud.clusterID ud.nodeID ud.state = (false, cs) :=
  if_pos (h.1 he)

theorem stateCache (h : ud.Settled cs) : TugboatLogdb.stateCache cs ud = cs := by
  unfold TugboatLogdb.stateCache
  cases he : ud.state.isEmpty
  · simp [h.setState he]
  · rfl

theorem stageCache (h : ud.Settled cs) : TugboatLogdb.stageCache cs ud = cs := by
  rw [TugboatLogdb.stageCache, h.2.1, if_neg Bool.false_ne_true, h.stateCache]

theorem entryCache (h : ud.Settled cs) : TugboatLogdb.entryCache cs ud = cs := by
  unfold TugboatLogdb.entryCache
  split
  · next hmi =>
      obtain ⟨ps, mi, si⟩ := cs
      simp only [Cache.setMaxIndex, Cache.mk.injEq, and_true, true_and]
      exact Function.update_eq_self_iff.mpr (h.2.2 hmi).symm
  · rfl

theorem stageOps (h : ud.Settled cs) (kvs : KV) : TugboatLogdb.stageOps kvs cs ud = [] := by
  have hst : stateOps cs ud = [] := by
    unfold stateOps
    cases he : ud.state.isEmpty
    · simp [h.setState he]
    · rfl
  rw [TugboatLogdb.stageOps, hst, h.2.1]
  rfl

/-- `saveRaftState` over `ud` alone leaves `ud` taken at its replica. -/
theorem of_save (cs : Cache) (ud : Update) : ud.Settled (TugboatLogdb.entryCache
    (TugboatLogdb.stageCache cs ud) ud) := by
  refine ⟨fun he ↦ ?_, ?_, fun hmi ↦ ?_⟩
  · simp [stateCache_ps, he]
  · have h := @snapshotAccepted_foldl_snapshotsCache cs [ud] ud (List.mem_singleton_self ud)
    simpa only [snapshotAccepted, Cache.trySaveSnapshot_fst, entryCache_snapshotIndex,
      stageCache_snapshotIndex, List.foldl_cons, List.foldl_nil] using h
  · simp [entryCache_maxIndex, hmi]

end Update.Settled

/-- Over updates the cache has all taken, the first loop of `saveRaftState` runs to its
end, stages nothing and leaves the cache, and so does the second loop. -/
theorem stageUpdates_settled {kvs : KV} :
    ∀ {st : Staging} {uds : List Update}, (∀ ud ∈ uds, ud.Settled st.cs) →
      ∃ st', stageUpdates noFaults kvs st uds = .ok st'
  | st, [], _ => ⟨st, rfl⟩
  | st, ud :: uds, hall => by
      have hud := hall ud (List.mem_cons_self _ _)
      obtain ⟨st₁, h₁⟩ := (stageUpdate_noFaults_ok_iff kvs st ud).mpr fun hacc ↦
        absurd (hud.2.1 ▸ hacc) Bool.false_ne_true
      have hcs : st₁.cs = st.cs := (stageUpdate_eq_ok h₁).2.1.trans hud.stageCache
      obtain ⟨st', h'⟩ := @stageUpdates_settled kvs st₁ uds fun u hu ↦
        hcs ▸ hall u (List.mem_cons_of_mem _ hu)
      exact ⟨st', by rw [stageUpdates, h₁]; exact h'⟩

theorem threadOps_settled (kvs : KV) (cs : Cache) :
    ∀ {uds : List Update}, (∀ ud ∈ uds, ud.Settled cs) →
      threadOps (stageOps kvs) stageCache cs uds = [] ∧ uds.foldl stageCache cs = cs ∧
        uds.foldl entryCache cs = cs
  | [], _ => ⟨rfl, rfl, rfl⟩
  | ud :: uds, hall => by
      have hud := hall ud (List.mem_cons_self _ _)
      obtain ⟨h₁, h₂, h₃⟩ := threadOps_settled kvs cs fun u hu ↦ hall u (List.mem_cons_of_mem _ hu)
      rw [threadOps, hud.stageOps, hud.stageCache, List.foldl_cons, List.foldl_cons,
        hud.stageCache, hud.entryCache]
      exact ⟨h₁, h₂, h₃⟩

/-! ## Retrying a save -/

/-- From a cache that has taken every update, `saveRaftState` over distinct replicas
returns `nil`, writes only the entries and their max indexes, and leaves the cache. -/
theorem saveRaftState_of_settled {db : DB} {uds : List Update}
    (hnd : (uds.map Update.nodeInfo).Nodup) (hset : ∀ ud ∈ uds, ud.Settled db.cs) :
    saveRaftState noFaults db uds = .ok (none, ⟨db.kvs.apply ⟨uds.flatMap entryOps⟩, db.cs⟩) := by
  obtain ⟨hops, hstage, hentry⟩ := threadOps_settled db.kvs db.cs hset
  obtain ⟨st, hst⟩ := @stageUpdates_settled db.kvs ⟨.empty, db.cs, 0⟩ uds hset
  obtain ⟨db', h'⟩ := Option.isSome_iff_exists.mp
    ((call_saveRaftState_isSome db uds).mpr ⟨st, hst⟩)
  obtain ⟨hkvs, hcs⟩ := call_saveRaftState_thread h'
  rw [(call_saveRaftState hnd h').1, @DB.ext db' ⟨_, db.cs⟩
    (hkvs.trans (by rw [hops, List.nil_append])) (hcs.trans (by rw [hstage, hentry]))]

/-- `saveRaftState` reports an error only when its commit fails after both loops ran:
the store as it was, the cache as the loops left it. -/
theorem saveRaftState_eq_some {f : Faults} {db db₁ : DB} {uds : List Update} {e : Err}
    (h : saveRaftState f db uds = .ok (some e, db₁)) :
    ∃ st, stageUpdates f db.kvs ⟨.empty, db.cs, 0⟩ uds = .ok st ∧
      db₁ = ⟨db.kvs, (saveEntries st.wb st.cs uds).2⟩ := by
  cases hst : stageUpdates f db.kvs ⟨.empty, db.cs, 0⟩ uds with
  | ok st =>
      rcases saveRaftState_of_stageUpdates hst with h' | ⟨e', h'⟩ <;> rw [h'] at h <;> cases h
      exact ⟨st, rfl, rfl⟩
  | error s =>
      unfold saveRaftState at h
      rw [hst] at h
      cases s <;> cases h

/-- The second loop writes entry and max-index keys only. -/
theorem entryOps_ne_state_snapshot (ud : Update) :
    ∀ op ∈ entryOps ud, ∀ c n, op.key ≠ setStateKey c n ∧ ∀ i, op.key ≠ setSnapshotKey c n i := by
  unfold entryOps
  split_ifs <;> simp [or_imp, forall_and]

/-- With updates of distinct replicas, a `saveRaftState` whose commit fails leaves the
store as it was but the cache as if it had committed.  Retried with no storage fault, it
returns `nil` and writes only the entries and their max indexes: no state and no
snapshot the failed call staged is ever written, and every replica's state and snapshot
records stay as they were before the failed call. -/
theorem saveRaftState_retry_after_failed_commit {f : Faults} {db db₁ : DB} {uds : List Update}
    {e : Err} (hnd : (uds.map Update.nodeInfo).Nodup)
    (h : saveRaftState f db uds = .ok (some e, db₁)) :
    db₁.kvs = db.kvs ∧
      saveRaftState noFaults db₁ uds = .ok (none, ⟨db.kvs.apply ⟨uds.flatMap entryOps⟩, db₁.cs⟩) ∧
      ∀ c n, (db.kvs.apply ⟨uds.flatMap entryOps⟩).get (setStateKey c n) =
          db.kvs.get (setStateKey c n) ∧
        ∀ i, (db.kvs.apply ⟨uds.flatMap entryOps⟩).get (setSnapshotKey c n i) =
          db.kvs.get (setSnapshotKey c n i) := by
  obtain ⟨st, hst, rfl⟩ := saveRaftState_eq_some h
  obtain ⟨-, hcs, -⟩ := stageUpdates_eq_ok hst hnd
  -- the failed call left the cache the committed call would have left
  have hcs₁ : (saveEntries st.wb st.cs uds).2 =
      uds.foldl entryCache (uds.foldl stageCache db.cs) := by
    rw [saveEntries_eq, hcs]
  have hset : ∀ ud ∈ uds, ud.Settled (saveEntries st.wb st.cs uds).2 := fun ud hud ↦
    (Update.Settled.of_save db.cs ud).congr (hcs₁ ▸ caches_agree_of_mem hnd hud).symm
  refine ⟨rfl, saveRaftState_of_settled hnd hset, fun c n ↦ ⟨?_, fun i ↦ ?_⟩⟩
  all_goals
    refine KV.get_apply_of_forall_ne _ _ _ fun op hop ↦ ?_
    obtain ⟨ud, -, hop⟩ := List.mem_flatMap.mp hop
  exacts [(entryOps_ne_state_snapshot ud op hop c n).1,
    (entryOps_ne_state_snapshot ud op hop c n).2 i]

theorem saveRaftState_retry_after_failed_commit_stateUpdate :
    ∃ e db₁, saveRaftState (fun i ↦ i == 0) DB.empty [stateUpdate] = .ok (some e, db₁) ∧
      db₁.kvs = DB.empty.kvs ∧
      saveRaftState noFaults db₁ [stateUpdate] =
        .ok (none, ⟨DB.empty.kvs.apply ⟨[stateUpdate].flatMap entryOps⟩, db₁.cs⟩) ∧
      ∀ c n, (DB.empty.kvs.apply ⟨[stateUpdate].flatMap entryOps⟩).get (setStateKey c n) =
          DB.empty.kvs.get (setStateKey c n) ∧
        ∀ i, (DB.empty.kvs.apply ⟨[stateUpdate].flatMap entryOps⟩).get (setSnapshotKey c n i) =
          DB.empty.kvs.get (setSnapshotKey c n i) :=
  ⟨_, _, rfl, @saveRaftState_retry_after_failed_commit (fun i ↦ i == 0) DB.empty _ [stateUpdate] _
    (by decide) rfl⟩

/-- The retried state is never stored: `getState` still finds none. -/
example : ((saveRaftState (fun i ↦ i == 0) DB.empty [stateUpdate]).toOption.bind
    fun (r : Option Err × DB) ↦ (saveRaftState noFaults r.2 [stateUpdate]).toOption).map
      (fun (r : Option Err × DB) ↦ getState noFaults r.2 1 1) = some (.error .noSavedLog) :=
  rfl

/-- Over updates whose snapshots the cache does not take, the loop of `saveSnapshots`
stages nothing and leaves the cache. -/
theorem threadOps_snapshots_none (kvs : KV) (cs : Cache) :
    ∀ {uds : List Update}, (∀ ud ∈ uds, snapshotAccepted cs ud = false) →
      threadOps (snapshotsOps kvs) snapshotsCache cs uds = [] ∧ uds.foldl snapshotsCache cs = cs
  | [], _ => ⟨rfl, rfl⟩
  | ud :: uds, hall => by
      have hud := hall ud (List.mem_cons_self _ _)
      obtain ⟨h₁, h₂⟩ := threadOps_snapshots_none kvs cs fun u hu ↦
        hall u (List.mem_cons_of_mem _ hu)
      simp only [threadOps, snapshotsOps, snapshotsCache, List.foldl_cons, hud]
      exact ⟨h₁, h₂⟩

/-- With every storage call succeeding, `saveSnapshots` over any updates, retried after
it returned, takes no snapshot and changes nothing. -/
theorem saveSnapshots_retry_noop (db : DB) (uds : List Update) :
    ∃ db₁, db.call (.saveSnapshots uds) = some db₁ ∧ db₁.call (.saveSnapshots uds) = some db₁ := by
  refine ⟨_, call_saveSnapshots_thread db uds, ?_⟩
  obtain ⟨hops, hcs⟩ := threadOps_snapshots_none
    (db.kvs.apply ⟨threadOps (snapshotsOps db.kvs) snapshotsCache db.cs uds⟩)
    (uds.foldl snapshotsCache db.cs) fun _ ↦ snapshotAccepted_foldl_snapshotsCache
  rw [call_saveSnapshots_thread]
  simp only [hops, hcs]
  rfl

end TugboatLogdb
