import TugboatLogdb.Run

/-!
# The cache against the store over runs

`saveState` drops a state equal to the cached one, and `getMaxIndex` answers
from the cache before the store, so both rely on the cache agreeing with the
stored records.  Every call keeps that agreement except those that write the
store past the cache: `importSnapshot` writes a replica's state and max index
and leaves the cache as it was, and `removeNodeData` deletes the state record
but resets only the cached max index.
-/

namespace TugboatLogdb

/-! ## States -/

/-- Every cached last state is the replica's stored state record. -/
def StateCached (db : DB) : Prop :=
  ∀ c n st, db.cs.ps ⟨c, n⟩ = some st → db.kvs.get (setStateKey c n) = some (.state c n st)

/-- The calls that keep the cached states: all but `importSnapshot` and
`removeNodeData`, with the updates of a `saveRaftState` naming distinct replicas. -/
def Call.keepsStateCache : Call → Bool
  | .saveRaftState uds => decide (uds.map Update.nodeInfo).Nodup
  | .importSnapshot .. | .removeNodeData .. => false
  | _ => true

theorem stateCache_ps (cs : Cache) (ud : Update) :
    (stateCache cs ud).ps ud.nodeInfo =
      if ud.state.isEmpty then cs.ps ud.nodeInfo else some ud.state := by
  unfold stateCache
  split <;> simp [Update.nodeInfo]

@[simp] theorem stageCache_ps (cs : Cache) (ud : Update) :
    (stageCache cs ud).ps = (stateCache cs ud).ps := by
  unfold stageCache
  split <;> simp

@[simp] theorem entryCache_ps (cs : Cache) (ud : Update) : (entryCache cs ud).ps = cs.ps := by
  unfold entryCache
  split <;> simp

/-- The first loop writes `ud`'s state key only through `saveState`. -/
theorem lastWrite_stateKey_stageOps (kvs : KV) (cs : Cache) (ud : Update) :
    lastWrite (setStateKey ud.clusterID ud.nodeID) (stageOps kvs cs ud) =
      if !ud.state.isEmpty && (cs.setState ud.clusterID ud.nodeID ud.state).1 then
        some (some (.state ud.clusterID ud.nodeID ud.state))
      else none := by
  have hsnap : ∀ op ∈ (if snapshotAccepted cs ud then
      snapshotOps kvs ud ++ [.put (.maxIndex ud.clusterID ud.nodeID ud.snapshot.index)] else []),
      op.key ≠ setStateKey ud.clusterID ud.nodeID := by
    split_ifs
    · simp only [snapshotOps, List.mem_append, List.mem_map, List.mem_singleton, or_imp,
        forall_and, forall_exists_index, and_imp, forall_apply_eq_imp_iff₂, forall_eq]
      simp
    · simp
  rw [stageOps, lastWrite_append, lastWrite_eq_none hsnap, Option.none_or, stateOps]
  split <;> simp

theorem lastWrite_stateKey_entryOps (ud : Update) :
    lastWrite (setStateKey ud.clusterID ud.nodeID) (entryOps ud) = none :=
  lastWrite_eq_none <| by
    unfold entryOps
    split <;> simp only [List.mem_append, List.mem_map, List.mem_singleton, List.not_mem_nil,
      or_false, or_imp, forall_and, forall_exists_index, and_imp, forall_apply_eq_imp_iff₂,
      forall_eq] <;> simp

/-- `saveRaftState` over distinct replicas keeps the cached states. -/
theorem StateCached.saveRaftState {db db' : DB} {uds : List Update} (hinv : StateCached db)
    (hnd : (uds.map Update.nodeInfo).Nodup) (h : db.call (.saveRaftState uds) = some db') :
    StateCached db' := by
  obtain ⟨-, hkvs, hcs⟩ := call_saveRaftState hnd h
  intro c n st hst
  rw [hkvs, KV.get_apply]
  rw [hcs] at hst
  by_cases hR : (⟨c, n⟩ : NodeInfo) ∈ uds.map Update.nodeInfo
  · obtain ⟨ud, hud, hudR⟩ := List.mem_map.mp hR
    obtain ⟨rfl, rfl⟩ : ud.clusterID = c ∧ ud.nodeID = n := by
      simpa [Update.nodeInfo] using hudR
    rw [show (⟨ud.clusterID, ud.nodeID⟩ : NodeInfo) = ud.nodeInfo from rfl,
      (caches_agree_of_mem hnd hud).1, entryCache_ps, stageCache_ps, stateCache_ps] at hst
    rw [lastWrite_saveRaftState_of_mem hnd hud (keyOf_setStateKey ud.clusterID ud.nodeID),
      lastWrite_stateKey_entryOps, lastWrite_stateKey_stageOps, Option.none_or,
      Cache.setState_fst]
    cases hemp : ud.state.isEmpty
    · simp only [hemp, Bool.false_eq_true, if_false, Option.some.injEq] at hst
      subst hst
      by_cases hch : db.cs.ps ⟨ud.clusterID, ud.nodeID⟩ = some ud.state
      · simpa [hch] using hinv _ _ _ hch
      · simp [hch]
    · simp only [hemp, if_pos] at hst
      simpa using hinv _ _ _ hst
  · rw [lastWrite_saveRaftState_of_not_mem hR (keyOf_setStateKey c n), Option.getD_none]
    exact hinv c n st ((caches_agree_of_not_mem hR).1 ▸ hst)

theorem StateCached.empty : StateCached DB.empty := fun _ _ _ h ↦ nomatch h

/-- Every call that keeps the cached states keeps them. -/
theorem StateCached.call {db db' : DB} {call : Call} (hinv : StateCached db)
    (hc : call.keepsStateCache = true) (h : db.call call = some db') : StateCached db' := by
  cases call with
  | saveRaftState uds => exact hinv.saveRaftState (of_decide_eq_true hc) h
  | saveSnapshots uds =>
      obtain ⟨⟨ops, hkvs, hops⟩, hps, -⟩ := call_saveSnapshots_frame h
      intro c n st hst
      rw [hkvs, KV.get_apply, lastWrite_eq_none fun op hop hk ↦ ?_, Option.getD_none]
      · exact hinv c n st (hps ▸ hst)
      · obtain ⟨c', n', i, hk'⟩ := hops op hop
        exact key_ne_of_kind_ne (by decide) _ _ (hk' ▸ hk)
  | importSnapshot => cases hc
  | removeNodeData => cases hc
  | removeEntriesTo c₀ n₀ index =>
      rw [call_removeEntriesTo h]
      intro c n st hst
      rw [KV.get_removeRange, if_neg (MetaKey.not_inRange_entries (Or.inl rfl))]
      exact hinv c n st hst
  | compact =>
      rw [call_compact h]
      exact hinv
  | saveBootstrapInfo c₀ n₀ bs =>
      rw [call_saveBootstrapInfo h]
      intro c n st hst
      rw [KV.get_put, Record.key_bootstrap, if_neg (key_ne_of_kind_ne (by decide) _ _)]
      exact hinv c n st hst
  | getSnapshot c₀ n₀ =>
      rw [call_getSnapshot h]
      split
      · exact fun c n st hst ↦ hinv c n st hst
      · exact hinv

/-- Over every run of calls that keep the cached states, from an empty store and cache
with every storage call succeeding, each cached last state is the replica's stored
state record; so once `saveRaftState` returns `nil` on an update carrying a
non-empty state, `getState` returns that state. -/
theorem run_keeps_states_cached {calls : List Call} {db : DB}
    (hcalls : ∀ c ∈ calls, c.keepsStateCache = true) (h : DB.empty.run calls = some db) :
    StateCached db ∧
      ∀ (uds : List Update) (db' : DB), (uds.map Update.nodeInfo).Nodup →
        saveRaftState noFaults db uds = .ok (none, db') →
        ∀ ud ∈ uds, ud.state.isEmpty = false →
          getState noFaults db' ud.clusterID ud.nodeID = .ok ud.state := by
  have hinv := run_invariant StateCached Call.keepsStateCache (fun _ _ _ ↦ StateCached.call)
    StateCached.empty hcalls h
  refine ⟨hinv, fun uds db' hnd hsave ud hud hne ↦ ?_⟩
  have hcall : db.call (.saveRaftState uds) = some db' := by simp [DB.call, hsave]
  obtain ⟨-, -, hcs⟩ := call_saveRaftState hnd hcall
  have hps : db'.cs.ps ⟨ud.clusterID, ud.nodeID⟩ = some ud.state := by
    rw [hcs, show (⟨ud.clusterID, ud.nodeID⟩ : NodeInfo) = ud.nodeInfo from rfl,
      (caches_agree_of_mem hnd hud).1, entryCache_ps, stageCache_ps, stateCache_ps, hne]
    rfl
  have hget := hinv.saveRaftState hnd hcall _ _ _ hps
  simp [getState, KV.getValue, hget, hne]

/-- A run of calls that keep every cache: two replicas updated, one bootstrapped, and
a state saved again. -/
def sampleCalls : List Call :=
  [.saveRaftState sampleUpdates, .saveBootstrapInfo 1 1 ⟨[], true, .regularStateMachine⟩,
    .saveRaftState [stateUpdate]]

theorem run_keeps_states_cached_sample :
    ∃ db, DB.empty.run sampleCalls = some db ∧ StateCached db ∧
      ∀ (uds : List Update) (db' : DB), (uds.map Update.nodeInfo).Nodup →
        saveRaftState noFaults db uds = .ok (none, db') →
        ∀ ud ∈ uds, ud.state.isEmpty = false →
          getState noFaults db' ud.clusterID ud.nodeID = .ok ud.state :=
  ⟨_, rfl, @run_keeps_states_cached sampleCalls _ (by decide) rfl⟩

/-- A replica's state saved, its data removed, and the same state saved again:
`saveRaftState` returns `nil`, but the cache drops the write and `getState` finds no
state.  With a snapshot imported in place of the removal, `getState` returns the
imported state instead. -/
theorem run_bypassing_cache_loses_state :
    (∃ db db', DB.empty.run [.saveRaftState [stateUpdate], .removeNodeData 1 1] = some db ∧
      saveRaftState noFaults db [stateUpdate] = .ok (none, db') ∧
      getState noFaults db' 1 1 = .error .noSavedLog) ∧
    (∃ db db', DB.empty.run [.saveRaftState [stateUpdate],
        .importSnapshot ⟨5, 2, 1, .regularStateMachine⟩ 1] = some db ∧
      saveRaftState noFaults db [stateUpdate] = .ok (none, db') ∧
      getState noFaults db' 1 1 = .ok ⟨2, 0, 5⟩) :=
  ⟨⟨_, _, rfl, rfl, rfl⟩, ⟨_, _, rfl, rfl, rfl⟩⟩

/-! ## The state cache only saves writes -/

/-- The snapshot part of a round of the first loop, as `stageOps` stages it. -/
def snapshotStageOps (kvs : KV) (cs : Cache) (ud : Update) : List Op :=
  if snapshotAccepted cs ud then
    snapshotOps kvs ud ++ [.put (.maxIndex ud.clusterID ud.nodeID ud.snapshot.index)]
  else []

theorem stageOps_eq (kvs : KV) (cs : Cache) (ud : Update) :
    stageOps kvs cs ud = stateOps cs ud ++ snapshotStageOps kvs cs ud := rfl

/-- A round of the first loop with no state cache: every non-empty state is written. -/
def stageOpsUncached (kvs : KV) (cs : Cache) (ud : Update) : List Op :=
  (if ud.state.isEmpty then [] else [.put (.state ud.clusterID ud.nodeID ud.state)]) ++
    snapshotStageOps kvs cs ud

theorem stageOpsUncached_keyOf (kvs : KV) (cs : Cache) (ud : Update) :
    ∀ op ∈ stageOpsUncached kvs cs ud, KeyOf ud.nodeInfo op.key := by
  intro op hop
  rcases List.mem_append.mp hop with hop | hop
  · split at hop
    · exact absurd hop (List.not_mem_nil _)
    · rw [List.mem_singleton.mp hop]
      exact keyOf_setStateKey ud.clusterID ud.nodeID
  · exact stageOps_keyOf kvs cs ud op (List.mem_append_right _ hop)

/-- Where every cached state is stored, a round of the first loop leaves each key as
the round with no state cache does. -/
theorem StateCached.getD_lastWrite_stageOps {db : DB} (hinv : StateCached db) (ud : Update)
    (k : Bytes) :
    (lastWrite k (stageOps db.kvs db.cs ud)).getD (db.kvs.get k) =
      (lastWrite k (stageOpsUncached db.kvs db.cs ud)).getD (db.kvs.get k) := by
  rw [stageOps_eq, stageOpsUncached, lastWrite_append, lastWrite_append]
  cases lastWrite k (snapshotStageOps db.kvs db.cs ud) with
  | some w => rfl
  | none =>
      simp only [Option.none_or, stateOps, Cache.setState_fst]
      cases he : ud.state.isEmpty
      · by_cases hch : db.cs.ps ⟨ud.clusterID, ud.nodeID⟩ = some ud.state
        · -- the state the cache drops is the stored one
          have hget := hinv _ _ _ hch
          by_cases hk : setStateKey ud.clusterID ud.nodeID = k
          · subst hk
            simp [hch, hget]
          · simp [hch, hk]
        · simp [hch]
      · simp

/-- Where every cached state is stored, `saveRaftState` over distinct replicas commits
what it would commit with no state cache: a state it drops as unchanged is already
the stored one. -/
theorem StateCached.saveRaftState_uncached {db db' : DB} {uds : List Update}
    (hinv : StateCached db) (hnd : (uds.map Update.nodeInfo).Nodup)
    (h : db.call (.saveRaftState uds) = some db') :
    db'.kvs =
      db.kvs.apply ⟨uds.flatMap (stageOpsUncached db.kvs db.cs) ++ uds.flatMap entryOps⟩ := by
  obtain ⟨-, hkvs, -⟩ := call_saveRaftState hnd h
  rw [hkvs]
  refine KV.ext_get fun k ↦ ?_
  rw [KV.get_apply, KV.get_apply, lastWrite_append, lastWrite_append]
  cases lastWrite k (uds.flatMap entryOps) with
  | some w => rfl
  | none =>
      simp only [Option.none_or]
      by_cases hk : ∃ ud ∈ uds, KeyOf ud.nodeInfo k
      · obtain ⟨ud, hud, hkey⟩ := hk
        rw [lastWrite_flatMap_of_mem (stageOps_keyOf _ _) hkey hnd hud,
          lastWrite_flatMap_of_mem (stageOpsUncached_keyOf _ _) hkey hnd hud]
        exact hinv.getD_lastWrite_stageOps ud k
      · -- no update owns the key, so neither batch writes it
        have hnone : ∀ {ops : Update → List Op}, (∀ ud, ∀ op ∈ ops ud, KeyOf ud.nodeInfo op.key) →
            lastWrite k (uds.flatMap ops) = none :=
          fun hops ↦ lastWrite_eq_none fun op hop he ↦ by
            obtain ⟨ud, hud, hop⟩ := List.mem_flatMap.mp hop
            exact hk ⟨ud, hud, he ▸ hops ud op hop⟩
        rw [hnone (stageOps_keyOf _ _), hnone (stageOpsUncached_keyOf _ _)]

/-- Over every run of calls that keep the cached states, from an empty store with every
storage call succeeding, each further `saveRaftState` over distinct replicas leaves
the store that the same call with no state cache, writing every non-empty state,
would leave: the cache only saves writes. -/
theorem run_state_cache_saves_writes {calls : List Call} {db db' : DB} {uds : List Update}
    (hcalls : ∀ c ∈ calls, c.keepsStateCache = true) (h : DB.empty.run calls = some db)
    (hnd : (uds.map Update.nodeInfo).Nodup) (hsave : db.call (.saveRaftState uds) = some db') :
    db'.kvs = db.kvs.apply ⟨uds.flatMap (stageOpsUncached db.kvs db.cs) ++ uds.flatMap entryOps⟩ :=
  (run_invariant StateCached Call.keepsStateCache (fun _ _ _ ↦ StateCached.call)
    StateCached.empty hcalls h).saveRaftState_uncached hnd hsave

theorem run_state_cache_saves_writes_sample :
    ∃ db db', DB.empty.run sampleCalls = some db ∧
      db.call (.saveRaftState [stateUpdate]) = some db' ∧
      db'.kvs = db.kvs.apply ⟨[stateUpdate].flatMap (stageOpsUncached db.kvs db.cs) ++
        [stateUpdate].flatMap entryOps⟩ :=
  ⟨_, _, rfl, rfl,
    @run_state_cache_saves_writes sampleCalls _ _ [stateUpdate] (by decide) rfl (by decide) rfl⟩

/-! ## Max indexes -/

/-- Every cached max index is the replica's stored max-index record, or 0 with no
record left once the replica's data is removed. -/
def MaxIndexCached (db : DB) : Prop :=
  ∀ c n v, db.cs.maxIndex ⟨c, n⟩ = some v →
    db.kvs.get (setMaxIndexKey c n) = some (.maxIndex c n v) ∨
      (v = 0 ∧ db.kvs.get (setMaxIndexKey c n) = none)

/-- The calls that keep the cached max indexes: all but `importSnapshot`, with the
updates of a `saveRaftState` naming distinct replicas. -/
def Call.keepsMaxIndexCache : Call → Bool
  | .saveRaftState uds => decide (uds.map Update.nodeInfo).Nodup
  | .importSnapshot .. => false
  | _ => true

theorem MaxIndexCached.empty : MaxIndexCached DB.empty := fun _ _ _ h ↦ nomatch h

/-- `saveRaftState` over distinct replicas moves a replica's stored and cached max
index together. -/
theorem MaxIndexCached.saveRaftState {db db' : DB} {uds : List Update}
    (hinv : MaxIndexCached db) (hnd : (uds.map Update.nodeInfo).Nodup)
    (h : db.call (.saveRaftState uds) = some db') : MaxIndexCached db' := by
  obtain ⟨-, hkvs, hcs⟩ := call_saveRaftState hnd h
  intro c n v hv
  rw [hcs] at hv
  rw [hkvs]
  by_cases hR : (⟨c, n⟩ : NodeInfo) ∈ uds.map Update.nodeInfo
  · obtain ⟨ud, hud, hudR⟩ := List.mem_map.mp hR
    obtain ⟨rfl, rfl⟩ : ud.clusterID = c ∧ ud.nodeID = n := by
      simpa [Update.nodeInfo] using hudR
    rw [show (⟨ud.clusterID, ud.nodeID⟩ : NodeInfo) = ud.nodeInfo from rfl,
      maxIndex_saveRaftState _ hnd hud] at hv
    rw [get_maxIndexKey_saveRaftState _ _ hnd hud]
    cases hm : maxIndexAfter db.cs ud with
    | none =>
        rw [hm] at hv
        exact hinv _ _ _ hv
    | some w =>
        rw [hm] at hv
        cases hv
        exact .inl rfl
  · rw [KV.get_apply, lastWrite_saveRaftState_of_not_mem hR (keyOf_setMaxIndexKey c n),
      Option.getD_none]
    exact hinv c n v ((caches_agree_of_not_mem hR).2.1 ▸ hv)

/-- `removeNodeData` resets the cached max index to 0 and deletes the record. -/
theorem MaxIndexCached.removeNodeData {db db' : DB} {c₀ n₀ : UInt64}
    (hinv : MaxIndexCached db) (h : db.call (.removeNodeData c₀ n₀) = some db') :
    MaxIndexCached db' := by
  obtain ⟨hkvs, hcs⟩ := call_removeNodeData h
  intro c n v hv
  rw [hkvs]
  rw [hcs, Cache.setMaxIndex_maxIndex] at hv
  by_cases hR : (⟨c, n⟩ : NodeInfo) = ⟨c₀, n₀⟩
  · obtain ⟨rfl, rfl⟩ : c = c₀ ∧ n = n₀ := by simpa using hR
    rw [hR, Function.update_same] at hv
    cases hv
    exact .inr ⟨rfl, get_removed_of_metaKey _ (Or.inr (Or.inr (Or.inl rfl)))⟩
  · rw [Function.update_noteq hR] at hv
    have hne : c ≠ c₀ ∨ n ≠ n₀ := not_and_or.mp fun ⟨h₁, h₂⟩ ↦ hR (h₁ ▸ h₂ ▸ rfl)
    rw [get_removed_of_metaKey_ne _ hne (Or.inr (Or.inr (Or.inl rfl)))]
    exact hinv c n v hv

/-- Every call that keeps the cached max indexes keeps them. -/
theorem MaxIndexCached.call {db db' : DB} {call : Call} (hinv : MaxIndexCached db)
    (hc : call.keepsMaxIndexCache = true) (h : db.call call = some db') : MaxIndexCached db' := by
  cases call with
  | saveRaftState uds => exact hinv.saveRaftState (of_decide_eq_true hc) h
  | saveSnapshots uds =>
      obtain ⟨⟨ops, hkvs, hops⟩, -, hmi⟩ := call_saveSnapshots_frame h
      intro c n v hv
      rw [hkvs, KV.get_apply, lastWrite_eq_none fun op hop hk ↦ ?_, Option.getD_none]
      · exact hinv c n v (hmi ▸ hv)
      · obtain ⟨c', n', i, hk'⟩ := hops op hop
        exact key_ne_of_kind_ne (by decide) _ _ (hk' ▸ hk)
  | importSnapshot => cases hc
  | removeNodeData c₀ n₀ => exact hinv.removeNodeData h
  | removeEntriesTo c₀ n₀ index =>
      rw [call_removeEntriesTo h]
      intro c n v hv
      simp only [KV.get_removeRange,
        if_neg (MetaKey.not_inRange_entries (Or.inr (Or.inr (Or.inl rfl))))]
      exact hinv c n v hv
  | compact =>
      rw [call_compact h]
      exact hinv
  | saveBootstrapInfo c₀ n₀ bs =>
      rw [call_saveBootstrapInfo h]
      intro c n v hv
      rw [KV.get_put, Record.key_bootstrap, if_neg (key_ne_of_kind_ne (by decide) _ _)]
      exact hinv c n v hv
  | getSnapshot c₀ n₀ =>
      rw [call_getSnapshot h]
      split
      · exact fun c n v hv ↦ hinv c n v hv
      · exact hinv

/-- With the cache in step, `getMaxIndex` returns the stored max index. -/
theorem MaxIndexCached.getMaxIndex_eq {db : DB} {c n v : UInt64} (hinv : MaxIndexCached db)
    (hget : db.kvs.get (setMaxIndexKey c n) = some (.maxIndex c n v)) :
    getMaxIndex noFaults db c n = .ok v := by
  unfold getMaxIndex Cache.getMaxIndex
  cases hc : db.cs.maxIndex ⟨c, n⟩ with
  | none => simp [KV.getValue, hget]
  | some w =>
      rcases hinv c n w hc with h | ⟨-, h⟩ <;> rw [hget] at h <;> cases h
      rfl

/-- With the cache in step, a positive index `getMaxIndex` returns is stored. -/
theorem MaxIndexCached.get_of_getMaxIndex {db : DB} {c n v : UInt64} (hinv : MaxIndexCached db)
    (h : getMaxIndex noFaults db c n = .ok v) (hv : 0 < v) :
    db.kvs.get (setMaxIndexKey c n) = some (.maxIndex c n v) := by
  unfold getMaxIndex Cache.getMaxIndex at h
  cases hc : db.cs.maxIndex ⟨c, n⟩ with
  | some w =>
      rw [hc] at h
      cases h
      rcases hinv c n _ hc with h' | ⟨rfl, -⟩
      · exact h'
      · exact absurd hv (by decide)
  | none =>
      rw [hc] at h
      cases hr : db.kvs.get (setMaxIndexKey c n) with
      | none => simp [KV.getValue, hr] at h
      | some r =>
          obtain ⟨w, rfl⟩ := Record.key_eq_setMaxIndexKey_iff.mp (KV.get_eq_some_iff.mp hr).2
          simp only [KV.getValue, storageCall_noFaults, hr, Except.ok.injEq] at h
          rw [h]

/-- Over every run of calls that keep the cached max indexes, from an empty store and
cache with every storage call succeeding, the cached fast path of `getMaxIndex`
agrees with the stored record: it returns a replica's stored max index, and a
positive index it returns is the stored one. -/
theorem run_keeps_maxIndex_cached {calls : List Call} {db : DB}
    (hcalls : ∀ c ∈ calls, c.keepsMaxIndexCache = true) (h : DB.empty.run calls = some db) :
    MaxIndexCached db ∧
      (∀ c n v, db.kvs.get (setMaxIndexKey c n) = some (.maxIndex c n v) →
        getMaxIndex noFaults db c n = .ok v) ∧
      ∀ c n v, getMaxIndex noFaults db c n = .ok v → 0 < v →
        db.kvs.get (setMaxIndexKey c n) = some (.maxIndex c n v) := by
  have hinv := run_invariant MaxIndexCached Call.keepsMaxIndexCache
    (fun _ _ _ ↦ MaxIndexCached.call) MaxIndexCached.empty hcalls h
  exact ⟨hinv, fun _ _ _ ↦ hinv.getMaxIndex_eq, fun _ _ _ ↦ hinv.get_of_getMaxIndex⟩

/-- A run with a removal: entries saved for two replicas, one of them removed. -/
def removalCalls : List Call := [.saveRaftState sampleUpdates, .removeNodeData 1 1]

theorem run_keeps_maxIndex_cached_sample :
    ∃ db, DB.empty.run removalCalls = some db ∧ MaxIndexCached db ∧
      (∀ c n v, db.kvs.get (setMaxIndexKey c n) = some (.maxIndex c n v) →
        getMaxIndex noFaults db c n = .ok v) ∧
      ∀ c n v, getMaxIndex noFaults db c n = .ok v → 0 < v →
        db.kvs.get (setMaxIndexKey c n) = some (.maxIndex c n v) :=
  ⟨_, rfl, @run_keeps_maxIndex_cached removalCalls _ (by decide) rfl⟩

/-- An update with entries 1 and 2. -/
def entriesUpdate : Update := ⟨1, 1, ⟨1, 1, 2⟩, [⟨1, 1⟩, ⟨2, 1⟩], Snapshot.empty⟩

/-- Entries up to 2 saved, then a snapshot at 10 imported: the stored max index is 10,
but `getMaxIndex` answers 2 from the cache. -/
theorem run_importSnapshot_leaves_maxIndex_stale :
    ∃ db, DB.empty.run [.saveRaftState [entriesUpdate],
        .importSnapshot ⟨10, 2, 1, .regularStateMachine⟩ 1] = some db ∧
      db.kvs.get (setMaxIndexKey 1 1) = some (.maxIndex 1 1 10) ∧
      getMaxIndex noFaults db 1 1 = .ok 2 :=
  ⟨_, rfl, rfl, rfl⟩

end TugboatLogdb
