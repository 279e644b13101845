import TugboatLogdb.Run

/-!
# Snapshot retention against an uncached reference

A replica keeps at most one snapshot record because a snapshot is taken only
above the cached snapshot index, and taking it deletes every stored snapshot
below its own index.  That needs the cached index to stand at the stored
snapshot.  Then the database answers `getSnapshot` as a reference store with no
cache would: one snapshot per replica, replaced by any non-empty snapshot with a
higher index.  `importSnapshot` stores a snapshot past the cache, and
`removeNodeData` deletes the stored one past it, so either can leave the cache
away from the store.
-/

namespace TugboatLogdb

/-! ## The reference -/

/-- Whether the reference takes `ud`'s snapshot over `cur`, the replica's current
snapshot: a non-empty snapshot, with a higher index than `cur` when there is one. -/
def refTakes (cur : Option Snapshot) (ud : Update) : Bool :=
  !ud.snapshot.isEmpty && decide ((cur.map (·.index)).getD 0 < ud.snapshot.index)

/-- The reference after `saveRaftState` or `saveSnapshots` handles `ud`. -/
def refSave (ref : NodeInfo → Option Snapshot) (ud : Update) : NodeInfo → Option Snapshot :=
  if refTakes (ref ud.nodeInfo) ud then Function.update ref ud.nodeInfo (some ud.snapshot)
  else ref

/-- The reference after a call: it takes the snapshots `saveRaftState` and
`saveSnapshots` carry, always takes an imported one, and forgets a removed
replica's. -/
def Call.ref (ref : NodeInfo → Option Snapshot) : Call → NodeInfo → Option Snapshot
  | .saveRaftState uds | .saveSnapshots uds => uds.foldl refSave ref
  | .importSnapshot ss nodeID => Function.update ref ⟨ss.clusterId, nodeID⟩ (some ss)
  | .removeNodeData c n => Function.update ref ⟨c, n⟩ none
  | _ => ref

/-- The reference after a run from no snapshots. -/
def refRun (calls : List Call) : NodeInfo → Option Snapshot :=
  calls.foldl Call.ref fun _ ↦ none

theorem refSave_of_ne {ref : NodeInfo → Option Snapshot} {ud : Update} {R : NodeInfo}
    (h : ud.nodeInfo ≠ R) : refSave ref ud R = ref R := by
  unfold refSave
  split_ifs
  · exact Function.update_noteq (Ne.symm h) _ _
  · rfl

theorem foldl_refSave_of_not_mem {R : NodeInfo} :
    ∀ {uds : List Update} {ref : NodeInfo → Option Snapshot}, R ∉ uds.map Update.nodeInfo →
      uds.foldl refSave ref R = ref R
  | [], _, _ => rfl
  | ud :: uds, ref, hR => by
      simp only [List.map_cons, List.mem_cons, not_or] at hR
      exact (foldl_refSave_of_not_mem hR.2).trans (refSave_of_ne (Ne.symm hR.1))

/-- Over distinct replicas, the reference reads at each replica named as after that
replica's own update. -/
theorem foldl_refSave_of_mem {ud : Update} :
    ∀ {uds : List Update} {ref : NodeInfo → Option Snapshot}, (uds.map Update.nodeInfo).Nodup →
      ud ∈ uds → uds.foldl refSave ref ud.nodeInfo =
        if refTakes (ref ud.nodeInfo) ud then some ud.snapshot else ref ud.nodeInfo
  | [], _, _, hud => absurd hud (List.not_mem_nil _)
  | u :: uds, ref, hnd, hud => by
      rw [List.map_cons, List.nodup_cons] at hnd
      rcases List.mem_cons.mp hud with rfl | hud
      · rw [List.foldl_cons, foldl_refSave_of_not_mem hnd.1, refSave]
        split_ifs <;> simp
      · have hR : u.nodeInfo ≠ ud.nodeInfo := fun h ↦ hnd.1 (h ▸ List.mem_map_of_mem _ hud)
        rw [List.foldl_cons, foldl_refSave_of_mem hnd.2 hud, refSave_of_ne hR]

/-! ## The database against the reference -/

/-- The database holds the reference's snapshots: under each replica's snapshot key
`i` the reference snapshot when its index is `i`, and nothing else; and the cached
snapshot index is the reference snapshot's index. -/
def SnapshotsRefine (db : DB) (ref : NodeInfo → Option Snapshot) : Prop :=
  ∀ c n, (∀ i, db.kvs.get (setSnapshotKey c n i) =
      ((ref ⟨c, n⟩).filter (·.index == i)).map (.snapshot c n)) ∧
    db.cs.snapshotIndex ⟨c, n⟩ = (ref ⟨c, n⟩).map (·.index)

/-- The calls that keep the cached snapshot indexes at the stored snapshots: all but
`importSnapshot` and `removeNodeData`, with the updates of a `saveRaftState` or a
`saveSnapshots` naming distinct replicas. -/
def Call.keepsSnapshotCache : Call → Bool
  | .saveRaftState uds | .saveSnapshots uds => decide (uds.map Update.nodeInfo).Nodup
  | .importSnapshot .. | .removeNodeData .. => false
  | _ => true

theorem SnapshotsRefine.empty : SnapshotsRefine DB.empty fun _ ↦ none :=
  fun _ _ ↦ ⟨fun _ ↦ rfl, rfl⟩

theorem snapshotAccepted_eq_refTakes {cs : Cache} {cur : Option Snapshot} {ud : Update}
    (hidx : cs.snapshotIndex ud.nodeInfo = cur.map (·.index)) :
    snapshotAccepted cs ud = refTakes cur ud := by
  have : cs.snapshotIndex ⟨ud.clusterID, ud.nodeID⟩ = cur.map (·.index) := hidx
  simp only [snapshotAccepted, refTakes, Cache.trySaveSnapshot_fst, this]

theorem lastWrite_deletes (k : Bytes) (ks : List Bytes) :
    lastWrite k (ks.map .delete) = if k ∈ ks then some none else none := by
  induction ks with
  | nil => rfl
  | cons k' ks ih =>
      rw [List.map_cons, lastWrite, ih]
      by_cases h : k ∈ ks
      · simp [h]
      · by_cases h' : k' = k
        · simp [h, h', Op.write]
        · simp [h, h', Op.write, Ne.symm h']

/-- What `saveSnapshot` stages under one of the replica's snapshot keys: the new
snapshot under its own index, and a deletion under the index of each listed snapshot
below it. -/
theorem lastWrite_setSnapshotKey_snapshotOps (kvs : KV) (ud : Update) (i : UInt64) :
    lastWrite (setSnapshotKey ud.clusterID ud.nodeID i) (snapshotOps kvs ud) =
      if ud.snapshot.index = i then some (some (.snapshot ud.clusterID ud.nodeID ud.snapshot))
      else if ∃ ss ∈ kvs.snapshotsOf ud.clusterID ud.nodeID,
          ss.index < ud.snapshot.index ∧ ss.index = i then some none
      else none := by
  rw [snapshotOps, lastWrite_append, lastWrite_put, lastWrite_deletes, Record.key_snapshot]
  by_cases hi : ud.snapshot.index = i
  · simp [hi]
  · simp [hi, setSnapshotKey_inj, and_assoc]

/-- A replica whose snapshot keys hold `cur` and nothing else lists exactly `cur`. -/
theorem mem_snapshotsOf_iff_of_keys {kvs : KV} {c n : UInt64} {cur : Option Snapshot}
    (hkeys : ∀ i, kvs.get (setSnapshotKey c n i) = (cur.filter (·.index == i)).map (.snapshot c n))
    (ss : Snapshot) : ss ∈ kvs.snapshotsOf c n ↔ cur = some ss := by
  have hget : Record.snapshot c n ss ∈ kvs.recs ↔
      kvs.get (setSnapshotKey c n ss.index) = some (.snapshot c n ss) := by
    rw [KV.get_eq_some_iff, Record.key_snapshot, and_iff_left rfl]
  rw [KV.mem_snapshotsOf, hget, hkeys]
  cases cur with
  | none => simp
  | some s =>
      by_cases hs : s.index = ss.index
      · simp [Option.filter, hs]
      · simp only [Option.filter, hs, beq_iff_eq, if_false, Option.map_none', reduceCtorEq,
          false_iff, Option.some.injEq]
        exact fun h ↦ hs (h ▸ rfl)

/-! ## One replica's snapshot round -/

section Round

variable {kvs : KV} {cs : Cache} {ud : Update} {cur : Option Snapshot}

/-- The snapshot round of one update, on a replica whose snapshot keys hold `cur` and
whose cached index is `cur`'s, leaves the keys holding the reference's choice. -/
theorem snapshotsOps_refines
    (hkeys : ∀ i, kvs.get (setSnapshotKey ud.clusterID ud.nodeID i) =
      (cur.filter (·.index == i)).map (.snapshot ud.clusterID ud.nodeID))
    (hidx : cs.snapshotIndex ud.nodeInfo = cur.map (·.index)) (i : UInt64) :
    (lastWrite (setSnapshotKey ud.clusterID ud.nodeID i) (snapshotsOps kvs cs ud)).getD
        (kvs.get (setSnapshotKey ud.clusterID ud.nodeID i)) =
      ((if refTakes cur ud then some ud.snapshot else cur).filter (·.index == i)).map
        (.snapshot ud.clusterID ud.nodeID) := by
  rw [snapshotsOps, snapshotAccepted_eq_refTakes hidx]
  cases htake : refTakes cur ud
  case false => simp [hkeys]
  case true =>
    rw [if_pos rfl, if_pos rfl, lastWrite_setSnapshotKey_snapshotOps]
    by_cases hi : ud.snapshot.index = i
    · subst hi
      simp [Option.filter]
    · have hnone : ((some ud.snapshot).filter (·.index == i)) = none := by simp [hi]
      rw [if_neg hi, hnone]
      split_ifs with hdel
      · rfl
      · rw [Option.getD_none, hkeys]
        cases cur with
        | none => rfl
        | some s =>
            simp only [refTakes, Option.map_some', Option.getD_some, Bool.and_eq_true,
              decide_eq_true_eq] at htake
            have hs : s.index ≠ i := fun hs ↦
              hdel ⟨s, (mem_snapshotsOf_iff_of_keys hkeys s).mpr rfl, htake.2, hs⟩
            simp [Option.filter, hs]

/-- The cached index after the round is the index of the reference's choice. -/
theorem snapshotsCache_refines (hidx : cs.snapshotIndex ud.nodeInfo = cur.map (·.index)) :
    (snapshotsCache cs ud).snapshotIndex ud.nodeInfo =
      (if refTakes cur ud then some ud.snapshot else cur).map (·.index) := by
  rw [snapshotsCache, snapshotAccepted_eq_refTakes hidx]
  split
  · simp [Update.nodeInfo]
  · exact hidx

end Round

/-! ## The snapshot round inside `saveRaftState` -/

theorem lastWrite_setSnapshotKey_stageOps (kvs : KV) (cs : Cache) (ud : Update) (k : Bytes)
    (hk : ∃ c n i, k = setSnapshotKey c n i) :
    lastWrite k (stageOps kvs cs ud) = lastWrite k (snapshotsOps kvs cs ud) := by
  obtain ⟨c, n, i, rfl⟩ := hk
  have hstate : lastWrite (setSnapshotKey c n i) (stateOps cs ud) = none :=
    lastWrite_eq_none <| by unfold stateOps; split <;> simp
  rw [stageOps, lastWrite_append, hstate, Option.or_none, snapshotsOps]
  split
  · simp
  · rfl

theorem lastWrite_setSnapshotKey_entryOps (ud : Update) (c n i : UInt64) :
    lastWrite (setSnapshotKey c n i) (entryOps ud) = none :=
  lastWrite_eq_none <| by
    unfold entryOps
    split <;> simp only [List.mem_append, List.mem_map, List.mem_singleton, List.not_mem_nil,
      or_false, or_imp, forall_and, forall_exists_index, and_imp, forall_apply_eq_imp_iff₂,
      forall_eq] <;> simp

@[simp] theorem stageCache_snapshotIndex (cs : Cache) (ud : Update) :
    (stageCache cs ud).snapshotIndex = (snapshotsCache cs ud).snapshotIndex := by
  unfold stageCache snapshotsCache
  split <;> simp

@[simp] theorem entryCache_snapshotIndex (cs : Cache) (ud : Update) :
    (entryCache cs ud).snapshotIndex = cs.snapshotIndex := by
  unfold entryCache
  split <;> simp

/-! ## The calls against the reference -/

/-- What a call does to the snapshot keys and the cached snapshot indexes when it runs
the snapshot round of `saveSnapshots` over `uds`: each replica named takes its own
update's round against the store and cache before the call, and every other replica
keeps its snapshots. -/
structure SnapshotsSaved (db db' : DB) (uds : List Update) : Prop where
  keys_mem : ∀ ud ∈ uds, ∀ i, db'.kvs.get (setSnapshotKey ud.clusterID ud.nodeID i) =
    (lastWrite (setSnapshotKey ud.clusterID ud.nodeID i) (snapshotsOps db.kvs db.cs ud)).getD
      (db.kvs.get (setSnapshotKey ud.clusterID ud.nodeID i))
  index_mem : ∀ ud ∈ uds,
    db'.cs.snapshotIndex ud.nodeInfo = (snapshotsCache db.cs ud).snapshotIndex ud.nodeInfo
  keys_not_mem : ∀ c n, (⟨c, n⟩ : NodeInfo) ∉ uds.map Update.nodeInfo → ∀ i,
    db'.kvs.get (setSnapshotKey c n i) = db.kvs.get (setSnapshotKey c n i)
  index_not_mem : ∀ R ∉ uds.map Update.nodeInfo, db'.cs.snapshotIndex R = db.cs.snapshotIndex R

theorem SnapshotsSaved.saveRaftState {db db' : DB} {uds : List Update}
    (hnd : (uds.map Update.nodeInfo).Nodup) (h : db.call (.saveRaftState uds) = some db') :
    SnapshotsSaved db db' uds := by
  obtain ⟨-, hkvs, hcs⟩ := call_saveRaftState hnd h
  refine ⟨fun ud hud i ↦ ?_, fun ud hud ↦ ?_, fun c n hR i ↦ ?_, fun R hR ↦ ?_⟩
  · rw [hkvs, KV.get_apply, lastWrite_saveRaftState_of_mem hnd hud (keyOf_setSnapshotKey _ _ i),
      lastWrite_setSnapshotKey_entryOps, Option.none_or,
      lastWrite_setSnapshotKey_stageOps _ _ _ _ ⟨_, _, _, rfl⟩]
  · rw [hcs, (caches_agree_of_mem hnd hud).2.2, entryCache_snapshotIndex, stageCache_snapshotIndex]
  · rw [hkvs, KV.get_apply, lastWrite_saveRaftState_of_not_mem hR (keyOf_setSnapshotKey c n i),
      Option.getD_none]
  · rw [hcs, (caches_agree_of_not_mem hR).2.2]

theorem SnapshotsSaved.saveSnapshots {db db' : DB} {uds : List Update}
    (hnd : (uds.map Update.nodeInfo).Nodup) (h : db.call (.saveSnapshots uds) = some db') :
    SnapshotsSaved db db' uds := by
  obtain ⟨hkvs, hcs⟩ := call_saveSnapshots hnd h
  refine ⟨fun ud hud i ↦ ?_, fun ud hud ↦ ?_, fun c n hR i ↦ ?_, fun R hR ↦ ?_⟩
  · rw [hkvs, KV.get_apply, lastWrite_flatMap_of_mem (snapshotsOps_keyOf db.kvs db.cs)
      (keyOf_setSnapshotKey _ _ i) hnd hud]
  · rw [hcs, (foldl_agree_of_mem (fun _ _ _ ↦ snapshotsCache_agree_of_ne)
      (fun _ _ _ ↦ snapshotsCache_congr) hnd hud).2.2]
  · rw [hkvs, KV.get_apply, lastWrite_flatMap_of_not_mem (snapshotsOps_keyOf db.kvs db.cs)
      (keyOf_setSnapshotKey c n i) hR, Option.getD_none]
  · rw [hcs, (foldl_agree_of_not_mem (fun _ _ _ ↦ snapshotsCache_agree_of_ne) hR).2.2]

/-- A snapshot round over distinct replicas moves the database as the reference. -/
theorem SnapshotsRefine.of_saved {db db' : DB} {ref : NodeInfo → Option Snapshot}
    {uds : List Update} (hinv : SnapshotsRefine db ref) (hnd : (uds.map Update.nodeInfo).Nodup)
    (hs : SnapshotsSaved db db' uds) : SnapshotsRefine db' (uds.foldl refSave ref) := by
  intro c n
  by_cases hR : (⟨c, n⟩ : NodeInfo) ∈ uds.map Update.nodeInfo
  · obtain ⟨ud, hud, hudR⟩ := List.mem_map.mp hR
    obtain ⟨rfl, rfl⟩ : ud.clusterID = c ∧ ud.nodeID = n := by
      simpa [Update.nodeInfo] using hudR
    obtain ⟨hkeys, hidx⟩ := hinv ud.clusterID ud.nodeID
    have href := @foldl_refSave_of_mem ud uds ref hnd hud
    exact ⟨fun i ↦ (hs.keys_mem ud hud i).trans (href ▸ snapshotsOps_refines hkeys hidx i),
      (hs.index_mem ud hud).trans (href ▸ snapshotsCache_refines hidx)⟩
  · rw [show uds.foldl refSave ref ⟨c, n⟩ = ref ⟨c, n⟩ from foldl_refSave_of_not_mem hR]
    exact ⟨fun i ↦ (hs.keys_not_mem c n hR i).trans ((hinv c n).1 i),
      (hs.index_not_mem _ hR).trans (hinv c n).2⟩

/-! ## Reading the snapshots back -/

/-- A list whose members are exactly those of an option ends in it. -/
theorem getLast?_eq_of_forall_mem_iff {α : Type} {l : List α} {o : Option α}
    (h : ∀ a, a ∈ l ↔ o = some a) : l.getLast? = o := by
  cases o with
  | none =>
      rw [List.eq_nil_iff_forall_not_mem.mpr fun a ha ↦ nomatch (h a).mp ha]
      rfl
  | some s =>
      have hne : l ≠ [] := List.ne_nil_of_mem ((h s).mpr rfl)
      rw [List.getLast?_eq_getLast l hne]
      exact ((h _).mp (List.getLast_mem hne)).symm

/-- Under the refinement, a replica lists exactly its reference snapshot. -/
theorem SnapshotsRefine.mem_snapshotsOf {db : DB} {ref : NodeInfo → Option Snapshot}
    (hinv : SnapshotsRefine db ref) (c n : UInt64) (ss : Snapshot) :
    ss ∈ db.kvs.snapshotsOf c n ↔ ref ⟨c, n⟩ = some ss :=
  mem_snapshotsOf_iff_of_keys (hinv c n).1 ss

/-- Under the refinement, `getSnapshot` returns the reference snapshot. -/
theorem SnapshotsRefine.getSnapshot_fst {db : DB} {ref : NodeInfo → Option Snapshot}
    (hinv : SnapshotsRefine db ref) (c n : UInt64) :
    (getSnapshot noFaults db c n).1 = .ok ((ref ⟨c, n⟩).getD Snapshot.empty) := by
  simp only [getSnapshot, listSnapshots_eq, storageCall_noFaults,
    getLast?_eq_of_forall_mem_iff (hinv.mem_snapshotsOf c n)]
  cases ref ⟨c, n⟩ <;> rfl

/-- Every call that keeps the cached snapshot indexes moves the database as the
reference. -/
theorem SnapshotsRefine.call {db db' : DB} {ref : NodeInfo → Option Snapshot} {call : Call}
    (hinv : SnapshotsRefine db ref) (hc : call.keepsSnapshotCache = true)
    (h : db.call call = some db') : SnapshotsRefine db' (call.ref ref) := by
  cases call with
  | saveRaftState uds =>
      exact hinv.of_saved (of_decide_eq_true hc) (.saveRaftState (of_decide_eq_true hc) h)
  | saveSnapshots uds =>
      exact hinv.of_saved (of_decide_eq_true hc) (.saveSnapshots (of_decide_eq_true hc) h)
  | importSnapshot => cases hc
  | removeNodeData => cases hc
  | removeEntriesTo c₀ n₀ index =>
      rw [call_removeEntriesTo h]
      refine fun c n ↦ ⟨fun i ↦ ?_, (hinv c n).2⟩
      rw [KV.get_removeRange,
        if_neg (MetaKey.not_inRange_entries (Or.inr (Or.inr (Or.inr ⟨i, rfl⟩))))]
      exact (hinv c n).1 i
  | compact =>
      rw [call_compact h]
      exact hinv
  | saveBootstrapInfo c₀ n₀ bs =>
      rw [call_saveBootstrapInfo h]
      refine fun c n ↦ ⟨fun i ↦ ?_, (hinv c n).2⟩
      rw [KV.get_put, Record.key_bootstrap, if_neg (key_ne_of_kind_ne (by decide) _ _)]
      exact (hinv c n).1 i
  | getSnapshot c₀ n₀ =>
      rw [call_getSnapshot h]
      split
      · next ss hss =>
          have href : ref ⟨c₀, n₀⟩ = some ss :=
            (getLast?_eq_of_forall_mem_iff (hinv.mem_snapshotsOf c₀ n₀)).symm.trans hss
          have hsi :
              (db.cs.setSnapshotIndex c₀ n₀ ss.index).snapshotIndex = db.cs.snapshotIndex := by
            rw [Cache.setSnapshotIndex_snapshotIndex, Function.update_eq_self_iff,
              (hinv c₀ n₀).2, href]
            rfl
          exact fun c n ↦ ⟨(hinv c n).1, (congrFun hsi _).trans (hinv c n).2⟩
      · exact hinv

/-- Over every run of calls that keep the cached snapshot indexes, from an empty store
and cache with every storage call succeeding, the database holds the snapshots of a
reference store with no cache: each replica lists exactly its one reference snapshot,
or none, and `getSnapshot` returns it, or an empty snapshot when there is none. -/
theorem run_refines_reference {calls : List Call} {db : DB}
    (hcalls : ∀ c ∈ calls, c.keepsSnapshotCache = true) (h : DB.empty.run calls = some db) :
    SnapshotsRefine db (refRun calls) ∧
      ∀ c n, (∀ ss, ss ∈ db.kvs.snapshotsOf c n ↔ refRun calls ⟨c, n⟩ = some ss) ∧
        (getSnapshot noFaults db c n).1 = .ok ((refRun calls ⟨c, n⟩).getD Snapshot.empty) := by
  have hinv := run_simulation SnapshotsRefine Call.keepsSnapshotCache Call.ref
    (fun _ _ _ _ ↦ SnapshotsRefine.call) SnapshotsRefine.empty hcalls h
  exact ⟨hinv, fun c n ↦ ⟨hinv.mem_snapshotsOf c n, hinv.getSnapshot_fst c n⟩⟩

/-- An update of replica `(1, 1)` that carries only a snapshot at `index`. -/
def snapshotUpdateAt (index : UInt64) : Update :=
  ⟨1, 1, ⟨0, 0, 0⟩, [], ⟨index, 1, 1, .regularStateMachine⟩⟩

/-- A run of calls that keep the cached snapshot indexes: snapshots saved through both
loops, one of them stale, read back, and saved again. -/
def snapshotCalls : List Call :=
  [.saveRaftState [snapshotUpdateAt 5],
    .saveSnapshots [snapshotUpdateAt 3, ⟨1, 2, ⟨0, 0, 0⟩, [], ⟨4, 1, 1, .regularStateMachine⟩⟩],
    .getSnapshot 1 1, .saveRaftState [snapshotUpdateAt 7, ⟨1, 2, ⟨1, 1, 1⟩, [], Snapshot.empty⟩]]

theorem run_refines_reference_sample :
    ∃ db, DB.empty.run snapshotCalls = some db ∧ SnapshotsRefine db (refRun snapshotCalls) ∧
      ∀ c n, (∀ ss, ss ∈ db.kvs.snapshotsOf c n ↔ refRun snapshotCalls ⟨c, n⟩ = some ss) ∧
        (getSnapshot noFaults db c n).1 =
          .ok ((refRun snapshotCalls ⟨c, n⟩).getD Snapshot.empty) :=
  ⟨_, rfl, @run_refines_reference snapshotCalls _ (by decide) rfl⟩

/-- Three runs against the reference.  A snapshot at 5 saved, one at 10 imported, and
one at 7 saved: the cache still stands at 5, so the store keeps both 7 and 10.  A
snapshot at 5 saved, the replica removed, and one at 3 saved: the cache still stands at
5 and drops it, so `getSnapshot` finds nothing where the reference holds 3.  Two
snapshots of one replica in one `saveSnapshots`: the second listing still reads the
store before the call, so both stay. -/
theorem run_breaks_snapshot_retention :
    (∃ db, DB.empty.run [.saveRaftState [snapshotUpdateAt 5],
        .importSnapshot ⟨10, 2, 1, .regularStateMachine⟩ 1,
        .saveRaftState [snapshotUpdateAt 7]] = some db ∧
      (db.kvs.snapshotsOf 1 1).map (·.index) = [7, 10]) ∧
    (∃ db, DB.empty.run [.saveRaftState [snapshotUpdateAt 5], .removeNodeData 1 1,
        .saveRaftState [snapshotUpdateAt 3]] = some db ∧
      (getSnapshot noFaults db 1 1).1 = .ok Snapshot.empty ∧
      refRun [.saveRaftState [snapshotUpdateAt 5], .removeNodeData 1 1,
        .saveRaftState [snapshotUpdateAt 3]] ⟨1, 1⟩ = some (snapshotUpdateAt 3).snapshot) ∧
    (∃ db, DB.empty.run [.saveSnapshots [snapshotUpdateAt 5, snapshotUpdateAt 7]] = some db ∧
      (db.kvs.snapshotsOf 1 1).map (·.index) = [5, 7]) :=
  ⟨⟨_, rfl, rfl⟩, ⟨_, rfl, rfl, rfl⟩, ⟨_, rfl, rfl⟩⟩

/-! ## Snapshots only move forward -/

theorem refRun_append (calls₁ calls₂ : List Call) :
    refRun (calls₁ ++ calls₂) = calls₂.foldl Call.ref (refRun calls₁) :=
  List.foldl_append ..

/-- The index of the snapshot a reference holds for `R`, 0 when it holds none. -/
def refIndex (ref : NodeInfo → Option Snapshot) (R : NodeInfo) : UInt64 :=
  ((ref R).map (·.index)).getD 0

/-- `ref'` holds for `R` the snapshot `ref` holds, or one with a higher index. -/
def RefAdvances (R : NodeInfo) (ref ref' : NodeInfo → Option Snapshot) : Prop :=
  ref' R = ref R ∨ refIndex ref R < refIndex ref' R

theorem RefAdvances.refl {R : NodeInfo} {ref : NodeInfo → Option Snapshot} :
    RefAdvances R ref ref :=
  .inl rfl

theorem RefAdvances.trans {R : NodeInfo} {ref₁ ref₂ ref₃ : NodeInfo → Option Snapshot}
    (h₁ : RefAdvances R ref₁ ref₂) (h₂ : RefAdvances R ref₂ ref₃) : RefAdvances R ref₁ ref₃ := by
  unfold RefAdvances refIndex at *
  rcases h₁ with h₁ | h₁ <;> rcases h₂ with h₂ | h₂
  · exact .inl (h₂.trans h₁)
  · exact .inr (h₁ ▸ h₂)
  · exact .inr (h₂ ▸ h₁)
  · exact .inr (u64_lt_iff.mpr (Nat.lt_trans h₁ h₂))

/-- One update moves the reference forward: `refTakes` asks for a higher index. -/
theorem refAdvances_refSave (R : NodeInfo) (ref : NodeInfo → Option Snapshot) (ud : Update) :
    RefAdvances R ref (refSave ref ud) := by
  by_cases hR : ud.nodeInfo = R
  · subst hR
    unfold refSave
    split_ifs with h
    · simp only [refTakes, Bool.and_eq_true, decide_eq_true_eq] at h
      exact .inr (by simpa [refIndex] using h.2)
    · exact .refl
  · exact .inl (refSave_of_ne hR)

theorem refAdvances_foldl_refSave (R : NodeInfo) :
    ∀ (uds : List Update) (ref : NodeInfo → Option Snapshot),
      RefAdvances R ref (uds.foldl refSave ref)
  | [], _ => .refl
  | ud :: uds, ref => (refAdvances_refSave R ref ud).trans (refAdvances_foldl_refSave R uds _)

theorem refAdvances_call_ref {call : Call} (hc : call.keepsSnapshotCache = true) (R : NodeInfo)
    (ref : NodeInfo → Option Snapshot) : RefAdvances R ref (call.ref ref) := by
  cases call with
  | saveRaftState uds | saveSnapshots uds => exact refAdvances_foldl_refSave R uds ref
  | importSnapshot | removeNodeData => cases hc
  | _ => exact .refl

theorem refAdvances_foldl_ref (R : NodeInfo) :
    ∀ {calls : List Call}, (∀ c ∈ calls, c.keepsSnapshotCache = true) →
      ∀ ref, RefAdvances R ref (calls.foldl Call.ref ref)
  | [], _, _ => .refl
  | c :: _, hc, ref => (refAdvances_call_ref (hc c (List.mem_cons_self _ _)) R ref).trans
      (refAdvances_foldl_ref R (fun c' h ↦ hc c' (List.mem_cons_of_mem _ h)) _)

theorem SnapshotsRefine.of_run {calls : List Call} {db : DB}
    (hcalls : ∀ c ∈ calls, c.keepsSnapshotCache = true) (h : DB.empty.run calls = some db) :
    SnapshotsRefine db (refRun calls) :=
  run_simulation SnapshotsRefine Call.keepsSnapshotCache Call.ref
    (fun _ _ _ _ ↦ SnapshotsRefine.call) SnapshotsRefine.empty hcalls h

theorem index_getD_empty (o : Option Snapshot) :
    (o.getD Snapshot.empty).index = (o.map (·.index)).getD 0 := by
  cases o <;> rfl

/-- Over every run of calls that keep the cached snapshot indexes, from an empty store
and cache with every storage call succeeding, the snapshot `getSnapshot` reads back for a
replica never moves back: at any later point of the run it is the same snapshot, or one
with a higher index. -/
theorem run_snapshot_never_regresses {calls₁ calls₂ : List Call} {db₁ db₂ : DB}
    (hcalls : ∀ c ∈ calls₁ ++ calls₂, c.keepsSnapshotCache = true)
    (h₁ : DB.empty.run calls₁ = some db₁) (h₂ : db₁.run calls₂ = some db₂) (c n : UInt64) :
    ∃ ss₁ ss₂, (getSnapshot noFaults db₁ c n).1 = .ok ss₁ ∧
      (getSnapshot noFaults db₂ c n).1 = .ok ss₂ ∧ (ss₂ = ss₁ ∨ ss₁.index < ss₂.index) := by
  have hinv₁ := SnapshotsRefine.of_run (fun c hc ↦ hcalls c (List.mem_append_left _ hc)) h₁
  have hinv₂ := SnapshotsRefine.of_run hcalls (by rw [DB.run_append, h₁]; exact h₂)
  refine ⟨_, _, hinv₁.getSnapshot_fst c n, hinv₂.getSnapshot_fst c n, ?_⟩
  rw [refRun_append, index_getD_empty, index_getD_empty]
  rcases refAdvances_foldl_ref ⟨c, n⟩ (fun c' h ↦ hcalls c' (List.mem_append_right _ h))
    (refRun calls₁) with h | h
  · exact .inl (by rw [h])
  · exact .inr h

theorem run_snapshot_never_regresses_snapshotCalls :
    ∃ db₁ db₂, DB.empty.run (snapshotCalls.take 2) = some db₁ ∧
      db₁.run (snapshotCalls.drop 2) = some db₂ ∧
      ∃ ss₁ ss₂, (getSnapshot noFaults db₁ 1 1).1 = .ok ss₁ ∧
        (getSnapshot noFaults db₂ 1 1).1 = .ok ss₂ ∧ (ss₂ = ss₁ ∨ ss₁.index < ss₂.index) :=
  ⟨_, _, rfl, rfl, @run_snapshot_never_regresses (snapshotCalls.take 2) (snapshotCalls.drop 2) _ _
    (by decide) rfl rfl 1 1⟩

end TugboatLogdb
