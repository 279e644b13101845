import TugboatLogdb.EntryLog

/-!
# Calls on different replicas commute

Every call names its replicas: the updates' replicas for `saveRaftState` and
`saveSnapshots`, its one replica for every other call.  With every storage call
succeeding, a call writes only the keys and cache entries of the replicas it names,
and what it writes there, or whether it panics, depends only on those replicas'
records and cache entries: `saveRaftState` over distinct replicas panics exactly at
the first update whose snapshot the cache takes beyond the update's last entry.  So
two calls that name no replica in common give the same database in either order, and
two runs over disjoint sets of replicas, interleaved in any way, end as the one
followed by the other: updates to different replicas need no order between them.
-/

namespace TugboatLogdb

/-! ## Agreement on a replica -/

/-- Two stores agree on replica `R`: the same records under its keys. -/
def KV.Agree (R : NodeInfo) (s t : KV) : Prop := ∀ k, KeyOf R k → s.get k = t.get k

namespace KV.Agree

variable {R : NodeInfo} {s t : KV}

theorem apply (h : KV.Agree R s t) (wb : WriteBatch) : KV.Agree R (s.apply wb) (t.apply wb) :=
  fun k hk ↦ by rw [get_apply, get_apply, h k hk]

theorem removeRange (h : KV.Agree R s t) (fk lk : Bytes) :
    KV.Agree R (s.removeRange fk lk) (t.removeRange fk lk) :=
  fun k hk ↦ by rw [get_removeRange, get_removeRange, h k hk]

theorem put (h : KV.Agree R s t) (r : Record) : KV.Agree R (s.put r) (t.put r) :=
  fun k hk ↦ by rw [get_put, get_put, h k hk]

/-- A replica's snapshot listing reads only the records under its keys. -/
theorem snapshotsOf {c n : UInt64} (h : KV.Agree ⟨c, n⟩ s t) :
    s.snapshotsOf c n = t.snapshotsOf c n := by
  unfold KV.snapshotsOf
  congr 1
  refine (s.scan_sorted _ _ _).eq_of_mem_iff (t.scan_sorted _ _ _) fun r ↦ ?_
  simp only [mem_scan]
  refine and_congr_left fun hin ↦ ?_
  obtain ⟨ss, rfl⟩ := (Record.inRange_snapshotKeys_iff _ c n).mp hin
  rw [mem_iff_get, mem_iff_get, h _ ⟨.snapshot c n ss, rfl, rfl⟩]

end KV.Agree

theorem KV.Agree.trans {R : NodeInfo} {s t u : KV} (h : KV.Agree R s t) (h' : KV.Agree R t u) :
    KV.Agree R s u :=
  fun k hk ↦ (h k hk).trans (h' k hk)

/-- A batch none of whose operations writes a key of `R` keeps `R`'s records. -/
theorem KV.agree_apply_of_not_keyOf {R : NodeInfo} (s : KV) {wb : WriteBatch}
    (h : ∀ op ∈ wb.ops, ¬ KeyOf R op.key) : KV.Agree R (s.apply wb) s :=
  fun _ hk ↦ get_apply_of_forall_ne _ _ _ fun op hop he ↦ h op hop (he ▸ hk)

theorem KV.agree_put_of_not_keyOf {R : NodeInfo} (s : KV) {r : Record}
    (h : ¬ KeyOf R r.key) : KV.Agree R (s.put r) s :=
  fun k hk ↦ by rw [get_put, if_neg fun (he : r.key = k) ↦ h (he ▸ hk)]

/-- Removing one replica's entries keeps every other replica's records. -/
theorem KV.agree_removeRange_entries {R : NodeInfo} (s : KV) {c n lo hi : UInt64}
    (hR : R ≠ ⟨c, n⟩) :
    KV.Agree R (s.removeRange (setEntryKey c n lo) (setEntryKey c n hi)) s := by
  rintro _ ⟨r, rfl, rfl⟩
  rw [get_removeRange, if_neg]
  intro hin
  obtain ⟨e, rfl, -⟩ := (Record.inRange_entryKeys_iff r c n lo hi).mp hin
  exact hR rfl

/-- Two databases agree on replica `R`: the same records under its keys and the same
cache entries. -/
def DB.Agree (R : NodeInfo) (db₁ db₂ : DB) : Prop :=
  KV.Agree R db₁.kvs db₂.kvs ∧ Cache.Agree R db₁.cs db₂.cs

namespace DB.Agree

variable {R : NodeInfo} {db₁ db₂ db₃ : DB}

theorem refl (R : NodeInfo) (db : DB) : DB.Agree R db db :=
  ⟨fun _ _ ↦ rfl, Cache.Agree.refl R db.cs⟩

theorem symm (h : DB.Agree R db₁ db₂) : DB.Agree R db₂ db₁ :=
  ⟨fun k hk ↦ (h.1 k hk).symm, h.2.symm⟩

theorem trans (h : DB.Agree R db₁ db₂) (h' : DB.Agree R db₂ db₃) : DB.Agree R db₁ db₃ :=
  ⟨fun k hk ↦ (h.1 k hk).trans (h'.1 k hk), h.2.trans h'.2⟩

end DB.Agree

/-- Databases that agree on every replica are equal: every stored record belongs to
a replica. -/
theorem DB.eq_of_agree {db₁ db₂ : DB} (h : ∀ R, DB.Agree R db₁ db₂) : db₁ = db₂ := by
  have hkey : ∀ (s : KV) k r, s.get k = some r → KeyOf r.nodeInfo k := fun _ _ r hr ↦
    ⟨r, rfl, (KV.get_eq_some_iff.mp hr).2⟩
  obtain ⟨s₁, ps₁, mi₁, si₁⟩ := db₁
  obtain ⟨s₂, ps₂, mi₂, si₂⟩ := db₂
  have hkvs : s₁ = s₂ := KV.ext_get fun k ↦ by
    cases h₁ : s₁.get k with
    | some r => rw [← h₁]; exact (h r.nodeInfo).1 k (hkey _ _ _ h₁)
    | none =>
        cases h₂ : s₂.get k with
        | none => rfl
        | some r => rw [← h₁, ← h₂]; exact (h r.nodeInfo).1 k (hkey _ _ _ h₂)
  have hps : ps₁ = ps₂ := funext fun R ↦ (h R).2.1
  have hmi : mi₁ = mi₂ := funext fun R ↦ (h R).2.2.1
  have hsi : si₁ = si₂ := funext fun R ↦ (h R).2.2.2
  subst hkvs hps hmi hsi
  rfl

/-! Cache changes at one replica keep every agreement. -/

namespace Cache.Agree

variable {R : NodeInfo} {cs₁ cs₂ : Cache}

theorem setMaxIndex (h : Cache.Agree R cs₁ cs₂) (c n v : UInt64) :
    Cache.Agree R (cs₁.setMaxIndex c n v) (cs₂.setMaxIndex c n v) := by
  refine ⟨h.1, ?_, h.2.2⟩
  simp only [Cache.setMaxIndex_maxIndex, Function.update_apply, h.2.1]

theorem setSnapshotIndex (h : Cache.Agree R cs₁ cs₂) (c n v : UInt64) :
    Cache.Agree R (cs₁.setSnapshotIndex c n v) (cs₂.setSnapshotIndex c n v) := by
  refine ⟨h.1, h.2.1, ?_⟩
  simp only [Cache.setSnapshotIndex_snapshotIndex, Function.update_apply, h.2.2]

theorem foldl_entryCache (h : Cache.Agree R cs₁ cs₂) (uds : List Update) :
    Cache.Agree R (uds.foldl entryCache cs₁) (uds.foldl entryCache cs₂) := by
  induction uds generalizing cs₁ cs₂ with
  | nil => exact h
  | cons ud uds ih =>
      refine ih ?_
      unfold entryCache
      split
      · exact h.setMaxIndex _ _ _
      · exact h

end Cache.Agree

theorem Cache.agree_setMaxIndex_of_ne {R : NodeInfo} {c n : UInt64} (hR : R ≠ ⟨c, n⟩)
    (cs : Cache) (v : UInt64) : Cache.Agree R (cs.setMaxIndex c n v) cs := by
  refine ⟨rfl, ?_, rfl⟩
  simp only [Cache.setMaxIndex_maxIndex, Function.update_noteq hR]

theorem Cache.agree_setSnapshotIndex_of_ne {R : NodeInfo} {c n : UInt64} (hR : R ≠ ⟨c, n⟩)
    (cs : Cache) (v : UInt64) : Cache.Agree R (cs.setSnapshotIndex c n v) cs := by
  refine ⟨rfl, rfl, ?_⟩
  simp only [Cache.setSnapshotIndex_snapshotIndex, Function.update_noteq hR]

/-! ## The loops over updates, with no storage fault -/

/-- With no storage fault, a round of the first loop of `saveRaftState` stops only on
the panic: a snapshot taken that the update's entries do not reach. -/
theorem stageUpdate_noFaults_error {kvs : KV} {st : Staging} {ud : Update} {e : Stop}
    (h : stageUpdate noFaults kvs st ud = .error e) :
    ∃ p, e = .panic p ∧ snapshotAccepted st.cs ud = true ∧ maxIndexNotHandled ud = some p := by
  simp only [stageUpdate, saveState_eq, saveSnapshot_noFaults] at h
  split at h
  · cases h
  · next hne =>
      split at h
      · cases h
      · next cs' htry =>
          split at h
          · next p hp =>
              have hacc := congrArg Prod.fst htry
              simp only [Cache.trySaveSnapshot_fst, stateCache_snapshotIndex,
                decide_eq_true_eq] at hacc
              cases h
              exact ⟨p, rfl, by simp [snapshotAccepted, hne, hacc], hp⟩
          · cases h

theorem stageUpdate_noFaults_ok_iff (kvs : KV) (st : Staging) (ud : Update) :
    (∃ st', stageUpdate noFaults kvs st ud = .ok st') ↔
      (snapshotAccepted st.cs ud = true → maxIndexNotHandled ud = none) := by
  refine ⟨fun ⟨_, h⟩ ↦ (stageUpdate_eq_ok h).2.2, fun h ↦ ?_⟩
  cases hs : stageUpdate noFaults kvs st ud with
  | ok st' => exact ⟨st', rfl⟩
  | error e =>
      obtain ⟨p, -, hacc, hp⟩ := stageUpdate_noFaults_error hs
      exact Option.noConfusion ((h hacc).symm.trans hp)

/-- With no storage fault, whether the first loop of `saveRaftState` runs to its end
depends only on the cache entries of the updates' replicas. -/
theorem stageUpdates_noFaults_ok_congr {kvs₁ kvs₂ : KV} :
    ∀ {st₁ st₂ : Staging} {uds : List Update},
      (∀ ud ∈ uds, Cache.Agree ud.nodeInfo st₁.cs st₂.cs) →
      ((∃ st₁', stageUpdates noFaults kvs₁ st₁ uds = .ok st₁') ↔
        (∃ st₂', stageUpdates noFaults kvs₂ st₂ uds = .ok st₂'))
  | _, _, [], _ => ⟨fun _ ↦ ⟨_, rfl⟩, fun _ ↦ ⟨_, rfl⟩⟩
  | st₁, st₂, ud :: uds, hall => by
      have hud := hall ud (List.mem_cons_self _ _)
      have hok : (∃ st₁', stageUpdate noFaults kvs₁ st₁ ud = .ok st₁') ↔
          (∃ st₂', stageUpdate noFaults kvs₂ st₂ ud = .ok st₂') := by
        rw [stageUpdate_noFaults_ok_iff, stageUpdate_noFaults_ok_iff, snapshotAccepted_congr hud]
      rw [stageUpdates, stageUpdates]
      cases h₁ : stageUpdate noFaults kvs₁ st₁ ud with
      | error e₁ =>
          cases h₂ : stageUpdate noFaults kvs₂ st₂ ud with
          | error e₂ => simp
          | ok st₂' => simpa [h₁] using hok.mpr ⟨_, h₂⟩
      | ok st₁' =>
          obtain ⟨st₂', h₂⟩ := hok.mp ⟨_, h₁⟩
          rw [h₂]
          have hc₁ := (stageUpdate_eq_ok h₁).2.1
          have hc₂ := (stageUpdate_eq_ok h₂).2.1
          refine stageUpdates_noFaults_ok_congr fun u hu ↦ ?_
          rw [hc₁, hc₂]
          exact step_agree (fun _ _ _ ↦ stageCache_agree_of_ne) (fun _ _ _ ↦ stageCache_congr) hud
            (hall u (List.mem_cons_of_mem _ hu))

/-- The operations staged for a snapshot read the store only through the replica's
snapshot listing. -/
theorem snapshotOps_congr_kvs {kvs₁ kvs₂ : KV} {ud : Update}
    (h : kvs₁.snapshotsOf ud.clusterID ud.nodeID = kvs₂.snapshotsOf ud.clusterID ud.nodeID) :
    snapshotOps kvs₁ ud = snapshotOps kvs₂ ud := by
  simp only [snapshotOps, h]

/-- What either saving loop stages for an update reads only the update's replica: its
snapshot listing and its cache entries. -/
theorem stageOps_agree {kvs₁ kvs₂ : KV} {cs₁ cs₂ : Cache} {ud : Update}
    (hkv : KV.Agree ud.nodeInfo kvs₁ kvs₂) (hcs : Cache.Agree ud.nodeInfo cs₁ cs₂) :
    stageOps kvs₁ cs₁ ud = stageOps kvs₂ cs₂ ud := by
  have hsnap : snapshotOps kvs₁ ud = snapshotOps kvs₂ ud := snapshotOps_congr_kvs hkv.snapshotsOf
  rw [stageOps_congr hcs]
  simp only [stageOps, hsnap]

theorem snapshotsOps_agree {kvs₁ kvs₂ : KV} {cs₁ cs₂ : Cache} {ud : Update}
    (hkv : KV.Agree ud.nodeInfo kvs₁ kvs₂) (hcs : Cache.Agree ud.nodeInfo cs₁ cs₂) :
    snapshotsOps kvs₁ cs₁ ud = snapshotsOps kvs₂ cs₂ ud := by
  have hsnap : snapshotOps kvs₁ ud = snapshotOps kvs₂ ud := snapshotOps_congr_kvs hkv.snapshotsOf
  rw [snapshotsOps_congr hcs]
  simp only [snapshotsOps, hsnap]

/-- The loop of `saveSnapshots` with no storage fault, over any updates. -/
theorem stageSnapshots_noFaults_thread (kvs : KV) :
    ∀ (st : Staging) (toSave : Bool) (uds : List Update),
      ∃ st' toSave', stageSnapshots noFaults kvs st toSave uds = .ok (st', toSave') ∧
        st'.wb = ⟨st.wb.ops ++ threadOps (snapshotsOps kvs) snapshotsCache st.cs uds⟩ ∧
        st'.cs = uds.foldl snapshotsCache st.cs
  | st, toSave, [] => ⟨st, toSave, rfl, by simp [threadOps], rfl⟩
  | st, toSave, ud :: uds => by
      obtain ⟨st₁, toSave₁, hstep, hwb₁, hcs₁⟩ := stageSnapshots_cons_noFaults kvs st toSave ud uds
      obtain ⟨st', toSave', hrun, hwb, hcs⟩ := stageSnapshots_noFaults_thread kvs st₁ toSave₁ uds
      refine ⟨st', toSave', hstep.trans hrun, ?_, by rw [hcs, hcs₁]; rfl⟩
      rw [hwb, hwb₁, hcs₁, threadOps, List.append_assoc]

/-! ## What each call does, with no storage fault -/

theorem call_saveRaftState_isSome (db : DB) (uds : List Update) :
    (db.call (.saveRaftState uds)).isSome ↔
      ∃ st, stageUpdates noFaults db.kvs ⟨.empty, db.cs, 0⟩ uds = .ok st := by
  constructor
  · intro h
    obtain ⟨db', hdb'⟩ := Option.isSome_iff_exists.mp h
    simp only [DB.call] at hdb'
    split at hdb'
    · next r db₁ hr => exact (saveRaftState_noFaults hr).2
    · cases hdb'
  · rintro ⟨st, hst⟩
    rcases saveRaftState_of_stageUpdates hst with h' | ⟨e, h'⟩ <;> simp [DB.call, h']

/-- With no storage fault, the first loop over updates of distinct replicas stops only
on the panic of the first update whose snapshot the cache `cs` takes and whose entries
end below it. -/
theorem stageUpdates_noFaults_error_iff {kvs : KV} {cs : Cache} {e : Stop} :
    ∀ {st : Staging} {uds : List Update}, (uds.map Update.nodeInfo).Nodup →
      (∀ ud ∈ uds, Cache.Agree ud.nodeInfo st.cs cs) →
      (stageUpdates noFaults kvs st uds = .error e ↔ ∃ p, e = .panic p ∧
        (uds.find? fun ud ↦ snapshotAccepted cs ud && (maxIndexNotHandled ud).isSome).bind
          maxIndexNotHandled = some p)
  | _, [], _, _ => by simp [stageUpdates]
  | st, ud :: uds, hnd, hall => by
      rw [List.map_cons, List.nodup_cons] at hnd
      have hacc := snapshotAccepted_congr (hall ud (List.mem_cons_self _ _))
      rw [stageUpdates]
      cases h₁ : stageUpdate noFaults kvs st ud with
      | error e₁ =>
          obtain ⟨p, rfl, ha, hp⟩ := stageUpdate_noFaults_error h₁
          rw [List.find?_cons_of_pos _ (by simp [← hacc, ha, hp])]
          simp [hp, eq_comm]
      | ok st₁ =>
          -- the round passed the check, so the search passes over `ud` too
          have hskip : ¬ (snapshotAccepted cs ud && (maxIndexNotHandled ud).isSome) := fun h ↦ by
            rw [Bool.and_eq_true, ← hacc] at h
            simp [(stageUpdate_eq_ok h₁).2.2 h.1] at h
          rw [List.find?_cons_of_neg _ (by exact hskip)]
          refine stageUpdates_noFaults_error_iff hnd.2 fun u hu ↦ ?_
          have hne : ud.nodeInfo ≠ u.nodeInfo := fun h ↦ hnd.1 (h ▸ List.mem_map_of_mem _ hu)
          rw [(stageUpdate_eq_ok h₁).2.1]
          exact (stageCache_agree_of_ne hne).trans (hall u (List.mem_cons_of_mem _ hu))

/-- `saveRaftState` panics exactly when its first loop stops on a panic. -/
theorem saveRaftState_eq_error_iff {f : Faults} {db : DB} {uds : List Update} {p : Panic} :
    saveRaftState f db uds = .error p ↔
      stageUpdates f db.kvs ⟨.empty, db.cs, 0⟩ uds = .error (.panic p) := by
  cases hst : stageUpdates f db.kvs ⟨.empty, db.cs, 0⟩ uds with
  | ok st => rcases saveRaftState_of_stageUpdates hst with h | ⟨e, h⟩ <;> simp [h]
  | error e =>
      unfold saveRaftState
      rw [hst]
      cases e <;> simp

/-- With every storage call succeeding, `saveRaftState` over updates of distinct
replicas panics with `max index not handled` exactly when the cache takes the snapshot
of an update whose last entry lies below it, and then with the snapshot index and last
entry index of the first such update; otherwise it returns. -/
theorem saveRaftState_panics_iff (db : DB) {uds : List Update}
    (hnd : (uds.map Update.nodeInfo).Nodup) (p : Panic) :
    saveRaftState noFaults db uds = .error p ↔
      (uds.find? fun ud ↦ snapshotAccepted db.cs ud && (maxIndexNotHandled ud).isSome).bind
        maxIndexNotHandled = some p := by
  rw [saveRaftState_eq_error_iff,
    stageUpdates_noFaults_error_iff hnd fun _ _ ↦ Cache.Agree.refl _ _]
  simp

/-- Entries up to 6 for replica `⟨1, 1⟩` with a snapshot at 9, and entries up to 7 for
`⟨1, 2⟩` with a snapshot at 8. -/
def panicUpdates : List Update :=
  [⟨1, 1, ⟨1, 1, 6⟩, [⟨5, 1⟩, ⟨6, 1⟩], ⟨9, 1, 1, .regularStateMachine⟩⟩,
    ⟨1, 2, ⟨1, 1, 7⟩, [⟨7, 1⟩], ⟨8, 1, 1, .regularStateMachine⟩⟩]

theorem saveRaftState_panics_iff_panicUpdates :
    (panicUpdates.map Update.nodeInfo).Nodup ∧
      (saveRaftState noFaults DB.empty panicUpdates = .error (.maxIndexNotHandled 9 6) ↔
        (panicUpdates.find? fun ud ↦
            snapshotAccepted DB.empty.cs ud && (maxIndexNotHandled ud).isSome).bind
          maxIndexNotHandled = some (.maxIndexNotHandled 9 6)) :=
  ⟨by decide, saveRaftState_panics_iff DB.empty (by decide) _⟩

/-- The panic names the first offending update. -/
example : saveRaftState noFaults DB.empty panicUpdates = .error (.maxIndexNotHandled 9 6) := rfl

theorem call_saveSnapshots_thread (db : DB) (uds : List Update) :
    db.call (.saveSnapshots uds) =
      some ⟨db.kvs.apply ⟨threadOps (snapshotsOps db.kvs) snapshotsCache db.cs uds⟩,
        uds.foldl snapshotsCache db.cs⟩ := by
  obtain ⟨st, toSave, hst, hwb, hcs⟩ :=
    stageSnapshots_noFaults_thread db.kvs ⟨.empty, db.cs, 0⟩ false uds
  show some (saveSnapshots noFaults db uds).2 = _
  rw [saveSnapshots_noFaults hst, hwb, hcs]
  rfl

theorem call_importSnapshot_eq (db : DB) (ss : Snapshot) (nodeID : UInt64) :
    db.call (.importSnapshot ss nodeID) =
      if ss.type = .unknownStateMachine then none else
      some { db with kvs := db.kvs.apply (saveMaxIndex
        ⟨(importPrefix ss nodeID (db.kvs.snapshotsOf ss.clusterId nodeID)).ops ++
          if (importUpdate ss nodeID).snapshot.isEmpty then []
          else snapshotOps db.kvs (importUpdate ss nodeID)⟩ ss.clusterId nodeID ss.index) } := by
  by_cases ht : ss.type = .unknownStateMachine
  · simp [DB.call, importSnapshot, ht]
  · simp only [DB.call, importSnapshot, if_neg ht, listSnapshots_eq, storageCall_noFaults,
      saveSnapshot_noFaults, KV.commitWriteBatch]
    rfl

/-! ## Each call keeps to the replicas it names -/

/-- The replicas a call names: the updates' replicas for the two saving calls, its one
replica for every other call. -/
def Call.replicas : Call → List NodeInfo
  | .saveRaftState uds | .saveSnapshots uds => uds.map Update.nodeInfo
  | .importSnapshot ss nodeID => [⟨ss.clusterId, nodeID⟩]
  | .removeNodeData c n | .removeEntriesTo c n _ | .compact c n _
  | .saveBootstrapInfo c n _ | .getSnapshot c n => [⟨c, n⟩]

theorem not_keyOf_of_not_mem {R : NodeInfo} {uds : List Update}
    (hR : R ∉ uds.map Update.nodeInfo) {k : Bytes} (hk : ∃ ud ∈ uds, KeyOf ud.nodeInfo k) :
    ¬ KeyOf R k := fun hRk ↦ by
  obtain ⟨ud, hud, hk⟩ := hk
  exact hR (KeyOf.unique hRk hk ▸ List.mem_map_of_mem _ hud)

/-- With every storage call succeeding, a call leaves the records and the cache entries
of every replica it does not name as they were. -/
theorem call_frame {db db' : DB} {call : Call} {R : NodeInfo} (h : db.call call = some db')
    (hR : R ∉ call.replicas) : DB.Agree R db' db := by
  cases call with
  | saveRaftState uds =>
      obtain ⟨hkvs, hcs⟩ := call_saveRaftState_thread h
      refine ⟨hkvs ▸ KV.agree_apply_of_not_keyOf _ fun op hop ↦ not_keyOf_of_not_mem hR ?_,
        hcs ▸ caches_agree_of_not_mem hR⟩
      rcases List.mem_append.mp hop with hop | hop
      · obtain ⟨cs, ud, hud, hop⟩ := mem_threadOps hop
        exact ⟨ud, hud, stageOps_keyOf _ cs ud op hop⟩
      · obtain ⟨ud, hud, hop⟩ := List.mem_flatMap.mp hop
        exact ⟨ud, hud, entryOps_keyOf ud op hop⟩
  | saveSnapshots uds =>
      rw [call_saveSnapshots_thread] at h
      cases h
      refine ⟨KV.agree_apply_of_not_keyOf _ fun op hop ↦ not_keyOf_of_not_mem hR ?_,
        foldl_agree_of_not_mem (fun _ _ _ ↦ snapshotsCache_agree_of_ne) hR⟩
      obtain ⟨cs, ud, hud, hop⟩ := mem_threadOps hop
      exact ⟨ud, hud, snapshotsOps_keyOf _ cs ud op hop⟩
  | importSnapshot ss nodeID =>
      have hR' : R ≠ ⟨ss.clusterId, nodeID⟩ := List.ne_of_not_mem_cons hR
      have himp := call_importSnapshot h
      obtain ⟨ops, hops, hkvs⟩ := importSnapshot_metaKey himp
      refine ⟨hkvs ▸ KV.agree_apply_of_not_keyOf _ fun op hop hk ↦
        hR' (KeyOf.unique hk (hops op hop).keyOf), ?_⟩
      obtain ⟨-, -, -, hcs⟩ := importSnapshot_eq_none himp
      exact hcs ▸ Cache.Agree.refl _ _
  | removeNodeData c n =>
      have hR' : R ≠ ⟨c, n⟩ := List.ne_of_not_mem_cons hR
      obtain ⟨hkvs, hcs⟩ := call_removeNodeData h
      refine ⟨hkvs ▸ (KV.agree_removeRange_entries _ hR').trans
        (KV.agree_apply_of_not_keyOf _ fun op hop hk ↦
          hR' (KeyOf.unique hk (saveRemoveNodeData_metaKey _ c n op hop).keyOf)),
        hcs ▸ Cache.agree_setMaxIndex_of_ne hR' _ _⟩
  | removeEntriesTo c n index =>
      have hR' : R ≠ ⟨c, n⟩ := List.ne_of_not_mem_cons hR
      rw [call_removeEntriesTo h]
      exact ⟨KV.agree_removeRange_entries _ hR', Cache.Agree.refl _ _⟩
  | compact =>
      rw [call_compact h]
      exact DB.Agree.refl _ _
  | saveBootstrapInfo c n bs =>
      have hR' : R ≠ ⟨c, n⟩ := List.ne_of_not_mem_cons hR
      rw [call_saveBootstrapInfo h]
      exact ⟨KV.agree_put_of_not_keyOf _ fun hk ↦
          hR' (KeyOf.unique hk ⟨.bootstrap c n bs, rfl, rfl⟩),
        Cache.Agree.refl _ _⟩
  | getSnapshot c n =>
      have hR' : R ≠ ⟨c, n⟩ := List.ne_of_not_mem_cons hR
      rw [call_getSnapshot h]
      split
      · exact ⟨fun _ _ ↦ rfl, Cache.agree_setSnapshotIndex_of_ne hR' _ _⟩
      · exact DB.Agree.refl _ _

/-- With every storage call succeeding, whether a call panics, and what it leaves at
every replica, depend only on the records and cache entries of the replicas it names:
two databases that agree there give results that agree wherever the databases did. -/
theorem call_local {db₁ db₂ : DB} {call : Call}
    (hagree : ∀ R ∈ call.replicas, DB.Agree R db₁ db₂) :
    (db₁.call call).isSome = (db₂.call call).isSome ∧
      ∀ db₁' db₂', db₁.call call = some db₁' → db₂.call call = some db₂' →
        ∀ R, DB.Agree R db₁ db₂ → DB.Agree R db₁' db₂' := by
  cases call with
  | saveRaftState uds =>
      have hall : ∀ ud ∈ uds, DB.Agree ud.nodeInfo db₁ db₂ := fun ud hud ↦
        hagree _ (List.mem_map_of_mem _ hud)
      refine ⟨Bool.eq_iff_iff.mpr ((call_saveRaftState_isSome _ _).trans
        ((stageUpdates_noFaults_ok_congr fun ud hud ↦ (hall ud hud).2).trans
          (call_saveRaftState_isSome _ _).symm)), fun db₁' db₂' h₁ h₂ R hR ↦ ?_⟩
      obtain ⟨hkvs₁, hcs₁⟩ := call_saveRaftState_thread h₁
      obtain ⟨hkvs₂, hcs₂⟩ := call_saveRaftState_thread h₂
      obtain ⟨hops, hfold⟩ := threadOps_congr (fun _ _ _ ↦ stageCache_agree_of_ne)
        (fun _ _ _ ↦ stageCache_congr) (fun ud hud _ _ ↦ stageOps_agree (hall ud hud).1)
        fun ud hud ↦ (hall ud hud).2
      refine ⟨?_, ?_⟩
      · rw [hkvs₁, hkvs₂, hops]
        exact hR.1.apply _
      · rw [hcs₁, hcs₂]
        exact (hfold R hR.2).foldl_entryCache uds
  | saveSnapshots uds =>
      have hall : ∀ ud ∈ uds, DB.Agree ud.nodeInfo db₁ db₂ := fun ud hud ↦
        hagree _ (List.mem_map_of_mem _ hud)
      refine ⟨by rw [call_saveSnapshots_thread, call_saveSnapshots_thread]; rfl,
        fun db₁' db₂' h₁ h₂ R hR ↦ ?_⟩
      rw [call_saveSnapshots_thread] at h₁ h₂
      cases h₁
      cases h₂
      obtain ⟨hops, hfold⟩ := threadOps_congr (fun _ _ _ ↦ snapshotsCache_agree_of_ne)
        (fun _ _ _ ↦ snapshotsCache_congr) (fun ud hud _ _ ↦ snapshotsOps_agree (hall ud hud).1)
        fun ud hud ↦ (hall ud hud).2
      refine ⟨?_, hfold R hR.2⟩
      rw [hops]
      exact hR.1.apply _
  | importSnapshot ss nodeID =>
      have hsnap := (hagree _ (List.mem_singleton_self _)).1.snapshotsOf
      have hops : snapshotOps db₁.kvs (importUpdate ss nodeID) =
          snapshotOps db₂.kvs (importUpdate ss nodeID) := snapshotOps_congr_kvs hsnap
      rw [call_importSnapshot_eq, call_importSnapshot_eq]
      refine ⟨by split_ifs <;> rfl, fun db₁' db₂' h₁ h₂ R hR ↦ ?_⟩
      split at h₁ <;> cases h₁
      split at h₂ <;> cases h₂
      refine ⟨?_, hR.2⟩
      simp only [hsnap, hops]
      exact hR.1.apply _
  | removeNodeData c n =>
      have hsnap := (hagree _ (List.mem_singleton_self _)).1.snapshotsOf
      refine ⟨rfl, fun db₁' db₂' h₁ h₂ R hR ↦ ?_⟩
      obtain ⟨hkvs₁, hcs₁⟩ := call_removeNodeData h₁
      obtain ⟨hkvs₂, hcs₂⟩ := call_removeNodeData h₂
      refine ⟨?_, ?_⟩
      · rw [hkvs₁, hkvs₂, hsnap]
        exact (hR.1.apply _).removeRange _ _
      · rw [hcs₁, hcs₂]
        exact hR.2.setMaxIndex _ _ _
  | removeEntriesTo c n index =>
      refine ⟨rfl, fun db₁' db₂' h₁ h₂ R hR ↦ ?_⟩
      rw [call_removeEntriesTo h₁, call_removeEntriesTo h₂]
      exact ⟨hR.1.removeRange _ _, hR.2⟩
  | compact =>
      refine ⟨rfl, fun db₁' db₂' h₁ h₂ R hR ↦ ?_⟩
      rw [call_compact h₁, call_compact h₂]
      exact hR
  | saveBootstrapInfo c n bs =>
      refine ⟨rfl, fun db₁' db₂' h₁ h₂ R hR ↦ ?_⟩
      rw [call_saveBootstrapInfo h₁, call_saveBootstrapInfo h₂]
      exact ⟨hR.1.put _, hR.2⟩
  | getSnapshot c n =>
      have hsnap := (hagree _ (List.mem_singleton_self _)).1.snapshotsOf
      refine ⟨rfl, fun db₁' db₂' h₁ h₂ R hR ↦ ?_⟩
      rw [call_getSnapshot h₁, call_getSnapshot h₂, hsnap]
      split
      · exact ⟨hR.1, hR.2.setSnapshotIndex _ _ _⟩
      · exact hR

/-! ## Calls on different replicas commute -/

/-- With every storage call succeeding, two calls that name no replica in common give
the same database in either order, and panic in one order exactly when they do in the
other. -/
theorem call_comm {db : DB} {c₁ c₂ : Call} (hdisj : ∀ R ∈ c₁.replicas, R ∉ c₂.replicas) :
    (db.call c₁).bind (·.call c₂) = (db.call c₂).bind (·.call c₁) := by
  cases h₁ : db.call c₁ with
  | none =>
      cases h₂ : db.call c₂ with
      | none => rfl
      | some db₂ =>
          have hs := (call_local fun R hR ↦ call_frame h₂ (hdisj R hR)).1
          rw [h₁] at hs
          cases h₂₁ : db₂.call c₁ with
          | none => simp [h₂₁]
          | some _ => simp [h₂₁] at hs
  | some db₁ =>
      have hs₁₂ := call_local fun R hR ↦ call_frame h₁ fun hR₁ ↦ hdisj R hR₁ hR
      cases h₂ : db.call c₂ with
      | none =>
          rw [h₂] at hs₁₂
          cases h₁₂ : db₁.call c₂ with
          | none => simp [h₁₂]
          | some _ => simp [h₁₂] at hs₁₂
      | some db₂ =>
          have hs₂₁ := call_local fun R hR ↦ call_frame h₂ (hdisj R hR)
          obtain ⟨db₁₂, h₁₂⟩ := Option.isSome_iff_exists.mp (hs₁₂.1.trans (by rw [h₂]; rfl))
          obtain ⟨db₂₁, h₂₁⟩ := Option.isSome_iff_exists.mp (hs₂₁.1.trans (by rw [h₁]; rfl))
          simp only [Option.some_bind, h₁₂, h₂₁, Option.some.injEq]
          refine DB.eq_of_agree fun R ↦ ?_
          by_cases hR₁ : R ∈ c₁.replicas
          · -- `c₂` leaves `R` alone, and `c₁` writes it alike from `db` and from `db₂`
            have hR₂ := hdisj R hR₁
            exact (call_frame h₁₂ hR₂).trans (hs₂₁.2 _ _ h₂₁ h₁ R (call_frame h₂ hR₂)).symm
          · exact (hs₁₂.2 _ _ h₁₂ h₂ R (call_frame h₁ hR₁)).trans (call_frame h₂₁ hR₁).symm

theorem DB.run_cons_cons (db : DB) (c₁ c₂ : Call) (calls : List Call) :
    db.run (c₁ :: c₂ :: calls) = ((db.call c₁).bind (·.call c₂)).bind (·.run calls) := by
  simp only [DB.run, Option.bind_assoc]

/-- A call that names no replica of any of `calls` can be moved past them all. -/
theorem DB.run_move {c : Call} {calls : List Call}
    (hdisj : ∀ c' ∈ calls, ∀ R ∈ c'.replicas, R ∉ c.replicas) (db : DB) (post : List Call) :
    db.run (c :: calls ++ post) = db.run (calls ++ c :: post) := by
  induction calls generalizing db with
  | nil => rfl
  | cons c' calls ih =>
      rw [List.cons_append, List.cons_append, DB.run_cons_cons,
        @call_comm db c c' fun R hR hR' ↦ hdisj c' (List.mem_cons_self _ _) R hR' hR]
      simp only [Option.bind_assoc, DB.run, List.append_eq,
        ← ih fun c'' h ↦ hdisj c'' (List.mem_cons_of_mem _ h)]

/-- `calls` interleaves the runs `calls₁` and `calls₂`: it holds the calls of both,
each run's in its own order. -/
inductive Interleaves : List Call → List Call → List Call → Prop
  | nil : Interleaves [] [] []
  | left {c : Call} {calls₁ calls₂ calls : List Call} :
      Interleaves calls₁ calls₂ calls → Interleaves (c :: calls₁) calls₂ (c :: calls)
  | right {c : Call} {calls₁ calls₂ calls : List Call} :
      Interleaves calls₁ calls₂ calls → Interleaves calls₁ (c :: calls₂) (c :: calls)

/-- With every storage call succeeding, two runs whose calls name disjoint sets of
replicas, interleaved in any way, end with the database, or the panic, of the first run
followed by the second: no update of either is lost or changed by the other. -/
theorem run_interleaves_disjoint {calls₁ calls₂ calls : List Call}
    (h : Interleaves calls₁ calls₂ calls)
    (hdisj : ∀ c₁ ∈ calls₁, ∀ c₂ ∈ calls₂, ∀ R ∈ c₁.replicas, R ∉ c₂.replicas) (db : DB) :
    db.run calls = db.run (calls₁ ++ calls₂) := by
  induction h generalizing db with
  | nil => rfl
  | @left c calls₁ calls₂ calls _ ih =>
      simp only [DB.run, List.append_eq, ih fun c₁ h₁ ↦ hdisj c₁ (List.mem_cons_of_mem _ h₁)]
  | @right c calls₁ calls₂ calls _ ih =>
      calc db.run (c :: calls)
          = db.run (c :: (calls₁ ++ calls₂)) := by
            simp only [DB.run, ih fun c₁ h₁ c₂ h₂ ↦ hdisj c₁ h₁ c₂ (List.mem_cons_of_mem _ h₂)]
        _ = db.run (calls₁ ++ c :: calls₂) :=
            DB.run_move (fun c₁ h₁ R hR ↦ hdisj c₁ h₁ c (List.mem_cons_self _ _) R hR) db calls₂

/-- One client saves entries for replicas `⟨1, 1⟩` and `⟨1, 2⟩` and compacts `⟨1, 1⟩`'s
log. -/
def clientCalls₁ : List Call := [.saveRaftState sampleUpdates, .removeEntriesTo 1 1 6]

/-- Another registers replica `⟨2, 1⟩` and imports a snapshot for it. -/
def clientCalls₂ : List Call :=
  [.saveBootstrapInfo 2 1 ⟨[(1, "a1")], false, .onDiskStateMachine⟩,
    .importSnapshot ⟨10, 2, 2, .regularStateMachine⟩ 1]

/-- The two clients' calls, interleaved. -/
def interleavedCalls : List Call :=
  [.saveRaftState sampleUpdates, .saveBootstrapInfo 2 1 ⟨[(1, "a1")], false, .onDiskStateMachine⟩,
    .removeEntriesTo 1 1 6, .importSnapshot ⟨10, 2, 2, .regularStateMachine⟩ 1]

theorem run_interleaves_disjoint_clients :
    Interleaves clientCalls₁ clientCalls₂ interleavedCalls ∧
      (∀ c₁ ∈ clientCalls₁, ∀ c₂ ∈ clientCalls₂, ∀ R ∈ c₁.replicas, R ∉ c₂.replicas) ∧
      DB.empty.run interleavedCalls = DB.empty.run (clientCalls₁ ++ clientCalls₂) :=
  ⟨.left (.right (.left (.right .nil))), by decide,
    run_interleaves_disjoint (.left (.right (.left (.right .nil)))) (by decide) DB.empty⟩

end TugboatLogdb
