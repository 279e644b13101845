import TugboatLogdb.Batches

/-!
# What the loops of `saveRaftState` stage

Each update stages operations only under keys of its own replica, and changes
the cache only at its own replica.  So when the updates of one call name
distinct replicas, the batch is the updates' own operations one after another,
each computed against the cache the call started from, and the cache reads, for
each replica, as if that replica's update had been the only one.
-/

namespace TugboatLogdb

/-- The replica an update is for. -/
def Update.nodeInfo (ud : Update) : NodeInfo := ⟨ud.clusterID, ud.nodeID⟩

/-- A key of one of replica `R`'s records. -/
def KeyOf (R : NodeInfo) (k : Bytes) : Prop := ∃ r : Record, r.nodeInfo = R ∧ r.key = k

theorem KeyOf.unique {R R' : NodeInfo} {k : Bytes} (h : KeyOf R k) (h' : KeyOf R' k) :
    R = R' := by
  obtain ⟨r, rfl, rfl⟩ := h
  obtain ⟨r', rfl, hk⟩ := h'
  have hf := (Record.key_eq_key_iff.mp hk).2
  cases r <;> cases r' <;> simp_all [Record.fields, Record.nodeInfo]

/-- Two caches that hold the same for replica `R`. -/
def Cache.Agree (R : NodeInfo) (cs cs' : Cache) : Prop :=
  cs.ps R = cs'.ps R ∧ cs.maxIndex R = cs'.maxIndex R ∧ cs.snapshotIndex R = cs'.snapshotIndex R

theorem Cache.Agree.refl (R : NodeInfo) (cs : Cache) : Cache.Agree R cs cs := ⟨rfl, rfl, rfl⟩

theorem Cache.Agree.trans {R : NodeInfo} {a b c : Cache} (h : Cache.Agree R a b)
    (h' : Cache.Agree R b c) : Cache.Agree R a c :=
  ⟨h.1.trans h'.1, h.2.1.trans h'.2.1, h.2.2.trans h'.2.2⟩

theorem Cache.Agree.symm {R : NodeInfo} {a b : Cache} (h : Cache.Agree R a b) :
    Cache.Agree R b a :=
  ⟨h.1.symm, h.2.1.symm, h.2.2.symm⟩

/-! ## One round of the first loop -/

/-- Whether the loops take `ud`'s snapshot against cache `cs`:
`!pb.IsEmptySnapshot(ud.Snapshot) && r.cs.trySaveSnapshot(...)`. -/
def snapshotAccepted (cs : Cache) (ud : Update) : Bool :=
  !ud.snapshot.isEmpty && (cs.trySaveSnapshot ud.clusterID ud.nodeID ud.snapshot.index).1

/-- The put `saveState` stages: `ud`'s state, when it is not empty and the cache
reports it as changed. -/
def stateOps (cs : Cache) (ud : Update) : List Op :=
  if !ud.state.isEmpty && (cs.setState ud.clusterID ud.nodeID ud.state).1 then
    [.put (.state ud.clusterID ud.nodeID ud.state)]
  else []

/-- The cache after `saveState` of `ud`'s state. -/
def stateCache (cs : Cache) (ud : Update) : Cache :=
  if ud.state.isEmpty then cs else (cs.setState ud.clusterID ud.nodeID ud.state).2

/-- What `saveSnapshot` stages for `ud`'s non-empty snapshot over the store `kvs`:
the deletions of the stored snapshots with a smaller index, then the new one. -/
def snapshotOps (kvs : KV) (ud : Update) : List Op :=
  (((kvs.snapshotsOf ud.clusterID ud.nodeID).filter (fun ss ↦ ss.index < ud.snapshot.index)).map
      (fun ss ↦ setSnapshotKey ud.clusterID ud.nodeID ss.index)).map .delete ++
    [.put (.snapshot ud.clusterID ud.nodeID ud.snapshot)]

/-- What one round of the first loop stages for `ud`. -/
def stageOps (kvs : KV) (cs : Cache) (ud : Update) : List Op :=
  stateOps cs ud ++
    if snapshotAccepted cs ud then
      snapshotOps kvs ud ++ [.put (.maxIndex ud.clusterID ud.nodeID ud.snapshot.index)]
    else []

/-- The cache after one round of the first loop for `ud`. -/
def stageCache (cs : Cache) (ud : Update) : Cache :=
  if snapshotAccepted cs ud then
    ((stateCache cs ud).setSnapshotIndex ud.clusterID ud.nodeID ud.snapshot.index).setMaxIndex
      ud.clusterID ud.nodeID ud.snapshot.index
  else stateCache cs ud

theorem saveState_eq (cs : Cache) (ud : Update) (wb : WriteBatch) :
    saveState cs ud.clusterID ud.nodeID ud.state wb =
      (⟨wb.ops ++ stateOps cs ud⟩, stateCache cs ud) := by
  unfold saveState stateOps stateCache
  cases ud.state.isEmpty
  · rw [Cache.setState]
    by_cases hps : cs.ps ⟨ud.clusterID, ud.nodeID⟩ = some ud.state
    · simp [hps]
    · simp [hps, WriteBatch.put]
  · simp

@[simp] theorem stateCache_snapshotIndex (cs : Cache) (ud : Update) :
    (stateCache cs ud).snapshotIndex = cs.snapshotIndex := by
  unfold stateCache; split <;> simp

@[simp] theorem stateCache_maxIndex (cs : Cache) (ud : Update) :
    (stateCache cs ud).maxIndex = cs.maxIndex := by
  unfold stateCache; split <;> simp

theorem saveSnapshot_eq_ok {f : Faults} {i : Nat} {kvs : KV} {wb wb' : WriteBatch}
    {ud : Update} (hne : ud.snapshot.isEmpty = false) (h : saveSnapshot f i kvs wb ud = .ok wb') :
    wb' = ⟨wb.ops ++ snapshotOps kvs ud⟩ := by
  rw [saveSnapshot_of_isEmpty_false ud hne] at h
  unfold storageCall at h
  split at h
  · cases h
  · cases h
    simp [deleteOlderSnapshots_eq, WriteBatch.put, snapshotOps]

/-- One round of the first loop that does not stop: it stages `stageOps` after the
batch, leaves `stageCache`, and has passed the `max index not handled` check for an
accepted snapshot. -/
theorem stageUpdate_eq_ok {f : Faults} {kvs : KV} {st st' : Staging} {ud : Update}
    (h : stageUpdate f kvs st ud = .ok st') :
    st'.wb = ⟨st.wb.ops ++ stageOps kvs st.cs ud⟩ ∧ st'.cs = stageCache st.cs ud ∧
      (snapshotAccepted st.cs ud = true → maxIndexNotHandled ud = none) := by
  unfold stageUpdate at h
  rw [saveState_eq] at h
  unfold stageOps stageCache
  cases hne : ud.snapshot.isEmpty
  case true =>
    simp only [hne, if_true] at h
    cases h
    simp [snapshotAccepted, hne]
  case false =>
    simp only [hne, if_false, Bool.false_eq_true, Cache.trySaveSnapshot_eq,
      stateCache_snapshotIndex] at h
    by_cases hlt : (st.cs.snapshotIndex ⟨ud.clusterID, ud.nodeID⟩).getD 0 < ud.snapshot.index
    · have hacc : snapshotAccepted st.cs ud = true := by simp [snapshotAccepted, hne, hlt]
      simp only [hlt, if_true] at h
      cases hp : maxIndexNotHandled ud
      · simp only [hp] at h
        cases hs : saveSnapshot f st.calls kvs ⟨st.wb.ops ++ stateOps st.cs ud⟩ ud with
        | error e => simp [hs] at h
        | ok wb =>
            simp only [hs] at h
            cases h
            rw [saveSnapshot_eq_ok hne hs]
            simp [hacc, setMaxIndex, saveMaxIndex, WriteBatch.put]
      · simp [hp] at h
    · have hacc : snapshotAccepted st.cs ud = false := by simp [snapshotAccepted, hne, hlt]
      simp only [hlt, if_false] at h
      cases h
      simp [hacc]

/-! ## Each round keeps to its own replica -/

@[simp] theorem keyOf_setStateKey (c n : UInt64) : KeyOf ⟨c, n⟩ (setStateKey c n) :=
  ⟨.state c n ⟨0, 0, 0⟩, rfl, rfl⟩

@[simp] theorem keyOf_setMaxIndexKey (c n : UInt64) : KeyOf ⟨c, n⟩ (setMaxIndexKey c n) :=
  ⟨.maxIndex c n 0, rfl, rfl⟩

@[simp] theorem keyOf_setSnapshotKey (c n i : UInt64) : KeyOf ⟨c, n⟩ (setSnapshotKey c n i) :=
  ⟨.snapshot c n ⟨i, 0, 0, .unknownStateMachine⟩, rfl, rfl⟩

@[simp] theorem keyOf_setEntryKey (c n i : UInt64) : KeyOf ⟨c, n⟩ (setEntryKey c n i) :=
  ⟨.entry c n ⟨i, 0⟩, rfl, rfl⟩

theorem MetaKey.keyOf {c n : UInt64} {k : Bytes} (h : MetaKey c n k) : KeyOf ⟨c, n⟩ k := by
  rcases h with rfl | rfl | rfl | ⟨i, rfl⟩
  · exact keyOf_setStateKey c n
  · exact ⟨.bootstrap c n ⟨[], false, .unknownStateMachine⟩, rfl, rfl⟩
  · exact keyOf_setMaxIndexKey c n
  · exact keyOf_setSnapshotKey c n i

/-- One round of the first loop writes the update's state, max-index and snapshot keys
only. -/
theorem stageOps_key (kvs : KV) (cs : Cache) (ud : Update) :
    ∀ op ∈ stageOps kvs cs ud, op.key = setStateKey ud.clusterID ud.nodeID ∨
      op.key = setMaxIndexKey ud.clusterID ud.nodeID ∨
      ∃ i, op.key = setSnapshotKey ud.clusterID ud.nodeID i := by
  intro op hop
  simp only [stageOps, stateOps, snapshotOps, List.mem_append] at hop
  rcases hop with hop | hop <;> split_ifs at hop
  · rw [List.mem_singleton.mp hop]
    exact .inl rfl
  · cases hop
  · simp only [List.mem_append, List.mem_map, List.mem_singleton] at hop
    rcases hop with (⟨k, ⟨ss, -, rfl⟩, rfl⟩ | rfl) | rfl
    · exact .inr (.inr ⟨_, rfl⟩)
    · exact .inr (.inr ⟨_, rfl⟩)
    · exact .inr (.inl rfl)
  · cases hop

/-- One round of the first loop writes meta keys of the update's replica only. -/
theorem stageOps_metaKey (kvs : KV) (cs : Cache) (ud : Update) :
    ∀ op ∈ stageOps kvs cs ud, MetaKey ud.clusterID ud.nodeID op.key := fun op hop ↦
  (stageOps_key kvs cs ud op hop).elim .inl fun h ↦ .inr (.inr h)

theorem stageOps_keyOf (kvs : KV) (cs : Cache) (ud : Update) :
    ∀ op ∈ stageOps kvs cs ud, KeyOf ud.nodeInfo op.key :=
  fun op hop ↦ (stageOps_metaKey kvs cs ud op hop).keyOf

theorem stageCache_agree_of_ne {cs : Cache} {ud : Update} {R : NodeInfo} (h : ud.nodeInfo ≠ R) :
    Cache.Agree R (stageCache cs ud) cs := by
  have h' : R ≠ ⟨ud.clusterID, ud.nodeID⟩ := Ne.symm h
  unfold stageCache stateCache
  split_ifs <;> simp [Cache.Agree, Function.update_noteq h']

theorem snapshotAccepted_congr {cs cs' : Cache} {ud : Update}
    (h : Cache.Agree ud.nodeInfo cs cs') : snapshotAccepted cs ud = snapshotAccepted cs' ud := by
  have : cs.snapshotIndex ⟨ud.clusterID, ud.nodeID⟩ = cs'.snapshotIndex ⟨ud.clusterID, ud.nodeID⟩ :=
    h.2.2
  simp only [snapshotAccepted, Cache.trySaveSnapshot_fst, this]

theorem stageOps_congr {kvs : KV} {cs cs' : Cache} {ud : Update}
    (h : Cache.Agree ud.nodeInfo cs cs') : stageOps kvs cs ud = stageOps kvs cs' ud := by
  have : cs.ps ⟨ud.clusterID, ud.nodeID⟩ = cs'.ps ⟨ud.clusterID, ud.nodeID⟩ := h.1
  simp only [stageOps, stateOps, Cache.setState_fst, this, snapshotAccepted_congr h]

theorem stageCache_congr {cs cs' : Cache} {ud : Update} (h : Cache.Agree ud.nodeInfo cs cs') :
    Cache.Agree ud.nodeInfo (stageCache cs ud) (stageCache cs' ud) := by
  have hacc := snapshotAccepted_congr h
  obtain ⟨h₁, h₂, h₃⟩ := h
  unfold stageCache stateCache
  rw [hacc]
  split_ifs <;> simp_all [Cache.Agree, Update.nodeInfo]

/-! ## Distinct replicas

Over updates that name distinct replicas, a fold of replica-local cache changes
reads at each replica as that replica's own change, and a key of one replica
holds the last write of that replica's operations. -/

section Distinct

variable {g : Cache → Update → Cache}

theorem foldl_agree_of_not_mem (hne : ∀ cs ud R, ud.nodeInfo ≠ R → Cache.Agree R (g cs ud) cs)
    {R : NodeInfo} :
    ∀ {uds : List Update} {cs : Cache}, R ∉ uds.map Update.nodeInfo →
      Cache.Agree R (uds.foldl g cs) cs
  | [], cs, _ => Cache.Agree.refl R cs
  | ud :: uds, cs, hR => by
      simp only [List.map_cons, List.mem_cons, not_or] at hR
      exact (foldl_agree_of_not_mem hne hR.2).trans (hne cs ud R (Ne.symm hR.1))

theorem foldl_agree_of_mem (hne : ∀ cs ud R, ud.nodeInfo ≠ R → Cache.Agree R (g cs ud) cs)
    (hcongr : ∀ cs cs' ud, Cache.Agree ud.nodeInfo cs cs' →
      Cache.Agree ud.nodeInfo (g cs ud) (g cs' ud)) {ud : Update} :
    ∀ {uds : List Update} {cs : Cache}, (uds.map Update.nodeInfo).Nodup → ud ∈ uds →
      Cache.Agree ud.nodeInfo (uds.foldl g cs) (g cs ud)
  | [], _, _, hud => absurd hud (List.not_mem_nil _)
  | u :: uds, cs, hnd, hud => by
      rw [List.map_cons, List.nodup_cons] at hnd
      rcases List.mem_cons.mp hud with rfl | hud
      · exact foldl_agree_of_not_mem hne hnd.1
      · have hR : u.nodeInfo ≠ ud.nodeInfo := fun h ↦ hnd.1 (h ▸ List.mem_map_of_mem _ hud)
        exact (foldl_agree_of_mem hne hcongr hnd.2 hud).trans (hcongr _ _ ud (hne cs u _ hR))

variable {ops : Update → List Op}

theorem lastWrite_flatMap_of_not_mem (hops : ∀ ud, ∀ op ∈ ops ud, KeyOf ud.nodeInfo op.key)
    {R : NodeInfo} {k : Bytes} (hk : KeyOf R k) :
    ∀ {uds : List Update}, R ∉ uds.map Update.nodeInfo → lastWrite k (uds.flatMap ops) = none
  | [], _ => rfl
  | ud :: uds, hR => by
      simp only [List.map_cons, List.mem_cons, not_or] at hR
      rw [List.flatMap_cons, lastWrite_append, lastWrite_flatMap_of_not_mem hops hk hR.2,
        Option.none_or]
      exact @lastWrite_eq_none k (ops ud) fun op hop hko ↦
        hR.1 (@KeyOf.unique R ud.nodeInfo k hk (hko ▸ hops ud op hop))

theorem lastWrite_flatMap_of_mem (hops : ∀ ud, ∀ op ∈ ops ud, KeyOf ud.nodeInfo op.key)
    {ud : Update} {k : Bytes} (hk : KeyOf ud.nodeInfo k) :
    ∀ {uds : List Update}, (uds.map Update.nodeInfo).Nodup → ud ∈ uds →
      lastWrite k (uds.flatMap ops) = lastWrite k (ops ud)
  | [], _, hud => absurd hud (List.not_mem_nil _)
  | u :: uds, hnd, hud => by
      rw [List.map_cons, List.nodup_cons] at hnd
      rw [List.flatMap_cons, lastWrite_append]
      rcases List.mem_cons.mp hud with rfl | hud
      · rw [lastWrite_flatMap_of_not_mem hops hk hnd.1, Option.none_or]
      · have hR : u.nodeInfo ≠ ud.nodeInfo := fun h ↦ hnd.1 (h ▸ List.mem_map_of_mem _ hud)
        rw [lastWrite_flatMap_of_mem hops hk hnd.2 hud,
          @lastWrite_eq_none k (ops u) fun op hop hko ↦ hR (@KeyOf.unique u.nodeInfo ud.nodeInfo k
            (hko ▸ hops u op hop) hk), Option.or_none]

end Distinct

/-! ## Any updates

Over any updates, a loop stages each update's operations against the cache as the
updates before it left it.  Where each update's operations and cache change read and
write its own replica's cache entries only, two caches that agree at the replicas
named lead to the same operations. -/

/-- The operations a loop stages when each update's operations are computed against
the cache as the updates before it left it. -/
def threadOps (ops : Cache → Update → List Op) (step : Cache → Update → Cache) :
    Cache → List Update → List Op
  | _, [] => []
  | cs, ud :: uds => ops cs ud ++ threadOps ops step (step cs ud) uds

section Thread

variable {step : Cache → Update → Cache}

theorem mem_threadOps {ops : Cache → Update → List Op} {op : Op} :
    ∀ {cs : Cache} {uds : List Update}, op ∈ threadOps ops step cs uds →
      ∃ cs', ∃ ud ∈ uds, op ∈ ops cs' ud
  | _, [], h => absurd h (List.not_mem_nil _)
  | cs, ud :: uds, h => by
      rcases List.mem_append.mp h with h | h
      · exact ⟨cs, ud, List.mem_cons_self _ _, h⟩
      · obtain ⟨cs', u, hu, hop⟩ := mem_threadOps h
        exact ⟨cs', u, List.mem_cons_of_mem _ hu, hop⟩

/-- A cache change that touches only the update's replica, and reads only its entries
there, keeps every agreement of two caches that agree at that replica. -/
theorem step_agree (hne : ∀ cs ud R, ud.nodeInfo ≠ R → Cache.Agree R (step cs ud) cs)
    (hcongr : ∀ cs cs' ud, Cache.Agree ud.nodeInfo cs cs' →
      Cache.Agree ud.nodeInfo (step cs ud) (step cs' ud))
    {cs₁ cs₂ : Cache} {ud : Update} (hud : Cache.Agree ud.nodeInfo cs₁ cs₂) {R : NodeInfo}
    (hR : Cache.Agree R cs₁ cs₂) : Cache.Agree R (step cs₁ ud) (step cs₂ ud) := by
  by_cases h : ud.nodeInfo = R
  · exact h ▸ hcongr _ _ _ hud
  · exact ((hne cs₁ ud R h).trans hR).trans (hne cs₂ ud R h).symm

theorem threadOps_congr {ops₁ ops₂ : Cache → Update → List Op}
    (hne : ∀ cs ud R, ud.nodeInfo ≠ R → Cache.Agree R (step cs ud) cs)
    (hcongr : ∀ cs cs' ud, Cache.Agree ud.nodeInfo cs cs' →
      Cache.Agree ud.nodeInfo (step cs ud) (step cs' ud)) :
    ∀ {cs₁ cs₂ : Cache} {uds : List Update},
      (∀ ud ∈ uds, ∀ cs cs', Cache.Agree ud.nodeInfo cs cs' → ops₁ cs ud = ops₂ cs' ud) →
      (∀ ud ∈ uds, Cache.Agree ud.nodeInfo cs₁ cs₂) →
      threadOps ops₁ step cs₁ uds = threadOps ops₂ step cs₂ uds ∧
        ∀ R, Cache.Agree R cs₁ cs₂ → Cache.Agree R (uds.foldl step cs₁) (uds.foldl step cs₂)
  | _, _, [], _, _ => ⟨rfl, fun _ h ↦ h⟩
  | cs₁, cs₂, ud :: uds, hops, hall => by
      have hud := hall ud (List.mem_cons_self _ _)
      have hstep : ∀ R, Cache.Agree R cs₁ cs₂ → Cache.Agree R (step cs₁ ud) (step cs₂ ud) :=
        fun R hR ↦ step_agree hne hcongr hud hR
      obtain ⟨ih₁, ih₂⟩ := threadOps_congr hne hcongr
        (fun u hu ↦ hops u (List.mem_cons_of_mem _ hu))
        (fun u hu ↦ hstep _ (hall u (List.mem_cons_of_mem _ hu)))
      exact ⟨by rw [threadOps, threadOps, hops ud (List.mem_cons_self _ _) _ _ hud, ih₁],
        fun R hR ↦ ih₂ R (hstep R hR)⟩

end Thread

/-- The first loop of `saveRaftState`, run to its end over updates that name distinct
replicas: each update's own operations against the starting cache, one update after
another, the cache folded update by update, and the panic check passed for every
accepted snapshot. -/
theorem stageUpdates_eq_ok {f : Faults} {kvs : KV} :
    ∀ {st st' : Staging} {uds : List Update}, stageUpdates f kvs st uds = .ok st' →
      (uds.map Update.nodeInfo).Nodup →
      st'.wb = ⟨st.wb.ops ++ uds.flatMap (stageOps kvs st.cs)⟩ ∧
        st'.cs = uds.foldl stageCache st.cs ∧
        ∀ ud ∈ uds, snapshotAccepted st.cs ud = true → maxIndexNotHandled ud = none
  | st, st', [], h, _ => by
      cases h
      simp
  | st, st', u :: uds, h, hnd => by
      rw [stageUpdates] at h
      cases h₁ : stageUpdate f kvs st u with
      | error e => simp [h₁] at h
      | ok st₁ =>
          simp only [h₁] at h
          obtain ⟨hwb₁, hcs₁, hp₁⟩ := stageUpdate_eq_ok h₁
          rw [List.map_cons, List.nodup_cons] at hnd
          obtain ⟨hwb, hcs, hp⟩ := stageUpdates_eq_ok h hnd.2
          have hagree : ∀ ud ∈ uds, Cache.Agree ud.nodeInfo st₁.cs st.cs := fun ud hud ↦
            hcs₁ ▸ stageCache_agree_of_ne fun h ↦ hnd.1 (h ▸ List.mem_map_of_mem _ hud)
          refine ⟨?_, by rw [hcs, hcs₁]; rfl, fun ud hud hacc ↦ ?_⟩
          · rw [hwb, hwb₁, List.flatMap_cons, List.append_assoc,
              List.flatMap_congr fun ud hud ↦ stageOps_congr (hagree ud hud)]
          · rcases List.mem_cons.mp hud with rfl | hud
            · exact hp₁ hacc
            · exact hp ud hud ((snapshotAccepted_congr (hagree ud hud)).trans hacc)

/-- The first loop of `saveRaftState`, run to its end over any updates. -/
theorem stageUpdates_thread {f : Faults} {kvs : KV} :
    ∀ {st st' : Staging} {uds : List Update}, stageUpdates f kvs st uds = .ok st' →
      st'.wb = ⟨st.wb.ops ++ threadOps (stageOps kvs) stageCache st.cs uds⟩ ∧
        st'.cs = uds.foldl stageCache st.cs
  | st, st', [], h => by
      cases h
      exact ⟨by simp [threadOps], rfl⟩
  | st, st', ud :: uds, h => by
      rw [stageUpdates] at h
      cases h₁ : stageUpdate f kvs st ud with
      | error e => simp [h₁] at h
      | ok st₁ =>
          simp only [h₁] at h
          obtain ⟨hwb₁, hcs₁, -⟩ := stageUpdate_eq_ok h₁
          obtain ⟨hwb, hcs⟩ := stageUpdates_thread h
          rw [hwb, hcs, hwb₁, hcs₁, threadOps, List.append_assoc]
          exact ⟨rfl, rfl⟩

/-! ## The second loop -/

/-- The index `plainEntries.record` returns for `ud`'s entries. -/
def Update.recordIndex (ud : Update) : UInt64 :=
  (PlainEntries.record .empty ud.clusterID ud.nodeID ud.entriesToSave).2

/-- What `saveEntries` stages for `ud`: one put per entry, then the max index when the
entries reach a positive index. -/
def entryOps (ud : Update) : List Op :=
  ud.entriesToSave.map (fun e ↦ .put (.entry ud.clusterID ud.nodeID e)) ++
    if 0 < ud.recordIndex then [.put (.maxIndex ud.clusterID ud.nodeID ud.recordIndex)] else []

/-- The cache after `saveEntries` handles `ud`. -/
def entryCache (cs : Cache) (ud : Update) : Cache :=
  if 0 < ud.recordIndex then cs.setMaxIndex ud.clusterID ud.nodeID ud.recordIndex else cs

theorem record_snd (wb : WriteBatch) (c n : UInt64) (es : List Entry) :
    (PlainEntries.record wb c n es).2 = (PlainEntries.record .empty c n es).2 := by
  simp only [PlainEntries.record, PlainEntries.foldl_recordStep]

/-- `saveEntries` stages each update's `entryOps` in turn and folds `entryCache`. -/
theorem saveEntries_eq (wb : WriteBatch) (cs : Cache) (uds : List Update) :
    saveEntries wb cs uds = (⟨wb.ops ++ uds.flatMap entryOps⟩, uds.foldl entryCache cs) := by
  induction uds generalizing wb cs with
  | nil => simp [saveEntries]
  | cons ud uds ih =>
      have hrec : PlainEntries.record wb ud.clusterID ud.nodeID ud.entriesToSave =
          (⟨wb.ops ++ ud.entriesToSave.map (fun e ↦ .put (.entry ud.clusterID ud.nodeID e))⟩,
            ud.recordIndex) :=
        Prod.ext (PlainEntries.record_fst _ _ _ _) (record_snd _ _ _ _)
      rw [saveEntries]
      split
      · next he =>
          have hnil : ud.entriesToSave = [] := List.isEmpty_iff.mp he
          simp [ih, entryOps, entryCache, Update.recordIndex, hnil, PlainEntries.record]
      · rw [hrec]
        by_cases hmi : 0 < ud.recordIndex <;>
          simp [ih, entryOps, entryCache, setMaxIndex, saveMaxIndex, WriteBatch.put, hmi]

theorem entryOps_keyOf (ud : Update) : ∀ op ∈ entryOps ud, KeyOf ud.nodeInfo op.key := by
  unfold entryOps
  split_ifs <;> simp [Update.nodeInfo, or_imp, forall_and]

theorem entryCache_agree_of_ne {cs : Cache} {ud : Update} {R : NodeInfo} (h : ud.nodeInfo ≠ R) :
    Cache.Agree R (entryCache cs ud) cs := by
  have h' : R ≠ ⟨ud.clusterID, ud.nodeID⟩ := Ne.symm h
  unfold entryCache
  split_ifs <;> simp [Cache.Agree, Function.update_noteq h']

theorem entryCache_congr {cs cs' : Cache} {ud : Update} (h : Cache.Agree ud.nodeInfo cs cs') :
    Cache.Agree ud.nodeInfo (entryCache cs ud) (entryCache cs' ud) := by
  obtain ⟨h₁, h₂, h₃⟩ := h
  unfold entryCache
  split_ifs <;> simp_all [Cache.Agree, Update.nodeInfo]

/-! ## Both loops -/

theorem lastWrite_saveRaftState_of_mem {kvs : KV} {cs : Cache} {uds : List Update} {ud : Update}
    {k : Bytes} (hnd : (uds.map Update.nodeInfo).Nodup) (hud : ud ∈ uds)
    (hk : KeyOf ud.nodeInfo k) :
    lastWrite k (uds.flatMap (stageOps kvs cs) ++ uds.flatMap entryOps) =
      (lastWrite k (entryOps ud)).or (lastWrite k (stageOps kvs cs ud)) := by
  rw [lastWrite_append, lastWrite_flatMap_of_mem entryOps_keyOf hk hnd hud,
    lastWrite_flatMap_of_mem (stageOps_keyOf kvs cs) hk hnd hud]

theorem lastWrite_saveRaftState_of_not_mem {kvs : KV} {cs : Cache} {uds : List Update}
    {R : NodeInfo} {k : Bytes} (hR : R ∉ uds.map Update.nodeInfo) (hk : KeyOf R k) :
    lastWrite k (uds.flatMap (stageOps kvs cs) ++ uds.flatMap entryOps) = none := by
  rw [lastWrite_append, lastWrite_flatMap_of_not_mem entryOps_keyOf hk hR,
    lastWrite_flatMap_of_not_mem (stageOps_keyOf kvs cs) hk hR]
  rfl

theorem caches_agree_of_mem {cs : Cache} {uds : List Update} {ud : Update}
    (hnd : (uds.map Update.nodeInfo).Nodup) (hud : ud ∈ uds) :
    Cache.Agree ud.nodeInfo (uds.foldl entryCache (uds.foldl stageCache cs))
      (entryCache (stageCache cs ud) ud) :=
  (foldl_agree_of_mem (fun _ _ _ ↦ entryCache_agree_of_ne) (fun _ _ _ ↦ entryCache_congr) hnd
    hud).trans (entryCache_congr (foldl_agree_of_mem (fun _ _ _ ↦ stageCache_agree_of_ne)
      (fun _ _ _ ↦ stageCache_congr) hnd hud))

theorem caches_agree_of_not_mem {cs : Cache} {uds : List Update} {R : NodeInfo}
    (hR : R ∉ uds.map Update.nodeInfo) :
    Cache.Agree R (uds.foldl entryCache (uds.foldl stageCache cs)) cs :=
  (foldl_agree_of_not_mem (fun _ _ _ ↦ entryCache_agree_of_ne) hR).trans
    (foldl_agree_of_not_mem (fun _ _ _ ↦ stageCache_agree_of_ne) hR)

end TugboatLogdb
