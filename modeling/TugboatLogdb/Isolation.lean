import TugboatLogdb.Independence
import TugboatLogdb.Registry

/-!
# Each replica in isolation

A call cut down to replica `R` keeps `R`'s updates, in their order, for the two
saving calls, and keeps any other call only when it names `R`.  With every storage
call succeeding, a replica ends each run as it ends the run cut down to it: the other
replicas' updates, whether they share a call with `R`'s or not, change neither `R`'s
records nor its cache entries, and so none of the answers `R`'s reads give.  The
replicas' logs are independent, which is what lets their updates go to different
shards.
-/

namespace TugboatLogdb

/-- A call cut down to replica `R`: the saving calls keep `R`'s updates, and any other
call is kept when it names `R` and dropped when it does not. -/
def Call.restrict (R : NodeInfo) : Call → Option Call
  | .saveRaftState uds => some (.saveRaftState (uds.filter fun ud ↦ ud.nodeInfo = R))
  | .saveSnapshots uds => some (.saveSnapshots (uds.filter fun ud ↦ ud.nodeInfo = R))
  | call => if R ∈ call.replicas then some call else none

/-! ## The loops over updates, cut down to one replica -/

section Restrict

variable {step : Cache → Update → Cache} {R : NodeInfo}

theorem foldl_filter_agree (hne : ∀ cs ud R, ud.nodeInfo ≠ R → Cache.Agree R (step cs ud) cs)
    (hcongr : ∀ cs cs' ud, Cache.Agree ud.nodeInfo cs cs' →
      Cache.Agree ud.nodeInfo (step cs ud) (step cs' ud)) :
    ∀ {cs₁ cs₂ : Cache} {uds : List Update}, Cache.Agree R cs₁ cs₂ →
      Cache.Agree R (uds.foldl step cs₁) ((uds.filter fun ud ↦ ud.nodeInfo = R).foldl step cs₂)
  | _, _, [], h => h
  | cs₁, cs₂, ud :: uds, h => by
      by_cases hud : ud.nodeInfo = R
      · rw [List.filter_cons, if_pos (decide_eq_true hud)]
        exact foldl_filter_agree hne hcongr (hud ▸ hcongr _ _ ud (hud ▸ h))
      · rw [List.filter_cons, if_neg (mt of_decide_eq_true hud)]
        exact foldl_filter_agree hne hcongr ((hne cs₁ ud R hud).trans h)

/-- A loop that stages each update's operations under keys of the update's replica,
computed from the cache as the updates before it left it, writes `R`'s keys as the
loop over `R`'s updates alone does. -/
theorem agree_apply_threadOps_filter {ops₁ ops₂ : Cache → Update → List Op}
    (hne : ∀ cs ud R, ud.nodeInfo ≠ R → Cache.Agree R (step cs ud) cs)
    (hcongr : ∀ cs cs' ud, Cache.Agree ud.nodeInfo cs cs' →
      Cache.Agree ud.nodeInfo (step cs ud) (step cs' ud))
    (hkey : ∀ cs ud, ∀ op ∈ ops₁ cs ud, KeyOf ud.nodeInfo op.key)
    (hops : ∀ ud, ud.nodeInfo = R → ∀ cs cs', Cache.Agree R cs cs' → ops₁ cs ud = ops₂ cs' ud) :
    ∀ {s t : KV} {cs₁ cs₂ : Cache} {uds : List Update}, KV.Agree R s t → Cache.Agree R cs₁ cs₂ →
      KV.Agree R (s.apply ⟨threadOps ops₁ step cs₁ uds⟩)
        (t.apply ⟨threadOps ops₂ step cs₂ (uds.filter fun ud ↦ ud.nodeInfo = R)⟩)
  | _, _, _, _, [], hkv, _ => hkv
  | s, t, cs₁, cs₂, ud :: uds, hkv, hcs => by
      rw [threadOps, KV.apply_append]
      by_cases hud : ud.nodeInfo = R
      · rw [List.filter_cons, if_pos (decide_eq_true hud), threadOps, KV.apply_append,
          hops ud hud _ _ hcs]
        exact agree_apply_threadOps_filter hne hcongr hkey hops (hkv.apply _)
          (hud ▸ hcongr _ _ ud (hud ▸ hcs))
      · rw [List.filter_cons, if_neg (mt of_decide_eq_true hud)]
        refine agree_apply_threadOps_filter hne hcongr hkey hops ?_ ((hne cs₁ ud R hud).trans hcs)
        exact (KV.agree_apply_of_not_keyOf _ fun op hop hk ↦
          hud (KeyOf.unique (hkey _ _ op hop) hk)).trans hkv

theorem threadOps_const (ops : Update → List Op) (cs : Cache) :
    ∀ uds : List Update, threadOps (fun _ ↦ ops) step cs uds = uds.flatMap ops
  | [] => rfl
  | ud :: uds => by rw [threadOps, threadOps_const ops, List.flatMap_cons]

end Restrict

/-- With no storage fault, the first loop of `saveRaftState` over `R`'s updates alone
runs to its end whenever the loop over all the updates does. -/
theorem stageUpdates_noFaults_filter {R : NodeInfo} {kvs₁ kvs₂ : KV} :
    ∀ {st₁ st₂ : Staging} {uds : List Update}, Cache.Agree R st₁.cs st₂.cs →
      (∃ st₁', stageUpdates noFaults kvs₁ st₁ uds = .ok st₁') →
      ∃ st₂', stageUpdates noFaults kvs₂ st₂ (uds.filter fun ud ↦ ud.nodeInfo = R) = .ok st₂'
  | _, st₂, [], _, _ => ⟨st₂, rfl⟩
  | st₁, st₂, ud :: uds, hcs, ⟨_, h⟩ => by
      rw [stageUpdates] at h
      cases h₁ : stageUpdate noFaults kvs₁ st₁ ud with
      | error e => simp [h₁] at h
      | ok st₁' =>
          simp only [h₁] at h
          have hc₁ := (stageUpdate_eq_ok h₁).2.1
          by_cases hud : ud.nodeInfo = R
          · have hud' : Cache.Agree ud.nodeInfo st₁.cs st₂.cs := hud ▸ hcs
            obtain ⟨st₂', h₂⟩ := (stageUpdate_noFaults_ok_iff kvs₂ st₂ ud).mpr <| by
              rw [← snapshotAccepted_congr hud']
              exact (stageUpdate_noFaults_ok_iff kvs₁ st₁ ud).mp ⟨_, h₁⟩
            rw [List.filter_cons, if_pos (decide_eq_true hud), stageUpdates, h₂]
            refine stageUpdates_noFaults_filter ?_ ⟨_, h⟩
            rw [hc₁, (stageUpdate_eq_ok h₂).2.1]
            exact hud ▸ stageCache_congr hud'
          · rw [List.filter_cons, if_neg (mt of_decide_eq_true hud)]
            refine stageUpdates_noFaults_filter ?_ ⟨_, h⟩
            rw [hc₁]
            exact (stageCache_agree_of_ne hud).trans hcs

/-! ## Calls and runs, cut down to one replica -/

section Calls

variable {R : NodeInfo} {db₁ db₂ db₁' : DB}

theorem call_saveRaftState_restrict {uds : List Update} (hR : DB.Agree R db₁ db₂)
    (h : db₁.call (.saveRaftState uds) = some db₁') :
    ∃ db₂', db₂.call (.saveRaftState (uds.filter fun ud ↦ ud.nodeInfo = R)) = some db₂' ∧
      DB.Agree R db₁' db₂' := by
  obtain ⟨st, hst⟩ := (call_saveRaftState_isSome db₁ uds).mp (by rw [h]; rfl)
  obtain ⟨db₂', h₂⟩ := Option.isSome_iff_exists.mp
    ((call_saveRaftState_isSome db₂ _).mpr (stageUpdates_noFaults_filter hR.2 ⟨st, hst⟩))
  obtain ⟨hkvs₁, hcs₁⟩ := call_saveRaftState_thread h
  obtain ⟨hkvs₂, hcs₂⟩ := call_saveRaftState_thread h₂
  refine ⟨db₂', h₂, ?_, ?_⟩
  · rw [hkvs₁, hkvs₂, KV.apply_append, KV.apply_append,
      ← @threadOps_const (fun cs _ ↦ cs) entryOps Cache.new uds,
      ← @threadOps_const (fun cs _ ↦ cs) entryOps Cache.new]
    -- the entries are written after the staged operations, each on its own replica's keys
    refine agree_apply_threadOps_filter (fun cs _ R _ ↦ Cache.Agree.refl R cs)
      (fun _ _ _ h ↦ h) (fun _ ↦ entryOps_keyOf) (fun _ _ _ _ _ ↦ rfl) ?_ (Cache.Agree.refl _ _)
    exact agree_apply_threadOps_filter (fun _ _ _ ↦ stageCache_agree_of_ne)
      (fun _ _ _ ↦ stageCache_congr) (stageOps_keyOf _)
      (fun _ hud _ _ hcs ↦ stageOps_agree (hud ▸ hR.1) (hud ▸ hcs)) hR.1 hR.2
  · rw [hcs₁, hcs₂]
    exact foldl_filter_agree (fun _ _ _ ↦ entryCache_agree_of_ne) (fun _ _ _ ↦ entryCache_congr)
      (foldl_filter_agree (fun _ _ _ ↦ stageCache_agree_of_ne) (fun _ _ _ ↦ stageCache_congr) hR.2)

theorem call_saveSnapshots_restrict (uds : List Update) (hR : DB.Agree R db₁ db₂) :
    ∃ db₁' db₂', db₁.call (.saveSnapshots uds) = some db₁' ∧
      db₂.call (.saveSnapshots (uds.filter fun ud ↦ ud.nodeInfo = R)) = some db₂' ∧
      DB.Agree R db₁' db₂' :=
  ⟨_, _, call_saveSnapshots_thread db₁ uds, call_saveSnapshots_thread db₂ _,
    agree_apply_threadOps_filter (fun _ _ _ ↦ snapshotsCache_agree_of_ne)
      (fun _ _ _ ↦ snapshotsCache_congr) (snapshotsOps_keyOf _)
      (fun _ hud _ _ hcs ↦ snapshotsOps_agree (hud ▸ hR.1) (hud ▸ hcs)) hR.1 hR.2,
    foldl_filter_agree (fun _ _ _ ↦ snapshotsCache_agree_of_ne)
      (fun _ _ _ ↦ snapshotsCache_congr) hR.2⟩

/-- A call that names one replica runs from any database that agrees at `R` to the
same effect at `R` when it names `R`, and is dropped, leaving `R` alone, when it does
not. -/
theorem call_restrict_single {call : Call} (hR : DB.Agree R db₁ db₂)
    (h : db₁.call call = some db₁') (hone : ∃ R₀, call.replicas = [R₀])
    (hc : call.restrict R = if R ∈ call.replicas then some call else none) :
    ∃ db₂', db₂.run (call.restrict R).toList = some db₂' ∧ DB.Agree R db₁' db₂' := by
  rw [hc]
  split_ifs with hmem
  · obtain ⟨R₀, hR₀⟩ := hone
    have hagree : ∀ R' ∈ call.replicas, DB.Agree R' db₁ db₂ := by
      rw [hR₀] at hmem ⊢
      intro R' hR'
      rw [List.mem_singleton.mp hR', ← List.mem_singleton.mp hmem]
      exact hR
    obtain ⟨hs, hl⟩ := call_local hagree
    have h₁ : (db₁.call call).isSome = true := by rw [h]; rfl
    obtain ⟨db₂', h₂⟩ := Option.isSome_iff_exists.mp (hs ▸ h₁)
    exact ⟨db₂', by rw [Option.toList_some, DB.run_singleton, h₂], hl _ _ h h₂ R hR⟩
  · exact ⟨db₂, rfl, (call_frame h hmem).trans hR⟩

/-- With every storage call succeeding, a call leaves replica `R` as the call cut down
to `R` leaves it, from any database that agrees at `R`, and the cut-down call does
not panic when the call does not. -/
theorem call_restrict {call : Call} (hR : DB.Agree R db₁ db₂) (h : db₁.call call = some db₁') :
    ∃ db₂', db₂.run (call.restrict R).toList = some db₂' ∧ DB.Agree R db₁' db₂' := by
  cases call with
  | saveRaftState uds =>
      obtain ⟨db₂', h₂, hR'⟩ := call_saveRaftState_restrict hR h
      exact ⟨db₂', by rw [Call.restrict, Option.toList_some, DB.run_singleton, h₂], hR'⟩
  | saveSnapshots uds =>
      obtain ⟨_, db₂', h₁, h₂, hR'⟩ := call_saveSnapshots_restrict uds hR
      exact ⟨db₂', by rw [Call.restrict, Option.toList_some, DB.run_singleton, h₂],
        Option.some.inj (h.symm.trans h₁) ▸ hR'⟩
  | _ => exact call_restrict_single hR h ⟨_, rfl⟩ rfl

theorem filterMap_restrict_cons (call : Call) (calls : List Call) :
    (call :: calls).filterMap (Call.restrict R) =
      (call.restrict R).toList ++ calls.filterMap (Call.restrict R) := by
  cases hr : call.restrict R <;> simp [List.filterMap_cons, hr]

theorem run_restrict :
    ∀ {calls : List Call} {db₁ db₂ db₁' : DB}, DB.Agree R db₁ db₂ → db₁.run calls = some db₁' →
      ∃ db₂', db₂.run (calls.filterMap (Call.restrict R)) = some db₂' ∧ DB.Agree R db₁' db₂'
  | [], _, db₂, _, hR, h => by
      cases h
      exact ⟨db₂, rfl, hR⟩
  | _ :: _, _, _, _, hR, h => by
      obtain ⟨_, hc, hrest⟩ := Option.bind_eq_some.mp h
      obtain ⟨_, hc₂, hR₂⟩ := call_restrict hR hc
      obtain ⟨db₂', hrun, hR'⟩ := run_restrict hR₂ hrest
      exact ⟨db₂', by rw [filterMap_restrict_cons, DB.run_append, hc₂]; exact hrun, hR'⟩

end Calls

/-- Two databases that agree at a replica answer its reads alike, whatever the storage
faults. -/
theorem DB.Agree.reads {f : Faults} {c n : UInt64} {db₁ db₂ : DB} (h : DB.Agree ⟨c, n⟩ db₁ db₂) :
    getState f db₁ c n = getState f db₂ c n ∧ getMaxIndex f db₁ c n = getMaxIndex f db₂ c n ∧
      getBootstrapInfo f db₁ c n = getBootstrapInfo f db₂ c n ∧
      (getSnapshot f db₁ c n).1 = (getSnapshot f db₂ c n).1 := by
  have hget : ∀ k, MetaKey c n k → db₁.kvs.get k = db₂.kvs.get k := fun k hk ↦ h.1 k hk.keyOf
  have hmax : db₁.cs.getMaxIndex c n = db₂.cs.getMaxIndex c n := h.2.2.1
  refine ⟨?_, ?_, ?_, ?_⟩
  · simp only [getState, KV.getValue, hget _ (.inl rfl)]
  · simp only [getMaxIndex, KV.getValue, hmax, hget _ (.inr (.inr (.inl rfl)))]
  · simp only [getBootstrapInfo, KV.getValue, hget _ (.inr (.inl rfl))]
  · simp only [getSnapshot, listSnapshots_eq, h.1.snapshotsOf]
    split
    · rfl
    · split <;> rfl

/-- With every storage call succeeding, each replica ends every run as it ends the run
cut down to it: the cut-down run does not panic, the replica's records and cache
entries are the same at the end of both, and so, whatever the storage faults, its
state, max index, bootstrap record and latest snapshot read the same. -/
theorem run_replica_isolated {calls : List Call} {db db' : DB} (h : db.run calls = some db')
    (c n : UInt64) :
    ∃ dbR, db.run (calls.filterMap (Call.restrict ⟨c, n⟩)) = some dbR ∧ DB.Agree ⟨c, n⟩ db' dbR ∧
      ∀ f, getState f db' c n = getState f dbR c n ∧
        getMaxIndex f db' c n = getMaxIndex f dbR c n ∧
        getBootstrapInfo f db' c n = getBootstrapInfo f dbR c n ∧
        (getSnapshot f db' c n).1 = (getSnapshot f dbR c n).1 := by
  obtain ⟨dbR, hrun, hR⟩ := run_restrict (DB.Agree.refl _ db) h
  exact ⟨dbR, hrun, hR, fun _ ↦ hR.reads⟩

theorem run_replica_isolated_registry :
    ∃ db', DB.empty.run registryCalls = some db' ∧
      ∃ dbR, DB.empty.run (registryCalls.filterMap (Call.restrict ⟨1, 2⟩)) = some dbR ∧
        DB.Agree ⟨1, 2⟩ db' dbR ∧
        ∀ f, getState f db' 1 2 = getState f dbR 1 2 ∧
          getMaxIndex f db' 1 2 = getMaxIndex f dbR 1 2 ∧
          getBootstrapInfo f db' 1 2 = getBootstrapInfo f dbR 1 2 ∧
          (getSnapshot f db' 1 2).1 = (getSnapshot f dbR 1 2).1 :=
  ⟨_, rfl, @run_replica_isolated registryCalls DB.empty _ rfl 1 2⟩

/-! ## One batch, or one call per update

Cut down to any one replica, a batch of updates of distinct replicas and the same
updates split over two calls are the same single update, so the two end alike at every
replica; and each panics exactly when the other does, since whether an update panics
reads only its own replica's cache entries.  Saves of different replicas commute, so the
order of a batch does not matter either. -/

theorem call_saveRaftState_nil (db : DB) : db.call (.saveRaftState []) = some db :=
  rfl

theorem stageUpdates_append (f : Faults) (kvs : KV) :
    ∀ (st : Staging) (uds₁ uds₂ : List Update),
      stageUpdates f kvs st (uds₁ ++ uds₂) =
        (stageUpdates f kvs st uds₁).bind fun st' ↦ stageUpdates f kvs st' uds₂
  | _, [], _ => rfl
  | st, ud :: uds₁, uds₂ => by
      simp only [List.cons_append, stageUpdates]
      cases stageUpdate f kvs st ud with
      | error e => rfl
      | ok st' => exact stageUpdates_append f kvs st' uds₁ uds₂

/-- Two saves of which at most one names any updates run as their one joined save. -/
theorem run_saveRaftState_split (db : DB) {uds₁ uds₂ : List Update} (h : uds₁ = [] ∨ uds₂ = []) :
    db.run [.saveRaftState (uds₁ ++ uds₂)] = db.run [.saveRaftState uds₁, .saveRaftState uds₂] := by
  rcases h with rfl | rfl <;> simp [DB.run, call_saveRaftState_nil]

/-- With every storage call succeeding, a batch of updates of distinct replicas saves
as its two parts saved one call after the other. -/
theorem call_saveRaftState_append (db : DB) {uds₁ uds₂ : List Update}
    (hnd : ((uds₁ ++ uds₂).map Update.nodeInfo).Nodup) :
    db.call (.saveRaftState (uds₁ ++ uds₂)) =
      (db.call (.saveRaftState uds₁)).bind (·.call (.saveRaftState uds₂)) := by
  have hdisj : ∀ ud ∈ uds₂, ud.nodeInfo ∉ uds₁.map Update.nodeInfo := fun ud hud h ↦
    (List.nodup_append.mp (List.map_append .. ▸ hnd)).2.2 h (List.mem_map_of_mem _ hud)
  have hsome : (db.call (.saveRaftState (uds₁ ++ uds₂))).isSome =
      ((db.call (.saveRaftState uds₁)).bind (·.call (.saveRaftState uds₂))).isSome := by
    rw [Bool.eq_iff_iff, call_saveRaftState_isSome, stageUpdates_append]
    cases h₁ : stageUpdates noFaults db.kvs ⟨.empty, db.cs, 0⟩ uds₁ with
    | error e =>
        have hnone : db.call (.saveRaftState uds₁) = none := Option.not_isSome_iff_eq_none.mp
          fun h ↦ by
            obtain ⟨_, hst⟩ := (call_saveRaftState_isSome db uds₁).mp h
            rw [h₁] at hst
            cases hst
        simp [hnone, Except.bind]
    | ok st₁ =>
        obtain ⟨db₁, hdb₁⟩ := Option.isSome_iff_exists.mp
          ((call_saveRaftState_isSome db uds₁).mpr ⟨_, h₁⟩)
        rw [hdb₁, Option.some_bind, call_saveRaftState_isSome]
        refine stageUpdates_noFaults_ok_congr fun ud hud ↦ ?_
        rw [(stageUpdates_thread h₁).2, (call_saveRaftState_thread hdb₁).2]
        exact (foldl_agree_of_not_mem (fun _ _ _ ↦ entryCache_agree_of_ne) (hdisj ud hud)).symm
  cases hL : db.call (.saveRaftState (uds₁ ++ uds₂)) <;>
    cases h : (db.call (.saveRaftState uds₁)).bind (·.call (.saveRaftState uds₂)) <;>
    simp only [hL, h, Option.isSome_none, Option.isSome_some, Bool.false_eq_true,
      Bool.true_eq_false] at hsome
  · rfl
  · next dbL db₂ =>
      refine congrArg some (DB.eq_of_agree fun R ↦ ?_)
      obtain ⟨dL, hdL, hRL⟩ :=
        run_restrict (DB.Agree.refl R db) (by rw [DB.run_singleton]; exact hL)
      have hrun : db.run [.saveRaftState uds₁, .saveRaftState uds₂] = some db₂ := by
        rw [DB.run_cons_cons, h]
        rfl
      obtain ⟨dR, hdR, hRR⟩ := run_restrict (DB.Agree.refl R db) hrun
      -- cut down to `R`, at most one of the two parts keeps an update
      have hone : uds₁.filter (fun ud ↦ ud.nodeInfo = R) = [] ∨
          uds₂.filter (fun ud ↦ ud.nodeInfo = R) = [] := by
        by_cases hR : R ∈ uds₁.map Update.nodeInfo
        · exact .inr (List.filter_eq_nil_iff.mpr fun ud hud h ↦
            hdisj ud hud (of_decide_eq_true h ▸ hR))
        · exact .inl (List.filter_eq_nil_iff.mpr fun ud hud h ↦
            hR (of_decide_eq_true h ▸ List.mem_map_of_mem _ hud))
      simp only [List.filterMap_cons, List.filterMap_nil, Call.restrict] at hdL hdR
      rw [List.filter_append, run_saveRaftState_split db hone, hdR] at hdL
      exact hRL.trans (Option.some.inj hdL ▸ hRR).symm

theorem call_saveRaftState_cons (db : DB) {ud : Update} {uds : List Update}
    (hnd : ((ud :: uds).map Update.nodeInfo).Nodup) :
    db.call (.saveRaftState (ud :: uds)) =
      (db.call (.saveRaftState [ud])).bind (·.call (.saveRaftState uds)) :=
  @call_saveRaftState_append db [ud] uds hnd

/-- With every storage call succeeding, one `saveRaftState` over a batch of updates of
distinct replicas ends as the same updates saved each in its own call, one after the
other: it panics exactly when one of those calls does, and otherwise leaves the same
store and the same cache.  The batch only writes the updates in one commit. -/
theorem saveRaftState_batch_as_single_calls (db : DB) {uds : List Update}
    (hnd : (uds.map Update.nodeInfo).Nodup) :
    db.call (.saveRaftState uds) = db.run (uds.map fun ud ↦ .saveRaftState [ud]) := by
  induction uds generalizing db with
  | nil => exact call_saveRaftState_nil db
  | cons ud uds ih =>
      rw [List.map_cons, DB.run, call_saveRaftState_cons db hnd]
      exact congrArg _ (funext fun db' ↦ ih db' (List.nodup_cons.mp hnd).2)

theorem saveRaftState_batch_as_single_calls_sample :
    (sampleUpdates.map Update.nodeInfo).Nodup ∧
      DB.empty.call (.saveRaftState sampleUpdates) =
        DB.empty.run (sampleUpdates.map fun ud ↦ .saveRaftState [ud]) :=
  ⟨by decide, saveRaftState_batch_as_single_calls DB.empty (by decide)⟩

/-- With every storage call succeeding, the order of a batch of updates of distinct
replicas does not matter: saved in any order, the updates panic alike and otherwise
leave the same store and the same cache. -/
theorem saveRaftState_batch_order_free (db : DB) {uds uds' : List Update} (hp : uds.Perm uds')
    (hnd : (uds.map Update.nodeInfo).Nodup) :
    db.call (.saveRaftState uds) = db.call (.saveRaftState uds') := by
  induction hp generalizing db with
  | nil => rfl
  | @cons ud l₁ l₂ hp ih =>
      rw [call_saveRaftState_cons db hnd,
        call_saveRaftState_cons db (((hp.cons ud).map _).nodup_iff.mp hnd)]
      exact congrArg _ (funext fun db' ↦ ih db' (List.nodup_cons.mp hnd).2)
  | swap a b l =>
      have hab := ((List.Perm.swap a b l).map Update.nodeInfo).nodup_iff.mp hnd
      -- the two head updates name different replicas, so their single saves commute
      have hne :
          ∀ R ∈ (Call.saveRaftState [b]).replicas, R ∉ (Call.saveRaftState [a]).replicas := by
        intro R hb ha
        have hba : b.nodeInfo = a.nodeInfo :=
          (List.mem_singleton.mp hb).symm.trans (List.mem_singleton.mp ha)
        exact (List.nodup_cons.mp hnd).1 (List.mem_cons.mpr (.inl hba))
      rw [call_saveRaftState_cons db hnd, call_saveRaftState_cons db hab]
      simp only [call_saveRaftState_cons _ (List.nodup_cons.mp hnd).2,
        call_saveRaftState_cons _ (List.nodup_cons.mp hab).2, ← Option.bind_assoc, call_comm hne]
  | trans h₁ _ ih₁ ih₂ => exact (ih₁ db hnd).trans (ih₂ db ((h₁.map _).nodup_iff.mp hnd))

theorem saveRaftState_batch_order_free_sample :
    sampleUpdates.Perm sampleUpdates.reverse ∧ (sampleUpdates.map Update.nodeInfo).Nodup ∧
      DB.empty.call (.saveRaftState sampleUpdates) =
        DB.empty.call (.saveRaftState sampleUpdates.reverse) :=
  ⟨(List.reverse_perm _).symm, by decide,
    saveRaftState_batch_order_free DB.empty (List.reverse_perm _).symm (by decide)⟩

end TugboatLogdb
