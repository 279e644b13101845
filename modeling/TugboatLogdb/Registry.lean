import TugboatLogdb.ListNodeInfo
import TugboatLogdb.EntryLog

/-!
# The bootstrap registry over runs

No cache stands in front of the bootstrap records.  `saveBootstrapInfo` writes a
replica's record, `importSnapshot` writes the imported replica's, `removeNodeData`
deletes one, and no other call writes a bootstrap key.  So over every run, whatever
its calls, the store holds the records of a plain registry: `getBootstrapInfo`
reads a replica's registered record and `listNodeInfo` lists the registered
replicas.  A registered record reads back whatever its fields, an all-default one
included: only a missing record reads as `ErrNoBootstrapInfo`.
-/

namespace TugboatLogdb

/-! ## The registry -/

/-- The registry after a call: `saveBootstrapInfo` registers its record,
`importSnapshot` a record that joins with the snapshot's type, and `removeNodeData`
forgets the replica; no other call touches it. -/
def Call.boot (reg : NodeInfo → Option Bootstrap) : Call → NodeInfo → Option Bootstrap
  | .saveBootstrapInfo c n bs => Function.update reg ⟨c, n⟩ (some bs)
  | .importSnapshot ss nodeID =>
      Function.update reg ⟨ss.clusterId, nodeID⟩ (some ⟨[], true, ss.type⟩)
  | .removeNodeData c n => Function.update reg ⟨c, n⟩ none
  | _ => reg

/-- The registry after a run from an empty one. -/
def bootRun (calls : List Call) : NodeInfo → Option Bootstrap :=
  calls.foldl Call.boot fun _ ↦ none

/-- What reading a registered record answers: the record, or `ErrNoBootstrapInfo` when
there is none. -/
def bootstrapInfo : Option Bootstrap → Except Err Bootstrap
  | some bs => .ok bs
  | none => .error .noBootstrapInfo

/-! ## What each call writes under bootstrap keys -/

theorem stageOps_ne_setBootstrapKey (kvs : KV) (cs : Cache) (ud : Update) :
    ∀ op ∈ stageOps kvs cs ud, ∀ c n, op.key ≠ setBootstrapKey c n := by
  intro op hop c n
  rcases stageOps_key kvs cs ud op hop with h | h | ⟨i, h⟩ <;> rw [h] <;> simp

theorem entryOps_ne_setBootstrapKey (ud : Update) :
    ∀ op ∈ entryOps ud, ∀ c n, op.key ≠ setBootstrapKey c n := by
  unfold entryOps
  split_ifs <;> simp [or_imp, forall_and]

/-! ## The store against the registry -/

/-- The store holds the registry's records, and no others, under the bootstrap keys. -/
def BootstrapsRefine (kvs : KV) (reg : NodeInfo → Option Bootstrap) : Prop :=
  ∀ c n, kvs.get (setBootstrapKey c n) = (reg ⟨c, n⟩).map (.bootstrap c n)

theorem BootstrapsRefine.empty : BootstrapsRefine KV.empty fun _ ↦ none := fun _ _ ↦ rfl

theorem BootstrapsRefine.apply_of_forall_ne {kvs : KV} {reg : NodeInfo → Option Bootstrap}
    (h : BootstrapsRefine kvs reg) {ops : List Op}
    (hops : ∀ op ∈ ops, ∀ c n, op.key ≠ setBootstrapKey c n) :
    BootstrapsRefine (kvs.apply ⟨ops⟩) reg := fun c n ↦
  (KV.get_apply_of_forall_ne _ _ _ fun op hop ↦ hops op hop c n).trans (h c n)

/-- A store that changes one replica's bootstrap key to `b` and keeps every other
replica's refines the registry updated at that replica. -/
theorem BootstrapsRefine.update {kvs kvs' : KV} {reg : NodeInfo → Option Bootstrap}
    {c n : UInt64} {b : Option Bootstrap} (h : BootstrapsRefine kvs reg)
    (hset : kvs'.get (setBootstrapKey c n) = b.map (.bootstrap c n))
    (hother : ∀ c' n', (c' ≠ c ∨ n' ≠ n) →
      kvs'.get (setBootstrapKey c' n') = kvs.get (setBootstrapKey c' n')) :
    BootstrapsRefine kvs' (Function.update reg ⟨c, n⟩ b) := by
  intro c' n'
  by_cases hR : (⟨c', n'⟩ : NodeInfo) = ⟨c, n⟩
  · obtain ⟨rfl, rfl⟩ := NodeInfo.mk.inj hR
    rw [Function.update_same]
    exact hset
  · have hne : c' ≠ c ∨ n' ≠ n := not_and_or.mp fun ⟨h₁, h₂⟩ ↦ hR (h₁ ▸ h₂ ▸ rfl)
    rw [Function.update_noteq hR, hother c' n' hne]
    exact h c' n'

theorem BootstrapsRefine.getBootstrapInfo_eq {db : DB} {reg : NodeInfo → Option Bootstrap}
    (h : BootstrapsRefine db.kvs reg) (c n : UInt64) :
    getBootstrapInfo noFaults db c n = bootstrapInfo (reg ⟨c, n⟩) := by
  rw [getBootstrapInfo, KV.getValue, storageCall_noFaults, h c n]
  cases reg ⟨c, n⟩ <;> rfl

theorem BootstrapsRefine.call {db db' : DB} {reg : NodeInfo → Option Bootstrap} {call : Call}
    (h : BootstrapsRefine db.kvs reg) (hc : db.call call = some db') :
    BootstrapsRefine db'.kvs (call.boot reg) := by
  cases call with
  | saveRaftState uds =>
      rw [(call_saveRaftState_thread hc).1]
      refine h.apply_of_forall_ne fun op hop ↦ ?_
      rcases List.mem_append.mp hop with hop | hop
      · obtain ⟨cs, ud, -, hop⟩ := mem_threadOps hop
        exact stageOps_ne_setBootstrapKey _ cs ud op hop
      · obtain ⟨ud, -, hop⟩ := List.mem_flatMap.mp hop
        exact entryOps_ne_setBootstrapKey ud op hop
  | saveSnapshots uds =>
      obtain ⟨⟨ops, hkvs, hops⟩, -, -⟩ := call_saveSnapshots_frame hc
      rw [hkvs]
      refine h.apply_of_forall_ne fun op hop c n ↦ ?_
      obtain ⟨c', n', j, hk⟩ := hops op hop
      rw [hk]
      exact key_ne_of_kind_ne (by decide) _ _
  | importSnapshot ss nodeID =>
      have himp := call_importSnapshot hc
      obtain ⟨ops, hops, hkvs⟩ := importSnapshot_metaKey himp
      refine h.update (get_bootstrap_of_importSnapshot himp) fun c n hne ↦ ?_
      rw [hkvs]
      refine KV.get_apply_of_forall_ne _ _ _ fun op hop he ↦ ?_
      obtain ⟨rfl, rfl⟩ := (hops op hop).eq (.inr (.inl he))
      simp at hne
  | removeNodeData c n =>
      rw [(call_removeNodeData hc).1]
      exact h.update (get_removed_of_metaKey _ (.inr (.inl rfl)))
        fun c' n' hne ↦ get_removed_of_metaKey_ne _ hne (.inr (.inl rfl))
  | removeEntriesTo c n index =>
      rw [call_removeEntriesTo hc]
      intro c' n'
      rw [KV.get_removeRange, if_neg (MetaKey.not_inRange_entries (.inr (.inl rfl)))]
      exact h c' n'
  | compact =>
      rw [call_compact hc]
      exact h
  | saveBootstrapInfo c n bs =>
      rw [call_saveBootstrapInfo hc]
      refine h.update (by simp) fun c' n' hne ↦ ?_
      rw [KV.get_put, Record.key_bootstrap, if_neg fun he ↦ ?_]
      obtain ⟨rfl, rfl⟩ := setBootstrapKey_inj.mp he
      simp at hne
  | getSnapshot c n =>
      rw [call_getSnapshot hc]
      split <;> exact h

/-- Over every run from an empty store, with every storage call succeeding and any
calls at all, the store holds exactly the registry's bootstrap records;
`getBootstrapInfo` reads a replica's registered record, whatever its fields, and
reports `ErrNoBootstrapInfo` exactly when there is none; and `listNodeInfo` lists
exactly the registered replicas, each once and in ascending `(ClusterID, NodeID)`
order. -/
theorem run_refines_bootstrap_registry {calls : List Call} {db : DB}
    (h : DB.empty.run calls = some db) :
    (∀ c n, db.kvs.get (setBootstrapKey c n) = (bootRun calls ⟨c, n⟩).map (.bootstrap c n) ∧
      getBootstrapInfo noFaults db c n = bootstrapInfo (bootRun calls ⟨c, n⟩)) ∧
    ∃ l, listNodeInfo noFaults db = .ok l ∧
      (∀ c n, (⟨c, n⟩ : NodeInfo) ∈ l ↔ (bootRun calls ⟨c, n⟩).isSome) ∧
      l.Pairwise NodeInfo.Lt := by
  have hR : BootstrapsRefine db.kvs (bootRun calls) :=
    run_simulation (fun db reg ↦ BootstrapsRefine db.kvs reg) (fun _ ↦ true) Call.boot
      (fun _ _ _ _ hR _ hc ↦ hR.call hc) BootstrapsRefine.empty (fun _ _ ↦ rfl) h
  refine ⟨fun c n ↦ ⟨hR c n, hR.getBootstrapInfo_eq c n⟩, _, listNodeInfo_noFaults db,
    fun c n ↦ ?_, listNodeInfo_sorted (listNodeInfo_noFaults db)⟩
  rw [mem_listNodeInfo (listNodeInfo_noFaults db), hR c n]
  cases bootRun calls ⟨c, n⟩ <;> simp

/-- A run that registers replica `⟨1, 1⟩` with an all-default record, imports a snapshot
for `⟨1, 2⟩`, saves entries, and registers `⟨2, 1⟩` only to remove it. -/
def registryCalls : List Call :=
  [.saveBootstrapInfo 1 1 ⟨[], false, .unknownStateMachine⟩,
    .importSnapshot ⟨10, 2, 1, .regularStateMachine⟩ 2, .saveRaftState sampleUpdates,
    .saveBootstrapInfo 2 1 ⟨[(1, "a1")], false, .onDiskStateMachine⟩, .removeNodeData 2 1]

theorem run_refines_bootstrap_registry_sample :
    ∃ db, DB.empty.run registryCalls = some db ∧
      (∀ c n, db.kvs.get (setBootstrapKey c n) =
          (bootRun registryCalls ⟨c, n⟩).map (.bootstrap c n) ∧
        getBootstrapInfo noFaults db c n = bootstrapInfo (bootRun registryCalls ⟨c, n⟩)) ∧
      ∃ l, listNodeInfo noFaults db = .ok l ∧
        (∀ c n, (⟨c, n⟩ : NodeInfo) ∈ l ↔ (bootRun registryCalls ⟨c, n⟩).isSome) ∧
        l.Pairwise NodeInfo.Lt :=
  ⟨_, rfl, @run_refines_bootstrap_registry registryCalls _ rfl⟩

/-- The all-default record of `⟨1, 1⟩` is listed and reads back; the removed `⟨2, 1⟩`
reads as missing. -/
example : (DB.empty.run registryCalls).map (fun db ↦
    (listNodeInfo noFaults db, getBootstrapInfo noFaults db 1 1,
      getBootstrapInfo noFaults db 2 1)) =
      some (.ok [⟨1, 1⟩, ⟨1, 2⟩], .ok ⟨[], false, .unknownStateMachine⟩,
        .error .noBootstrapInfo) := rfl

end TugboatLogdb
