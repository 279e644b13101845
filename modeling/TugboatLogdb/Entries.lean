import TugboatLogdb.KV

/-!
# The plain entry manager

`openRDB` always builds the plain entry manager (`newPlainEntries`), whose file is
not among the sources, so its operations are modelled from the spec: one record
per entry, keyed by the entry's own index.
-/

namespace TugboatLogdb

namespace PlainEntries

/-- One step of `record`: stage entry `e`, and keep the highest index staged. -/
def recordStep (clusterID nodeID : UInt64) (acc : WriteBatch × UInt64) (e : Entry) :
    WriteBatch × UInt64 :=
  (acc.1.put (.entry clusterID nodeID e), if acc.2 < e.index then e.index else acc.2)

/-- Modelled from the spec: `plainEntries.record` stages one record per entry and
returns the highest index staged, 0 when nothing was staged.  The spec also lets
`record` suppress entries below the current max index as duplicates and return 0;
`record` is handed no max index, so that case is left out here and every entry given
is staged. -/
def record (wb : WriteBatch) (clusterID nodeID : UInt64) (entries : List Entry) :
    WriteBatch × UInt64 :=
  entries.foldl (recordStep clusterID nodeID) (wb, 0)

/-- Modelled from the spec: `plainEntries.rangedOp` hands `op` the key range of the
replica's entries from index 0 up to `index`, both ends included, so that the entries
at or below `index` are discarded. -/
def rangedOp {α : Type} (clusterID nodeID index : UInt64) (op : Bytes → Bytes → α) : α :=
  op (setEntryKey clusterID nodeID 0) (setEntryKey clusterID nodeID index)

theorem foldl_recordStep (c n : UInt64) (es : List Entry) (acc : WriteBatch × UInt64) :
    es.foldl (recordStep c n) acc =
      (⟨acc.1.ops ++ es.map (fun e ↦ .put (.entry c n e))⟩,
        es.foldl (fun m e ↦ if m < e.index then e.index else m) acc.2) := by
  induction es generalizing acc with
  | nil => simp
  | cons e es ih => simp [recordStep, ih, WriteBatch.put]

/-- `record` stages exactly one put per entry, after what the batch held. -/
theorem record_fst (wb : WriteBatch) (c n : UInt64) (es : List Entry) :
    (record wb c n es).1 = ⟨wb.ops ++ es.map (fun e ↦ .put (.entry c n e))⟩ := by
  rw [record, foldl_recordStep]

theorem le_max_step (m i : UInt64) :
    m ≤ (if m < i then i else m) ∧ i ≤ (if m < i then i else m) := by
  simp only [u64_le_iff, u64_lt_iff]
  split <;> omega

theorem le_foldl_max (es : List Entry) (m : UInt64) :
    m ≤ es.foldl (fun m e ↦ if m < e.index then e.index else m) m ∧
      ∀ e ∈ es, e.index ≤ es.foldl (fun m e ↦ if m < e.index then e.index else m) m := by
  induction es generalizing m with
  | nil => simp [u64_le_iff]
  | cons e es ih =>
      obtain ⟨h₁, h₂⟩ := ih (if m < e.index then e.index else m)
      have h₃ := le_max_step m e.index
      simp only [List.foldl_cons, List.mem_cons, forall_eq_or_imp]
      exact ⟨UInt64.le_trans h₃.1 h₁, UInt64.le_trans h₃.2 h₁, h₂⟩

/-- The index `record` returns bounds the index of every entry it staged. -/
theorem index_le_record (wb : WriteBatch) (c n : UInt64) (es : List Entry) :
    ∀ e ∈ es, e.index ≤ (record wb c n es).2 := by
  rw [record, foldl_recordStep]
  exact (le_foldl_max es 0).2

end PlainEntries

end TugboatLogdb
