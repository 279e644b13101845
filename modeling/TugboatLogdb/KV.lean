import TugboatLogdb.Records
import Mathlib.Data.List.Sort

/-!
# The key-value store

`kv.go` is not among the sources, so the store is modelled from the spec's
interface to the embedded engine: point lookup, atomic write batches of puts
and deletes, forward range iteration, bulk range deletion and a compaction
hint.  A store instance holds its records in ascending key order, one record
per key.  Each storage call of an operation may fail, as a fault schedule says.
-/

namespace TugboatLogdb

/-- The errors this package returns: `raftio.ErrNoSavedLog`,
`raftio.ErrNoBootstrapInfo`, or a storage call that failed (numbered within its
operation). -/
inductive Err
  | noSavedLog
  | noBootstrapInfo
  | storage (call : Nat)
deriving DecidableEq, Repr

/-- Which storage calls fail: call `i` of an operation, counting from 0 in the
order the operation makes its calls, fails when `f i` holds. -/
def Faults := Nat → Bool

/-- Storage that never fails. -/
def noFaults : Faults := fun _ ↦ false

/-- Storage call number `i` of an operation: its result, unless the schedule fails it. -/
def storageCall {α : Type} (f : Faults) (i : Nat) (x : α) : Except Err α :=
  if f i then .error (.storage i) else .ok x

@[simp] theorem storageCall_noFaults {α : Type} (i : Nat) (x : α) :
    storageCall noFaults i x = .ok x := rfl

/-- Records ascending by key. -/
def KeySorted (rs : List Record) : Prop := rs.Pairwise (fun a b ↦ KeyLt a.key b.key)

/-- Two key-sorted record lists with the same records are equal. -/
theorem KeySorted.eq_of_mem_iff {rs ts : List Record} (hrs : KeySorted rs) (hts : KeySorted ts)
    (h : ∀ r, r ∈ rs ↔ r ∈ ts) : rs = ts := by
  have hnodup : ∀ {us : List Record}, KeySorted us → us.Nodup := fun hus ↦
    hus.imp fun {a b} hab (he : a = b) ↦ KeyLt.irrefl _ (he ▸ hab)
  haveI : IsAntisymm Record fun a b ↦ KeyLt a.key b.key := ⟨fun _ _ h h' ↦ absurd h' h.asymm⟩
  exact List.eq_of_perm_of_sorted
    ((List.perm_ext_iff_of_nodup (hnodup hrs) (hnodup hts)).mpr h) hrs hts

/-- Place `r` in an ascending record list, before the first record with a greater key. -/
def insertRecord (r : Record) : List Record → List Record
  | [] => [r]
  | x :: xs => if KeyLt r.key x.key then r :: x :: xs else x :: insertRecord r xs

theorem mem_insertRecord {r y : Record} {xs : List Record} :
    y ∈ insertRecord r xs ↔ y = r ∨ y ∈ xs := by
  induction xs with
  | nil => simp [insertRecord]
  | cons x xs ih =>
      unfold insertRecord
      split <;> simp [ih, or_left_comm]

theorem KeySorted.insertRecord {r : Record} {xs : List Record} (h : KeySorted xs)
    (hr : ∀ y ∈ xs, y.key ≠ r.key) : KeySorted (TugboatLogdb.insertRecord r xs) := by
  induction xs with
  | nil => exact List.pairwise_singleton _ r
  | cons x xs ih =>
      rw [KeySorted, List.pairwise_cons] at h
      unfold TugboatLogdb.insertRecord
      split
      · next hlt =>
          refine List.Pairwise.cons (fun y hy ↦ ?_) (List.Pairwise.cons h.1 h.2)
          rcases List.mem_cons.mp hy with rfl | hy
          · exact hlt
          · exact hlt.trans (h.1 y hy)
      · next hlt =>
          refine List.Pairwise.cons (fun y hy ↦ ?_)
            (ih h.2 (fun y hy ↦ hr y (List.mem_cons_of_mem x hy)))
          rcases mem_insertRecord.mp hy with rfl | hy
          · rcases KeyLt.trichotomous y.key x.key with h' | h' | h'
            · exact absurd h' hlt
            · exact absurd h'.symm (hr x (List.mem_cons_self x xs))
            · exact h'
          · exact h.1 y hy

/-- Two records of an ascending list under one key are the same record. -/
theorem KeySorted.eq_of_key_eq {a b : Record} :
    ∀ {rs : List Record}, KeySorted rs → a ∈ rs → b ∈ rs → a.key = b.key → a = b
  | x :: xs, h, ha, hb, hk => by
      rw [KeySorted, List.pairwise_cons] at h
      rcases List.mem_cons.mp ha with rfl | ha' <;> rcases List.mem_cons.mp hb with rfl | hb'
      · rfl
      · exact absurd (hk ▸ h.1 b hb') (KeyLt.irrefl _)
      · exact absurd (hk ▸ h.1 a ha') (KeyLt.irrefl _)
      · exact KeySorted.eq_of_key_eq h.2 ha' hb' hk

/-- The contents of one store instance: its records in ascending key order. -/
structure KV where
  recs : List Record
  sorted : KeySorted recs

/-- A write-batch operation. -/
inductive Op
  | put (r : Record)
  | delete (k : Bytes)
deriving DecidableEq, Repr

/-- The key an operation writes. -/
def Op.key : Op → Bytes
  | .put r => r.key
  | .delete k => k

@[simp] theorem Op.key_put (r : Record) : (Op.put r).key = r.key := rfl

@[simp] theorem Op.key_delete (k : Bytes) : (Op.delete k).key = k := rfl

/-- Modelled from the spec: `pebbleWriteBatch`, the operations staged so far, in order. -/
structure WriteBatch where
  ops : List Op
deriving DecidableEq, Repr

namespace WriteBatch

/-- A fresh batch. -/
def empty : WriteBatch := ⟨[]⟩

/-- Modelled from the spec: `wb.Put`. -/
def put (wb : WriteBatch) (r : Record) : WriteBatch := ⟨wb.ops ++ [.put r]⟩

/-- Modelled from the spec: `wb.Delete`. -/
def delete (wb : WriteBatch) (k : Bytes) : WriteBatch := ⟨wb.ops ++ [.delete k]⟩

/-- Modelled from the spec: `wb.Count`. -/
def count (wb : WriteBatch) : Nat := wb.ops.length

end WriteBatch

/-! ## The last write to a key -/

/-- What an operation writes under `k`: the new content, when its key is `k`. -/
def Op.write (k : Bytes) : Op → Option (Option Record)
  | .put r => if r.key = k then some (some r) else none
  | .delete k' => if k' = k then some none else none

/-- The last write to `k` in a list of operations, `none` when none writes it. -/
def lastWrite (k : Bytes) : List Op → Option (Option Record)
  | [] => none
  | op :: ops => (lastWrite k ops).or (op.write k)

@[simp] theorem lastWrite_nil (k : Bytes) : lastWrite k [] = none := rfl

@[simp] theorem lastWrite_put (k : Bytes) (r : Record) :
    lastWrite k [.put r] = if r.key = k then some (some r) else none := rfl

@[simp] theorem lastWrite_append (k : Bytes) (ops₁ ops₂ : List Op) :
    lastWrite k (ops₁ ++ ops₂) = (lastWrite k ops₂).or (lastWrite k ops₁) := by
  induction ops₁ with
  | nil => exact Option.or_none.symm
  | cons op ops ih => rw [List.cons_append, lastWrite, lastWrite, ih, Option.or_assoc]

theorem Op.write_eq_none {op : Op} {k : Bytes} (h : op.key ≠ k) : op.write k = none := by
  cases op <;> exact if_neg h

theorem lastWrite_eq_none {k : Bytes} {ops : List Op} (h : ∀ op ∈ ops, op.key ≠ k) :
    lastWrite k ops = none := by
  induction ops with
  | nil => rfl
  | cons op ops ih =>
      rw [lastWrite, ih fun o ho ↦ h o (List.mem_cons_of_mem _ ho), Option.none_or]
      exact Op.write_eq_none (h op (List.mem_cons_self _ _))

namespace KV

/-- A store with no records. -/
def empty : KV := ⟨[], List.Pairwise.nil⟩

/-- The record stored under a key. -/
def get (s : KV) (k : Bytes) : Option Record := s.recs.find? (fun r ↦ decide (r.key = k))

/-- Store `r` under its key, replacing what was there. -/
def put (s : KV) (r : Record) : KV :=
  ⟨insertRecord r (s.recs.filter (fun y ↦ decide (y.key ≠ r.key))),
    KeySorted.insertRecord (s.sorted.filter _)
      (fun y hy ↦ by simpa using (List.mem_filter.mp hy).2)⟩

/-- Remove the record under a key. -/
def delete (s : KV) (k : Bytes) : KV :=
  ⟨s.recs.filter (fun y ↦ decide (y.key ≠ k)), s.sorted.filter _⟩

/-- One write-batch operation. -/
def applyOp (s : KV) : Op → KV
  | .put r => s.put r
  | .delete k => s.delete k

/-- A whole write batch, its operations in order. -/
def apply (s : KV) (wb : WriteBatch) : KV := wb.ops.foldl applyOp s

/-- The records whose keys lie in a scan, in ascending key order: `IterateValue`
with an operation that never stops early. -/
def scan (s : KV) (fk lk : Bytes) (inc : Bool) : List Record :=
  s.recs.filter (fun r ↦ decide (InRange fk lk inc r.key))

/-- Modelled from the spec: remove every record whose key lies in `[fk, lk]`, the end key
included, since the spec's ranged deletion discards the entries at or below its index. -/
def removeRange (s : KV) (fk lk : Bytes) : KV :=
  ⟨s.recs.filter (fun r ↦ decide ¬ InRange fk lk true r.key), s.sorted.filter _⟩

/-- Modelled from the spec: `KV.GetValue` as storage call `i`, `none` for a missing key.
The callers' `len(data) == 0` test reads exactly a missing key: every record this
package stores marshals to at least one byte. -/
def getValue (f : Faults) (i : Nat) (s : KV) (k : Bytes) : Except Err (Option Record) :=
  storageCall f i (s.get k)

/-- Modelled from the spec: `KV.IterateValue` as storage call `i`. -/
def iterateValue (f : Faults) (i : Nat) (s : KV) (fk lk : Bytes) (inc : Bool) :
    Except Err (List Record) :=
  storageCall f i (s.scan fk lk inc)

/-- Modelled from the spec: `KV.CommitWriteBatch` as storage call `i`, the whole batch or
nothing. -/
def commitWriteBatch (f : Faults) (i : Nat) (s : KV) (wb : WriteBatch) : Except Err KV :=
  storageCall f i (s.apply wb)

/-- Modelled from the spec: `KV.BulkRemoveEntries` as storage call `i`. -/
def bulkRemoveEntries (f : Faults) (i : Nat) (s : KV) (fk lk : Bytes) : Except Err KV :=
  storageCall f i (s.removeRange fk lk)

/-- Modelled from the spec: `KV.CompactEntries` as storage call `i`, a compaction hint,
which leaves the contents as they are. -/
def compactEntries (f : Faults) (i : Nat) (s : KV) (_fk _lk : Bytes) : Except Err KV :=
  storageCall f i s

/-! ## Lookup after each operation -/

theorem mem_put {s : KV} {r y : Record} :
    y ∈ (s.put r).recs ↔ y = r ∨ y ∈ s.recs ∧ y.key ≠ r.key := by
  simp [put, mem_insertRecord]

theorem mem_delete {s : KV} {k : Bytes} {y : Record} :
    y ∈ (s.delete k).recs ↔ y ∈ s.recs ∧ y.key ≠ k := by
  simp [delete]

theorem get_eq_some_iff {s : KV} {k : Bytes} {r : Record} :
    s.get k = some r ↔ r ∈ s.recs ∧ r.key = k := by
  unfold get
  constructor
  · intro h
    have hk := List.find?_some h
    exact ⟨List.mem_of_find?_eq_some h, by simpa using hk⟩
  · rintro ⟨hr, rfl⟩
    have hsome : (s.recs.find? fun y ↦ decide (y.key = r.key)).isSome :=
      List.find?_isSome.mpr ⟨r, hr, by simp⟩
    obtain ⟨r', hr'⟩ := Option.isSome_iff_exists.mp hsome
    have hk : r'.key = r.key := by simpa using List.find?_some hr'
    rw [hr', s.sorted.eq_of_key_eq (List.mem_of_find?_eq_some hr') hr hk]

theorem mem_iff_get {s : KV} {r : Record} : r ∈ s.recs ↔ s.get r.key = some r :=
  ⟨fun hr ↦ get_eq_some_iff.mpr ⟨hr, rfl⟩, fun hg ↦ (get_eq_some_iff.mp hg).1⟩

/-- A store is determined by what it holds under each key. -/
theorem ext_get {s t : KV} (h : ∀ k, s.get k = t.get k) : s = t := by
  have hmem : ∀ r, r ∈ s.recs ↔ r ∈ t.recs := fun r ↦ by rw [mem_iff_get, mem_iff_get, h]
  obtain ⟨rs, hs⟩ := s
  obtain ⟨ts, ht⟩ := t
  congr
  exact hs.eq_of_mem_iff ht hmem

theorem get_eq_none_iff {s : KV} {k : Bytes} : s.get k = none ↔ ∀ r ∈ s.recs, r.key ≠ k := by
  rw [get, List.find?_eq_none]
  simp

@[simp] theorem get_put (s : KV) (r : Record) (k : Bytes) :
    (s.put r).get k = if r.key = k then some r else s.get k := by
  split
  · exact get_eq_some_iff.mpr ⟨mem_put.mpr (Or.inl rfl), ‹_›⟩
  · next hne =>
      rcases hs : s.get k with _ | y
      · refine get_eq_none_iff.mpr fun y hy hyk ↦ ?_
        rcases mem_put.mp hy with rfl | ⟨hy, -⟩
        · exact hne hyk
        · exact get_eq_none_iff.mp hs y hy hyk
      · obtain ⟨hy, rfl⟩ := get_eq_some_iff.mp hs
        exact get_eq_some_iff.mpr ⟨mem_put.mpr (Or.inr ⟨hy, Ne.symm hne⟩), rfl⟩

@[simp] theorem get_delete (s : KV) (k k' : Bytes) :
    (s.delete k).get k' = if k = k' then none else s.get k' := by
  split
  · next h =>
      subst h
      exact get_eq_none_iff.mpr fun r hr ↦ (mem_delete.mp hr).2
  · next hne =>
      rcases hs : s.get k' with _ | y
      · exact get_eq_none_iff.mpr fun y hy ↦ get_eq_none_iff.mp hs y (mem_delete.mp hy).1
      · obtain ⟨hy, rfl⟩ := get_eq_some_iff.mp hs
        exact get_eq_some_iff.mpr ⟨mem_delete.mpr ⟨hy, Ne.symm hne⟩, rfl⟩

@[simp] theorem applyOp_put (s : KV) (r : Record) : s.applyOp (.put r) = s.put r := rfl

@[simp] theorem applyOp_delete (s : KV) (k : Bytes) : s.applyOp (.delete k) = s.delete k := rfl

@[simp] theorem apply_empty (s : KV) : s.apply WriteBatch.empty = s := rfl

@[simp] theorem apply_put (s : KV) (wb : WriteBatch) (r : Record) :
    s.apply (wb.put r) = (s.apply wb).put r := by
  simp [apply, WriteBatch.put]

@[simp] theorem apply_delete (s : KV) (wb : WriteBatch) (k : Bytes) :
    s.apply (wb.delete k) = (s.apply wb).delete k := by
  simp [apply, WriteBatch.delete]

theorem get_applyOp (s : KV) (op : Op) (k : Bytes) :
    (s.applyOp op).get k = (op.write k).getD (s.get k) := by
  cases op <;> simp only [applyOp_put, applyOp_delete, get_put, get_delete, Op.write] <;>
    split <;> rfl

/-- After a batch, a key holds its last write, or what it held before when the batch
does not write it. -/
theorem get_apply (s : KV) (wb : WriteBatch) (k : Bytes) :
    (s.apply wb).get k = (lastWrite k wb.ops).getD (s.get k) := by
  obtain ⟨ops⟩ := wb
  induction ops generalizing s with
  | nil => rfl
  | cons op ops ih =>
      rw [show s.apply ⟨op :: ops⟩ = (s.applyOp op).apply ⟨ops⟩ from rfl, ih, get_applyOp]
      show _ = ((lastWrite k ops).or (op.write k)).getD _
      cases lastWrite k ops <;> rfl

/-- Applying a batch a second time changes nothing. -/
theorem apply_apply_self (s : KV) (wb : WriteBatch) : (s.apply wb).apply wb = s.apply wb :=
  ext_get fun k ↦ by
    rw [get_apply, get_apply]
    cases lastWrite k wb.ops <;> rfl

theorem mem_scan {s : KV} {fk lk : Bytes} {inc : Bool} {r : Record} :
    r ∈ s.scan fk lk inc ↔ r ∈ s.recs ∧ InRange fk lk inc r.key := by
  simp [scan]

theorem scan_sorted (s : KV) (fk lk : Bytes) (inc : Bool) : KeySorted (s.scan fk lk inc) :=
  s.sorted.filter _

theorem mem_removeRange {s : KV} {fk lk : Bytes} {r : Record} :
    r ∈ (s.removeRange fk lk).recs ↔ r ∈ s.recs ∧ ¬ InRange fk lk true r.key := by
  simp [removeRange]

@[simp] theorem apply_mk_ops (s : KV) (wb : WriteBatch) : s.apply ⟨wb.ops⟩ = s.apply wb := rfl

theorem apply_append (s : KV) (ops₁ ops₂ : List Op) :
    s.apply ⟨ops₁ ++ ops₂⟩ = (s.apply ⟨ops₁⟩).apply ⟨ops₂⟩ := by
  simp [apply, List.foldl_append]

/-- A batch that writes no operation under `k` leaves the record under `k`. -/
theorem get_apply_of_forall_ne (s : KV) (wb : WriteBatch) (k : Bytes)
    (h : ∀ op ∈ wb.ops, op.key ≠ k) : (s.apply wb).get k = s.get k := by
  rw [get_apply, lastWrite_eq_none h]
  rfl

theorem get_apply_deletes (s : KV) (ks : List Bytes) (k : Bytes) :
    (s.apply ⟨ks.map .delete⟩).get k = if k ∈ ks then none else s.get k := by
  induction ks generalizing s with
  | nil => simp [apply]
  | cons k' ks ih =>
      rw [show s.apply ⟨(k' :: ks).map .delete⟩ = (s.delete k').apply ⟨ks.map .delete⟩ from rfl,
        ih, get_delete]
      by_cases h : k = k' <;> simp [h, eq_comm]

@[simp] theorem get_removeRange (s : KV) (fk lk k : Bytes) :
    (s.removeRange fk lk).get k = if InRange fk lk true k then none else s.get k := by
  split
  · next h => exact get_eq_none_iff.mpr fun r hr hk ↦ (mem_removeRange.mp hr).2 (hk ▸ h)
  · next h =>
      rcases hs : s.get k with _ | y
      · exact get_eq_none_iff.mpr fun y hy ↦ get_eq_none_iff.mp hs y (mem_removeRange.mp hy).1
      · obtain ⟨hy, rfl⟩ := get_eq_some_iff.mp hs
        exact get_eq_some_iff.mpr ⟨mem_removeRange.mpr ⟨hy, h⟩, rfl⟩

end KV

end TugboatLogdb
