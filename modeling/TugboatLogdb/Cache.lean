import TugboatLogdb.Records
import Mathlib.Logic.Function.Basic

/-!
# The replica cache

`cache.go` is not among the sources, so the cache is modelled from the spec:
per replica it may hold the last state saved, the max index and the last
snapshot index.  The database consults it to drop redundant state writes and
stale snapshots before any I/O, and to answer max-index reads without a lookup.
-/

namespace TugboatLogdb

/-- Modelled from the spec: `cache`, per replica the last state saved, the max
index and the last snapshot index, `none` where its map has no entry. -/
structure Cache where
  ps : NodeInfo → Option State
  maxIndex : NodeInfo → Option UInt64
  snapshotIndex : NodeInfo → Option UInt64

namespace Cache

/-- Modelled from the spec: `newCache`. -/
def new : Cache := ⟨fun _ ↦ none, fun _ ↦ none, fun _ ↦ none⟩

/-- Modelled from the spec: `cache.setState` records `st` and reports whether it
differs from the cached state. -/
def setState (cs : Cache) (clusterID nodeID : UInt64) (st : State) : Bool × Cache :=
  if cs.ps ⟨clusterID, nodeID⟩ = some st then (false, cs)
  else (true, { cs with ps := Function.update cs.ps ⟨clusterID, nodeID⟩ (some st) })

/-- Modelled from the spec: `cache.trySaveSnapshot` accepts, and records, an index
strictly greater than the recorded one (0 when none is recorded). -/
def trySaveSnapshot (cs : Cache) (clusterID nodeID index : UInt64) : Bool × Cache :=
  if (cs.snapshotIndex ⟨clusterID, nodeID⟩).getD 0 < index then
    (true, { cs with
      snapshotIndex := Function.update cs.snapshotIndex ⟨clusterID, nodeID⟩ (some index) })
  else (false, cs)

/-- Modelled from the spec: `cache.setSnapshotIndex`. -/
def setSnapshotIndex (cs : Cache) (clusterID nodeID index : UInt64) : Cache :=
  { cs with snapshotIndex := Function.update cs.snapshotIndex ⟨clusterID, nodeID⟩ (some index) }

/-- Modelled from the spec: `cache.setMaxIndex`, an unconditional overwrite. -/
def setMaxIndex (cs : Cache) (clusterID nodeID maxIndex : UInt64) : Cache :=
  { cs with maxIndex := Function.update cs.maxIndex ⟨clusterID, nodeID⟩ (some maxIndex) }

/-- Modelled from the spec: `cache.getMaxIndex`. -/
def getMaxIndex (cs : Cache) (clusterID nodeID : UInt64) : Option UInt64 :=
  cs.maxIndex ⟨clusterID, nodeID⟩

/-! Each operation changes one map. -/

@[simp] theorem setState_maxIndex (cs : Cache) (c n : UInt64) (st : State) :
    (cs.setState c n st).2.maxIndex = cs.maxIndex := by
  unfold setState; split <;> rfl

@[simp] theorem setState_snapshotIndex (cs : Cache) (c n : UInt64) (st : State) :
    (cs.setState c n st).2.snapshotIndex = cs.snapshotIndex := by
  unfold setState; split <;> rfl

/-- Whether it reports a change or not, `setState` leaves `st` cached. -/
@[simp] theorem setState_ps (cs : Cache) (c n : UInt64) (st : State) :
    (cs.setState c n st).2.ps = Function.update cs.ps ⟨c, n⟩ (some st) := by
  unfold setState
  split
  · next h => exact (h ▸ Function.update_eq_self _ cs.ps).symm
  · rfl

theorem setState_fst (cs : Cache) (c n : UInt64) (st : State) :
    (cs.setState c n st).1 = decide (cs.ps ⟨c, n⟩ ≠ some st) := by
  unfold setState; split <;> simp_all

@[simp] theorem trySaveSnapshot_ps (cs : Cache) (c n i : UInt64) :
    (cs.trySaveSnapshot c n i).2.ps = cs.ps := by
  unfold trySaveSnapshot; split <;> rfl

@[simp] theorem trySaveSnapshot_maxIndex (cs : Cache) (c n i : UInt64) :
    (cs.trySaveSnapshot c n i).2.maxIndex = cs.maxIndex := by
  unfold trySaveSnapshot; split <;> rfl

@[simp] theorem trySaveSnapshot_fst (cs : Cache) (c n i : UInt64) :
    (cs.trySaveSnapshot c n i).1 = decide ((cs.snapshotIndex ⟨c, n⟩).getD 0 < i) := by
  unfold trySaveSnapshot; split <;> simp_all

theorem trySaveSnapshot_eq (cs : Cache) (c n i : UInt64) :
    cs.trySaveSnapshot c n i =
      if (cs.snapshotIndex ⟨c, n⟩).getD 0 < i then (true, cs.setSnapshotIndex c n i)
      else (false, cs) := rfl

@[simp] theorem setSnapshotIndex_ps (cs : Cache) (c n i : UInt64) :
    (cs.setSnapshotIndex c n i).ps = cs.ps := rfl

@[simp] theorem setSnapshotIndex_maxIndex (cs : Cache) (c n i : UInt64) :
    (cs.setSnapshotIndex c n i).maxIndex = cs.maxIndex := rfl

@[simp] theorem setSnapshotIndex_snapshotIndex (cs : Cache) (c n i : UInt64) :
    (cs.setSnapshotIndex c n i).snapshotIndex =
      Function.update cs.snapshotIndex ⟨c, n⟩ (some i) := rfl

@[simp] theorem setMaxIndex_ps (cs : Cache) (c n v : UInt64) :
    (cs.setMaxIndex c n v).ps = cs.ps := rfl

@[simp] theorem setMaxIndex_snapshotIndex (cs : Cache) (c n v : UInt64) :
    (cs.setMaxIndex c n v).snapshotIndex = cs.snapshotIndex := rfl

@[simp] theorem setMaxIndex_maxIndex (cs : Cache) (c n v : UInt64) :
    (cs.setMaxIndex c n v).maxIndex = Function.update cs.maxIndex ⟨c, n⟩ (some v) := rfl

@[simp] theorem setMaxIndex_setMaxIndex (cs : Cache) (c n v w : UInt64) :
    (cs.setMaxIndex c n v).setMaxIndex c n w = cs.setMaxIndex c n w := by
  simp only [setMaxIndex, Function.update_idem]

end Cache

end TugboatLogdb
