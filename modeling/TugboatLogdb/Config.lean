import Mathlib.Data.UInt
import Mathlib.Data.List.Infix

/-!
# Configuration and shard directories

`config.go` builds the `LogDBConfig` presets and estimates the memory a
configuration takes; `logdb.go` checks the directories handed to `NewLogDB` and
repeats a single directory for every shard, which is what `Factory`, with one
NodeHost directory and one WAL directory, always relies on.  The presets differ only in the size
of the write buffers, and the doc comment of each states the memory bound it
gives: 256 MB, 1, 4 and 8 GB.
-/

namespace TugboatLogdb

/-- The file system of a configuration: `vfs.Default`, the only one the sources set. -/
inductive FileSystem
  | default
  deriving DecidableEq, Repr

/-- `LogDBConfig`; `fs` is `none` for a nil `FS`. -/
structure LogDBConfig where
  fs : Option FileSystem
  shards : UInt64
  kvKeepLogFileNum : UInt64
  kvMaxBackgroundCompactions : UInt64
  kvMaxBackgroundFlushes : UInt64
  kvLRUCacheSize : UInt64
  kvWriteBufferSize : UInt64
  kvMaxWriteBufferNumber : UInt64
  kvLevel0FileNumCompactionTrigger : UInt64
  kvLevel0SlowdownWritesTrigger : UInt64
  kvLevel0StopWritesTrigger : UInt64
  kvMaxBytesForLevelBase : UInt64
  kvMaxBytesForLevelMultiplier : UInt64
  kvTargetFileSizeBase : UInt64
  kvTargetFileSizeMultiplier : UInt64
  kvLevelCompactionDynamicLevelBytes : UInt64
  kvRecycleLogFileNum : UInt64
  kvNumOfLevels : UInt64
  kvBlockSize : UInt64
  saveBufferSize : UInt64
  maxSaveBufferSize : UInt64
  deriving DecidableEq, Repr

namespace LogDBConfig

/-- `defaultLogDBShards`. -/
def defaultLogDBShards : UInt64 := 16

/-- `getDefaultLogDBConfig`. -/
def getDefaultLogDBConfig : LogDBConfig where
  fs := some .default
  shards := defaultLogDBShards
  kvMaxBackgroundCompactions := 2
  kvMaxBackgroundFlushes := 2
  kvLRUCacheSize := 0
  kvKeepLogFileNum := 16
  kvWriteBufferSize := 128 * 1024 * 1024
  kvMaxWriteBufferNumber := 4
  kvLevel0FileNumCompactionTrigger := 8
  kvLevel0SlowdownWritesTrigger := 17
  kvLevel0StopWritesTrigger := 24
  kvMaxBytesForLevelBase := 4 * 1024 * 1024 * 1024
  kvMaxBytesForLevelMultiplier := 2
  kvTargetFileSizeBase := 16 * 1024 * 1024
  kvTargetFileSizeMultiplier := 2
  kvLevelCompactionDynamicLevelBytes := 0
  kvRecycleLogFileNum := 0
  kvNumOfLevels := 7
  kvBlockSize := 32 * 1024
  saveBufferSize := 32 * 1024
  maxSaveBufferSize := 64 * 1024 * 1024

/-- The memory presets: the defaults with `writeBufferSize` and four write buffers. -/
def memLogDBConfig (writeBufferSize : UInt64) : LogDBConfig :=
  { getDefaultLogDBConfig with kvWriteBufferSize := writeBufferSize, kvMaxWriteBufferNumber := 4 }

/-! The exported presets keep their Go names, since `GetDefaultLogDBConfig` and
`getDefaultLogDBConfig` differ only in case. -/

/-- `GetTinyMemLogDBConfig`. -/
def GetTinyMemLogDBConfig : LogDBConfig := memLogDBConfig (4 * 1024 * 1024)

/-- `GetSmallMemLogDBConfig`. -/
def GetSmallMemLogDBConfig : LogDBConfig := memLogDBConfig (16 * 1024 * 1024)

/-- `GetMediumMemLogDBConfig`. -/
def GetMediumMemLogDBConfig : LogDBConfig := memLogDBConfig (64 * 1024 * 1024)

/-- `GetLargeMemLogDBConfig`. -/
def GetLargeMemLogDBConfig : LogDBConfig := getDefaultLogDBConfig

/-- `GetDefaultLogDBConfig`. -/
def GetDefaultLogDBConfig : LogDBConfig := GetLargeMemLogDBConfig

/-- `cfg.MemorySizeMB`, in `uint64` arithmetic. -/
def memorySizeMB (cfg : LogDBConfig) : UInt64 :=
  cfg.kvWriteBufferSize * cfg.kvMaxWriteBufferNumber * cfg.shards / (1024 * 1024)

/-- `cfg.IsEmpty`: whether `cfg` is the zero configuration. -/
def isEmpty (cfg : LogDBConfig) : Bool :=
  cfg == ⟨none, 0, 0, 0, 0, 0, 0, 0, 0, 0, 0, 0, 0, 0, 0, 0, 0, 0, 0, 0, 0⟩

/-- The presets estimate the bounds their doc comments state: 256 MB, 1, 4 and 8 GB. -/
example : GetTinyMemLogDBConfig.memorySizeMB = 256 := rfl
example : GetSmallMemLogDBConfig.memorySizeMB = 1024 := rfl
example : GetMediumMemLogDBConfig.memorySizeMB = 4096 := rfl
example : GetDefaultLogDBConfig.memorySizeMB = 8192 := rfl

end LogDBConfig

/-! ## Shard directories -/

/-- A slice of strings as `%v` prints it. -/
def showSlice (ss : List String) : String := "[" ++ " ".intercalate ss ++ "]"

/-- `checkDirs`: its panics as errors, with their messages. -/
def checkDirs (numOfShards : UInt64) (dirs lldirs : List String) : Except String Unit :=
  if dirs.length = 1 then
    if lldirs.length ≠ 0 ∧ lldirs.length ≠ 1 then
      .error ("only 1 regular dir but " ++ toString lldirs.length ++ " low latency dirs")
    else .ok ()
  else if dirs.length > 1 then
    if UInt64.ofNat dirs.length ≠ numOfShards then
      .error (toString dirs.length ++ " regular dirs, but expect to have " ++
        toString numOfShards ++ " rdb instances")
    else if lldirs.length > 0 ∧ dirs.length ≠ lldirs.length then
      .error (showSlice dirs ++ " regular dirs, but " ++ showSlice lldirs ++ " low latency dirs")
    else .ok ()
  else .error "no regular dir"

/-- `NewLogDB` up to its call of `OpenShardedDB`, which is not among the sources: the
directories it hands over after `checkDirs`.  A single regular directory is appended
once for each shard after the first, and a single low latency directory with it
(`llDirRequired`). -/
def newLogDBDirs (config : LogDBConfig) (dirs lldirs : List String) :
    Except String (List String × List String) :=
  (checkDirs config.shards dirs lldirs).map fun _ ↦
    match dirs with
    | [d] =>
        (dirs ++ List.replicate (config.shards.toNat - 1) d,
          match lldirs with
          | [l] => lldirs ++ List.replicate (config.shards.toNat - 1) l
          | _ => lldirs)
    | _ => (dirs, lldirs)

theorem checkDirs_eq_ok {numOfShards : UInt64} {dirs lldirs : List String}
    (h : checkDirs numOfShards dirs lldirs = .ok ()) :
    (dirs.length = 1 ∧ lldirs.length ≤ 1) ∨
      (1 < dirs.length ∧ UInt64.ofNat dirs.length = numOfShards ∧
        (lldirs = [] ∨ lldirs.length = dirs.length)) := by
  unfold checkDirs at h
  split_ifs at h with h₁ h₂ h₃ h₄ h₅
  · exact .inl ⟨h₁, by omega⟩
  · refine .inr ⟨h₃, not_not.mp h₄, ?_⟩
    rcases lldirs with _ | ⟨l, lldirs⟩
    · exact .inl rfl
    · exact .inr (by simp only [List.length_cons] at h₅ ⊢; omega)

/-- The closure that `Factory` returns, up to `OpenShardedDB`: its call of
`NewLogDB` with one NodeHost directory and one WAL directory, an error standing for
the panic. -/
def factory (config : LogDBConfig) (nhPath walPath : String) :
    Except String (List String × List String) :=
  newLogDBDirs config [nhPath] [walPath]

end TugboatLogdb
