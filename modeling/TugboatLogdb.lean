import TugboatLogdb.Codec
import TugboatLogdb.Records
import TugboatLogdb.KV
import TugboatLogdb.Cache
import TugboatLogdb.Entries
import TugboatLogdb.DB
import TugboatLogdb.Batches
import TugboatLogdb.ListSnapshots
import TugboatLogdb.RemoveNodeData
import TugboatLogdb.ImportSnapshot
import TugboatLogdb.ListNodeInfo
import TugboatLogdb.Staging
import TugboatLogdb.SaveRaftState
import TugboatLogdb.Run
import TugboatLogdb.CacheCoherence
import TugboatLogdb.SnapshotRetention
import TugboatLogdb.EntryLog
import TugboatLogdb.Registry
import TugboatLogdb.Config
import TugboatLogdb.Independence
import TugboatLogdb.Isolation
import TugboatLogdb.Retry
import TugboatLogdb.ReadBack
