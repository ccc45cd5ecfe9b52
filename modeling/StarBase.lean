import StarBase.Api.Auth
import StarBase.Api.Users
import StarBase.Index.Files
import StarBase.Lib.FileTree
import StarBase.Action
import StarBase.Extract.Number
import StarBase.Extract.Resolver
import StarBase.Index.Db
import StarBase.Index.Equipment
import StarBase.Index.FrameStore
import StarBase.Scan.Walk
import StarBase.Scan.Worker
import StarBase.Index.SharedNames
import StarBase.Index.Indexable
import StarBase.Index.StoreSpec
import StarBase.Lib.WorkPool
import StarBase.Scan.SweepSpec
import StarBase.Scan.Reconcile
import StarBase.Scan.ReconcileSpec
import StarBase.Scan.ScanRoot
import StarBase.Scan.Presence
import StarBase.Scan.DiskScan
import StarBase.Scan.Converge
import StarBase.Scan.Return
import StarBase.Scan.Follow
import StarBase.Api.Sessions
import StarBase.Action.WriteBack
import StarBase.Scan.Derived
import StarBase.Action.Gate
import StarBase.Query.Filter
import StarBase.Query.Select
import StarBase.Index.FlatSets
import StarBase.Api.Equipment
import StarBase.Match.Rules
import StarBase.Match.Masters
import StarBase.Match.Exact
import StarBase.Match.FlatChoice
import StarBase.Match.Isolation
import StarBase.Match.Ranking
import StarBase.Lib.Interning
import StarBase.Scan.Conserve
import StarBase.Scan.Race
import StarBase.Scan.Undated
import StarBase.Scan.MountGuard
import StarBase.Scan.FirstSeen
import StarBase.Lib.Batch
import StarBase.Lib.CondVar
import StarBase.Scan.BoundedQueue
import StarBase.Api.ScanGuard
import StarBase.Lib.OrderBy
import StarBase.Lib.Paging
import StarBase.Index.MappingLoader
import StarBase.Lib.SqlText
import StarBase.Query.FilterText
import StarBase.Query.FilterRead
import StarBase.Query.FilterMeaning
import StarBase.Query.Faults
import StarBase.Query.NumericLiteral
import StarBase.Query.RowTruth
import StarBase.Lib.Transaction
import StarBase.Index.StoreAttempts
import StarBase.Index.StoreExact
import StarBase.Index.StoreAgain
import StarBase.Lib.Memo
import StarBase.Index.StoreRetry
import StarBase.Scan.Pass
import StarBase.Scan.PassInvariant
import StarBase.Scan.PassStatus
import StarBase.Lib.Fairness
import StarBase.Scan.PassFaults
import StarBase.Scan.History
import StarBase.Scan.Skipped
import StarBase.Names.Spelling
import StarBase.Names.Stable
import StarBase.Fits.StringValue
import StarBase.Query.Browse
import StarBase.Query.Pages
import StarBase.Lib.Like
import StarBase.Query.Builder
import StarBase.Lib.Sphere
import StarBase.Query.Cone
import StarBase.Api.Gates
import StarBase.Fits.XisfScan
import StarBase.Fits.Fingerprint
import StarBase.Extract.Night
import StarBase.Extract.Coordinate
import StarBase.Lib.CommandLine
import StarBase.Pix.Wbpp
import StarBase.Pix.Command
import StarBase.Api.Cookie
import StarBase.Auth.Password
import StarBase.Lib.LastMax
import StarBase.Util.MountTable
import StarBase.Lib.Clusters
import StarBase.Util.CaseProbe
import StarBase.Api.FlatSuggestions
import StarBase.Api.AcceptFlats
import StarBase.Lib.Glob
import StarBase.Scan.IgnoreWalk
import StarBase.Lib.LastPart
import StarBase.Scan.SidecarLink
import StarBase.Lib.Intervals
import StarBase.Api.RigSuggestions
import StarBase.Action.Export
