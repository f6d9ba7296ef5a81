import LeanRs.General.Procedure
import LeanRs.General.Runs
import LeanRs.Worker.Protocol
import LeanRs.Worker.Policy
import LeanRs.Worker.Supervisor
import LeanRs.Worker.Shutdown
import LeanRs.Worker.Stopping
import LeanRs.Worker.Verdict
import LeanRs.Worker.Restart
import LeanRs.Worker.Request
import LeanRs.Worker.Operations
import LeanRs.Worker.Frame
import LeanRs.Worker.Memory
import LeanRs.Worker.Settled
import LeanRs.Worker.ReadLoop
import LeanRs.Worker.Invariants
import LeanRs.Worker.Handles
import LeanRs.Worker.Cleanup
import LeanRs.Worker.Turns
import LeanRs.Worker.Deadline
import LeanRs.Worker.ImportBound
import LeanRs.General.Recency
import LeanRs.Worker.Contract
import LeanRs.Worker.Replacement
import LeanRs.Worker.Exhaustion
import LeanRs.Worker.Generations
import LeanRs.Worker.ReplacementAccounts
import LeanRs.Child.SessionIdentity
import LeanRs.Child.ServeArms
import LeanRs.Child.ServeGrammar
import LeanRs.Child.ServeLoop
import LeanRs.Child.SessionPool
import LeanRs.Child.ReuseHint
import LeanRs.Worker.Session
import LeanRs.Worker.Limits
import LeanRs.Pool.Capability
import LeanRs.Pool.Lease
import LeanRs.Pool.Pool
import LeanRs.Pool.Accounting
import LeanRs.Pool.WarmEntry
import LeanRs.Pool.Budget
import LeanRs.Host.SessionPool
import LeanRs.Host.Conservation
import LeanRs.Host.WarmReuse
import LeanRs.General.Json
import LeanRs.General.Fallible
import LeanRs.Toolchain.Paths
import LeanRs.Toolchain.Loader
import LeanRs.Toolchain.ManifestValidation
import LeanRs.Toolchain.Lake
import LeanRs.Toolchain.BuildHelpers
import LeanRs.Toolchain.ManifestRoundTrip
import LeanRs.Abi.Types
import LeanRs.Loader.Exported
import LeanRs.Loader.CheckedLookup
import LeanRs.Loader.Preflight
import LeanRs.Loader.Bundle
import LeanRs.Loader.Completeness
import LeanRs.General.Outline
import LeanRs.Loader.Initializer
import LeanRs.General.LittleEndian
import LeanRs.Abi.Object
import LeanRs.Abi.Decode
import LeanRs.Abi.DecodeSafety
import LeanRs.General.RefCount
import LeanRs.Abi.Heap
import LeanRs.Abi.HeapDecode
import LeanRs.Abi.Balance
import LeanRs.Abi.Encoded
import LeanRs.Abi.RoundTrip
import LeanRs.Abi.IoResult
import LeanRs.Abi.IoDecode
import LeanRs.General.Stamps
import LeanRs.Toolchain.LakeCache
import LeanRs.Toolchain.LakeFreshness
import LeanRs.General.SlidingWindow
import LeanRs.Worker.RestartIntensity
import LeanRs.General.Text
import LeanRs.Worker.Display
import LeanRs.General.JsonString
import LeanRs.Child.ModuleQueryKey
import LeanRs.Child.FrameWriter
import LeanRs.Child.DataStream
import LeanRs.Child.StreamIntegrity
import LeanRs.General.KeyTable
import LeanRs.General.TextCursor
import LeanRs.Shims.SourceDocument
import LeanRs.Shims.TacticInsertion
import LeanRs.General.Groups
import LeanRs.Pool.Planning
import LeanRs.Pool.PlanPartition
import LeanRs.Pool.BatchKey
import LeanRs.Runtime.Thread
import LeanRs.Worker.StreamCounts
import LeanRs.Worker.StreamOutcome
import LeanRs.Worker.StreamAccounting
import LeanRs.Runtime.Callback
import LeanRs.Runtime.CallbackInvariant
import LeanRs.Runtime.CallbackDispatch
import LeanRs.General.Selection
import LeanRs.Shims.Selection
import LeanRs.Shims.ByteBound
import LeanRs.Shims.CachePolicy
import LeanRs.General.JsonReader
import LeanRs.General.JsonText
import LeanRs.Child.StreamEnvelope
import LeanRs.Shims.Rendering
import LeanRs.General.Metering
import LeanRs.Shims.ProofAttempt
import LeanRs.Shims.AttemptBudget
import LeanRs.General.QuickSort
import LeanRs.Shims.Environment
import LeanRs.Shims.DeclarationSearch
import LeanRs.Shims.SearchRanking
import LeanRs.General.Memo
import LeanRs.Host.DeclarationBulk
import LeanRs.Toolchain.SourcePackage
import LeanRs.Toolchain.SourceReuse
import LeanRs.Toolchain.SharedCache
import LeanRs.Toolchain.CacheInterleaving
import LeanRs.Toolchain.ManifestFiles
import LeanRs.General.Trimming
import LeanRs.Toolchain.LakefileScan
import LeanRs.Toolchain.ModuleDiscovery
import LeanRs.Toolchain.ModuleNames
import LeanRs.Toolchain.ModuleFiles
import LeanRs.Pool.TimeoutOverride
import LeanRs.Worker.Blame
import LeanRs.Worker.Pipe
import LeanRs.Worker.Hearing
import LeanRs.Worker.Conversation
import LeanRs.Worker.Agreement
import LeanRs.Child.ListedRows
import LeanRs.Worker.Listing
import LeanRs.General.LengthPrefix
import LeanRs.Worker.Framing
import LeanRs.Worker.Connection
import LeanRs.Shims.ModuleSnapshot
import LeanRs.Shims.ModuleQuery
import LeanRs.Shims.Verification
import LeanRs.Shims.SnapshotCache
import LeanRs.Shims.ShimRuns
import LeanRs.Shims.Verdicts
