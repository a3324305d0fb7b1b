import Xqlite.Lib.Runs
import Xqlite.Lib.Keyed
import Xqlite.Lib.Lifecycle
import Xqlite.Lib.Logged
import Xqlite.Lib.Transaction
import Xqlite.Lib.Relational
import Xqlite.Lib.Ledger
import Xqlite.Lib.Mutex
import Xqlite.Lib.Writes
import Xqlite.Lib.Slices
import Xqlite.Lib.Spelling
import Xqlite.Lib.FirstError
import Xqlite.Lib.Codec
import Xqlite.Lib.Base16
import Xqlite.Lib.MixedFraction
import Xqlite.Lib.Gregorian
import Xqlite.Terms
import Xqlite.BusySlot
import Xqlite.BusyRuns
import Xqlite.BusyBoxes
import Xqlite.RowTerms
import Xqlite.StreamFetch
import Xqlite.StreamResource
import Xqlite.StreamColumns
import Xqlite.StreamReuse
import Xqlite.RawHandles
import Xqlite.RawHandleRuns
import Xqlite.Params
import Xqlite.StatementBind
import Xqlite.Prepare
import Xqlite.Pragma
import Xqlite.WalSlot
import Xqlite.WalRuns
import Xqlite.StrictTable
import Xqlite.StrictRebuild
import Xqlite.StrictPreserved
import Xqlite.HookList
import Xqlite.ProgressDispatch
import Xqlite.ProgressTicks
import Xqlite.BusyEvents
import Xqlite.CancelGuard
import Xqlite.Lib.SqlText
import Xqlite.Lib.SqlCommand
import Xqlite.PragmaText
import Xqlite.PragmaAgree
import Xqlite.OpenOptions
import Xqlite.Quoting
import Xqlite.WalAutocheckpoint
import Xqlite.Sessions
import Xqlite.SessionRuns
import Xqlite.Utf8
import Xqlite.RowDecoders
import Xqlite.Uuid
import Xqlite.Instants
import Xqlite.Blob
import Xqlite.Lib.Split
import Xqlite.ConstraintParse
import Xqlite.Lib.Ascii
import Xqlite.ErrorClass
import Xqlite.Lib.Radix
import Xqlite.DefaultValue
import Xqlite.DefaultGrammar
import Xqlite.DefaultClasses
import Xqlite.TypeAffinity
import Xqlite.SchemaRows
import Xqlite.SingleStatement
import Xqlite.NulText
import Xqlite.Bridge
import Xqlite.BridgeRooms
import Xqlite.BridgeLaw
import Xqlite.StrictText
import Xqlite.Lib.QueryText
import Xqlite.StrictRename
import Xqlite.StrictQuery
import Xqlite.StrictCheck
import Xqlite.HookBoxes
import Xqlite.Lib.Critical
import Xqlite.LogHook
import Xqlite.StatementRuns
import Xqlite.ReadPaths
import Xqlite.Lib.Nested
import Xqlite.Savepoints
import Xqlite.Lib.LockOrder
import Xqlite.Locks
import Xqlite.Backup
import Xqlite.Lib.Iso8601
import Xqlite.TypeChain
import Xqlite.BridgeRuns
import Xqlite.Forwarder
import Xqlite.BridgeEvents
import Xqlite.Authorizer
import Xqlite.Changesets
