import Garive.Core.Limits
import Garive.Core.Narrowing
import Garive.Effects.Publication
import Garive.Effects.Settlement
import Garive.Goal.Cancellation
import Garive.Ledger.Codec
import Garive.Ledger.DelegationForest
import Garive.Ledger.Opaque
import Garive.Ledger.Replay
import Garive.Ledger.Revisions
import Garive.Ledger.Terminal
import Garive.Patch.Failure
import Garive.Plan.Progress
import Garive.Proto.ProcessState
import Garive.Runtime.Awaiting
import Garive.Scheduler.Recurrence
import Garive.Sqlite.ExecutionLease
import Garive.Sqlite.MonotonicClock
import Garive.Ledger.EffectBatch
