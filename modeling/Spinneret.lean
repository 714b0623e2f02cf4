import Spinneret.Lib.Machine
import Spinneret.Lib.Table
import Spinneret.Lib.Numeral
import Spinneret.Lib.Escalation
import Spinneret.HotState.Model
import Spinneret.HotState.Prelude
import Spinneret.Scheduler.Ledger
import Spinneret.Scheduler.AcquireFilters
import Spinneret.Scheduler.AcquireProxy
import Spinneret.Scheduler.AcquireSelect
import Spinneret.Scheduler.AcquireWrite
import Spinneret.Scheduler.AcquireMain
import Spinneret.Scheduler.LeaseEnd
import Spinneret.Worker.Observe
import Spinneret.Worker.OutcomeCounts
import Spinneret.Action.Apply
import Spinneret.Breaker.Script
import Spinneret.HotState.SyncIdentities
import Spinneret.Scheduler.LeaseEndLedger
import Spinneret.Scheduler.LeaseHold
import Spinneret.Worker.ObserveLedger
import Spinneret.Action.ApplyLedger
import Spinneret.Scheduler.AcquireRule
import Spinneret.Action.Severity
import Spinneret.HotState.Expiry
import Spinneret.Runs.Machine
import Spinneret.Runs.ScriptLedger
import Spinneret.Runs.LeaseAccounting
import Spinneret.Runs.BreakerSteps
import Spinneret.Runs.ReuseAborts
import Spinneret.Runs.BreakerHistory
import Spinneret.Runs.LeaseLife
import Spinneret.Runs.LeaseExpiry
import Spinneret.Runs.Retention
import Spinneret.Runs.QuotaBound
import Spinneret.Runs.AbortNeutral
import Spinneret.Runs.ExclusiveReturn
import Spinneret.Policy.MostSevere
import Spinneret.Policy.EscalationLadder
import Spinneret.Runs.ScoreAgreement
import Spinneret.Runs.BreakerWindow
import Spinneret.Worker.ProxyBlame
import Spinneret.Runs.LeaseTrace
import Spinneret.Runs.ProbeWindow
import Spinneret.Runs.ProbeBudget
import Spinneret.Runs.ProbePeriod
import Spinneret.Worker.Checkpoint
import Spinneret.Worker.Consumer
import Spinneret.Worker.Rebalance
import Spinneret.Runs.ShardLedger
import Spinneret.Runs.ShardOnce
import Spinneret.Runs.ShardFaults
import Spinneret.Lib.Choice
import Spinneret.Site.Path
import Spinneret.Lib.LoadingCache
import Spinneret.Lib.LoadingCacheFresh
import Spinneret.Auth.Cache
import Spinneret.Auth.Revocation
import Spinneret.Action.StateWriter
import Spinneret.Runs.Lifecycle
import Spinneret.Authz.Permission
import Spinneret.Authz.Scope
import Spinneret.Authz.SiteFilter
import Spinneret.Auth.Tokens
import Spinneret.Auth.Passwords
import Spinneret.Auth.UsersAdmin
import Spinneret.Auth.ChildToken
import Spinneret.Auth.OwnerLocks
import Spinneret.Sdk.ReporterAccounts
import Spinneret.Sdk.Lease
import Spinneret.Scheduler.AcquireExhausted
import Spinneret.Netx.ClientIP
import Spinneret.Site.Normalize
import Spinneret.HotState.PackedSplice
import Spinneret.Scheduler.AcquireDecode
import Spinneret.HotState.SyncEncoding
import Spinneret.Identity.Canonical
import Spinneret.Identity.Mask
import Spinneret.Pkg.Glob
import Spinneret.Pkg.Idgen
import Spinneret.Pkg.Durationx
import Spinneret.Sdk.Snapshot
import Spinneret.Store.Script
