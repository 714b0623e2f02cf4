import Spinneret.Lib.Machine
import Spinneret.Scheduler.AcquireMain
import Spinneret.Scheduler.LeaseEnd
import Spinneret.Worker.Observe
import Spinneret.Action.Apply
import Spinneret.Breaker.Script
import Spinneret.HotState.SyncIdentities
import Spinneret.HotState.Expiry

/-!
# The scripts of one site as a machine

Redis runs the scripts of a site one at a time, so the hot state moves in atomic
steps, one per script call, in any order and with any arguments and clock
values; the scripts of `sync_maintenance` are left out, so no proxy is removed.
Between calls, keys with a TTL may disappear. A run keeps its past: every step with
the state it found and what it reported.
-/

namespace Spinneret.Runs

open Spinneret.HotState Spinneret.Lib Spinneret.Scheduler Spinneret.Worker Spinneret.Action
open Spinneret.Breakers

set_option autoImplicit false

inductive SiteOp where
  | acquire (args : AcquireArgs)
  | renew (args : RenewArgs)
  | release (args : ReleaseArgs)
  | reap (args : ReapArgs)
  | observe (shard : Nat) (sid : StreamId) (full : Option ObserveArgs)
  | act (now : Int) (token : Option String) (ops : List Op)
  | evalBreaker (args : EvalArgs)
  | setBreaker (args : SetArgs)
  | sync (args : SyncArgs)
  | syncProxies (args : SyncProxiesArgs)
  | retain (args : RetainArgs)
  | expire (lid : LeaseId)
  | forget (key : Transient)

/-- One entry of the breaker history of a group; `unseen` marks a half-open step
that an acquire took and a later script reported. -/
structure Transition where
  eg : Hkey
  source : BreakerState
  target : BreakerState
  unseen : Bool := false
  deriving DecidableEq, Repr

/-- What a script call leaves behind and what its caller learns from it: whether
a counter was clamped, the leases issued and the breaker transitions recorded. -/
structure Outcome where
  site : Site
  clamped : Bool := false
  leases : List LeaseReply := []
  records : List Transition := []

/-- A reported lazy step is recorded as a transition of its own. -/
def lazyRecord (eg : Hkey) (lazyAt : Option Int) : List Transition :=
  if lazyAt.isSome then [{ eg := eg, source := .opened, target := .halfOpen, unseen := true }]
  else []

def evalRecords (eg : Hkey) (reply : EvalReply) : List Transition :=
  lazyRecord eg reply.lazyAt ++
    reply.target.toList.map fun target =>
      { eg := eg, source := reply.fromState, target := target }

def setRecords (eg : Hkey) (reply : SetReply) : List Transition :=
  lazyRecord eg reply.lazyAt ++
    if reply.changed then
      [{ eg := eg, source := reply.fromState, target := reply.breaker.st }]
    else []

/-- One atomic step; the expiry of a lease hash is only enabled for an ended lease. -/
def perform (op : SiteOp) (site : Site) : Option Outcome :=
  match op with
  | .acquire args =>
    let result := Scheduler.acquire args site
    some { site := result.1, leases := result.2.leases }
  | .renew args => some { site := (Scheduler.renew args site).1 }
  | .release args =>
    let ended := (Scheduler.release args site).1
    some { site := ended.site, clamped := ended.clamped }
  | .reap args =>
    let ended := (Scheduler.reap args site).1
    some { site := ended.site, clamped := ended.clamped }
  | .observe shard sid full => some { site := (Worker.observe shard sid full site).1 }
  | .act now token ops => some { site := (Action.apply now token ops site).1 }
  | .evalBreaker args =>
    let result := breakerEval args site
    some { site := result.1, records := evalRecords args.eg result.2 }
  | .setBreaker args =>
    let result := breakerSet args site
    some { site := result.1, records := setRecords args.eg result.2 }
  | .sync args => some { site := syncIdentities args site }
  | .syncProxies args => some { site := HotState.syncProxies args site }
  | .retain args => some { site := leaseRetain args site }
  | .expire lid => (expireLease site lid).map fun site => { site := site }
  | .forget key => some { site := HotState.forget site key }

structure Event where
  op : SiteOp
  before : Site
  outcome : Outcome

structure SiteRun where
  site : Site
  past : List Event

def SiteRun.start (site : Site) : SiteRun := { site := site, past := [] }

def siteStep (run : SiteRun) (op : SiteOp) : Option SiteRun :=
  (perform op run.site).map fun outcome =>
    { site := outcome.site
      past := run.past ++ [{ op := op, before := run.site, outcome := outcome }] }

theorem site_step_cases {run next : SiteRun} {op : SiteOp} (stepped : siteStep run op = some next) :
    ∃ outcome, perform op run.site = some outcome ∧ next.site = outcome.site ∧
      next.past = run.past ++ [{ op := op, before := run.site, outcome := outcome }] := by
  obtain ⟨outcome, performed, rfl⟩ := Option.map_eq_some_iff.mp stepped
  exact ⟨outcome, performed, rfl, rfl⟩

def SiteOp.clock : SiteOp → Option Int
  | .acquire args => some args.now
  | .renew args => some args.now
  | .release args => some args.now
  | .reap args => some args.now
  | .observe _ _ full => full.map ObserveArgs.now
  | .act now _ _ => some now
  | .evalBreaker args => some args.now
  | .setBreaker args => some args.now
  | .sync args => some args.now
  | .syncProxies args => some args.now
  | .retain args => some args.now
  | .expire _ => none
  | .forget _ => none

def SiteOp.operates : SiteOp → Option Hkey
  | .evalBreaker args => if args.mode = .eval then some args.eg else none
  | .setBreaker args => some args.eg
  | _ => none

def SiteOp.leads : SiteOp → List String
  | .acquire args => args.prefixes
  | _ => []

def SiteOp.removals : SiteOp → List Hkey
  | .sync args => args.records.filterMap fun
      | .remove i _ => some i
      | .sync _ => none
  | _ => []

end Spinneret.Runs
