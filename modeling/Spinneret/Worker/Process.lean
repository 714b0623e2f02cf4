import Spinneret.Breaker.Params
import Spinneret.Policy.Evaluate

/-!
# Processing a leased report

The worker derives the arguments of the observe script from the policies of the
endpoint group, and the input of the action policy from the reply. A report that
was a duplicate, suppressed, late or of an unknown identity plans nothing.
-/

namespace Spinneret.Worker

open Spinneret.HotState Spinneret.Policy Spinneret.Breakers

set_option autoImplicit false

/-- A classified report with the policies of its endpoint group. -/
structure ReportParams where
  shard : Nat
  streamId : StreamId
  now : Int
  leaseId : LeaseId
  group : Hkey
  breaker : Option BreakerSpec
  quotas : List Duration
  action : CompiledAction
  identityKey : Hkey
  proxyKey : Option Hkey
  outcome : Outcome
  blame : Blame
  late : Bool

def nsPerMs : Int := 1000000

def milliseconds (ns : Int) : Int := ns.tdiv nsPerMs

def observed (observation : ℚ × Bool) : Option ℚ :=
  if observation.2 then some observation.1 else none

/-- The arguments of the observe script; `exp` is the exponential of its runtime. -/
def observeArgs (p : ReportParams) (exp : ℚ → ℚ) : ObserveArgs where
  now := p.now
  lid := p.leaseId
  eg := p.group
  ident := some p.identityKey
  proxy := p.proxyKey
  outcome := p.outcome
  blame := p.blame
  late := p.late
  obsIdentity := observed (p.action.observation p.outcome (some .identity))
  obsProxy := observed (CompiledAction.proxyObservation p.outcome (some .proxy))
  failure := isFailureOutcome p.outcome
  risk := isRiskOutcome p.outcome
  alpha := p.action.health.alpha
  baseline := p.action.health.baseline
  tau := p.action.health.tau.milliseconds
  resetAfter := milliseconds p.action.failureResetAfter
  winBucket := (winSuffix p.breaker p.now).1
  cross :=
    { enabled := p.action.crossAttribution.enabled
      window := p.action.crossAttribution.window.milliseconds
      proxyIdentities := p.action.crossAttribution.proxyDistinctIdentities.toNat
      identityProxies := p.action.crossAttribution.identityDistinctProxies.toNat }
  quotas := p.quotas.map Duration.milliseconds
  counters := (p.action.counters p.outcome).map fun c => (c.subject, milliseconds c.window)
  banWindows := p.action.escalationWindows.map milliseconds
  exp := exp

/-- A map filled from a list of keys and the values at the same positions. -/
def filled {Key : Type} [DecidableEq Key] (keys : List Key) (values : List Int) : Key → Int :=
  (keys.zip values).foldl (fun counts entry => Function.update counts entry.1 entry.2) fun _ => 0

def evalInput (p : ReportParams) (obs : ObserveReply) (jitter : Option (Nat → ℚ)) : EvalInput where
  outcome := p.outcome
  blame := some obs.blame
  identityState := obs.idState
  hasAccount := obs.account.isSome
  hasProxy := p.proxyKey.isSome
  counts := filled (p.action.counters p.outcome) obs.counts
  banCounts := filled p.action.escalationWindows (obs.bans.map Int.ofNat)
  endpointStreak := obs.endpointStreak
  siteStreak := obs.globalStreak
  proxyStreak := obs.proxyStreak
  endpointScore := obs.endpointScore
  endpointSamples := obs.endpointSamples
  globalScore := obs.globalScore
  globalSamples := obs.globalSamples
  endpointCooldownRemaining :=
    if 0 < obs.endpointCd - p.now then (obs.endpointCd - p.now) * nsPerMs else 0
  jitter := jitter

def plannedActions (p : ReportParams) (obs : ObserveReply) (jitter : Option (Nat → ℚ)) :
    List PlannedAction :=
  if obs.suppressed = false ∧ p.late = false ∧ obs.idState.isSome then
    p.action.evaluate (evalInput p obs jitter)
  else []

/-- One delivery of a leased report: the observe script, then the plan. -/
def processLeased (p : ReportParams) (exp : ℚ → ℚ) (jitter : Option (Nat → ℚ)) (site : Site) :
    Site × List PlannedAction :=
  let result := observe p.shard p.streamId (some (observeArgs p exp)) site
  (result.1, match result.2 with
    | .applied obs => plannedActions p obs jitter
    | _ => [])

end Spinneret.Worker
