import Spinneret.Scheduler.AcquireWrite

/-!
# Acquire: breaker gate and control flow

The script in order: the breaker gate, which may lazily half-open an expired
breaker and roll the probe window over, one sticky attempt, up to three
sampling rounds and the reply.
-/

namespace Spinneret.Scheduler

open Spinneret.HotState Spinneret.Lib

set_option autoImplicit false

inductive AcquireReply where
  | ok (transition : Bool) (leases : List LeaseReply)
  | exhausted (transition : Bool) (retryAfter : Int)
  | breakerOpen (transition : Bool) (retryAfter : Int)
  | noProxy (transition : Bool) (retryAfter : Int)

def AcquireReply.leases : AcquireReply → List LeaseReply
  | .ok _ leases => leases
  | _ => []

/-- Result of the gate on one breaker: the breaker it leaves, whether it moved
from open to half-open, and either the refusal's retry time or whether the
leases of the call are probes. -/
structure GateResult where
  breaker : Breaker
  transition : Bool
  verdict : Int ⊕ Bool

/-- An open breaker refuses while it is effectively open and is half-opened by
the first acquire after its end; the open end is left in place. -/
def lazyHalfOpen (now : Int) (breaker : Breaker) : Breaker ⊕ Int :=
  if breaker.man = 1 ∧ breaker.ou = 0 then .inr 60000
  else if now < breaker.ou then .inr (breaker.ou - now)
  else .inl { breaker with st := .halfOpen, hw := now, hc := 0, ps := 0, pk := 0,
                           v := breaker.v + 1 }

/-- The probe window of a half-open breaker rolls over after ten seconds. -/
def rollProbeWindow (now : Int) (breaker : Breaker) : Breaker :=
  if probeWindow ≤ now - breaker.hw then { breaker with hw := now, hc := 0 } else breaker

def halfOpenGate (args : AcquireArgs) (breaker : Breaker) (transition : Bool) : GateResult :=
  let rolled := rollProbeWindow args.now breaker
  { breaker := rolled
    transition := transition
    verdict := if args.probeLimit ≤ rolled.hc then
        .inl (max (rolled.hw + probeWindow - args.now) 1)
      else .inr true }

/-- Step 1 of the script. -/
def breakerGate (args : AcquireArgs) (breaker : Breaker) : GateResult :=
  match breaker.st with
  | .closed => { breaker := breaker, transition := false, verdict := .inr false }
  | .halfOpen => halfOpenGate args breaker false
  | .opened =>
    match lazyHalfOpen args.now breaker with
    | .inr retry => { breaker := breaker, transition := false, verdict := .inl retry }
    | .inl breaker => halfOpenGate args breaker true

/-- A half-open breaker admits one probe per call, to the healthiest identity
and past the sticky session. -/
def modeOf (args : AcquireArgs) (probe : Bool) : Mode :=
  let count := if probe then 1 else args.prefixes.length
  { probe := probe
    count := count
    strategy := if probe then .bestHealth else args.strategy
    sticky := decide (args.session ≠ "" ∧ 0 < args.stickyTtl ∧ count = 1) && !probe }

def takeCandidate (args : AcquireArgs) (mode : Mode) (call : Call) (c : Candidate)
    (sticky : Bool) : Call :=
  let assigned := assignProxy args call.site call.ridx call.picked c
  let call := { call with
    site := { call.site with pxrdy := assigned.pxrdy }
    ridx := assigned.ridx
    skip := c.i :: call.skip }
  match assigned.proxy with
  | none => { call with proxyFail := call.proxyFail + 1 }
  | some proxy => call.lease args mode c proxy sticky

/-- Step 2: the identity of the sticky session, while it is still ready. -/
def stickyReuse (args : AcquireArgs) (mode : Mode) (call : Call) : Call :=
  if mode.sticky then
    match call.site.stk args.eg args.session with
    | none => call
    | some si =>
      if ((call.site.rdy args.eg).lookup si).isSome then
        match evaluate args call.site si true with
        | .ok c => takeCandidate args mode call c true
        | _ => call
      else call
  else call

/-- Record on the identity that group `eg` pushed it to its exclusive lease. -/
def markPushed (site : Site) (eg i : Hkey) : Site :=
  match site.id i with
  | none => site
  | some id =>
    match id.xg with
    | none => site.setId i (some { id with xg := some (.groups [eg]) })
    | some .every => site
    | some (.groups list) =>
      if eg ∈ list then site
      else site.setId i (some { id with xg := some (.groups (list ++ [eg])) })

/-- A rejected identity leaves the due range of the group. -/
def rejectCandidate (args : AcquireArgs) (site : Site) (i : Hkey) : Verdict → Site
  | .ok _ => site
  | .rem => site.setRdy args.eg ((site.rdy args.eg).erase i)
  | .push score pushXl =>
    let moved := site.setRdy args.eg ((site.rdy args.eg).move score i)
    if pushXl then markPushed moved args.eg i else moved

/-- Lease a chosen candidate; round robin moves its cursor to a leased identity. -/
def leaseChosen (args : AcquireArgs) (mode : Mode) (call : Call) (c : Candidate) : Call :=
  let after := takeCandidate args mode call c false
  if mode.strategy = .roundRobin ∧ call.picked < after.picked then
    { after with cursor := some (c.i : Int) }
  else after

/-- One iteration of the selection loop on a non-empty pool. -/
def poolStep (args : AcquireArgs) (mode : Mode) (call : Call) (pool : Pool) : Call × Pool :=
  let choice := pickIndex args call.site mode.strategy pool call.ridx call.cursor
  let call := { call with ridx := choice.ridx, cursor := choice.cursor }
  let pool := choice.pool
  match pool.entries[choice.index]? with
  | none => (call, pool)
  | some entry =>
    match entry.c with
    | some c => (leaseChosen args mode call c, pool.remove choice.index)
    | none =>
      match evaluate args call.site entry.i false with
      | .ok c =>
        -- a verified pending identity is only taken with probability probe_wf
        if mode.strategy = .weightedRandom ∧ c.st = .pending ∧ args.probeWf < 1 then
          let lowered := pool.setEntry choice.index
            { entry with
              c := some c
              key := some (entry.weight args call.site * args.probeWf) }
          let drawn := { call with ridx := call.ridx + 1 }
          if rnd args.randoms drawn.ridx < args.probeWf then
            (leaseChosen args mode drawn c, lowered.remove choice.index)
          else (drawn, lowered)
        else (leaseChosen args mode call c, pool.remove choice.index)
      | verdict =>
        ({ call with site := rejectCandidate args call.site entry.i verdict },
          pool.remove choice.index)

/-- The selection loop. Every iteration removes an entry or verifies one, so
twice the pool size is enough fuel. -/
def poolLoop (args : AcquireArgs) (mode : Mode) : Nat → Call → Pool → Call
  | 0, call, _ => call
  | fuel + 1, call, pool =>
    if call.picked < mode.count ∧ pool.entries ≠ [] ∧ call.proxyFail < 3 then
      let next := poolStep args mode call pool
      poolLoop args mode fuel next.1 next.2
    else call

/-- Steps 3-6: up to three sampling rounds. A round samples `ksample`
identities or as many as the batch still needs, past those already taken. -/
def samplingRounds (args : AcquireArgs) (mode : Mode) : Nat → Call → Call
  | 0, call => call
  | rounds + 1, call =>
    let want := max args.ksample (mode.count - call.picked)
    let lim := want + call.skip.length
    let ids := ZSet.rangeUpTo hkeyLe (call.site.rdy args.eg) args.now 0 lim
    if ids = [] then call
    else
      let pool := newPool ids want call.skip
      let after := poolLoop args mode (2 * pool.entries.length) call pool
      if mode.count ≤ after.picked ∨ 3 ≤ after.proxyFail ∨ ids.length < lim then after
      else samplingRounds args mode rounds after

/-- The wait until the first member of a ready queue is due. -/
def retryAfter (set : ZSet Hkey) (now fallback : Int) : Int :=
  match (ZSet.ordered hkeyLe set).head? with
  | none => 60000
  | some first =>
    let wait := first.2 - now
    if wait ≤ 0 then fallback else min (max wait 50) 60000

def finish (args : AcquireArgs) (transition : Bool) (call : Call) : Site × AcquireReply :=
  if 0 < call.picked then
    let cursored := match call.cursor with
      | none => call.site
      | some cursor => { call.site with rr := Function.update call.site.rr args.eg cursor }
    ({ cursored with aeg := cursored.aeg.add args.now args.eg }, .ok transition call.out)
  else if 0 < call.proxyFail then
    (call.site, .noProxy transition (retryAfter call.site.pxrdy args.now 1000))
  else (call.site, .exhausted transition (retryAfter (call.site.rdy args.eg) args.now 50))

def issue (args : AcquireArgs) (mode : Mode) (site : Site) : Call :=
  let reused := stickyReuse args mode { site := site }
  if reused.picked < mode.count then samplingRounds args mode 3 reused else reused

def acquire (args : AcquireArgs) (site : Site) : Site × AcquireReply :=
  let gate := breakerGate args (site.brk args.eg)
  let gated := site.setBrk args.eg gate.breaker
  match gate.verdict with
  | .inl retry => (gated, .breakerOpen gate.transition retry)
  | .inr probe => finish args gate.transition (issue args (modeOf args probe) gated)

end Spinneret.Scheduler
