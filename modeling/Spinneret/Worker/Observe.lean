import Spinneret.HotState.Prelude
import Spinneret.Lib.Numeral

/-!
# Observe: one processed report on the hot state

The observe script first advances the checkpoint of the shard, and does nothing
for a stream id that is not greater than it. In full mode it then counts the
report on its lease and quota windows, on the breaker window and the half-open
probe statistics, attributes the blame, and updates health, failure streaks and
outcome counters of the identity and its proxy.
-/

namespace Spinneret.Worker

open Spinneret.HotState Spinneret.Lib

set_option autoImplicit false

inductive Blame where
  | none | identity | proxy | both
  deriving DecidableEq, Repr

def Blame.hasIdentity : Blame → Bool
  | .identity | .both => true
  | _ => false

def Blame.hasProxy : Blame → Bool
  | .proxy | .both => true
  | _ => false

structure CrossAttribution where
  enabled : Bool
  window : Int
  proxyIdentities : Nat
  identityProxies : Nat

inductive SubjectKind where
  | identity | account | proxy
  deriving DecidableEq, Repr

/-- Arguments of a full call. `winBucket` is the breaker window bucket of the
report, absent when the policy keeps no window. -/
structure ObserveArgs where
  now : Int
  lid : LeaseId
  eg : Hkey
  ident : Option Hkey
  proxy : Option Hkey
  outcome : Outcome
  blame : Blame
  late : Bool
  obsIdentity : Option ℚ
  obsProxy : Option ℚ
  failure : Bool
  risk : Bool
  alpha : ℚ
  baseline : ℚ
  tau : Int
  resetAfter : Int
  winBucket : Option Int
  cross : CrossAttribution
  quotas : List Int
  counters : List (SubjectKind × Int)
  banWindows : List Int
  exp : ℚ → ℚ

def ObserveArgs.success (args : ObserveArgs) : Bool := decide (args.outcome = .success)

structure ObserveReply where
  blame : Blame
  suppressed : Bool
  probe : Bool
  idState : Option IdState
  account : Option Hkey
  idType : String
  endpointStreak : Int
  globalStreak : Int
  proxyStreak : Int
  endpointScore : ℚ
  endpointSamples : Int
  globalScore : ℚ
  globalSamples : Int
  endpointCd : Int
  brkState : BreakerState
  counts : List Int
  bans : List Nat

inductive Observed where
  | dup
  | checkpointed
  | applied (reply : ObserveReply)

/-- The duplicate test of the script on canonical ids: the milliseconds and the
sequence are compared as numerals, the longer one being the larger. -/
def duplicate (prev cur : StreamId) : Bool :=
  if numeral prev.ms = numeral cur.ms then
    numeralLt (numeral cur.seq) (numeral prev.seq) || decide (numeral cur.seq = numeral prev.seq)
  else numeralLt (numeral cur.ms) (numeral prev.ms)

/-- Count a report after the first on the quota windows of its lease. -/
def quotaReport (args : ObserveArgs) (site : Site) (i : Hkey) : Site :=
  let windows := args.quotas.filter fun w => decide (0 < w)
  if windows.isEmpty then site
  else
    let hash := site.q args.eg i
    let cells := windows.foldl
      (fun (cells : Int → Option QuotaCell) w =>
        Function.update cells w (some (quotaCounted args.now w (cells w))))
      hash.cells
    site.setQ args.eg i
      { cells := cells, expireAt := some (args.now + 2 * windows.foldl max 0) }

/-- The lease report count; the result says whether the lease is a probe. The
first request of a lease was counted at acquire. -/
def leaseReport (args : ObserveArgs) (site : Site) : Site × Bool :=
  match site.ls.lookup args.lid with
  | none => (site, false)
  | some lease =>
    let counted := { site with
      ls := site.ls.insert args.lid { lease with rc := lease.rc + 1 } }
    match args.ident with
    | some i => (if 1 < lease.rc + 1 then quotaReport args counted i else counted, lease.pr)
    | none => (counted, lease.pr)

def windowReport (args : ObserveArgs) (site : Site) : Site :=
  let bucketed := match args.winBucket with
    | none => site
    | some b =>
      let bucket := site.win args.eg b
      { site with
        win := Function.update site.win args.eg (Function.update (site.win args.eg) b
          { t := bucket.t + 1
            s := if args.success then bucket.s + 1 else bucket.s
            r := if args.risk then bucket.r + 1 else bucket.r }) }
  { bucketed with aeg := bucketed.aeg.add args.now args.eg }

/-- The gate rule of acquire: a manual open without end, or before its end. -/
def effectivelyOpen (now : Int) (breaker : Breaker) : Bool :=
  decide (breaker.st = .opened ∧ ((breaker.ou = 0 ∧ breaker.man = 1) ∨ now < breaker.ou))

/-- A report of a probe lease counts while the breaker is half-open. -/
def probeCounted (args : ObserveArgs) (probe : Bool) (breaker : Breaker) : Breaker :=
  if probe ∧ breaker.st = .halfOpen then
    { breaker with
      ps := breaker.ps + 1
      pk := if args.success then breaker.pk + 1 else breaker.pk }
  else breaker

def probeReport (args : ObserveArgs) (site : Site) (probe : Bool) : Site :=
  site.setBrk args.eg (probeCounted args probe (site.brk args.eg))

/-- Cross attribution of a risk outcome: many identities failing on one proxy
blame the proxy, one identity failing on many proxies blames the identity. -/
def crossAttribute (args : ObserveArgs) (site : Site) : Site × Blame :=
  match args.proxy, args.ident with
  | some p, some i =>
    if args.risk ∧ ¬ args.late ∧ args.cross.enabled ∧ 0 < args.cross.window then
      let cutoff := args.now - args.cross.window
      let onProxy := ZSet.trim ((site.xaProxy p).add args.now i) cutoff
      let ofIdentity := ZSet.trim ((site.xaIdentity i).add args.now p) cutoff
      let recorded := { site with
        xaProxy := Function.update site.xaProxy p onProxy
        xaIdentity := Function.update site.xaIdentity i ofIdentity }
      let identities := onProxy.entries.length
      let proxies := ofIdentity.entries.length
      let blame :=
        if args.cross.proxyIdentities ≤ identities ∧ proxies < args.cross.identityProxies then
          Blame.proxy
        else if args.cross.identityProxies ≤ proxies then
          match args.blame with
          | .proxy => .both
          | .both => .both
          | _ => .identity
        else args.blame
      (recorded, blame)
    else (site, args.blame)
  | _, _ => (site, args.blame)

/-- A failure streak: a failure extends it unless the last one is too long ago,
a success halves it. -/
def streakAfter (now last nf resetAfter : Int) (fails success : Bool) : Int :=
  if fails then (if resetAfter < now - last then 0 else nf) + 1
  else if success ∧ 0 < nf then nf / 2 else nf

structure HealthReport where
  site : Site
  score : ℚ
  samples : Int
  streak : Int
  cd : Int

/-- A report moves a score when it carries an observation and is a success or
blamed on the subject. -/
def affects (success blamed : Bool) (obs : Option ℚ) : Bool := obs.isSome && (success || blamed)

def failsIdentity (args : ObserveArgs) (blame : Blame) : Bool :=
  args.failure || (decide (args.outcome = .networkError) && blame.hasIdentity)

def failsProxy (args : ObserveArgs) (blame : Blame) : Bool :=
  blame.hasProxy && !args.success && (args.failure ||
    decide (args.outcome = .proxyError) || decide (args.outcome = .networkError))

def endpointReport (args : ObserveArgs) (site : Site) (i : Hkey) (blame : Blame) : HealthReport :=
  let health := (site.hs args.eg i).getD (hsPack (hsUnpack none args.baseline args.now))
  let decayed := decay args.exp health.score health.sts args.now args.baseline args.tau
  let scored := affects args.success blame.hasIdentity args.obsIdentity
  let fails := failsIdentity args blame
  let score := if scored then ewma decayed (args.obsIdentity.getD 0) args.alpha else decayed
  let samples := if scored then health.samples + 1 else health.samples
  let nfail := streakAfter args.now health.lastfail health.nfail args.resetAfter fails args.success
  let written : Health := { health with
    score := if scored then twoDecimals score else health.score
    sts := if scored then args.now else health.sts
    samples := samples
    nfail := nfail
    lastfail := if fails then args.now else health.lastfail }
  let changed := scored ∨ fails ∨ (args.success ∧ 0 < health.nfail)
  { site := if changed then
        (site.setHs args.eg i (some written)).markDirty (.endpoint args.eg i) else site
    score := score
    samples := samples
    streak := nfail
    cd := health.cd }

def globalReport (args : ObserveArgs) (site : Site) (i : Hkey) (id : Identity) (blame : Blame) :
    HealthReport :=
  let decayed := decay args.exp (id.gs.getD args.baseline) (id.gts.getD args.now) args.now
    args.baseline args.tau
  let scored := affects args.success blame.hasIdentity args.obsIdentity
  let fails := failsIdentity args blame
  let score := if scored then ewma decayed (args.obsIdentity.getD 0) args.alpha else decayed
  let gn := if scored then id.gn + 1 else id.gn
  let gnf := streakAfter args.now id.glf id.gnf args.resetAfter fails args.success
  let written : Identity := { id with
    gs := if scored then some (twoDecimals score) else id.gs
    gts := if scored then some args.now else id.gts
    gn := gn
    gnf := gnf
    glf := if fails then args.now else id.glf }
  let changed := scored ∨ fails ∨ (args.success ∧ 0 < id.gnf)
  { site := if changed then (site.setId i (some written)).markDirty (.global i) else site
    score := score
    samples := gn
    streak := gnf
    cd := 0 }

/-- The proxy hash after a report blamed on `blame`. -/
def proxyWritten (args : ObserveArgs) (proxy : Proxy) (blame : Blame) : Proxy :=
  let scored := affects args.success blame.hasProxy args.obsProxy
  let fails := failsProxy args blame
  let decayed := decay args.exp (proxy.sc.getD args.baseline) (proxy.sts.getD args.now) args.now
    args.baseline args.tau
  { proxy with
    sc := if scored then some (twoDecimals (ewma decayed (args.obsProxy.getD 0) args.alpha))
      else proxy.sc
    sts := if scored then some args.now else proxy.sts
    sn := if scored then proxy.sn + 1 else proxy.sn
    nf := streakAfter args.now proxy.lf proxy.nf args.resetAfter fails args.success
    lf := if fails then args.now else proxy.lf }

/-- The score and streak of the proxy; the result is the streak. -/
def proxyReport (args : ObserveArgs) (site : Site) (blame : Blame) : Site × Int :=
  match args.proxy.bind fun p => (site.px p).map fun proxy => (p, proxy) with
  | none => (site, 0)
  | some (p, proxy) =>
    let written := proxyWritten args proxy blame
    let scored := affects args.success blame.hasProxy args.obsProxy
    let fails := failsProxy args blame
    let changed := scored ∨ fails ∨ (args.success ∧ 0 < proxy.nf)
    (if changed then (site.setPx p (some written)).markDirty (.proxy p) else site, written.nf)

def counterSubject (args : ObserveArgs) (i : Hkey) (acc : Option Hkey) :
    SubjectKind → Option CounterSubject
  | .identity => some (.identity i)
  | .account => match acc with
      | some a => some (.account a)
      | none => some (.identity i)
  | .proxy => args.proxy.map .proxy

/-- One sliding counter: the current bucket goes up, buckets before the window
are dropped and the rest is summed. -/
def countOutcome (now w : Int) (buckets : Table Int Int) : Table Int Int × Int :=
  let bms := max (w / 60) 1000
  let idx := now / bms
  let lowest := idx - (-((-w) / bms)) + 1
  let raised := buckets.insert idx ((buckets.lookup idx).getD 0 + 1)
  let kept := Table.fromKey raised lowest
  (kept, (kept.entries.map fun entry => entry.2).sum)

/-- One requested counter; a key requested twice is counted once. -/
def countRequest (args : ObserveArgs) (i : Hkey) (acc : Option Hkey)
    (state : Site × List (CounterKey × Int) × List Int) (request : SubjectKind × Int) :
    Site × List (CounterKey × Int) × List Int :=
  match counterSubject args i acc request.1 with
  | none => (state.1, state.2.1, state.2.2 ++ [0])
  | some subject =>
    if 0 < request.2 then
      let key : CounterKey :=
        { subject := subject, outcome := args.outcome, window := request.2 }
      match state.2.1.lookup key with
      | some sum => (state.1, state.2.1, state.2.2 ++ [sum])
      | none =>
        let counted := countOutcome args.now request.2 (state.1.cnt key)
        ({ state.1 with cnt := Function.update state.1.cnt key counted.1 },
          (key, counted.2) :: state.2.1, state.2.2 ++ [counted.2])
    else (state.1, state.2.1, state.2.2 ++ [0])

def counterReport (args : ObserveArgs) (i : Hkey) (acc : Option Hkey) (site : Site) :
    Site × List Int :=
  let result := args.counters.foldl (countRequest args i acc) (site, [], [])
  (result.1, result.2.2)

def banCounts (args : ObserveArgs) (site : Site) (i : Hkey) : List Nat :=
  args.banWindows.map fun w =>
    Table.countWhere (fun _ score => decide (args.now - w ≤ score)) (site.bans i)

def replyBase (args : ObserveArgs) (blame : Blame) (suppressed probe : Bool)
    (id : Option Identity) (brkState : BreakerState) : ObserveReply where
  blame := blame
  suppressed := suppressed
  probe := probe
  idState := id.map Identity.st
  account := id.bind Identity.acc
  idType := (id.map Identity.ty).getD ""
  endpointStreak := 0
  globalStreak := 0
  proxyStreak := 0
  endpointScore := fourDecimals args.baseline
  endpointSamples := 0
  globalScore := fourDecimals args.baseline
  globalSamples := 0
  endpointCd := 0
  brkState := brkState
  counts := args.counters.map fun _ => 0
  bans := args.banWindows.map fun _ => 0

/-- The effects of full mode after the checkpoint. -/
def observeFull (args : ObserveArgs) (site : Site) : Site × ObserveReply :=
  let leased := leaseReport args site
  let windowed := windowReport args leased.1
  let breaker := windowed.brk args.eg
  let suppressed := effectivelyOpen args.now breaker && !leased.2
  let probed := probeReport args windowed leased.2
  let crossed := crossAttribute args probed
  let id := args.ident.bind crossed.1.id
  let base := replyBase args crossed.2 suppressed leased.2 id breaker.st
  match args.ident, id with
  | some i, some identity =>
    if suppressed ∨ args.late then (crossed.1, base)
    else
      let endpoint := endpointReport args crossed.1 i crossed.2
      let global := globalReport args endpoint.site i identity crossed.2
      let proxied := proxyReport args global.site crossed.2
      let counted := counterReport args i identity.acc proxied.1
      (counted.1, { base with
        endpointStreak := endpoint.streak
        globalStreak := global.streak
        proxyStreak := proxied.2
        endpointScore := fourDecimals endpoint.score
        endpointSamples := endpoint.samples
        globalScore := fourDecimals global.score
        globalSamples := global.samples
        endpointCd := endpoint.cd
        counts := counted.2
        bans := banCounts args counted.1 i })
  | _, _ => (crossed.1, base)

/-- observe.lua; without arguments the call only advances the checkpoint. -/
def observe (shard : Nat) (sid : StreamId) (full : Option ObserveArgs) (site : Site) :
    Site × Observed :=
  if (site.ckpt shard).any fun prev => duplicate prev sid then (site, .dup)
  else
    let advanced := { site with ckpt := Function.update site.ckpt shard (some sid) }
    match full with
    | none => (advanced, .checkpointed)
    | some args =>
      let result := observeFull args advanced
      (result.1, .applied result.2)

def successReport (now : Int) (lid : LeaseId) : ObserveArgs where
  now := now
  lid := lid
  eg := 1
  ident := none
  proxy := none
  outcome := .success
  blame := .none
  late := false
  obsIdentity := none
  obsProxy := none
  failure := false
  risk := false
  alpha := 0
  baseline := 70
  tau := 0
  resetAfter := 0
  winBucket := none
  cross := { enabled := false, window := 0, proxyIdentities := 0, identityProxies := 0 }
  quotas := []
  counters := []
  banWindows := []
  exp := id

end Spinneret.Worker
