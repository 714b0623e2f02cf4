import Spinneret.Scheduler.Ledger

/-!
# Acquire: arguments and candidate filters

The decoded arguments of one acquire call and the filters a sampled identity
passes before it is leased: cooldowns and reuse, the exclusive lease of another
group, the account, the concurrency limit, the quota windows and the bound
proxy. Filters only read the hot state.
-/

namespace Spinneret.Scheduler

open Spinneret.HotState

set_option autoImplicit false

inductive Strategy where
  | weightedRandom | leastRecentlyUsed | roundRobin | bestHealth
  deriving DecidableEq, Repr

inductive ProxyMode where
  | none | pool | bindIdentity | regionMatch
  deriving DecidableEq, Repr

structure QuotaWindow where
  limit : Int
  window : Int
  deriving DecidableEq, Repr

/-- One acquire call. The requested lease count is the number of lease id
leads, which Go draws one per requested lease. `exp` is the `math.exp` of the
Lua host and `randoms` are the supplied values in the unit interval. -/
structure AcquireArgs where
  now : Int
  eg : Hkey
  strategy : Strategy
  ksample : Nat
  ttl : Int
  lifetime : Int
  mc : Int
  ri : Int
  ra : ReuseAnchor
  rs : ReuseScope
  probeWf : ℚ
  probeMax : Int
  warmup : Int
  warmupFactor : ℚ
  baseline : ℚ
  tau : Int
  probeLimit : Int
  session : String
  stickyTtl : Int
  shards : Nat
  node : String
  token : String
  ns : String
  pmode : ProxyMode
  pregion : Bool
  tolerance : Int
  maxRebinds : Int
  today : String
  kinds : List String
  providers : List String
  regions : List String
  tags : List String
  quotas : List QuotaWindow
  prefixes : List String
  randoms : List ℚ
  exp : ℚ → ℚ
  requested : prefixes ≠ []

/-- A call for one exclusive lease on `eg`, with no optional feature in use. -/
def plainAcquire (eg : Hkey) (now : Int) (lead : String) : AcquireArgs where
  now := now
  eg := eg
  strategy := .leastRecentlyUsed
  ksample := 1
  ttl := 60000
  lifetime := 3600000
  mc := 1
  ri := 0
  ra := .acquired
  rs := .endpoint
  probeWf := 1
  probeMax := 1
  warmup := 0
  warmupFactor := 1
  baseline := 70
  tau := 0
  probeLimit := 1
  session := ""
  stickyTtl := 0
  shards := 1
  node := ""
  token := ""
  ns := ""
  pmode := .none
  pregion := false
  tolerance := 0
  maxRebinds := 0
  today := ""
  kinds := []
  providers := []
  regions := []
  tags := []
  quotas := []
  prefixes := [lead]
  randoms := []
  exp := id
  requested := List.cons_ne_nil _ _

def longPush : Int := 600000

def probeWindow : Int := 10000

def AcquireArgs.shortPush (args : AcquireArgs) : Int := args.now + min args.ttl 5000

/-- The proxy a lease is going to hold. `bind` asks for the identity binding to
be written, `rebound` marks that it replaces an earlier binding. -/
structure ProxyPick where
  p : Hkey
  pid : String
  mc : Int
  bind : Bool := false
  rebound : Bool := false
  deriving DecidableEq

/-- An identity as `evaluate` read it; `write_lease` writes from these values. -/
structure Candidate where
  i : Hkey
  st : IdState
  hs : Health
  al : Int
  xl : Int
  scd : Int
  sru : Int
  acc : Option Hkey
  acd : Int
  iid : String
  ty : String
  pv : String
  tv : String
  act : Int
  px : Option Hkey
  rbd : String
  rbn : Int
  rg : String
  lim : Int
  q : Int → Option QuotaCell
  bound : Option ProxyPick
  oldPx : Option Hkey

/-- `pushXl` records that another group's exclusive lease caused the push, so
the caller marks the identity. -/
inductive Verdict where
  | ok (candidate : Candidate)
  | rem
  | push (score : Int) (pushXl : Bool)

/-- `account_avail`: the account cooldown and the resulting availability. -/
def accountAvail (site : Site) (now : Int) (acc : Hkey) (av : Int) : Int × Int :=
  match site.acc acc with
  | none => (0, max av 0)
  | some account =>
    let cooled := max av account.cd
    let horizon := match account.st with
      | .banned =>
        if account.bu ≤ 0 then max cooled (now + longPush)
        else if account.bu ≤ now then max cooled (now + 10000)
        else max cooled account.bu
      | .disabled => max cooled (now + longPush)
      | .active => cooled
    (account.cd, horizon)

/-- The stored counts of one window rolled forward to the window of `now`. -/
def quotaRolled (cell : Option QuotaCell) (idx : Int) : Int × Int :=
  match cell with
  | none => (0, 0)
  | some cell =>
    if cell.c = idx then (cell.n, cell.p)
    else if cell.c = idx - 1 then (0, cell.n)
    else (0, 0)

/-- When one quota window admits one more request, `none` when it does now. -/
def quotaWindowPush (now : Int) (factor : ℚ) (cell : Option QuotaCell) (quota : QuotaWindow) :
    Option Int :=
  let w := quota.window
  let idx := now / w
  let counts := quotaRolled cell idx
  let start := idx * w
  let limit : ℚ := max 1 ((quota.limit : ℚ) * factor)
  if quotaEst counts.2 counts.1 start w now + 1 ≤ limit then none
  else
    let early := if (counts.1 : ℚ) + 1 ≤ limit ∧ 0 < counts.2 then
        min (start + w)
          (start + ⌈(w : ℚ) * (1 - (limit - (counts.1 : ℚ) - 1) / (counts.2 : ℚ))⌉ + 1)
      else start + w
    some (if early ≤ now then now + 1 else early)

/-- `quota_push`: the latest time any quota window asks for. -/
def quotaPush (args : AcquireArgs) (cells : Int → Option QuotaCell) (act : Int) : Option Int :=
  let factor : ℚ :=
    if 0 < args.warmup ∧ 0 < act ∧ args.now - act < args.warmup then args.warmupFactor else 1
  args.quotas.foldl
    (fun push quota =>
      match quotaWindowPush args.now factor (cells quota.window) quota, push with
      | none, _ => push
      | some time, none => some time
      | some time, some latest => some (max time latest))
    none

/-- `bind_check`: a push time, or the candidate with its usable bound proxy or
the binding that has to be replaced. -/
def bindCheck (args : AcquireArgs) (site : Site) (c : Candidate) : Int ⊕ Candidate :=
  match c.px with
  | none => .inr c
  | some p =>
    let rebind : Int ⊕ Candidate :=
      let used := if c.rbd = args.today then c.rbn else 0
      if args.maxRebinds ≤ used then .inl (args.now + longPush)
      else .inr { c with oldPx := some p }
    match site.px p with
    | none => rebind
    | some proxy =>
      if proxy.st = .active then
        let pav := max proxy.cd proxy.gcd
        if pav ≤ args.now then
          if proxy.mc ≤ proxy.al then .inl args.shortPush
          else .inr { c with bound := some { p := p, pid := proxy.pid, mc := proxy.mc } }
        else if pav - args.now ≤ args.tolerance then .inl pav
        else rebind
      else rebind

/-- The fields `evaluate` reads only for quota windows or a proxy mode. -/
def AcquireArgs.readsAll (args : AcquireArgs) : Bool :=
  !args.quotas.isEmpty || decide (args.pmode ≠ .none)

def candidateOf (args : AcquireArgs) (site : Site) (i : Hkey) (id : Identity)
    (hs : Health) : Candidate where
  i := i
  st := id.st
  hs := hs
  al := id.al
  xl := id.xl
  scd := id.scd
  sru := id.sru
  acc := id.acc
  acd := 0
  iid := id.iid
  ty := id.ty
  pv := id.pv
  tv := id.tv
  act := if args.readsAll then id.act else 0
  px := if args.readsAll then id.px else none
  rbd := if args.readsAll then id.rbd else ""
  rbn := if args.readsAll then id.rbn else 0
  rg := if args.readsAll then id.rg else ""
  lim := if id.st = .pending then min args.mc args.probeMax else args.mc
  q := (site.q args.eg i).cells
  bound := none
  oldPx := none

/-- The account cooldown and the time from which the identity is available.
Sticky evaluation bypasses the reuse values. -/
def availability (args : AcquireArgs) (site : Site) (id : Identity) (hs : Health)
    (sticky : Bool) : Int × Int :=
  let cooled := max hs.cd id.scd
  let reused := if sticky then cooled else max cooled (max hs.ru id.sru)
  let leased := if 0 < id.al then max reused id.xl else reused
  match id.acc with
  | none => (0, leased)
  | some a => accountAvail site args.now a leased

/-- The filters on an available candidate: the concurrency limit, the quota
windows and the bound proxy. -/
def admitCandidate (args : AcquireArgs) (site : Site) (c : Candidate) : Verdict :=
  if c.lim ≤ c.al then .push args.shortPush false
  else
    match quotaPush args c.q c.act with
    | some time => .push time false
    | none =>
      if args.pmode = .bindIdentity then
        match bindCheck args site c with
        | .inl time => .push time false
        | .inr c => .ok c
      else .ok c

def evaluate (args : AcquireArgs) (site : Site) (i : Hkey) (sticky : Bool) : Verdict :=
  match site.id i with
  | none => .rem
  | some id =>
    if id.st = .active ∨ id.st = .pending then
      let hs := hsUnpack (site.hs args.eg i) args.baseline args.now
      let available := availability args site id hs sticky
      if args.now < available.2 then
        .push available.2 (decide (0 < id.al ∧ args.now < id.xl))
      else admitCandidate args site
        { candidateOf args site i id hs with acd := available.1 }
    else .rem

end Spinneret.Scheduler
