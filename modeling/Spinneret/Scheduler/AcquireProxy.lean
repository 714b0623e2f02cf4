import Spinneret.Scheduler.AcquireFilters

/-!
# Acquire: random draws and proxy selection

A proxy is drawn among at most three windows of sixteen due proxies of the
site. Proxies that cannot serve a lease now leave the due range while they are
scanned: inactive ones are removed, cooling and full ones are pushed. Only the
proxy ready queue is written.
-/

namespace Spinneret.Scheduler

open Spinneret.HotState Spinneret.Lib

set_option autoImplicit false

def fractional (value : ℚ) : ℚ := value - (⌊value⌋ : ℚ)

def golden : ℚ := 6180339887498949 / 10000000000000000

/-- The `ridx`-th draw of the call, counted from 1. Draws beyond the supplied
values are derived from them. -/
def rnd (randoms : List ℚ) (ridx : Nat) : ℚ :=
  if randoms.length = 0 then fractional ((ridx : ℚ) * golden)
  else
    let value := randoms.getD ((ridx - 1) % randoms.length) (1 / 2)
    if randoms.length < ridx then fractional (value * 7919 + (ridx : ℚ) * golden) else value

structure WeightedProxy where
  pick : ProxyPick
  w : ℚ

/-- State of one proxy selection: the ready queue, the proxies looked at, how
many left the due range, the usable ones and the draws made. -/
structure ProxyScan where
  pxrdy : ZSet Hkey
  seen : List Hkey := []
  gone : Nat := 0
  cands : List WeightedProxy := []
  ridx : Nat

/-- The policy filters on a proxy that could serve a lease now; an empty list
of kinds, providers or regions does not filter. -/
def proxyMatches (args : AcquireArgs) (region : Option String) (proxy : Proxy) : Bool :=
  (args.kinds.isEmpty || args.kinds.contains proxy.kd) &&
    (args.providers.isEmpty || args.providers.contains proxy.pv) &&
    (args.regions.isEmpty || args.regions.contains proxy.rg) &&
    (match region with
      | none => true
      | some name => proxy.rg == name) &&
    args.tags.all proxy.tg.contains

def proxyWeight (args : AcquireArgs) (proxy : Proxy) : ℚ :=
  let score := max 5 (decay args.exp (proxy.sc.getD args.baseline) (proxy.sts.getD args.now)
    args.now args.baseline args.tau)
  score * score

def scanProxy (args : AcquireArgs) (site : Site) (region : Option String)
    (exclude : Option Hkey) (scan : ProxyScan) (p : Hkey) : ProxyScan :=
  if some p = exclude ∨ p ∈ scan.seen then scan
  else
    let scan := { scan with seen := p :: scan.seen }
    let dropped := { scan with pxrdy := scan.pxrdy.erase p, gone := scan.gone + 1 }
    match site.px p with
    | none => dropped
    | some proxy =>
      if proxy.st ≠ .active then dropped
      else
        let pav := max proxy.cd proxy.gcd
        if args.now < pav then
          { scan with pxrdy := ZSet.raise scan.pxrdy pav p, gone := scan.gone + 1 }
        else if proxy.mc ≤ proxy.al then
          { scan with pxrdy := ZSet.raise scan.pxrdy args.shortPush p, gone := scan.gone + 1 }
        else if proxyMatches args region proxy then
          { scan with cands := scan.cands ++
              [{ pick := { p := p, pid := proxy.pid, mc := proxy.mc },
                 w := proxyWeight args proxy }] }
        else scan

/-- One sampling window; a site with more than 48 due proxies is sampled at a
random offset. The scan stops once a window yielded a usable proxy. -/
def scanRounds (args : AcquireArgs) (site : Site) (region : Option String)
    (exclude : Option Hkey) (total : Nat) : List Nat → ProxyScan → ProxyScan
  | [], scan => scan
  | round :: rest, scan =>
    let due := total - scan.gone
    if due = 0 then scan
    else
      let drawn := 48 < total
      let ridx := if drawn then scan.ridx + 1 else scan.ridx
      let offset := if drawn then ⌊rnd args.randoms ridx * (max (due - 15) 1 : Nat)⌋.toNat
        else round * 16 - scan.gone
      let ids := ZSet.rangeUpTo hkeyLe scan.pxrdy args.now offset 16
      let scanned := ids.foldl (scanProxy args site region exclude) { scan with ridx := ridx }
      if scanned.cands.isEmpty then scanRounds args site region exclude total rest scanned
      else scanned

/-- The first candidate whose cumulative weight exceeds the target, else the last. -/
def drawProxy (target : ℚ) : ℚ → List WeightedProxy → Option ProxyPick
  | _, [] => none
  | _, [only] => some only.pick
  | acc, first :: rest =>
    if target < acc + first.w then some first.pick else drawProxy target (acc + first.w) rest

/-- `select_proxy`: the chosen proxy, the ready queue it leaves behind and the
number of draws made. -/
def selectProxy (args : AcquireArgs) (site : Site) (ridx : Nat) (region : Option String)
    (exclude : Option Hkey) : Option ProxyPick × ZSet Hkey × Nat :=
  let total := ZSet.countUpTo site.pxrdy args.now
  if total = 0 then (none, site.pxrdy, ridx)
  else
    let rounds := min ((total + 15) / 16) 3
    let scan := scanRounds args site region exclude total (List.range rounds)
      { pxrdy := site.pxrdy, ridx := ridx }
    if scan.cands.isEmpty then (none, scan.pxrdy, scan.ridx)
    else
      let weight := (scan.cands.map WeightedProxy.w).sum
      (drawProxy (rnd args.randoms (scan.ridx + 1) * weight) 0 scan.cands, scan.pxrdy,
        scan.ridx + 1)

/-- Result of `assign_proxy`: no proxy is available, or the proxy of the lease
(`none` in mode none), with the ready queue and draws of the selection. -/
structure Assignment where
  proxy : Option (Option ProxyPick)
  pxrdy : ZSet Hkey
  ridx : Nat

/-- `assign_proxy`. A bound proxy read earlier in a batch is checked again,
since leases written since then may have filled it. -/
def assignProxy (args : AcquireArgs) (site : Site) (ridx picked : Nat) (c : Candidate) :
    Assignment :=
  let region := if args.pregion ∨ args.pmode = .regionMatch then some c.rg else none
  match args.pmode with
  | .none => { proxy := some none, pxrdy := site.pxrdy, ridx := ridx }
  | .bindIdentity =>
    match c.bound with
    | some bound =>
      if 0 < picked ∧ bound.mc ≤ proxyAl site bound.p then
        { proxy := none, pxrdy := site.pxrdy, ridx := ridx }
      else { proxy := some (some bound), pxrdy := site.pxrdy, ridx := ridx }
    | none =>
      let selection := selectProxy args site ridx region c.oldPx
      { proxy := selection.1.map fun pick =>
          some { pick with bind := true, rebound := c.oldPx.isSome }
        pxrdy := selection.2.1
        ridx := selection.2.2 }
  | _ =>
    let selection := selectProxy args site ridx region none
    { proxy := selection.1.map some, pxrdy := selection.2.1, ridx := selection.2.2 }

end Spinneret.Scheduler
