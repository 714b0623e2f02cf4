import Spinneret.HotState.Prelude

/-!
# Lease ends: release, abort and reaping

`ls_end` is shared by the release and reap scripts. It ends the lease hash,
drops the lease from the expiry set, gives the identity and proxy counters
back, applies or restores the reuse anchor and rescores the identity. The
decrements clamp at zero; a result records whether a clamp was taken.
-/

namespace Spinneret.Scheduler

open Spinneret.HotState Spinneret.Lib

set_option autoImplicit false

/-- Endpoint group layout of the site: per client its groups with their health
baselines. -/
abbrev Layout := List (List (Hkey × ℚ))

/-- The groups of the client `eg` belongs to. -/
def clientGroups (layout : Layout) (eg : Hkey) : Option (List Hkey) :=
  (layout.find? fun client => client.any fun group => group.1 == eg).map fun client =>
    client.map Prod.fst

def lsBaseline (layout : Layout) (eg : Hkey) : ℚ :=
  ((layout.flatten.find? fun group => group.1 == eg).map Prod.snd).getD 0

structure Ended where
  site : Site
  clamped : Bool

/-- The decremented counter and whether the clamp at zero was needed. -/
def decrement (counter : Int) : Int × Bool :=
  if counter - 1 < 0 then (0, true) else (counter - 1, false)

/-- Take one request of an aborted lease out of a quota window, if the window
it was counted in is still the current one. -/
def quotaRefund (a w : Int) (cell : QuotaCell) : QuotaCell :=
  if cell.c = a / w ∧ 0 < cell.n then { cell with n := cell.n - 1 } else cell

/-- The probe slot of an aborted probe lease goes back to the running window. -/
def probeRefund (a : Int) (breaker : Breaker) : Breaker :=
  if breaker.st = .halfOpen ∧ breaker.hw ≤ a then
    { breaker with hc := if breaker.hc - 1 < 0 then 0 else breaker.hc - 1 }
  else breaker

def refundWindow (lease : Lease) (site : Site) (w : Int) : Site :=
  let hash := site.q lease.e lease.i
  site.setQ lease.e lease.i { hash with
    cells := Function.update hash.cells w ((hash.cells w).map (quotaRefund lease.a w)) }

def abortAccounting (site : Site) (lease : Lease) (windows : List Int) : Site :=
  let metered := if 0 < lease.a then windows.foldl (refundWindow lease) site else site
  if lease.pr then metered.setBrk lease.e (probeRefund lease.a (metered.brk lease.e)) else metered

/-- The lease hash after its end. It is kept for the late report window, or for
as long as ingested reports may still be queued. -/
def endLeaseHash (site : Site) (lid : LeaseId) (lease : Lease) (state : LeaseState)
    (endMs now late : Int) : Site :=
  let keep := max late (lease.kx - now)
  let ended := { lease with st := state, ended := endMs, expireAt := some (now + keep) }
  { site with
    ls := if keep ≤ 0 then site.ls.erase lid else site.ls.insert lid ended
    lsexp := site.lsexp.erase lid }

/-- How the reuse value of a scope changes at the end of a lease: a `released`
anchor raises it, an aborted `acquired` anchor is restored unless a later lease
raised it again. -/
structure ReuseEnd where
  anchor : Bool
  restore : Option Int
  raised : Int

def reuseEnd (lease : Lease) (abort : Bool) : ReuseEnd where
  anchor := !abort && decide (lease.ra = .released ∧ 0 < lease.ri)
  restore := if abort ∧ lease.ra = .acquired ∧ 0 < lease.ri then lease.pru else none
  raised := lease.a + lease.ri

def reuseAfter (reuse : ReuseEnd) (ri endMs current : Int) : Int :=
  if reuse.anchor ∧ current < endMs + ri then endMs + ri
  else match reuse.restore with
    | some prev => if current = reuse.raised then prev else current
    | none => current

/-- The health entry rewritten by an endpoint-scope anchor or restore. -/
def endHealth (site : Site) (layout : Layout) (lease : Lease) (reuse : ReuseEnd)
    (endMs now : Int) : Site :=
  if lease.rs = .endpoint ∧ (reuse.anchor ∨ reuse.restore.isSome) then
    let entry := site.hs lease.e lease.i
    let health := hsUnpack entry (lsBaseline layout lease.e) now
    let raises := reuse.anchor ∧ health.ru < endMs + lease.ri
    let restores := reuse.restore.isSome ∧ entry.isSome ∧ health.ru = reuse.raised
    if raises ∨ restores then
      (hsSet site lease.e lease.i
        { health with ru := reuseAfter reuse lease.ri endMs health.ru }).markDirty
          (.endpoint lease.e lease.i)
    else site
  else site

/-- Lower the ready score of `i` on other groups that were pushed past the end
of the lease, down to what still holds the identity back there. -/
def pullBack (site : Site) (groups : List Hkey) (eg i : Hkey) (endMs bound idlevel : Int) :
    Site :=
  groups.foldl
    (fun site g =>
      if g = eg then site
      else match (site.rdy g).lookup i with
        | none => site
        | some score =>
          if endMs < score ∧ score ≤ bound then
            let cdRu := hsCdRu (site.hs g i)
            let time := max (max cdRu.1 cdRu.2) (max idlevel endMs)
            if time < score then site.setRdy g ((site.rdy g).move time i) else site
          else site)
    site

/-- The groups of the lease's client that pushed the identity. -/
def markedGroups (layout : Layout) (eg : Hkey) : PushMark → List Hkey
  | .every => (clientGroups layout eg).getD []
  | .groups marked =>
    match clientGroups layout eg with
    | none => []
    | some own => marked.filter own.contains

def identityEnded (id : Identity) (lease : Lease) (reuse : ReuseEnd) (endMs : Int) : Identity :=
  let al := (decrement id.al).1
  { id with
    al := al
    xl := if al = 0 then 0 else id.xl
    sru := if lease.rs = .site then reuseAfter reuse lease.ri endMs id.sru else id.sru
    xg := if al = 0 then none else id.xg }

/-- A `released` anchor of site scope raises the reuse value of the identity. -/
def raisesSiteReuse (lease : Lease) (reuse : ReuseEnd) (endMs sru : Int) : Bool :=
  decide (lease.rs = .site) && reuse.anchor && decide (sru < endMs + lease.ri)

/-- An aborted lease gives the reuse value of the identity back. -/
def restoresSiteReuse (lease : Lease) (reuse : ReuseEnd) (sru : Int) : Bool :=
  decide (lease.rs = .site) && !reuse.anchor && reuse.restore.isSome && decide (sru = reuse.raised)

def countEnd (site : Site) (lease : Lease) (reuse : ReuseEnd) (endMs : Int) (id : Identity) :
    Site :=
  let counted := site.setId lease.i (some (identityEnded id lease reuse endMs))
  if raisesSiteReuse lease reuse endMs id.sru || restoresSiteReuse lease reuse id.sru then
    counted.markDirty (.global lease.i)
  else counted

/-- The ready scores after a lease end: the lease's own group, then the groups
that pushed the identity to its exclusive lease, then every group when a site
reuse value was restored. -/
def readyAfterEnd (site : Site) (layout : Layout) (lease : Lease) (reuse : ReuseEnd)
    (endMs : Int) (id next : Identity) : Site :=
  let i := lease.i
  let eg := lease.e
  let idlevel := identityAvail site id.scd next.sru next.al next.xl id.acc
  let cdRu := hsCdRu (site.hs eg i)
  let scored := site.setRdy eg ((site.rdy eg).move
    (max (max cdRu.1 cdRu.2) (max idlevel endMs)) i)
  let returned := match id.xg with
    | some mark =>
      if lease.mc = 1 ∧ 0 < id.xl ∧ next.al = 0 then
        pullBack scored (markedGroups layout eg mark) eg i endMs id.xl idlevel
      else scored
    | none => scored
  if restoresSiteReuse lease reuse id.sru then
    pullBack returned (layout.flatten.map Prod.fst) eg i endMs reuse.raised idlevel
  else returned

def endIdentity (site : Site) (layout : Layout) (lease : Lease) (abort : Bool)
    (endMs now : Int) : Ended :=
  match site.id lease.i with
  | none => { site := site, clamped := false }
  | some id =>
    let reuse := reuseEnd lease abort
    let counted := countEnd site lease reuse endMs id
    let healthy := endHealth counted layout lease reuse endMs now
    { site := readyAfterEnd healthy layout lease reuse endMs id
        (identityEnded id lease reuse endMs)
      clamped := (decrement id.al).2 }

def endProxy (site : Site) (lease : Lease) (now : Int) : Ended :=
  match lease.p with
  | none => { site := site, clamped := false }
  | some p =>
    match site.px p with
    | none => { site := site, clamped := false }
    | some proxy =>
      let al := (decrement proxy.al).1
      let counted := site.setPx p (some { proxy with al := al })
      let time := max (max proxy.cd proxy.gcd) now
      let scored := match counted.pxrdy.lookup p with
        | some score =>
          if al < proxy.mc ∧ time < score then
            { counted with pxrdy := ZSet.move counted.pxrdy time p }
          else counted
        | none => counted
      { site := scored, clamped := (decrement proxy.al).2 }

/-- Only a lease that was never delivered is refunded. -/
def refundAborted (site : Site) (lease : Lease) : Option (List Int) → Site
  | some windows => abortAccounting site lease windows
  | none => site

/-- `ls_end` on the lease values read before. `windows` is present for a lease
that was never delivered. -/
def lsEnd (site : Site) (layout : Layout) (lid : LeaseId) (lease : Lease) (state : LeaseState)
    (endMs now late : Int) (windows : Option (List Int)) : Ended :=
  let ended := endLeaseHash site lid lease state endMs now late
  let refunded := refundAborted ended lease windows
  let identity := endIdentity refunded layout lease windows.isSome endMs now
  let proxy := endProxy identity.site lease now
  { site := proxy.site, clamped := identity.clamped || proxy.clamped }

structure ReleaseArgs where
  now : Int
  lid : LeaseId
  late : Int
  /-- The expected namespace; `none` skips the check. -/
  ns : Option String
  abort : Bool
  windows : List Int
  layout : Layout

inductive ReleaseReply where
  | released (lease : Lease)
  | ended (state : LeaseState)
  | unknown

def release (args : ReleaseArgs) (site : Site) : Ended × ReleaseReply :=
  match site.ls.lookup args.lid with
  | none => ({ site := site, clamped := false }, .unknown)
  | some lease =>
    if args.ns.isSome ∧ args.ns ≠ some lease.ns then
      ({ site := site, clamped := false }, .unknown)
    else if lease.st = .active then
      (lsEnd site args.layout args.lid lease .released args.now args.now args.late
        (if args.abort then some args.windows else none), .released lease)
    else ({ site := site, clamped := false }, .ended lease.st)

structure ReapArgs where
  now : Int
  limit : Nat
  late : Int
  layout : Layout

/-- One expired lease of a reap reply; `abandoned` when no report was ingested
or processed for it. -/
structure ReapedLease where
  lid : LeaseId
  lease : Lease
  abandoned : Bool

/-- One overdue id: a lease that is not active only leaves the expiry set. -/
def reapOne (args : ReapArgs) (state : Ended × List ReapedLease) (lid : LeaseId) :
    Ended × List ReapedLease :=
  let site := state.1.site
  let stale : Ended × List ReapedLease :=
    ({ state.1 with site := { site with lsexp := site.lsexp.erase lid } }, state.2)
  match site.ls.lookup lid with
  | none => stale
  | some lease =>
    if lease.st = .active then
      let ended := lsEnd site args.layout lid lease .expired lease.x args.now args.late none
      ({ site := ended.site, clamped := state.1.clamped || ended.clamped },
        state.2 ++ [{ lid := lid, lease := lease,
                      abandoned := decide (lease.rv = 0 ∧ lease.rc = 0) }])
    else stale

/-- reap.lua: the number of ids scanned and the leases it expired. -/
def reap (args : ReapArgs) (site : Site) : Ended × Nat × List ReapedLease :=
  let ids := ZSet.rangeUpTo leaseIdLe site.lsexp args.now 0 args.limit
  let result := ids.foldl (reapOne args) ({ site := site, clamped := false }, [])
  (result.1, ids.length, result.2)

structure RenewArgs where
  now : Int
  lid : LeaseId
  extend : Int
  ns : Option String

inductive RenewReply where
  | ok (expires : Int) (lease : Lease)
  | unknown | released | expired | lifetimeExceeded

def renewedExpiry (args : RenewArgs) (lease : Lease) : Int :=
  let extend := if args.extend ≤ 0 then lease.ttl else args.extend
  max (min (args.now + extend) lease.cap) lease.x

/-- A renewed exclusive lease extends its hold on the identity. -/
def holdRenewed (site : Site) (lease : Lease) (nx : Int) : Site :=
  match site.id lease.i with
  | some id =>
    if lease.mc = 1 then
      let raised := if id.xl < nx then site.setId lease.i (some { id with xl := nx }) else site
      raised.setRdy lease.e ((raised.rdy lease.e).raise nx lease.i)
    else site
  | none => site

def renew (args : RenewArgs) (site : Site) : Site × RenewReply :=
  match site.ls.lookup args.lid with
  | none => (site, .unknown)
  | some lease =>
    if args.ns.isSome ∧ args.ns ≠ some lease.ns then (site, .unknown)
    else match lease.st with
      | .released => (site, .released)
      | .expired => (site, .expired)
      | .active =>
        if lease.x ≤ args.now then (site, .expired)
        else if lease.cap ≤ lease.x then (site, .lifetimeExceeded)
        else
          let nx := renewedExpiry args lease
          let extended := { site with
            ls := site.ls.insert args.lid { lease with x := nx }
            lsexp := site.lsexp.add nx args.lid }
          (holdRenewed extended lease nx, .ok nx lease)

end Spinneret.Scheduler
