import Spinneret.Scheduler.AcquireSelect

/-!
# Acquire: lease writes

`write_lease` writes the lease hash, its expiry entry, the identity and proxy
counters, the health and quota entries and the ready scores of one lease. The
identity counter is written from the value `evaluate` read in the same call.
-/

namespace Spinneret.Scheduler

open Spinneret.HotState Spinneret.Lib

set_option autoImplicit false

inductive Binding where
  | kept | first | rebind
  deriving DecidableEq, Repr

/-- The fourteen reply fields of one lease. -/
structure LeaseReply where
  lid : LeaseId
  iid : String
  ty : String
  pv : String
  tv : String
  expires : Int
  probe : Bool
  sticky : Bool
  binding : Binding
  p : Option Hkey
  pid : String
  st : IdState
  i : Hkey
  rebinds : Int
  deriving DecidableEq

/-- What is fixed after the breaker gate: whether the leases of the call are
probes, how many it may issue, the strategy and the sticky session key. -/
structure Mode where
  probe : Bool
  count : Nat
  strategy : Strategy
  sticky : Bool

/-- Mutable state of one call. The identities taken by the call double as the
count the sampling limit is raised by. -/
structure Call where
  site : Site
  ridx : Nat := 0
  picked : Nat := 0
  skip : List Hkey := []
  cursor : Option Int := none
  proxyFail : Nat := 0
  out : List LeaseReply := []

def quotaWrite (args : AcquireArgs) (site : Site) (c : Candidate) : Site :=
  if args.quotas.isEmpty then site
  else
    let cells := args.quotas.foldl
      (fun (cells : Int → Option QuotaCell) quota =>
        Function.update cells quota.window
          (some (quotaCounted args.now quota.window (c.q quota.window))))
      (site.q args.eg c.i).cells
    let longest := args.quotas.foldl (fun longest quota => max longest quota.window) 0
    site.setQ args.eg c.i { cells := cells, expireAt := some (args.now + 2 * longest) }

def leaseExpiry (args : AcquireArgs) : Int := min (args.now + args.ttl) (args.now + args.lifetime)

/-- The reuse value an `acquired` anchor raises, kept for an abort. -/
def reuseBefore (args : AcquireArgs) (c : Candidate) : Option Int :=
  if args.ra = .acquired ∧ 0 < args.ri then
    let prev := if args.rs = .site then c.sru else c.hs.ru
    if prev < args.now + args.ri then some prev else none
  else none

def leaseOf (args : AcquireArgs) (mode : Mode) (c : Candidate) (proxy : Option ProxyPick) :
    Lease where
  i := c.i
  iid := c.iid
  e := args.eg
  p := proxy.map ProxyPick.p
  pid := (proxy.map ProxyPick.pid).getD ""
  n := args.node
  tk := args.token
  ns := args.ns
  sk := args.session
  a := args.now
  x := leaseExpiry args
  cap := args.now + args.lifetime
  ttl := args.ttl
  st := .active
  pr := mode.probe
  mc := args.mc
  ri := args.ri
  ra := args.ra
  rs := args.rs
  pru := reuseBefore args c

/-- The exclusive-until value after the write; it is stored only for an
exclusive policy. -/
def exclusiveUntil (args : AcquireArgs) (c : Candidate) : Int :=
  let before := if 1 < c.al + 1 then c.xl else 0
  if args.mc = 1 then max before (leaseExpiry args) else before

/-- An `acquired` anchor of site scope raises the reuse value of the identity. -/
def raisesSite (args : AcquireArgs) (c : Candidate) : Bool :=
  decide (args.ra = .acquired ∧ 0 < args.ri ∧ args.rs = .site ∧ c.sru < args.now + args.ri)

def siteReuse (args : AcquireArgs) (c : Candidate) : Int :=
  if raisesSite args c then args.now + args.ri else c.sru

def rebindsToday (args : AcquireArgs) (c : Candidate) (proxy : Option ProxyPick) : Int :=
  let before := if c.rbd = args.today then c.rbn else 0
  match proxy with
  | some pick => if pick.bind ∧ pick.rebound then before + 1 else before
  | none => before

def identityLeased (args : AcquireArgs) (c : Candidate) (proxy : Option ProxyPick)
    (id : Identity) : Identity :=
  let counted := { id with
    al := c.al + 1
    lu := args.now
    sru := if raisesSite args c then args.now + args.ri else id.sru }
  let exclusive := if args.mc = 1 then { counted with xl := exclusiveUntil args c } else counted
  match proxy with
  | some pick =>
    if pick.bind then
      if pick.rebound then
        { exclusive with px := some pick.p, rbd := args.today, rbn := rebindsToday args c proxy }
      else { exclusive with px := some pick.p }
    else exclusive
  | none => exclusive

def healthLeased (args : AcquireArgs) (c : Candidate) : Health :=
  { c.hs with
    lu := args.now
    ru := if args.ra = .acquired ∧ 0 < args.ri ∧ args.rs = .endpoint then
        max c.hs.ru (args.now + args.ri) else c.hs.ru }

/-- The proxy side: the counter goes up by one and a full proxy leaves the due
range, until the lease expiry when it holds a single lease. -/
def proxyLeased (args : AcquireArgs) (site : Site) (proxy : Option ProxyPick) : Site :=
  match proxy with
  | none => site
  | some pick =>
    match site.px pick.p with
    | none => site
    | some hash =>
      let al := hash.al + 1
      let counted := site.setPx pick.p (some { hash with al := al })
      if pick.mc ≤ al then
        let score := if pick.mc = 1 then leaseExpiry args else args.shortPush
        { counted with pxrdy := ZSet.raise counted.pxrdy score pick.p }
      else counted

/-- The ready score of the leased identity on the call's group. -/
def readyAfterLease (args : AcquireArgs) (c : Candidate) : Int :=
  let hs := healthLeased args c
  let ready := max args.now (max (max hs.cd hs.ru) (max c.scd (max (siteReuse args c)
    (max (exclusiveUntil args c) c.acd))))
  if c.lim ≤ c.al + 1 then max ready args.shortPush else ready

def replyOf (args : AcquireArgs) (mode : Mode) (c : Candidate) (lid : LeaseId)
    (proxy : Option ProxyPick) (sticky : Bool) : LeaseReply where
  lid := lid
  iid := c.iid
  ty := c.ty
  pv := c.pv
  tv := c.tv
  expires := leaseExpiry args
  probe := mode.probe
  sticky := sticky
  binding := match proxy with
    | some pick => if pick.bind then (if pick.rebound then .rebind else .first) else .kept
    | none => .kept
  p := proxy.map ProxyPick.p
  pid := (proxy.map ProxyPick.pid).getD ""
  st := c.st
  i := c.i
  rebinds := rebindsToday args c proxy

def leaseIdOf (args : AcquireArgs) (lead : String) (c : Candidate) : LeaseId where
  lead := lead
  shard := c.i % args.shards

def chargeProbe (site : Site) (eg : Hkey) (probe : Bool) : Site :=
  if probe then site.setBrk eg { site.brk eg with hc := (site.brk eg).hc + 1 } else site

/-- The session of a sticky call points to the leased identity. -/
def rememberSession (args : AcquireArgs) (mode : Mode) (site : Site) (i : Hkey) : Site :=
  if mode.sticky then
    { site with
      stk := Function.update site.stk args.eg
        (Function.update (site.stk args.eg) args.session (some i)) }
  else site

def countIdentity (args : AcquireArgs) (site : Site) (c : Candidate)
    (proxy : Option ProxyPick) : Site :=
  match site.id c.i with
  | none => site
  | some id => site.setId c.i (some (identityLeased args c proxy id))

def storeLease (args : AcquireArgs) (mode : Mode) (site : Site) (c : Candidate) (lead : String)
    (proxy : Option ProxyPick) : Site :=
  { site with
    ls := site.ls.insert (leaseIdOf args lead c) (leaseOf args mode c proxy)
    lsexp := site.lsexp.add (leaseExpiry args) (leaseIdOf args lead c) }

def writeLease (args : AcquireArgs) (mode : Mode) (site : Site) (c : Candidate) (lead : String)
    (proxy : Option ProxyPick) : Site :=
  let counted := countIdentity args (storeLease args mode site c lead proxy) c proxy
  let healthy := hsSet counted args.eg c.i (healthLeased args c)
  let metered := quotaWrite args healthy c
  let proxied := proxyLeased args metered proxy
  let scored := proxied.setRdy args.eg
    ((proxied.rdy args.eg).move (readyAfterLease args c) c.i)
  let stuck := rememberSession args mode scored c.i
  chargeProbe ((stuck.markDirty (.endpoint args.eg c.i)).markDirty (.global c.i)) args.eg
    mode.probe

/-- The write with the call's counters and reply moved along. The caller has
already counted the lease in `picked`. -/
def Call.lease (args : AcquireArgs) (mode : Mode) (call : Call) (c : Candidate)
    (proxy : Option ProxyPick) (sticky : Bool) : Call :=
  let lead := args.prefixes.getD call.picked ""
  { call with
    site := writeLease args mode call.site c lead proxy
    picked := call.picked + 1
    out := call.out ++ [replyOf args mode c (leaseIdOf args lead c) proxy sticky] }

end Spinneret.Scheduler
