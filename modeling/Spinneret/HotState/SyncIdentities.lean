import Spinneret.HotState.Prelude

/-!
# Synchronization of identities and proxies into the hot state

`sync_identities` writes identity and account hashes, account membership and
ready-queue membership from PostgreSQL rows. A sync record keeps the hot
counters of a hash that is present; a removal record deletes the hash together
with them. `sync_proxies` writes proxy hashes and the proxy ready queue in the
same way. Lease hashes are never read or written here.
-/

namespace Spinneret.HotState

open Spinneret.Lib

set_option autoImplicit false

/-- Endpoint groups an identity is eligible for, and the other groups. -/
structure GroupProfile where
  eligible : List Hkey
  others : List Hkey

structure AccountRow where
  a : Hkey
  st : AccState
  bu : Int
  cd : Int
  sct : Int

structure IdentityRow where
  i : Hkey
  iid : String
  st : IdState
  ty : String
  tv : String
  pv : String
  acc : Option Hkey
  rg : String
  bu : Int
  qu : Int
  act : Int
  px : Option Hkey
  profile : GroupProfile
  jitter : Int
  sct : Int

inductive SyncRecord where
  | sync (row : IdentityRow)
  | remove (i : Hkey) (profile : GroupProfile)

structure SyncArgs where
  now : Int
  merge : Bool
  mergeAccounts : Bool
  resetHealth : Bool
  resetFailuresArg : Bool
  cold : Bool
  baselines : Hkey → Option ℚ
  accounts : List AccountRow
  records : List SyncRecord

def SyncArgs.resetFailures (args : SyncArgs) : Bool := !args.resetHealth && args.resetFailuresArg

def SyncArgs.resetting (args : SyncArgs) : Bool := args.resetHealth || args.resetFailures

/-- `keep_redis_lifecycle` on an identity hash that is present. -/
def keepIdentityLifecycle (args : SyncArgs) (id : Identity) (pgSct : Int) : Bool :=
  args.merge || (decide (pgSct < id.sct) &&
    match id.st with
    | .banned => decide (id.bu = -1 ∨ args.now < id.bu)
    | .quarantined => decide (args.now < id.qu)
    | _ => true)

def keepAccountLifecycle (args : SyncArgs) (account : Account) (pgSct : Int) : Bool :=
  args.mergeAccounts || (decide (pgSct < account.sct) &&
    match account.st with
    | .banned => decide (account.bu = -1 ∨ args.now < account.bu)
    | _ => true)

def syncAccount (args : SyncArgs) (site : Site) (row : AccountRow) : Site :=
  match site.acc row.a with
  | none => site.setAcc row.a
      (some { st := row.st, bu := row.bu, cd := max 0 row.cd, sct := row.sct })
  | some account =>
    let cd := max account.cd row.cd
    if keepAccountLifecycle args account row.sct then
      site.setAcc row.a (some { account with cd := cd })
    else site.setAcc row.a (some { st := row.st, bu := row.bu, cd := cd, sct := row.sct })

def leaveAccount (site : Site) (i : Hkey) : Option Hkey → Site
  | none => site
  | some a => { site with accm := Function.update site.accm a ((site.accm a).erase i) }

def joinAccount (site : Site) (i : Hkey) : Option Hkey → Site
  | none => site
  | some a => { site with accm := Function.update site.accm a (insert i (site.accm a)) }

/-- `remove_identity`: the hash goes with every counter in it. -/
def removeIdentity (site : Site) (i : Hkey) (profile : GroupProfile) : Site :=
  let prevAcc := (site.id i).bind Identity.acc
  let deleted := { site.setId i none with
    bans := Function.update site.bans i ∅
    xaIdentity := Function.update site.xaIdentity i ∅ }
  let swept := (profile.eligible ++ profile.others).foldl
    (fun site eg => ((site.setRdy eg ((site.rdy eg).erase i)).setHs eg i none).setQ eg i {})
    deleted
  leaveAccount swept i prevAcc

/-- A binding stored in Redis wins while its proxy is materialized. -/
def boundProxy (site : Site) (current row : Option Hkey) : Option Hkey :=
  match current with
  | some p => if (site.px p).isSome then some p else row
  | none => row

/-- The identity hash after a sync record; a new hash has no hot counters. -/
def syncedIdentity (args : SyncArgs) (site : Site) (row : IdentityRow) : Identity :=
  match site.id row.i with
  | none =>
    { iid := row.iid, st := row.st, ty := row.ty, tv := row.tv, pv := row.pv, acc := row.acc
      rg := row.rg, bu := row.bu, qu := row.qu, act := row.act, px := row.px, sct := row.sct }
  | some id =>
    let keep := keepIdentityLifecycle args id row.sct
    let streakless := args.resetting
    let scoreless := args.resetHealth
    { id with
      iid := row.iid
      st := if keep then id.st else row.st
      ty := row.ty
      tv := row.tv
      pv := row.pv
      acc := row.acc
      rg := row.rg
      bu := if keep then id.bu else row.bu
      qu := if keep then id.qu else row.qu
      act := if keep then id.act else row.act
      px := boundProxy site id.px row.px
      sct := if keep then id.sct else row.sct
      gnf := if streakless then 0 else id.gnf
      glf := if streakless then 0 else id.glf
      gs := if scoreless then none else id.gs
      gts := if scoreless then none else id.gts
      gn := if scoreless then 0 else id.gn }

def syncHealth (args : SyncArgs) (i : Hkey) (site : Site) (eg : Hkey) : Site :=
  match site.hs eg i with
  | none => site
  | some health =>
    if args.resetHealth then
      (hsSet site eg i { health with
        score := (args.baselines eg).getD 70, sts := args.now, samples := 0
        nfail := 0, lastfail := 0 }).markDirty (.endpoint eg i)
    else if args.resetFailures ∧ (health.nfail ≠ 0 ∨ health.lastfail ≠ 0) then
      (hsSet site eg i { health with nfail := 0, lastfail := 0 }).markDirty (.endpoint eg i)
    else site

/-- The ready score of an eligible group, delayed by the jitter on a cold start. -/
def syncScore (args : SyncArgs) (site : Site) (i eg : Hkey) (level jitter : Int) : Int :=
  let score := match site.hs eg i with
    | none => level
    | some health => max (max level health.cd) health.ru
  if args.cold ∧ score ≤ args.now then args.now + jitter else score

def syncGroup (args : SyncArgs) (i : Hkey) (level jitter : Int) (eligible : Bool)
    (site : Site) (eg : Hkey) : Site :=
  let reset := syncHealth args i site eg
  if eligible then
    if args.merge ∧ ((reset.rdy eg).lookup i).isSome then reset
    else reset.setRdy eg ((reset.rdy eg).add (syncScore args reset i eg level jitter) i)
  else reset.setRdy eg ((reset.rdy eg).erase i)

/-- One sync record. The identity side of the availability rule reads the hot
counters as they were before the record. -/
def syncIdentity (args : SyncArgs) (site : Site) (row : IdentityRow) : Site :=
  let i := row.i
  let current := site.id i
  let next := syncedIdentity args site row
  let stored := site.setId i (some next)
  let prevAcc := current.bind Identity.acc
  let left := if prevAcc = row.acc then stored else leaveAccount stored i prevAcc
  let joined := joinAccount left i row.acc
  let noted := if args.resetHealth then joined.markDirty (.global i) else joined
  let level := match current with
    | none => identityAvail noted 0 0 0 0 row.acc
    | some id => identityAvail noted id.scd id.sru id.al id.xl row.acc
  let ready := decide (next.st = .active ∨ next.st = .pending)
  let eligible := row.profile.eligible.foldl (syncGroup args i level row.jitter ready) noted
  row.profile.others.foldl (syncGroup args i level row.jitter false) eligible

def syncRecord (args : SyncArgs) (site : Site) : SyncRecord → Site
  | .sync row => syncIdentity args site row
  | .remove i profile => removeIdentity site i profile

def syncIdentities (args : SyncArgs) (site : Site) : Site :=
  args.records.foldl (syncRecord args) (args.accounts.foldl (syncAccount args) site)

/-! ## Proxies -/

structure ProxyRow where
  p : Hkey
  pid : String
  st : ProxyState
  kd : String
  rg : String
  pv : String
  tg : List String
  mc : Int
  uv : String
  gcd : Int
  bu : Int
  qu : Int
  sct : Int

structure SyncProxiesArgs where
  now : Int
  merge : Bool
  rows : List ProxyRow

def keepProxyLifecycle (args : SyncProxiesArgs) (proxy : Proxy) (pgSct : Int) : Bool :=
  args.merge || (decide (pgSct < proxy.sct) &&
    match proxy.st with
    | .banned => decide (proxy.bu = -1 ∨ args.now < proxy.bu)
    | .quarantined => decide (args.now < proxy.qu)
    | _ => true)

/-- The proxy hash after a record; a global cooldown is never shortened. -/
def syncedProxy (args : SyncProxiesArgs) (site : Site) (row : ProxyRow) : Proxy :=
  let fresh : Proxy :=
    { pid := row.pid, st := row.st, kd := row.kd, rg := row.rg, pv := row.pv, tg := row.tg
      mc := row.mc, uv := row.uv, gcd := max 0 row.gcd, bu := row.bu, qu := row.qu
      sct := row.sct }
  match site.px row.p with
  | none => fresh
  | some proxy =>
    let written := { fresh with
      gcd := max proxy.gcd row.gcd, al := proxy.al, cd := proxy.cd, sc := proxy.sc
      sts := proxy.sts, sn := proxy.sn, nf := proxy.nf, lf := proxy.lf }
    if keepProxyLifecycle args proxy row.sct then
      { written with st := proxy.st, bu := proxy.bu, qu := proxy.qu, sct := proxy.sct }
    else written

def syncProxy (args : SyncProxiesArgs) (site : Site) (row : ProxyRow) : Site :=
  let proxy := syncedProxy args site row
  { site.setPx row.p (some proxy) with
    pxrdy := if proxy.st = .active then site.pxrdy.add (max proxy.cd proxy.gcd) row.p
      else site.pxrdy.erase row.p }

def syncProxies (args : SyncProxiesArgs) (site : Site) : Site :=
  args.rows.foldl (syncProxy args) site

end Spinneret.HotState
