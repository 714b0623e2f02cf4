import Spinneret.HotState.Model

/-!
# Retention and expiry of keys

`lease_retain` runs when reports are ingested: it counts them on the lease and
keeps an ended lease hash readable until a worker can process them. Keys that
carry a TTL disappear at a time the scripts do not control; `forget` models the
loss of one such key.
-/

namespace Spinneret.HotState

open Spinneret.Lib

set_option autoImplicit false

/-- Arguments of lease_retain: the number of ingested reports per lease. -/
structure RetainArgs where
  ns : String
  now : Int
  retain : Int
  late : Int
  reports : List (LeaseId × Int)

/-- The worker judges lateness the same way; a hash without an end is timely. -/
def timely (args : RetainArgs) (lease : Lease) : Bool :=
  decide (lease.st = .active ∨ lease.ended ≤ 0 ∨ args.now - lease.ended ≤ args.late)

/-- `PEXPIRE GT` raises an expiry time and leaves a key without one persistent. -/
def raiseExpiry (time : Int) : Option Int → Option Int
  | none => none
  | some current => some (max current time)

def retained (args : RetainArgs) (lease : Lease) (count : Int) : Lease :=
  let counted := { lease with rv := lease.rv + count }
  if timely args lease then
    let kept := { counted with kx := max lease.kx (args.now + args.retain) }
    if lease.st = .active then kept
    else { kept with expireAt := raiseExpiry (args.now + args.retain) lease.expireAt }
  else counted

def retainOne (args : RetainArgs) (site : Site) (report : LeaseId × Int) : Site :=
  match site.ls.lookup report.1 with
  | none => site
  | some lease =>
    if lease.ns = args.ns then
      { site with ls := site.ls.insert report.1 (retained args lease report.2) }
    else site

def leaseRetain (args : RetainArgs) (site : Site) : Site :=
  args.reports.foldl (retainOne args) site

theorem lease_retain_writes (args : RetainArgs) (site : Site) :
    ∃ ls, leaseRetain args site = { site with ls := ls } := by
  unfold leaseRetain
  induction args.reports generalizing site with
  | nil => exact ⟨site.ls, rfl⟩
  | cons report rest ih =>
    obtain ⟨ls, written⟩ := ih (retainOne args site report)
    refine ⟨ls, written.trans ?_⟩
    unfold retainOne
    split
    · rfl
    · split <;> rfl

/-- Keys besides lease hashes that the scripts write with a TTL. -/
inductive Transient where
  | quota (eg i : Hkey)
  | session (eg : Hkey) (session : String)
  | window (eg : Hkey) (bucket : Int)
  | counter (key : CounterKey)
  | bans (i : Hkey)
  | crossProxy (p : Hkey)
  | crossIdentity (i : Hkey)
  | cooldowns (eg : Hkey)
  | siteCooldowns
  | results (token : String)

def forget (site : Site) : Transient → Site
  | .quota eg i => site.setQ eg i {}
  | .session eg session =>
    { site with
      stk := Function.update site.stk eg (Function.update (site.stk eg) session none) }
  | .window eg bucket =>
    { site with
      win := Function.update site.win eg (Function.update (site.win eg) bucket {}) }
  | .counter key => { site with cnt := Function.update site.cnt key ∅ }
  | .bans i => { site with bans := Function.update site.bans i ∅ }
  | .crossProxy p => { site with xaProxy := Function.update site.xaProxy p ∅ }
  | .crossIdentity i => { site with xaIdentity := Function.update site.xaIdentity i ∅ }
  | .cooldowns eg => { site with rcd := Function.update site.rcd eg ∅ }
  | .siteCooldowns => { site with rcds := ∅ }
  | .results token => { site with axr := Function.update site.axr token none }

/-- An ended lease hash expires; a hash without an expiry time never does. -/
def expireLease (site : Site) (lid : LeaseId) : Option Site :=
  match site.ls.lookup lid with
  | none => none
  | some lease =>
    if lease.expireAt.isSome then some { site with ls := site.ls.erase lid } else none

theorem expire_lease_writes {site after : Site} {lid : LeaseId}
    (expired : expireLease site lid = some after) :
    ∃ lease, site.ls.lookup lid = some lease ∧ lease.expireAt.isSome = true ∧
      after = { site with ls := site.ls.erase lid } := by
  unfold expireLease at expired
  split at expired
  · cases expired
  · next lease found =>
    split_ifs at expired with lapses
    exact ⟨lease, found, lapses, (Option.some.inj expired).symm⟩

end Spinneret.HotState
