import Spinneret.Runs.ScriptLedger

/-!
# Lease accounting over whole runs

Every step of a site leaves the lease counters and the expiry set in agreement
with the active lease hashes, as long as lease id leads are fresh and no
synchronization removes an identity that still has active leases.
-/

namespace Spinneret.Runs

open Spinneret.HotState Spinneret.Lib Spinneret.Scheduler Spinneret.Worker Spinneret.Action
open Spinneret.Breakers

set_option autoImplicit false

def SiteRun.used (run : SiteRun) : List String := run.past.flatMap fun event => event.op.leads

/-- A step draws new lease id leads and removes no identity that is leased. -/
structure Orderly (run : SiteRun) (op : SiteOp) : Prop where
  fresh : (run.used ++ op.leads).Nodup
  idle : ∀ i ∈ op.removals, leasesOf run.site i = 0

structure Booked (run : SiteRun) : Prop where
  accounted : Accounted run.site
  leads : Leads run.site run.used
  unclamped : ∀ event ∈ run.past, event.outcome.clamped = false

/-- Every step but an acquire settles the ledger without a clamp. -/
theorem perform_settles {op : SiteOp} {site : Site} {outcome : Outcome}
    (accounted : Accounted site) (idle : ∀ i ∈ op.removals, leasesOf site i = 0)
    (performed : perform op site = some outcome) (other : ∀ args, op ≠ .acquire args) :
    Settles site outcome.site ∧ outcome.clamped = false := by
  cases op with
  | acquire args => exact absurd rfl (other args)
  | renew args =>
    cases performed
    exact ⟨renew_settles args site, rfl⟩
  | release args =>
    cases performed
    exact release_settles args accounted
  | reap args =>
    cases performed
    exact reap_settles args accounted
  | observe shard sid full =>
    cases performed
    exact ⟨observe_settles shard sid full accounted, rfl⟩
  | act now token ops =>
    cases performed
    exact ⟨.untouched (apply_untouched now token ops site), rfl⟩
  | evalBreaker args =>
    cases performed
    exact ⟨.same (breaker_eval_same_ledger args site), rfl⟩
  | setBreaker args =>
    cases performed
    exact ⟨.same (breaker_set_same_ledger args site), rfl⟩
  | sync args =>
    cases performed
    refine ⟨.untouched (sync_untouched args fun i member => ?_), rfl⟩
    rw [accounted.identities, idle i member, Nat.cast_zero]
  | syncProxies args =>
    cases performed
    exact ⟨.untouched (sync_proxies_undisturbed args site).toUntouched, rfl⟩
  | retain args =>
    cases performed
    exact ⟨lease_retain_settles args accounted, rfl⟩
  | expire lid =>
    obtain ⟨after, expired, rfl⟩ := Option.map_eq_some_iff.mp performed
    exact ⟨expire_lease_settles accounted expired, rfl⟩
  | forget key =>
    cases performed
    have windowed : SameLedger site { site with win := (HotState.forget site key).win } :=
      .of_eq rfl rfl rfl rfl
    exact ⟨.same (windowed.trans (forget_untouched site key).toSameLedger), rfl⟩

theorem used_step {run next : SiteRun} {op : SiteOp} (stepped : siteStep run op = some next) :
    next.used = run.used ++ op.leads := by
  obtain ⟨outcome, -, -, past⟩ := site_step_cases stepped
  simp [SiteRun.used, past]

/-- One step of a booked run, with the bound it keeps on the leases of an identity. -/
theorem booked_step {run next : SiteRun} {op : SiteOp} (booked : Booked run)
    (orderly : Orderly run op) (stepped : siteStep run op = some next) :
    Booked next ∧ ∀ (i : Hkey) (m : Int), leasesOf run.site i ≤ m →
      (∀ args, op = .acquire args → args.mc ≤ m) → leasesOf next.site i ≤ m := by
  have used := used_step stepped
  obtain ⟨outcome, performed, site, past⟩ := site_step_cases stepped
  have clean : outcome.clamped = false →
      ∀ event ∈ next.past, event.outcome.clamped = false := by
    intro unclamped event member
    rw [past] at member
    rcases List.mem_append.mp member with old | new
    · exact booked.unclamped event old
    · obtain rfl := List.mem_singleton.mp new
      exact unclamped
  by_cases acquires : ∃ args, op = .acquire args
  · obtain ⟨args, rfl⟩ := acquires
    cases performed
    have issuing := acquire_issuing booked.accounted booked.leads orderly.fresh
    refine ⟨⟨site ▸ issuing.accounted, ?_, clean rfl⟩, ?_⟩
    · intro lid found
      rw [site] at found
      rw [used]
      exact ((List.take_sublist _ _).append_left _).subset (issuing.leads lid found)
    · intro i m before limit
      rw [site]
      exact (issuing.limited i).trans (max_le before (limit args rfl))
  · have other : ∀ args, op ≠ .acquire args := fun args same => acquires ⟨args, same⟩
    obtain ⟨settles, unclamped⟩ :=
      perform_settles booked.accounted orderly.idle performed other
    refine ⟨⟨site ▸ settles.accounted booked.accounted, ?_, clean unclamped⟩, ?_⟩
    · intro lid found
      rw [site] at found
      rw [used]
      exact List.mem_append_left _ (booked.leads lid (settles.known lid found))
    · intro i m before _
      rw [site]
      exact (Int.ofNat_le.mpr (settles.leases_of_le i)).trans before

/-- Fresh leads and no removal of an identity make every step orderly. -/
theorem orderly_of_fresh {run : SiteRun} {ops : List SiteOp}
    (fresh : (run.used ++ ops.flatMap SiteOp.leads).Nodup)
    (kept : ∀ op ∈ ops, op.removals = []) : Machine.Under siteStep Orderly run ops := by
  induction ops generalizing run with
  | nil => trivial
  | cons op rest ih =>
    rw [List.flatMap_cons, ← List.append_assoc] at fresh
    refine ⟨⟨(List.nodup_append.mp fresh).1, ?_⟩, fun next stepped => ?_⟩
    · rw [kept op List.mem_cons_self]
      exact fun i none => absurd none List.not_mem_nil
    · exact ih (used_step stepped ▸ fresh) fun op member => kept op (List.mem_cons_of_mem _ member)

structure Leaseless (site : Site) : Prop where
  leases : site.ls = ∅
  expiries : site.lsexp = ∅
  identities : ∀ i, identityAl site i = 0
  proxies : ∀ p, proxyAl site p = 0

theorem Leaseless.booked {site : Site} (leaseless : Leaseless site) :
    Booked (SiteRun.start site) where
  accounted :=
    { identities := fun i => by
        simp [SiteRun.start, leasesOf, leaseless.identities, leaseless.leases]
      proxies := fun p => by
        simp [SiteRun.start, leasesOn, leaseless.proxies, leaseless.leases]
      expiries := fun lid x => by
        simp [SiteRun.start, leaseless.leases, leaseless.expiries]
      persistent := fun lid lease found => by
        simp [SiteRun.start, leaseless.leases] at found }
  leads lid found := by
    rw [SiteRun.start, leaseless.leases] at found
    exact absurd found (AList.notMem_empty lid)
  unclamped event none := absurd none List.not_mem_nil

/-- Lease accounting: in every run from a site without leases that draws a fresh
lead per lease and removes no identity, the counters of identities and proxies
are the numbers of their active leases, the expiry set holds exactly the active
leases with their expiry times, and no decrement was clamped. -/
theorem lease_accounting {start : Site} {ops : List SiteOp} {final : SiteRun}
    (leaseless : Leaseless start) (fresh : (ops.flatMap SiteOp.leads).Nodup)
    (kept : ∀ op ∈ ops, op.removals = [])
    (reached : Machine.run siteStep (SiteRun.start start) ops = some final) :
    (∀ i, identityAl final.site i = leasesOf final.site i) ∧
    (∀ p, proxyAl final.site p = leasesOn final.site p) ∧
    (∀ lid x, final.site.lsexp.lookup lid = some x ↔
      ∃ lease, final.site.ls.lookup lid = some lease ∧ lease.st = .active ∧ lease.x = x) ∧
    ∀ event ∈ final.past, event.outcome.clamped = false := by
  have orderly : Machine.Under siteStep Orderly (SiteRun.start start) ops :=
    orderly_of_fresh (by simpa [SiteRun.used, SiteRun.start] using fresh) kept
  have booked := Machine.run_invariant_under
    (fun run op next booked orderly stepped => (booked_step booked orderly stepped).1)
    leaseless.booked orderly reached
  exact ⟨booked.accounted.identities, booked.accounted.proxies, booked.accounted.expiries,
    booked.unclamped⟩

def soloSite : Site where
  id := Function.update (fun _ => none) 7 (some (plainIdentity "idt_7" .active))
  rdy := fun eg => if eg = 1 then ZSet.add ∅ 0 7 else ∅

theorem solo_site_leaseless : Leaseless soloSite where
  leases := rfl
  expiries := rfl
  identities i := by
    by_cases here : i = 7
    · simp [identityAl, soloSite, here, plainIdentity]
    · simp [identityAl, soloSite, here]
  proxies _ := rfl

def soloLease : LeaseId := { lead := "a", shard := 0 }

def soloRun : List SiteOp :=
  [.acquire (plainAcquire 1 1000 "a"),
    .renew { now := 2000, lid := soloLease, extend := 0, ns := none }]

theorem lease_accounting_solo :
    ∃ final, Machine.run siteStep (SiteRun.start soloSite) soloRun = some final ∧
      leasesOf final.site 7 = 1 ∧ identityAl final.site 7 = leasesOf final.site 7 := by
  refine ⟨_, rfl, by decide +kernel, ?_⟩
  have fresh : (soloRun.flatMap SiteOp.leads).Nodup := by decide
  have kept : ∀ op ∈ soloRun, op.removals = [] := by simp [soloRun, SiteOp.removals]
  exact (lease_accounting solo_site_leaseless fresh kept rfl).1 7

/-! ## The concurrency limit -/

/-- In every run whose acquires share the limit `m` and whose steps are orderly,
no identity ever has more than `m` active leases. -/
theorem lease_limit_while_leased_identities_stay {start : Site} {ops : List SiteOp}
    {final : SiteRun} {m : Nat} (leaseless : Leaseless start)
    (limit : ∀ op ∈ ops, ∀ args, op = .acquire args → args.mc = m)
    (orderly : Machine.Under siteStep Orderly (SiteRun.start start) ops)
    (reached : Machine.run siteStep (SiteRun.start start) ops = some final) (i : Hkey) :
    leasesOf final.site i ≤ m := by
  -- the limit of a step is part of its guard, so that the invariant can be inductive
  have guarded : Machine.Under siteStep
      (fun run op => Orderly run op ∧ ∀ args, op = .acquire args → args.mc = m)
      (SiteRun.start start) ops := Machine.under_and orderly limit
  have preserved : ∀ run op next, (Booked run ∧ (leasesOf run.site i : Int) ≤ m) →
      (Orderly run op ∧ ∀ args, op = .acquire args → args.mc = m) →
      siteStep run op = some next → Booked next ∧ (leasesOf next.site i : Int) ≤ m := by
    intro run op next before met stepped
    obtain ⟨booked, kept⟩ := booked_step before.1 met.1 stepped
    exact ⟨booked, kept i m before.2 fun args same => (met.2 args same).le⟩
  have bounded := Machine.run_invariant_under preserved
    ⟨leaseless.booked, by simp [SiteRun.start, leasesOf, leaseless.leases]⟩ guarded reached
  exact_mod_cast bounded.2

def soloProfile : GroupProfile := { eligible := [1], others := [] }

def soloRow : IdentityRow where
  i := 7
  iid := "idt_7"
  st := .pending
  ty := ""
  tv := ""
  pv := ""
  acc := none
  rg := ""
  bu := 0
  qu := 0
  act := 0
  px := none
  profile := soloProfile
  jitter := 0
  sct := 0

def syncOf (now : Int) (record : SyncRecord) : SyncArgs where
  now := now
  merge := false
  mergeAccounts := false
  resetHealth := false
  resetFailuresArg := false
  cold := false
  baselines := fun _ => none
  accounts := []
  records := [record]

/-- Archive and restore between two exclusive acquires. -/
def archiveRestore : List SiteOp :=
  [.acquire (plainAcquire 1 1000 "a"), .sync (syncOf 2000 (.remove 7 soloProfile)),
    .sync (syncOf 3000 (.sync soloRow)), .acquire (plainAcquire 1 4000 "b")]

/-- The same run with the first lease released before the archive. -/
def releaseArchiveRestore : List SiteOp :=
  [.acquire (plainAcquire 1 1000 "a"),
    .release { now := 1500, lid := soloLease, late := 0, ns := none, abort := false
               windows := [], layout := [] },
    .sync (syncOf 2000 (.remove 7 soloProfile)), .sync (syncOf 3000 (.sync soloRow)),
    .acquire (plainAcquire 1 4000 "b")]

theorem lease_limit_after_release :
    ∃ final, Machine.run siteStep (SiteRun.start soloSite) releaseArchiveRestore = some final ∧
      leasesOf final.site 7 = 1 ∧ leasesOf final.site 7 ≤ 1 := by
  refine ⟨_, rfl, by decide +kernel, ?_⟩
  have limit : ∀ op ∈ releaseArchiveRestore, ∀ args, op = .acquire args →
      args.mc = ((1 : Nat) : Int) := by
    simp [releaseArchiveRestore, plainAcquire]
  have orderly : Machine.Under siteStep Orderly (SiteRun.start soloSite)
      releaseArchiveRestore := by
    refine Machine.under_cons rfl ⟨by decide, by decide⟩ ?_
    refine Machine.under_cons rfl ⟨by decide, by decide⟩ ?_
    refine Machine.under_cons rfl ⟨by decide, by decide +kernel⟩ ?_
    refine Machine.under_cons rfl ⟨by decide, by decide⟩ ?_
    exact Machine.under_cons rfl ⟨by decide, by decide⟩ trivial
  exact lease_limit_while_leased_identities_stay solo_site_leaseless limit orderly rfl 7

/-- An archive and a restore forget the active lease of an exclusive identity,
and a second lease is issued beside it. -/
theorem archived_identity_leased_twice :
    Leaseless soloSite ∧ (archiveRestore.flatMap SiteOp.leads).Nodup ∧
      (Machine.run siteStep (SiteRun.start soloSite) archiveRestore).map
        (fun run => leasesOf run.site 7) = some 2 :=
  ⟨solo_site_leaseless, by decide, by decide +kernel⟩

end Spinneret.Runs
