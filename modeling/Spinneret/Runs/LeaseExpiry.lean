import Spinneret.Scheduler.LeaseHold
import Spinneret.Runs.LeaseAccounting
import Spinneret.Runs.LeaseLife

/-!
# Lease expiry over whole runs

An active lease runs from its issue to an expiry that renewals only move forward
and never past the lifetime cap fixed at the issue. While an exclusive lease is
active, its identity is held at least until the lease expires.
-/

namespace Spinneret.Runs

open Spinneret.HotState Spinneret.Lib Spinneret.Scheduler Spinneret.Worker Spinneret.Action
open Spinneret.Breakers

set_option autoImplicit false

/-! ## One step -/

theorem observe_xl (shard : Nat) (sid : StreamId) (full : Option ObserveArgs) (site : Site)
    (i : Hkey) : identityXl (observe shard sid full site).1 i = identityXl site i := by
  have reported : ∀ args (site : Site), (leaseReport args site).1.id = site.id := by
    intro args site
    unfold leaseReport
    split
    · rfl
    · dsimp only
      split
      · split_ifs
        · unfold quotaReport
          dsimp only
          split_ifs <;> rfl
        · rfl
      · rfl
  unfold observe
  split
  · rfl
  · split
    · rfl
    · next args =>
      refine ((observe_full_undisturbed args _).xl i).trans ?_
      refine ((window_report_undisturbed args _).xl i).trans ?_
      simp only [identityXl, reported]

theorem perform_hold_kept {op : SiteOp} {site : Site} {outcome : Outcome}
    (accounted : Accounted site) (idle : ∀ i ∈ op.removals, leasesOf site i = 0)
    (performed : perform op site = some outcome) (other : ∀ args, op ≠ .acquire args) :
    HoldKept site outcome.site := by
  cases op with
  | acquire args => exact absurd rfl (other args)
  | renew args =>
    cases performed
    rcases renew_cases args site with ⟨same, -⟩ | ⟨lease, -, -, -, -, renewed⟩
    · exact .of_xl fun i => by rw [same]
    · rw [renewed]
      exact fun i _ => hold_renewed_xl (leaseExtended args lease site) lease _ i
  | release args =>
    cases performed
    exact release_hold_kept args accounted
  | reap args =>
    cases performed
    exact reap_hold_kept args accounted
  | observe shard sid full =>
    cases performed
    exact .of_xl (observe_xl shard sid full site)
  | act now token ops =>
    cases performed
    exact .of_xl (apply_undisturbed now token ops site).xl
  | evalBreaker args =>
    cases performed
    refine .of_xl fun i => ?_
    unfold breakerEval
    dsimp only
    split <;> rfl
  | setBreaker args =>
    cases performed
    refine .of_xl fun i => ?_
    unfold breakerSet
    dsimp only
    split <;> rfl
  | sync args =>
    cases performed
    intro i leased
    refine (sync_xl args site fun removed => leased ?_).ge
    have settled : Untouched site (syncIdentities args site) := sync_untouched args
      fun j member => by rw [accounted.identities, idle j member, Nat.cast_zero]
    rw [settled.leasesOf]
    exact idle i removed
  | syncProxies args =>
    cases performed
    exact .of_xl (sync_proxies_undisturbed args site).xl
  | retain args =>
    cases performed
    obtain ⟨ls, written⟩ := lease_retain_writes args site
    exact .of_xl fun i => by rw [written]; rfl
  | expire lid =>
    obtain ⟨after, expired, rfl⟩ := Option.map_eq_some_iff.mp performed
    obtain ⟨lease, -, -, rfl⟩ := expire_lease_writes expired
    exact .of_xl fun _ => rfl
  | forget key =>
    cases performed
    cases key <;> exact .of_xl fun _ => rfl

/-- A renewal moves the expiry of its lease forward within the cap, and the hold of an
exclusive lease along with it. -/
theorem renew_held {site : Site} (args : RenewArgs) (held : Held site)
    (accounted : Accounted site) : Held (renew args site).1 := by
  rcases renew_cases args site with ⟨same, -⟩ | ⟨lease, stored, live, -, short, renewed⟩
  · rw [same]
    exact held
  · have hashes : (holdRenewed (leaseExtended args lease site) lease
        (renewedExpiry args lease)).ls =
        site.ls.insert args.lid { lease with x := renewedExpiry args lease } :=
      (hold_renewed_untouched (leaseExtended args lease site) lease _).ls
    obtain ⟨later, below⟩ := renewed_expiry_bounds args short.le
    rw [renewed]
    constructor
    · intro lid value found active
      rw [hashes] at found
      by_cases same : lid = args.lid
      · subst same
        rw [AList.lookup_insert, Option.some.injEq] at found
        subst found
        exact ⟨(held.within args.lid lease stored live).1.trans later, below⟩
      · rw [AList.lookup_insert_ne same] at found
        exact held.within lid value found active
    · intro lid value found active exclusive
      rw [hashes] at found
      by_cases same : lid = args.lid
      · subst same
        rw [AList.lookup_insert, Option.some.injEq] at found
        subst found
        obtain ⟨id, present⟩ := accounted.identity_present stored live
        exact hold_renewed_reaches (leaseExtended args lease site) _ present exclusive
      · rw [AList.lookup_insert_ne same] at found
        exact (held.exclusive lid value found active exclusive).trans
          (hold_renewed_xl (leaseExtended args lease site) lease _ value.i)

/-- Every step but an acquire. A hash that is still active was active before, with the
same expiry unless the step renewed it. -/
theorem perform_held {op : SiteOp} {site : Site} {outcome : Outcome} (held : Held site)
    (accounted : Accounted site) (idle : ∀ i ∈ op.removals, leasesOf site i = 0)
    (performed : perform op site = some outcome) (other : ∀ args, op ≠ .acquire args) :
    Held outcome.site := by
  have kept := perform_hold_kept accounted idle performed other
  have moves := perform_moves performed
  by_cases renews : ∃ args, op = .renew args
  · obtain ⟨args, rfl⟩ := renews
    cases performed
    exact renew_held args held accounted
  · have unrenewed : ∀ args, op ≠ .renew args := fun args same => renews ⟨args, same⟩
    constructor
    · intro lid lease found active
      obtain ⟨old, stored, continues⟩ := moves.continues other found
      obtain ⟨lower, upper⟩ := held.within lid old stored (continues.active active)
      rw [continues.acquired, continues.cap, continues.expiry unrenewed]
      exact ⟨lower, upper⟩
    · intro lid lease found active exclusive
      obtain ⟨old, stored, continues⟩ := moves.continues other found
      have before := held.exclusive lid old stored (continues.active active)
        (continues.limit ▸ exclusive)
      rw [← continues.identity] at before
      rw [continues.expiry unrenewed]
      exact before.trans (kept lease.i (leases_of_ne_zero found active))

/-! ## Runs -/

/-- The lease was issued by an acquire of the run, with the lifetime of that call. -/
def IssuedIn (past : List Event) (lid : LeaseId) (lease : Lease) : Prop :=
  ∃ event ∈ past, ∃ args, event.op = .acquire args ∧
    lid ∈ event.outcome.leases.map LeaseReply.lid ∧
    lease.a = args.now ∧ lease.cap = args.now + args.lifetime ∧ lease.mc = args.mc

theorem IssuedIn.later {past : List Event} {lid : LeaseId} {old lease : Lease} {op : SiteOp}
    (issued : IssuedIn past lid old) (continues : Continues op old lease) (event : Event) :
    IssuedIn (past ++ [event]) lid lease := by
  obtain ⟨origin, member, args, acquired, replied, a, cap, limit⟩ := issued
  exact ⟨origin, List.mem_append_left _ member, args, acquired, replied,
    continues.acquired.trans a, continues.cap.trans cap, continues.limit.trans limit⟩

/-- A chain of acquire moves ends with the hash it began with or with an issued one. -/
theorem acquire_chain {lid : LeaseId} {args : AcquireArgs} {replies : List LeaseReply}
    {before after : Option Lease}
    (chain : Relation.ReflTransGen (LeaseMove lid (.acquire args) replies) before after) :
    after = before ∨ ∃ lease, after = some lease ∧ lid ∈ replies.map LeaseReply.lid ∧
      lease.a = args.now ∧ lease.cap = args.now + args.lifetime ∧ lease.mc = args.mc := by
  cases chain with
  | refl => exact .inl rfl
  | tail _ move =>
    cases move with
    | issued drawn replied => exact .inr ⟨_, rfl, replied, rfl, rfl, rfl⟩

theorem issued_step {run next : SiteRun} {op : SiteOp}
    (issued : ∀ lid lease, run.site.ls.lookup lid = some lease → IssuedIn run.past lid lease)
    (stepped : siteStep run op = some next) :
    ∀ lid lease, next.site.ls.lookup lid = some lease → IssuedIn next.past lid lease := by
  obtain ⟨outcome, performed, site, past⟩ := site_step_cases stepped
  intro lid lease found
  rw [site] at found
  rw [past]
  have moves := perform_moves performed
  by_cases acquires : ∃ args, op = .acquire args
  · obtain ⟨args, rfl⟩ := acquires
    have chain := moves lid
    rw [found] at chain
    rcases acquire_chain chain with same | ⟨written, stored, replied, fields⟩
    · exact (issued lid lease same.symm).later (.refl (.acquire args) lease) _
    · obtain rfl := Option.some.inj stored
      exact ⟨_, List.mem_append_right _ (List.mem_singleton_self _), args, rfl, replied, fields⟩
  · obtain ⟨old, stored, continues⟩ :=
      moves.continues (fun args same => acquires ⟨args, same⟩) found
    exact (issued lid old stored).later continues _

/-- What the runs maintain besides the ledger. -/
structure Running (run : SiteRun) : Prop where
  booked : Booked run
  held : Held run.site
  issued : ∀ lid lease, run.site.ls.lookup lid = some lease → IssuedIn run.past lid lease

def Timed (op : SiteOp) : Prop :=
  ∀ args, op = .acquire args → 0 ≤ args.ttl ∧ 0 ≤ args.lifetime

theorem running_step {run next : SiteRun} {op : SiteOp} (running : Running run)
    (orderly : Orderly run op) (timed : Timed op) (stepped : siteStep run op = some next) :
    Running next := by
  refine ⟨(booked_step running.booked orderly stepped).1, ?_, issued_step running.issued stepped⟩
  obtain ⟨outcome, performed, site, -⟩ := site_step_cases stepped
  rw [site]
  by_cases acquires : ∃ args, op = .acquire args
  · obtain ⟨args, rfl⟩ := acquires
    cases performed
    obtain ⟨ttl, lifetime⟩ := timed args rfl
    exact acquire_held running.held running.booked.accounted running.booked.leads orderly.fresh
      ttl lifetime
  · exact perform_held running.held running.booked.accounted orderly.idle performed
      fun args same => acquires ⟨args, same⟩

/-- A renewal shortens no lease, and succeeds only before the expiry of its lease. -/
structure RenewsForward (args : RenewArgs) (site : Site) : Prop where
  forward : ∀ lid lease, site.ls.lookup lid = some lease →
    ∃ next, (renew args site).1.ls.lookup lid = some next ∧ lease.x ≤ next.x
  alive : ∀ nx lease, (renew args site).2 = .ok nx lease →
    site.ls.lookup args.lid = some lease ∧ lease.st = .active ∧ args.now < lease.x ∧
      (renew args site).1.ls.lookup args.lid = some { lease with x := nx }

theorem renew_forward (args : RenewArgs) (site : Site) : RenewsForward args site := by
  rcases renew_cases args site with ⟨same, refused⟩ | ⟨lease, stored, live, before, short, renewed⟩
  · refine ⟨fun lid lease found => ⟨lease, ?_, le_refl _⟩, fun nx lease ok => ?_⟩
    · rw [same]
      exact found
    · exact absurd ok (refused nx lease)
  · have hashes := (hold_renewed_untouched (leaseExtended args lease site) lease
      (renewedExpiry args lease)).ls
    refine ⟨fun lid value found => ?_, fun nx value ok => ?_⟩
    · rw [renewed]
      dsimp only
      rw [hashes]
      by_cases same : lid = args.lid
      · subst same
        obtain rfl := Option.some.inj (stored.symm.trans found)
        exact ⟨_, AList.lookup_insert _, (renewed_expiry_bounds args short.le).1⟩
      · exact ⟨value, (AList.lookup_insert_ne same).trans found, le_refl _⟩
    · rw [renewed] at ok ⊢
      obtain ⟨rfl, rfl⟩ := RenewReply.ok.inj ok
      dsimp only
      rw [hashes]
      exact ⟨stored, live, before, AList.lookup_insert _⟩

/-- Lease expiry: in every run from a site without leases that draws a fresh lead per
lease and removes no leased identity, an active lease lies between its issue and the cap
its issue fixed, an exclusive one is covered by the hold on its identity, and a renewal
never moves an expiry back and needs a lease that has not expired. -/
theorem lease_expiry {start : Site} {ops : List SiteOp} {final : SiteRun}
    (leaseless : Leaseless start) (timed : ∀ op ∈ ops, Timed op)
    (orderly : Machine.Under siteStep Orderly (SiteRun.start start) ops)
    (reached : Machine.run siteStep (SiteRun.start start) ops = some final) :
    (∀ lid lease, final.site.ls.lookup lid = some lease → lease.st = .active →
      lease.a ≤ lease.x ∧ lease.x ≤ lease.cap ∧ IssuedIn final.past lid lease ∧
      (lease.mc = 1 → ∃ id, final.site.id lease.i = some id ∧ lease.x ≤ id.xl)) ∧
    ∀ args, RenewsForward args final.site := by
  have none : ∀ lid lease, (SiteRun.start start).site.ls.lookup lid ≠ some lease := by
    intro lid lease found
    simp [SiteRun.start, leaseless.leases] at found
  have initial : Running (SiteRun.start start) :=
    ⟨leaseless.booked, ⟨fun lid lease found => absurd found (none lid lease),
      fun lid lease found => absurd found (none lid lease)⟩,
      fun lid lease found => absurd found (none lid lease)⟩
  have running : Running final := Machine.run_invariant_under
    (fun run op next running met stepped => running_step running met.1 met.2 stepped)
    initial (Machine.under_and orderly timed) reached
  refine ⟨fun lid lease found active => ?_, fun args => renew_forward args final.site⟩
  obtain ⟨lower, upper⟩ := running.held.within lid lease found active
  refine ⟨lower, upper, running.issued lid lease found, fun exclusive => ?_⟩
  obtain ⟨id, present⟩ := running.booked.accounted.identity_present found active
  refine ⟨id, present, ?_⟩
  have covered := running.held.exclusive lid lease found active exclusive
  simpa [identityXl, present] using covered

theorem lease_expiry_solo :
    ∃ final lease, Machine.run siteStep (SiteRun.start soloSite) soloRun = some final ∧
      final.site.ls.lookup soloLease = some lease ∧ lease.x = 62000 ∧
      ∃ id, final.site.id lease.i = some id ∧ lease.x ≤ id.xl := by
  refine ⟨_, _, rfl, rfl, by decide +kernel, ?_⟩
  have timed : ∀ op ∈ soloRun, Timed op := by
    simp [soloRun, Timed, plainAcquire]
  have orderly : Machine.Under siteStep Orderly (SiteRun.start soloSite) soloRun :=
    orderly_of_fresh (by decide) (by simp [soloRun, SiteOp.removals])
  exact ((lease_expiry solo_site_leaseless timed orderly rfl).1 soloLease _ rfl rfl).2.2.2 rfl

end Spinneret.Runs
