import Spinneret.Runs.BreakerSteps
import Spinneret.Runs.LeaseAccounting
import Spinneret.Scheduler.AcquireSound

/-!
# Counters are counts

The scripts keep lease counters, quota counts and probe slots as integers. No step of a
site makes one of them negative: acquire counts up, a lease end clamps at zero, a refund
takes from a positive count only.
-/

namespace Spinneret.Runs

open Spinneret.HotState Spinneret.Lib Spinneret.Scheduler Spinneret.Worker Spinneret.Action
open Spinneret.Breakers

set_option autoImplicit false

structure Counters (site : Site) : Prop where
  identities : ∀ i, 0 ≤ identityAl site i
  proxies : ∀ p, 0 ≤ proxyAl site p
  quotas : QuotasCounted site

namespace Counters

variable {site after : Site}

theorem undisturbed (counters : Counters site) (same : Undisturbed site after) :
    Counters after where
  identities i := (same.al i).symm ▸ counters.identities i
  proxies p := (same.pal p).symm ▸ counters.proxies p
  quotas := same.quotas counters.quotas

theorem of_eq (counters : Counters site) (id : after.id = site.id) (px : after.px = site.px)
    (q : after.q = site.q) : Counters after where
  identities i := by
    rw [identityAl, id]
    exact counters.identities i
  proxies p := by
    rw [proxyAl, px]
    exact counters.proxies p
  quotas := by
    unfold QuotasCounted
    rw [q]
    exact counters.quotas

/-! ## Acquire -/

theorem quiet (counters : Counters site) (quiet : Quiet site after) : Counters after where
  identities i := by
    rw [identityAl, quiet.al]
    exact counters.identities i
  proxies p := by
    rw [proxyAl, quiet.px]
    exact counters.proxies p
  quotas := by
    unfold QuotasCounted
    rw [quiet.q]
    exact counters.quotas

theorem quota_write {args : AcquireArgs} {picked : Nat} {sticky : Bool} {c : Candidate}
    {id : Identity} (counted : QuotasCounted site) (fit : Fit args site picked sticky c id) :
    QuotasCounted (quotaWrite args site c) := by
  unfold quotaWrite
  split
  · exact counted
  · refine counted.setQ ?_
    have read := fit.cells
    have fold : ∀ (quotas : List QuotaWindow) (cells : Int → Option QuotaCell),
        HashCounted { cells := cells } →
        HashCounted { cells := quotas.foldl (fun (cells : Int → Option QuotaCell) quota =>
          Function.update cells quota.window
            (some (quotaCounted args.now quota.window (c.q quota.window)))) cells } := by
      intro quotas
      induction quotas with
      | nil => exact fun _ kept => kept
      | cons quota rest ih =>
        intro cells kept
        refine ih _ fun other cell found => ?_
        dsimp only at found
        rcases Machine.update_cases found with ⟨rfl, written⟩ | ⟨-, old⟩
        · obtain rfl := Option.some.inj written
          apply quota_counted_nonneg
          rw [read]
          exact counted args.eg c.i quota.window
        · exact kept other cell old
    exact fold _ _ (counted args.eg c.i)

theorem acquired (counters : Counters site) (args : AcquireArgs) :
    Counters (acquire args site).1 := by
  refine acquire_grant_rule args (counters.of_eq rfl rfl rfl)
    (fun before after silent kept => kept.quiet silent) ?_
  intro mode k write granted kept
  obtain ⟨id, fit⟩ := granted.fit
  refine ⟨fun i => ?_, fun p => ?_, ?_⟩
  · rw [identityAl, Write.after, write_lease_id]
    split
    · next here =>
      subst here
      obtain ⟨stored, found, rfl⟩ := Option.map_eq_some_iff.mp fit.stored
      have before := kept.identities write.c.i
      rw [identityAl, found] at before
      have count : (identityLeased args write.c write.proxy stored).al = write.c.al + 1 := by
        unfold identityLeased
        dsimp only
        cases write.proxy with
        | none => dsimp only; split <;> rfl
        | some pick => dsimp only; split_ifs <;> rfl
      rw [found, Option.map_some, Option.map_some, Option.getD_some, count, fit.al]
      exact Int.le_add_one before
    · exact kept.identities i
  · have before := kept.proxies p
    rw [proxyAl] at before
    rw [proxyAl, Write.after, write_lease_px]
    split
    · cases stored : write.before.px p with
      | none => exact le_refl 0
      | some proxy =>
        rw [stored] at before
        exact Int.le_add_one before
    · exact before
  · unfold QuotasCounted
    rw [Write.after, write_lease_q]
    exact quota_write kept.quotas fit

/-! ## Lease ends -/

theorem refunded (counted : QuotasCounted site) (lease : Lease) (windows : Option (List Int)) :
    QuotasCounted (refundAborted site lease windows) := by
  have each (site : Site) (w : Int) (counted : QuotasCounted site) :
      QuotasCounted (refundWindow lease site w) := by
    refine counted.setQ fun other cell found => ?_
    dsimp only at found
    rcases Machine.update_cases found with ⟨rfl, written⟩ | ⟨-, old⟩
    · obtain ⟨stored, before, rfl⟩ := Option.map_eq_some_iff.mp written
      have nonneg := counted lease.e lease.i other stored before
      unfold quotaRefund
      split
      · next taken => exact Int.sub_nonneg_of_le taken.2
      · exact nonneg
    · exact counted lease.e lease.i other cell old
  have metered (windows : List Int) (site : Site) (counted : QuotasCounted site) :
      QuotasCounted (windows.foldl (refundWindow lease) site) := by
    induction windows generalizing site with
    | nil => exact counted
    | cons w rest ih => exact ih _ (each site w counted)
  cases windows with
  | none => exact counted
  | some windows =>
    unfold refundAborted abortAccounting
    dsimp only
    split_ifs
    · exact metered windows site counted
    · exact counted
    · exact metered windows site counted
    · exact counted

theorem decrement_nonneg (counter : Int) : 0 ≤ (decrement counter).1 := by
  unfold decrement
  split
  · exact le_refl 0
  · next enough => exact not_lt.mp enough

theorem ended (counters : Counters site) (layout : Layout) (lid : LeaseId) (lease : Lease)
    (state : LeaseState) (endMs now late : Int) (windows : Option (List Int)) :
    Counters (lsEnd site layout lid lease state endMs now late windows).site := by
  set refund := refundAborted (endLeaseHash site lid lease state endMs now late) lease windows
    with refunds
  have hashed : QuotasCounted (endLeaseHash site lid lease state endMs now late) := counters.quotas
  have started : Counters refund := by
    refine ⟨?_, ?_, refunded hashed lease windows⟩
    · rw [refunds, refund_writes]
      exact counters.identities
    · rw [refunds, refund_writes]
      exact counters.proxies
  have identity : Counters (endIdentity refund layout lease windows.isSome endMs now).site := by
    refine ⟨fun i => ?_, ?_, ?_⟩
    · cases present : refund.id lease.i with
      | none =>
        simp only [endIdentity, present]
        exact started.identities i
      | some id =>
        rw [(end_identity_untouched layout windows.isSome endMs now present).al, identityAl]
        simp only [Site.setId]
        by_cases here : i = lease.i
        · subst here
          rw [Function.update_self]
          exact decrement_nonneg id.al
        · rw [Function.update_of_ne here]
          exact started.identities i
    · rw [end_identity_writes]
      exact started.proxies
    · rw [end_identity_writes]
      exact started.quotas
  refine ⟨?_, fun p => ?_, ?_⟩
  · unfold lsEnd
    dsimp only
    rw [end_proxy_writes]
    exact identity.identities
  · unfold lsEnd endProxy
    dsimp only
    cases holds : lease.p with
    | none => exact identity.proxies p
    | some held =>
      dsimp only
      cases present : (endIdentity refund layout lease windows.isSome endMs now).site.px held with
      | none => exact identity.proxies p
      | some proxy =>
        have written : 0 ≤ proxyAl ((endIdentity refund layout lease windows.isSome endMs
            now).site.setPx held (some { proxy with al := (decrement proxy.al).1 })) p := by
          rw [proxyAl]
          simp only [Site.setPx]
          by_cases here : p = held
          · subst here
            rw [Function.update_self]
            exact decrement_nonneg proxy.al
          · rw [Function.update_of_ne here]
            exact identity.proxies p
        dsimp only
        split
        · split_ifs
          · exact written
          · exact written
        · exact written
  · unfold lsEnd
    dsimp only
    rw [end_proxy_writes]
    exact identity.quotas

theorem reaped (counters : Counters site) (args : ReapArgs) :
    Counters (reap args site).1.site := by
  have fold : ∀ (ids : List LeaseId) (state : Ended × List ReapedLease),
      Counters state.1.site → Counters (ids.foldl (reapOne args) state).1.site := by
    intro ids
    induction ids with
    | nil => exact fun _ kept => kept
    | cons lid rest ih =>
      intro state kept
      refine ih _ ?_
      unfold reapOne
      dsimp only
      split
      · exact kept.of_eq rfl rfl rfl
      · split
        · exact kept.ended ..
        · exact kept.of_eq rfl rfl rfl
  exact fold _ _ counters

theorem held (counters : Counters site) (lease : Lease) (nx : Int) :
    Counters (holdRenewed site lease nx) := by
  unfold holdRenewed
  split
  · next id present =>
    split
    · have raised : Counters
          (if id.xl < nx then site.setId lease.i (some { id with xl := nx }) else site) := by
        split
        · have same : Untouched site (site.setId lease.i (some { id with xl := nx })) :=
            .rewriteId present rfl
          refine ⟨fun i => ?_, counters.proxies, counters.quotas⟩
          rw [same.al]
          exact counters.identities i
        · exact counters
      exact raised.of_eq rfl rfl rfl
    · exact counters
  · exact counters

theorem renewed (counters : Counters site) (args : RenewArgs) :
    Counters (renew args site).1 := by
  unfold renew
  split
  · exact counters
  · next lease found =>
    split
    · exact counters
    · split
      · exact counters
      · exact counters
      · split_ifs
        · exact counters
        · exact counters
        · dsimp only
          refine Counters.held ?_ lease (renewedExpiry args lease)
          exact counters.of_eq rfl rfl rfl

/-! ## The other scripts -/

theorem observed (counters : Counters site) (shard : Nat) (sid : StreamId)
    (full : Option ObserveArgs) : Counters (observe shard sid full site).1 := by
  unfold observe
  split
  · exact counters
  · have advanced : Counters { site with
        ckpt := Function.update site.ckpt shard (some sid) } := counters.of_eq rfl rfl rfl
    split
    · exact advanced
    · next args =>
      dsimp only
      set marked : Site := { site with ckpt := Function.update site.ckpt shard (some sid) }
      have leased : Counters (leaseReport args marked).1 := by
        unfold leaseReport
        split
        · exact advanced
        · dsimp only
          split
          · split_ifs
            · refine Counters.undisturbed ?_ (quota_report_undisturbed args _ _)
              exact advanced.of_eq rfl rfl rfl
            · exact advanced.of_eq rfl rfl rfl
          · exact advanced.of_eq rfl rfl rfl
      have windowed : Counters (windowReport args (leaseReport args marked).1) := by
        refine Counters.undisturbed ?_ (window_report_undisturbed args _)
        exact leased.of_eq rfl rfl rfl
      refine Counters.undisturbed ?_ (observe_full_undisturbed args marked)
      exact windowed.of_eq rfl rfl rfl

theorem synced (counters : Counters site) (args : SyncArgs) :
    Counters (syncIdentities args site) := by
  have accounts := counters.undisturbed
    (Undisturbed.foldl (sync_account_undisturbed args) args.accounts site)
  have fold : ∀ (records : List SyncRecord) (after : Site), Counters after →
      Counters (records.foldl (syncRecord args) after) := by
    intro records
    induction records with
    | nil => exact fun _ kept => kept
    | cons record rest ih =>
      intro after kept
      refine ih _ ?_
      cases record with
      | sync row => exact kept.undisturbed (sync_identity_undisturbed args after row)
      | remove i profile =>
        refine Counters.undisturbed ?_ (remove_identity_undisturbed after i profile)
        refine ⟨fun j => ?_, kept.proxies, kept.quotas⟩
        rw [identityAl]
        simp only [Site.setId]
        by_cases here : j = i
        · rw [here, Function.update_self]
          exact le_refl 0
        · rw [Function.update_of_ne here]
          exact kept.identities j
  exact fold args.records _ accounts

end Counters

/-! ## Probe slots -/

theorem roll_probe_window_hc {now : Int} {breaker : Breaker} (counted : 0 ≤ breaker.hc) :
    0 ≤ (rollProbeWindow now breaker).hc := by
  unfold rollProbeWindow
  split
  · exact le_refl 0
  · exact counted

theorem breaker_gate_hc {args : AcquireArgs} {breaker : Breaker} (counted : 0 ≤ breaker.hc) :
    0 ≤ (breakerGate args breaker).breaker.hc := by
  unfold breakerGate
  split
  · exact counted
  · exact roll_probe_window_hc counted
  · split
    · exact counted
    · next opened =>
      apply roll_probe_window_hc
      unfold lazyHalfOpen at opened
      split_ifs at opened
      cases opened
      exact le_refl 0

theorem eval_breaker_hc {args : EvalArgs} {sum : WindowBucket} {breaker : Breaker}
    (counted : 0 ≤ breaker.hc) : 0 ≤ (evalBreaker args sum breaker).breaker.hc := by
  unfold evalBreaker evalClosed evalOpen evalHalfOpen evalDisabled
  dsimp only
  split
  · exact counted
  · split
    · split
      all_goals
        split_ifs
        all_goals first | exact counted | exact le_refl 0
    · split_ifs
      all_goals first | exact counted | exact le_refl 0

theorem perform_probe_slots {op : SiteOp} {site : Site} {outcome : Outcome}
    (counted : ∀ eg, 0 ≤ (site.brk eg).hc) (performed : perform op site = some outcome) :
    ∀ eg, 0 ≤ (outcome.site.brk eg).hc := by
  have written {group : Hkey} {breaker : Breaker} (nonneg : 0 ≤ breaker.hc) (eg : Hkey) :
      0 ≤ (Function.update site.brk group breaker eg).hc := by
    by_cases here : eg = group
    · rw [here, Function.update_self]
      exact nonneg
    · rw [Function.update_of_ne here]
      exact counted eg
  cases perform_breakers performed with
  | still _ same => rw [same.brk]; exact counted
  | @gated args _ gate =>
    rw [gate.brk]
    refine written ?_
    unfold breakerAcquired
    dsimp only
    have gated := @breaker_gate_hc args _ (counted args.eg)
    split_ifs <;> omega
  | @refunded _ _ lease _ _ brk =>
    rw [brk]
    refine written ?_
    have before := counted lease.e
    unfold probeRefund
    split
    · dsimp only
      split_ifs <;> omega
    · exact before
  | @reported _ _ args _ _ brk =>
    rw [brk]
    refine written ?_
    unfold probeCounted
    split_ifs <;> exact counted args.eg
  | evaluated _ brk =>
    rw [brk]
    exact written (eval_breaker_hc (counted _))
  | operated changed brk =>
    rw [brk]
    refine written ?_
    unfold Breakers.setBreaker at changed
    split at changed
    · obtain rfl := Option.some.inj changed
      exact le_refl 0
    · split at changed
      · cases changed
      · obtain rfl := Option.some.inj changed
        exact le_refl 0
  | unchanged _ same => rw [same.brk]; exact counted

/-! ## Runs -/

theorem perform_counters {op : SiteOp} {site : Site} {outcome : Outcome}
    (counters : Counters site) (performed : perform op site = some outcome) :
    Counters outcome.site := by
  cases op with
  | acquire args => cases performed; exact counters.acquired args
  | renew args => cases performed; exact counters.renewed args
  | release args =>
    cases performed
    obtain ⟨same, -⟩ | ⟨lease, -, -, ended, -⟩ := release_cases args site
    · exact same.symm ▸ counters
    · dsimp only
      rw [ended]
      exact counters.ended ..
  | reap args => cases performed; exact counters.reaped args
  | observe shard sid full => cases performed; exact counters.observed shard sid full
  | act now token ops =>
    cases performed
    exact counters.undisturbed (apply_undisturbed now token ops site)
  | evalBreaker args =>
    cases performed
    dsimp only
    unfold breakerEval
    dsimp only
    split
    · exact counters
    · exact counters.of_eq rfl rfl rfl
  | setBreaker args =>
    cases performed
    dsimp only
    unfold breakerSet
    dsimp only
    split
    · exact counters
    · exact counters.of_eq rfl rfl rfl
  | sync args => cases performed; exact counters.synced args
  | syncProxies args =>
    cases performed
    exact counters.undisturbed (sync_proxies_undisturbed args site)
  | retain args =>
    cases performed
    obtain ⟨ls, written⟩ := lease_retain_writes args site
    dsimp only
    rw [written]
    exact counters.of_eq rfl rfl rfl
  | expire lid =>
    obtain ⟨after, expired, rfl⟩ := Option.map_eq_some_iff.mp performed
    obtain ⟨lease, -, -, rfl⟩ := expire_lease_writes expired
    exact counters.of_eq rfl rfl rfl
  | forget key =>
    cases performed
    cases key with
    | quota eg i => exact ⟨counters.identities, counters.proxies, counters.quotas.setQ .empty⟩
    | _ => exact counters.of_eq rfl rfl rfl

theorem run_counters {start : Site} {ops : List SiteOp} {final : SiteRun}
    (counters : Counters start) (slots : ∀ eg, 0 ≤ (start.brk eg).hc)
    (reached : Machine.run siteStep (.start start) ops = some final) :
    Counters final.site ∧ ∀ eg, 0 ≤ (final.site.brk eg).hc := by
  refine @Machine.run_invariant _ _ _
    (fun run => Counters run.site ∧ ∀ eg, 0 ≤ (run.site.brk eg).hc) ?_ _ _ _ ?_ reached
  · intro run op next held stepped
    obtain ⟨outcome, performed, site, -⟩ := site_step_cases stepped
    rw [site]
    exact ⟨perform_counters held.1 performed, perform_probe_slots held.2 performed⟩
  · exact ⟨counters, slots⟩

end Spinneret.Runs
