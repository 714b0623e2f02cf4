import Spinneret.Lib.Machine
import Spinneret.Scheduler.Ledger
import Spinneret.Worker.Observe

/-!
# Reports settle the ledger

A processed report raises the report count of its lease and writes health,
streaks and counters. It never changes which leases are active nor the lease
counters of identities and proxies.
-/

namespace Spinneret.Worker

open Spinneret.HotState Spinneret.Lib Spinneret.Scheduler

set_option autoImplicit false

theorem quota_report_undisturbed (args : ObserveArgs) (site : Site) (i : Hkey) :
    Undisturbed site (quotaReport args site i) := by
  unfold quotaReport
  dsimp only
  split_ifs
  · exact .refl site
  · refine ⟨.of_eq rfl rfl rfl rfl rfl rfl rfl, fun _ => rfl, fun counted => counted.setQ ?_⟩
    have fold : ∀ (windows : List Int) (cells : Int → Option QuotaCell),
        HashCounted { cells := cells } →
        HashCounted { cells := windows.foldl (fun (cells : Int → Option QuotaCell) w =>
          Function.update cells w (some (quotaCounted args.now w (cells w)))) cells } := by
      intro windows
      induction windows with
      | nil => exact fun _ kept => kept
      | cons w rest ih =>
        intro cells kept
        refine ih _ fun other cell found => ?_
        dsimp only at found
        rcases Machine.update_cases found with ⟨rfl, written⟩ | ⟨-, old⟩
        · obtain rfl := Option.some.inj written
          exact quota_counted_nonneg _ _ (kept other)
        · exact kept other cell old
    exact fold _ _ (counted args.eg i)

theorem report_count_rewrites {site : Site} {lid : LeaseId} {lease : Lease}
    (accounted : Accounted site) (found : site.ls.lookup lid = some lease) :
    Rewrites site lid lease { lease with rc := lease.rc + 1 }
      { site with ls := site.ls.insert lid { lease with rc := lease.rc + 1 } } where
  al _ := rfl
  pal _ := rfl
  found := found
  identity := rfl
  proxy := rfl
  state := rfl
  persistent _ := rfl
  ls := rfl
  expiry key := by
    split_ifs with same
    · rw [same.1]
      exact (accounted.expiries lid lease.x).mpr ⟨lease, found, same.2, rfl⟩
    · rfl

theorem lease_report_settles (args : ObserveArgs) {site : Site} (accounted : Accounted site) :
    Settles site (leaseReport args site).1 := by
  unfold leaseReport
  split
  · exact .refl site
  · next lease found =>
    have counted : Settles site _ := .rewrites (report_count_rewrites accounted found)
    dsimp only
    split
    · split_ifs
      · exact counted.trans (.untouched (quota_report_undisturbed _ _ _).toUntouched)
      · exact counted
    · exact counted

theorem window_report_undisturbed (args : ObserveArgs) (site : Site) :
    Undisturbed { site with win := (windowReport args site).win } (windowReport args site) := by
  unfold windowReport
  dsimp only
  split <;> exact .of_eq rfl rfl rfl rfl rfl rfl rfl rfl

theorem window_report_same_ledger (args : ObserveArgs) (site : Site) :
    SameLedger site (windowReport args site) := by
  have windowed : SameLedger site { site with win := (windowReport args site).win } :=
    .of_eq rfl rfl rfl rfl
  exact windowed.trans (window_report_undisturbed args site).toSameLedger

theorem probe_report_same_ledger (args : ObserveArgs) (site : Site) (probe : Bool) :
    SameLedger site (probeReport args site probe) :=
  .of_eq rfl rfl rfl rfl

theorem cross_attribute_undisturbed (args : ObserveArgs) (site : Site) :
    Undisturbed site (crossAttribute args site).1 := by
  unfold crossAttribute
  split
  · split_ifs <;> exact .of_eq rfl rfl rfl rfl rfl rfl rfl rfl
  · exact .refl site

theorem endpoint_report_undisturbed (args : ObserveArgs) (site : Site) (i : Hkey) (blame : Blame) :
    Undisturbed site (endpointReport args site i blame).site := by
  unfold endpointReport
  dsimp only
  split_ifs <;> exact .of_eq rfl rfl rfl rfl rfl rfl rfl rfl

theorem endpoint_report_id (args : ObserveArgs) (site : Site) (i : Hkey) (blame : Blame) :
    (endpointReport args site i blame).site.id = site.id := by
  unfold endpointReport
  dsimp only
  split_ifs <;> rfl

theorem global_report_undisturbed (args : ObserveArgs) {site : Site} {i : Hkey} {id : Identity}
    (blame : Blame) (present : site.id i = some id) :
    Undisturbed site (globalReport args site i id blame).site := by
  unfold globalReport
  dsimp only
  split
  · refine Undisturbed.trans (.rewriteId present ?_) (.of_eq rfl rfl rfl rfl rfl rfl rfl rfl)
    rfl
  · exact .refl site

/-- The global report follows the endpoint report on the hash read before both. -/
theorem identity_reports_undisturbed (args : ObserveArgs) {site : Site} {i : Hkey}
    {id : Identity} (blame : Blame) (present : site.id i = some id) :
    Undisturbed site
      (globalReport args (endpointReport args site i blame).site i id blame).site := by
  have kept : (endpointReport args site i blame).site.id i = some id := by
    rw [endpoint_report_id, present]
  exact (endpoint_report_undisturbed ..).trans (global_report_undisturbed args blame kept)

theorem proxy_report_undisturbed (args : ObserveArgs) (site : Site) (blame : Blame) :
    Undisturbed site (proxyReport args site blame).1 := by
  unfold proxyReport
  split
  · exact .refl site
  · next p proxy found =>
    obtain ⟨q, -, found⟩ := Option.bind_eq_some_iff.mp found
    obtain ⟨stored, present, pair⟩ := Option.map_eq_some_iff.mp found
    obtain ⟨rfl, rfl⟩ := Prod.mk.inj pair
    have written : Undisturbed site (site.setPx q (some (proxyWritten args stored blame))) :=
      .rewritePx present rfl
    dsimp only
    split
    · exact written.trans (.of_eq rfl rfl rfl rfl rfl rfl rfl rfl)
    · exact .refl site

theorem counter_report_undisturbed (args : ObserveArgs) (i : Hkey) (acc : Option Hkey)
    (site : Site) : Undisturbed site (counterReport args i acc site).1 := by
  have fold : ∀ (requests : List (SubjectKind × Int))
      (state : Site × List (CounterKey × Int) × List Int), Undisturbed site state.1 →
      Undisturbed site (requests.foldl (countRequest args i acc) state).1 := by
    intro requests
    induction requests with
    | nil => exact fun _ same => same
    | cons request rest ih =>
      intro state same
      refine ih _ (same.trans ?_)
      unfold countRequest
      split
      · exact .refl _
      · split_ifs
        · dsimp only
          split
          · exact .refl _
          · exact .of_eq rfl rfl rfl rfl rfl rfl rfl rfl
        · exact .refl _
  exact fold _ _ (.refl site)

/-- After the probe report, a processed report touches neither ledger nor breakers. -/
theorem observe_full_undisturbed (args : ObserveArgs) (site : Site) :
    Undisturbed (probeReport args (windowReport args (leaseReport args site).1)
      (leaseReport args site).2) (observeFull args site).1 := by
  have crossed := cross_attribute_undisturbed args (probeReport args
    (windowReport args (leaseReport args site).1) (leaseReport args site).2)
  unfold observeFull
  dsimp only
  split
  · next i identity hi found =>
    split
    · exact crossed
    · rw [hi, Option.bind_some] at found
      exact crossed.trans ((identity_reports_undisturbed args _ found).trans
        ((proxy_report_undisturbed ..).trans (counter_report_undisturbed ..)))
  · exact crossed

theorem observe_full_settles (args : ObserveArgs) {site : Site} (accounted : Accounted site) :
    Settles site (observeFull args site).1 :=
  (lease_report_settles args accounted).trans
    ((Settles.same (window_report_same_ledger ..)).trans
      ((Settles.same (probe_report_same_ledger ..)).trans
        (.untouched (observe_full_undisturbed args site).toUntouched)))

theorem observe_settles (shard : Nat) (sid : StreamId) (full : Option ObserveArgs) {site : Site}
    (accounted : Accounted site) : Settles site (observe shard sid full site).1 := by
  unfold observe
  split
  · exact .refl site
  · have advanced : SameLedger site
        { site with ckpt := Function.update site.ckpt shard (some sid) } :=
      .of_eq rfl rfl rfl rfl
    split
    · exact .same advanced
    · exact (Settles.same advanced).trans
        (observe_full_settles _ (accounted.same_ledger advanced))

/-! ## Breakers -/

theorem lease_report_breakers (args : ObserveArgs) (site : Site) :
    (leaseReport args site).1.brk = site.brk ∧ (leaseReport args site).1.brko = site.brko ∧
      (leaseReport args site).1.win = site.win := by
  unfold leaseReport
  split
  · exact ⟨rfl, rfl, rfl⟩
  · dsimp only
    split
    · split_ifs
      · have reported := quota_report_undisturbed args
        exact ⟨(reported ..).brk, (reported ..).brko, (reported ..).win⟩
      · exact ⟨rfl, rfl, rfl⟩
    · exact ⟨rfl, rfl, rfl⟩

/-- Whether a report is one of a probe lease. -/
def probeOf (args : ObserveArgs) (site : Site) : Bool :=
  ((site.ls.lookup args.lid).map Lease.pr).getD false

theorem lease_report_probe (args : ObserveArgs) (site : Site) :
    (leaseReport args site).2 = probeOf args site := by
  unfold leaseReport probeOf
  cases site.ls.lookup args.lid with
  | none => rfl
  | some lease => cases args.ident <;> rfl

/-- A processed report changes at most the probe statistics of its group. -/
theorem observe_full_breakers (args : ObserveArgs) (site : Site) :
    (observeFull args site).1.brk = Function.update site.brk args.eg
        (probeCounted args (probeOf args site) (site.brk args.eg)) ∧
      (observeFull args site).1.brko = site.brko := by
  have rest := observe_full_undisturbed args site
  have window := window_report_undisturbed args (leaseReport args site).1
  obtain ⟨breakers, tracked, -⟩ := lease_report_breakers args site
  constructor
  · rw [rest.brk]
    simp only [probeReport, Site.setBrk, window.brk, breakers, lease_report_probe]
  · rw [rest.brko]
    exact window.brko.trans tracked

/-- It counts in the bucket of its group, suppressed or late as it may be. -/
theorem observe_full_windows (args : ObserveArgs) (site : Site) :
    (observeFull args site).1.win = (windowReport args site).win := by
  have kept := (lease_report_breakers args site).2.2
  rw [(observe_full_undisturbed args site).win]
  simp only [probeReport, Site.setBrk, windowReport]
  split
  · exact kept
  · rw [kept]

end Spinneret.Worker
