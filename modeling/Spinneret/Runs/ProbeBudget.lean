import Spinneret.Runs.LeaseAccounting
import Spinneret.Runs.ProbeWindow

/-!
# The probe budget of a half-open group

The probe counter is never below the number of leases that the running window
issued and did not take back, so the limit on the counter bounds them. The point
is the refund of an abort that arrives late: it passes the age test of the script
only for a lease that the running window still counts.
-/

namespace Spinneret.Runs

open Spinneret.HotState Spinneret.Lib Spinneret.Scheduler Spinneret.Worker Spinneret.Action
open Spinneret.Breakers

set_option autoImplicit false

/-! ## The invariant -/

/-- What holds of the probe window of a group. A lease issued in the running
window is younger than its roll-over, so an abort that passes the age test of the
refund belongs to a lease that the window counts. -/
structure Budgeted (eg : Hkey) (limit : Nat) (run : SiteRun) : Prop extends Aged eg run where
  current : (run.site.brk eg).st = .halfOpen →
    ∀ lid lease, run.site.ls.lookup lid = some lease → lease.e = eg → lease.pr = true →
      lease.st = .active → (run.site.brk eg).hw ≤ lease.a →
      lid ∈ windowLeases eg run.past ∧ lease.a < (run.site.brk eg).hw + 10000
  charged : (run.site.brk eg).st = .halfOpen →
    (windowLeases eg run.past).length ≤ (run.site.brk eg).hc ∧ (run.site.brk eg).hc ≤ limit
  empty : (run.site.brk eg).st ≠ .halfOpen → windowLeases eg run.past = []

section Step

variable {eg : Hkey} {limit : Nat} {run : SiteRun} {op : SiteOp} {outcome : Outcome}

theorem window_snoc {past : List Event} {event : Event} :
    windowLeases eg (past ++ [event]) = windowStep eg (windowLeases eg past) event := by
  simp [windowLeases, List.foldl_append]

theorem window_step_fresh {event : Event} (held : List LeaseId)
    (window : event.sameWindow eg = false) : windowStep eg held event = event.probesIssued eg := by
  unfold windowStep
  rw [window]
  cases event.aborted <;> rfl

theorem active_not_aborted (performed : perform op run.site = some outcome) {lid : LeaseId}
    {lease : Lease} (found : outcome.site.ls.lookup lid = some lease) (active : lease.st = .active) :
    Event.aborted { op := op, before := run.site, outcome := outcome } ≠ some lid := by
  intro aborts
  unfold Event.aborted at aborts
  split at aborts
  · next args released =>
    obtain ⟨old, aborted, rfl⟩ := Option.map_eq_some_iff.mp aborts
    change op = .release args at released
    subst released
    cases performed
    exact aborted_inactive aborted found active
  · cases aborts

/-- A lease of the window stays in it through a step that does not end the window. -/
theorem window_mem_kept (performed : perform op run.site = some outcome) {lid : LeaseId}
    {lease : Lease} {held : List LeaseId} (found : outcome.site.ls.lookup lid = some lease)
    (active : lease.st = .active) (member : lid ∈ held)
    (window : Event.sameWindow eg { op := op, before := run.site, outcome := outcome } = true) :
    lid ∈ windowStep eg held { op := op, before := run.site, outcome := outcome } := by
  have alive := active_not_aborted performed found active
  simp only [windowStep, window, if_true]
  refine List.mem_append_left _ ?_
  cases aborts : Event.aborted { op := op, before := run.site, outcome := outcome } with
  | none => exact member
  | some other =>
    refine (List.mem_erase_of_ne ?_).mpr member
    rintro rfl
    exact alive aborts

theorem window_step_length (eg : Hkey) (event : Event) (held : List LeaseId) :
    (windowStep eg held event).length ≤ held.length + (event.probesIssued eg).length := by
  have erased : ∀ lid, (held.erase lid).length ≤ held.length := fun lid => List.length_erase_le
  unfold windowStep
  rw [List.length_append]
  cases event.aborted with
  | none => by_cases window : event.sameWindow eg <;> simp [window]
  | some lid => by_cases window : event.sameWindow eg <;> simp [window, erased lid]

theorem Budgeted.current_step (budgeted : Budgeted eg limit run)
    (performed : perform op run.site = some outcome)
    (move : WindowMove eg { op := op, before := run.site, outcome := outcome })
    (half : (outcome.site.brk eg).st = .halfOpen) {lid : LeaseId} {lease : Lease}
    (found : outcome.site.ls.lookup lid = some lease) (group : lease.e = eg)
    (probe : lease.pr = true) (active : lease.st = .active)
    (recent : (outcome.site.brk eg).hw ≤ lease.a) :
    lid ∈ windowStep eg (windowLeases eg run.past)
        { op := op, before := run.site, outcome := outcome } ∧
      lease.a < (outcome.site.brk eg).hw + 10000 := by
  -- an old lease of an unchanged window is counted already
  have carried (before : (run.site.brk eg).st = .halfOpen)
      (window : Event.sameWindow eg { op := op, before := run.site, outcome := outcome } = true)
      {old : Lease} (stored : run.site.ls.lookup lid = some old) (descends : Descends old lease) :
      lid ∈ windowStep eg (windowLeases eg run.past)
          { op := op, before := run.site, outcome := outcome } ∧
        lease.a < (outcome.site.brk eg).hw + 10000 := by
    have same : (outcome.site.brk eg).hw = (run.site.brk eg).hw := (of_decide_eq_true window).2
    rw [descends.issued] at recent ⊢
    rw [same] at recent ⊢
    obtain ⟨member, young⟩ := budgeted.current before lid old stored (descends.group ▸ group)
      (descends.probe ▸ probe) (descends.active active) recent
    exact ⟨window_mem_kept performed found active member window, young⟩
  cases move with
  | keeps state window count same issued idle =>
    dsimp only at state
    rcases lease_traced performed found with ⟨old, stored, descends⟩ | ⟨args, rfl, fresh, replied⟩
    · exact carried (state ▸ half) window stored descends
    · rcases idle args rfl ((congrArg Prod.fst fresh).symm.trans group) with closed | none
      · rw [state, closed] at half
        cases half
      · rw [show outcome.leases = [] from none] at replied
        cases replied
  | refunds released _ _ _ before _ _ window =>
    rcases lease_traced performed found with ⟨old, stored, descends⟩ | ⟨args, rfl, -, -⟩
    · exact carried before window stored descends
    · cases released
  | charges acquires before _ window young =>
    rcases lease_traced performed found with ⟨old, stored, descends⟩ | ⟨args, rfl, fresh, replied⟩
    · exact carried before window stored descends
    · obtain rfl := SiteOp.acquire.inj acquires
      have same : (outcome.site.brk eg).hw = (run.site.brk eg).hw :=
        (of_decide_eq_true window).2
      have issued : lease.a = args.now := congrArg (fun value => value.2.1) fresh
      refine ⟨List.mem_append_right _ ?_, by rw [issued, same]; exact young⟩
      exact issued_probe_listed performed rfl fresh replied group probe
  | starts clock _ window begins older =>
    dsimp only at begins older
    rw [window_step_fresh _ window]
    rcases lease_traced performed found with ⟨old, stored, descends⟩ | ⟨args, rfl, fresh, replied⟩
    · -- every lease from before the new window is too old for it
      rw [begins, descends.issued] at recent
      have sameGroup := descends.group ▸ group
      rcases older with ⟨opened, ends, past, -⟩ | ⟨before, rolls, -⟩
      · have early := budgeted.older opened ends lid old stored sameGroup
        omega
      · by_cases within : (run.site.brk eg).hw ≤ old.a
        · have young := (budgeted.current before lid old stored sameGroup
            (descends.probe ▸ probe) (descends.active active) within).2
          omega
        · omega
    · obtain rfl := Option.some.inj clock
      have issued : lease.a = args.now := congrArg (fun value => value.2.1) fresh
      exact ⟨issued_probe_listed performed rfl fresh replied group probe, by omega⟩
  | leaves _ state => exact absurd half state

theorem Budgeted.charged_step (budgeted : Budgeted eg limit run)
    (limited : ProbeLimited eg limit op)
    (move : WindowMove eg { op := op, before := run.site, outcome := outcome })
    (half : (outcome.site.brk eg).st = .halfOpen) :
    (windowStep eg (windowLeases eg run.past)
        { op := op, before := run.site, outcome := outcome }).length ≤ (outcome.site.brk eg).hc ∧
      (outcome.site.brk eg).hc ≤ limit := by
  set event : Event := { op := op, before := run.site, outcome := outcome }
  have grown := window_step_length eg event (windowLeases eg run.past)
  cases move with
  | keeps state _ count _ issued =>
    have before : (run.site.brk eg).st = .halfOpen := state ▸ half
    have charged := budgeted.charged before
    rw [issued, List.length_nil] at grown
    change (outcome.site.brk eg).hc = (run.site.brk eg).hc at count
    omega
  | @refunds args lease released aborted probe group before recent state window count =>
    have charged := budgeted.charged before
    change (outcome.site.brk eg).hc = max ((run.site.brk eg).hc - 1) 0 at count
    change op = .release args at released
    -- the refund takes back a lease that the window still holds
    obtain ⟨stored, met⟩ := Option.filter_eq_some_iff.mp aborted
    have active : lease.st = .active := by
      simp only [Bool.and_eq_true, decide_eq_true_eq] at met
      exact met.1.1
    have member := (budgeted.current before args.lid lease stored group probe active recent).1
    have erased := List.length_erase_of_mem member
    have positive := List.length_pos_of_mem member
    have aborts : event.aborted = some args.lid := by
      simp [event, Event.aborted, released, aborted]
    have none : event.probesIssued eg = [] := by
      simp [event, Event.probesIssued, released]
    have taken : windowStep eg (windowLeases eg run.past) event =
        (windowLeases eg run.past).erase args.lid := by
      simp [windowStep, window, aborts, none]
    rw [taken]
    omega
  | charges _ before _ _ _ count fits =>
    have charged := budgeted.charged before
    have within := fits limit limited charged.2
    change (outcome.site.brk eg).hc = (run.site.brk eg).hc + (event.probesIssued eg).length
      at count
    exact ⟨by omega, within⟩
  | starts _ _ window _ _ count fits =>
    rw [window_step_fresh _ window]
    exact ⟨count.ge, fits limit limited⟩
  | leaves _ state => exact absurd half state

theorem Budgeted.empty_step (budgeted : Budgeted eg limit run)
    (move : WindowMove eg { op := op, before := run.site, outcome := outcome })
    (other : (outcome.site.brk eg).st ≠ .halfOpen) :
    windowStep eg (windowLeases eg run.past)
      { op := op, before := run.site, outcome := outcome } = [] := by
  set event : Event := { op := op, before := run.site, outcome := outcome }
  cases move with
  | keeps state _ _ _ issued =>
    have before : (run.site.brk eg).st ≠ .halfOpen := state ▸ other
    have grown := window_step_length eg event (windowLeases eg run.past)
    rw [issued, budgeted.empty before] at grown
    rw [budgeted.empty before]
    exact List.length_eq_zero_iff.mp (Nat.le_zero.mp grown)
  | refunds _ _ _ _ before _ state => exact absurd (state.trans before) other
  | charges _ _ state => exact absurd state other
  | starts _ state => exact absurd state other
  | leaves _ _ version leases =>
    rw [window_step_fresh _ (same_window_version version)]
    exact probes_issued_nil leases

end Step

theorem budgeted_step {eg : Hkey} {limit : Nat} {run next : SiteRun} {op : SiteOp}
    (budgeted : Budgeted eg limit run) (clocked : Clocked run op)
    (limited : ProbeLimited eg limit op) (stepped : siteStep run op = some next) :
    Budgeted eg limit next := by
  have aged := aged_step budgeted.toAged clocked stepped
  obtain ⟨outcome, performed, site, past⟩ := site_step_cases stepped
  have move := perform_window eg performed budgeted.shape
  refine ⟨aged, ?current, ?charged, ?empty⟩
  case current =>
    rw [site, past, window_snoc]
    exact fun half lid lease => budgeted.current_step performed move half
  case charged =>
    rw [site, past, window_snoc]
    exact budgeted.charged_step limited move
  case empty =>
    rw [site, past, window_snoc]
    exact budgeted.empty_step move

theorem budgeted_start {eg : Hkey} {limit : Nat} {site : Site} (closed : site.brk = fun _ => {})
    (leaseless : site.ls = ∅) : Budgeted eg limit (SiteRun.start site) where
  toAged := aged_start closed leaseless
  current half := by simp [SiteRun.start, closed] at half
  charged half := by simp [SiteRun.start, closed] at half
  empty _ := rfl

/-! ## Runs -/

/-- What the leases of one event have to do with the breaker of a group: none is
issued while it is effectively open, and while it is half-open a call issues at
most one, which is marked as a probe. -/
structure GateKept (eg : Hkey) (event : Event) : Prop where
  refused : ∀ args, event.op = .acquire args → args.eg = eg →
    effectivelyOpen args.now (event.before.brk eg) = true → event.outcome.leases = []
  probes : ∀ args, event.op = .acquire args → args.eg = eg →
    (event.outcome.site.brk eg).st = .halfOpen →
    event.outcome.leases.length ≤ 1 ∧ ∀ reply ∈ event.outcome.leases, reply.probe = true

theorem gate_kept (eg : Hkey) {op : SiteOp} {site : Site} {outcome : Outcome}
    (performed : perform op site = some outcome) :
    GateKept eg { op := op, before := site, outcome := outcome } := by
  constructor
  · rintro args acquires rfl blocked
    change op = .acquire args at acquires
    subst acquires
    cases performed
    obtain ⟨opened, still⟩ : (site.brk args.eg).st = .opened ∧
        (((site.brk args.eg).ou = 0 ∧ (site.brk args.eg).man = 1) ∨
          args.now < (site.brk args.eg).ou) := by
      simpa [effectivelyOpen] using blocked
    have effect := acquire_gate_effect args site
    by_cases endless : (site.brk args.eg).man = 1 ∧ (site.brk args.eg).ou = 0
    · apply effect.refused 60000
      simp [breakerGate, opened, lazyHalfOpen, endless]
    · have early : args.now < (site.brk args.eg).ou :=
        still.resolve_left fun both => endless ⟨both.2, both.1⟩
      apply effect.refused ((site.brk args.eg).ou - args.now)
      simp [breakerGate, opened, lazyHalfOpen, endless, early]
  · rintro args acquires rfl half
    change op = .acquire args at acquires
    subst acquires
    cases performed
    have effect := acquire_gate_effect args site
    have gated : (breakerGate args (site.brk args.eg)).breaker.st = .halfOpen := by
      have after := congrFun effect.brk args.eg
      rw [Function.update_self] at after
      exact (congrArg Breaker.st after).symm.trans half
    obtain ⟨breaker, transition, passed⟩ := gate_half_open gated
    obtain ⟨probes, single, -, -⟩ := half_open_charge effect passed
    exact ⟨single, List.filter_eq_self.mp probes⟩

/-- The gate and the probe budget: in every run from closed breakers and no leases
with a clock that never goes back and probe limits up to `limit`, no lease is issued on an
effectively open group, a call on a half-open group issues at most one lease and
marks it as a probe, and the probe leases of the running window that were not
aborted stay within the limit. -/
theorem probe_budget {start : Site} {ops : List SiteOp} {final : SiteRun} {eg : Hkey}
    {limit : Nat} (closed : start.brk = fun _ => {}) (leaseless : start.ls = ∅)
    (since : ∀ op ∈ ops, ∀ now, op.clock = some now → 0 ≤ now)
    (ordered : (ops.filterMap SiteOp.clock).Pairwise (· ≤ ·))
    (limited : ∀ op ∈ ops, ProbeLimited eg limit op)
    (reached : Machine.run siteStep (SiteRun.start start) ops = some final) :
    (∀ event ∈ final.past, GateKept eg event) ∧
      (windowLeases eg final.past).length ≤ limit := by
  have guarded : Machine.Under siteStep (fun run op => Clocked run op ∧ ProbeLimited eg limit op)
      (SiteRun.start start) ops :=
    Machine.under_and (clocked_of_pairwise since ordered) limited
  have preserved : ∀ run op next,
      (Budgeted eg limit run ∧ ∀ event ∈ run.past, GateKept eg event) →
      (Clocked run op ∧ ProbeLimited eg limit op) → siteStep run op = some next →
      Budgeted eg limit next ∧ ∀ event ∈ next.past, GateKept eg event := by
    intro run op next before met stepped
    refine ⟨budgeted_step before.1 met.1 met.2 stepped, ?_⟩
    obtain ⟨outcome, performed, -, past⟩ := site_step_cases stepped
    intro event member
    rw [past] at member
    rcases List.mem_append.mp member with old | new
    · exact before.2 event old
    · rw [List.mem_singleton.mp new]
      exact gate_kept eg performed
  have holds := Machine.run_invariant_under preserved
    ⟨budgeted_start closed leaseless, fun event none => absurd none List.not_mem_nil⟩
    guarded reached
  refine ⟨holds.2, ?_⟩
  by_cases half : (final.site.brk eg).st = .halfOpen
  · have charged := holds.1.charged half
    omega
  · rw [holds.1.empty half]
    exact Nat.zero_le _

/-- A timed manual open, two acquires after its end, an abort of the probe and
another acquire in the same window. -/
def probeCycle : List SiteOp :=
  [.setBreaker { eg := 1, now := 1000, op := .openIt, duration := 1000, reason := "" },
    .acquire (plainAcquire 1 1500 "a"), .acquire (plainAcquire 1 3000 "b"),
    .acquire (plainAcquire 1 4000 "c"),
    .release { now := 5000, lid := { lead := "b", shard := 0 }, late := 0, ns := none
               abort := true, windows := [], layout := [] },
    .acquire (plainAcquire 1 6000 "d")]

theorem probe_cycle_within_budget :
    ∃ final, Machine.run siteStep (SiteRun.start soloSite) probeCycle = some final ∧
      final.past.map (fun event => event.outcome.leases.map LeaseReply.lid) =
        [[], [], [{ lead := "b", shard := 0 }], [], [], [{ lead := "d", shard := 0 }]] ∧
      windowLeases 1 final.past = [{ lead := "d", shard := 0 }] ∧
      (windowLeases 1 final.past).length ≤ 1 := by
  refine ⟨_, rfl, by decide +kernel, by decide +kernel, ?_⟩
  have since : ∀ op ∈ probeCycle, ∀ now, op.clock = some now → 0 ≤ now := by
    simp [probeCycle, SiteOp.clock, plainAcquire]
  have ordered : (probeCycle.filterMap SiteOp.clock).Pairwise (· ≤ ·) := by decide
  have limited : ∀ op ∈ probeCycle, ProbeLimited 1 1 op := by
    simp [probeCycle, plainAcquire, ProbeLimited]
  exact (probe_budget rfl rfl since ordered limited rfl).2

end Spinneret.Runs
