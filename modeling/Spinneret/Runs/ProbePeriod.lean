import Spinneret.Runs.LeaseAccounting
import Spinneret.Runs.ProbeWindow

/-!
# Which probes decide a half-open breaker

An evaluation decides a half-open breaker by the probe reports counted in `ps` and
`pk`. A report is counted when it arrives while the breaker is half-open and its
lease is marked as a probe; nothing compares the age of the lease with the start
of the half-open period. The reports counted since the last transition are
collected from the past beside the probe leases issued since then.
-/

namespace Spinneret.Runs

open Spinneret.HotState Spinneret.Lib Spinneret.Scheduler Spinneret.Worker Spinneret.Action
open Spinneret.Breakers

set_option autoImplicit false

/-- The probe reports that an event counts on a group, with whether each is a success. -/
def Event.probesReported (eg : Hkey) (event : Event) : List (LeaseId × Bool) :=
  match event.op with
  | .observe shard sid (some args) =>
    if (event.before.ckpt shard).any fun prev => duplicate prev sid then []
    else if args.eg = eg ∧ probeOf args event.before = true ∧
        (event.before.brk eg).st = .halfOpen then [(args.lid, args.success)]
    else []
  | _ => []

/-- What happened on a group since its last transition. -/
structure Period where
  start : Int := 0
  issued : List LeaseId := []
  reports : List (LeaseId × Bool) := []

def periodStep (eg : Hkey) (period : Period) (event : Event) : Period :=
  let running :=
    if (event.outcome.site.brk eg).v = (event.before.brk eg).v then period
    else { start := event.op.clock.getD 0 }
  { running with
    issued := running.issued ++ event.probesIssued eg
    reports := running.reports ++ event.probesReported eg }

def periodOf (eg : Hkey) (past : List Event) : Period := past.foldl (periodStep eg) {}

/-- The report that a step applies unless it was applied before. -/
def SiteOp.report : SiteOp → Option ObserveArgs
  | .observe _ _ full => full
  | _ => none

/-- A report names the group of its lease, as the worker reads it from the lease
hash, and the report of a probe lease on a half-open breaker, a duplicate included,
is of a lease issued no earlier than the running half-open period began. -/
structure ReportsCurrent (run : SiteRun) (op : SiteOp) : Prop where
  group : ∀ args lease, op.report = some args → run.site.ls.lookup args.lid = some lease →
    lease.e = args.eg
  recent : ∀ args lease, op.report = some args → run.site.ls.lookup args.lid = some lease →
    lease.pr = true → (run.site.brk args.eg).st = .halfOpen →
    (periodOf args.eg run.past).start ≤ lease.a

theorem reports_current_of_silent {run : SiteRun} {op : SiteOp} (silent : op.report = none) :
    ReportsCurrent run op := by
  constructor
  · intro args lease report
    rw [silent] at report
    cases report
  · intro args lease report
    rw [silent] at report
    cases report

theorem reports_current_of_lease {run : SiteRun} {op : SiteOp} {args : ObserveArgs}
    (report : op.report = some args)
    (recent : ∀ lease ∈ run.site.ls.lookup args.lid,
      lease.e = args.eg ∧ (periodOf args.eg run.past).start ≤ lease.a) :
    ReportsCurrent run op := by
  constructor
  · intro other lease reports found
    obtain rfl := Option.some.inj (report.symm.trans reports)
    exact (recent lease found).1
  · intro other lease reports found _ _
    obtain rfl := Option.some.inj (report.symm.trans reports)
    exact (recent lease found).2

/-! ## Statistics -/

/-- A transition clears the probe statistics and counts nothing; every other event
adds the reports it counts. -/
structure Counts (eg : Hkey) (event : Event) : Prop where
  kept : (event.outcome.site.brk eg).v = (event.before.brk eg).v →
    (event.outcome.site.brk eg).ps =
        (event.before.brk eg).ps + (event.probesReported eg).length ∧
      (event.outcome.site.brk eg).pk =
        (event.before.brk eg).pk + (event.probesReported eg).countP Prod.snd
  cleared : (event.outcome.site.brk eg).v ≠ (event.before.brk eg).v →
    (event.outcome.site.brk eg).ps = 0 ∧ (event.outcome.site.brk eg).pk = 0 ∧
      event.probesReported eg = []

section Counting

variable {eg : Hkey} {event : Event}

theorem counts_of_same (same : event.outcome.site.brk eg = event.before.brk eg)
    (none : event.probesReported eg = []) : Counts eg event := by
  constructor
  · intro _
    simp [same, none]
  · intro moved
    exact absurd (congrArg Breaker.v same) moved

theorem counts_of_statistics {breaker : Breaker} (after : event.outcome.site.brk eg = breaker)
    (version : breaker.v = (event.before.brk eg).v) (ps : breaker.ps = (event.before.brk eg).ps)
    (pk : breaker.pk = (event.before.brk eg).pk) (none : event.probesReported eg = []) :
    Counts eg event := by
  subst after
  constructor
  · intro _
    simp [ps, pk, none]
  · exact fun moved => absurd version moved

theorem counts_of_cleared {breaker : Breaker} (after : event.outcome.site.brk eg = breaker)
    (version : breaker.v = (event.before.brk eg).v + 1) (ps : breaker.ps = 0)
    (pk : breaker.pk = 0) (none : event.probesReported eg = []) : Counts eg event := by
  subst after
  constructor
  · intro same
    omega
  · exact fun _ => ⟨ps, pk, none⟩

/-- The gate keeps the probe statistics or clears them with its lazy step. -/
theorem gate_statistics (args : AcquireArgs) (breaker : Breaker) :
    ((breakerGate args breaker).breaker.v = breaker.v ∧
      (breakerGate args breaker).breaker.ps = breaker.ps ∧
      (breakerGate args breaker).breaker.pk = breaker.pk) ∨
    ((breakerGate args breaker).breaker.v = breaker.v + 1 ∧
      (breakerGate args breaker).breaker.ps = 0 ∧
      (breakerGate args breaker).breaker.pk = 0) := by
  have rolled (breaker : Breaker) (transition : Bool) :
      (halfOpenGate args breaker transition).breaker.v = breaker.v ∧
        (halfOpenGate args breaker transition).breaker.ps = breaker.ps ∧
        (halfOpenGate args breaker transition).breaker.pk = breaker.pk := by
    simp only [halfOpenGate, rollProbeWindow]
    split_ifs <;> exact ⟨rfl, rfl, rfl⟩
  unfold breakerGate
  split
  · exact .inl ⟨rfl, rfl, rfl⟩
  · exact .inl (rolled breaker false)
  · split
    · exact .inl ⟨rfl, rfl, rfl⟩
    · next halved lazily =>
      unfold lazyHalfOpen at lazily
      split_ifs at lazily
      cases lazily
      exact .inr (rolled _ true)

theorem observed_counts {shard : Nat} {sid : StreamId} {args : ObserveArgs} {site : Site} :
    Counts eg
      { op := .observe shard sid (some args), before := site
        outcome := { site := (Worker.observe shard sid (some args) site).1 } } := by
  cases seen : (site.ckpt shard).any fun prev => duplicate prev sid with
  | true =>
    apply counts_of_same
    · simp [Worker.observe, seen]
    · simp [Event.probesReported, seen]
  | false =>
    have written := (observe_full_breakers args
      { site with ckpt := Function.update site.ckpt shard (some sid) }).1
    have after : (Worker.observe shard sid (some args) site).1.brk =
        Function.update site.brk args.eg
          (probeCounted args (probeOf args site) (site.brk args.eg)) := by
      simp only [Worker.observe, seen]
      exact written
    by_cases here : args.eg = eg
    · subst here
      have counted := congrFun after args.eg
      rw [Function.update_self, probeCounted] at counted
      by_cases probe : probeOf args site = true ∧ (site.brk args.eg).st = .halfOpen
      · rw [if_pos probe] at counted
        have reported : Event.probesReported args.eg
            { op := .observe shard sid (some args), before := site
              outcome := { site := (Worker.observe shard sid (some args) site).1 } } =
            [(args.lid, args.success)] := by
          simp [Event.probesReported, seen, probe]
        constructor
        · intro _
          rw [reported]
          simp only [counted, List.length_singleton]
          cases args.success <;> simp
        · intro moved
          simp [counted] at moved
      · rw [if_neg probe] at counted
        refine counts_of_same counted ?_
        simp only [Event.probesReported, seen, true_and, if_neg probe]
        rfl
    · refine counts_of_same ?_ ?_
      · exact (congrFun after eg).trans (Function.update_of_ne (Ne.symm here) _ _)
      · simp [Event.probesReported, here]

end Counting

theorem perform_counts (eg : Hkey) {op : SiteOp} {site : Site} {outcome : Outcome}
    (performed : perform op site = some outcome) :
    Counts eg { op := op, before := site, outcome := outcome } := by
  by_cases observes : ∃ shard sid args, op = .observe shard sid (some args)
  · obtain ⟨shard, sid, args, rfl⟩ := observes
    cases performed
    exact observed_counts
  have none : Event.probesReported eg { op := op, before := site, outcome := outcome } = [] := by
    unfold Event.probesReported
    split
    · next shard sid args same => exact absurd ⟨shard, sid, args, same⟩ observes
    · rfl
  cases perform_breakers performed with
  | still _ same _ _ => exact counts_of_same (congrFun same.brk eg) none
  | @gated args _ gate _ =>
    have after := congrFun gate.brk eg
    by_cases here : eg = args.eg
    · subst here
      rw [Function.update_self, breakerAcquired] at after
      rcases gate_statistics args (site.brk args.eg) with ⟨version, ps, pk⟩ | ⟨version, ps, pk⟩
      · exact counts_of_statistics after version ps pk none
      · exact counts_of_cleared after version ps pk none
    · rw [Function.update_of_ne here] at after
      exact counts_of_same after none
  | @refunded args _ lease _ _ brk _ _ _ =>
    have after := congrFun brk eg
    by_cases here : eg = lease.e
    · subst here
      rw [Function.update_self, probeRefund] at after
      split at after
      · exact counts_of_statistics after rfl rfl rfl none
      · exact counts_of_same after none
    · rw [Function.update_of_ne here] at after
      exact counts_of_same after none
  | reported => exact absurd ⟨_, _, _, rfl⟩ observes
  | @evaluated args _ _ brk _ _ _ =>
    have after := congrFun brk eg
    by_cases here : eg = args.eg
    · subst here
      rw [Function.update_self] at after
      have evaluates := eval_breaker_evaluates args (windowSum args site (site.brk args.eg).lc)
        (site.brk args.eg)
      generalize evalBreaker args (windowSum args site (site.brk args.eg).lc)
        (site.brk args.eg) = evaluated at evaluates after
      cases evaluates with
      | catchUp pending =>
        exact counts_of_statistics after rfl rfl rfl none
      | keeps settled => exact counts_of_same after none
      | closes settled reason trigger =>
        exact counts_of_cleared after rfl rfl rfl none
      | opens settled reason trigger oc =>
        exact counts_of_cleared after rfl rfl rfl none
      | halves opened due =>
        exact counts_of_cleared after rfl rfl rfl none
    · rw [Function.update_of_ne here] at after
      exact counts_of_same after none
  | @operated args _ written changed brk _ _ _ =>
    have after := congrFun brk eg
    by_cases here : eg = args.eg
    · subst here
      rw [Function.update_self] at after
      unfold Breakers.setBreaker at changed
      split at changed
      · obtain rfl := Option.some.inj changed
        exact counts_of_cleared after rfl rfl rfl none
      · split at changed
        · cases changed
        · obtain rfl := Option.some.inj changed
          exact counts_of_cleared after rfl rfl rfl none
    · rw [Function.update_of_ne here] at after
      exact counts_of_same after none
  | unchanged _ same _ _ => exact counts_of_same (congrFun same.brk eg) none

/-! ## Provenance -/

/-- The statistics of a group are the reports of the running period, every one of
them is of a lease issued in it, and so is every probe lease of a half-open group
that is not older than the period. -/
structure Provenance (eg : Hkey) (run : SiteRun) : Prop extends Aged eg run where
  counted : (run.site.brk eg).ps = (periodOf eg run.past).reports.length ∧
    (run.site.brk eg).pk = (periodOf eg run.past).reports.countP Prod.snd
  own : ∀ report ∈ (periodOf eg run.past).reports, report.1 ∈ (periodOf eg run.past).issued
  recent : (run.site.brk eg).st = .halfOpen →
    ∀ lid lease, run.site.ls.lookup lid = some lease → lease.e = eg → lease.pr = true →
      (periodOf eg run.past).start ≤ lease.a → lid ∈ (periodOf eg run.past).issued

section Step

variable {eg : Hkey} {run : SiteRun} {op : SiteOp} {outcome : Outcome}

theorem period_snoc {past : List Event} {event : Event} :
    periodOf eg (past ++ [event]) = periodStep eg (periodOf eg past) event := by
  simp [periodOf, List.foldl_append]

theorem period_step_same {event : Event} (period : Period)
    (version : (event.outcome.site.brk eg).v = (event.before.brk eg).v) :
    periodStep eg period event =
      { period with
        issued := period.issued ++ event.probesIssued eg
        reports := period.reports ++ event.probesReported eg } := by
  simp only [periodStep, if_pos version]

theorem period_step_moved {event : Event} (period : Period)
    (version : (event.outcome.site.brk eg).v ≠ (event.before.brk eg).v) :
    periodStep eg period event =
      { start := event.op.clock.getD 0
        issued := event.probesIssued eg
        reports := event.probesReported eg } := by
  simp only [periodStep, if_neg version, List.nil_append]

/-- The lease of a counted report is a probe of a half-open group. -/
theorem reported_lease {event : Event} {report : LeaseId × Bool}
    (member : report ∈ event.probesReported eg) :
    ∃ args lease, event.op.report = some args ∧ args.eg = eg ∧
      event.before.ls.lookup report.1 = some lease ∧ args.lid = report.1 ∧ lease.pr = true ∧
      (event.before.brk eg).st = .halfOpen := by
  unfold Event.probesReported at member
  split at member
  · next shard sid args observes =>
    split_ifs at member with seen counted
    · cases member
    · obtain ⟨group, probe, half⟩ := counted
      obtain rfl := List.mem_singleton.mp member
      unfold probeOf at probe
      cases found : event.before.ls.lookup args.lid with
      | none => simp [found] at probe
      | some lease =>
        refine ⟨args, lease, by rw [observes]; rfl, group, rfl, rfl, ?_, half⟩
        simpa [found] using probe
    · cases member
  · cases member

theorem Provenance.own_step (provenance : Provenance eg run) (current : ReportsCurrent run op)
    (counts : Counts eg { op := op, before := run.site, outcome := outcome }) :
    ∀ report ∈ (periodStep eg (periodOf eg run.past)
        { op := op, before := run.site, outcome := outcome }).reports,
      report.1 ∈ (periodStep eg (periodOf eg run.past)
        { op := op, before := run.site, outcome := outcome }).issued := by
  intro report member
  by_cases version : (outcome.site.brk eg).v = (run.site.brk eg).v
  · rw [period_step_same _ version] at member ⊢
    refine List.mem_append_left _ ?_
    rcases List.mem_append.mp member with old | new
    · exact provenance.own report old
    · obtain ⟨args, lease, reports, rfl, found, lid, probe, half⟩ := reported_lease new
      dsimp only at reports found half
      rw [← lid] at found ⊢
      exact provenance.recent half args.lid lease found (current.group args lease reports found)
        probe (current.recent args lease reports found probe half)
  · rw [period_step_moved _ version, (counts.cleared version).2.2] at member
    cases member

theorem Provenance.counted_step (provenance : Provenance eg run)
    (counts : Counts eg { op := op, before := run.site, outcome := outcome }) :
    (outcome.site.brk eg).ps = (periodStep eg (periodOf eg run.past)
        { op := op, before := run.site, outcome := outcome }).reports.length ∧
      (outcome.site.brk eg).pk = (periodStep eg (periodOf eg run.past)
        { op := op, before := run.site, outcome := outcome }).reports.countP Prod.snd := by
  obtain ⟨ps, pk⟩ := provenance.counted
  by_cases version : (outcome.site.brk eg).v = (run.site.brk eg).v
  · obtain ⟨psAfter, pkAfter⟩ := counts.kept version
    dsimp only at psAfter pkAfter
    rw [period_step_same _ version, psAfter, pkAfter, ps, pk]
    simp
  · obtain ⟨psAfter, pkAfter, none⟩ := counts.cleared version
    rw [period_step_moved _ version, none]
    exact ⟨psAfter, pkAfter⟩

theorem Provenance.recent_step (provenance : Provenance eg run)
    (performed : perform op run.site = some outcome)
    (half : (outcome.site.brk eg).st = .halfOpen) {lid : LeaseId} {lease : Lease}
    (found : outcome.site.ls.lookup lid = some lease) (group : lease.e = eg)
    (probe : lease.pr = true)
    (young : (periodStep eg (periodOf eg run.past)
      { op := op, before := run.site, outcome := outcome }).start ≤ lease.a) :
    lid ∈ (periodStep eg (periodOf eg run.past)
      { op := op, before := run.site, outcome := outcome }).issued := by
  have move := perform_window eg performed provenance.shape
  rcases lease_traced performed found with ⟨old, stored, descends⟩ | ⟨args, rfl, fresh, replied⟩
  · -- an old lease is in the running period, or too old for the period that begins
    have carried (before : (run.site.brk eg).st = .halfOpen)
        (version : (outcome.site.brk eg).v = (run.site.brk eg).v) :
        lid ∈ (periodStep eg (periodOf eg run.past)
          { op := op, before := run.site, outcome := outcome }).issued := by
      rw [period_step_same _ version] at young ⊢
      refine List.mem_append_left _ ?_
      exact provenance.recent before lid old stored (descends.group ▸ group)
        (descends.probe ▸ probe) (descends.issued ▸ young)
    cases move with
    | keeps state window _ _ _ _ =>
      exact carried (Eq.trans (Eq.symm state) half) (of_decide_eq_true window).1
    | refunds _ _ _ _ before _ _ window => exact carried before (of_decide_eq_true window).1
    | charges _ before _ window => exact carried before (of_decide_eq_true window).1
    | starts clock _ _ _ older =>
      dsimp only at clock older
      rcases older with ⟨opened, ends, past, version⟩ | ⟨before, -, version⟩
      · have moved : (outcome.site.brk eg).v ≠ (run.site.brk eg).v := by omega
        rw [period_step_moved _ moved, descends.issued] at young
        simp only [clock, Option.getD_some] at young
        have early := provenance.older opened ends lid old stored (descends.group ▸ group)
        omega
      · exact carried before version
    | leaves _ state => exact absurd half state
  · have listed := issued_probe_listed performed rfl fresh replied group probe
    by_cases version : (outcome.site.brk eg).v = (run.site.brk eg).v
    · rw [period_step_same _ version]
      exact List.mem_append_right _ listed
    · rw [period_step_moved _ version]
      exact listed

end Step

theorem provenance_step {eg : Hkey} {run next : SiteRun} {op : SiteOp}
    (provenance : Provenance eg run) (clocked : Clocked run op) (current : ReportsCurrent run op)
    (stepped : siteStep run op = some next) : Provenance eg next := by
  have aged := aged_step provenance.toAged clocked stepped
  obtain ⟨outcome, performed, site, past⟩ := site_step_cases stepped
  have counts := perform_counts eg performed
  refine ⟨aged, ?counted, ?own, ?recent⟩
  case counted =>
    rw [site, past, period_snoc]
    exact provenance.counted_step counts
  case own =>
    rw [past, period_snoc]
    exact provenance.own_step current counts
  case recent =>
    rw [site, past, period_snoc]
    exact fun half lid lease => provenance.recent_step performed half

theorem provenance_start {eg : Hkey} {site : Site} (closed : site.brk = fun _ => {})
    (leaseless : site.ls = ∅) : Provenance eg (SiteRun.start site) where
  toAged := aged_start closed leaseless
  counted := by simp [SiteRun.start, closed, periodOf]
  own report none := absurd none List.not_mem_nil
  recent half := by simp [SiteRun.start, closed] at half

/-! ## Decisions -/

/-- An evaluation that finds the group half-open decides by reports of probe leases
issued since the group became half-open. -/
def DecidedByCurrentProbes (eg : Hkey) (earlier : List Event) (event : Event) : Prop :=
  ∀ args, event.op = .evalBreaker args → args.eg = eg → (event.before.brk eg).st = .halfOpen →
    (event.before.brk eg).ps = (periodOf eg earlier).reports.length ∧
    (event.before.brk eg).pk = (periodOf eg earlier).reports.countP Prod.snd ∧
    ∀ report ∈ (periodOf eg earlier).reports, report.1 ∈ (periodOf eg earlier).issued

/-- In every run from closed breakers and no leases with a clock that never goes
back, in which no report of a probe lease older than the running half-open period
is counted, every half-open decision rests on current probes alone. -/
theorem half_open_decided_by_current_probes {start : Site} {ops : List SiteOp} {final : SiteRun}
    {eg : Hkey} (closed : start.brk = fun _ => {}) (leaseless : start.ls = ∅)
    (since : ∀ op ∈ ops, ∀ now, op.clock = some now → 0 ≤ now)
    (ordered : (ops.filterMap SiteOp.clock).Pairwise (· ≤ ·))
    (current : Machine.Under siteStep ReportsCurrent (SiteRun.start start) ops)
    (reached : Machine.run siteStep (SiteRun.start start) ops = some final) :
    ∀ earlier event later, final.past = earlier ++ event :: later →
      DecidedByCurrentProbes eg earlier event := by
  have guarded : Machine.Under siteStep (fun run op => Clocked run op ∧ ReportsCurrent run op)
      (SiteRun.start start) ops :=
    Machine.under_both (clocked_of_pairwise since ordered) current
  have preserved : ∀ run op next,
      (Provenance eg run ∧ ∀ earlier event later, run.past = earlier ++ event :: later →
        DecidedByCurrentProbes eg earlier event) →
      (Clocked run op ∧ ReportsCurrent run op) → siteStep run op = some next →
      Provenance eg next ∧ ∀ earlier event later, next.past = earlier ++ event :: later →
        DecidedByCurrentProbes eg earlier event := by
    intro run op next before met stepped
    refine ⟨provenance_step before.1 met.1 met.2 stepped, ?_⟩
    obtain ⟨outcome, performed, -, past⟩ := site_step_cases stepped
    intro earlier event later split
    rw [past] at split
    rcases snoc_split split with ⟨rfl, rfl⟩ | ⟨between, inside⟩
    · exact fun args _ _ _ => ⟨before.1.counted.1, before.1.counted.2, before.1.own⟩
    · exact before.2 earlier event between inside
  have holds := Machine.run_invariant_under preserved
    ⟨provenance_start closed leaseless, by
      intro earlier event later split
      cases earlier <;> cases split⟩
    guarded reached
  exact holds.2

def openOne (now : Int) : SiteOp :=
  .setBreaker { eg := 1, now := now, op := .openIt, duration := 1000, reason := "" }

def evalOne (now : Int) : SiteOp := .evalBreaker { defaultEval 1 now with closeMin := 1 }

/-- A probe lease of one half-open period is reported in the same period. -/
def probeReported : List SiteOp :=
  [openOne 1000, evalOne 3000, .acquire (plainAcquire 1 4000 "a"),
    .observe 0 { ms := 1, seq := 0 } (some (successReport 5000 soloLease)), evalOne 6000]

theorem probe_report_decides :
    ∃ final, Machine.run siteStep (SiteRun.start soloSite) probeReported = some final ∧
      (final.site.brk 1).st = .closed ∧
      ∀ earlier event later, final.past = earlier ++ event :: later →
        DecidedByCurrentProbes 1 earlier event := by
  refine ⟨_, rfl, by decide +kernel, ?_⟩
  have since : ∀ op ∈ probeReported, ∀ now, op.clock = some now → 0 ≤ now := by
    simp [probeReported, openOne, evalOne, SiteOp.clock, plainAcquire, defaultEval,
      successReport]
  have ordered : (probeReported.filterMap SiteOp.clock).Pairwise (· ≤ ·) := by decide
  have current : Machine.Under siteStep ReportsCurrent (SiteRun.start soloSite)
      probeReported := by
    refine Machine.under_cons rfl (reports_current_of_silent rfl) ?_
    refine Machine.under_cons rfl (reports_current_of_silent rfl) ?_
    refine Machine.under_cons rfl (reports_current_of_silent rfl) ?_
    refine Machine.under_cons rfl (reports_current_of_lease rfl (by decide +kernel)) ?_
    exact Machine.under_cons rfl (reports_current_of_silent rfl) trivial
  exact half_open_decided_by_current_probes rfl rfl since ordered current rfl

/-- The breaker opens again before the report of the probe lease arrives. -/
def staleProbe : List SiteOp :=
  [openOne 1000, evalOne 3000, .acquire (plainAcquire 1 4000 "a"), openOne 5000,
    evalOne 7000, .observe 0 { ms := 1, seq := 0 } (some (successReport 8000 soloLease)),
    evalOne 9000]

/-- A probe lease of an earlier half-open period closes the breaker although no
lease was issued in the period that the evaluation decides. -/
theorem stale_probe_closes :
    (staleProbe.filterMap SiteOp.clock).Pairwise (· ≤ ·) ∧
    (Machine.run siteStep (SiteRun.start soloSite) staleProbe).map
        (fun run => (run.past.getLast?.map fun event =>
          ((event.before.brk 1).st, (event.before.brk 1).ps, (event.outcome.site.brk 1).st),
          (periodOf 1 run.past.dropLast).reports, (periodOf 1 run.past.dropLast).issued)) =
      some (some (.halfOpen, 1, .closed), [(soloLease, true)], []) :=
  ⟨by decide, by decide +kernel⟩

end Spinneret.Runs
