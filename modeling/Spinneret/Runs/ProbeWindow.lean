import Spinneret.Runs.BreakerHistory
import Spinneret.Runs.LeaseTrace

/-!
# Probe windows

A half-open breaker counts the probe leases of the running window in `hc`. The
counter is raised by acquire, reset when the window rolls over, lowered by an
abort of a lease of this window and reset by transitions. Which of these an event
is to a group is said here once, next to the leases that were really issued in the
window and not aborted, which are collected from the past.
-/

namespace Spinneret.Runs

open Spinneret.HotState Spinneret.Lib Spinneret.Scheduler Spinneret.Worker Spinneret.Action
open Spinneret.Breakers

set_option autoImplicit false

/-! ## Clocks -/

def SiteRun.times (run : SiteRun) : List Int := run.past.filterMap fun event => event.op.clock

/-- The clock of a step is not negative and not behind an earlier one. -/
def Clocked (run : SiteRun) (op : SiteOp) : Prop :=
  ∀ now, op.clock = some now → 0 ≤ now ∧ ∀ earlier ∈ run.times, earlier ≤ now

theorem times_step {run next : SiteRun} {op : SiteOp} (stepped : siteStep run op = some next) :
    next.times = run.times ++ op.clock.toList := by
  obtain ⟨outcome, -, -, past⟩ := site_step_cases stepped
  cases clock : op.clock <;> simp [SiteRun.times, past, clock]

theorem filter_map_clock_cons (op : SiteOp) (rest : List SiteOp) :
    (op :: rest).filterMap SiteOp.clock = op.clock.toList ++ rest.filterMap SiteOp.clock := by
  cases clock : op.clock <;> simp [clock]

/-- Non-decreasing clock values make every step of a run clocked. -/
theorem clocked_of_pairwise {run : SiteRun} {ops : List SiteOp}
    (since : ∀ op ∈ ops, ∀ now, op.clock = some now → 0 ≤ now)
    (ordered : (run.times ++ ops.filterMap SiteOp.clock).Pairwise (· ≤ ·)) :
    Machine.Under siteStep Clocked run ops := by
  induction ops generalizing run with
  | nil => trivial
  | cons op rest ih =>
    rw [filter_map_clock_cons, ← List.append_assoc] at ordered
    refine ⟨fun now clock => ⟨since op List.mem_cons_self now clock, ?_⟩, fun next stepped => ?_⟩
    · intro earlier member
      have first := (List.pairwise_append.mp (List.pairwise_append.mp ordered).1).2.2
      exact first earlier member now (by simp [clock])
    · rw [← times_step stepped] at ordered
      exact ih (fun later member => since later (List.mem_cons_of_mem _ member)) ordered

/-! ## The leases of a probe window -/

def Event.aborted (event : Event) : Option LeaseId :=
  match event.op with
  | .release args => (abortedLease args event.before).map fun _ => args.lid
  | _ => none

def Event.probesIssued (eg : Hkey) (event : Event) : List LeaseId :=
  match event.op with
  | .acquire args =>
    if args.eg = eg then (event.outcome.leases.filter LeaseReply.probe).map LeaseReply.lid
    else []
  | _ => []

/-- The event is neither a transition of the group nor a roll-over of its window. -/
def Event.sameWindow (eg : Hkey) (event : Event) : Bool :=
  decide ((event.outcome.site.brk eg).v = (event.before.brk eg).v ∧
    (event.outcome.site.brk eg).hw = (event.before.brk eg).hw)

def windowStep (eg : Hkey) (held : List LeaseId) (event : Event) : List LeaseId :=
  let current := if event.sameWindow eg then held else []
  event.aborted.elim current current.erase ++ event.probesIssued eg

/-- The probe leases of the running window that were issued and not aborted. -/
def windowLeases (eg : Hkey) (past : List Event) : List LeaseId :=
  past.foldl (windowStep eg) []

/-- A step that acquires on the group does so under a probe limit of at most `limit`. -/
def ProbeLimited (eg : Hkey) (limit : Nat) (op : SiteOp) : Prop :=
  ∀ args, op = .acquire args → args.eg = eg → args.probeLimit ≤ limit

/-- What an event is to the probe window of a group. -/
inductive WindowMove (eg : Hkey) (event : Event) : Prop where
  | keeps (state : (event.outcome.site.brk eg).st = (event.before.brk eg).st)
      (window : event.sameWindow eg = true)
      (count : (event.outcome.site.brk eg).hc = (event.before.brk eg).hc)
      (ends : (event.outcome.site.brk eg).ou = (event.before.brk eg).ou ∨
        (event.outcome.site.brk eg).ou = 0)
      (issued : event.probesIssued eg = [])
      (idle : ∀ args, event.op = .acquire args → args.eg = eg →
        (event.before.brk eg).st = .closed ∨ event.outcome.leases = [])
  | refunds {args : ReleaseArgs} {lease : Lease} (release : event.op = .release args)
      (aborted : abortedLease args event.before = some lease) (probe : lease.pr = true)
      (group : lease.e = eg) (half : (event.before.brk eg).st = .halfOpen)
      (current : (event.before.brk eg).hw ≤ lease.a)
      (state : (event.outcome.site.brk eg).st = (event.before.brk eg).st)
      (window : event.sameWindow eg = true)
      (count : (event.outcome.site.brk eg).hc = max ((event.before.brk eg).hc - 1) 0)
  | charges {args : AcquireArgs} (acquire : event.op = .acquire args)
      (half : (event.before.brk eg).st = .halfOpen)
      (state : (event.outcome.site.brk eg).st = .halfOpen)
      (window : event.sameWindow eg = true) (young : args.now < (event.before.brk eg).hw + 10000)
      (count : (event.outcome.site.brk eg).hc =
        (event.before.brk eg).hc + (event.probesIssued eg).length)
      (fits : ∀ limit, ProbeLimited eg limit event.op → (event.before.brk eg).hc ≤ limit →
        (event.outcome.site.brk eg).hc ≤ limit)
  | starts {now : Int} (clock : event.op.clock = some now)
      (state : (event.outcome.site.brk eg).st = .halfOpen)
      (window : event.sameWindow eg = false) (begins : (event.outcome.site.brk eg).hw = now)
      (older : ((event.before.brk eg).st = .opened ∧ 0 < (event.before.brk eg).ou ∧
          (event.before.brk eg).ou ≤ now ∧
          (event.outcome.site.brk eg).v = (event.before.brk eg).v + 1) ∨
        ((event.before.brk eg).st = .halfOpen ∧ (event.before.brk eg).hw + 10000 ≤ now ∧
          (event.outcome.site.brk eg).v = (event.before.brk eg).v))
      (count : (event.outcome.site.brk eg).hc = (event.probesIssued eg).length)
      (fits : ∀ limit, ProbeLimited eg limit event.op → (event.outcome.site.brk eg).hc ≤ limit)
  | leaves {now : Int} (clock : event.op.clock = some now)
      (state : (event.outcome.site.brk eg).st ≠ .halfOpen)
      (version : (event.outcome.site.brk eg).v = (event.before.brk eg).v + 1)
      (leases : event.outcome.leases = [])
      (ends : 0 < (event.outcome.site.brk eg).ou → now < (event.outcome.site.brk eg).ou)

/-! ## Which move an event is -/

variable {args : AcquireArgs} {site : Site} {lease : Lease} {lid : LeaseId}

section Moves

variable {eg : Hkey} {event : Event}

theorem same_window_version
    (version : (event.outcome.site.brk eg).v = (event.before.brk eg).v + 1) :
    event.sameWindow eg = false := by
  simp only [Event.sameWindow, version, decide_eq_false_iff_not]
  omega

theorem probes_issued_nil (leases : event.outcome.leases = []) : event.probesIssued eg = [] := by
  unfold Event.probesIssued
  split
  · simp [leases]
  · rfl

theorem keeps_of_same (same : event.outcome.site.brk eg = event.before.brk eg)
    (issued : event.probesIssued eg = [])
    (idle : ∀ args, event.op = .acquire args → args.eg = eg →
      (event.before.brk eg).st = .closed ∨ event.outcome.leases = []) :
    WindowMove eg event := by
  refine .keeps ?_ ?_ ?_ (.inl ?_) issued idle
  · rw [same]
  · simp [Event.sameWindow, same]
  · rw [same]
  · rw [same]

theorem keeps_of_no_lease (same : event.outcome.site.brk eg = event.before.brk eg)
    (leases : event.outcome.leases = []) : WindowMove eg event :=
  keeps_of_same same (probes_issued_nil leases) fun _ _ _ => .inr leases

/-- A call through the gate of a half-open breaker charges what it issues, within
the limit. -/
theorem half_open_charge {site after : Site} {leases : List LeaseReply} {breaker : Breaker}
    {transition : Bool} (gate : GateEffect args site after leases)
    (half : breakerGate args (site.brk args.eg) = halfOpenGate args breaker transition) :
    leases.filter LeaseReply.probe = leases ∧ leases.length ≤ 1 ∧
    after.brk args.eg = { rollProbeWindow args.now breaker with
      hc := (rollProbeWindow args.now breaker).hc + leases.length } ∧
    (rollProbeWindow args.now breaker).hc + leases.length ≤
      max (rollProbeWindow args.now breaker).hc args.probeLimit := by
  set rolled := rollProbeWindow args.now breaker with window
  have gated : (breakerGate args (site.brk args.eg)).breaker = rolled := by rw [half]; rfl
  have after_eq := congrFun gate.brk args.eg
  rw [Function.update_self, breakerAcquired, gated] at after_eq
  by_cases full : args.probeLimit ≤ rolled.hc
  · have verdict : (breakerGate args (site.brk args.eg)).verdict =
        .inl (max (rolled.hw + probeWindow - args.now) 1) := by
      rw [half]
      exact if_pos full
    have none : leases = [] := gate.refused _ verdict
    subst none
    refine ⟨rfl, Nat.zero_le _, ?_, by simp⟩
    rw [after_eq]
    simp
  · have verdict : (breakerGate args (site.brk args.eg)).verdict = .inr true := by
      rw [half]
      exact if_neg full
    have probes : probing args (site.brk args.eg) = true := by simp only [probing, verdict]
    have single := gate.single probes
    refine ⟨?_, single, ?_, ?_⟩
    · rw [List.filter_eq_self]
      intro reply member
      rw [gate.marked reply member, probes]
    · rw [after_eq, probes, if_pos rfl]
    · omega

theorem gate_half_open {breaker : Breaker}
    (half : (breakerGate args breaker).breaker.st = .halfOpen) :
    ∃ opened transition, breakerGate args breaker = halfOpenGate args opened transition := by
  cases state : breaker.st with
  | closed => simp [breakerGate, state] at half
  | halfOpen => exact ⟨breaker, false, by simp only [breakerGate, state]⟩
  | opened =>
    cases lazily : lazyHalfOpen args.now breaker with
    | inr retry => simp [breakerGate, state, lazily] at half
    | inl halved => exact ⟨halved, true, by simp only [breakerGate, state, lazily]⟩

theorem gated_window {outcome : Outcome} (gate : GateEffect args site outcome.site outcome.leases)
    (shape : BreakerShape (site.brk eg)) :
    WindowMove eg { op := .acquire args, before := site, outcome := outcome } := by
  by_cases here : args.eg = eg
  · subst here
    cases state : (site.brk args.eg).st with
    | closed =>
      have passed : breakerGate args (site.brk args.eg) =
          { breaker := site.brk args.eg, transition := false, verdict := .inr false } := by
        simp only [breakerGate, state]
      have plain : probing args (site.brk args.eg) = false := by simp only [probing, passed]
      refine keeps_of_same ?_ ?_ fun _ _ _ => .inl state
      · show outcome.site.brk args.eg = site.brk args.eg
        rw [gate.brk, Function.update_self, breakerAcquired, passed, plain]
        simp
      · simp only [Event.probesIssued, if_true, List.map_eq_nil_iff, List.filter_eq_nil_iff]
        intro reply member
        rw [gate.marked reply member, plain]
        decide
    | halfOpen =>
      have half : breakerGate args (site.brk args.eg) =
          halfOpenGate args (site.brk args.eg) false := by
        simp only [breakerGate, state]
      obtain ⟨probes, -, after, room⟩ := half_open_charge gate half
      have issued : (Event.probesIssued args.eg
          { op := .acquire args, before := site, outcome := outcome }).length =
            outcome.leases.length := by
        simp only [Event.probesIssued, if_true, List.length_map, probes]
      by_cases rolls : probeWindow ≤ args.now - (site.brk args.eg).hw
      · simp only [rollProbeWindow, if_pos rolls] at after room
        simp only [probeWindow] at rolls
        refine .starts rfl ?_ ?_ ?_ (.inr ⟨state, ?_, ?_⟩) ?_ fun limit limited => ?_
        · simp only [after, state]
        · simp only [Event.sameWindow, after, decide_eq_false_iff_not]
          omega
        · simp only [after]
        · dsimp only
          omega
        · simp only [after]
        · simp only [after, issued]
          omega
        · have allowed := limited args rfl rfl
          simp only [after]
          omega
      · simp only [rollProbeWindow, if_neg rolls] at after room
        simp only [probeWindow] at rolls
        refine .charges rfl state ?_ ?_ ?_ ?_ fun limit limited => ?_
        · simp only [after, state]
        · simp [Event.sameWindow, after]
        · dsimp only
          omega
        · simp only [after, issued]
        · have allowed := limited args rfl rfl
          simp only [after]
          omega
    | opened =>
      cases lazily : lazyHalfOpen args.now (site.brk args.eg) with
      | inr retry =>
        have refused : breakerGate args (site.brk args.eg) =
            { breaker := site.brk args.eg, transition := false, verdict := .inl retry } := by
          simp only [breakerGate, state, lazily]
        have none : outcome.leases = [] := gate.refused retry (by rw [refused])
        refine keeps_of_no_lease ?_ none
        show outcome.site.brk args.eg = site.brk args.eg
        rw [gate.brk, Function.update_self, breakerAcquired, refused, none]
        simp
      | inl halved =>
        have half : breakerGate args (site.brk args.eg) = halfOpenGate args halved true := by
          simp only [breakerGate, state, lazily]
        obtain ⟨probes, -, after, room⟩ := half_open_charge gate half
        unfold lazyHalfOpen at lazily
        split_ifs at lazily with endless early
        obtain rfl := Sum.inl.inj lazily
        have fresh : ¬probeWindow ≤ args.now - args.now := by simp [probeWindow]
        simp only [rollProbeWindow, if_neg fresh] at after room
        have timed : 0 < (site.brk args.eg).ou := by
          rcases shape.opened state with later | manual
          · exact later
          · exact absurd ⟨manual.2, manual.1⟩ endless
        refine .starts rfl ?_ (same_window_version ?_) ?_ (.inl ⟨state, timed, ?_, ?_⟩) ?_
          fun limit limited => ?_
        · simp only [after]
        · simp only [after]
        · simp only [after]
        · dsimp only
          omega
        · simp only [after]
        · simp only [after, Event.probesIssued, if_true, List.length_map, probes]
          omega
        · have allowed := limited args rfl rfl
          simp only [after]
          omega
  · refine keeps_of_same ?_ ?_ ?_
    · show outcome.site.brk eg = site.brk eg
      rw [gate.brk, Function.update_of_ne (Ne.symm here)]
    · simp only [Event.probesIssued, if_neg here]
    · rintro other same group
      obtain rfl := SiteOp.acquire.inj same
      exact absurd group here

theorem refunded_window {args : ReleaseArgs} {outcome : Outcome}
    (aborted : abortedLease args site = some lease) (probe : lease.pr = true)
    (brk : outcome.site.brk =
      Function.update site.brk lease.e (probeRefund lease.a (site.brk lease.e)))
    (leases : outcome.leases = []) :
    WindowMove eg { op := .release args, before := site, outcome := outcome } := by
  by_cases here : lease.e = eg
  · subst here
    have after : outcome.site.brk lease.e = probeRefund lease.a (site.brk lease.e) := by
      rw [brk, Function.update_self]
    unfold probeRefund at after
    split at after
    · next current =>
      refine .refunds rfl aborted probe rfl current.1 current.2 ?_ ?_ ?_
      · simp only [after]
      · simp [Event.sameWindow, after]
      · simp only [after]
        split_ifs <;> omega
    · exact keeps_of_no_lease after leases
  · refine keeps_of_no_lease ?_ leases
    show outcome.site.brk eg = site.brk eg
    rw [brk, Function.update_of_ne (Ne.symm here)]

theorem evaluated_window {args : EvalArgs} {outcome : Outcome}
    (brk : outcome.site.brk = Function.update site.brk args.eg
      (evalBreaker args (windowSum args site (site.brk args.eg).lc) (site.brk args.eg)).breaker)
    (leases : outcome.leases = []) (shape : BreakerShape (site.brk eg)) :
    WindowMove eg { op := .evalBreaker args, before := site, outcome := outcome } := by
  by_cases here : args.eg = eg
  · subst here
    have after := congrFun brk args.eg
    rw [Function.update_self] at after
    have evaluates := eval_breaker_evaluates args (windowSum args site (site.brk args.eg).lc)
      (site.brk args.eg)
    generalize evalBreaker args (windowSum args site (site.brk args.eg).lc) (site.brk args.eg) =
      evaluated at evaluates after
    cases evaluates with
    | catchUp pending =>
      refine .keeps ?_ ?_ ?_ (.inr ?_) (probes_issued_nil leases) fun _ _ _ => .inr leases
      · simp only [after]
      · simp [Event.sameWindow, after]
      · simp only [after]
      · simp only [after]
    | keeps settled => exact keeps_of_no_lease after leases
    | closes settled reason trigger =>
      refine .leaves rfl ?_ ?_ leases ?_
      · simp [after, goClosed]
      · simp [after, goClosed]
      · simp [after, goClosed]
    | opens settled reason trigger oc =>
      refine .leaves rfl ?_ ?_ leases ?_
      · simp [after, goOpen]
      · simp [after, goOpen]
      · intro _
        have lasts := open_for_pos args oc
        simp only [after, goOpen]
        omega
    | halves opened due =>
      have timed : 0 < (site.brk args.eg).ou ∧ (site.brk args.eg).ou ≤ args.now := by
        rcases due with timed | corrupt
        · exact timed
        · rcases shape.opened opened with later | manual
          · exact absurd corrupt.2 (not_le.mpr later)
          · exact absurd manual.2 corrupt.1
      have none : Event.probesIssued args.eg
          { op := .evalBreaker args, before := site, outcome := outcome } = [] :=
        probes_issued_nil leases
      have version : (outcome.site.brk args.eg).v = (site.brk args.eg).v + 1 := by
        simp [after, goHalfOpen]
      refine .starts rfl ?_ (same_window_version version) ?_
        (.inl ⟨opened, timed.1, timed.2, version⟩) ?_ fun limit _ => ?_
      · simp [after, goHalfOpen]
      · simp [after, goHalfOpen]
      · simp [after, goHalfOpen, none]
      · simp [after, goHalfOpen]
  · refine keeps_of_no_lease ?_ leases
    show outcome.site.brk eg = site.brk eg
    rw [brk, Function.update_of_ne (Ne.symm here)]

theorem operated_window {args : SetArgs} {outcome : Outcome} {after : Breaker}
    (changed : Breakers.setBreaker args (site.brk args.eg) = some after)
    (brk : outcome.site.brk = Function.update site.brk args.eg after)
    (leases : outcome.leases = []) :
    WindowMove eg { op := .setBreaker args, before := site, outcome := outcome } := by
  by_cases here : args.eg = eg
  · subst here
    have written := congrFun brk args.eg
    rw [Function.update_self] at written
    unfold Breakers.setBreaker at changed
    split at changed
    · obtain rfl := Option.some.inj changed
      refine .leaves rfl ?_ ?_ leases ?_
      · simp [written, setOpened]
      · simp [written, setOpened]
      · simp only [written, setOpened]
        split_ifs <;> omega
    · split at changed
      · cases changed
      · obtain rfl := Option.some.inj changed
        refine .leaves rfl ?_ ?_ leases ?_
        · simp [written, setClosed]
        · simp [written, setClosed]
        · simp [written, setClosed]
  · refine keeps_of_no_lease ?_ leases
    show outcome.site.brk eg = site.brk eg
    rw [brk, Function.update_of_ne (Ne.symm here)]

end Moves

theorem perform_window (eg : Hkey) {op : SiteOp} {outcome : Outcome}
    (performed : perform op site = some outcome) (shape : BreakerShape (site.brk eg)) :
    WindowMove eg { op := op, before := site, outcome := outcome } := by
  cases perform_breakers performed with
  | still _ same _ leases => exact keeps_of_no_lease (congrFun same.brk eg) leases
  | gated gate _ => exact gated_window gate shape
  | refunded aborted probe brk _ _ leases => exact refunded_window aborted probe brk leases
  | @reported shard sid args _ _ brk _ _ leases =>
    have after := congrFun brk eg
    by_cases here : eg = args.eg
    · subst here
      rw [Function.update_self, probeCounted] at after
      refine .keeps ?_ ?_ ?_ (.inl ?_) (probes_issued_nil leases) fun _ _ _ => .inr leases
      · simp only [after]
        split_ifs <;> rfl
      · simp only [Event.sameWindow, after, decide_eq_true_eq]
        split_ifs <;> exact ⟨rfl, rfl⟩
      · simp only [after]
        split_ifs <;> rfl
      · simp only [after]
        split_ifs <;> rfl
    · rw [Function.update_of_ne here] at after
      exact keeps_of_no_lease after leases
  | evaluated _ brk _ _ leases => exact evaluated_window brk leases shape
  | operated changed brk _ _ leases => exact operated_window changed brk leases
  | unchanged _ same _ leases => exact keeps_of_no_lease (congrFun same.brk eg) leases

/-! ## The age of leases -/

/-- Leases are issued at clock values of the past, and a lease issued on a group
that opened since is older than the end of the open period: no lease is issued
on the group before that end, so it is also older than the half-open period that
follows. -/
structure Aged (eg : Hkey) (run : SiteRun) : Prop where
  shape : BreakerShape (run.site.brk eg)
  timed : ∀ lid lease, run.site.ls.lookup lid = some lease → lease.a ∈ run.times
  older : (run.site.brk eg).st = .opened → 0 < (run.site.brk eg).ou →
    ∀ lid lease, run.site.ls.lookup lid = some lease → lease.e = eg →
      lease.a < (run.site.brk eg).ou

section Age

variable {eg : Hkey} {run : SiteRun} {op : SiteOp} {outcome : Outcome}

theorem Aged.age (aged : Aged eg run) (clocked : Clocked run op) {now : Int}
    (clock : op.clock = some now) (found : run.site.ls.lookup lid = some lease) : lease.a ≤ now :=
  (clocked now clock).2 _ (aged.timed lid lease found)

theorem Aged.timed_step (aged : Aged eg run) (performed : perform op run.site = some outcome)
    (found : outcome.site.ls.lookup lid = some lease) : lease.a ∈ run.times ++ op.clock.toList := by
  rcases lease_traced performed found with ⟨old, stored, descends⟩ | ⟨args, rfl, fresh, -⟩
  · rw [descends.issued]
    exact List.mem_append_left _ (aged.timed lid old stored)
  · have issued : lease.a = args.now := congrArg (fun value => value.2.1) fresh
    rw [issued]
    exact List.mem_append_right _ (List.mem_singleton_self _)

theorem Aged.older_step (aged : Aged eg run) (clocked : Clocked run op)
    (performed : perform op run.site = some outcome) (opened : (outcome.site.brk eg).st = .opened)
    (ends : 0 < (outcome.site.brk eg).ou) (found : outcome.site.ls.lookup lid = some lease)
    (group : lease.e = eg) : lease.a < (outcome.site.brk eg).ou := by
  cases perform_window eg performed aged.shape with
  | keeps state window count same issued idle =>
    dsimp only at state same
    have unchanged : (outcome.site.brk eg).ou = (run.site.brk eg).ou := by omega
    rcases lease_traced performed found with ⟨old, stored, descends⟩ | ⟨args, rfl, fresh, replied⟩
    · rw [descends.issued, unchanged]
      exact aged.older (state ▸ opened) (unchanged ▸ ends) lid old stored
        (descends.group ▸ group)
    · rcases idle args rfl ((congrArg Prod.fst fresh).symm.trans group) with closed | none
      · rw [state, closed] at opened
        cases opened
      · rw [show outcome.leases = [] from none] at replied
        cases replied
  | refunds _ _ _ _ half _ state =>
    dsimp only at state half
    rw [state, half] at opened
    cases opened
  | charges _ _ state =>
    dsimp only at state
    rw [state] at opened
    cases opened
  | starts _ state =>
    dsimp only at state
    rw [state] at opened
    cases opened
  | leaves clock _ _ leases later =>
    rcases lease_traced performed found with ⟨old, stored, descends⟩ | ⟨args, rfl, -, replied⟩
    · rw [descends.issued]
      exact (aged.age clocked clock stored).trans_lt (later ends)
    · rw [show outcome.leases = [] from leases] at replied
      cases replied

theorem aged_step {next : SiteRun} (aged : Aged eg run) (clocked : Clocked run op)
    (stepped : siteStep run op = some next) : Aged eg next := by
  have times := times_step stepped
  obtain ⟨outcome, performed, site, past⟩ := site_step_cases stepped
  have advances := perform_advances eg performed (fun now clock => (clocked now clock).1) aged.shape
  refine ⟨?_, ?_, ?_⟩
  · rw [site]
    exact advances.1.history_step.shape aged.shape
  · intro lid lease found
    rw [site] at found
    rw [times]
    exact aged.timed_step performed found
  · rw [site]
    exact fun opened ends lid lease => aged.older_step clocked performed opened ends

end Age

theorem aged_start {eg : Hkey} (closed : site.brk = fun _ => {}) (leaseless : site.ls = ∅) :
    Aged eg (SiteRun.start site) where
  shape := by
    simp only [SiteRun.start, closed]
    exact ⟨fun _ => ⟨rfl, rfl⟩, nofun⟩
  timed lid lease found := by simp [SiteRun.start, leaseless] at found
  older opened := by simp [SiteRun.start, closed] at opened

theorem issued_probe_listed {eg : Hkey} {op : SiteOp} {outcome : Outcome}
    (performed : perform op site = some outcome) (acquires : op = .acquire args)
    (fresh : origin lease = (args.eg, args.now, probing args (site.brk args.eg)))
    (replied : lid ∈ outcome.leases.map LeaseReply.lid) (group : lease.e = eg)
    (probe : lease.pr = true) :
    lid ∈ Event.probesIssued eg { op := op, before := site, outcome := outcome } := by
  subst acquires
  cases performed
  obtain ⟨reply, member, rfl⟩ := List.mem_map.mp replied
  have here : args.eg = eg := (congrArg Prod.fst fresh).symm.trans group
  have probes : probing args (site.brk args.eg) = true :=
    (congrArg (fun value => value.2.2) fresh).symm.trans probe
  simp only [Event.probesIssued, if_pos here]
  refine List.mem_map_of_mem (List.mem_filter.mpr ⟨member, ?_⟩)
  rw [(acquire_gate_effect args site).marked reply member, probes]

end Spinneret.Runs
