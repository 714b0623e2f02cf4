import Spinneret.Runs.BreakerSteps

/-!
# The breaker history of a group

Breaker transitions are recorded by evaluations and manual operations. An acquire
half-opens an expired breaker without recording anything and leaves the open end
in place; the next evaluation or manual operation reports that step. The history
of a group is the list of its records; it is one gap-free path from closed.
-/

namespace Spinneret.Runs

open Spinneret.HotState Spinneret.Lib Spinneret.Scheduler Spinneret.Worker Spinneret.Action
open Spinneret.Breakers

set_option autoImplicit false

/-- The state a list of transitions leads to, if each starts where the one before
it ended. -/
def pathFrom : BreakerState → List Transition → Option BreakerState
  | state, [] => some state
  | state, record :: rest => if record.source = state then pathFrom record.target rest else none

theorem path_append {start middle : BreakerState} {first second : List Transition}
    (path : pathFrom start first = some middle) :
    pathFrom start (first ++ second) = pathFrom middle second := by
  induction first generalizing start with
  | nil =>
    obtain rfl : start = middle := by simpa [pathFrom] using path
    rfl
  | cons record rest ih =>
    simp only [pathFrom, List.cons_append] at path ⊢
    split at path
    · next same => rw [if_pos same, ih path]
    · cases path

def Event.recordsOf (eg : Hkey) (event : Event) : List Transition :=
  event.outcome.records.filter fun record => decide (record.eg = eg)

def history (eg : Hkey) (past : List Event) : List Transition :=
  past.flatMap (Event.recordsOf eg)

def Event.lazyStep (eg : Hkey) (event : Event) : Bool :=
  match event.op with
  | .acquire _ => decide ((event.before.brk eg).st = .opened ∧
      (event.outcome.site.brk eg).st = .halfOpen)
  | _ => false

/-- The event is an evaluation or a manual operation on the group. -/
def Event.reports (eg : Hkey) (event : Event) : Bool := decide (event.op.operates = some eg)

def Event.lazyReports (eg : Hkey) (event : Event) : Nat :=
  (event.recordsOf eg).countP Transition.unseen

/-- The lazy steps taken since the last evaluation or manual operation. -/
def unreported (eg : Hkey) (past : List Event) : Nat :=
  past.foldl
    (fun count event =>
      if event.reports eg then 0 else if event.lazyStep eg then count + 1 else count)
    0

/-- The transitions an event takes: a lazy step or those it records as its own. -/
def Event.taken (eg : Hkey) (event : Event) : Nat :=
  (if event.lazyStep eg then 1 else 0) +
    (event.recordsOf eg).countP fun record => !record.unseen

def taken (eg : Hkey) (past : List Event) : Nat := (past.map (Event.taken eg)).sum

/-- The state up to which a breaker is recorded. -/
def recordedState (breaker : Breaker) : BreakerState :=
  if lazyPending breaker then .opened else breaker.st

/-- A closed breaker has no open end and an open one has an end or is manual. -/
structure BreakerShape (breaker : Breaker) : Prop where
  closed : breaker.st = .closed → breaker.ou = 0 ∧ breaker.man = 0
  opened : breaker.st = .opened → 0 < breaker.ou ∨ (breaker.ou = 0 ∧ breaker.man = 1)

/-- The fields the history depends on. -/
def breakerCore (breaker : Breaker) : BreakerState × Int × Int × Int :=
  (breaker.st, breaker.ou, breaker.man, breaker.v)

def lazyTransition (eg : Hkey) : Transition :=
  { eg := eg, source := .opened, target := .halfOpen, unseen := true }

/-- What an event is to the history of a group. -/
inductive GroupMove (eg : Hkey) (event : Event) : Prop where
  | idle (core : breakerCore (event.outcome.site.brk eg) = breakerCore (event.before.brk eg))
      (records : event.recordsOf eg = []) (step : event.lazyStep eg = false)
      (reports : event.reports eg = false)
  | lazy (before : (event.before.brk eg).st = .opened) (ends : 0 < (event.before.brk eg).ou)
      (core : breakerCore (event.outcome.site.brk eg) =
        (.halfOpen, (event.before.brk eg).ou, (event.before.brk eg).man,
          (event.before.brk eg).v + 1))
      (records : event.recordsOf eg = []) (step : event.lazyStep eg = true)
      (reports : event.reports eg = false)
  | catchUp (pending : lazyPending (event.before.brk eg) = true)
      (core : breakerCore (event.outcome.site.brk eg) =
        (.halfOpen, 0, (event.before.brk eg).man, (event.before.brk eg).v))
      (records : event.recordsOf eg = [lazyTransition eg])
      (step : event.lazyStep eg = false) (reports : event.reports eg = true)
  | skip (settled : lazyPending (event.before.brk eg) = false)
      (core : breakerCore (event.outcome.site.brk eg) = breakerCore (event.before.brk eg))
      (records : event.recordsOf eg = []) (step : event.lazyStep eg = false)
      (reports : event.reports eg = true)
  | moves (shape : BreakerShape (event.outcome.site.brk eg))
      (settled : lazyPending (event.outcome.site.brk eg) = false)
      (version : (event.outcome.site.brk eg).v = (event.before.brk eg).v + 1)
      (records : event.recordsOf eg =
        (if lazyPending (event.before.brk eg) then [lazyTransition eg] else []) ++
        [{ eg := eg, source := (event.before.brk eg).st
           target := (event.outcome.site.brk eg).st }])
      (step : event.lazyStep eg = false) (reports : event.reports eg = true)

/-- The tracked set holds exactly the groups that are not closed. -/
def Tracked (eg : Hkey) (site : Site) : Prop := eg ∈ site.brko ↔ (site.brk eg).st ≠ .closed

/-- An event reports exactly the lazy steps taken since the last report, of which
there is at most one, and records nothing unless it is an evaluation or a manual
operation. -/
structure ReportsDue (eg : Hkey) (earlier : List Event) (event : Event) : Prop where
  atMostOne : unreported eg earlier ≤ 1
  due : event.reports eg = true → event.lazyReports eg = unreported eg earlier
  silent : event.reports eg = false → event.recordsOf eg = []

/-- What holds of the history of a group after the events `past`. -/
structure Recorded (eg : Hkey) (past : List Event) (site : Site) : Prop where
  path : pathFrom .closed (history eg past) = some (recordedState (site.brk eg))
  pending : unreported eg past = if lazyPending (site.brk eg) then 1 else 0
  reported : ∀ earlier event later, past = earlier ++ event :: later →
    ReportsDue eg earlier event
  version : (site.brk eg).v = taken eg past
  tracked : Tracked eg site
  shape : BreakerShape (site.brk eg)

/-! ## One more event -/

section Extend

variable {eg : Hkey} {past : List Event} {event : Event}

theorem history_snoc :
    history eg (past ++ [event]) = history eg past ++ event.recordsOf eg := by
  simp [history]

theorem unreported_snoc :
    unreported eg (past ++ [event]) =
      if event.reports eg then 0
      else if event.lazyStep eg then unreported eg past + 1 else unreported eg past := by
  simp [unreported, List.foldl_append]

theorem taken_snoc : taken eg (past ++ [event]) = taken eg past + event.taken eg := by
  simp [taken]

theorem snoc_split {earlier later : List Event} {found : Event}
    (split : past ++ [event] = earlier ++ found :: later) :
    (earlier = past ∧ found = event) ∨ ∃ between, past = earlier ++ found :: between := by
  rcases List.eq_nil_or_concat later with rfl | ⟨between, last, rfl⟩
  · obtain ⟨same, last⟩ := List.append_inj' split rfl
    exact .inl ⟨same.symm, (List.singleton_injective last).symm⟩
  · rw [List.concat_eq_append, ← List.cons_append, ← List.append_assoc] at split
    exact .inr ⟨between, (List.append_inj' split rfl).1⟩

end Extend

section Core

variable {breaker other : Breaker}

theorem lazy_pending_core (same : breakerCore breaker = breakerCore other) :
    lazyPending breaker = lazyPending other := by
  simp only [breakerCore, Prod.mk.injEq] at same
  simp only [lazyPending, same.1, same.2.1]

theorem recorded_state_core (same : breakerCore breaker = breakerCore other) :
    recordedState breaker = recordedState other := by
  have state : breaker.st = other.st := congrArg Prod.fst same
  rw [recordedState, recordedState, lazy_pending_core same, state]

theorem BreakerShape.of_core (shape : BreakerShape other)
    (same : breakerCore breaker = breakerCore other) : BreakerShape breaker := by
  simp only [breakerCore, Prod.mk.injEq] at same
  obtain ⟨state, ends, manual, -⟩ := same
  exact ⟨by rw [state, ends, manual]; exact shape.closed,
    by rw [state, ends, manual]; exact shape.opened⟩

theorem lazy_pending_iff : lazyPending breaker = true ↔ breaker.st = .halfOpen ∧ 0 < breaker.ou := by
  simp [lazyPending]

end Core

/-- The step of the history invariant that an event amounts to. -/
structure HistoryStep (eg : Hkey) (event : Event) : Prop where
  path : pathFrom (recordedState (event.before.brk eg)) (event.recordsOf eg) =
    some (recordedState (event.outcome.site.brk eg))
  pending : ∀ count, count = (if lazyPending (event.before.brk eg) then 1 else 0) →
    (if event.reports eg then 0 else if event.lazyStep eg then count + 1 else count) =
      if lazyPending (event.outcome.site.brk eg) then 1 else 0
  reported : event.reports eg = true →
    event.lazyReports eg = if lazyPending (event.before.brk eg) then 1 else 0
  silent : event.reports eg = false → event.recordsOf eg = []
  version : (event.outcome.site.brk eg).v = (event.before.brk eg).v + event.taken eg
  shape : BreakerShape (event.before.brk eg) → BreakerShape (event.outcome.site.brk eg)

theorem GroupMove.history_step {eg : Hkey} {event : Event} (move : GroupMove eg event) :
    HistoryStep eg event := by
  cases move with
  | idle core records step reports =>
    have version : (event.outcome.site.brk eg).v = (event.before.brk eg).v :=
      congrArg (fun core => core.2.2.2) core
    refine ⟨?_, ?_, ?_, ?_, ?_, fun shape => shape.of_core core⟩
    · rw [records, recorded_state_core core]
      rfl
    · rintro count rfl
      simp [reports, step, lazy_pending_core core]
    · simp [reports]
    · exact fun _ => records
    · simp [version, Event.taken, step, records]
  | lazy before ends core records step reports =>
    simp only [breakerCore, Prod.mk.injEq] at core
    obtain ⟨state, kept, -, version⟩ := core
    have settled : lazyPending (event.before.brk eg) = false := by simp [lazyPending, before]
    have pending : lazyPending (event.outcome.site.brk eg) = true :=
      lazy_pending_iff.mpr ⟨state, kept ▸ ends⟩
    refine ⟨?_, ?_, ?_, ?_, ?_, ?_⟩
    · simp [records, pathFrom, recordedState, settled, pending, before]
    · rintro count rfl
      simp [reports, step, settled, pending]
    · simp [reports]
    · exact fun _ => records
    · simp [version, Event.taken, step, records]
    · exact fun _ => ⟨by simp [state], by simp [state]⟩
  | catchUp pending core records step reports =>
    simp only [breakerCore, Prod.mk.injEq] at core
    obtain ⟨state, ends, -, version⟩ := core
    have settled : lazyPending (event.outcome.site.brk eg) = false := by
      simp [lazyPending, ends]
    refine ⟨?_, ?_, ?_, ?_, ?_, ?_⟩
    · simp [records, pathFrom, recordedState, settled, pending, state, lazyTransition]
    · simp [reports, settled]
    · simp [Event.lazyReports, records, pending, lazyTransition]
    · simp [reports]
    · simp [version, Event.taken, step, records, lazyTransition]
    · exact fun _ => ⟨by simp [state], by simp [state]⟩
  | skip settled core records step reports =>
    have version : (event.outcome.site.brk eg).v = (event.before.brk eg).v :=
      congrArg (fun core => core.2.2.2) core
    refine ⟨?_, ?_, ?_, ?_, ?_, fun shape => shape.of_core core⟩
    · rw [records, recorded_state_core core]
      rfl
    · simp [reports, lazy_pending_core core, settled]
    · simp [Event.lazyReports, records, settled]
    · simp [reports]
    · simp [version, Event.taken, step, records]
  | moves shape settled version records step reports =>
    cases pending : lazyPending (event.before.brk eg) with
    | false =>
      refine ⟨?_, ?_, ?_, ?_, ?_, fun _ => shape⟩
      · simp [records, pathFrom, recordedState, settled, pending]
      · simp [reports, settled]
      · simp [Event.lazyReports, records, pending]
      · simp [reports]
      · simp [version, Event.taken, step, records, pending]
    | true =>
      have state := (lazy_pending_iff.mp pending).1
      refine ⟨?_, ?_, ?_, ?_, ?_, fun _ => shape⟩
      · simp [records, pathFrom, recordedState, settled, pending, state, lazyTransition]
      · simp [reports, settled]
      · simp [Event.lazyReports, records, pending, lazyTransition]
      · simp [reports]
      · simp [version, Event.taken, step, records, pending, lazyTransition]

theorem Recorded.extend {eg : Hkey} {past : List Event} {event : Event}
    (recorded : Recorded eg past event.before) (move : GroupMove eg event)
    (tracked : Tracked eg event.before → Tracked eg event.outcome.site) :
    Recorded eg (past ++ [event]) event.outcome.site := by
  have step := move.history_step
  refine ⟨?_, ?_, ?_, ?_, tracked recorded.tracked, step.shape recorded.shape⟩
  · rw [history_snoc, path_append recorded.path]
    exact step.path
  · rw [unreported_snoc]
    exact step.pending _ recorded.pending
  · intro earlier found later split
    rcases snoc_split split with ⟨rfl, rfl⟩ | ⟨between, inside⟩
    · refine ⟨?_, fun reports => ?_, step.silent⟩
      · rw [recorded.pending]
        split_ifs <;> omega
      · rw [step.reported reports, recorded.pending]
    · exact recorded.reported earlier found between inside
  · rw [taken_snoc, step.version, recorded.version]
    push_cast
    rfl

/-! ## Which move an event is -/

section Gate

variable {args : AcquireArgs} {breaker : Breaker}

/-- The gate keeps the core or lazily half-opens an open breaker past its end. -/
theorem gate_core (args : AcquireArgs) (breaker : Breaker) :
    breakerCore (breakerGate args breaker).breaker = breakerCore breaker ∨
      (breaker.st = .opened ∧ ¬(breaker.man = 1 ∧ breaker.ou = 0) ∧
        breakerCore (breakerGate args breaker).breaker =
          (.halfOpen, breaker.ou, breaker.man, breaker.v + 1)) := by
  have rolled (breaker : Breaker) (transition : Bool) :
      breakerCore (halfOpenGate args breaker transition).breaker = breakerCore breaker := by
    simp only [halfOpenGate, rollProbeWindow]
    split_ifs <;> rfl
  unfold breakerGate
  split
  · exact .inl rfl
  · exact .inl (rolled breaker false)
  · next opened =>
    split
    · exact .inl rfl
    · next halved lazily =>
      unfold lazyHalfOpen at lazily
      split_ifs at lazily with manual early
      cases lazily
      exact .inr ⟨opened, manual, rolled _ true⟩

theorem acquired_core (args : AcquireArgs) (breaker : Breaker) (count : Nat) :
    breakerCore (breakerAcquired args breaker count) =
      breakerCore (breakerGate args breaker).breaker := rfl

end Gate

theorem probe_refund_core (a : Int) (breaker : Breaker) :
    breakerCore (probeRefund a breaker) = breakerCore breaker := by
  unfold probeRefund
  split_ifs <;> rfl

theorem probe_counted_core (args : ObserveArgs) (probe : Bool) (breaker : Breaker) :
    breakerCore (probeCounted args probe breaker) = breakerCore breaker := by
  unfold probeCounted
  split_ifs <;> rfl

/-- An evaluation reports a pending lazy step, does nothing, or takes one
transition to a well-shaped state that it reports. -/
theorem eval_breaker_cases {args : EvalArgs} (sum : WindowBucket) (breaker : Breaker)
    (clock : 0 ≤ args.now) :
    (lazyPending breaker = true ∧
      evalBreaker args sum breaker = { breaker := { breaker with ou := 0 } }) ∨
    (lazyPending breaker = false ∧ evalBreaker args sum breaker = { breaker := breaker }) ∨
    (lazyPending breaker = false ∧
      (evalBreaker args sum breaker).target = some (evalBreaker args sum breaker).breaker.st ∧
      (evalBreaker args sum breaker).breaker.v = breaker.v + 1 ∧
      BreakerShape (evalBreaker args sum breaker).breaker ∧
      lazyPending (evalBreaker args sum breaker).breaker = false) := by
  have evaluates := eval_breaker_evaluates args sum breaker
  generalize evalBreaker args sum breaker = evaluated at evaluates ⊢
  cases evaluates with
  | catchUp pending => exact .inl ⟨pending, rfl⟩
  | keeps settled => exact .inr (.inl ⟨settled, rfl⟩)
  | closes settled reason trigger =>
    exact .inr (.inr ⟨settled, rfl, rfl, ⟨fun _ => ⟨rfl, rfl⟩, nofun⟩, rfl⟩)
  | opens settled reason trigger oc =>
    have ends : 0 < (goOpen args breaker reason trigger oc).breaker.ou :=
      Int.add_pos_of_nonneg_of_pos clock (open_for_pos args oc)
    have quiet : lazyPending (goOpen args breaker reason trigger oc).breaker = false := by
      simp [lazyPending, goOpen]
    exact .inr (.inr ⟨settled, rfl, rfl, ⟨nofun, fun _ => .inl ends⟩, quiet⟩)
  | halves opened due =>
    have settled : lazyPending breaker = false := by simp [lazyPending, opened]
    exact .inr (.inr ⟨settled, rfl, rfl, ⟨nofun, nofun⟩, rfl⟩)

theorem set_breaker_shape {args : SetArgs} {breaker after : Breaker} (clock : 0 ≤ args.now)
    (changed : Breakers.setBreaker args breaker = some after) :
    BreakerShape after ∧ lazyPending after = false ∧ after.v = breaker.v + 1 := by
  unfold Breakers.setBreaker at changed
  split at changed
  · cases changed
    refine ⟨⟨nofun, fun _ => ?_⟩, by simp [lazyPending, setOpened], rfl⟩
    by_cases timed : 0 < args.duration
    · exact .inl (by simp only [setOpened, timed, if_true]; omega)
    · exact .inr ⟨by simp [setOpened, timed], rfl⟩
  · split at changed
    · cases changed
    · cases changed
      exact ⟨⟨fun _ => ⟨rfl, rfl⟩, nofun⟩, rfl, rfl⟩

/-- An event and what it does to the tracked set. -/
def Advances (eg : Hkey) (event : Event) : Prop :=
  GroupMove eg event ∧ (Tracked eg event.before → Tracked eg event.outcome.site)

section Moves

variable {eg : Hkey} {event : Event}

theorem lazy_step_same
    (same : (event.outcome.site.brk eg).st = (event.before.brk eg).st) :
    event.lazyStep eg = false := by
  unfold Event.lazyStep
  split
  · rw [same]
    simp only [decide_eq_false_iff_not]
    rintro ⟨opened, halved⟩
    rw [opened] at halved
    cases halved
  · rfl

theorem lazy_step_operates (operates : event.op.operates = some eg) :
    event.lazyStep eg = false := by
  unfold Event.lazyStep
  split
  · next args same => simp [same, SiteOp.operates] at operates
  · rfl

theorem idle_advances
    (core : breakerCore (event.outcome.site.brk eg) = breakerCore (event.before.brk eg))
    (tracked : eg ∈ event.outcome.site.brko ↔ eg ∈ event.before.brko)
    (records : event.recordsOf eg = []) (elsewhere : event.op.operates ≠ some eg) :
    Advances eg event := by
  have state : (event.outcome.site.brk eg).st = (event.before.brk eg).st :=
    congrArg Prod.fst core
  refine ⟨.idle core records (lazy_step_same state) (by simpa [Event.reports] using elsewhere), ?_⟩
  unfold Tracked
  rw [tracked, state]
  exact id

theorem records_of_other {records : List Transition} {group : Hkey}
    (all : ∀ record ∈ records, record.eg = group) (other : group ≠ eg)
    (same : event.outcome.records = records) : event.recordsOf eg = [] := by
  simp only [Event.recordsOf, same, List.filter_eq_nil_iff, decide_eq_true_eq]
  intro record member here
  exact other ((all record member).symm.trans here)

theorem records_of_own (event : Event) {records : List Transition}
    (all : ∀ record ∈ records, record.eg = eg)
    (same : event.outcome.records = records) : event.recordsOf eg = records := by
  simp only [Event.recordsOf, same, List.filter_eq_self, decide_eq_true_eq]
  exact all

theorem track_open_other {brko : Finset Hkey} {group : Hkey} {state : BreakerState}
    (other : group ≠ eg) : eg ∈ trackOpen brko group state ↔ eg ∈ brko := by
  unfold trackOpen
  split_ifs
  · simp [Ne.symm other]
  · simp [Ne.symm other]

theorem track_open_self (brko : Finset Hkey) (eg : Hkey) (state : BreakerState) :
    eg ∈ trackOpen brko eg state ↔ state ≠ .closed := by
  unfold trackOpen
  split_ifs with closed
  · simp [closed]
  · simp [closed]

end Moves

theorem lazy_record_group {eg : Hkey} {lazyAt : Option Int} {record : Transition}
    (member : record ∈ lazyRecord eg lazyAt) : record.eg = eg := by
  unfold lazyRecord at member
  split_ifs at member
  · rw [List.mem_singleton.mp member]
  · cases member

theorem eval_records_group (args : EvalArgs) (site : Site) :
    ∀ record ∈ evalRecords args.eg (breakerEval args site).2, record.eg = args.eg := by
  intro record member
  rcases List.mem_append.mp member with seen | own
  · exact lazy_record_group seen
  · obtain ⟨target, -, rfl⟩ := List.mem_map.mp own
    rfl

theorem set_records_group (args : SetArgs) (site : Site) :
    ∀ record ∈ setRecords args.eg (breakerSet args site).2, record.eg = args.eg := by
  intro record member
  rcases List.mem_append.mp member with seen | own
  · exact lazy_record_group seen
  · split_ifs at own
    · rw [List.mem_singleton.mp own]
    · cases own

variable {site : Site} {outcome : Outcome}

theorem gated_advances {eg : Hkey} {args : AcquireArgs}
    (gate : GateEffect args site outcome.site outcome.leases) (records : outcome.records = [])
    (shape : BreakerShape (site.brk eg)) :
    Advances eg { op := .acquire args, before := site, outcome := outcome } := by
  have none : Event.recordsOf eg { op := .acquire args, before := site, outcome := outcome } = [] := by
    simp [Event.recordsOf, records]
  by_cases here : args.eg = eg
  · subst here
    have after : outcome.site.brk args.eg =
        breakerAcquired args (site.brk args.eg) outcome.leases.length := by
      rw [gate.brk, Function.update_self]
    rcases gate_core args (site.brk args.eg) with same | ⟨opened, timed, halved⟩
    · refine idle_advances ?_ (by rw [gate.brko]) none (by simp [SiteOp.operates])
      rw [after, acquired_core, same]
    · have core : breakerCore (outcome.site.brk args.eg) = (.halfOpen, (site.brk args.eg).ou,
          (site.brk args.eg).man, (site.brk args.eg).v + 1) := by
        rw [after, acquired_core, halved]
      have state : (outcome.site.brk args.eg).st = .halfOpen := congrArg Prod.fst core
      have ends : 0 < (site.brk args.eg).ou := by
        rcases shape.opened opened with later | manual
        · exact later
        · exact absurd ⟨manual.2, manual.1⟩ timed
      refine ⟨.lazy opened ends core none ?_ (by simp [Event.reports, SiteOp.operates]), ?_⟩
      · simp [Event.lazyStep, opened, state]
      · unfold Tracked
        rw [gate.brko, opened, state]
        simp
  · refine idle_advances ?_ (by rw [gate.brko]) none (by simp [SiteOp.operates])
    rw [gate.brk, Function.update_of_ne (Ne.symm here)]

theorem eval_records_eq {args : EvalArgs} (mode : args.mode = .eval) :
    evalRecords args.eg (breakerEval args site).2 =
      (if lazyPending (site.brk args.eg) then [lazyTransition args.eg] else []) ++
      (evalBreaker args (windowSum args site (site.brk args.eg).lc)
        (site.brk args.eg)).target.toList.map fun target =>
          { eg := args.eg, source := (site.brk args.eg).st, target := target } := by
  simp only [evalRecords, breakerEval, mode, lazyRecord]
  split_ifs <;> simp_all [lazyTransition]

theorem set_records_eq {args : SetArgs} {after : Breaker}
    (changed : Breakers.setBreaker args (site.brk args.eg) = some after) :
    setRecords args.eg (breakerSet args site).2 =
      (if lazyPending (site.brk args.eg) then [lazyTransition args.eg] else []) ++
        [{ eg := args.eg, source := (site.brk args.eg).st, target := after.st }] := by
  simp only [setRecords, breakerSet, changed, lazyRecord]
  split_ifs <;> simp_all [lazyTransition]

theorem evaluated_advances {eg : Hkey} {args : EvalArgs} (clock : 0 ≤ args.now)
    (mode : args.mode = .eval)
    (brk : outcome.site.brk = Function.update site.brk args.eg
      (evalBreaker args (windowSum args site (site.brk args.eg).lc) (site.brk args.eg)).breaker)
    (brko : outcome.site.brko = trackOpen site.brko args.eg (outcome.site.brk args.eg).st)
    (records : outcome.records = evalRecords args.eg (breakerEval args site).2) :
    Advances eg { op := .evalBreaker args, before := site, outcome := outcome } := by
  have operates : (SiteOp.evalBreaker args).operates = some args.eg := by
    simp [SiteOp.operates, mode]
  by_cases here : args.eg = eg
  · subst here
    set event : Event := { op := .evalBreaker args, before := site, outcome := outcome }
    have step : event.lazyStep args.eg = false := lazy_step_operates operates
    have reports : event.reports args.eg = true := decide_eq_true operates
    have own := records_of_own event (eval_records_group args site) records
    rw [eval_records_eq mode] at own
    have after : outcome.site.brk args.eg = (evalBreaker args
        (windowSum args site (site.brk args.eg).lc) (site.brk args.eg)).breaker := by
      rw [brk, Function.update_self]
    refine ⟨?_, fun _ => ?_⟩
    · rcases eval_breaker_cases (windowSum args site (site.brk args.eg).lc)
        (site.brk args.eg) clock with ⟨pending, result⟩ | ⟨settled, result⟩ |
        ⟨settled, target, version, shape, quiet⟩
      · rw [result] at own after
        refine .catchUp pending ?_ ?_ step reports
        · show breakerCore (outcome.site.brk args.eg) = _
          rw [after]
          simp only [breakerCore, (lazy_pending_iff.mp pending).1]
          rfl
        · simpa [pending] using own
      · rw [result] at own after
        refine .skip settled ?_ ?_ step reports
        · exact congrArg breakerCore after
        · simpa [settled] using own
      · rw [target] at own
        rw [← after] at own version shape quiet
        exact .moves shape quiet version own step reports
    · unfold Tracked
      rw [brko]
      exact track_open_self _ _ _
  · refine idle_advances ?_ ?_ (records_of_other (eval_records_group args site) here records) ?_
    · rw [brk, Function.update_of_ne (Ne.symm here)]
    · rw [brko]
      exact track_open_other here
    · rw [operates]
      simpa using here

theorem operated_advances {eg : Hkey} {args : SetArgs} {after : Breaker} (clock : 0 ≤ args.now)
    (changed : Breakers.setBreaker args (site.brk args.eg) = some after)
    (brk : outcome.site.brk = Function.update site.brk args.eg after)
    (brko : outcome.site.brko = trackOpen site.brko args.eg after.st)
    (records : outcome.records = setRecords args.eg (breakerSet args site).2) :
    Advances eg { op := .setBreaker args, before := site, outcome := outcome } := by
  by_cases here : args.eg = eg
  · subst here
    set event : Event := { op := .setBreaker args, before := site, outcome := outcome }
    have step : event.lazyStep args.eg = false := lazy_step_operates rfl
    have own := records_of_own event (set_records_group args site) records
    rw [set_records_eq changed] at own
    have written : outcome.site.brk args.eg = after := by rw [brk, Function.update_self]
    obtain ⟨shape, quiet, version⟩ := set_breaker_shape clock changed
    rw [← written] at own shape quiet version brko
    refine ⟨.moves shape quiet version own step (decide_eq_true rfl), fun _ => ?_⟩
    unfold Tracked
    rw [brko]
    exact track_open_self _ _ _
  · refine idle_advances ?_ ?_ (records_of_other (set_records_group args site) here records) ?_
    · rw [brk, Function.update_of_ne (Ne.symm here)]
    · rw [brko]
      exact track_open_other here
    · simpa [SiteOp.operates] using here

/-- A manual close of a closed breaker reports nothing. -/
theorem unchanged_advances {eg : Hkey} {args : SetArgs}
    (closed : Breakers.setBreaker args (site.brk args.eg) = none)
    (same : SameBreakers site outcome.site)
    (records : outcome.records = setRecords args.eg (breakerSet args site).2) :
    Advances eg { op := .setBreaker args, before := site, outcome := outcome } := by
  have state : (site.brk args.eg).st = .closed := by
    unfold Breakers.setBreaker at closed
    split at closed
    · cases closed
    · split at closed
      · next shut => exact shut
      · cases closed
  have settled : lazyPending (site.brk args.eg) = false := by simp [lazyPending, state]
  have none : outcome.records = [] := by
    simp [records, setRecords, breakerSet, closed, lazyRecord, settled]
  have empty : Event.recordsOf eg { op := .setBreaker args, before := site, outcome := outcome } =
      [] := by
    simp [Event.recordsOf, none]
  by_cases here : args.eg = eg
  · subst here
    refine ⟨.skip settled ?_ empty (lazy_step_operates rfl) (decide_eq_true rfl), ?_⟩
    · simp only [same.brk]
    · unfold Tracked
      simp only [same.brk, same.brko, imp_self]
  · refine idle_advances ?_ ?_ empty ?_
    · simp only [same.brk]
    · simp only [same.brko]
    · simpa [SiteOp.operates] using here

theorem perform_advances (eg : Hkey) {op : SiteOp} (performed : perform op site = some outcome)
    (clock : ∀ time, op.clock = some time → 0 ≤ time) (shape : BreakerShape (site.brk eg)) :
    Advances eg { op := op, before := site, outcome := outcome } := by
  have still {op : SiteOp} {outcome : Outcome} {group : Hkey} {breaker : Breaker}
      (inactive : op.operates = none)
      (brk : outcome.site.brk = Function.update site.brk group breaker)
      (core : breakerCore breaker = breakerCore (site.brk group))
      (brko : outcome.site.brko = site.brko) (records : outcome.records = []) :
      Advances eg { op := op, before := site, outcome := outcome } := by
    refine idle_advances ?_ (by rw [brko]) (by simp [Event.recordsOf, records]) (by simp [inactive])
    rw [brk]
    by_cases here : eg = group
    · subst here
      rw [Function.update_self, core]
    · rw [Function.update_of_ne here]
  cases perform_breakers performed with
  | still inactive same records _ =>
    refine idle_advances ?_ ?_ (by simp [Event.recordsOf, records]) (by simp [inactive])
    · simp only [same.brk]
    · simp only [same.brko]
  | gated gate records => exact gated_advances gate records shape
  | refunded _ _ brk brko records _ =>
    exact still rfl brk (probe_refund_core _ _) brko records
  | reported _ brk brko records _ =>
    exact still rfl brk (probe_counted_core _ _ _) brko records
  | evaluated mode brk brko records _ =>
    exact evaluated_advances (clock _ rfl) mode brk brko records
  | operated changed brk brko records _ =>
    exact operated_advances (clock _ rfl) changed brk brko records
  | unchanged closed same records _ => exact unchanged_advances closed same records

/-! ## Runs -/

theorem recorded_start (closed : site.brk = fun _ => {}) (untracked : site.brko = ∅) (eg : Hkey) :
    Recorded eg [] site where
  path := by simp [history, pathFrom, recordedState, closed, lazyPending]
  pending := by simp [unreported, closed, lazyPending]
  reported earlier event later split := by
    cases earlier <;> cases split
  version := by simp [closed, taken]
  tracked := by simp [Tracked, closed, untracked]
  shape := by
    rw [closed]
    exact ⟨fun _ => ⟨rfl, rfl⟩, nofun⟩

theorem recorded_run {start : Site} {ops : List SiteOp} {final : SiteRun}
    (closed : start.brk = fun _ => {}) (untracked : start.brko = ∅)
    (clock : ∀ op ∈ ops, ∀ time, op.clock = some time → 0 ≤ time)
    (reached : Machine.run siteStep (SiteRun.start start) ops = some final) (eg : Hkey) :
    Recorded eg final.past final.site := by
  have guarded : Machine.Under siteStep
      (fun _ op => ∀ time, SiteOp.clock op = some time → 0 ≤ time) (SiteRun.start start) ops :=
    Machine.under_of_all clock
  have preserved : ∀ run op next, Recorded eg run.past run.site →
      (∀ time, SiteOp.clock op = some time → 0 ≤ time) → siteStep run op = some next →
      Recorded eg next.past next.site := by
    intro run op next recorded positive stepped
    obtain ⟨outcome, performed, site, past⟩ := site_step_cases stepped
    obtain ⟨move, tracked⟩ := perform_advances eg performed positive recorded.shape
    rw [site, past]
    exact Recorded.extend recorded move tracked
  exact Machine.run_invariant_under preserved (recorded_start closed untracked eg) guarded reached

/-- Breaker history: in every run from closed breakers with nonnegative clock values,
the records of a group form one path from closed to its recorded state, every
evaluation or manual operation reports exactly the lazy steps taken since the
last one, the version counts the transitions taken, the tracked set holds exactly
the groups that are not closed, a closed breaker has neither an end nor the manual
flag, and an open one has an end or is manual. -/
theorem breaker_history_gap_free {start : Site} {ops : List SiteOp} {final : SiteRun}
    (closed : start.brk = fun _ => {}) (untracked : start.brko = ∅)
    (clock : ∀ op ∈ ops, ∀ time, op.clock = some time → 0 ≤ time)
    (reached : Machine.run siteStep (SiteRun.start start) ops = some final) (eg : Hkey) :
    pathFrom .closed (history eg final.past) = some (recordedState (final.site.brk eg)) ∧
    (∀ earlier event later, final.past = earlier ++ event :: later →
      ReportsDue eg earlier event) ∧
    (final.site.brk eg).v = taken eg final.past ∧
    (eg ∈ final.site.brko ↔ (final.site.brk eg).st ≠ .closed) ∧
    ((final.site.brk eg).st = .closed →
      (final.site.brk eg).ou = 0 ∧ (final.site.brk eg).man = 0) ∧
    ((final.site.brk eg).st = .opened →
      0 < (final.site.brk eg).ou ∨ (final.site.brk eg).man = 1) := by
  have recorded := recorded_run closed untracked clock reached eg
  exact ⟨recorded.path, recorded.reported, recorded.version, recorded.tracked,
    recorded.shape.closed, fun opened => (recorded.shape.opened opened).imp id And.right⟩

def defaultEval (eg : Hkey) (now : Int) : EvalArgs where
  eg := eg
  now := now
  bucketMs := 10000
  buckets := 12
  minRequests := 20
  riskGte := 0
  captchaGte := 0
  successLte := 0
  openMs := 120000
  maxOpenMs := 3600000
  resetAfterMs := 1800000
  closeMin := 5
  closeRatio := 4 / 5
  mode := .eval
  enabled := true
  captcha := 0

/-- A timed manual open, a lazy half-open by an acquire, its report and a manual close. -/
def lazyCycle : List SiteOp :=
  [.setBreaker { eg := 1, now := 1000, op := .openIt, duration := 1000, reason := "" },
    .acquire (plainAcquire 1 3000 "a"), .evalBreaker (defaultEval 1 4000),
    .setBreaker { eg := 1, now := 5000, op := .closeIt, duration := 0, reason := "" }]

theorem lazy_cycle_recorded :
    ∃ final, Machine.run siteStep (SiteRun.start {}) lazyCycle = some final ∧
      (history 1 final.past).map (fun record => (record.source, record.target, record.unseen)) =
        [(.closed, .opened, false), (.opened, .halfOpen, true), (.halfOpen, .closed, false)] ∧
      pathFrom .closed (history 1 final.past) = some (recordedState (final.site.brk 1)) := by
  refine ⟨_, rfl, by decide +kernel, ?_⟩
  have clock : ∀ op ∈ lazyCycle, ∀ time, op.clock = some time → 0 ≤ time := by
    simp [lazyCycle, SiteOp.clock, plainAcquire, defaultEval]
  exact (breaker_history_gap_free rfl rfl clock rfl 1).1

end Spinneret.Runs
