import Mathlib.Algebra.Order.Group.Multiset
import Mathlib.Data.List.Nodup
import Mathlib.Data.List.Range
import Mathlib.Order.Basic
import Mathlib.Tactic.Abel
import Spinneret.Sdk.Reporter

/-!
# The accounts of the reporter

Each submitted report is queued, in flight, sent or dropped, and the counters say how
many; what is sent, in flight and queued follows the order of submission. From this come
what a returning `Flush` answers for, and when a returning `Close` is right.
-/

namespace Spinneret.Sdk

open Spinneret.Lib

set_option autoImplicit false

def Reporter.batch (r : Reporter) : List QueuedReport :=
  match r.worker with
  | .sending batch => batch
  | _ => []

/-- What is still to be sent or being sent, oldest first. -/
def Reporter.unsettled (r : Reporter) : List Nat := numbers (r.batch ++ r.queue)

structure Accounted (opts : ReporterOptions) (r : Reporter) : Prop where
  classes : (r.sent ++ r.dropped ++ r.unsettled).Perm (List.range r.stats.submitted)
  order : (r.sent ++ r.unsettled).Pairwise (· < ·)
  sentCount : r.stats.sent = r.sent.length
  droppedCount : r.stats.dropped = r.dropped.length
  inflightCount : r.inflight = r.batch.length
  limit : r.queue.length ≤ opts.maxQueueSize
  fresh : r.started = false → r.stats.submitted = 0 ∧ r.worker = .notStarted
  flushed : ∀ before ∈ r.flushed, ∀ n < before, n ∈ r.sent ∨ n ∈ r.dropped
  waiting : ∀ call before, r.flushes call = some (.waiting before) → before ≤ r.stats.submitted
  closes : ∀ call c, r.closes call = some c →
    c.droppedThen <+: r.dropped ∧ c.droppedBefore = c.droppedThen.length

variable {new : Nat} {gone : List Nat} {call : Nat} {label : ReporterStep}

section Facts

variable {opts : ReporterOptions} {r next : Reporter}

theorem numbers_append (first second : List QueuedReport) :
    numbers (first ++ second) = numbers first ++ numbers second := List.map_append

theorem Accounted.settled_of_idle (accounted : Accounted opts r) (idle : r.idle) {n : Nat}
    (submitted : n < r.stats.submitted) : n ∈ r.sent ∨ n ∈ r.dropped := by
  have none : r.unsettled = [] := by
    have batch : r.batch = [] := List.length_eq_zero_iff.mp (accounted.inflightCount ▸ idle.2)
    rw [Reporter.unsettled, batch, idle.1]
    rfl
  have listed := accounted.classes.mem_iff.mpr (List.mem_range.mpr submitted)
  rw [none, List.append_nil] at listed
  exact List.mem_append.mp listed

/-- A step of the delivery: unsettled reports and the new ones are sent, stay, or go, with
the order kept. -/
structure Delivered (r next : Reporter) (new : Nat) (gone : List Nat) : Prop where
  submitted : next.stats.submitted = r.stats.submitted + new
  dropped : next.dropped = r.dropped ++ gone
  sent : r.sent <+: next.sent
  kept : (next.sent ++ next.unsettled).Sublist
    (r.sent ++ r.unsettled ++ List.range' r.stats.submitted new)
  parts : (gone ++ (next.sent ++ next.unsettled)).Perm
    (r.sent ++ r.unsettled ++ List.range' r.stats.submitted new)
  flushed : next.flushed = r.flushed
  flushes : next.flushes = r.flushes
  closes : next.closes = r.closes

theorem Accounted.lt_submitted (accounted : Accounted opts r) {n : Nat}
    (listed : n ∈ r.sent ++ r.unsettled) : n < r.stats.submitted := by
  refine List.mem_range.mp (accounted.classes.mem_iff.mp ?_)
  rcases List.mem_append.mp listed with sent | unsettled
  · exact List.mem_append_left _ (List.mem_append_left _ sent)
  · exact List.mem_append_right _ unsettled

theorem delivered_classes (accounted : Accounted opts r) (delivered : Delivered r next new gone) :
    (next.sent ++ next.dropped ++ next.unsettled).Perm (List.range next.stats.submitted) := by
  have total : List.range next.stats.submitted =
      List.range r.stats.submitted ++ List.range' r.stats.submitted new := by
    have joined := @List.range'_append_1 0 r.stats.submitted new
    rw [Nat.zero_add] at joined
    rw [delivered.submitted, List.range_eq_range', List.range_eq_range', joined]
  have before := Multiset.coe_eq_coe.mpr accounted.classes
  have parts := Multiset.coe_eq_coe.mpr delivered.parts
  refine Multiset.coe_eq_coe.mp ?_
  rw [total, delivered.dropped]
  simp only [← Multiset.coe_add] at before parts ⊢
  rw [← before]
  calc (next.sent : Multiset Nat) + (r.dropped + gone) + next.unsettled
      = r.dropped + (gone + (next.sent + next.unsettled)) := by abel
    _ = r.sent + r.dropped + r.unsettled + List.range' r.stats.submitted new := by
        rw [parts]
        abel

theorem delivered_order (accounted : Accounted opts r) (delivered : Delivered r next new gone) :
    (next.sent ++ next.unsettled).Pairwise (· < ·) := by
  refine List.Pairwise.sublist delivered.kept (List.pairwise_append.mpr
    ⟨accounted.order, List.pairwise_lt_range', fun first early second late => ?_⟩)
  have below := accounted.lt_submitted early
  have from_ := (List.mem_range'_1.mp late).1
  omega

theorem delivered_accounted (accounted : Accounted opts r) (delivered : Delivered r next new gone)
    (sentCount : next.stats.sent = next.sent.length)
    (droppedCount : next.stats.dropped = r.stats.dropped + gone.length)
    (inflightCount : next.inflight = next.batch.length)
    (limit : next.queue.length ≤ opts.maxQueueSize)
    (fresh : next.started = false → next.stats.submitted = 0 ∧ next.worker = .notStarted) :
    Accounted opts next where
  classes := delivered_classes accounted delivered
  order := delivered_order accounted delivered
  sentCount := sentCount
  droppedCount := by
    rw [droppedCount, delivered.dropped, List.length_append, accounted.droppedCount]
  inflightCount := inflightCount
  limit := limit
  fresh := fresh
  flushed before listed n earlier := by
    rw [delivered.flushed] at listed
    rcases accounted.flushed before listed n earlier with sent | dropped
    · exact Or.inl (delivered.sent.subset sent)
    · exact Or.inr (delivered.dropped ▸ List.mem_append_left _ dropped)
  waiting call before held := by
    rw [delivered.flushes] at held
    have early := accounted.waiting call before held
    have grown := delivered.submitted
    omega
  closes call c held := by
    rw [delivered.closes] at held
    have old := accounted.closes call c held
    exact ⟨old.1.trans (delivered.dropped ▸ List.prefix_append _ _), old.2⟩

/-! ### The steps -/

/-- Of the unsettled reports and the new ones, in order, a middle part goes. -/
theorem Delivered.of_split (front back : List Nat)
    (submitted : next.stats.submitted = r.stats.submitted + new)
    (dropped : next.dropped = r.dropped ++ gone) (sent : r.sent <+: next.sent)
    (before : r.unsettled ++ List.range' r.stats.submitted new = front ++ gone ++ back)
    (after : next.sent ++ next.unsettled = r.sent ++ (front ++ back))
    (flushed : next.flushed = r.flushed) (flushes : next.flushes = r.flushes)
    (closes : next.closes = r.closes) : Delivered r next new gone := by
  refine ⟨submitted, dropped, sent, ?_, ?_, flushed, flushes, closes⟩
  · rw [after, List.append_assoc, before]
    refine (List.Sublist.refl _).append ?_
    exact (List.sublist_append_left front gone).append (List.Sublist.refl back)
  · rw [after, List.append_assoc r.sent, before]
    refine Multiset.coe_eq_coe.mp ?_
    simp only [← Multiset.coe_add]
    abel

theorem Accounted.busy (accounted : Accounted opts r) (busy : r.worker ≠ .notStarted)
    {fresh : Prop} (idle : r.started = false) : fresh :=
  absurd (accounted.fresh idle).2 busy

theorem take_accounted (accounted : Accounted opts r) (polling : r.worker = .polling) :
    Accounted opts (r.take opts) := by
  have busy : r.worker ≠ .notStarted := by simp [polling]
  have noBatch : r.batch = [] := by rw [Reporter.batch, polling]
  have same : (r.take opts).unsettled = r.unsettled := by
    rw [Reporter.unsettled, Reporter.unsettled, noBatch]
    exact congrArg numbers (List.take_append_drop _ r.queue)
  have delivered : Delivered r (r.take opts) 0 [] :=
    .of_split r.unsettled [] rfl (List.append_nil _).symm (List.prefix_refl _)
      (by simp) (by rw [same, List.append_nil]; rfl) rfl rfl rfl
  refine delivered_accounted accounted delivered accounted.sentCount rfl ?_ ?_ ?_
  · exact (List.length_take_of_le (Nat.min_le_left _ _)).symm
  · exact (List.drop_sublist _ _).length_le.trans accounted.limit
  · exact accounted.busy busy

/-- A queue behind a batch is trimmed to its limit. -/
theorem trim_length (reports : List QueuedReport) :
    (reports.drop (reports.length - opts.maxQueueSize)).length ≤ opts.maxQueueSize := by
  rw [List.length_drop]
  omega

theorem numbers_take_drop (reports : List QueuedReport) (n : Nat) :
    numbers (reports.take n) ++ numbers (reports.drop n) = numbers reports := by
  rw [← numbers_append, List.take_append_drop]

theorem taken_length (reports : List QueuedReport) {n : Nat} (few : n ≤ reports.length) :
    (numbers (reports.take n)).length = n := by
  rw [numbers, List.length_map, List.length_take_of_le few]

theorem submit_delivered (accounted : Accounted opts r) (report : Report) (newReportID : String)
    (now : Int) (opened : r.closing = false) :
    ∃ entry : QueuedReport, entry.number = r.stats.submitted ∧
      Delivered r (r.submit opts (some report) newReportID now) 1 (numbers
        ((r.queue ++ [entry]).take ((r.queue ++ [entry]).length - opts.maxQueueSize))) ∧
      (r.submit opts (some report) newReportID now).queue =
        (r.queue ++ [entry]).drop ((r.queue ++ [entry]).length - opts.maxQueueSize) ∧
      (r.submit opts (some report) newReportID now).stats =
        { r.stats with
          submitted := r.stats.submitted + 1
          dropped := r.stats.dropped + ((r.queue ++ [entry]).length - opts.maxQueueSize) } ∧
      (r.submit opts (some report) newReportID now).batch = r.batch := by
  set entry : QueuedReport :=
    { report := report.complete newReportID now, enqueuedAt := now, number := r.stats.submitted }
  set next := r.submit opts (some report) newReportID now with nextEq
  unfold Reporter.submit at nextEq
  rw [opened] at nextEq
  have batch : next.batch = r.batch := by
    cases started : r.started with
    | true =>
      rw [nextEq, Reporter.batch, Reporter.batch]
      simp [started]
    | false =>
      rw [nextEq, Reporter.batch, Reporter.batch, (accounted.fresh started).2]
      simp [started]
  refine ⟨entry, rfl, ?_, by rw [nextEq]; rfl, by rw [nextEq]; rfl, batch⟩
  refine .of_split (numbers r.batch) (numbers next.queue) (by rw [nextEq]; rfl)
    (by rw [nextEq]; rfl) (by rw [nextEq]; exact List.prefix_refl _) ?_ ?_ (by rw [nextEq]; rfl)
    (by rw [nextEq]; rfl) (by rw [nextEq]; rfl)
  · have queue : next.queue =
        (r.queue ++ [entry]).drop ((r.queue ++ [entry]).length - opts.maxQueueSize) := by
      rw [nextEq]
      rfl
    rw [queue, List.append_assoc, numbers_take_drop, Reporter.unsettled, numbers_append,
      numbers_append, List.append_assoc]
    rfl
  · rw [Reporter.unsettled, batch, numbers_append, nextEq]
    rfl

theorem submit_accounted (accounted : Accounted opts r) (report : Option Report)
    (newReportID : String) (now : Int) :
    Accounted opts (r.submit opts report newReportID now) := by
  cases report with
  | none => exact accounted
  | some report =>
    cases opened : r.closing with
    | true =>
      have refused : r.submit opts (some report) newReportID now = r := by
        simp only [Reporter.submit, opened, if_true]
      exact refused.symm ▸ accounted
    | false =>
      obtain ⟨entry, -, delivered, queue, stats, batch⟩ :=
        submit_delivered accounted report newReportID now opened
      refine delivered_accounted accounted delivered ?_ ?_ ?_ ?_ ?_
      · rw [stats, accounted.sentCount, Reporter.submit, opened]
        rfl
      · rw [stats, taken_length _ (Nat.sub_le _ _)]
      · rw [batch, ← accounted.inflightCount, Reporter.submit, opened]
        rfl
      · rw [queue]
        exact trim_length _
      · intro idle
        rw [Reporter.submit, opened] at idle
        cases idle

theorem response_accounted {batch : List QueuedReport} (accounted : Accounted opts r)
    (sending : r.worker = .sending batch) (accepted duplicated rejected : Nat) :
    Accounted opts (r.recordResponse batch accepted duplicated rejected) := by
  have busy : r.worker ≠ .notStarted := by simp [sending]
  have held : r.batch = batch := by rw [Reporter.batch, sending]
  have delivered : Delivered r (r.recordResponse batch accepted duplicated rejected) 0 [] := by
    refine .of_split (numbers batch) (numbers r.queue) rfl (List.append_nil _).symm
      (List.prefix_append _ _) ?_ ?_ rfl rfl rfl
    · rw [Reporter.unsettled, held, numbers_append, List.append_nil]
      exact List.append_nil _
    · rw [Reporter.recordResponse, List.append_assoc]
      rfl
  refine delivered_accounted accounted delivered ?_ rfl rfl accounted.limit ?_
  · rw [Reporter.recordResponse]
    dsimp only
    rw [accounted.sentCount, List.length_append, numbers, List.length_map]
  · exact accounted.busy busy

theorem failure_delivered {batch : List QueuedReport} (sending : r.worker = .sending batch)
    (retryable : Bool) :
    ∃ gone, Delivered r (r.recordFailure opts batch retryable) 0 gone ∧
      (r.recordFailure opts batch retryable).stats.dropped = r.stats.dropped + gone.length ∧
      (retryable = true ∧ r.canceled = false ∧
          gone = numbers ((batch ++ r.queue).take
            ((batch ++ r.queue).length - opts.maxQueueSize)) ∧
          (r.recordFailure opts batch retryable).queue =
            (batch ++ r.queue).drop ((batch ++ r.queue).length - opts.maxQueueSize) ∨
        (retryable = true → r.canceled = true) ∧ gone = numbers batch ∧
          (r.recordFailure opts batch retryable).queue = r.queue) := by
  have held : r.batch = batch := by rw [Reporter.batch, sending]
  by_cases retry : retryable = true ∧ ¬r.canceled = true
  · have nextEq : r.recordFailure opts batch retryable = _ := if_pos retry
    rw [nextEq]
    refine ⟨_, .of_split [] (numbers ((batch ++ r.queue).drop
      ((batch ++ r.queue).length - opts.maxQueueSize))) rfl rfl (List.prefix_refl _) ?_ rfl rfl rfl
      rfl, ?_, Or.inl ⟨retry.1, by simpa using retry.2, rfl, rfl⟩⟩
    · rw [List.nil_append]
      refine Eq.trans ?_ (numbers_take_drop _ _).symm
      rw [Reporter.unsettled, held]
      exact List.append_nil _
    · rw [taken_length _ (Nat.sub_le _ _)]
      rfl
  · have nextEq : r.recordFailure opts batch retryable = _ := if_neg retry
    rw [nextEq]
    refine ⟨numbers batch, .of_split [] (numbers r.queue) rfl rfl (List.prefix_refl _) ?_ rfl rfl
      rfl rfl, ?_, Or.inr ⟨fun yes => ?_, rfl, rfl⟩⟩
    · rw [Reporter.unsettled, held, numbers_append]
      exact List.append_nil _
    · rw [numbers, List.length_map]
    · by_contra running
      exact retry ⟨yes, running⟩

theorem failure_accounted {batch : List QueuedReport} (accounted : Accounted opts r)
    (sending : r.worker = .sending batch) (retryable : Bool) :
    Accounted opts (r.recordFailure opts batch retryable) := by
  have busy : r.worker ≠ .notStarted := by simp [sending]
  obtain ⟨gone, delivered, counted, outcome⟩ := @failure_delivered opts r batch sending retryable
  have queue : (r.recordFailure opts batch retryable).queue.length ≤ opts.maxQueueSize := by
    rcases outcome with ⟨-, -, -, queue⟩ | ⟨-, -, queue⟩
    · rw [queue]
      exact trim_length _
    · rw [queue]
      exact accounted.limit
  refine delivered_accounted accounted delivered ?_ counted ?_ queue ?_
  all_goals
    unfold Reporter.recordFailure
    dsimp only
    split_ifs
  · exact accounted.sentCount
  · exact accounted.sentCount
  · rfl
  · rfl
  · exact accounted.busy busy
  · exact accounted.busy busy

theorem drop_all_accounted (accounted : Accounted opts r) (polling : r.worker = .polling) :
    Accounted opts { r.dropAll with worker := .leaving } := by
  have busy : r.worker ≠ .notStarted := by simp [polling]
  have noBatch : r.batch = [] := by rw [Reporter.batch, polling]
  have delivered : Delivered r { r.dropAll with worker := .leaving } 0 (numbers r.queue) := by
    refine .of_split [] [] rfl rfl (List.prefix_refl _) ?_ rfl rfl rfl rfl
    rw [Reporter.unsettled, noBatch]
    simp
  refine delivered_accounted accounted delivered accounted.sentCount ?_ ?_ (Nat.zero_le _) ?_
  · rw [numbers, List.length_map]
    rfl
  · have count := accounted.inflightCount
    rw [noBatch] at count
    exact count
  · exact accounted.busy busy

theorem poll_accounted (accounted : Accounted opts r) (polling : r.worker = .polling) (now : Int) :
    Accounted opts (r.poll opts now) := by
  unfold Reporter.poll
  split_ifs
  · exact drop_all_accounted accounted polling
  · exact take_accounted accounted polling
  · exact take_accounted accounted polling
  · exact accounted

theorem framed_accounted (accounted : Accounted opts r) (queue : next.queue = r.queue)
    (batch : next.batch = r.batch) (sent : next.sent = r.sent) (dropped : next.dropped = r.dropped)
    (stats : next.stats = r.stats) (inflight : next.inflight = r.inflight)
    (fresh : next.started = false → next.stats.submitted = 0 ∧ next.worker = .notStarted)
    (flushed : ∀ before ∈ next.flushed,
      before ∈ r.flushed ∨ r.idle ∧ before ≤ r.stats.submitted)
    (waiting : ∀ call before, next.flushes call = some (.waiting before) →
      before ≤ r.stats.submitted)
    (closes : ∀ call c, next.closes call = some c →
      c.droppedThen <+: r.dropped ∧ c.droppedBefore = c.droppedThen.length) :
    Accounted opts next := by
  have unsettled : next.unsettled = r.unsettled := by
    rw [Reporter.unsettled, Reporter.unsettled, batch, queue]
  refine ⟨?_, ?_, ?_, ?_, ?_, ?_, fresh, ?_, ?_, ?_⟩
  · rw [sent, dropped, unsettled, stats]
    exact accounted.classes
  · rw [sent, unsettled]
    exact accounted.order
  · rw [sent, stats]
    exact accounted.sentCount
  · rw [dropped, stats]
    exact accounted.droppedCount
  · rw [batch, inflight]
    exact accounted.inflightCount
  · rw [queue]
    exact accounted.limit
  · intro before listed n earlier
    rw [sent, dropped]
    rcases flushed before listed with old | ⟨idle, upTo⟩
    · exact accounted.flushed before old n earlier
    · exact accounted.settled_of_idle idle (by omega)
  · intro call before held
    rw [stats]
    exact waiting call before held
  · intro call c held
    rw [dropped]
    exact closes call c held

theorem update_waiting {entry : Option FlushCall} (accounted : Accounted opts r)
    (fits : ∀ before, entry = some (.waiting before) → before ≤ r.stats.submitted) :
    ∀ other before, Function.update r.flushes call entry other = some (.waiting before) →
      before ≤ r.stats.submitted := by
  intro other before held
  rcases Machine.update_cases held with ⟨-, same⟩ | ⟨-, same⟩
  · exact fits before same
  · exact accounted.waiting other before same

theorem update_closes {entry : Option CloseCall} (accounted : Accounted opts r)
    (fits : ∀ c, entry = some c →
      c.droppedThen <+: r.dropped ∧ c.droppedBefore = c.droppedThen.length) :
    ∀ other c, Function.update r.closes call entry other = some c →
      c.droppedThen <+: r.dropped ∧ c.droppedBefore = c.droppedThen.length := by
  intro other c held
  rcases Machine.update_cases held with ⟨-, same⟩ | ⟨-, same⟩
  · exact fits c same
  · exact accounted.closes other c same

theorem moved_close_accounted {c : CloseCall} {phase : ClosePhase} {canceled : Bool}
    (accounted : Accounted opts r) (held : r.closes call = some c) :
    Accounted opts { r with
      canceled := canceled
      closes := Function.update r.closes call (some { c with phase := phase }) } := by
  refine framed_accounted accounted rfl rfl rfl rfl rfl rfl accounted.fresh (fun _ => Or.inl)
    accounted.waiting (update_closes accounted fun other same => ?_)
  obtain rfl := Option.some.inj same
  exact accounted.closes call c held

theorem reporter_step_accounted (accounted : Accounted opts r)
    (stepped : reporterStep opts r label = some next) : Accounted opts next := by
  cases label with
  | submit report newReportID now =>
    obtain rfl := Option.some.inj stepped
    exact submit_accounted accounted report newReportID now
  | poll now =>
    dsimp only [reporterStep] at stepped
    split at stepped
    next polling =>
      obtain rfl := Option.some.inj stepped
      exact poll_accounted accounted polling now
    · cases stepped
  | respond accepted duplicated rejected =>
    dsimp only [reporterStep] at stepped
    split at stepped
    next batch sending =>
      obtain rfl := Option.some.inj stepped
      exact response_accounted accounted sending accepted duplicated rejected
    · cases stepped
  | fail retryable =>
    dsimp only [reporterStep] at stepped
    split at stepped
    next batch sending =>
      obtain rfl := Option.some.inj stepped
      exact failure_accounted accounted sending retryable
    · cases stepped
  | resume =>
    dsimp only [reporterStep] at stepped
    split at stepped
    next waits =>
      obtain rfl := Option.some.inj stepped
      have busy : r.worker ≠ .notStarted := by simp [waits]
      refine framed_accounted accounted rfl ?_ rfl rfl rfl rfl
        (accounted.busy busy) (fun _ => Or.inl)
        accounted.waiting accounted.closes
      rw [Reporter.batch, Reporter.batch, waits]
    · cases stepped
  | leave =>
    dsimp only [reporterStep] at stepped
    split at stepped
    next leaves =>
      obtain rfl := Option.some.inj stepped
      have busy : r.worker ≠ .notStarted := by simp [leaves]
      have noBatch : r.batch = [] := by rw [Reporter.batch, leaves]
      refine framed_accounted accounted rfl ?_ rfl rfl rfl ?_
        (accounted.busy busy) (fun _ => Or.inl)
        accounted.waiting accounted.closes
      · rw [noBatch]
        rfl
      · rw [accounted.inflightCount, noBatch]
        rfl
    · cases stepped
  | flush call =>
    dsimp only [reporterStep] at stepped
    split at stepped
    · cases stepped
    · split_ifs at stepped with idle
      · obtain rfl := Option.some.inj stepped
        refine framed_accounted accounted rfl rfl rfl rfl rfl rfl accounted.fresh ?_
          accounted.waiting accounted.closes
        intro before listed
        rcases List.mem_cons.mp listed with rfl | old
        · exact Or.inr ⟨idle, Nat.le_refl _⟩
        · exact Or.inl old
      · obtain rfl := Option.some.inj stepped
        refine framed_accounted accounted rfl rfl rfl rfl rfl rfl accounted.fresh
          (fun _ => Or.inl) (update_waiting accounted fun before same => ?_) accounted.closes
        obtain rfl := FlushCall.waiting.inj (Option.some.inj same)
        exact Nat.le_refl _
  | flushCheck call =>
    dsimp only [reporterStep] at stepped
    split at stepped
    next before held =>
      split_ifs at stepped with idle
      · obtain rfl := Option.some.inj stepped
        refine framed_accounted accounted rfl rfl rfl rfl rfl rfl accounted.fresh ?_
          (update_waiting accounted fun other same => by cases same) accounted.closes
        intro other listed
        rcases List.mem_cons.mp listed with rfl | old
        · exact Or.inr ⟨idle, accounted.waiting call other held⟩
        · exact Or.inl old
      · obtain rfl := Option.some.inj stepped
        exact accounted
    · cases stepped
  | flushExpire call | flushReturn call =>
    dsimp only [reporterStep] at stepped
    split at stepped
    · obtain rfl := Option.some.inj stepped
      exact framed_accounted accounted rfl rfl rfl rfl rfl rfl accounted.fresh (fun _ => Or.inl)
        (update_waiting accounted fun other same => by cases same) accounted.closes
    · cases stepped
  | close call =>
    dsimp only [reporterStep] at stepped
    split at stepped
    · cases stepped
    · split_ifs at stepped
      · obtain rfl := Option.some.inj stepped
        refine framed_accounted accounted rfl rfl rfl rfl rfl rfl accounted.fresh
          (fun _ => Or.inl) accounted.waiting (update_closes accounted fun c same => ?_)
        obtain rfl := Option.some.inj same
        exact ⟨List.prefix_refl _, accounted.droppedCount⟩
      · obtain rfl := Option.some.inj stepped
        exact framed_accounted accounted rfl rfl rfl rfl rfl rfl accounted.fresh
          (fun _ => Or.inl) accounted.waiting accounted.closes
  | closeDone call | closeExpire call | closeGrace call =>
    dsimp only [reporterStep] at stepped
    split at stepped
    · rw [Option.ite_none_right_eq_some] at stepped
      obtain rfl := Option.some.inj stepped.2
      exact moved_close_accounted accounted ‹_›
    · cases stepped
  | closeReturn call =>
    dsimp only [reporterStep] at stepped
    split at stepped
    next c held =>
      rw [Option.ite_none_right_eq_some] at stepped
      obtain rfl := Option.some.inj stepped.2
      unfold Reporter.closeEnds
      dsimp only
      split_ifs
      all_goals
        exact framed_accounted accounted rfl rfl rfl rfl rfl rfl accounted.fresh
          (fun _ => Or.inl) accounted.waiting
          (update_closes accounted fun _ none => by cases none)
    · cases stepped

/-! ### What is dropped -/

/-- What a step drops, by its kind: the front of a queue that is too long, a batch that is
not to be sent again, or all that is left when closing has run out of time. -/
def DropsOldest (opts : ReporterOptions) (r next : Reporter) (gone : List Nat) :
    ReporterStep → Prop
  | .submit _ _ _ => ∃ new, numbers r.queue ++ new = gone ++ numbers next.queue ∧
      gone.length = r.queue.length + new.length - opts.maxQueueSize
  | .fail retryable =>
    retryable = true ∧ r.canceled = false ∧
        numbers (r.batch ++ r.queue) = gone ++ numbers next.queue ∧
        gone.length = (r.batch ++ r.queue).length - opts.maxQueueSize ∨
      (retryable = true → r.canceled = true) ∧ gone = numbers r.batch
  | .poll _ => gone = [] ∨ r.closing = true ∧ r.canceled = true ∧ gone = numbers r.queue
  | _ => gone = []

theorem submit_drops (accounted : Accounted opts r) (report : Option Report) (newReportID : String)
    (now : Int) : ∃ gone, (r.submit opts report newReportID now).dropped = r.dropped ++ gone ∧
      DropsOldest opts r (r.submit opts report newReportID now) gone
        (.submit report newReportID now) := by
  have kept : ∃ gone, r.dropped = r.dropped ++ gone ∧
      DropsOldest opts r r gone (.submit report newReportID now) := by
    refine ⟨[], (List.append_nil _).symm, [], by simp, ?_⟩
    have limit := accounted.limit
    simp only [List.length_nil]
    omega
  cases report with
  | none => exact kept
  | some report =>
    cases opened : r.closing with
    | true =>
      have refused : r.submit opts (some report) newReportID now = r := by
        simp only [Reporter.submit, opened, if_true]
      exact refused.symm ▸ kept
    | false =>
      obtain ⟨entry, -, delivered, queue, -, -⟩ :=
        submit_delivered accounted report newReportID now opened
      refine ⟨_, delivered.dropped, [entry.number], ?_, ?_⟩
      · rw [queue, numbers_take_drop, numbers_append]
        rfl
      · rw [taken_length _ (Nat.sub_le _ _), List.length_append]
        rfl

/-- The steps of the callers and the waits of the worker move no report. -/
def ReporterStep.delivers : ReporterStep → Bool
  | .submit _ _ _ | .poll _ | .respond _ _ _ | .fail _ => true
  | _ => false

/-- What a `Close` that returns without an error answers for. -/
def Reporter.closeReturn (r : Reporter) (droppedThen : List Nat) : CloseReturn where
  droppedThen := droppedThen
  dropped := r.dropped
  sent := r.sent
  submitted := r.stats.submitted

/-- A `Close` returns without an error before anything was submitted, or with no report
queued and none dropped since it began. -/
inductive CloseEffect (r next : Reporter) : ReporterStep → Prop where
  | other (label : ReporterStep) (same : next.closed = r.closed)
      (quiet : ∀ call, label = .closeReturn call → ∃ c, r.closes call = some c ∧
        (c.droppedBefore < r.stats.dropped ∨ 0 < r.queue.length)) : CloseEffect r next label
  | unstarted (call : Nat) (idle : r.started = false)
      (closed : next.closed = r.closeReturn r.dropped :: r.closed) : CloseEffect r next (.close call)
  | ended (call : Nat) (c : CloseCall) (held : r.closes call = some c)
      (clean : ¬(c.droppedBefore < r.stats.dropped ∨ 0 < r.queue.length))
      (closed : next.closed = r.closeReturn c.droppedThen :: r.closed) :
      CloseEffect r next (.closeReturn call)

theorem quiet_step (quiet : label.delivers = false)
    (stepped : reporterStep opts r label = some next) :
    next.dropped = r.dropped ∧ CloseEffect r next label := by
  cases label with
  | submit | poll | respond | fail => cases quiet
  | resume | leave | flushExpire | flushReturn =>
    dsimp only [reporterStep] at stepped
    split at stepped
    · obtain rfl := Option.some.inj stepped
      exact ⟨rfl, .other _ rfl fun call eq => by cases eq⟩
    · cases stepped
  | flush call =>
    dsimp only [reporterStep] at stepped
    split at stepped
    · cases stepped
    · split_ifs at stepped
      all_goals
        obtain rfl := Option.some.inj stepped
        exact ⟨rfl, .other _ rfl fun call eq => by cases eq⟩
  | flushCheck call =>
    dsimp only [reporterStep] at stepped
    split at stepped
    · split_ifs at stepped
      all_goals
        obtain rfl := Option.some.inj stepped
        exact ⟨rfl, .other _ rfl fun call eq => by cases eq⟩
    · cases stepped
  | close call =>
    dsimp only [reporterStep] at stepped
    split at stepped
    · cases stepped
    · split_ifs at stepped with started
      · obtain rfl := Option.some.inj stepped
        exact ⟨rfl, .other _ rfl fun call eq => by cases eq⟩
      · obtain rfl := Option.some.inj stepped
        exact ⟨rfl, .unstarted call (by simpa using started) rfl⟩
  | closeDone | closeExpire | closeGrace =>
    dsimp only [reporterStep] at stepped
    split at stepped
    · rw [Option.ite_none_right_eq_some] at stepped
      obtain rfl := Option.some.inj stepped.2
      exact ⟨rfl, .other _ rfl fun call eq => by cases eq⟩
    · cases stepped
  | closeReturn call =>
    dsimp only [reporterStep] at stepped
    split at stepped
    next c held =>
      rw [Option.ite_none_right_eq_some] at stepped
      obtain rfl := Option.some.inj stepped.2
      unfold Reporter.closeEnds
      dsimp only
      split_ifs with failed
      · refine ⟨rfl, .other _ rfl fun other eq => ?_⟩
        obtain rfl := ReporterStep.closeReturn.inj eq
        exact ⟨c, held, failed⟩
      · exact ⟨rfl, .ended call c held failed rfl⟩
    · cases stepped

theorem reporter_step_drops (accounted : Accounted opts r)
    (stepped : reporterStep opts r label = some next) :
    ∃ gone, next.dropped = r.dropped ++ gone ∧ DropsOldest opts r next gone label := by
  have none : r.dropped = r.dropped ++ [] := (List.append_nil _).symm
  cases label with
  | submit report newReportID now =>
    obtain rfl := Option.some.inj stepped
    exact submit_drops accounted report newReportID now
  | poll now =>
    dsimp only [reporterStep] at stepped
    split at stepped
    · obtain rfl := Option.some.inj stepped
      unfold Reporter.poll
      split_ifs with closing ended
      · refine ⟨numbers r.queue, rfl, ?_⟩
        rcases ended with empty | canceled
        · exact Or.inl (by rw [empty]; rfl)
        · exact Or.inr ⟨closing, canceled, rfl⟩
      · exact ⟨[], none, Or.inl rfl⟩
      · exact ⟨[], none, Or.inl rfl⟩
      · exact ⟨[], none, Or.inl rfl⟩
    · cases stepped
  | fail retryable =>
    dsimp only [reporterStep] at stepped
    split at stepped
    next batch sending =>
      obtain rfl := Option.some.inj stepped
      have held : r.batch = batch := by rw [Reporter.batch, sending]
      obtain ⟨gone, delivered, -, outcome⟩ := @failure_delivered opts r batch sending retryable
      refine ⟨gone, delivered.dropped, ?_⟩
      rcases outcome with ⟨retry, running, rfl, queue⟩ | ⟨ended, rfl, -⟩
      · refine Or.inl ⟨retry, running, ?_, ?_⟩
        · rw [queue, numbers_take_drop, held]
        · rw [taken_length _ (Nat.sub_le _ _), held]
      · exact Or.inr ⟨ended, by rw [held]⟩
    · cases stepped
  | respond accepted duplicated rejected =>
    dsimp only [reporterStep] at stepped
    split at stepped
    · obtain rfl := Option.some.inj stepped
      exact ⟨[], none, rfl⟩
    · cases stepped
  | resume | leave | flush | flushCheck | flushExpire | flushReturn | close | closeDone
  | closeExpire | closeGrace | closeReturn =>
    exact ⟨[], (quiet_step rfl stepped).1.trans none, rfl⟩

theorem close_effect (stepped : reporterStep opts r label = some next) :
    CloseEffect r next label := by
  cases label with
  | submit report newReportID now =>
    obtain rfl := Option.some.inj stepped
    refine .other _ ?_ fun call eq => by cases eq
    unfold Reporter.submit
    cases report with
    | none => rfl
    | some report =>
      dsimp only
      split_ifs <;> rfl
  | poll now =>
    dsimp only [reporterStep] at stepped
    split at stepped
    · obtain rfl := Option.some.inj stepped
      refine .other _ ?_ fun call eq => by cases eq
      unfold Reporter.poll
      split_ifs <;> rfl
    · cases stepped
  | respond accepted duplicated rejected =>
    dsimp only [reporterStep] at stepped
    split at stepped
    · obtain rfl := Option.some.inj stepped
      exact .other _ rfl fun call eq => by cases eq
    · cases stepped
  | fail retryable =>
    dsimp only [reporterStep] at stepped
    split at stepped
    · obtain rfl := Option.some.inj stepped
      refine .other _ ?_ fun call eq => by cases eq
      unfold Reporter.recordFailure
      dsimp only
      split_ifs <;> rfl
    · cases stepped
  | resume | leave | flush | flushCheck | flushExpire | flushReturn | close | closeDone
  | closeExpire | closeGrace | closeReturn => exact (quiet_step rfl stepped).2

/-! ### When a returning `Close` is right -/

/-- No report was dropped since the call, and every submitted one was sent, or dropped
before the call. -/
def CloseReturn.kept (c : CloseReturn) : Prop :=
  c.dropped = c.droppedThen ∧ ∀ n < c.submitted, n ∈ c.sent ∨ n ∈ c.droppedThen

/-- A `Close` that takes its last look at the counters sees no send in flight, or a report
still queued, or a drop. -/
def CloseGuard (r : Reporter) : ReporterStep → Prop
  | .closeReturn call => ∀ c, r.closes call = some c →
      r.inflight = 0 ∨ 0 < r.queue.length ∨ c.droppedBefore < r.stats.dropped
  | _ => True

theorem close_kept_iff (accounted : Accounted opts r) {c : CloseCall}
    (held : r.closes call = some c)
    (clean : ¬(c.droppedBefore < r.stats.dropped ∨ 0 < r.queue.length)) :
    (r.closeReturn c.droppedThen).kept ↔ r.inflight = 0 := by
  obtain ⟨grown, count⟩ := accounted.closes call c held
  have total := accounted.droppedCount
  have same : r.dropped = c.droppedThen := by
    refine (grown.eq_of_length ?_).symm
    have shorter := grown.length_le
    omega
  have empty : r.queue = [] := List.length_eq_zero_iff.mp (by omega)
  constructor
  · rintro ⟨-, all⟩
    by_contra busy
    rw [accounted.inflightCount] at busy
    obtain ⟨report, listed⟩ := List.exists_mem_of_length_pos (Nat.pos_of_ne_zero busy)
    have unsettled : report.number ∈ r.unsettled :=
      List.mem_map_of_mem (List.mem_append_left _ listed)
    have submitted := accounted.lt_submitted (List.mem_append_right _ unsettled)
    have distinct := accounted.classes.nodup_iff.mpr List.nodup_range
    rw [List.nodup_append'] at distinct
    refine distinct.2.2 ?_ unsettled
    rcases all report.number submitted with sent | dropped
    · exact List.mem_append_left _ sent
    · exact List.mem_append_right _ (same ▸ dropped)
  · intro idle
    refine ⟨same, fun n submitted => ?_⟩
    rw [← same]
    exact accounted.settled_of_idle ⟨empty, idle⟩ submitted

theorem step_closed_iff (accounted : Accounted opts r)
    (stepped : reporterStep opts r label = some next) :
    (∀ c ∈ next.closed, c.kept) ↔ (∀ c ∈ r.closed, c.kept) ∧ CloseGuard r label := by
  cases close_effect stepped with
  | other _ same quiet =>
    rw [same]
    refine ⟨fun all => ⟨all, ?_⟩, fun both => both.1⟩
    cases label with
    | closeReturn call =>
      intro c held
      obtain ⟨other, there, failed⟩ := quiet call rfl
      obtain rfl := Option.some.inj (held.symm.trans there)
      exact Or.inr failed.symm
    | _ => trivial
  | unstarted call idle closed =>
    have right : (r.closeReturn r.dropped).kept := by
      refine ⟨rfl, fun n submitted => ?_⟩
      have none : r.stats.submitted = 0 := (accounted.fresh idle).1
      exact absurd (none ▸ submitted) (Nat.not_lt_zero n)
    rw [closed, List.forall_mem_cons]
    exact ⟨fun all => ⟨all.2, trivial⟩, fun both => ⟨right, both.1⟩⟩
  | ended call c held clean closed =>
    rw [closed, List.forall_mem_cons, close_kept_iff accounted held clean, and_comm]
    refine and_congr_right fun _ => ⟨fun idle other there => Or.inl idle, fun guard => ?_⟩
    rcases guard c held with idle | queued | dropped
    · exact idle
    · exact absurd (Or.inr queued) clean
    · exact absurd (Or.inl dropped) clean

theorem initial_accounted : Accounted opts {} where
  classes := List.Perm.refl _
  order := List.Pairwise.nil
  sentCount := rfl
  droppedCount := rfl
  inflightCount := rfl
  limit := Nat.zero_le _
  fresh _ := ⟨rfl, rfl⟩
  flushed _ listed := absurd listed List.not_mem_nil
  waiting _ _ held := by cases held
  closes _ _ held := by cases held

/-- The accounts of the reporter, for every interleaving of its callers and its worker:
each submitted report is sent, dropped, in flight or queued, once, and the counters agree;
batches succeed in the order of submission; the queue keeps its limit and loses its
oldest reports to it; a `Flush` that returns without an error leaves none of the earlier
reports unsettled; and the returns of `Close` without an error are all right exactly when
each of them took its last look without a send in flight, or with a drop or a queue to
report. -/
theorem reporter_accounting {labels : List ReporterStep} {final : Reporter}
    (reached : Machine.run (reporterStep opts) {} labels = some final) :
    (final.sent ++ final.dropped ++ numbers (final.batch ++ final.queue)).Perm
      (List.range final.stats.submitted) ∧
    final.stats.sent = final.sent.length ∧ final.stats.dropped = final.dropped.length ∧
    final.inflight = final.batch.length ∧
    final.sent.Pairwise (· < ·) ∧
    final.queue.length ≤ opts.maxQueueSize ∧
    (∀ label next, reporterStep opts final label = some next →
      ∃ gone, next.dropped = final.dropped ++ gone ∧ DropsOldest opts final next gone label) ∧
    (∀ before ∈ final.flushed, ∀ n < before, n ∈ final.sent ∨ n ∈ final.dropped) ∧
    ((∀ c ∈ final.closed, c.kept) ↔ Machine.Under (reporterStep opts) CloseGuard {} labels) := by
  have accounted : Accounted opts final := Machine.run_invariant
    (fun r label next accounted stepped => reporter_step_accounted accounted stepped)
    initial_accounted reached
  refine ⟨accounted.classes, accounted.sentCount, accounted.droppedCount, accounted.inflightCount,
    (List.pairwise_append.mp accounted.order).1, accounted.limit,
    fun label next stepped => reporter_step_drops accounted stepped, accounted.flushed, ?_⟩
  have iff := @Machine.run_iff_under _ _ (reporterStep opts) CloseGuard (Accounted opts)
    (fun r => ∀ c ∈ r.closed, c.kept)
    (fun r label next accounted stepped => reporter_step_accounted accounted stepped)
    (fun r label next accounted stepped => step_closed_iff accounted stepped)
    _ _ _ initial_accounted reached
  exact iff.trans (and_iff_right fun c listed => absurd listed List.not_mem_nil)

end Facts

/-! ### A batch that is sent while closing, and a send that never returns -/

def smallQueue : ReporterOptions where
  flushInterval := 200000000
  batchSize := 1
  maxBatchSize := 1
  maxQueueSize := 1

def closedInTime : List ReporterStep :=
  [.submit (some {}) "r0" 0, .poll 0, .submit (some {}) "r1" 1, .flush 0, .close 0, .fail true,
    .resume, .poll 2, .respond 1 0 0, .flushCheck 0, .poll 3, .leave, .closeDone 0, .closeReturn 0]

theorem closed_in_time_accounted :
    ∃ final, Machine.run (reporterStep smallQueue) {} closedInTime = some final ∧
      final.sent = [1] ∧ final.dropped = [0] ∧
      (final.sent ++ final.dropped ++ numbers (final.batch ++ final.queue)).Perm
        (List.range final.stats.submitted) :=
  ⟨_, rfl, rfl, rfl, (reporter_accounting
    (rfl : Machine.run (reporterStep smallQueue) {} closedInTime = _)).1⟩

/-- The only report is in flight when closing runs out of time and grace: `Close` returns
without an error. -/
theorem close_forgets_send :
    ∃ final, Machine.run (reporterStep smallQueue) {}
        [.submit (some {}) "r0" 0, .poll 0, .close 0, .closeExpire 0, .closeGrace 0,
          .closeReturn 0] = some final ∧
      final.sent = [] ∧ final.dropped = [] ∧ ∃ c ∈ final.closed, ¬c.kept := by
  refine ⟨_, rfl, rfl, rfl, _, List.mem_cons_self, fun kept => ?_⟩
  rcases kept.2 0 (by decide) with sent | dropped
  · exact absurd sent (by decide)
  · exact absurd dropped (by decide)

end Spinneret.Sdk
