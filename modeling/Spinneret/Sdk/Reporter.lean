import Mathlib.Data.List.Basic
import Mathlib.Logic.Function.Basic
import Spinneret.Lib.Machine

/-!
# The reporter of the SDK

Reports are queued and sent in batches by one worker, while other goroutines submit,
flush and close. Each part between taking and leaving the lock is one step; a send may
take any time or never return, and a wait may end at any time. Reports carry the number
of their submission, and beside the reporter stand the numbers that were sent and
dropped, and what the calls that returned without an error had to answer for.
-/

namespace Spinneret.Sdk

set_option autoImplicit false

/-- A report, with the fields that are filled in or set on its way. Times are in
nanoseconds. -/
structure Report where
  reportID : String := ""
  startedAt : Option Int := none
  finishedAt : Option Int := none
  latencyMs : Int := 0
  release : Bool := false
  deriving DecidableEq, Repr

/-- The fields that the server requires. -/
def Report.complete (report : Report) (newReportID : String) (now : Int) : Report :=
  let finished := report.finishedAt.getD now
  { report with
    reportID := if report.reportID = "" then newReportID else report.reportID
    finishedAt := some finished
    startedAt := some (report.startedAt.getD (finished - max report.latencyMs 0 * 1000000)) }

/-- Normalized options. -/
structure ReporterOptions where
  flushInterval : Int
  batchSize : Nat
  maxBatchSize : Nat
  maxQueueSize : Nat

structure QueuedReport where
  report : Report
  enqueuedAt : Int
  number : Nat

structure ReporterStats where
  submitted : Nat := 0
  sent : Nat := 0
  accepted : Nat := 0
  duplicated : Nat := 0
  rejected : Nat := 0
  dropped : Nat := 0
  failedSends : Nat := 0

inductive Worker where
  | notStarted
  | polling
  | sending (batch : List QueuedReport)
  | backingOff
  | leaving
  | done

inductive FlushCall where
  | waiting (before : Nat)
  | returning

inductive ClosePhase where
  | waiting
  | grace
  | final
  deriving DecidableEq

/-- A call of `Close`, with what was dropped before it. -/
structure CloseCall where
  phase : ClosePhase
  droppedBefore : Nat
  droppedThen : List Nat

/-- What a `Close` that returned no error left behind. -/
structure CloseReturn where
  droppedThen : List Nat
  dropped : List Nat
  sent : List Nat
  submitted : Nat

structure Reporter where
  queue : List QueuedReport := []
  inflight : Nat := 0
  flushWaiters : Nat := 0
  closing : Bool := false
  started : Bool := false
  canceled : Bool := false
  stats : ReporterStats := {}
  worker : Worker := .notStarted
  flushes : Nat → Option FlushCall := fun _ => none
  closes : Nat → Option CloseCall := fun _ => none
  sent : List Nat := []
  dropped : List Nat := []
  flushed : List Nat := []
  closed : List CloseReturn := []

inductive ReporterStep where
  | submit (report : Option Report) (newReportID : String) (now : Int)
  | poll (now : Int)
  | respond (accepted duplicated rejected : Nat)
  | fail (retryable : Bool)
  | resume
  | leave
  | flush (call : Nat)
  | flushCheck (call : Nat)
  | flushExpire (call : Nat)
  | flushReturn (call : Nat)
  | close (call : Nat)
  | closeDone (call : Nat)
  | closeExpire (call : Nat)
  | closeGrace (call : Nat)
  | closeReturn (call : Nat)

def numbers (reports : List QueuedReport) : List Nat := reports.map QueuedReport.number

section Steps

variable (opts : ReporterOptions) (r : Reporter)

/-- `trimLocked`: the oldest reports go. -/
def Reporter.trim : Reporter :=
  let overflow := r.queue.length - opts.maxQueueSize
  { r with
    queue := r.queue.drop overflow
    stats := { r.stats with dropped := r.stats.dropped + overflow }
    dropped := r.dropped ++ numbers (r.queue.take overflow) }

def Reporter.dropAll : Reporter :=
  { r with
    queue := []
    stats := { r.stats with dropped := r.stats.dropped + r.queue.length }
    dropped := r.dropped ++ numbers r.queue }

def Reporter.take : Reporter :=
  let n := min r.queue.length opts.maxBatchSize
  { r with
    queue := r.queue.drop n
    inflight := n
    worker := .sending (r.queue.take n) }

/-- `Submit`; a report that is not given, and any report after `Close`, is refused. -/
def Reporter.submit (report : Option Report) (newReportID : String) (now : Int) : Reporter :=
  match report with
  | none => r
  | some report =>
    if r.closing then r
    else
      let entry : QueuedReport :=
        { report := report.complete newReportID now
          enqueuedAt := now
          number := r.stats.submitted }
      let queued := { r with
        queue := r.queue ++ [entry]
        stats := { r.stats with submitted := r.stats.submitted + 1 } }.trim opts
      { queued with
        started := true
        worker := if r.started then r.worker else .polling }

/-- The oldest report is due, the queue is long enough, or a `Flush` waits. -/
def Reporter.due (now : Int) : Bool :=
  match r.queue with
  | [] => false
  | first :: _ =>
    decide (opts.batchSize ≤ r.queue.length) ||
      decide (opts.flushInterval - (now - first.enqueuedAt) ≤ 0) || decide (0 < r.flushWaiters)

def Reporter.poll (now : Int) : Reporter :=
  if r.closing then
    if r.queue = [] ∨ r.canceled then { r.dropAll with worker := .leaving } else r.take opts
  else if r.due opts now then r.take opts
  else r

def Reporter.recordResponse (batch : List QueuedReport) (accepted duplicated rejected : Nat) :
    Reporter :=
  { r with
    stats := { r.stats with
      sent := r.stats.sent + batch.length
      accepted := r.stats.accepted + accepted
      duplicated := r.stats.duplicated + duplicated
      rejected := r.stats.rejected + rejected }
    inflight := 0
    worker := .polling
    sent := r.sent ++ numbers batch }

/-- `recordFailure`: the batch goes back in front of what arrived meanwhile, or is dropped. -/
def Reporter.recordFailure (batch : List QueuedReport) (retryable : Bool) : Reporter :=
  let failed := { r with
    stats := { r.stats with failedSends := r.stats.failedSends + 1 }
    inflight := 0 }
  if retryable ∧ ¬r.canceled then
    { ({ failed with queue := batch ++ r.queue }.trim opts) with worker := .backingOff }
  else
    { failed with
      stats := { failed.stats with dropped := failed.stats.dropped + batch.length }
      worker := .polling
      dropped := r.dropped ++ numbers batch }

/-- The queue is drained and no batch is in flight. -/
def Reporter.idle : Prop := r.queue = [] ∧ r.inflight = 0

instance : Decidable r.idle := inferInstanceAs (Decidable (_ ∧ _))

def Reporter.closeEnds (call : Nat) (c : CloseCall) : Reporter :=
  let forgotten := { r with closes := Function.update r.closes call none }
  if c.droppedBefore < r.stats.dropped ∨ 0 < r.queue.length then forgotten
  else
    { forgotten with closed :=
        { droppedThen := c.droppedThen
          dropped := r.dropped
          sent := r.sent
          submitted := r.stats.submitted } :: r.closed }

def reporterStep : ReporterStep → Option Reporter
  | .submit report newReportID now => some (r.submit opts report newReportID now)
  | .poll now =>
    match r.worker with
    | .polling => some (r.poll opts now)
    | _ => none
  | .respond accepted duplicated rejected =>
    match r.worker with
    | .sending batch => some (r.recordResponse batch accepted duplicated rejected)
    | _ => none
  | .fail retryable =>
    match r.worker with
    | .sending batch => some (r.recordFailure opts batch retryable)
    | _ => none
  | .resume =>
    match r.worker with
    | .backingOff => some { r with worker := .polling }
    | _ => none
  | .leave =>
    match r.worker with
    | .leaving => some { r with inflight := 0, worker := .done }
    | _ => none
  | .flush call =>
    match r.flushes call with
    | some _ => none
    | none =>
      if r.idle then some { r with flushed := r.stats.submitted :: r.flushed }
      else some { r with
        flushWaiters := r.flushWaiters + 1
        flushes := Function.update r.flushes call (some (.waiting r.stats.submitted)) }
  | .flushCheck call =>
    match r.flushes call with
    | some (.waiting before) =>
      if r.idle then some { r with
        flushes := Function.update r.flushes call (some .returning)
        flushed := before :: r.flushed }
      else some r
    | _ => none
  | .flushExpire call =>
    match r.flushes call with
    | some (.waiting _) =>
      some { r with flushes := Function.update r.flushes call (some .returning) }
    | _ => none
  | .flushReturn call =>
    match r.flushes call with
    | some .returning => some { r with
        flushWaiters := r.flushWaiters - 1
        flushes := Function.update r.flushes call none }
    | _ => none
  | .close call =>
    match r.closes call with
    | some _ => none
    | none =>
      if r.started then some { r with
        closing := true
        closes := Function.update r.closes call (some
          { phase := .waiting
            droppedBefore := r.stats.dropped
            droppedThen := r.dropped }) }
      else some { r with
        closing := true
        canceled := true
        closed :=
          { droppedThen := r.dropped
            dropped := r.dropped
            sent := r.sent
            submitted := r.stats.submitted } :: r.closed }
  | .closeDone call =>
    match r.closes call, r.worker with
    | some c, .done =>
      if c.phase ≠ .final then some { r with
        canceled := true
        closes := Function.update r.closes call (some { c with phase := .final }) }
      else none
    | _, _ => none
  | .closeExpire call =>
    match r.closes call with
    | some c =>
      if c.phase = .waiting then some { r with
        canceled := true
        closes := Function.update r.closes call (some { c with phase := .grace }) }
      else none
    | none => none
  | .closeGrace call =>
    match r.closes call with
    | some c =>
      if c.phase = .grace then some { r with
        closes := Function.update r.closes call (some { c with phase := .final }) }
      else none
    | none => none
  | .closeReturn call =>
    match r.closes call with
    | some c => if c.phase = .final then some (r.closeEnds call c) else none
    | none => none

end Steps

end Spinneret.Sdk
