import Mathlib.Data.List.Basic
import Mathlib.Tactic.SplitIfs
import Spinneret.Lib.Machine
import Spinneret.Sdk.Reporter

/-!
# A lease of the SDK

`Report` and `Close` of one lease, with the lock of the lease held over several steps, and
the reporter running beside them: other submissions, its worker, and its own closing.
Accepted reports carry the number of their acceptance; what was handed to the reporter or
delivered directly is listed in order.
-/

namespace Spinneret.Sdk

open Spinneret.Lib

set_option autoImplicit false

/-- What the goroutine that holds the lock of the lease is about to do. -/
inductive Holder where
  | checking (report : Report)
  | submitting (report : Report)
  | finishing (report : Report)
  | closing (first : Bool) (last : Nat × Report)

inductive CloseTask where
  | direct (last : Nat × Report)
  | releasing

/-- The one `Close` that found the lease unreleased, after it left the lock. -/
structure CloseWork where
  first : Bool
  task : CloseTask

structure Lease where
  reporter : Reporter
  pending : Option (Nat × Report) := none
  released : Bool := false
  lock : Option Holder := none
  work : Option CloseWork := none
  accepted : Nat := 0
  handed : List (Nat × Report) := []
  closeCalls : Nat := 0
  firstNil : Bool := false
  answered : Bool := false
  refused : Bool := false

/-- The outcome of a direct delivery. -/
inductive SendResult where
  | failed
  | rejected
  | delivered
  deriving DecidableEq, Repr

inductive ReleaseResult where
  | ok (released : Bool)
  | gone
  | failed
  deriving DecidableEq, Repr

inductive LeaseStep where
  | report (report : Option Report)
  | check
  | submitPending (newReportID : String) (now : Int)
  | finish (newReportID : String) (now : Int)
  | close
  | closeSubmit (newReportID : String) (now : Int)
  | deliver (result : SendResult)
  | release (result : ReleaseResult)
  | reporter (step : ReporterStep)

section Steps

variable (opts : ReporterOptions) (l : Lease)

/-- A report that the reporter takes. -/
def Lease.hand (last : Nat × Report) (newReportID : String) (now : Int) : Lease :=
  { l with
    reporter := l.reporter.submit opts (some last.2) newReportID now
    handed := l.handed ++ [last] }

/-- The last part of `Report`: a releasing report is submitted, any other is held back. -/
def Lease.finish (report : Report) (newReportID : String) (now : Int) : Lease :=
  if report.release then
    if l.reporter.closing then { l with released := true, lock := none, refused := true }
    else { l.hand opts (l.accepted, report) newReportID now with
      released := true
      lock := none
      accepted := l.accepted + 1 }
  else { l with
    pending := some (l.accepted, report)
    lock := none
    accepted := l.accepted + 1 }

/-- The first part of `Close`. -/
def Lease.close : Lease :=
  if l.released then { l with
    closeCalls := l.closeCalls + 1
    firstNil := l.firstNil || l.closeCalls == 0 }
  else
    match l.pending with
    | some last => { l with
        released := true
        pending := none
        lock := some (.closing (l.closeCalls == 0) (last.1, { last.2 with release := true }))
        closeCalls := l.closeCalls + 1 }
    | none => { l with
        released := true
        work := some ⟨l.closeCalls == 0, .releasing⟩
        closeCalls := l.closeCalls + 1 }

def leaseStep : LeaseStep → Option Lease
  | .report none => some l
  | .report (some report) =>
    if l.lock.isNone then
      if l.released then some l else some { l with lock := some (.checking report) }
    else none
  | .check =>
    match l.lock with
    | some (.checking report) =>
      if l.reporter.closing then some { l with lock := none }
      else some { l with lock := some (.submitting report) }
    | _ => none
  | .submitPending newReportID now =>
    match l.lock, l.pending with
    | some (.submitting report), none => some { l with lock := some (.finishing report) }
    | some (.submitting report), some last =>
      if l.reporter.closing then some { l with lock := none }
      else some { l.hand opts last newReportID now with
        pending := none
        lock := some (.finishing report) }
    | _, _ => none
  | .finish newReportID now =>
    match l.lock with
    | some (.finishing report) => some (l.finish opts report newReportID now)
    | _ => none
  | .close => if l.lock.isNone then some l.close else none
  | .closeSubmit newReportID now =>
    match l.lock with
    | some (.closing first last) =>
      if l.reporter.closing then some { l with
        lock := none
        work := some ⟨first, .direct last⟩ }
      else some { l.hand opts last newReportID now with
        lock := none
        firstNil := l.firstNil || first }
    | _ => none
  | .deliver result =>
    match l.work with
    | some ⟨first, .direct last⟩ =>
      if result = .delivered then some { l with
        work := none
        handed := l.handed ++ [last]
        firstNil := l.firstNil || first }
      else some { l with work := none }
    | _ => none
  | .release result =>
    match l.work with
    | some ⟨first, .releasing⟩ =>
      if result = .failed then some { l with work := none }
      else some { l with
        work := none
        firstNil := l.firstNil || first
        answered := true }
    | _ => none
  | .reporter step =>
    (reporterStep opts l.reporter step).map fun reporter => { l with reporter := reporter }

end Steps

/-! ### What holds of every lease -/

def Lease.releasing (l : Lease) : Prop := ∃ entry ∈ l.handed, entry.2.release = true

/-- What a `Close` still has to hand over. -/
def Lease.closingReport (l : Lease) : Option (Nat × Report) :=
  match l.lock, l.work with
  | some (.closing _ last), _ => some last
  | _, some ⟨_, .direct last⟩ => some last
  | _, _ => none

/-- Accepted reports, in order: handed over, or held back, or in the hands of a `Close`. -/
def Lease.line (l : Lease) : List (Nat × Report) :=
  l.handed ++ l.pending.toList ++ l.closingReport.toList

structure Unreleased (l : Lease) : Prop where
  plain : ∀ entry ∈ l.handed ++ l.pending.toList, entry.2.release = false
  noClose : l.closeCalls = 0
  noWork : l.work = none
  noNil : l.firstNil = false
  noAnswer : l.answered = false
  notRefused : l.refused = false
  lock : ∀ first last, l.lock ≠ some (.closing first last)
  finishing : ∀ report, l.lock = some (.finishing report) → l.pending = none

structure Released (l : Lease) : Prop where
  noPending : l.pending = none
  lock : l.lock = none ∨ l.work = none ∧ ∃ first last, l.lock = some (.closing first last)
  plain : ∀ entry ∈ l.handed.dropLast, entry.2.release = false
  busy : l.lock ≠ none ∨ l.work ≠ none → ¬l.releasing ∧ l.refused = false
  last : ∀ entry, l.closingReport = some entry → entry.2.release = true
  refused : l.refused = true → ¬l.releasing ∧ l.answered = false ∧ l.lock = none ∧ l.work = none
  right : l.refused = false → l.firstNil = true → l.releasing ∨ l.answered = true
  handed : l.refused = false → l.closeCalls = 0 → l.releasing

structure LeaseSound (l : Lease) : Prop where
  order : (l.line.map Prod.fst).Pairwise (· < ·)
  known : ∀ entry ∈ l.line, entry.1 < l.accepted
  unreleased : l.released = false → Unreleased l
  released : l.released = true → Released l

variable {report : Report} {last : Nat × Report} {first : Bool} {label : LeaseStep}

section Sound

variable {opts : ReporterOptions} {l next : Lease}

theorem closing_report_none (lock : ∀ first last, l.lock ≠ some (.closing first last))
    (work : l.work = none) : l.closingReport = none := by
  unfold Lease.closingReport
  rw [work]
  cases held : l.lock with
  | none => rfl
  | some holder =>
    cases holder with
    | closing first last => exact absurd held (lock first last)
    | checking | submitting | finishing => rfl

theorem Unreleased.line (unreleased : Unreleased l) : l.line = l.handed ++ l.pending.toList := by
  rw [Lease.line, closing_report_none unreleased.lock unreleased.noWork]
  exact List.append_nil _

theorem hold_sound (sound : LeaseSound l) (running : l.released = false) (lock : Option Holder)
    (notClosing : ∀ first last, lock ≠ some (.closing first last))
    (finishing : ∀ report, lock = some (.finishing report) → l.pending = none) :
    LeaseSound { l with lock := lock } := by
  have old := sound.unreleased running
  have now : Unreleased { l with lock := lock } :=
    ⟨old.plain, old.noClose, old.noWork, old.noNil, old.noAnswer, old.notRefused, notClosing,
      finishing⟩
  have line : ({ l with lock := lock } : Lease).line = l.line := by
    rw [now.line, old.line]
  refine ⟨?_, ?_, fun _ => now, fun released => ?_⟩
  · rw [line]
    exact sound.order
  · rw [line]
    exact sound.known
  · exact absurd (running.symm.trans released) Bool.noConfusion

theorem holder_unreleased (sound : LeaseSound l)
    (held : l.lock = some (.checking report) ∨ l.lock = some (.submitting report) ∨
      l.lock = some (.finishing report)) :
    l.released = false := by
  cases released : l.released with
  | false => rfl
  | true =>
    rcases (sound.released released).lock with free | ⟨-, first, last, closing⟩
    · rw [free] at held
      rcases held with held | held | held <;> cases held
    · rw [closing] at held
      rcases held with held | held | held <;> cases held

theorem submit_pending_sound (sound : LeaseSound l) (held : l.lock = some (.submitting report))
    (pending : l.pending = some last) (newReportID : String) (now : Int) :
    LeaseSound { l.hand opts last newReportID now with
      pending := none, lock := some (.finishing report) } := by
  have running := holder_unreleased sound (Or.inr (Or.inl held))
  have old := sound.unreleased running
  have unreleased : Unreleased { l.hand opts last newReportID now with
      pending := none, lock := some (.finishing report) } := by
    refine ⟨fun entry listed => old.plain entry ?_, old.noClose, old.noWork, old.noNil,
      old.noAnswer, old.notRefused, fun _ _ => (by simp), fun _ _ => rfl⟩
    rw [pending]
    simpa [Lease.hand] using listed
  have line : ({ l.hand opts last newReportID now with
      pending := none, lock := some (.finishing report) } : Lease).line = l.line := by
    rw [unreleased.line, old.line, pending]
    exact List.append_nil _
  refine ⟨?_, ?_, fun _ => unreleased, fun released => ?_⟩
  · rw [line]
    exact sound.order
  · rw [line]
    exact sound.known
  · exact absurd (running.symm.trans released) Bool.noConfusion

theorem join_line {line : List (Nat × Report)} {accepted : Nat} (report : Report)
    (order : (line.map Prod.fst).Pairwise (· < ·)) (known : ∀ entry ∈ line, entry.1 < accepted) :
    ((line ++ [(accepted, report)]).map Prod.fst).Pairwise (· < ·) ∧
      ∀ entry ∈ line ++ [(accepted, report)], entry.1 < accepted + 1 := by
  constructor
  · rw [List.map_append, List.pairwise_append]
    refine ⟨order, List.pairwise_singleton _ _, fun first listed second new => ?_⟩
    obtain ⟨entry, member, rfl⟩ := List.mem_map.mp listed
    rw [List.mem_singleton.mp new]
    exact known entry member
  · intro entry listed
    rcases List.mem_append.mp listed with old | new
    · exact Nat.lt_succ_of_lt (known entry old)
    · rw [List.mem_singleton.mp new]
      exact Nat.lt_succ_self accepted

theorem closing_report_free (lock : l.lock = none)
    (work : ∀ first last, l.work ≠ some ⟨first, .direct last⟩) : l.closingReport = none := by
  unfold Lease.closingReport
  rw [lock]
  cases held : l.work with
  | none => rfl
  | some task =>
    obtain ⟨first, task⟩ := task
    cases task with
    | direct last => exact absurd held (work first last)
    | releasing => rfl

theorem last_of_free (lock : l.lock = none)
    (work : ∀ first last, l.work ≠ some ⟨first, .direct last⟩) :
    ∀ entry, l.closingReport = some entry → entry.2.release = true := by
  intro entry reported
  rw [closing_report_free lock work] at reported
  cases reported

/-- The lines of a released lease: nobody is at work, or a `Close` has the last report. -/
theorem line_free (pending : l.pending = none) (lock : l.lock = none)
    (work : ∀ first last, l.work ≠ some ⟨first, .direct last⟩) : l.line = l.handed := by
  rw [Lease.line, pending, closing_report_free lock work]
  simp

theorem line_closing (pending : l.pending = none) (lock : l.lock = some (.closing first last)) :
    l.line = l.handed ++ [last] := by
  have some : l.closingReport = some last := by
    unfold Lease.closingReport
    rw [lock]
  rw [Lease.line, pending, some]
  simp

theorem line_direct (pending : l.pending = none) (lock : l.lock = none)
    (work : l.work = some ⟨first, .direct last⟩) : l.line = l.handed ++ [last] := by
  have some : l.closingReport = some last := by
    unfold Lease.closingReport
    rw [lock, work]
  rw [Lease.line, pending, some]
  simp

theorem released_sound (released : l.released = true) (facts : Released l)
    {line : List (Nat × Report)} (lineEq : l.line = line)
    (order : (line.map Prod.fst).Pairwise (· < ·)) (known : ∀ entry ∈ line, entry.1 < l.accepted) :
    LeaseSound l := by
  subst lineEq
  refine ⟨order, known, fun idle => ?_, fun _ => facts⟩
  exact absurd (released.symm.trans idle) Bool.noConfusion

theorem not_releasing (plain : ∀ entry ∈ l.handed, entry.2.release = false) : ¬l.releasing := by
  rintro ⟨entry, listed, release⟩
  exact absurd ((plain entry listed).symm.trans release) Bool.noConfusion

theorem plain_of_not_releasing (none : ¬l.releasing) :
    ∀ entry ∈ l.handed, entry.2.release = false := by
  intro entry listed
  by_contra release
  exact none ⟨entry, listed, by simpa using release⟩

theorem plain_drop_last {handed : List (Nat × Report)}
    (plain : ∀ entry ∈ handed, entry.2.release = false) :
    ∀ entry ∈ handed.dropLast, entry.2.release = false :=
  fun entry listed => plain entry (List.dropLast_subset _ listed)

theorem LeaseSound.at_line (sound : LeaseSound l) {line : List (Nat × Report)}
    (lineEq : l.line = line) :
    (line.map Prod.fst).Pairwise (· < ·) ∧ ∀ entry ∈ line, entry.1 < l.accepted :=
  lineEq ▸ ⟨sound.order, sound.known⟩

theorem handed_released {handed : List (Nat × Report)} (handedEq : l.handed = handed ++ [last])
    (release : last.2.release = true) (plain : ∀ entry ∈ handed, entry.2.release = false)
    (pending : l.pending = none) (lock : l.lock = none) (work : l.work = none)
    (refused : l.refused = false) : Released l := by
  have releasing : l.releasing := ⟨last, by simp [handedEq], release⟩
  refine ⟨pending, Or.inl lock, ?_, ?_, ?_, ?_, fun _ _ => Or.inl releasing, fun _ _ => releasing⟩
  · rw [handedEq, List.dropLast_concat]
    exact plain
  · rintro (busy | busy)
    · exact absurd lock busy
    · exact absurd work busy
  · exact last_of_free lock (by simp [work])
  · intro lost
    exact absurd (refused.symm.trans lost) Bool.noConfusion

theorem finish_sound (sound : LeaseSound l) (held : l.lock = some (.finishing report))
    (newReportID : String) (now : Int) : LeaseSound (l.finish opts report newReportID now) := by
  have running := holder_unreleased sound (Or.inr (Or.inr held))
  have old := sound.unreleased running
  have noPending := old.finishing report held
  have plain : ∀ entry ∈ l.handed, entry.2.release = false := fun entry listed =>
    old.plain entry (List.mem_append_left _ listed)
  have line : l.line = l.handed := by
    rw [old.line, noPending]
    exact List.append_nil _
  obtain ⟨order, known⟩ := sound.at_line line
  have joined := join_line report order known
  have noWork : ∀ first last, l.work ≠ some ⟨first, .direct last⟩ := by simp [old.noWork]
  unfold Lease.finish
  split_ifs with releases closed
  · refine released_sound rfl ?_ (line_free noPending rfl noWork) order known
    have none := not_releasing plain
    refine ⟨noPending, Or.inl rfl, plain_drop_last plain, ?_, last_of_free rfl noWork,
      fun _ => ⟨none, old.noAnswer, rfl, old.noWork⟩, fun fine => ?_, fun fine => ?_⟩
    · rintro (busy | busy)
      · exact absurd rfl busy
      · exact absurd old.noWork busy
    · cases fine
    · cases fine
  · refine released_sound rfl ?_ (line_free noPending rfl noWork) joined.1 joined.2
    exact handed_released rfl releases plain noPending rfl old.noWork old.notRefused
  · have waits : Unreleased { l with
        pending := some (l.accepted, report), lock := none, accepted := l.accepted + 1 } := by
      refine ⟨fun entry listed => ?_, old.noClose, old.noWork, old.noNil, old.noAnswer,
        old.notRefused, fun _ _ => (by simp), fun _ eq => (by cases eq)⟩
      rcases List.mem_append.mp listed with handed | new
      · exact plain entry handed
      · rw [List.mem_singleton.mp new]
        simpa using releases
    refine ⟨?_, ?_, fun _ => waits, fun released => ?_⟩
    · rw [waits.line]
      exact joined.1
    · rw [waits.line]
      exact joined.2
    · exact absurd (running.symm.trans released) Bool.noConfusion

theorem close_sound (sound : LeaseSound l) (free : l.lock = none) : LeaseSound l.close := by
  unfold Lease.close
  split_ifs with released
  · have old := sound.released released
    refine released_sound released ⟨old.noPending, old.lock, old.plain, old.busy, old.last,
      old.refused, fun fine returned => ?_, fun _ none => ?_⟩ rfl sound.order sound.known
    · rcases (Bool.or_eq_true _ _).mp returned with before | first
      · exact old.right fine before
      · exact Or.inl (old.handed fine (beq_iff_eq.mp first))
    · exact absurd none (Nat.succ_ne_zero _)
  · have running : l.released = false := by simpa using released
    have old := sound.unreleased running
    have plain : ∀ entry ∈ l.handed, entry.2.release = false := fun entry listed =>
      old.plain entry (List.mem_append_left _ listed)
    have none := not_releasing plain
    obtain ⟨order, known⟩ := sound.at_line old.line
    cases pending : l.pending with
    | none =>
      rw [pending, Option.toList_none, List.append_nil] at order known
      dsimp only
      refine released_sound rfl ?_ (line_free rfl free (fun _ _ => by simp)) order known
      refine ⟨rfl, Or.inl free, plain_drop_last plain, fun _ => ⟨none, old.notRefused⟩,
        last_of_free free (fun _ _ => by simp),
        fun lost => absurd (old.notRefused.symm.trans lost) Bool.noConfusion, ?_, ?_⟩
      · exact fun _ returned => absurd (old.noNil.symm.trans returned) Bool.noConfusion
      · exact fun _ calls => absurd calls (Nat.succ_ne_zero _)
    | some last =>
      rw [pending] at order known
      refine released_sound rfl ?_ (line_closing rfl rfl) ?_ ?_
      · refine ⟨rfl, Or.inr ⟨old.noWork, _, _, rfl⟩, plain_drop_last plain,
          fun _ => ⟨none, old.notRefused⟩, ?_,
          fun lost => absurd (old.notRefused.symm.trans lost) Bool.noConfusion, ?_, ?_⟩
        · intro entry reported
          obtain rfl := Option.some.inj reported
          rfl
        · exact fun _ returned => absurd (old.noNil.symm.trans returned) Bool.noConfusion
        · exact fun _ calls => absurd calls (Nat.succ_ne_zero _)
      · rw [List.map_append] at order ⊢
        exact order
      · intro entry listed
        rcases List.mem_append.mp listed with handed | new
        · exact known entry (List.mem_append_left _ handed)
        · rw [List.mem_singleton.mp new]
          exact known last (List.mem_append_right _ (by simp))

theorem closing_released (sound : LeaseSound l) (held : l.lock = some (.closing first last)) :
    Released l ∧ l.released = true := by
  cases released : l.released with
  | false => exact absurd held ((sound.unreleased released).lock first last)
  | true => exact ⟨sound.released released, rfl⟩

theorem working_released {work : CloseWork} (sound : LeaseSound l) (held : l.work = some work) :
    Released l ∧ l.released = true := by
  cases released : l.released with
  | false =>
    rw [(sound.unreleased released).noWork] at held
    cases held
  | true => exact ⟨sound.released released, rfl⟩

theorem working_free {work : CloseWork} (sound : LeaseSound l) (held : l.work = some work) :
    l.lock = none := by
  rcases (working_released sound held).1.lock with free | ⟨none, -⟩
  · exact free
  · rw [none] at held
    cases held

theorem close_submit_sound (sound : LeaseSound l) (held : l.lock = some (.closing first last))
    (newReportID : String) (now : Int) :
    LeaseSound { l with lock := none, work := some ⟨first, .direct last⟩ } ∧
      LeaseSound { l.hand opts last newReportID now with
        lock := none, firstNil := l.firstNil || first } := by
  obtain ⟨old, released⟩ := closing_released sound held
  have noWork : l.work = none := by
    rcases old.lock with free | ⟨none, -⟩
    · rw [free] at held
      cases held
    · exact none
  obtain ⟨none, fine⟩ := old.busy (Or.inl (by simp [held]))
  have plain := plain_of_not_releasing none
  have release : last.2.release = true := by
    refine old.last last ?_
    unfold Lease.closingReport
    rw [held]
  have line := line_closing old.noPending held
  obtain ⟨order, known⟩ := sound.at_line line
  constructor
  · refine released_sound released ?_ (line_direct old.noPending rfl rfl) order known
    refine ⟨old.noPending, Or.inl rfl, old.plain, fun _ => ⟨none, fine⟩, ?_,
      fun lost => absurd (fine.symm.trans lost) Bool.noConfusion, old.right, old.handed⟩
    intro entry reported
    obtain rfl := Option.some.inj reported
    exact release
  · refine released_sound released ?_ (line_free old.noPending rfl (by simp [Lease.hand, noWork]))
      order known
    exact handed_released rfl release plain old.noPending rfl noWork fine

theorem deliver_sound (sound : LeaseSound l) (held : l.work = some ⟨first, .direct last⟩) :
    LeaseSound { l with work := none } ∧
      LeaseSound { l with
        work := none, handed := l.handed ++ [last], firstNil := l.firstNil || first } := by
  obtain ⟨old, released⟩ := working_released sound held
  have free := working_free sound held
  obtain ⟨none, fine⟩ := old.busy (Or.inr (by simp [held]))
  have plain := plain_of_not_releasing none
  have release : last.2.release = true := by
    refine old.last last ?_
    unfold Lease.closingReport
    rw [free, held]
  have line := line_direct old.noPending free held
  obtain ⟨order, known⟩ := sound.at_line line
  constructor
  · refine released_sound released ?_ (line_free old.noPending free (fun _ _ => by simp)) ?_ ?_
    · refine ⟨old.noPending, Or.inl free, old.plain, ?_, last_of_free free (fun _ _ => by simp),
        fun lost => absurd (fine.symm.trans lost) Bool.noConfusion, old.right, old.handed⟩
      exact fun _ => ⟨none, fine⟩
    · rw [List.map_append] at order
      exact (List.pairwise_append.mp order).1
    · exact fun entry listed => known entry (List.mem_append_left _ listed)
  · refine released_sound released ?_ (line_free old.noPending free (fun _ _ => by simp)) order known
    exact handed_released rfl release plain old.noPending free rfl fine

theorem release_sound (sound : LeaseSound l) (held : l.work = some ⟨first, .releasing⟩) :
    LeaseSound { l with work := none } ∧
      LeaseSound { l with
        work := none, firstNil := l.firstNil || first, answered := true } := by
  obtain ⟨old, released⟩ := working_released sound held
  have free := working_free sound held
  obtain ⟨none, fine⟩ := old.busy (Or.inr (by simp [held]))
  have line : l.line = l.handed := line_free old.noPending free (by simp [held])
  obtain ⟨order, known⟩ := sound.at_line line
  constructor <;>
    refine released_sound released ⟨old.noPending, Or.inl free, old.plain, fun _ => ⟨none, fine⟩,
      last_of_free free (fun _ _ => by simp),
      fun lost => absurd (fine.symm.trans lost) Bool.noConfusion, ?_, old.handed⟩
      (line_free old.noPending free (fun _ _ => by simp)) order known
  · exact old.right
  · exact fun _ _ => Or.inr rfl

theorem lease_step_sound (sound : LeaseSound l) (stepped : leaseStep opts l label = some next) :
    LeaseSound next := by
  cases label with
  | report report =>
    cases report with
    | none =>
      obtain rfl := Option.some.inj stepped
      exact sound
    | some report =>
      dsimp only [leaseStep] at stepped
      split_ifs at stepped with free released
      · obtain rfl := Option.some.inj stepped
        exact sound
      · obtain rfl := Option.some.inj stepped
        exact hold_sound sound (by simpa using released) _ (fun _ _ => by simp)
          (fun _ eq => by cases eq)
  | check =>
    dsimp only [leaseStep] at stepped
    split at stepped
    next report held =>
      have running := holder_unreleased sound (Or.inl held)
      split_ifs at stepped <;> obtain rfl := Option.some.inj stepped <;>
        exact hold_sound sound running _ (fun _ _ => by simp) (fun _ eq => by cases eq)
    · cases stepped
  | submitPending newReportID now =>
    dsimp only [leaseStep] at stepped
    split at stepped
    next report held none =>
      have running := holder_unreleased sound (Or.inr (Or.inl held))
      obtain rfl := Option.some.inj stepped
      exact hold_sound sound running _ (fun _ _ => by simp) (fun _ _ => none)
    next report last held pending =>
      have running := holder_unreleased sound (Or.inr (Or.inl held))
      split_ifs at stepped
      · obtain rfl := Option.some.inj stepped
        exact hold_sound sound running _ (fun _ _ => by simp) (fun _ eq => by cases eq)
      · obtain rfl := Option.some.inj stepped
        exact submit_pending_sound sound held pending newReportID now
    · cases stepped
  | finish newReportID now =>
    dsimp only [leaseStep] at stepped
    split at stepped
    next report held =>
      obtain rfl := Option.some.inj stepped
      exact finish_sound sound held newReportID now
    · cases stepped
  | close =>
    simp only [leaseStep, Option.ite_none_right_eq_some] at stepped
    obtain ⟨free, stepped⟩ := stepped
    obtain rfl := Option.some.inj stepped
    exact close_sound sound (Option.isNone_iff_eq_none.mp free)
  | closeSubmit newReportID now =>
    dsimp only [leaseStep] at stepped
    split at stepped
    next first last held =>
      have both := @close_submit_sound _ _ opts _ sound held newReportID now
      split_ifs at stepped <;> obtain rfl := Option.some.inj stepped
      · exact both.1
      · exact both.2
    · cases stepped
  | deliver result =>
    dsimp only [leaseStep] at stepped
    split at stepped
    next first last held =>
      have both := deliver_sound sound held
      split_ifs at stepped <;> obtain rfl := Option.some.inj stepped
      · exact both.2
      · exact both.1
    · cases stepped
  | release result =>
    dsimp only [leaseStep] at stepped
    split at stepped
    next first held =>
      have both := release_sound sound held
      split_ifs at stepped <;> obtain rfl := Option.some.inj stepped
      · exact both.1
      · exact both.2
    · cases stepped
  | reporter step =>
    obtain ⟨reporter, -, rfl⟩ := Option.map_eq_some_iff.mp stepped
    refine ⟨sound.order, sound.known, fun running => ?_, fun released => ?_⟩
    · have old := sound.unreleased running
      exact ⟨old.plain, old.noClose, old.noWork, old.noNil, old.noAnswer, old.notRefused,
        old.lock, old.finishing⟩
    · have old := sound.released released
      exact ⟨old.noPending, old.lock, old.plain, old.busy, old.last, old.refused, old.right,
        old.handed⟩

/-- A releasing report finds the reporter open when it is submitted. -/
def ReleaseGuard (l : Lease) : LeaseStep → Prop
  | .finish _ _ => ∀ report, l.lock = some (.finishing report) → report.release = true →
      l.reporter.closing = false
  | _ => True

theorem finish_refused (newReportID : String) (now : Int) :
    (l.finish opts report newReportID now).refused = false ↔
      l.refused = false ∧ (report.release = true → l.reporter.closing = false) := by
  unfold Lease.finish
  split_ifs with releases closed
  · simp [releases, closed]
  · simp [Lease.hand, releases, closed]
  · simp [releases]

theorem close_frame :
    l.close.refused = l.refused ∧ l.close.accepted = l.accepted := by
  unfold Lease.close
  split_ifs
  · exact ⟨rfl, rfl⟩
  · split <;> exact ⟨rfl, rfl⟩

/-- Only the last part of `Report` accepts a report or loses a release. -/
theorem step_frame (other : ∀ newReportID now, label ≠ .finish newReportID now)
    (stepped : leaseStep opts l label = some next) :
    next.refused = l.refused ∧ next.accepted = l.accepted := by
  cases label with
  | report report =>
    cases report with
    | none =>
      obtain rfl := Option.some.inj stepped
      exact ⟨rfl, rfl⟩
    | some report =>
      dsimp only [leaseStep] at stepped
      split_ifs at stepped <;> obtain rfl := Option.some.inj stepped <;> exact ⟨rfl, rfl⟩
  | check | closeSubmit | deliver | release =>
    dsimp only [leaseStep] at stepped
    split at stepped
    · split_ifs at stepped <;> obtain rfl := Option.some.inj stepped <;> exact ⟨rfl, rfl⟩
    · cases stepped
  | submitPending newReportID now =>
    dsimp only [leaseStep] at stepped
    split at stepped
    · obtain rfl := Option.some.inj stepped
      exact ⟨rfl, rfl⟩
    · split_ifs at stepped <;> obtain rfl := Option.some.inj stepped <;> exact ⟨rfl, rfl⟩
    · cases stepped
  | finish newReportID now => exact absurd rfl (other newReportID now)
  | close =>
    simp only [leaseStep, Option.ite_none_right_eq_some] at stepped
    obtain rfl := Option.some.inj stepped.2
    exact close_frame
  | reporter step =>
    obtain ⟨reporter, -, rfl⟩ := Option.map_eq_some_iff.mp stepped
    exact ⟨rfl, rfl⟩

theorem step_finish {newReportID : String} {now : Int}
    (stepped : leaseStep opts l (.finish newReportID now) = some next) :
    ∃ report, l.lock = some (.finishing report) ∧ next = l.finish opts report newReportID now := by
  dsimp only [leaseStep] at stepped
  split at stepped
  next report held => exact ⟨report, held, (Option.some.inj stepped).symm⟩
  · cases stepped

theorem step_refused (stepped : leaseStep opts l label = some next) :
    next.refused = false ↔ l.refused = false ∧ ReleaseGuard l label := by
  by_cases finishes : ∃ newReportID now, label = .finish newReportID now
  · obtain ⟨newReportID, now, rfl⟩ := finishes
    obtain ⟨report, held, rfl⟩ := step_finish stepped
    rw [finish_refused]
    refine and_congr_right fun _ => ⟨fun opened other there => ?_, fun guard => guard report held⟩
    obtain rfl := Holder.finishing.inj (Option.some.inj (held.symm.trans there))
    exact opened
  · have other : ∀ newReportID now, label ≠ .finish newReportID now := fun newReportID now eq =>
      finishes ⟨newReportID, now, eq⟩
    have guard : ReleaseGuard l label := by
      cases label with
      | finish newReportID now => exact absurd rfl (other newReportID now)
      | _ => trivial
    rw [(step_frame other stepped).1]
    exact (and_iff_left guard).symm

theorem step_accepted (sound : LeaseSound l) (released : l.released = true)
    (stepped : leaseStep opts l label = some next) : next.accepted = l.accepted := by
  refine (step_frame (fun newReportID now eq => ?_) stepped).2
  subst eq
  obtain ⟨report, held, -⟩ := step_finish stepped
  have running := holder_unreleased sound (Or.inr (Or.inr held))
  exact absurd (running.symm.trans released) Bool.noConfusion

theorem initial_lease_sound (reporter : Reporter) : LeaseSound { reporter := reporter } where
  order := List.Pairwise.nil
  known _ listed := absurd listed List.not_mem_nil
  unreleased _ := ⟨fun _ listed => absurd listed List.not_mem_nil, rfl, rfl, rfl, rfl, rfl,
    fun _ _ => nofun, fun _ => nofun⟩
  released := nofun

/-- A release after the first `Close` that returned without an error, or before it. -/
theorem LeaseSound.right_iff (sound : LeaseSound l) (returned : l.firstNil = true) :
    (l.releasing ∨ l.answered = true) ↔ l.refused = false := by
  have facts : Released l := by
    cases released : l.released with
    | false => exact absurd ((sound.unreleased released).noNil.symm.trans returned) Bool.noConfusion
    | true => exact sound.released released
  cases refused : l.refused with
  | false => exact ⟨fun _ => rfl, fun _ => facts.right refused returned⟩
  | true =>
    obtain ⟨none, unanswered, -, -⟩ := facts.refused refused
    refine ⟨fun either => ?_, fun eq => by cases eq⟩
    rcases either with releasing | answered
    · exact absurd releasing none
    · exact absurd (unanswered.symm.trans answered) Bool.noConfusion

/-- The releases of a lease, for every interleaving of `Report` and `Close` calls with each
other and with a reporter in any state: accepted reports are handed over in the order of
their calls, none twice, and only the last may release; nothing is accepted after the
release; and when the first `Close` has returned without an error, a releasing report was
handed over or a release was answered exactly when no releasing report met a reporter that
was closed under it. -/
theorem lease_release_kept {reporter : Reporter} {labels : List LeaseStep} {final : Lease}
    (reached : Machine.run (leaseStep opts) { reporter := reporter } labels = some final) :
    (final.handed.map Prod.fst).Pairwise (· < ·) ∧
    (∀ entry ∈ final.handed, entry.1 < final.accepted) ∧
    (∀ entry ∈ final.handed.dropLast, entry.2.release = false) ∧
    (final.releasing → final.released = true) ∧
    (∀ label next, final.released = true → leaseStep opts final label = some next →
      next.accepted = final.accepted) ∧
    (final.firstNil = true → ((final.releasing ∨ final.answered = true) ↔
      Machine.Under (leaseStep opts) ReleaseGuard { reporter := reporter } labels)) := by
  have sound : LeaseSound final := Machine.run_invariant
    (fun l label next sound stepped => lease_step_sound sound stepped)
    (initial_lease_sound reporter) reached
  have plain : final.released = false → ∀ entry ∈ final.handed, entry.2.release = false :=
    fun running entry listed =>
      (sound.unreleased running).plain entry (List.mem_append_left _ listed)
  have order := sound.order
  rw [Lease.line, List.append_assoc, List.map_append] at order
  refine ⟨(List.pairwise_append.mp order).1, fun entry listed => sound.known entry ?_,
    ?_, fun releasing => ?_, fun label next released stepped => step_accepted sound released stepped,
    fun returned => (sound.right_iff returned).trans ?_⟩
  · exact List.mem_append_left _ (List.mem_append_left _ listed)
  · cases released : final.released with
    | false => exact plain_drop_last (plain released)
    | true => exact (sound.released released).plain
  · by_contra idle
    exact not_releasing (plain (by simpa using idle)) releasing
  · have iff := @Machine.run_iff_under _ _ (leaseStep opts) ReleaseGuard LeaseSound
      (fun l => l.refused = false)
      (fun l label next sound stepped => lease_step_sound sound stepped)
      (fun l label next sound stepped => step_refused stepped)
      _ _ _ (initial_lease_sound reporter) reached
    exact iff.trans (and_iff_right rfl)

end Sound

/-! ### A lease that is closed after one report, and a release that is lost -/

def roomyQueue : ReporterOptions where
  flushInterval := 200000000
  batchSize := 100
  maxBatchSize := 500
  maxQueueSize := 10000

/-- The reporter is closed before the lease: the last report is delivered directly. -/
theorem direct_delivery_releases :
    ∃ final, Machine.run (leaseStep roomyQueue) { reporter := {} }
        [.report (some {}), .check, .submitPending "r0" 0, .finish "r0" 0, .reporter (.close 0),
          .close, .closeSubmit "r0" 1, .deliver .delivered] = some final ∧
      final.firstNil = true ∧ final.handed = [(0, { release := true })] ∧
      ∀ entry ∈ final.handed.dropLast, entry.2.release = false :=
  ⟨_, rfl, rfl, rfl, (lease_release_kept (rfl : Machine.run (leaseStep roomyQueue)
    { reporter := {} } [.report (some {}), .check, .submitPending "r0" 0, .finish "r0" 0,
      .reporter (.close 0), .close, .closeSubmit "r0" 1, .deliver .delivered] = _)).2.2.1⟩

/-- The reporter is closed between the check and the submission of a releasing report: the
report is refused, and `Close` returns without an error and without a release. -/
theorem close_after_refused_release :
    ∃ final, Machine.run (leaseStep roomyQueue) { reporter := {} }
        [.report (some { release := true }), .check, .submitPending "r0" 0, .reporter (.close 0),
          .finish "r0" 0, .close] = some final ∧
      final.firstNil = true ∧ final.handed = [] ∧ final.answered = false :=
  ⟨_, rfl, rfl, rfl, rfl⟩

end Spinneret.Sdk
