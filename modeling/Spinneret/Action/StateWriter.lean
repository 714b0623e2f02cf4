import Mathlib.Algebra.Ring.Nat
import Mathlib.Data.List.Basic

/-!
# The flush of the state writer

A flush writes the batch kept by the last one, then batches drained from the queues.
Changes whose subject is not found are left out of what is written. A batch the database
rejects is split until the rejected changes are alone; when the database is unavailable
or the context is cancelled, what is not written yet is kept.
Every write attempt and every look at the context is one tick of the writer's time,
so that the database may change its answer and the context be cancelled between any
two of them.
-/

namespace Spinneret.Action

set_option autoImplicit false

/-! ## Classes of errors -/

/-- A server error with its SQLSTATE, or an error of the client side, with whether it
is one of the connection errors, timeouts and closed connections that the client
reports. -/
inductive DbError where
  | server (code constraintName message : String)
  | client (connection : Bool)

def sqlStateQueryCanceled : String := "57014"

def sqlStateProgramLimitExceeded : String := "54000"

def sqlStateCheckViolation : String := "23514"

def sqlClass (code : String) : List Char := code.toList.take 2

def isStateDBUnavailable : DbError → Bool
  | .server code _ _ =>
    code != sqlStateQueryCanceled &&
      [['0', '8'], ['5', '3'], ['5', '7'], ['5', '8']].contains (sqlClass code)
  | .client connection => connection

def isStateDataError : DbError → Bool
  | .server code _ _ =>
    sqlClass code == ['2', '2'] || sqlClass code == ['2', '3'] ||
      code == sqlStateProgramLimitExceeded
  | .client _ => false

def occursIn (text : List Char) : List Char → Bool
  | [] => text.isEmpty
  | head :: rest => text.isPrefixOf (head :: rest) || occursIn text rest

def isMissingPartition : DbError → Bool
  | .server code constraintName message =>
    code == sqlStateCheckViolation &&
      (constraintName == "" || occursIn "no partition of relation".toList message.toList)
  | .client _ => false

/-! ## Writes -/

/-- A change of the state of a subject; the body is what only the statements read. -/
structure StateChange (Body : Type) where
  subjectKind : String
  subjectID : String
  subjectKey : Int
  body : Body
  deriving DecidableEq

abbrev Batch (Body : Type) := List (StateChange Body)

variable {Body : Type}

/-- The database at a tick: the ids of the subjects of a kind by key, empty where there is
none, and the answer to the changes of a transaction, none when they are committed. -/
structure Database (Body : Type) where
  lookupIDsByKeys : Nat → String → List Int → Except DbError (Int → String)
  commit : Nat → Batch Body → Option DbError

structure Context where
  cancelFrom : Option Nat := none

def Context.cancelled (ctx : Context) (tick : Nat) : Bool := ctx.cancelFrom.any (· ≤ tick)

theorem Context.cancelled_mono {ctx : Context} {tick later : Nat} (after : tick ≤ later)
    (cancelled : ctx.cancelled tick = true) : ctx.cancelled later = true := by
  cases start : ctx.cancelFrom with
  | none => simp [Context.cancelled, start] at cancelled
  | some first =>
    simp only [Context.cancelled, start, Option.any_some, decide_eq_true_eq] at cancelled ⊢
    omega

/-- The change with the subject id that was found, if it has none of its own. -/
def fillSubject (resolved : String → Int → String) (change : StateChange Body) :
    Option (StateChange Body) :=
  if change.subjectID ≠ "" then some change
  else
    let id := resolved change.subjectKind change.subjectKey
    if id = "" then none else some { change with subjectID := id }

/-- Each change beside what becomes of it; those without a subject are left out. The kinds
are looked up in one of the orders in which the source may visit its map. -/
def resolveSubjects (db : Database Body) (tick : Nat) (batch : Batch Body) :
    Except DbError (List (StateChange Body × Option (StateChange Body))) :=
  let missing := batch.filter fun change => change.subjectID == "" && decide (0 < change.subjectKey)
  if missing.isEmpty then .ok (batch.map fun change => (change, some change))
  else
    let lookup (kind : String) :=
      (db.lookupIDsByKeys tick kind ((missing.filter fun change =>
        change.subjectKind == kind).map StateChange.subjectKey)).map fun ids => (kind, ids)
    match (missing.map StateChange.subjectKind).eraseDups.mapM lookup with
    | .error error => .error error
    | .ok resolved =>
      .ok (batch.map fun change => (change, fillSubject
        (fun kind key => ((resolved.lookup kind).map fun ids => ids key).getD "") change))

/-- What a flush did with a change that it does not keep. -/
inductive Fate where
  | written
  | unknown
  | dropped
  deriving DecidableEq

/-- One transaction, with what became of each change of the batch. -/
def writeBatch (db : Database Body) (tick : Nat) (batch : Batch Body) :
    Except DbError (List (StateChange Body × Fate)) :=
  match resolveSubjects db tick batch with
  | .error error => .error error
  | .ok changes =>
    match db.commit tick (changes.filterMap Prod.snd) with
    | some error => .error error
    | none => .ok (changes.map fun entry =>
      (entry.1, if entry.2.isSome then .written else .unknown))

/-- What a flush has done so far: every change it is through with, and the counters. -/
structure Sink (Body : Type) where
  tick : Nat := 0
  log : List (StateChange Body × Fate) := []
  written : Nat := 0
  dropped : Nat := 0

def Sink.advance (sink : Sink Body) : Sink Body := { sink with tick := sink.tick + 1 }

def dropBatch (sink : Sink Body) (batch : Batch Body) : Sink Body :=
  { sink with
    log := sink.log ++ batch.map fun change => (change, .dropped)
    dropped := sink.dropped + batch.length }

/-- The whole batch counts as written, with the changes that were left out. -/
def writeOnce (db : Database Body) (sink : Sink Body) (batch : Batch Body) :
    Sink Body × Option DbError :=
  match writeBatch db sink.tick batch with
  | .error error => (sink.advance, some error)
  | .ok entries =>
    ({ sink.advance with log := sink.log ++ entries, written := sink.written + batch.length }, none)

/-- The error of a batch: that of the last attempt, or the cancellation joined to it. -/
inductive WriteError where
  | database (error : DbError)
  | exhausted (error : Option DbError)
  | interrupted (error : Option DbError)

def WriteError.cause : WriteError → Option DbError
  | .database error => some error
  | .exhausted error => error
  | .interrupted error => error

/-- `writeWithRetry` with the attempts left and the error of the last one. -/
def writeWithRetry (db : Database Body) (ctx : Context) (batch : Batch Body) :
    Nat → Option DbError → Sink Body → Sink Body × Option WriteError
  | 0, last, sink => (sink, some (.exhausted last))
  | attempts + 1, last, sink =>
    if ctx.cancelled sink.tick then (sink.advance, some (.interrupted last))
    else
      match writeOnce db sink.advance batch with
      | (sink, none) => (sink, none)
      | (sink, some error) =>
        if isStateDBUnavailable error || (isStateDataError error && !isMissingPartition error)
        then (sink, some (.database error))
        else if attempts = 0 then (sink, some (.exhausted (some error)))
        else if ctx.cancelled sink.tick then (sink.advance, some (.interrupted (some error)))
        else writeWithRetry db ctx batch attempts (some error) sink.advance

/-! ## Salvage -/

def partWork (part : Batch Body) : Nat := max 1 (2 * part.length - 1)

def stackWork (stack : List (Batch Body)) : Nat := (stack.map partWork).sum

theorem stack_work_cons (part : Batch Body) (stack : List (Batch Body)) :
    stackWork (part :: stack) = partWork part + stackWork stack := rfl

theorem part_work_pos (part : Batch Body) : 0 < partWork part := by
  unfold partWork
  omega

theorem part_work_halves {part : Batch Body} (long : 1 < part.length) :
    partWork (part.take (part.length / 2)) + partWork (part.drop (part.length / 2)) <
      partWork part := by
  simp only [partWork, List.length_take, List.length_drop]
  omega

/-- The loop of `salvage`, the top of the stack first. It returns what it keeps for the
next flush with the error that stopped it. -/
def salvageLoop (db : Database Body) (ctx : Context) (stack : List (Batch Body))
    (sink : Sink Body) : Sink Body × Option (Batch Body × WriteError) :=
  match stack with
  | [] => (sink, none)
  | part :: stack =>
    if _long : 1 < part.length then
      let mid := part.length / 2
      if ctx.cancelled sink.tick then
        (sink.advance, some ((part :: stack).flatten, .interrupted none))
      else
        match writeOnce db sink.advance (part.take mid) with
        | (sink, none) => salvageLoop db ctx (part.drop mid :: stack) sink
        | (sink, some error) =>
          if isStateDBUnavailable error then
            (sink, some ((part :: stack).flatten, .database error))
          else salvageLoop db ctx (part.take mid :: part.drop mid :: stack) sink
    else
      match writeOnce db sink part with
      | (sink, none) => salvageLoop db ctx stack sink
      | (sink, some error) =>
        if isStateDBUnavailable error then
          (sink, some ((part :: stack).flatten, .database error))
        else salvageLoop db ctx stack (dropBatch sink part)
termination_by stackWork stack
decreasing_by
  all_goals simp only [stack_work_cons]
  · have halves := part_work_halves _long
    omega
  · have halves := part_work_halves _long
    omega
  · have positive := part_work_pos part
    omega
  · have positive := part_work_pos part
    omega

def salvage (db : Database Body) (ctx : Context) (batch : Batch Body) (sink : Sink Body) :
    Sink Body × Option (Batch Body × WriteError) :=
  salvageLoop db ctx [batch] sink

/-! ## Flush -/

structure WriterConfig where
  batchSize : Nat := 500
  maxAttempts : Nat := 5
  batchSize_pos : 0 < batchSize := by decide
  maxAttempts_pos : 0 < maxAttempts := by decide

structure StateWriter (Body : Type) where
  lifecycle : Batch Body := []
  events : Batch Body := []
  carry : Batch Body := []
  sink : Sink Body := {}

/-- Everything a writer has not written, in the order it will. -/
def StateWriter.pending (writer : StateWriter Body) : Batch Body :=
  writer.carry ++ (writer.lifecycle ++ writer.events)

/-- Up to `size` changes, lifecycle changes first, and the queues without them. -/
def drain (size : Nat) (lifecycle events : Batch Body) :
    Batch Body × Batch Body × Batch Body :=
  (lifecycle.take size ++ events.take (size - lifecycle.length),
    lifecycle.drop size, events.drop (size - lifecycle.length))

def nextBatch (size : Nat) (writer : StateWriter Body) :
    Batch Body × Batch Body × Batch Body :=
  if writer.carry.isEmpty then drain size writer.lifecycle writer.events
  else (writer.carry, writer.lifecycle, writer.events)

theorem drain_append (size : Nat) (lifecycle events : Batch Body) :
    (drain size lifecycle events).1 ++
        ((drain size lifecycle events).2.1 ++ (drain size lifecycle events).2.2) =
      lifecycle ++ events := by
  simp only [drain]
  by_cases enough : size ≤ lifecycle.length
  · rw [Nat.sub_eq_zero_of_le enough, List.take_zero, List.drop_zero, List.append_nil,
      ← List.append_assoc, List.take_append_drop]
  · rw [List.take_of_length_le (by omega), List.drop_of_length_le (by omega), List.nil_append,
      List.append_assoc, List.take_append_drop]

theorem next_batch_pending (size : Nat) (writer : StateWriter Body) :
    writer.pending = (nextBatch size writer).1 ++
      ((nextBatch size writer).2.1 ++ (nextBatch size writer).2.2) := by
  unfold nextBatch
  split
  · rename_i empty
    rw [StateWriter.pending, List.isEmpty_iff.mp empty, drain_append, List.nil_append]
  · rfl

/-- The loop of `Flush`, with the first error that did not stop it. -/
def flush (config : WriterConfig) (db : Database Body) (ctx : Context)
    (writer : StateWriter Body) (firstErr : Option WriteError) :
    StateWriter Body × List WriteError :=
  if ctx.cancelled writer.sink.tick then
    ({ writer with sink := writer.sink.advance }, firstErr.toList ++ [.interrupted none])
  else
    match _taken : nextBatch config.batchSize writer with
    | ([], _, _) => ({ writer with sink := writer.sink.advance }, firstErr.toList)
    | (head :: tail, lifecycle, events) =>
      let batch := head :: tail
      match writeWithRetry db ctx batch config.maxAttempts none writer.sink.advance with
      | (sink, none) =>
        flush config db ctx { lifecycle := lifecycle, events := events, sink := sink } firstErr
      | (sink, some err) =>
        if ctx.cancelled sink.tick || err.cause.any isStateDBUnavailable then
          ({ lifecycle := lifecycle, events := events, carry := batch, sink := sink.advance },
            firstErr.toList ++ [err])
        else if err.cause.any isStateDataError then
          match salvage db ctx batch sink.advance with
          | (sink, some (kept, stopped)) =>
            ({ lifecycle := lifecycle, events := events, carry := kept, sink := sink },
              firstErr.toList ++ [err, stopped])
          | (sink, none) =>
            flush config db ctx { lifecycle := lifecycle, events := events, sink := sink }
              (firstErr <|> some err)
        else
          flush config db ctx
            { lifecycle := lifecycle, events := events, sink := dropBatch sink.advance batch }
            (firstErr <|> some err)
termination_by writer.pending.length
decreasing_by
  all_goals
    rw [next_batch_pending config.batchSize writer, _taken]
    simp only [StateWriter.pending, List.nil_append, List.length_append, List.length_cons]
    omega

/-! ## Conservation -/

/-- Lookups fail only while the database is unavailable; otherwise it rejects exactly the
transactions with a rejected change. -/
structure Answers (rejected : StateChange Body → Bool) (db : Database Body) : Prop where
  lookups : ∀ tick kind keys error, db.lookupIDsByKeys tick kind keys = .error error →
    isStateDBUnavailable error = true
  commits : ∀ tick changes,
    (∃ error, db.commit tick changes = some error ∧ isStateDBUnavailable error = true) ∨
    (changes.any rejected = true ∧
      ∃ error, db.commit tick changes = some error ∧ isStateDataError error = true) ∨
    (changes.any rejected = false ∧ db.commit tick changes = none)

/-- Why a flush is through with a change: it was sent in a transaction that was committed and
is not rejected, it has no subject id and the lookup found none, or the database rejects it on
its own. -/
def Justified (rejected : StateChange Body → Bool) (db : Database Body) :
    StateChange Body × Fate → Prop
  | (change, .written) => ∃ tick batch changes sent,
      resolveSubjects db tick batch = .ok changes ∧ (change, some sent) ∈ changes ∧
        db.commit tick (changes.filterMap Prod.snd) = none ∧ rejected sent = false
  | (change, .unknown) => change.subjectID = "" ∧ ∃ tick batch changes,
      resolveSubjects db tick batch = .ok changes ∧ (change, none) ∈ changes
  | (change, .dropped) => ∃ tick error, writeBatch db tick [change] = .error error ∧
      isStateDataError error = true ∧ isStateDBUnavailable error = false

def Fate.counted : Fate → Bool
  | .dropped => false
  | _ => true

/-- From one moment to the other the changes `processed` were taken up in their order, each
for a reason, and counted. -/
structure Handled (rejected : StateChange Body → Bool) (db : Database Body)
    (processed : Batch Body) (sink final : Sink Body) : Prop where
  entries : ∃ entries, final.log = sink.log ++ entries ∧ entries.map Prod.fst = processed ∧
    (∀ entry ∈ entries, Justified rejected db entry) ∧
    final.written = sink.written + entries.countP (fun entry => entry.2.counted) ∧
    final.dropped = sink.dropped + entries.countP fun entry => !entry.2.counted
  tick : sink.tick ≤ final.tick

variable {rejected : StateChange Body → Bool} {db : Database Body} {ctx : Context}

theorem Handled.refl (sink : Sink Body) : Handled rejected db [] sink sink :=
  ⟨⟨[], (List.append_nil _).symm, rfl, fun _ none => absurd none List.not_mem_nil, rfl, rfl⟩,
    Nat.le_refl _⟩

theorem Handled.advance (sink : Sink Body) : Handled rejected db [] sink sink.advance :=
  ⟨(Handled.refl sink).entries, Nat.le_succ _⟩

theorem Handled.trans {first second : Batch Body} {sink middle final : Sink Body}
    (earlier : Handled rejected db first sink middle)
    (later : Handled rejected db second middle final) :
    Handled rejected db (first ++ second) sink final := by
  obtain ⟨⟨entries, log, same, reasons, written, dropped⟩, tick⟩ := earlier
  obtain ⟨⟨others, log', same', reasons', written', dropped'⟩, tick'⟩ := later
  refine ⟨⟨entries ++ others, ?_, ?_, ?_, ?_, ?_⟩, Nat.le_trans tick tick'⟩
  · rw [log', log, List.append_assoc]
  · rw [List.map_append, same, same']
  · intro entry member
    exact (List.mem_append.mp member).elim (reasons entry) (reasons' entry)
  · rw [written', written, List.countP_append, Nat.add_assoc]
  · rw [dropped', dropped, List.countP_append, Nat.add_assoc]

section

variable {sink after : Sink Body} {batch : Batch Body} {tick : Nat}

theorem mapM_error {Item Out : Type} {f : Item → Except DbError Out} {items : List Item}
    {error : DbError} (failed : items.mapM f = .error error) :
    ∃ item ∈ items, f item = .error error := by
  induction items with
  | nil => cases failed
  | cons item rest ih =>
    rw [List.mapM_cons] at failed
    cases first : f item with
    | error other =>
      rw [first] at failed
      cases failed
      exact ⟨item, List.mem_cons_self, first⟩
    | ok value =>
      cases later : rest.mapM f with
      | error other =>
        rw [first, later] at failed
        cases failed
        obtain ⟨found, listed, why⟩ := ih later
        exact ⟨found, List.mem_cons_of_mem _ listed, why⟩
      | ok values =>
        rw [first, later] at failed
        cases failed

theorem resolve_subjects_error {error : DbError} (answers : Answers rejected db)
    (failed : resolveSubjects db tick batch = .error error) :
    isStateDBUnavailable error = true := by
  unfold resolveSubjects at failed
  dsimp only at failed
  split at failed
  · cases failed
  · split at failed
    · next stopped =>
      cases failed
      obtain ⟨kind, -, looked⟩ := mapM_error stopped
      cases reply : db.lookupIDsByKeys tick kind _ with
      | error other =>
        rw [reply] at looked
        cases looked
        exact answers.lookups _ _ _ _ reply
      | ok ids =>
        rw [reply] at looked
        cases looked
    · cases failed

/-- Every change of the batch is there, and one without a subject has no id of its own. -/
theorem resolve_subjects_ok {changes : List (StateChange Body × Option (StateChange Body))}
    (resolved : resolveSubjects db tick batch = .ok changes) :
    changes.map Prod.fst = batch ∧
      ∀ entry ∈ changes, entry.2 = none → entry.1.subjectID = "" := by
  unfold resolveSubjects at resolved
  dsimp only at resolved
  split at resolved
  · cases resolved
    refine ⟨(List.map_map ..).trans (List.map_id _), fun entry member missing => ?_⟩
    obtain ⟨change, -, rfl⟩ := List.mem_map.mp member
    cases missing
  · split at resolved
    · cases resolved
    · cases resolved
      refine ⟨(List.map_map ..).trans (List.map_id _), fun entry member missing => ?_⟩
      obtain ⟨change, -, rfl⟩ := List.mem_map.mp member
      dsimp only [fillSubject] at missing
      by_contra own
      rw [if_pos own] at missing
      cases missing

/-- A committed batch has no rejected change; all of it counts as written. -/
theorem write_once_written (answers : Answers rejected db)
    (attempt : writeOnce db sink batch = (after, none)) :
    Handled rejected db batch sink after := by
  unfold writeOnce writeBatch at attempt
  cases looked : resolveSubjects db sink.tick batch with
  | error error => simp [looked] at attempt
  | ok changes =>
    obtain ⟨same, unnamed⟩ := resolve_subjects_ok looked
    rcases answers.commits sink.tick (changes.filterMap Prod.snd) with
      ⟨error, reply, -⟩ | ⟨-, error, reply, -⟩ | ⟨good, reply⟩
    · simp [looked, reply] at attempt
    · simp [looked, reply] at attempt
    · simp only [looked, reply, Prod.mk.injEq, and_true] at attempt
      subst attempt
      have counted : ∀ entry ∈ changes, (if entry.2.isSome then Fate.written
          else Fate.unknown).counted = true := fun entry _ => by split <;> rfl
      refine ⟨⟨_, rfl, (List.map_map ..).trans same, ?_, ?_, ?_⟩, Nat.le_succ _⟩
      · intro entry member
        obtain ⟨⟨change, sent⟩, listed, rfl⟩ := List.mem_map.mp member
        cases sent with
        | none => exact ⟨unnamed _ listed rfl, _, _, _, looked, listed⟩
        | some sent =>
          refine ⟨_, _, _, sent, looked, listed, reply, ?_⟩
          rw [List.any_eq_false] at good
          simpa using good sent (List.mem_filterMap.mpr ⟨_, listed, rfl⟩)
      · rw [List.countP_map, List.countP_eq_length.mpr (by simpa using counted), ← same,
          List.length_map]
      · rw [List.countP_map, List.countP_eq_zero.mpr (by simpa using counted)]
        rfl

/-- A failed write leaves no trace; a data error is due to a change of the batch. -/
theorem write_once_failed {error : DbError} (answers : Answers rejected db)
    (attempt : writeOnce db sink batch = (after, some error)) :
    after = sink.advance ∧ writeBatch db sink.tick batch = .error error ∧
      (isStateDBUnavailable error = true ∨ isStateDataError error = true ∧ batch ≠ []) := by
  unfold writeOnce at attempt
  split at attempt
  · next other failed =>
    cases attempt
    refine ⟨rfl, failed, ?_⟩
    unfold writeBatch at failed
    cases looked : resolveSubjects db sink.tick batch with
    | error other =>
      simp only [looked, Except.error.injEq] at failed
      exact .inl (failed ▸ resolve_subjects_error answers looked)
    | ok changes =>
      simp only [looked] at failed
      rcases answers.commits sink.tick (changes.filterMap Prod.snd) with
        ⟨other, reply, down⟩ | ⟨bad, other, reply, data⟩ | ⟨-, reply⟩
      · simp only [reply, Except.error.injEq] at failed
        exact .inl (failed ▸ down)
      · simp only [reply, Except.error.injEq] at failed
        refine .inr ⟨failed ▸ data, ?_⟩
        rintro rfl
        rw [List.map_eq_nil_iff.mp (resolve_subjects_ok looked).1] at bad
        cases bad
      · simp [reply] at failed
  · cases attempt

theorem write_once_quiet {error : DbError} (answers : Answers rejected db)
    (attempt : writeOnce db sink batch = (after, some error)) :
    Handled rejected db [] sink after := by
  rw [(write_once_failed answers attempt).1]
  exact .advance sink

theorem drop_rejected {error : DbError} {part : Batch Body}
    (answers : Answers rejected db) (short : ¬1 < part.length)
    (attempt : writeOnce db sink part = (after, some error))
    (available : isStateDBUnavailable error ≠ true) :
    Handled rejected db part sink (dropBatch after part) := by
  obtain ⟨rfl, failed, down | ⟨data, some_⟩⟩ := write_once_failed answers attempt
  · exact absurd down available
  · match part, some_, short with
    | [change], _, _ =>
      refine ⟨⟨[(change, .dropped)], rfl, rfl, ?_, rfl, rfl⟩, Nat.le_succ _⟩
      intro entry member
      rw [List.mem_singleton.mp member]
      exact ⟨_, error, failed, data, Bool.eq_false_iff.mpr available⟩
    | _ :: _ :: _, _, short => simp at short

end

/-- What the retries do to a batch: it is written, or nothing is and the error is of one
of the two classes, or the context is cancelled. -/
def Attempted (rejected : StateChange Body → Bool) (db : Database Body) (ctx : Context)
    (batch : Batch Body) (sink : Sink Body) : Sink Body × Option WriteError → Prop
  | (final, none) => Handled rejected db batch sink final
  | (final, some err) => Handled rejected db [] sink final ∧
      (ctx.cancelled final.tick = true ∨ err.cause.any isStateDBUnavailable = true ∨
        err.cause.any isStateDataError = true)

theorem Attempted.after {batch : Batch Body} {sink middle : Sink Body}
    {result : Sink Body × Option WriteError} (quiet : Handled rejected db [] sink middle)
    (later : Attempted rejected db ctx batch middle result) :
    Attempted rejected db ctx batch sink result := by
  match result, later with
  | (final, none), written => exact quiet.trans written
  | (final, some err), failed => exact ⟨quiet.trans failed.1, failed.2⟩

theorem write_with_retry_attempted (answers : Answers rejected db) (batch : Batch Body)
    (attempts : Nat) (last : Option DbError) (sink : Sink Body) (left : 0 < attempts) :
    Attempted rejected db ctx batch sink (writeWithRetry db ctx batch attempts last sink) := by
  fun_induction writeWithRetry db ctx batch attempts last sink with
  | case1 => omega
  | case2 attempts last sink cancelled =>
    exact ⟨.advance sink, .inl (ctx.cancelled_mono (Nat.le_succ _) cancelled)⟩
  | case3 attempts last sink _ after attempt =>
    exact (Handled.advance sink).trans (write_once_written answers attempt)
  | case4 attempts last sink _ after error attempt _ =>
    obtain ⟨-, -, kind⟩ := write_once_failed answers attempt
    exact ⟨(Handled.advance sink).trans (write_once_quiet answers attempt),
      .inr (kind.imp_right And.left)⟩
  | case5 last sink _ after error attempt _ =>
    obtain ⟨-, -, kind⟩ := write_once_failed answers attempt
    exact ⟨(Handled.advance sink).trans (write_once_quiet answers attempt),
      .inr (kind.imp_right And.left)⟩
  | case6 attempts last sink _ after error attempt _ _ cancelled =>
    have quiet := (Handled.advance sink).trans (write_once_quiet answers attempt)
    exact ⟨quiet.trans (.advance after), .inl (ctx.cancelled_mono (Nat.le_succ _) cancelled)⟩
  | case7 attempts last sink _ after error attempt _ more _ ih =>
    have quiet := (Handled.advance sink).trans (write_once_quiet answers attempt)
    exact (ih (Nat.pos_of_ne_zero more)).after (quiet.trans (.advance after))

/-- What salvage does to a stack: the parts are taken up in order and the rest is kept. -/
def Salvaged (rejected : StateChange Body → Bool) (db : Database Body) (changes : Batch Body)
    (sink : Sink Body) (result : Sink Body × Option (Batch Body × WriteError)) : Prop :=
  ∃ processed, changes = processed ++ (result.2.map Prod.fst).getD [] ∧
    Handled rejected db processed sink result.1

theorem Salvaged.after {first rest : Batch Body} {sink middle : Sink Body}
    {result : Sink Body × Option (Batch Body × WriteError)}
    (earlier : Handled rejected db first sink middle)
    (later : Salvaged rejected db rest middle result) :
    Salvaged rejected db (first ++ rest) sink result := by
  obtain ⟨processed, same, handled⟩ := later
  exact ⟨first ++ processed, by rw [List.append_assoc, ← same], earlier.trans handled⟩

theorem salvage_loop_salvaged (answers : Answers rejected db) (stack : List (Batch Body))
    (sink : Sink Body) :
    Salvaged rejected db stack.flatten sink (salvageLoop db ctx stack sink) := by
  fun_induction salvageLoop db ctx stack sink with
  | case1 sink => exact ⟨[], rfl, .refl sink⟩
  | case2 sink part stack _ _ => exact ⟨[], rfl, .advance sink⟩
  | case3 sink part stack _ mid _ after attempt ih =>
    have written := (Handled.advance sink).trans (write_once_written answers attempt)
    have split : (part :: stack).flatten = part.take mid ++ (part.drop mid :: stack).flatten := by
      rw [List.flatten_cons, List.flatten_cons, ← List.append_assoc, List.take_append_drop]
    rw [split]
    exact ih.after written
  | case4 sink part stack _ mid _ after error attempt _ =>
    exact ⟨[], rfl, (Handled.advance sink).trans (write_once_quiet answers attempt)⟩
  | case5 sink part stack _ mid _ after error attempt _ ih =>
    have quiet := (Handled.advance sink).trans (write_once_quiet answers attempt)
    have split : (part :: stack).flatten =
        (part.take mid :: part.drop mid :: stack).flatten := by
      rw [List.flatten_cons, List.flatten_cons, List.flatten_cons, ← List.append_assoc,
        List.take_append_drop]
    rw [split, ← List.nil_append (List.flatten _)]
    exact ih.after quiet
  | case6 sink part stack _ after attempt ih =>
    exact ih.after (write_once_written answers attempt)
  | case7 sink part stack _ after error attempt _ =>
    exact ⟨[], rfl, (write_once_quiet answers attempt)⟩
  | case8 sink part stack short after error attempt available ih =>
    exact ih.after (drop_rejected answers short attempt available)

theorem salvage_salvaged (answers : Answers rejected db) {batch : Batch Body}
    {sink : Sink Body} {result : Sink Body × Option (Batch Body × WriteError)}
    (salvaged : salvage db ctx batch sink = result) : Salvaged rejected db batch sink result := by
  have all : Salvaged rejected db [batch].flatten sink (salvage db ctx batch sink) :=
    salvage_loop_salvaged answers [batch] sink
  rwa [salvaged, List.flatten_singleton] at all

/-- A flush takes up a leading part of the pending changes and keeps the rest. -/
def Flushed (rejected : StateChange Body → Bool) (db : Database Body)
    (writer final : StateWriter Body) : Prop :=
  ∃ processed, writer.pending = processed ++ final.pending ∧
    Handled rejected db processed writer.sink final.sink

theorem Flushed.later {writer middle final : StateWriter Body} {batch : Batch Body}
    (taken : writer.pending = batch ++ middle.pending)
    (handled : Handled rejected db batch writer.sink middle.sink)
    (later : Flushed rejected db middle final) : Flushed rejected db writer final := by
  obtain ⟨processed, same, rest⟩ := later
  exact ⟨batch ++ processed, by rw [taken, same, List.append_assoc], handled.trans rest⟩

theorem pending_of_taken {size : Nat} {writer : StateWriter Body}
    {batch lifecycle events : Batch Body}
    (taken : nextBatch size writer = (batch, lifecycle, events)) :
    writer.pending = batch ++ (lifecycle ++ events) := by
  rw [next_batch_pending size writer, taken]

theorem flush_flushed (config : WriterConfig) (answers : Answers rejected db)
    (writer : StateWriter Body) (firstErr : Option WriteError) :
    Flushed rejected db writer (flush config db ctx writer firstErr).1 := by
  have tried : ∀ batch (sink : Sink Body), Attempted rejected db ctx batch sink
      (writeWithRetry db ctx batch config.maxAttempts none sink) := fun batch sink =>
    write_with_retry_attempted answers batch _ none sink config.maxAttempts_pos
  fun_induction flush config db ctx writer firstErr with
  | case1 writer _ _ => exact ⟨[], rfl, .advance _⟩
  | case2 writer _ _ _ _ _ => exact ⟨[], rfl, .advance _⟩
  | case3 writer firstErr _ head tail lifecycle events taken batch sink retried ih =>
    have waiting : writer.pending = batch ++ (lifecycle ++ events) := pending_of_taken taken
    have written : Attempted rejected db ctx batch writer.sink.advance (sink, none) :=
      retried ▸ tried batch writer.sink.advance
    have handled : Handled rejected db batch writer.sink sink :=
      (Handled.advance writer.sink).trans written
    exact ih.later waiting handled
  | case4 writer firstErr _ head tail lifecycle events taken batch sink err retried _ =>
    have waiting : writer.pending = batch ++ (lifecycle ++ events) := pending_of_taken taken
    have failed : Attempted rejected db ctx batch writer.sink.advance (sink, some err) :=
      retried ▸ tried batch writer.sink.advance
    refine ⟨[], waiting, ?_⟩
    exact ((Handled.advance writer.sink).trans failed.1).trans (.advance sink)
  | case5 writer firstErr _ head tail lifecycle events taken batch sink err retried _ _ after kept
      stopped salvaged =>
      have waiting : writer.pending = batch ++ (lifecycle ++ events) := pending_of_taken taken
      have failed : Attempted rejected db ctx batch writer.sink.advance (sink, some err) :=
        retried ▸ tried batch writer.sink.advance
      have quiet := ((Handled.advance writer.sink).trans failed.1).trans (.advance sink)
      obtain ⟨processed, same, handled⟩ := salvage_salvaged answers salvaged
      refine ⟨processed, ?_, quiet.trans handled⟩
      rw [waiting, same, List.append_assoc]
      rfl
  | case6 writer firstErr _ head tail lifecycle events taken batch sink err retried _ _ after
      salvaged ih =>
      have waiting : writer.pending = batch ++ (lifecycle ++ events) := pending_of_taken taken
      have failed : Attempted rejected db ctx batch writer.sink.advance (sink, some err) :=
        retried ▸ tried batch writer.sink.advance
      have quiet := ((Handled.advance writer.sink).trans failed.1).trans (.advance sink)
      obtain ⟨processed, same, handled⟩ := salvage_salvaged answers salvaged
      obtain rfl : batch = processed := same.trans (List.append_nil _)
      exact ih.later waiting (quiet.trans handled)
  | case7 writer firstErr _ head tail lifecycle events taken batch sink err retried kept data ih =>
    have failed : Attempted rejected db ctx batch writer.sink.advance (sink, some err) :=
      retried ▸ tried batch writer.sink.advance
    simp only [Bool.or_eq_true, not_or] at kept
    rcases failed.2 with cancelled | down | rejecting
    · exact absurd cancelled kept.1
    · exact absurd down kept.2
    · exact absurd rejecting data

/-! ## Progress -/

def Available (db : Database Body) : Prop :=
  ∀ tick batch error, writeBatch db tick batch = .error error → isStateDBUnavailable error = false

theorem write_once_available {sink after : Sink Body} {batch : Batch Body}
    {error : DbError} (available : Available db)
    (attempt : writeOnce db sink batch = (after, some error)) :
    isStateDBUnavailable error = false := by
  unfold writeOnce at attempt
  split at attempt
  · next other failed =>
    cases attempt
    exact available _ _ _ failed
  · cases attempt

theorem write_with_retry_available (available : Available db) (batch : Batch Body)
    (attempts : Nat) (last : Option DbError) (sink : Sink Body)
    (answered : last.any isStateDBUnavailable = false) {final : Sink Body} {err : WriteError}
    (failed : writeWithRetry db ctx batch attempts last sink = (final, some err)) :
    err.cause.any isStateDBUnavailable = false := by
  fun_induction writeWithRetry db ctx batch attempts last sink with
  | case1 last sink =>
    obtain ⟨-, rfl⟩ : _ ∧ WriteError.exhausted last = err := by simpa using failed
    exact answered
  | case2 attempts last sink _ =>
    obtain ⟨-, rfl⟩ : _ ∧ WriteError.interrupted last = err := by simpa using failed
    exact answered
  | case3 attempts last sink _ after attempt => simp at failed
  | case4 attempts last sink _ after error attempt _ =>
    obtain ⟨-, rfl⟩ : _ ∧ WriteError.database error = err := by simpa using failed
    exact write_once_available available attempt
  | case5 last sink _ after error attempt _ =>
    obtain ⟨-, rfl⟩ : _ ∧ WriteError.exhausted (some error) = err := by simpa using failed
    exact write_once_available available attempt
  | case6 attempts last sink _ after error attempt _ _ _ =>
    obtain ⟨-, rfl⟩ : _ ∧ WriteError.interrupted (some error) = err := by simpa using failed
    exact write_once_available available attempt
  | case7 attempts last sink _ after error attempt _ _ _ ih =>
    exact ih (write_once_available available attempt) failed

theorem salvage_loop_available (available : Available db) (lasting : ctx.cancelFrom = none)
    (stack : List (Batch Body)) (sink : Sink Body) :
    (salvageLoop db ctx stack sink).2 = none := by
  fun_induction salvageLoop db ctx stack sink with
  | case1 sink => rfl
  | case2 sink part stack _ cancelled => simp [Context.cancelled, lasting] at cancelled
  | case3 sink part stack _ mid _ after attempt ih => exact ih
  | case4 sink part stack _ mid _ after error attempt down =>
    rw [write_once_available available attempt] at down
    cases down
  | case5 sink part stack _ mid _ after error attempt _ ih => exact ih
  | case6 sink part stack _ after attempt ih => exact ih
  | case7 sink part stack _ after error attempt down =>
    rw [write_once_available available attempt] at down
    cases down
  | case8 sink part stack _ after error attempt _ ih => exact ih

theorem pending_of_empty_batch {size : Nat} {writer : StateWriter Body}
    {lifecycle events : Batch Body} (positive : 0 < size)
    (taken : nextBatch size writer = ([], lifecycle, events)) : writer.pending = [] := by
  unfold nextBatch at taken
  split at taken
  · rename_i empty
    simp only [drain, Prod.mk.injEq, List.append_eq_nil_iff, List.take_eq_nil_iff] at taken
    obtain ⟨⟨none_left, no_events⟩, -⟩ := taken
    have lifecycle_empty : writer.lifecycle = [] := none_left.resolve_left (by omega)
    have events_empty : writer.events = [] := by
      rw [lifecycle_empty] at no_events
      exact no_events.resolve_left (by simpa using Nat.pos_iff_ne_zero.mp positive)
    simp [StateWriter.pending, List.isEmpty_iff.mp empty, lifecycle_empty, events_empty]
  · rename_i kept
    simp only [Prod.mk.injEq] at taken
    simp [taken.1] at kept

/-- A flush that is neither cancelled nor finds the database unavailable leaves nothing. -/
theorem flush_complete (config : WriterConfig) (available : Available db)
    (lasting : ctx.cancelFrom = none) (writer : StateWriter Body)
    (firstErr : Option WriteError) :
    (flush config db ctx writer firstErr).1.pending = [] := by
  fun_induction flush config db ctx writer firstErr with
  | case1 writer _ cancelled => simp [Context.cancelled, lasting] at cancelled
  | case2 writer _ _ _ _ taken => exact pending_of_empty_batch config.batchSize_pos taken
  | case3 writer firstErr _ head tail lifecycle events taken batch sink retried ih => exact ih
  | case4 writer firstErr _ head tail lifecycle events taken batch sink err retried stopped =>
    rw [write_with_retry_available available batch _ none _ rfl retried] at stopped
    simp [Context.cancelled, lasting] at stopped
  | case5 writer firstErr _ head tail lifecycle events taken batch sink err retried _ _ after kept
      stopped salvaged =>
      have none_kept := salvage_loop_available available lasting [batch] sink.advance
      rw [show salvageLoop db ctx [batch] sink.advance = _ from salvaged] at none_kept
      cases none_kept
  | case6 writer firstErr _ head tail lifecycle events taken batch sink err retried _ _ after
      salvaged ih => exact ih
  | case7 writer firstErr _ head tail lifecycle events taken batch sink err retried kept data ih =>
    exact ih

/-- A flush ends with every pending change in exactly one place, in the original order:
written, left out for want of a subject, dropped because the database rejects it on its own,
or kept. What is left out counts as written. Nothing is kept unless the flush was stopped. -/
theorem flush_conserves_changes (config : WriterConfig) (rejected : StateChange Body → Bool)
    (db : Database Body) (answers : Answers rejected db) (ctx : Context)
    (writer final : StateWriter Body) (errors : List WriteError)
    (flushed : flush config db ctx writer none = (final, errors)) :
    ∃ entries,
      final.sink.log = writer.sink.log ++ entries ∧
      writer.pending = entries.map Prod.fst ++ final.pending ∧
      (∀ entry ∈ entries, Justified rejected db entry) ∧
      final.sink.written =
        writer.sink.written + entries.countP (fun entry => entry.2.counted) ∧
      final.sink.dropped =
        writer.sink.dropped + entries.countP (fun entry => !entry.2.counted) ∧
      (Available db → ctx.cancelFrom = none → final.pending = []) := by
  have done : (flush config db ctx writer none).1 = final := by rw [flushed]
  obtain ⟨processed, same, handled⟩ : Flushed rejected db writer final :=
    done ▸ flush_flushed config answers writer none
  obtain ⟨entries, log, taken, reasons, written, dropped⟩ := handled.entries
  refine ⟨entries, log, taken ▸ same, reasons, written, dropped, fun available lasting => ?_⟩
  rw [← done]
  exact flush_complete config available lasting writer none

def accountChange (key body : Nat) : StateChange Nat :=
  { subjectKind := "account", subjectID := "", subjectKey := key, body := body }

/-- A database that knows the account 7, rejects the body 2 and is down from some tick on. -/
def sampleDatabase (down : Nat) : Database Nat where
  lookupIDsByKeys tick _ _ :=
    if down ≤ tick then .error (.server "57P01" "" "")
    else .ok fun key => if key = 7 then "acc_7" else ""
  commit tick changes :=
    if down ≤ tick then some (.server "57P01" "" "")
    else if changes.any (fun change => change.body == 2) then some (.server "22001" "" "")
    else none

theorem sample_database_answers (down : Nat) :
    Answers (fun change => change.body == 2) (sampleDatabase down) where
  lookups tick kind keys error failed := by
    dsimp only [sampleDatabase] at failed
    split at failed
    · cases failed
      decide +kernel
    · cases failed
  commits tick changes := by
    dsimp only [sampleDatabase]
    split
    · exact .inl ⟨_, rfl, by decide +kernel⟩
    · split
      · next bad => exact .inr (.inl ⟨bad, _, rfl, by decide +kernel⟩)
      · next good => exact .inr (.inr ⟨Bool.eq_false_iff.mpr good, rfl⟩)

/-- The account 9 is not found, the rejected change is dropped, and the ones behind it are
kept when the database goes down. -/
theorem sample_flush_conserves :
    let pending := [accountChange 7 1, accountChange 9 1, accountChange 7 2, accountChange 7 3,
      accountChange 7 4]
    ∃ final errors, flush {} (sampleDatabase 10) {} { lifecycle := pending } none =
        (final, errors) ∧
      final.sink.log = [(accountChange 7 1, .written), (accountChange 9 1, .unknown),
        (accountChange 7 2, .dropped)] ∧
      final.pending = [accountChange 7 3, accountChange 7 4] ∧
      ∃ entries, final.sink.log = [] ++ entries ∧
        pending = entries.map Prod.fst ++ final.pending ∧ ∀ entry ∈ entries,
          Justified (fun change => change.body == 2) (sampleDatabase 10) entry := by
  intro pending
  refine ⟨_, _, rfl, by decide +kernel, by decide +kernel, ?_⟩
  obtain ⟨entries, log, taken, reasons, -⟩ := flush_conserves_changes {}
    (fun change => change.body == 2) (sampleDatabase 10) (sample_database_answers 10) {}
    { lifecycle := pending } _ _ rfl
  exact ⟨entries, log, taken, reasons⟩

/-- A database that rejects nothing is never shown the change of an unknown account, which
counts as written all the same. -/
theorem unknown_subject_counted_written :
    let change := accountChange 999 1
    let flushed := flush {} (sampleDatabase 100) {} { lifecycle := [change] } none
    Answers (fun change => change.body == 2) (sampleDatabase 100) ∧ (change.body == 2) = false ∧
      flushed.2.isEmpty = true ∧ flushed.1.pending = [] ∧
      flushed.1.sink.log = [(change, .unknown)] ∧ flushed.1.sink.written = 1 ∧
      flushed.1.sink.dropped = 0 :=
  ⟨sample_database_answers 100, by decide +kernel, by decide +kernel, by decide +kernel,
    by decide +kernel, by decide +kernel, by decide +kernel⟩

end Spinneret.Action
