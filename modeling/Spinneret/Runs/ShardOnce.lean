import Spinneret.Runs.ShardLedger

/-!
# Exactly once per shard

While one consumer runs at a time the consumers of a shard refine its ledger, through
stops at any point, hand-overs, failed acknowledgements and retried calls.
-/

namespace Spinneret.Worker

open Spinneret.HotState Spinneret.Lib

set_option autoImplicit false

/-! ## Where a consumer stands -/

/-- The entries that a later page of the drain or a later consumer sees. -/
def Resume.Covers : Resume → Nat → Prop
  | .claim (some next) _, position => next ≤ position
  | .claim none _, _ => False
  | .read, _ => False
  | .stop, _ => True

/-- A batch goes through the delivered entries from the frontier on without a gap. -/
structure InBatch (frontier delivered : Nat) (rest done : List Nat) (resume : Resume) : Prop where
  done : ∀ position ∈ done, position < frontier
  sorted : rest.Pairwise (· < ·)
  bounded : ∀ position ∈ rest, position < delivered
  ahead : ∀ position ∈ rest, ∀ later, resume.Covers later → position < later
  left : ∀ position, frontier ≤ position → position < delivered →
    position ∈ rest ∨ resume.Covers position

def Stands (frontier delivered : Nat) : ConsumerPhase → Prop
  | .idle => True
  | .claiming cursor _ => ∀ position, frontier ≤ position → position < delivered → cursor ≤ position
  | .batch rest done resume => InBatch frontier delivered rest done resume
  | .reading => delivered ≤ frontier

variable {group : Group} {command : Command} {state : Shard} {ops : List ShardOp}

section Stands

variable {frontier delivered : Nat} {rest done : List Nat} {resume : Resume}

theorem after_drain_stands (acked : Bool) (processed : delivered ≤ frontier) :
    Stands frontier delivered (afterDrain acked) := by
  cases acked with
  | true => exact processed
  | false => exact fun position _ _ => Nat.zero_le position

theorem resume_stands (ok : Bool)
    (left : ∀ position, frontier ≤ position → position < delivered → resume.Covers position) :
    Stands frontier delivered (resume.after ok) := by
  have none_left : (∀ position, ¬ resume.Covers position) → delivered ≤ frontier := by
    intro uncovered
    by_contra! more
    exact uncovered frontier (left frontier le_rfl more)
  cases resume with
  | claim next acked =>
    cases next with
    | none => exact after_drain_stands _ (none_left fun _ covered => covered)
    | some next => exact left
  | read => exact after_drain_stands _ (none_left fun _ covered => covered)
  | stop => trivial

/-- The next entry of a batch is the frontier or already processed. -/
theorem InBatch.next_le {position : Nat}
    (inBatch : InBatch frontier delivered (position :: rest) done resume) :
    position ≤ frontier := by
  by_contra! beyond
  have bound := inBatch.bounded position List.mem_cons_self
  rcases inBatch.left frontier le_rfl (beyond.trans bound) with member | covered
  · rcases List.mem_cons.mp member with rfl | later
    · exact lt_irrefl _ beyond
    · exact absurd (List.rel_of_pairwise_cons inBatch.sorted later) (not_lt.mpr beyond.le)
  · exact absurd (inBatch.ahead position List.mem_cons_self frontier covered)
      (not_lt.mpr beyond.le)

theorem InBatch.attempted {reached : Nat} (inBatch : InBatch frontier delivered rest done resume)
    (le : frontier ≤ reached) : InBatch reached delivered rest done resume where
  done := fun position member => (inBatch.done position member).trans_le le
  sorted := inBatch.sorted
  bounded := inBatch.bounded
  ahead := inBatch.ahead
  left := fun position ge => inBatch.left position (le.trans ge)

theorem InBatch.processed {position reached : Nat}
    (inBatch : InBatch frontier delivered (position :: rest) done resume)
    (le : frontier ≤ reached) (passed : position < reached) :
    InBatch reached delivered rest (done ++ [position]) resume where
  done := by
    intro old member
    rcases List.mem_append.mp member with earlier | last
    · exact (inBatch.done old earlier).trans_le le
    · obtain rfl := List.mem_singleton.mp last
      exact passed
  sorted := inBatch.sorted.of_cons
  bounded := fun old member => inBatch.bounded old (List.mem_cons_of_mem _ member)
  ahead := fun old member => inBatch.ahead old (List.mem_cons_of_mem _ member)
  left := by
    intro other ge bound
    rcases inBatch.left other (le.trans ge) bound with member | covered
    · rcases List.mem_cons.mp member with rfl | later
      · exact absurd passed (not_lt.mpr ge)
      · exact Or.inl later
    · exact Or.inr covered

/-- A page of the drain together with the later pages has every unprocessed entry. -/
theorem claim_page_in_batch {shard cursor count : Nat} {page : List Nat} {next : Option Nat}
    (acked : Bool) (formed : group.Formed) (processed : Processed shard group frontier)
    (stands : Stands frontier group.delivered (.claiming cursor acked))
    (paged : group.claimPage cursor count = (page, next)) :
    InBatch frontier group.delivered page [] (.claim next acked) := by
  obtain ⟨rfl, rfl⟩ := Prod.mk.inj paged
  set found := group.pending.filter fun position => decide (cursor ≤ position) with scan
  have sorted : (found.take count ++ found.drop count).Pairwise (· < ·) := by
    rw [List.take_append_drop]
    exact formed.sorted.filter _
  obtain ⟨pageSorted, laterSorted, before⟩ := List.pairwise_append.mp sorted
  refine ⟨nofun, pageSorted, ?_, ?_, ?_⟩
  · intro position member
    exact formed.bounded position (List.mem_of_mem_filter (List.mem_of_mem_take member))
  · intro position member later covered
    cases pages : found.drop count with
    | nil =>
      rw [pages] at covered
      exact covered.elim
    | cons first others =>
      rw [pages] at covered before
      exact (before position member first List.mem_cons_self).trans_le covered
  · intro position unprocessed bound
    have scanned : position ∈ found.take count ++ found.drop count := by
      rw [List.take_append_drop, scan]
      exact List.mem_filter.mpr ⟨processed.kept position unprocessed bound,
        decide_eq_true (stands position unprocessed bound)⟩
    rcases List.mem_append.mp scanned with inPage | later
    · exact Or.inl inPage
    · refine Or.inr ?_
      cases pages : found.drop count with
      | nil =>
        rw [pages] at later
        cases later
      | cons first others =>
        rw [pages] at later laterSorted
        rcases List.mem_cons.mp later with rfl | member
        · exact le_rfl
        · exact (List.rel_of_pairwise_cons laterSorted member).le

theorem fresh_in_batch {count : Nat} (stands : Stands frontier group.delivered .reading) :
    InBatch frontier (group.deliver count).delivered (group.fresh count) [] .read where
  done := nofun
  sorted := List.pairwise_lt_range'
  bounded := fun _ member => (Group.mem_fresh.mp member).2
  ahead := fun _ _ _ covered => covered.elim
  left := fun _ unprocessed bound =>
    Or.inl (Group.mem_fresh.mpr ⟨le_trans stands unprocessed, bound⟩)

end Stands

/-! ## One consumer at a time -/

/-- A consumer starts only when no other runs, a lost read reply stops the consumer, and
the calls of an entry are retried until one succeeds. -/
def Alone (state : Shard) : ShardOp → Prop
  | .consumer _ .start => ∀ c, state.phase c = .idle
  | .consumer _ (.readLost _) => False
  | .consumer _ .giveUp => False
  | _ => True

theorem consumes_processed {shard c frontier : Nat} {group after : Group}
    {phase reached : ConsumerPhase} (formed : group.Formed)
    (processed : Processed shard group frontier) (stands : Stands frontier group.delivered phase)
    (alone : Alone state (.consumer c command))
    (moved : Consumes shard group phase command after reached) :
    ∃ past label, Follows (.consumer c command) label ∧
      Machine.run (ledgerStep shard) (group.ledger frontier) label.toList =
        some (after.ledger past) ∧
      Processed shard after past ∧ Stands past after.delivered reached := by
  -- All commands but the script calls leave the hot state and the stream alone.
  have quiet {other : Group} {phase : ConsumerPhase}
      (same : other.ledger frontier = group.ledger frontier)
      (kept : Processed shard other frontier) (stands : Stands frontier other.delivered phase) :
      ∃ past label, Follows (.consumer c command) label ∧
        Machine.run (ledgerStep shard) (group.ledger frontier) label.toList =
          some (other.ledger past) ∧
        Processed shard other past ∧ Stands past other.delivered phase :=
    ⟨frontier, none, .quiet c command, congrArg some same.symm, kept, stands⟩
  cases moved with
  | start => exact quiet rfl processed fun position _ _ => Nat.zero_le position
  | stop | cutIdle => exact quiet rfl processed trivial
  | drained positive page =>
    have inBatch := claim_page_in_batch _ formed processed stands page
    refine quiet rfl processed (resume_stands true fun position unprocessed bound => ?_)
    exact (inBatch.left position unprocessed bound).resolve_left (List.not_mem_nil)
  | claimed paged => exact quiet rfl processed (claim_page_in_batch _ formed processed stands paged)
  | readNone => exact quiet rfl processed stands
  | read => exact quiet rfl (processed.deliver _) (fresh_in_batch stands)
  | readLost => exact alone.elim
  | readStopped => exact quiet rfl (processed.deliver _) trivial
  | attempt =>
    obtain ⟨past, label, called, stepped, le, passed, next⟩ := processed.observe _ formed
      (stands.bounded _ List.mem_cons_self) stands.next_le
    refine ⟨past, label, ?_, stepped, next, ?_⟩
    · rcases called with rfl | rfl
      · exact .quiet c _
      · exact .attempt c _
    · rw [Group.observe_entry_delivered]
      exact stands.attempted le
  | process =>
    obtain ⟨past, label, called, stepped, le, passed, next⟩ := processed.observe _ formed
      (stands.bounded _ List.mem_cons_self) stands.next_le
    refine ⟨past, label, ?_, stepped, next, ?_⟩
    · rcases called with rfl | rfl
      · exact .quiet c _
      · exact .process c _
    · rw [Group.observe_entry_delivered]
      exact stands.processed le passed
  | giveUp => exact alone.elim
  | cut =>
    exact quiet rfl processed ⟨stands.done, List.Pairwise.nil, nofun, nofun,
      fun _ _ _ => Or.inr trivial⟩
  | ack =>
    exact quiet rfl (processed.acknowledge stands.done) (resume_stands true
      fun position unprocessed bound =>
        (stands.left position unprocessed bound).resolve_left List.not_mem_nil)
  | ackLost => exact quiet rfl (processed.acknowledge stands.done) stands
  | ackFailed =>
    exact quiet rfl processed (resume_stands false fun position unprocessed bound =>
      (stands.left position unprocessed bound).resolve_left List.not_mem_nil)

/-- The invariant of a shard with one consumer at a time, after the operations. -/
structure InOrder (shard : Nat) (ops : List ShardOp) (state : Shard) : Prop where
  formed : state.group.Formed
  single : ∀ c d, state.phase c ≠ .idle → state.phase d ≠ .idle → c = d
  processed : ∃ frontier, Refines shard ops state.group frontier ∧
    Processed shard state.group frontier ∧
    ∀ c, Stands frontier state.group.delivered (state.phase c)

theorem consumes_from_idle {shard : Nat} {group after : Group} {reached : ConsumerPhase}
    (moved : Consumes shard group .idle command after reached) :
    after = group ∧ (command = .start ∨ reached = .idle) := by
  cases moved with
  | start => exact ⟨rfl, Or.inl rfl⟩
  | stop => exact ⟨rfl, Or.inr rfl⟩

theorem others_idle {shard c : Nat} {after : Group} {reached : ConsumerPhase}
    (single : ∀ c d, state.phase c ≠ .idle → state.phase d ≠ .idle → c = d)
    (alone : Alone state (.consumer c command))
    (moved : Consumes shard state.group (state.phase c) command after reached) :
    (∀ d, d ≠ c → state.phase d = .idle) ∨
      (after = state.group ∧ Function.update state.phase c reached = state.phase) := by
  by_cases idle : state.phase c = .idle
  · rw [idle] at moved
    obtain ⟨same, started | stopped⟩ := consumes_from_idle moved
    · subst started
      exact Or.inl fun d _ => alone d
    · refine Or.inr ⟨same, ?_⟩
      rw [stopped, ← idle, Function.update_eq_self]
  · refine Or.inl fun d other => ?_
    by_contra running
    exact other (single d c running idle)

theorem in_order_step {shard : Nat} {state next : Shard} {op : ShardOp}
    (inOrder : InOrder shard ops state) (alone : Alone state op)
    (stepped : shardStep shard state op = some next) : InOrder shard (ops ++ [op]) next := by
  have moved := shard_step_moves stepped
  have formed := shard_moves_formed inOrder.formed moved
  obtain ⟨frontier, refines, processed, stands⟩ := inOrder.processed
  cases moved with
  | add grows =>
    exact ⟨formed, inOrder.single, frontier, refines.snoc (.add _) rfl,
      processed.add _ inOrder.formed, stands⟩
  | @other s site same =>
    have stepped : ledgerStep shard (state.group.ledger frontier) (.other s site) = some _ :=
      if_pos same
    exact ⟨formed, inOrder.single, frontier,
      refines.snoc (.other s site) (Machine.run_cons_eq_some.mpr ⟨_, stepped, rfl⟩),
      processed.other same, stands⟩
  | @consumer c command group phase moved =>
    obtain ⟨past, label, follows, ran, processed', stands'⟩ :=
      consumes_processed inOrder.formed processed (stands c) alone moved
    rcases others_idle inOrder.single alone moved with idle | ⟨rfl, same⟩
    · refine ⟨formed, ?_, past, refines.snoc follows ran, processed', ?_⟩
      · intro d e running running'
        have only : ∀ other, Function.update state.phase c phase other ≠ .idle → other = c := by
          intro other active
          by_contra different
          exact active (by rw [Function.update_of_ne different, idle other different])
        rw [only d running, only e running']
      · intro d
        by_cases mover : d = c
        · subst mover
          simpa only [Function.update_self] using stands'
        · simp only [Function.update_of_ne mover, idle d mover]
          trivial
    · simp only [same]
      exact ⟨inOrder.formed, inOrder.single, frontier, refines.snoc (.quiet c command) rfl,
        processed, stands⟩

theorem in_order_start (shard : Nat) : InOrder shard [] {} where
  formed := ⟨List.Pairwise.nil, le_rfl, List.Pairwise.nil, nofun⟩
  single := fun _ _ running => absurd rfl running
  processed := ⟨0, ⟨[], .nil, rfl⟩, ⟨rfl, le_rfl, nofun, nofun, nofun⟩, fun _ => trivial⟩

/-! ## Catching up -/

section Recovery

variable {shard c : Nat}

/-- The consumer reaches the state without a stream entry being added. -/
structure Continues (shard : Nat) (state : Shard) (c : Nat) (phase : ConsumerPhase)
    (delivered : Nat) (final : Shard) : Prop where
  reaches : Machine.Reaches (shardStep shard) Alone state final
  entries : final.group.entries = state.group.entries
  delivered : final.group.delivered = delivered
  phase : final.phase c = phase

theorem Continues.trans {state middle final : Shard} {phase phase' : ConsumerPhase}
    {delivered delivered' : Nat} (first : Continues shard state c phase delivered middle)
    (second : Continues shard middle c phase' delivered' final) :
    Continues shard state c phase' delivered' final where
  reaches := first.reaches.trans second.reaches
  entries := second.entries.trans first.entries
  delivered := second.delivered
  phase := second.phase

theorem continues_step {phase : ConsumerPhase}
    (consumed : consume shard state.group (state.phase c) command = some (group, phase))
    (alone : Alone state (.consumer c command)) (entries : group.entries = state.group.entries) :
    Continues shard state c phase group.delivered
      { group := group, phase := Function.update state.phase c phase } where
  reaches := .head (.consumer c command) alone
    (Option.map_eq_some_iff.mpr ⟨_, consumed, rfl⟩) (.refl _)
  entries := entries
  delivered := rfl
  phase := Function.update_self ..

theorem batch_continues (shard : Nat) {rest done : List Nat} {resume : Resume}
    (stands : state.phase c = .batch rest done resume) :
    ∃ final, Continues shard state c (resume.after true) state.group.delivered final := by
  induction rest generalizing state done with
  | nil =>
    have acked : consume shard state.group (state.phase c) .ack =
        some (state.group.acknowledge done, resume.after true) := by rw [stands]; rfl
    have last := continues_step acked trivial rfl
    exact ⟨_, last⟩
  | cons position rest ih =>
    have processed : consume shard state.group (state.phase c) (.process none) =
        some (state.group.observeEntry shard position none,
          .batch rest (done ++ [position]) resume) := by rw [stands]; rfl
    have first := continues_step processed trivial (Group.observe_entry_entries none)
    obtain ⟨final, later⟩ := ih first.phase
    rw [first.delivered, Group.observe_entry_delivered] at later
    exact ⟨final, first.trans later⟩

/-- A drain with one page for all pending entries ends in the read loop. -/
theorem drain_continues (shard : Nat) (stands : state.phase c = .claiming 0 true) :
    ∃ final, Continues shard state c .reading state.group.delivered final := by
  have page : state.group.claimPage 0 (state.group.pending.length + 1) =
      (state.group.pending, none) := by
    simp [Group.claimPage, List.take_of_length_le, List.drop_of_length_le]
  cases pending : state.group.pending with
  | nil =>
    have drained : consume shard state.group (state.phase c)
        (.autoClaim (state.group.pending.length + 1)) = some (state.group, .reading) := by
      rw [stands]
      simp only [consume, Nat.add_one_ne_zero, if_false, page]
      rw [pending]
      rfl
    exact ⟨_, continues_step drained trivial rfl⟩
  | cons first others =>
    have claimed : consume shard state.group (state.phase c)
        (.autoClaim (state.group.pending.length + 1)) =
        some (state.group, .batch (first :: others) [] (.claim none true)) := by
      rw [stands]
      simp only [consume, Nat.add_one_ne_zero, if_false, page]
      rw [pending]
    have opened := continues_step claimed trivial rfl
    obtain ⟨final, later⟩ := batch_continues shard opened.phase
    exact ⟨final, opened.trans later⟩

/-- A read for all entries not delivered yet ends in the read loop with none left. -/
theorem read_continues (shard : Nat) (formed : state.group.Formed)
    (stands : state.phase c = .reading) :
    ∃ final, Continues shard state c .reading state.group.entries.length final := by
  have all : state.group.delivered + (state.group.fresh state.group.entries.length).length =
      state.group.entries.length := by
    have bound := formed.delivered
    unfold Group.fresh
    rw [List.length_range']
    omega
  cases fresh : state.group.fresh state.group.entries.length with
  | nil =>
    rw [fresh] at all
    exact ⟨state, .refl _, rfl, all, stands⟩
  | cons first others =>
    have read : consume shard state.group (state.phase c)
        (.readGroup state.group.entries.length) =
        some (state.group.deliver state.group.entries.length,
          .batch (first :: others) [] .read) := by
      rw [stands]
      simp only [consume, fresh]
    have opened := continues_step read trivial rfl
    obtain ⟨final, later⟩ := batch_continues shard opened.phase
    have joined := opened.trans later
    exact ⟨final, joined.reaches, joined.entries, joined.delivered.trans all, joined.phase⟩

theorem all_idle_reached (inOrder : InOrder shard ops state) :
    ∃ final, Machine.Reaches (shardStep shard) Alone state final ∧ final.group = state.group ∧
      ∀ c, final.phase c = .idle := by
  by_cases running : ∃ c, state.phase c ≠ .idle
  · obtain ⟨c, active⟩ := running
    have stopped : shardStep shard state (.consumer c .stop) =
        some { state with phase := Function.update state.phase c .idle } := by
      simp only [shardStep, consume, Option.map_some]
    refine ⟨_, .head (.consumer c .stop) trivial stopped (.refl _), rfl, fun d => ?_⟩
    by_cases same : d = c
    · rw [same]
      exact Function.update_self ..
    · refine (Function.update_of_ne same _ _).trans ?_
      by_contra other
      exact same (inOrder.single d c other active)
  · push Not at running
    exact ⟨state, .refl _, rfl, running⟩

end Recovery

/-! ## The result -/

/-- What one consumer at a time guarantees after the operations of a run. -/
structure ExactlyOnce (shard : Nat) (ops : List ShardOp) (state : Shard) : Prop where
  /-- The ledger follows the operations of the run to the same stream and hot state, applying
  the first entries of the stream; the calls that had effects are exactly theirs. -/
  refines : ∃ next ≤ state.group.delivered, state.group.applied = state.group.routed next ∧
    Refines shard ops state.group next
  /-- A further call for an entry that was applied changes nothing. -/
  again : ∀ position ∈ state.group.applied, ∀ full,
    state.group.observeEntry shard position full = state.group
  /-- No entry is applied twice, nor after a later one. -/
  ordered : (state.group.applied.filterMap (state.group.entries[·]?)).Pairwise
    fun first second => first.id < second.id
  /-- An entry that is no longer pending was applied. -/
  acknowledged : ∀ position < state.group.delivered, position ∉ state.group.pending →
    (state.group.siteAt position).isSome → position ∈ state.group.applied
  /-- A consumer waiting at the end of the stream has applied all of it. -/
  caughtUp : ∀ c, state.phase c = .reading →
    state.group.delivered = state.group.entries.length →
    state.group.applied = state.group.routed state.group.entries.length
  /-- Whatever happened, the next consumer can get there. -/
  recovers : ∃ final, Machine.Reaches (shardStep shard) Alone state final ∧
    final.group.entries = state.group.entries ∧
    final.group.applied = state.group.routed state.group.entries.length

theorem Group.mem_routed {next position : Nat} :
    position ∈ group.routed next ↔ position < next ∧ (group.siteAt position).isSome := by
  unfold Group.routed
  rw [List.mem_filter, List.mem_range]

theorem routed_ordered (formed : group.Formed) (next : Nat) :
    ((group.routed next).filterMap (group.entries[·]?)).Pairwise
      fun first second => first.id < second.id := by
  refine List.pairwise_filterMap.mpr ((List.pairwise_lt_range.filter _).imp ?_)
  intro first second before left leftAt right rightAt
  obtain ⟨bound, rfl⟩ := List.getElem?_eq_some_iff.mp leftAt
  obtain ⟨bound', rfl⟩ := List.getElem?_eq_some_iff.mp rightAt
  exact List.pairwise_iff_getElem.mp formed.increasing first second bound bound' before

theorem InOrder.caught_up {shard c : Nat} (inOrder : InOrder shard ops state)
    (reading : state.phase c = .reading)
    (delivered : state.group.delivered = state.group.entries.length) :
    state.group.applied = state.group.routed state.group.entries.length := by
  obtain ⟨frontier, -, processed, stands⟩ := inOrder.processed
  have passed := stands c
  rw [reading] at passed
  rw [processed.applied, ← delivered, le_antisymm processed.reached passed]

theorem InOrder.run {shard : Nat} {ops more : List ShardOp} {state final : Shard}
    (inOrder : InOrder shard ops state) (alone : Machine.Under (shardStep shard) Alone state more)
    (reached : Machine.run (shardStep shard) state more = some final) :
    InOrder shard (ops ++ more) final := by
  induction more generalizing ops state with
  | nil =>
    obtain rfl : state = final := by simpa using reached
    rwa [List.append_nil]
  | cons op rest ih =>
    obtain ⟨next, stepped, finished⟩ := Machine.run_cons_eq_some.mp reached
    have later := ih (in_order_step inOrder alone.1 stepped) (alone.2 next stepped) finished
    rwa [List.append_assoc] at later

theorem InOrder.of_reaches {shard : Nat} {state final : Shard} (inOrder : InOrder shard ops state)
    (reaches : Machine.Reaches (shardStep shard) Alone state final) :
    ∃ later, InOrder shard later final := by
  obtain ⟨more, alone, reached⟩ := reaches
  exact ⟨_, inOrder.run alone reached⟩

theorem InOrder.recovers {shard : Nat} (inOrder : InOrder shard ops state) :
    ∃ final, Machine.Reaches (shardStep shard) Alone state final ∧
      final.group.entries = state.group.entries ∧
      final.group.applied = state.group.routed state.group.entries.length := by
  obtain ⟨stopped, stops, group, idle⟩ := all_idle_reached inOrder
  have started : consume shard stopped.group (stopped.phase 0) .start =
      some (stopped.group, .claiming 0 true) := by rw [idle 0]; rfl
  have starts := continues_step started idle rfl
  obtain ⟨drained, drains⟩ := drain_continues shard starts.phase
  have toReading := starts.trans drains
  obtain ⟨_, readable⟩ := inOrder.of_reaches (stops.trans toReading.reaches)
  obtain ⟨final, reads⟩ := read_continues shard readable.formed toReading.phase
  have reaches := stops.trans (toReading.trans reads).reaches
  have entries : final.group.entries = state.group.entries := by
    rw [(toReading.trans reads).entries, group]
  have delivered : final.group.delivered = final.group.entries.length := by
    rw [reads.delivered, reads.entries]
  refine ⟨final, reaches, entries, ?_⟩
  obtain ⟨_, finished⟩ := inOrder.of_reaches reaches
  rw [finished.caught_up reads.phase delivered]
  unfold Group.routed Group.siteAt
  rw [entries]

/-- In every run with one consumer at a time, however it is cut into deliveries and wherever
consumers stop, the entries of the shard are applied exactly once and in the order of their ids. -/
theorem report_processed_exactly_once {shard : Nat} {ops : List ShardOp} {final : Shard}
    (alone : Machine.Under (shardStep shard) Alone {} ops)
    (reached : Machine.run (shardStep shard) {} ops = some final) :
    ExactlyOnce shard ops final := by
  have inOrder := (in_order_start shard).run alone reached
  obtain ⟨frontier, refines, processed, stands⟩ := inOrder.processed
  refine ⟨⟨frontier, processed.reached, processed.applied, refines⟩, ?_, ?_, ?_,
    fun c => inOrder.caught_up, inOrder.recovers⟩
  · intro position applied full
    rw [processed.applied] at applied
    exact processed.observe_old full inOrder.formed (Group.mem_routed.mp applied).1
  · rw [processed.applied]
    exact routed_ordered inOrder.formed frontier
  · intro position delivered acked routed
    rw [processed.applied]
    refine Group.mem_routed.mpr ⟨?_, routed⟩
    by_contra! unprocessed
    exact acked (processed.kept position unprocessed delivered)

/-- Two entries of one site. The first consumer dies after the first call, the second one
drains, and its acknowledgement fails once. -/
def handOver (report : ObserveArgs) : List ShardOp :=
  [.add ⟨⟨1, 0⟩, some 0⟩, .add ⟨⟨1, 1⟩, some 0⟩,
    .consumer 0 .start, .consumer 0 (.autoClaim 10), .consumer 0 (.readGroup 10),
    .consumer 0 (.attempt (some report)), .consumer 0 .stop,
    .consumer 1 .start, .consumer 1 (.autoClaim 10), .consumer 1 (.process (some report)),
    .consumer 1 (.process (some report)), .consumer 1 .ackFailed, .consumer 1 (.autoClaim 10),
    .consumer 1 (.process (some report)), .consumer 1 (.process (some report)), .consumer 1 .ack]

theorem hand_over_exactly_once :
    ∃ final, Machine.run (shardStep 3) {} (handOver (successReport 1000 ⟨"a", 3⟩)) = some final ∧
      final.group.applied = [0, 1] ∧ final.group.pending = [] ∧
      ExactlyOnce 3 (handOver (successReport 1000 ⟨"a", 3⟩)) final := by
  refine ⟨_, rfl, by decide +kernel, by decide +kernel, ?_⟩
  have alone : Machine.Under (shardStep 3) Alone {} (handOver (successReport 1000 ⟨"a", 3⟩)) := by
    iterate 2 refine Machine.under_cons rfl trivial ?_
    refine Machine.under_cons rfl (fun _ => rfl) ?_
    iterate 4 refine Machine.under_cons rfl trivial ?_
    refine Machine.under_cons rfl (fun c => ?_) ?_
    · cases c <;> rfl
    iterate 8 refine Machine.under_cons rfl trivial ?_
    trivial
  exact report_processed_exactly_once alone rfl

end Spinneret.Worker
