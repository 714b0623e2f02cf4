import Spinneret.Lib.Machine
import Spinneret.Worker.Checkpoint

/-!
# The consumers of a report shard

A shard is a stream with one consumer group. Entries are named by their position
in the stream, which is the order of their ids; the group keeps how many entries it
has delivered and which of them are pending, in order. A consumer first drains the
pending entries, then reads new ones; it processes a batch entry by entry and
acknowledges it as a whole, and drains again after a failed acknowledgement. Every
step is one Redis command or one script call, and a consumer may stop between any
two of them. Failed commands that change nothing are no steps.
-/

namespace Spinneret.Worker

open Spinneret.HotState Spinneret.Lib

set_option autoImplicit false

/-- A stream entry with the site its report is routed to; none for an entry that is
skipped, because it cannot be decoded or names no site of its namespace. -/
structure Entry where
  id : StreamId
  site : Option Nat

/-- The server side of a shard: the hot state of the sites and the stream's group. -/
structure Group where
  sites : Nat → Site := fun _ => {}
  entries : List Entry := []
  delivered : Nat := 0
  pending : List Nat := []
  /-- The entries whose observe effects were applied, in the order of application. -/
  applied : List Nat := []

namespace Group

def siteAt (group : Group) (position : Nat) : Option Nat :=
  group.entries[position]?.bind Entry.site

/-- XADD: ids grow. -/
def add (group : Group) (entry : Entry) : Option Group :=
  if group.entries.getLast?.all fun last => decide (last.id < entry.id) then
    some { group with entries := group.entries ++ [entry] }
  else none

/-- The script call for an entry; a skipped entry makes none. -/
def observeEntry (shard : Nat) (group : Group) (position : Nat) (full : Option ObserveArgs) :
    Group :=
  match group.entries[position]? with
  | some { id := sid, site := some s } =>
    let result := observe shard sid full (group.sites s)
    { group with
      sites := Function.update group.sites s result.1
      applied := if result.2.isDup then group.applied else group.applied ++ [position] }
  | _ => group

/-- XAUTOCLAIM from `cursor` with COUNT `count`: a page of the pending entries and the
entry the next page starts at, none after the last. -/
def claimPage (group : Group) (cursor count : Nat) : List Nat × Option Nat :=
  let found := group.pending.filter fun position => decide (cursor ≤ position)
  (found.take count, (found.drop count).head?)

/-- The entries XREADGROUP with COUNT `count` delivers. -/
def fresh (group : Group) (count : Nat) : List Nat :=
  List.range' group.delivered (min count (group.entries.length - group.delivered))

/-- Delivered entries are pending until they are acknowledged. -/
def deliver (group : Group) (count : Nat) : Group :=
  { group with
    delivered := group.delivered + (group.fresh count).length
    pending := group.pending ++ group.fresh count }

/-- XACK. -/
def acknowledge (group : Group) (done : List Nat) : Group :=
  { group with pending := group.pending.filter fun position => decide (position ∉ done) }

end Group

/-- What follows a batch: the next page of the drain with whether every batch so far
was acknowledged, the read loop, or the end of the consumer. -/
inductive Resume where
  | claim (next : Option Nat) (acked : Bool)
  | read
  | stop

/-- Where a consumer stands: not running, before the page of a drain, in a batch with
the entries left and processed, or in the read loop. -/
inductive ConsumerPhase where
  | idle
  | claiming (cursor : Nat) (acked : Bool)
  | batch (rest done : List Nat) (resume : Resume)
  | reading

/-- The loop of `consume`: new entries are read only after a drain or a batch that was
acknowledged. -/
def afterDrain (acked : Bool) : ConsumerPhase := if acked then .reading else .claiming 0 true

/-- Where the consumer goes on after a batch whose acknowledgement returned `ok`. -/
def Resume.after (ok : Bool) : Resume → ConsumerPhase
  | .claim (some next) acked => .claiming next (acked && ok)
  | .claim none acked => afterDrain (acked && ok)
  | .read => afterDrain ok
  | .stop => .idle

inductive Command where
  | start
  /-- The consumer returns or its process dies. -/
  | stop
  | autoClaim (count : Nat)
  | readGroup (count : Nat)
  /-- The reply of XREADGROUP is lost and the consumer goes on as after any read error. -/
  | readLost (count : Nat)
  /-- The reply of XREADGROUP is lost because the consumer stops. -/
  | readStopped (count : Nat)
  /-- The script is run for the next entry and its reply lost: the call is retried. -/
  | attempt (full : Option ObserveArgs)
  /-- `processEntry` returns after a call that succeeded. -/
  | process (full : Option ObserveArgs)
  /-- `processEntry` returns without one: the retries are used up, or the report is
  dropped by a catalog that does not have its site yet. -/
  | giveUp
  /-- The context is cancelled in a batch: the rest of it stays pending. -/
  | cut
  | ack
  /-- XACK is executed and its reply lost: it is retried. -/
  | ackLost
  /-- The last retry of XACK failed. -/
  | ackFailed

def consume (shard : Nat) (group : Group) : ConsumerPhase → Command → Option (Group × ConsumerPhase)
  | .idle, .start => some (group, .claiming 0 true)
  | _, .stop => some (group, .idle)
  | .claiming cursor acked, .autoClaim count =>
    if count = 0 then none
    else
      match group.claimPage cursor count with
      | ([], next) => some (group, (Resume.claim next acked).after true)
      | (page, next) => some (group, .batch page [] (.claim next acked))
  | .reading, .readGroup count =>
    match group.fresh count with
    | [] => some (group, .reading)
    | entries => some (group.deliver count, .batch entries [] .read)
  | .reading, .readLost count => some (group.deliver count, .reading)
  | .reading, .readStopped count => some (group.deliver count, .idle)
  | .batch (position :: rest) done resume, .attempt full =>
    some (group.observeEntry shard position full, .batch (position :: rest) done resume)
  | .batch (position :: rest) done resume, .process full =>
    some (group.observeEntry shard position full, .batch rest (done ++ [position]) resume)
  | .batch (position :: rest) done resume, .giveUp =>
    some (group, .batch rest (done ++ [position]) resume)
  | .batch (_ :: _) [] _, .cut => some (group, .idle)
  | .batch (_ :: _) done _, .cut => some (group, .batch [] done .stop)
  | .batch [] done resume, .ack => some (group.acknowledge done, resume.after true)
  | .batch [] done resume, .ackLost => some (group.acknowledge done, .batch [] done resume)
  | .batch [] _ resume, .ackFailed => some (group, resume.after false)
  | _, _ => none

structure Shard where
  group : Group := {}
  phase : Nat → ConsumerPhase := fun _ => .idle

inductive ShardOp where
  | add (entry : Entry)
  /-- Any other change of the hot state of a site: only observe writes the checkpoint. -/
  | other (s : Nat) (site : Site)
  | consumer (c : Nat) (command : Command)

def shardStep (shard : Nat) (state : Shard) : ShardOp → Option Shard
  | .add entry => (state.group.add entry).map fun group => { state with group := group }
  | .other s site =>
    if site.ckpt shard = (state.group.sites s).ckpt shard then
      some { state with
        group := { state.group with sites := Function.update state.group.sites s site } }
    else none
  | .consumer c command =>
    (consume shard state.group (state.phase c) command).map fun (group, phase) =>
      { group := group, phase := Function.update state.phase c phase }

/-! ## What a step does -/

/-- The steps of a consumer, with what each does to the group and to the consumer. -/
inductive Consumes (shard : Nat) (group : Group) :
    ConsumerPhase → Command → Group → ConsumerPhase → Prop where
  | start : Consumes shard group .idle .start group (.claiming 0 true)
  | stop {phase : ConsumerPhase} : Consumes shard group phase .stop group .idle
  | drained {cursor count : Nat} {acked : Bool} {next : Option Nat} (positive : count ≠ 0)
      (page : group.claimPage cursor count = ([], next)) :
      Consumes shard group (.claiming cursor acked) (.autoClaim count) group
        ((Resume.claim next acked).after true)
  | claimed {cursor count : Nat} {acked : Bool} {page : List Nat} {next : Option Nat}
      (paged : group.claimPage cursor count = (page, next)) :
      Consumes shard group (.claiming cursor acked) (.autoClaim count) group
        (.batch page [] (.claim next acked))
  | readNone {count : Nat} : Consumes shard group .reading (.readGroup count) group .reading
  | read {count : Nat} : Consumes shard group .reading (.readGroup count) (group.deliver count)
      (.batch (group.fresh count) [] .read)
  | readLost {count : Nat} :
      Consumes shard group .reading (.readLost count) (group.deliver count) .reading
  | readStopped {count : Nat} :
      Consumes shard group .reading (.readStopped count) (group.deliver count) .idle
  | attempt {position : Nat} {rest done : List Nat} {resume : Resume} {full : Option ObserveArgs} :
      Consumes shard group (.batch (position :: rest) done resume) (.attempt full)
        (group.observeEntry shard position full) (.batch (position :: rest) done resume)
  | process {position : Nat} {rest done : List Nat} {resume : Resume} {full : Option ObserveArgs} :
      Consumes shard group (.batch (position :: rest) done resume) (.process full)
        (group.observeEntry shard position full) (.batch rest (done ++ [position]) resume)
  | giveUp {position : Nat} {rest done : List Nat} {resume : Resume} :
      Consumes shard group (.batch (position :: rest) done resume) .giveUp group
        (.batch rest (done ++ [position]) resume)
  | cutIdle {rest : List Nat} {resume : Resume} :
      Consumes shard group (.batch rest [] resume) .cut group .idle
  | cut {rest done : List Nat} {resume : Resume} :
      Consumes shard group (.batch rest done resume) .cut group (.batch [] done .stop)
  | ack {done : List Nat} {resume : Resume} :
      Consumes shard group (.batch [] done resume) .ack (group.acknowledge done)
        (resume.after true)
  | ackLost {done : List Nat} {resume : Resume} :
      Consumes shard group (.batch [] done resume) .ackLost (group.acknowledge done)
        (.batch [] done resume)
  | ackFailed {done : List Nat} {resume : Resume} :
      Consumes shard group (.batch [] done resume) .ackFailed group (resume.after false)

theorem consume_consumes {shard : Nat} {group after : Group} {phase reached : ConsumerPhase}
    {command : Command} (stepped : consume shard group phase command = some (after, reached)) :
    Consumes shard group phase command after reached := by
  unfold consume at stepped
  split at stepped
  · cases stepped
    exact .start
  · cases stepped
    exact .stop
  · rename_i cursor acked count
    split_ifs at stepped with zero
    split at stepped
    · rename_i next page
      cases stepped
      exact .drained zero page
    · rename_i page next _ paged
      cases stepped
      exact .claimed paged
  · split at stepped
    · cases stepped
      exact .readNone
    · cases stepped
      exact .read
  · cases stepped
    exact .readLost
  · cases stepped
    exact .readStopped
  · cases stepped
    exact .attempt
  · cases stepped
    exact .process
  · cases stepped
    exact .giveUp
  · cases stepped
    exact .cutIdle
  · cases stepped
    exact .cut
  · cases stepped
    exact .ack
  · cases stepped
    exact .ackLost
  · cases stepped
    exact .ackFailed
  · cases stepped

/-- The steps of a shard: an entry is added, a site changes, or a consumer moves. -/
inductive ShardMoves (shard : Nat) (state : Shard) : ShardOp → Shard → Prop where
  | add {entry : Entry} (grows : ∀ last ∈ state.group.entries.getLast?, last.id < entry.id) :
      ShardMoves shard state (.add entry)
        { state with group := { state.group with entries := state.group.entries ++ [entry] } }
  | other {s : Nat} {site : Site} (same : site.ckpt shard = (state.group.sites s).ckpt shard) :
      ShardMoves shard state (.other s site)
        { state with
          group := { state.group with sites := Function.update state.group.sites s site } }
  | consumer {c : Nat} {command : Command} {group : Group} {phase : ConsumerPhase}
      (moved : Consumes shard state.group (state.phase c) command group phase) :
      ShardMoves shard state (.consumer c command)
        { group := group, phase := Function.update state.phase c phase }

theorem shard_step_moves {shard : Nat} {state next : Shard} {op : ShardOp}
    (stepped : shardStep shard state op = some next) : ShardMoves shard state op next := by
  cases op with
  | add entry =>
    obtain ⟨group, added, rfl⟩ := Option.map_eq_some_iff.mp stepped
    unfold Group.add at added
    split_ifs at added with grows
    cases added
    refine .add fun last member => ?_
    rw [Option.mem_def.mp member] at grows
    exact of_decide_eq_true grows
  | other s site =>
    simp only [shardStep] at stepped
    split_ifs at stepped with same
    cases stepped
    exact .other same
  | consumer c command =>
    obtain ⟨⟨group, phase⟩, consumed, rfl⟩ := Option.map_eq_some_iff.mp stepped
    exact .consumer (consume_consumes consumed)

/-! ## The order of a group -/

namespace Group

/-- The entries below a position that make a call. -/
def routed (group : Group) (next : Nat) : List Nat :=
  (List.range next).filter fun position => (group.siteAt position).isSome

/-- Ids grow with the position, and the pending entries are delivered ones in order. -/
structure Formed (group : Group) : Prop where
  increasing : group.entries.Pairwise fun first second => first.id < second.id
  delivered : group.delivered ≤ group.entries.length
  sorted : group.pending.Pairwise (· < ·)
  bounded : ∀ position ∈ group.pending, position < group.delivered

variable {shard position : Nat} {group : Group}

@[simp] theorem observe_entry_entries (full : Option ObserveArgs) :
    (group.observeEntry shard position full).entries = group.entries := by
  unfold observeEntry
  split <;> rfl

@[simp] theorem observe_entry_delivered (full : Option ObserveArgs) :
    (group.observeEntry shard position full).delivered = group.delivered := by
  unfold observeEntry
  split <;> rfl

@[simp] theorem observe_entry_pending (full : Option ObserveArgs) :
    (group.observeEntry shard position full).pending = group.pending := by
  unfold observeEntry
  split <;> rfl

@[simp] theorem observe_entry_site_at (full : Option ObserveArgs) (other : Nat) :
    (group.observeEntry shard position full).siteAt other = group.siteAt other := by
  unfold siteAt
  rw [observe_entry_entries]

theorem observe_entry_skipped (full : Option ObserveArgs) (skipped : group.siteAt position = none) :
    group.observeEntry shard position full = group := by
  unfold observeEntry
  split
  · rename_i sid s found
    rw [siteAt, found] at skipped
    cases skipped
  · rfl

theorem observe_entry_routed (full : Option ObserveArgs) {sid : StreamId} {s : Nat}
    (found : group.entries[position]? = some ⟨sid, some s⟩) :
    group.observeEntry shard position full =
      { group with
        sites := Function.update group.sites s (observe shard sid full (group.sites s)).1
        applied := if (observe shard sid full (group.sites s)).2.isDup then group.applied
          else group.applied ++ [position] } := by
  unfold observeEntry
  rw [found]

theorem site_at_eq_some {s : Nat} (routed : group.siteAt position = some s) :
    ∃ sid, group.entries[position]? = some ⟨sid, some s⟩ := by
  obtain ⟨⟨sid, site⟩, found, same⟩ := Option.bind_eq_some_iff.mp routed
  obtain rfl : site = some s := same
  exact ⟨sid, found⟩

theorem site_at_add (entry : Entry) (old : position < group.entries.length) :
    siteAt { group with entries := group.entries ++ [entry] } position = group.siteAt position := by
  unfold siteAt
  rw [List.getElem?_append_left old]

theorem Formed.position_le {first second : Nat} {left right : Entry} (formed : group.Formed)
    (leftAt : group.entries[first]? = some left) (rightAt : group.entries[second]? = some right)
    (le : left.id ≤ right.id) : first ≤ second := by
  by_contra! later
  obtain ⟨bound, rfl⟩ := List.getElem?_eq_some_iff.mp leftAt
  obtain ⟨bound', rfl⟩ := List.getElem?_eq_some_iff.mp rightAt
  exact absurd (List.pairwise_iff_getElem.mp formed.increasing second first bound' bound later)
    (not_lt.mpr le)

theorem Formed.id_le {first second : Nat} {left right : Entry} (formed : group.Formed)
    (leftAt : group.entries[first]? = some left) (rightAt : group.entries[second]? = some right)
    (le : first ≤ second) : left.id ≤ right.id := by
  rcases le_total left.id right.id with ordered | reversed
  · exact ordered
  · obtain rfl : first = second := le_antisymm le (formed.position_le rightAt leftAt reversed)
    obtain rfl : left = right := Option.some.inj (leftAt.symm.trans rightAt)
    exact le_rfl

theorem Formed.add {entry : Entry} (formed : group.Formed)
    (grows : ∀ last ∈ group.entries.getLast?, last.id < entry.id) :
    Formed { group with entries := group.entries ++ [entry] } where
  increasing := by
    refine List.pairwise_append.mpr ⟨formed.increasing, List.pairwise_singleton _ _, ?_⟩
    intro earlier member new isNew
    obtain rfl := List.mem_singleton.mp isNew
    have nonempty : group.entries ≠ [] := List.ne_nil_of_mem member
    have last := grows _ (List.getLast?_eq_some_getLast nonempty)
    obtain ⟨position, bound, rfl⟩ := List.getElem_of_mem member
    rw [List.getLast_eq_getElem] at last
    rcases Nat.lt_or_ge position (group.entries.length - 1) with before | final
    · exact lt_trans (List.pairwise_iff_getElem.mp formed.increasing _ _ _ _ before) last
    · obtain rfl : position = group.entries.length - 1 := by omega
      exact last
  delivered := by
    have old := formed.delivered
    simp only [List.length_append, List.length_singleton]
    omega
  sorted := formed.sorted
  bounded := formed.bounded

theorem mem_fresh {count : Nat} :
    position ∈ group.fresh count ↔
      group.delivered ≤ position ∧ position < group.delivered + (group.fresh count).length := by
  unfold fresh
  rw [List.mem_range'_1, List.length_range']

theorem Formed.deliver (formed : group.Formed) (count : Nat) : (group.deliver count).Formed where
  increasing := formed.increasing
  delivered := by
    have old := formed.delivered
    show group.delivered + (group.fresh count).length ≤ group.entries.length
    unfold fresh
    rw [List.length_range']
    omega
  sorted := by
    refine List.pairwise_append.mpr ⟨formed.sorted, List.pairwise_lt_range', ?_⟩
    intro old pending new fresh
    exact lt_of_lt_of_le (formed.bounded old pending) (mem_fresh.mp fresh).1
  bounded := by
    intro position member
    show position < group.delivered + (group.fresh count).length
    rcases List.mem_append.mp member with old | new
    · have := formed.bounded position old
      omega
    · exact (mem_fresh.mp new).2

theorem Formed.acknowledge (formed : group.Formed) (done : List Nat) :
    (group.acknowledge done).Formed where
  increasing := formed.increasing
  delivered := formed.delivered
  sorted := formed.sorted.filter _
  bounded := fun position member => formed.bounded position (List.mem_of_mem_filter member)

theorem Formed.observeEntry (formed : group.Formed) (full : Option ObserveArgs) :
    (group.observeEntry shard position full).Formed where
  increasing := by
    rw [observe_entry_entries]
    exact formed.increasing
  delivered := by
    rw [observe_entry_delivered, observe_entry_entries]
    exact formed.delivered
  sorted := by
    rw [observe_entry_pending]
    exact formed.sorted
  bounded := by
    rw [observe_entry_pending, observe_entry_delivered]
    exact formed.bounded

end Group

theorem consumes_formed {shard : Nat} {group after : Group} {phase reached : ConsumerPhase}
    {command : Command} (formed : group.Formed)
    (moved : Consumes shard group phase command after reached) : after.Formed := by
  cases moved with
  | read | readLost | readStopped => exact formed.deliver _
  | attempt | process => exact formed.observeEntry _
  | ack | ackLost => exact formed.acknowledge _
  | _ => exact formed

theorem shard_moves_formed {shard : Nat} {state next : Shard} {op : ShardOp}
    (formed : state.group.Formed) (moved : ShardMoves shard state op next) :
    next.group.Formed := by
  cases moved with
  | add grows => exact formed.add grows
  | other same => exact ⟨formed.increasing, formed.delivered, formed.sorted, formed.bounded⟩
  | consumer moved => exact consumes_formed formed moved

end Spinneret.Worker
