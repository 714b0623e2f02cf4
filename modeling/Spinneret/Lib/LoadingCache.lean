import Mathlib.Data.List.Basic
import Mathlib.Logic.Function.Basic
import Spinneret.Lib.Machine

/-!
# Loading caches with a generation

A cache in front of a database that other parties change. A lookup probes the
shelves of the cache and on a miss shares one load per key with the other lookups
that miss. A load notes the generation of the cache before it reads, and its answer
is stored only if the generation is still the same; an invalidation raises the
generation and then drops entries, and no answer is stored in between. Evictions
and expiries may remove any entry at any time, so a sweep that removes its entries
one after the other is covered by a sweep that removes them at once.
-/

namespace Spinneret.Lib.LoadingCache

set_option autoImplicit false

/-- The reads of a load, each from the database of its moment. No record is an answer
too. -/
inductive Load (Db Record : Type) where
  | done (answer : Option Record)
  | read (next : Db → Load Db Record)

/-- A cache with its database: how changes act, how a key is loaded, the shelves it
is looked for on in order, the shelf of an answer, and what an invalidation drops. -/
structure Design (Key Record Shelf Change Drop Db : Type) where
  initial : Db
  apply : Db → Change → Db
  load : Key → Load Db Record
  shelves : Key → List Shelf
  shelve : Option Record → Option Shelf
  drops : Drop → Shelf → Key → Option Record → Bool

inductive Outcome (Record : Type) where
  | failed
  | answered (answer : Option Record)

/-- A shared load, named by the lookup that leads it. `began` is the number of commits
at the moment the generation was noted. -/
inductive Flight (Key Record Db : Type) where
  | idle
  | registered (key : Key)
  | loading (key : Key) (generation began : Nat) (load : Load Db Record)
  | settled (key : Key) (began : Nat) (outcome : Outcome Record)
  | finished (key : Key) (began : Nat) (outcome : Outcome Record)

inductive Call (Key Record Shelf : Type) where
  | idle
  | probing (key : Key) (rest : List Shelf)
  | waiting (key : Key) (leader : Nat)
  | returned (key : Key) (outcome : Outcome Record)

structure State (Key Record Shelf Change Drop Db : Type) where
  /-- The changes the database has committed. -/
  commits : List Change := []
  generation : Nat := 0
  cached : Shelf → Key → Option (Option Record) := fun _ _ => none
  /-- The invalidation that holds the lock, with the number of commits it found. -/
  sweeping : Option (Drop × Nat) := none
  /-- The invalidations processed so far, each with the number of commits it found. -/
  processed : List (Drop × Nat) := []
  group : Key → Option Nat := fun _ => none
  flights : Nat → Flight Key Record Db := fun _ => .idle
  calls : Nat → Call Key Record Shelf := fun _ => .idle

inductive Label (Key Shelf Change Drop : Type) where
  | commit (change : Change)
  | invalidate (drop : Drop)
  | sweep
  | evict (shelf : Shelf) (key : Key)
  | start (call : Nat) (key : Key)
  /-- The next shelf is read. -/
  | probe (call : Nat)
  /-- After the last shelf: the load in flight is joined, or a new one registered. -/
  | share (call : Nat)
  | note (leader : Nat)
  | read (leader : Nat)
  | fail (leader : Nat)
  /-- The answer is stored if the generation is current; the load is over. -/
  | store (leader : Nat)
  | finish (leader : Nat)
  | wake (call : Nat)

variable {Key Record Shelf Change Drop Db : Type}

namespace Design

variable (design : Design Key Record Shelf Change Drop Db)

def databaseAt (commits : List Change) (count : Nat) : Db :=
  (commits.take count).foldl design.apply design.initial

/-! ## Reads of a load -/

/-- The load goes on to `later` by reads of the databases after at least `since`
commits. -/
inductive Reads (commits : List Change) (since : Nat) :
    Load Db Record → Load Db Record → Prop
  | refl (load : Load Db Record) : Reads commits since load load
  | read {next : Db → Load Db Record} {later : Load Db Record} (count : Nat)
      (after : since ≤ count) (within : count ≤ commits.length)
      (rest : Reads commits since (next (design.databaseAt commits count)) later) :
      Reads commits since (.read next) later

variable {design}

theorem databaseAt_append {commits : List Change} {count : Nat} (within : count ≤ commits.length)
    (more : List Change) :
    design.databaseAt (commits ++ more) count = design.databaseAt commits count := by
  rw [databaseAt, databaseAt, List.take_append_of_le_length within]

theorem databaseAt_succ {commits : List Change} {count : Nat} {change : Change}
    (committed : commits[count]? = some change) :
    design.databaseAt commits (count + 1) =
      design.apply (design.databaseAt commits count) change := by
  rw [databaseAt, databaseAt, List.take_add_one, committed, Option.toList_some, List.foldl_append]
  rfl

namespace Reads

variable {commits : List Change} {since earlier : Nat} {load later : Load Db Record}

theorem mono (reads : design.Reads commits since load later) (before : earlier ≤ since) :
    design.Reads commits earlier load later := by
  induction reads with
  | refl load => exact .refl load
  | read count after within _ ih => exact .read count (Nat.le_trans before after) within ih

theorem append (reads : design.Reads commits since load later) (more : List Change) :
    design.Reads (commits ++ more) since load later := by
  induction reads with
  | refl load => exact .refl load
  | read count after within _ ih =>
    refine .read count after (List.length_append ▸ Nat.le_add_right_of_le within) ?_
    rwa [databaseAt_append within]

theorem snoc {next : Db → Load Db Record} (reads : design.Reads commits since load (.read next))
    (after : since ≤ commits.length) :
    design.Reads commits since load (next (design.databaseAt commits commits.length)) := by
  generalize reached : Load.read next = middle at reads
  induction reads with
  | refl load =>
    subst reached
    exact .read _ after (Nat.le_refl _) (.refl _)
  | read count sinceCount within _ ih => exact .read count sinceCount within (ih reached)

theorem done_inv {first second : Option Record}
    (reads : design.Reads commits since (.done first) (.done second)) : first = second := by
  cases reads with
  | refl => rfl

/-- The answer of a load with one read is that of a database since then. -/
theorem single {answer : Db → Option Record} {result : Option Record}
    (reads : design.Reads commits since (.read fun db => .done (answer db)) (.done result)) :
    ∃ count, since ≤ count ∧ count ≤ commits.length ∧
      answer (design.databaseAt commits count) = result := by
  cases reads with
  | read count after within rest => exact ⟨count, after, within, rest.done_inv⟩

end Reads

/-! ## Steps -/

variable (design) [DecidableEq Key] [DecidableEq Shelf]

def step (state : State Key Record Shelf Change Drop Db) :
    Label Key Shelf Change Drop → Option (State Key Record Shelf Change Drop Db)
  | .commit change => some { state with commits := state.commits ++ [change] }
  | .invalidate drop =>
    match state.sweeping with
    | some _ => none
    | none =>
      some { state with
        generation := state.generation + 1
        sweeping := some (drop, state.commits.length) }
  | .sweep =>
    match state.sweeping with
    | none => none
    | some (drop, found) =>
      some { state with
        cached := fun shelf key =>
          (state.cached shelf key).filter fun answer => !design.drops drop shelf key answer
        sweeping := none
        processed := state.processed ++ [(drop, found)] }
  | .evict shelf key =>
    some { state with
      cached := Function.update state.cached shelf
        (Function.update (state.cached shelf) key none) }
  | .start call key =>
    match state.calls call with
    | .idle =>
      some { state with
        calls := Function.update state.calls call (.probing key (design.shelves key)) }
    | _ => none
  | .probe call =>
    match state.calls call with
    | .probing key (shelf :: rest) =>
      some { state with
        calls := Function.update state.calls call
          (match state.cached shelf key with
          | some answer => .returned key (.answered answer)
          | none => .probing key rest) }
    | _ => none
  | .share call =>
    match state.calls call with
    | .probing key [] =>
      match state.group key with
      | some leader =>
        some { state with
          calls := Function.update state.calls call (.waiting key leader) }
      | none =>
        match state.flights call with
        | .idle =>
          some { state with
            calls := Function.update state.calls call (.waiting key call)
            flights := Function.update state.flights call (.registered key)
            group := Function.update state.group key (some call) }
        | _ => none
    | _ => none
  | .note leader =>
    match state.flights leader with
    | .registered key =>
      some { state with
        flights := Function.update state.flights leader
          (.loading key state.generation state.commits.length (design.load key)) }
    | _ => none
  | .read leader =>
    match state.flights leader with
    | .loading key generation began (.read next) =>
      some { state with
        flights := Function.update state.flights leader
          (.loading key generation began
            (next (design.databaseAt state.commits state.commits.length))) }
    | _ => none
  | .fail leader =>
    match state.flights leader with
    | .loading key _ began (.read _) =>
      some { state with
        flights := Function.update state.flights leader (.settled key began .failed) }
    | _ => none
  | .store leader =>
    match state.flights leader with
    | .loading key generation began (.done answer) =>
      match design.shelve answer, state.sweeping with
      | none, _ =>
        some { state with
          flights := Function.update state.flights leader
            (.settled key began (.answered answer)) }
      | some shelf, none =>
        some { state with
          flights := Function.update state.flights leader
            (.settled key began (.answered answer))
          cached :=
            if state.generation = generation then
              Function.update state.cached shelf
                (Function.update (state.cached shelf) key (some answer))
            else state.cached }
      | some _, some _ => none
    | _ => none
  | .finish leader =>
    match state.flights leader with
    | .settled key began outcome =>
      some { state with
        flights := Function.update state.flights leader (.finished key began outcome)
        group := Function.update state.group key none }
    | _ => none
  | .wake call =>
    match state.calls call with
    | .waiting key leader =>
      match state.flights leader with
      | .finished _ _ outcome =>
        some { state with
          calls := Function.update state.calls call (.returned key outcome) }
      | _ => none
    | _ => none

/-- What a step can do, one constructor per outcome. -/
inductive Moves (state : State Key Record Shelf Change Drop Db) :
    Label Key Shelf Change Drop → State Key Record Shelf Change Drop Db → Prop
  | commit (change : Change) :
      Moves state (.commit change) { state with commits := state.commits ++ [change] }
  | invalidate (drop : Drop) (free : state.sweeping = none) :
      Moves state (.invalidate drop)
        { state with
          generation := state.generation + 1
          sweeping := some (drop, state.commits.length) }
  | sweep (drop : Drop) (found : Nat) (held : state.sweeping = some (drop, found)) :
      Moves state .sweep
        { state with
          cached := fun shelf key =>
            (state.cached shelf key).filter fun answer => !design.drops drop shelf key answer
          sweeping := none
          processed := state.processed ++ [(drop, found)] }
  | evict (shelf : Shelf) (key : Key) :
      Moves state (.evict shelf key)
        { state with
          cached := Function.update state.cached shelf
            (Function.update (state.cached shelf) key none) }
  | start (call : Nat) (key : Key) (idle : state.calls call = .idle) :
      Moves state (.start call key)
        { state with calls := Function.update state.calls call (.probing key (design.shelves key)) }
  | hit (call : Nat) (key : Key) (shelf : Shelf) (rest : List Shelf) (answer : Option Record)
      (probing : state.calls call = .probing key (shelf :: rest))
      (entry : state.cached shelf key = some answer) :
      Moves state (.probe call)
        { state with
          calls := Function.update state.calls call (.returned key (.answered answer)) }
  | miss (call : Nat) (key : Key) (shelf : Shelf) (rest : List Shelf)
      (probing : state.calls call = .probing key (shelf :: rest)) :
      Moves state (.probe call)
        { state with calls := Function.update state.calls call (.probing key rest) }
  | join (call leader : Nat) (key : Key) (missed : state.calls call = .probing key [])
      (inFlight : state.group key = some leader) :
      Moves state (.share call)
        { state with calls := Function.update state.calls call (.waiting key leader) }
  | lead (call : Nat) (key : Key) (missed : state.calls call = .probing key [])
      (idle : state.flights call = .idle) :
      Moves state (.share call)
        { state with
          calls := Function.update state.calls call (.waiting key call)
          flights := Function.update state.flights call (.registered key)
          group := Function.update state.group key (some call) }
  | note (leader : Nat) (key : Key) (registered : state.flights leader = .registered key) :
      Moves state (.note leader)
        { state with
          flights := Function.update state.flights leader
            (.loading key state.generation state.commits.length (design.load key)) }
  | read (leader : Nat) (key : Key) (generation began : Nat) (next : Db → Load Db Record)
      (loading : state.flights leader = .loading key generation began (.read next)) :
      Moves state (.read leader)
        { state with
          flights := Function.update state.flights leader
            (.loading key generation began
              (next (design.databaseAt state.commits state.commits.length))) }
  | fail (leader : Nat) (key : Key) (generation began : Nat) (next : Db → Load Db Record)
      (loading : state.flights leader = .loading key generation began (.read next)) :
      Moves state (.fail leader)
        { state with
          flights := Function.update state.flights leader (.settled key began .failed) }
  | discard (leader : Nat) (key : Key) (generation began : Nat) (answer : Option Record)
      (loading : state.flights leader = .loading key generation began (.done answer)) :
      Moves state (.store leader)
        { state with
          flights := Function.update state.flights leader
            (.settled key began (.answered answer)) }
  | store (leader : Nat) (key : Key) (began : Nat) (answer : Option Record) (shelf : Shelf)
      (loading : state.flights leader = .loading key state.generation began (.done answer))
      (shelved : design.shelve answer = some shelf) :
      Moves state (.store leader)
        { state with
          flights := Function.update state.flights leader
            (.settled key began (.answered answer))
          cached := Function.update state.cached shelf
            (Function.update (state.cached shelf) key (some answer)) }
  | finish (leader : Nat) (key : Key) (began : Nat) (outcome : Outcome Record)
      (settled : state.flights leader = .settled key began outcome) :
      Moves state (.finish leader)
        { state with
          flights := Function.update state.flights leader (.finished key began outcome)
          group := Function.update state.group key none }
  | wake (call leader : Nat) (key loaded : Key) (began : Nat) (outcome : Outcome Record)
      (waiting : state.calls call = .waiting key leader)
      (finished : state.flights leader = .finished loaded began outcome) :
      Moves state (.wake call)
        { state with calls := Function.update state.calls call (.returned key outcome) }

theorem step_moves {state next : State Key Record Shelf Change Drop Db}
    {label : Label Key Shelf Change Drop} (stepped : design.step state label = some next) :
    design.Moves state label next := by
  cases label with
  | commit change =>
    obtain rfl := Option.some.inj stepped
    exact .commit change
  | invalidate drop =>
    simp only [step] at stepped
    split at stepped
    · cases stepped
    · obtain rfl := Option.some.inj stepped
      exact .invalidate drop ‹_›
  | sweep =>
    simp only [step] at stepped
    split at stepped
    · cases stepped
    · obtain rfl := Option.some.inj stepped
      exact .sweep _ _ ‹_›
  | evict shelf key =>
    obtain rfl := Option.some.inj stepped
    exact .evict shelf key
  | start call key =>
    simp only [step] at stepped
    split at stepped
    · obtain rfl := Option.some.inj stepped
      exact .start call key ‹_›
    · cases stepped
  | probe call =>
    simp only [step] at stepped
    split at stepped
    · obtain rfl := Option.some.inj stepped
      split
      · exact .hit call _ _ _ _ ‹_› ‹_›
      · exact .miss call _ _ _ ‹_›
    · cases stepped
  | share call =>
    simp only [step] at stepped
    split at stepped
    · split at stepped
      · obtain rfl := Option.some.inj stepped
        exact .join call _ _ ‹_› ‹_›
      · split at stepped
        · obtain rfl := Option.some.inj stepped
          exact .lead call _ ‹_› ‹_›
        · cases stepped
    · cases stepped
  | note leader =>
    simp only [step] at stepped
    split at stepped
    · obtain rfl := Option.some.inj stepped
      exact .note leader _ ‹_›
    · cases stepped
  | read leader =>
    simp only [step] at stepped
    split at stepped
    · obtain rfl := Option.some.inj stepped
      exact .read leader _ _ _ _ ‹_›
    · cases stepped
  | fail leader =>
    simp only [step] at stepped
    split at stepped
    · obtain rfl := Option.some.inj stepped
      exact .fail leader _ _ _ _ ‹_›
    · cases stepped
  | store leader =>
    simp only [step] at stepped
    split at stepped
    · split at stepped
      · obtain rfl := Option.some.inj stepped
        exact .discard leader _ _ _ _ ‹_›
      · obtain rfl := Option.some.inj stepped
        split
        · rename_i current
          subst current
          exact .store leader _ _ _ _ ‹_› ‹_›
        · exact .discard leader _ _ _ _ ‹_›
      · cases stepped
    · cases stepped
  | finish leader =>
    simp only [step] at stepped
    split at stepped
    · obtain rfl := Option.some.inj stepped
      exact .finish leader _ _ _ ‹_›
    · cases stepped
  | wake call =>
    simp only [step] at stepped
    split at stepped
    · split at stepped
      · obtain rfl := Option.some.inj stepped
        exact .wake call _ _ _ _ _ ‹_› ‹_›
      · cases stepped
    · cases stepped

end Design

end Spinneret.Lib.LoadingCache
