import Spinneret.Lib.LoadingCache

/-!
# What a loading cache returns

Every entry of the cache was read after the changes that an invalidation of it found.
A lookup that starts after the invalidation of a change therefore returns a record
read after the change, as long as it does not join a load that began before it.
-/

namespace Spinneret.Lib.LoadingCache.Design

set_option autoImplicit false

variable {Key Record Shelf Change Drop Db : Type}
variable (design : Design Key Record Shelf Change Drop Db)

/-! ## What the cache holds -/

/-- The reads of a flight came after the commits it began at; with the current
generation they come after what any invalidation so far found. -/
def FlightSound (commits : List Change) (generation : Nat) (sweeping : Option (Drop × Nat))
    (processed : List (Drop × Nat)) : Flight Key Record Db → Prop
  | .loading key noted began load =>
    design.Reads commits began (design.load key) load ∧
      began ≤ commits.length ∧ noted ≤ generation ∧
      (noted = generation → (∀ entry ∈ processed, entry.2 ≤ began) ∧
        ∀ entry, sweeping = some entry → entry.2 ≤ began)
  | .settled key began outcome | .finished key began outcome =>
    ∀ answer, outcome = .answered answer →
      design.Reads commits began (design.load key) (.done answer)
  | _ => True

/-- An invalidation that drops the entry was processed before the entry was read. -/
structure EntrySound (commits : List Change) (processed : List (Drop × Nat)) (shelf : Shelf)
    (key : Key) (answer : Option Record) : Prop where
  shelved : design.shelve answer = some shelf
  read : ∃ began, design.Reads commits began (design.load key) (.done answer) ∧
    ∀ entry ∈ processed, design.drops entry.1 shelf key answer = true → entry.2 ≤ began

def flightKey : Flight Key Record Db → Option Key
  | .idle => none
  | .registered key | .loading key _ _ _ | .settled key _ _ | .finished key _ _ => some key

structure Coherent (state : State Key Record Shelf Change Drop Db) : Prop where
  entries : ∀ shelf key answer, state.cached shelf key = some answer →
    design.EntrySound state.commits state.processed shelf key answer
  flights : ∀ leader, design.FlightSound state.commits state.generation state.sweeping
    state.processed (state.flights leader)
  sweeping : ∀ entry, state.sweeping = some entry → entry.2 ≤ state.commits.length
  processed : ∀ entry ∈ state.processed, entry.2 ≤ state.commits.length
  group : ∀ key leader, state.group key = some leader →
    flightKey (state.flights leader) = some key

variable {design}

theorem start_coherent : design.Coherent ({} : State Key Record Shelf Change Drop Db) where
  entries := nofun
  flights := fun _ => trivial
  sweeping := nofun
  processed := nofun
  group := nofun

section

variable {commits : List Change} {generation : Nat} {sweeping : Option (Drop × Nat)}
  {processed : List (Drop × Nat)} {flight : Flight Key Record Db}

theorem FlightSound.commit (sound : design.FlightSound commits generation sweeping processed flight)
    (change : Change) :
    design.FlightSound (commits ++ [change]) generation sweeping processed flight := by
  cases flight with
  | loading key noted began load =>
    obtain ⟨reads, within, bounded, current⟩ := sound
    exact ⟨reads.append [change], List.length_append ▸ Nat.le_add_right_of_le within,
      bounded, current⟩
  | settled key began outcome => exact fun answer same => (sound answer same).append [change]
  | finished key began outcome => exact fun answer same => (sound answer same).append [change]
  | idle => trivial
  | registered key => trivial

/-- After an invalidation has begun no flight has the current generation. -/
theorem FlightSound.invalidate
    (sound : design.FlightSound commits generation sweeping processed flight)
    (held : Option (Drop × Nat)) :
    design.FlightSound commits (generation + 1) held processed flight := by
  cases flight with
  | loading key noted began load =>
    obtain ⟨reads, within, bounded, -⟩ := sound
    refine ⟨reads, within, Nat.le_succ_of_le bounded, fun current => ?_⟩
    exact absurd (current ▸ bounded) (Nat.not_succ_le_self _)
  | settled key began outcome => exact sound
  | finished key began outcome => exact sound
  | idle => trivial
  | registered key => trivial

theorem FlightSound.sweep {entry : Drop × Nat}
    (sound : design.FlightSound commits generation (some entry) processed flight) :
    design.FlightSound commits generation none (processed ++ [entry]) flight := by
  cases flight with
  | loading key noted began load =>
    obtain ⟨reads, within, bounded, current⟩ := sound
    refine ⟨reads, within, bounded, fun same => ⟨fun other member => ?_, nofun⟩⟩
    obtain ⟨before, holding⟩ := current same
    rcases List.mem_append.mp member with earlier | last
    · exact before other earlier
    · rw [List.mem_singleton.mp last]
      exact holding entry rfl
  | settled key began outcome => exact sound
  | finished key began outcome => exact sound
  | idle => trivial
  | registered key => trivial

theorem EntrySound.sweep {entry : Drop × Nat} {shelf : Shelf} {key : Key} {answer : Option Record}
    (sound : design.EntrySound commits processed shelf key answer)
    (stays : design.drops entry.1 shelf key answer = false) :
    design.EntrySound commits (processed ++ [entry]) shelf key answer := by
  obtain ⟨shelved, began, reads, covered⟩ := sound
  refine ⟨shelved, began, reads, fun other member dropped => ?_⟩
  rcases List.mem_append.mp member with earlier | last
  · exact covered other earlier dropped
  · rw [List.mem_singleton.mp last, stays] at dropped
    cases dropped

end

section

variable {state next : State Key Record Shelf Change Drop Db}

/-- Entries read from the cache and the flights alone carry over to the lookups' steps. -/
theorem Coherent.setCalls (coherent : design.Coherent state)
    (calls : Nat → Call Key Record Shelf) : design.Coherent { state with calls := calls } where
  entries := coherent.entries
  flights := coherent.flights
  sweeping := coherent.sweeping
  processed := coherent.processed
  group := coherent.group

/-- Replacing one flight by a sound one under the same key keeps the cache coherent. -/
theorem Coherent.setFlight (coherent : design.Coherent state) {leader : Nat}
    {flight : Flight Key Record Db}
    (sound : design.FlightSound state.commits state.generation state.sweeping state.processed
      flight)
    (same : flightKey flight = flightKey (state.flights leader)) :
    design.Coherent { state with flights := Function.update state.flights leader flight } where
  entries := coherent.entries
  flights := by
    intro other
    by_cases here : other = leader
    · subst here
      simpa only [Function.update_self] using sound
    · simpa only [Function.update_of_ne here] using coherent.flights other
  sweeping := coherent.sweeping
  processed := coherent.processed
  group := by
    intro key other inFlight
    by_cases here : other = leader
    · subst here
      simpa only [Function.update_self, same] using coherent.group key other inFlight
    · simpa only [Function.update_of_ne here] using coherent.group key other inFlight

theorem Coherent.commit (coherent : design.Coherent state) (change : Change) :
    design.Coherent { state with commits := state.commits ++ [change] } where
  entries := by
    intro shelf key answer found
    obtain ⟨shelved, began, reads, covered⟩ := coherent.entries shelf key answer found
    exact ⟨shelved, began, reads.append [change], covered⟩
  flights := fun leader => (coherent.flights leader).commit change
  sweeping := fun entry held =>
    List.length_append ▸ Nat.le_add_right_of_le (coherent.sweeping entry held)
  processed := fun entry member =>
    List.length_append ▸ Nat.le_add_right_of_le (coherent.processed entry member)
  group := coherent.group

theorem Coherent.invalidate (coherent : design.Coherent state) (drop : Drop) :
    design.Coherent
      { state with
        generation := state.generation + 1
        sweeping := some (drop, state.commits.length) } where
  entries := coherent.entries
  flights := fun leader => (coherent.flights leader).invalidate _
  sweeping := by
    intro entry held
    obtain rfl := Option.some.inj held
    exact Nat.le_refl _
  processed := coherent.processed
  group := coherent.group

theorem Coherent.sweep (coherent : design.Coherent state) {drop : Drop} {found : Nat}
    (held : state.sweeping = some (drop, found)) :
    design.Coherent
      { state with
        cached := fun shelf key =>
          (state.cached shelf key).filter fun answer => !design.drops drop shelf key answer
        sweeping := none
        processed := state.processed ++ [(drop, found)] } where
  entries := by
    intro shelf key answer entry
    obtain ⟨kept, stays⟩ := Option.filter_eq_some_iff.mp entry
    exact (coherent.entries shelf key answer kept).sweep (by simpa using stays)
  flights := by
    intro leader
    have sound := coherent.flights leader
    rw [held] at sound
    exact sound.sweep
  sweeping := nofun
  processed := by
    exact List.forall_mem_append.mpr
      ⟨coherent.processed, List.forall_mem_singleton.mpr (coherent.sweeping _ held)⟩
  group := coherent.group

variable [DecidableEq Key]

theorem Coherent.lead (coherent : design.Coherent state) {call : Nat} {key : Key}
    (idle : state.flights call = .idle) :
    design.Coherent
      { state with
        flights := Function.update state.flights call (.registered key)
        group := Function.update state.group key (some call) } where
  entries := coherent.entries
  flights := by
    intro other
    by_cases here : other = call
    · subst here
      simp only [Function.update_self]
      trivial
    · simpa only [Function.update_of_ne here] using coherent.flights other
  sweeping := coherent.sweeping
  processed := coherent.processed
  group := by
    intro place leader inFlight
    dsimp only at inFlight ⊢
    by_cases there : place = key
    · subst there
      rw [Function.update_self] at inFlight
      obtain rfl := Option.some.inj inFlight
      rw [Function.update_self]
      rfl
    · rw [Function.update_of_ne there] at inFlight
      have keyed := coherent.group place leader inFlight
      -- the leader of another key is in flight, so it is not the idle one
      have other : leader ≠ call := by
        rintro rfl
        rw [idle] at keyed
        cases keyed
      rwa [Function.update_of_ne other]

theorem Coherent.unregister (coherent : design.Coherent state) (key : Key) :
    design.Coherent { state with group := Function.update state.group key none } where
  entries := coherent.entries
  flights := coherent.flights
  sweeping := coherent.sweeping
  processed := coherent.processed
  group := by
    intro place leader inFlight
    dsimp only at inFlight
    by_cases there : place = key
    · subst there
      rw [Function.update_self] at inFlight
      cases inFlight
    · rw [Function.update_of_ne there] at inFlight
      exact coherent.group place leader inFlight

variable [DecidableEq Shelf]

theorem Coherent.setEntry (coherent : design.Coherent state) {shelf : Shelf} {key : Key}
    {entry : Option (Option Record)}
    (sound : ∀ answer, entry = some answer →
      design.EntrySound state.commits state.processed shelf key answer) :
    design.Coherent
      { state with
        cached := Function.update state.cached shelf
          (Function.update (state.cached shelf) key entry) } where
  entries := by
    intro place other answer found
    dsimp only at found
    by_cases here : place = shelf
    · subst here
      rw [Function.update_self] at found
      by_cases there : other = key
      · subst there
        rw [Function.update_self] at found
        exact sound answer found
      · rw [Function.update_of_ne there] at found
        exact coherent.entries place other answer found
    · rw [Function.update_of_ne here] at found
      exact coherent.entries place other answer found
  flights := coherent.flights
  sweeping := coherent.sweeping
  processed := coherent.processed
  group := coherent.group

theorem Coherent.step {label : Label Key Shelf Change Drop} (coherent : design.Coherent state)
    (stepped : design.step state label = some next) : design.Coherent next := by
  cases design.step_moves stepped with
  | commit change => exact coherent.commit change
  | invalidate drop _ => exact coherent.invalidate drop
  | sweep drop found held => exact coherent.sweep held
  | evict shelf key => exact coherent.setEntry nofun
  | start call key _ => exact coherent.setCalls _
  | hit call key shelf rest answer _ _ => exact coherent.setCalls _
  | miss call key shelf rest _ => exact coherent.setCalls _
  | join call leader key _ _ => exact coherent.setCalls _
  | lead call key _ idle => exact (coherent.lead idle).setCalls _
  | note leader key registered =>
    apply coherent.setFlight
    · refine ⟨.refl _, Nat.le_refl _, Nat.le_refl _, fun _ => ?_⟩
      exact ⟨coherent.processed, coherent.sweeping⟩
    · rw [registered]
      rfl
  | read leader key noted began next loading =>
    have sound := coherent.flights leader
    rw [loading] at sound
    obtain ⟨reads, within, bounded, current⟩ := sound
    apply coherent.setFlight
    · exact ⟨reads.snoc within, within, bounded, current⟩
    · rw [loading]
      rfl
  | fail leader key noted began next loading =>
    apply coherent.setFlight
    · exact nofun
    · rw [loading]
      rfl
  | discard leader key noted began answer loading =>
    have sound := coherent.flights leader
    rw [loading] at sound
    apply coherent.setFlight
    · rintro _ ⟨⟩
      exact sound.1
    · rw [loading]
      rfl
  | store leader key began answer shelf loading shelved =>
    have sound := coherent.flights leader
    rw [loading] at sound
    obtain ⟨reads, -, -, current⟩ := sound
    have entrySound : design.EntrySound state.commits state.processed shelf key answer :=
      ⟨shelved, began, reads, fun entry member _ => (current rfl).1 entry member⟩
    refine Coherent.setEntry (coherent.setFlight ?_ ?_) ?_
    · rintro _ ⟨⟩
      exact reads
    · rw [loading]
      rfl
    · rintro _ ⟨⟩
      exact entrySound
  | finish leader key began outcome settled =>
    have sound := coherent.flights leader
    rw [settled] at sound
    refine Coherent.unregister (coherent.setFlight ?_ ?_) key
    · exact sound
    · rw [settled]
      rfl
  | wake call leader key loaded began outcome _ _ => exact coherent.setCalls _

theorem run_coherent {labels : List (Label Key Shelf Change Drop)}
    (reached : Machine.run design.step {} labels = some state) : design.Coherent state :=
  Machine.run_invariant (fun _ _ _ coherent stepped => Coherent.step coherent stepped)
    start_coherent reached

end

/-! ## What a lookup returns -/

section

variable (design) in
/-- An invalidation drops every record a change is about. -/
def Covers (about : Change → Key → Record → Prop) (drop : Drop) (change : Change) : Prop :=
  ∀ shelf key record, design.shelve (some record) = some shelf → about change key record →
    design.drops drop shelf key (some record) = true

variable (design) in
/-- The change is the commit number `index`, and its invalidation has been processed. -/
structure Processed (about : Change → Key → Record → Prop) (change : Change) (index : Nat)
    (state : State Key Record Shelf Change Drop Db) : Prop where
  committed : state.commits[index]? = some change
  invalidated : ∃ entry ∈ state.processed, index < entry.2 ∧ design.Covers about entry.1 change

/-- The load has not noted the generation yet, or did so after commit `index`. -/
def BeganAfter (index : Nat) : Flight Key Record Db → Prop
  | .loading _ _ began _ | .settled _ began _ | .finished _ began _ => index < began
  | _ => True

/-- The lookup `call` joins no load that began before commit `index`. -/
def JoinsAfter (call index : Nat) (state : State Key Record Shelf Change Drop Db) :
    Label Key Shelf Change Drop → Prop
  | .share caller => caller = call → ∀ key leader, state.calls call = .probing key [] →
      state.group key = some leader → BeganAfter index (state.flights leader)
  | _ => True

variable (design) in
/-- A lookup of `key` waits for loads that began after commit `index` only, and what it
has returned was read after it. -/
def LookupSound (about : Change → Key → Record → Prop) (change : Change) (index : Nat) (key : Key)
    (state : State Key Record Shelf Change Drop Db) : Call Key Record Shelf → Prop
  | .idle => False
  | .probing place _ => place = key
  | .waiting place leader => place = key ∧ flightKey (state.flights leader) = some key ∧
      BeganAfter index (state.flights leader)
  | .returned place outcome => place = key ∧
      ∀ record, outcome = .answered (some record) → about change key record →
        design.Reads state.commits (index + 1) (design.load key) (.done (some record))

variable {about : Change → Key → Record → Prop} {change : Change} {index : Nat} {key : Key}
  {state next : State Key Record Shelf Change Drop Db} {label : Label Key Shelf Change Drop}

theorem Processed.within (processed : design.Processed about change index state) :
    index < state.commits.length := by
  by_contra beyond
  have missing := processed.committed
  rw [List.getElem?_eq_none (by omega)] at missing
  cases missing

/-- A record in the cache that the change is about was read after it. -/
theorem Coherent.read_after (coherent : design.Coherent state)
    (processed : design.Processed about change index state) {shelf : Shelf} {record : Record}
    (found : state.cached shelf key = some (some record)) (concerned : about change key record) :
    design.Reads state.commits (index + 1) (design.load key) (.done (some record)) := by
  obtain ⟨shelved, began, reads, dropped⟩ := coherent.entries shelf key (some record) found
  obtain ⟨-, entry, member, before, covers⟩ := processed
  have later : entry.2 ≤ began := dropped entry member (covers shelf key record shelved concerned)
  exact reads.mono (by omega)

theorem update_keeps {flights : Nat → Flight Key Record Db} {changed leader : Nat}
    {flight : Flight Key Record Db} (keyed : flightKey (flights leader) = some key)
    (began : BeganAfter index (flights leader))
    (replaced : flightKey (flights changed) = some key → BeganAfter index (flights changed) →
      flightKey flight = some key ∧ BeganAfter index flight) :
    flightKey (Function.update flights changed flight leader) = some key ∧
      BeganAfter index (Function.update flights changed flight leader) := by
  by_cases here : leader = changed
  · subst here
    rw [Function.update_self]
    exact replaced keyed began
  · rw [Function.update_of_ne here]
    exact ⟨keyed, began⟩

variable [DecidableEq Key] [DecidableEq Shelf]

theorem Processed.step (processed : design.Processed about change index state)
    (stepped : design.step state label = some next) :
    design.Processed about change index next := by
  have within := processed.within
  obtain ⟨committed, entry, member, found, covers⟩ := processed
  cases design.step_moves stepped with
  | commit other =>
    refine ⟨?_, entry, member, found, covers⟩
    simpa only [List.getElem?_append_left within] using committed
  | sweep drop number _ =>
    exact ⟨committed, entry, List.mem_append_left _ member, found, covers⟩
  | _ => exact ⟨committed, entry, member, found, covers⟩

/-- A flight keeps its key, and a load that begins does so after the commits so far. -/
theorem flight_step (within : index < state.commits.length)
    (stepped : design.step state label = some next) {leader : Nat}
    (keyed : flightKey (state.flights leader) = some key)
    (began : BeganAfter index (state.flights leader)) :
    flightKey (next.flights leader) = some key ∧ BeganAfter index (next.flights leader) := by
  cases design.step_moves stepped with
  | lead call place _ idle =>
    refine update_keeps keyed began fun same _ => ?_
    rw [idle] at same
    cases same
  | note flight place registered =>
    refine update_keeps keyed began fun same _ => ?_
    rw [registered] at same
    exact ⟨same, within⟩
  | read flight place noted number later loading =>
    refine update_keeps keyed began fun same after => ?_
    rw [loading] at same after
    exact ⟨same, after⟩
  | fail flight place noted number later loading =>
    refine update_keeps keyed began fun same after => ?_
    rw [loading] at same after
    exact ⟨same, after⟩
  | discard flight place noted number answer loading =>
    refine update_keeps keyed began fun same after => ?_
    rw [loading] at same after
    exact ⟨same, after⟩
  | store flight place number answer shelf loading _ =>
    refine update_keeps keyed began fun same after => ?_
    rw [loading] at same after
    exact ⟨same, after⟩
  | finish flight place number outcome settled =>
    refine update_keeps keyed began fun same after => ?_
    rw [settled] at same after
    exact ⟨same, after⟩
  | _ => exact ⟨keyed, began⟩

theorem commits_step (stepped : design.step state label = some next) :
    ∃ more, next.commits = state.commits ++ more := by
  cases design.step_moves stepped with
  | commit change => exact ⟨[change], rfl⟩
  | _ => exact ⟨[], (List.append_nil _).symm⟩

theorem commits_run {labels : List (Label Key Shelf Change Drop)}
    (reached : Machine.run design.step state labels = some next) :
    ∃ more, next.commits = state.commits ++ more := by
  have preserved : ∀ middle label after, (∃ more, middle.commits = state.commits ++ more) →
      design.step middle label = some after → ∃ more, after.commits = state.commits ++ more := by
    intro middle label after extended stepped
    obtain ⟨more, same⟩ := extended
    obtain ⟨last, grown⟩ := commits_step stepped
    exact ⟨more ++ last, by rw [grown, same, List.append_assoc]⟩
  exact Machine.run_invariant preserved ⟨[], (List.append_nil _).symm⟩ reached

theorem LookupSound.keep (within : index < state.commits.length)
    (stepped : design.step state label = some next) {current : Call Key Record Shelf}
    (sound : design.LookupSound about change index key state current) :
    design.LookupSound about change index key next current := by
  cases current with
  | idle => exact sound
  | probing place rest => exact sound
  | waiting place leader =>
    obtain ⟨same, keyed, began⟩ := sound
    exact ⟨same, flight_step within stepped keyed began⟩
  | returned place outcome =>
    obtain ⟨same, reads⟩ := sound
    obtain ⟨more, extended⟩ := commits_step stepped
    refine ⟨same, fun record answered concerned => ?_⟩
    rw [extended]
    exact (reads record answered concerned).append more

theorem LookupSound.step (coherent : design.Coherent state)
    (processed : design.Processed about change index state) {call : Nat}
    (sound : design.LookupSound about change index key state (state.calls call))
    (joins : JoinsAfter call index state label)
    (stepped : design.step state label = some next) :
    design.LookupSound about change index key next (next.calls call) := by
  have kept := sound.keep processed.within stepped
  cases design.step_moves stepped with
  | start caller place idle =>
    by_cases here : call = caller
    · subst here
      rw [idle] at sound
      exact sound.elim
    · simpa only [Function.update_of_ne here] using kept
  | hit caller place shelf rest answer probing entry =>
    by_cases here : call = caller
    · subst here
      rw [probing] at sound
      obtain rfl : place = key := sound
      simp only [Function.update_self]
      refine ⟨rfl, fun record answered concerned => ?_⟩
      obtain rfl := Outcome.answered.inj answered
      exact coherent.read_after processed entry concerned
    · simpa only [Function.update_of_ne here] using kept
  | miss caller place shelf rest probing =>
    by_cases here : call = caller
    · subst here
      rw [probing] at sound
      simp only [Function.update_self]
      exact sound
    · simpa only [Function.update_of_ne here] using kept
  | join caller leader place missed inFlight =>
    by_cases here : call = caller
    · subst here
      rw [missed] at sound
      obtain rfl : place = key := sound
      simp only [Function.update_self]
      exact ⟨rfl, coherent.group place leader inFlight, joins rfl place leader missed inFlight⟩
    · simpa only [Function.update_of_ne here] using kept
  | lead caller place missed idle =>
    by_cases here : call = caller
    · subst here
      rw [missed] at sound
      obtain rfl : place = key := sound
      simp only [LookupSound, Function.update_self, true_and]
      exact ⟨rfl, trivial⟩
    · simpa only [Function.update_of_ne here] using kept
  | wake caller leader place loaded began outcome waiting finished =>
    by_cases here : call = caller
    · subst here
      rw [waiting] at sound
      obtain ⟨rfl, keyed, after⟩ := sound
      have flown := coherent.flights leader
      rw [finished] at keyed after flown
      obtain rfl : loaded = place := Option.some.inj keyed
      simp only [Function.update_self]
      refine ⟨rfl, fun record answered _ => ?_⟩
      exact (flown (some record) answered).mono after
    · simpa only [Function.update_of_ne here] using kept
  | _ => exact kept

/-- A lookup that starts when the invalidation of a change has been processed, and joins
no load that began before the change, returns no record the change is about but one
read after it. -/
theorem lookup_reads_after {before after : List (Label Key Shelf Change Drop)}
    {started final : State Key Record Shelf Change Drop Db} {call : Nat} {record : Record}
    (reached : Machine.run design.step {} before = some state)
    (processed : design.Processed about change index state)
    (start : design.step state (.start call key) = some started)
    (joins : Machine.Under design.step (JoinsAfter call index) started after)
    (finished : Machine.run design.step started after = some final)
    (returned : final.calls call = .returned key (.answered (some record)))
    (concerned : about change key record) :
    design.Reads final.commits (index + 1) (design.load key) (.done (some record)) := by
  have preserved : ∀ state label next,
      (design.Coherent state ∧ design.Processed about change index state ∧
        design.LookupSound about change index key state (state.calls call)) →
      JoinsAfter call index state label → design.step state label = some next →
      design.Coherent next ∧ design.Processed about change index next ∧
        design.LookupSound about change index key next (next.calls call) := by
    intro state label next inv met stepped
    obtain ⟨coherent, processed, sound⟩ := inv
    exact ⟨coherent.step stepped, processed.step stepped,
      LookupSound.step coherent processed sound met stepped⟩
  have initial : design.LookupSound about change index key started (started.calls call) := by
    cases design.step_moves start with
    | start _ _ _ =>
      simp only [Function.update_self]
      rfl
  have coherent := run_coherent reached
  obtain ⟨-, -, sound⟩ := Machine.run_invariant_under preserved
    ⟨coherent.step start, processed.step start, initial⟩ joins finished
  rw [returned] at sound
  exact sound.2 record rfl concerned

end

end Spinneret.Lib.LoadingCache.Design
