import Spinneret.Auth.Cache

/-!
# Revocations and the lookups after them

A lookup that starts after the invalidation of a revocation or of a user change
returns a record read after the change was committed, unless it joins a load that
was in flight before the change: the invalidations drop entries and raise the
generation, which keeps an older load out of the cache, but they leave the shared
load itself in place for the lookups that follow.
-/

namespace Spinneret.Auth

open Spinneret.Lib Spinneret.Lib.LoadingCache

set_option autoImplicit false

variable {Scope Network : Type}

abbrev TokenState (Scope Network : Type) :=
  State String (TokenRecord Scope Network) TokenShelf TokenChange TokenDrop (List TokenRow)

abbrev UserState := State UserKey UserAnswer UserShelf UserChange UserDrop UserTables

/-- Commit `index` revoked the token, and the event of the revocation was processed
after it. -/
structure RevocationProcessed (id : String) (index : Nat) (state : TokenState Scope Network) :
    Prop where
  committed : ∃ now, state.commits[index]? = some (.revoke id now)
  invalidated : ∃ entry ∈ state.processed, index < entry.2 ∧
    onEvent (publishRevoked id) = .tokens entry.1

/-- The change is commit `index`, and its event was processed after it. -/
structure UserChangeProcessed (change : UserChange) (index : Nat) (state : UserState) : Prop where
  committed : state.commits[index]? = some change
  invalidated : ∃ entry ∈ state.processed, index < entry.2 ∧
    onEvent (publishUserChanged change.userID) = .users entry.1

def TokenChange.About : TokenChange → String → TokenRecord Scope Network → Prop
  | .insert _, _, _ => False
  | .revoke id _, _, record => record.id = id

/-- What the user cache keeps of a changed user, or of any. -/
def UserChange.About : UserChange → UserKey → UserAnswer → Prop
  | .ofUser id _ _, .user other, .user _ => other = id
  | .ofUser _ _ _, _, _ => False
  | .ofAll _, _, _ => True

theorem on_event_revoked (id : String) (named : id ≠ "") :
    onEvent (publishRevoked id) = .tokens (.dropToken id) := by
  have other : eventTokenRevoked ≠ eventUserChanged := by decide
  simp [onEvent, publishRevoked, other, named]

theorem on_event_revoked_drop {id : String} {drop : TokenDrop}
    (handled : onEvent (publishRevoked id) = .tokens drop) : drop = .dropToken id := by
  by_cases named : id = ""
  · subst named
    cases handled
  · rw [on_event_revoked id named] at handled
    exact (Invalidation.tokens.inj handled).symm

theorem on_event_user_changed (userID : String) :
    onEvent (publishUserChanged userID) = .users (invalidateUser userID) := by
  by_cases every : userID = ""
  · subst every
    rfl
  · simp [onEvent, publishUserChanged, every]

theorem revocation_covered (parsers : Parsers Scope Network) {id : String} {drop : TokenDrop}
    (now : Int) (handled : onEvent (publishRevoked id) = .tokens drop) :
    (tokenCache parsers).Covers TokenChange.About drop (.revoke id now) := by
  obtain rfl := on_event_revoked_drop handled
  intro shelf key record shelved concerned
  obtain rfl : TokenShelf.positive = shelf := Option.some.inj shelved
  exact beq_iff_eq.mpr concerned

theorem user_change_covered (tables : UserTables) {change : UserChange} {drop : UserDrop}
    (handled : onEvent (publishUserChanged change.userID) = .users drop) :
    (userCache tables).Covers UserChange.About drop change := by
  rw [on_event_user_changed] at handled
  obtain rfl := Invalidation.users.inj handled
  intro shelf key answer shelved concerned
  cases change with
  | ofAll replaced => rfl
  | ofUser id row bindings =>
    match key, answer, concerned with
    | .user other, .user record, concerned =>
      obtain rfl : other = id := concerned
      obtain rfl : UserShelf.users = shelf := Option.some.inj shelved
      by_cases every : other = ""
      · simp [UserChange.userID, invalidateUser, every, userCache]
      · simp [UserChange.userID, invalidateUser, every, userCache]

/-! ## Revoked rows -/

def TokenRevoked (id : String) (rows : List TokenRow) : Prop :=
  (∃ row ∈ rows, row.id = id) ∧ ∀ row ∈ rows, row.id = id → row.revokedAt.isSome

theorem revoke_token_revoked {id : String} {rows : List TokenRow} (now : Int)
    (present : ∃ row ∈ rows, row.id = id) : TokenRevoked id (revokeToken id now rows) := by
  obtain ⟨row, member, same⟩ := present
  constructor
  · exact ⟨_, List.mem_map_of_mem member, by simp [same]⟩
  · intro other found named
    obtain ⟨source, -, rfl⟩ := List.mem_map.mp found
    by_cases hit : source.id = id
    · simp [hit]
    · simp [hit] at named

/-- A revocation is never taken back: no change gives the id to another row. -/
theorem TokenRevoked.apply {id : String} {rows : List TokenRow} (revoked : TokenRevoked id rows)
    (change : TokenChange) : TokenRevoked id (change.apply rows) := by
  obtain ⟨⟨row, member, same⟩, all⟩ := revoked
  cases change with
  | insert added =>
    simp only [TokenChange.apply, insertToken]
    split
    · exact ⟨⟨row, member, same⟩, all⟩
    · rename_i untaken
      refine ⟨⟨row, List.mem_append_left _ member, same⟩, fun other found named => ?_⟩
      rcases List.mem_append.mp found with earlier | last
      · exact all other earlier named
      · obtain rfl := List.mem_singleton.mp last
        refine absurd (List.any_eq_true.mpr ⟨row, member, ?_⟩) untaken
        simp [same, named]
  | revoke target now =>
    constructor
    · refine ⟨_, List.mem_map_of_mem member, ?_⟩
      split
      · exact same
      · exact same
    · intro other found named
      obtain ⟨source, held, rfl⟩ := List.mem_map.mp found
      by_cases hit : source.id = target
      · simp [hit]
      · simp only [hit, if_false] at named ⊢
        exact all source held named

theorem revoked_from_commit (parsers : Parsers Scope Network) {commits : List TokenChange}
    {id : String} {index : Nat} {now : Int} (committed : commits[index]? = some (.revoke id now))
    (present : ∃ row ∈ (tokenCache parsers).databaseAt commits index, row.id = id)
    {count : Nat} (after : index + 1 ≤ count) (within : count ≤ commits.length) :
    TokenRevoked id ((tokenCache parsers).databaseAt commits count) := by
  induction count with
  | zero => omega
  | succ count ih =>
    by_cases first : index = count
    · subst first
      rw [Design.databaseAt_succ committed]
      exact revoke_token_revoked now present
    · have earlier := ih (by omega) (by omega)
      rw [Design.databaseAt_succ (List.getElem?_eq_getElem (by omega))]
      exact earlier.apply _

theorem read_record_revoked (parsers : Parsers Scope Network) {commits : List TokenChange}
    {id key : String} {since : Nat} {record : TokenRecord Scope Network}
    (reads : (tokenCache parsers).Reads commits since ((tokenCache parsers).load key)
      (.done (some record)))
    (revoked : ∀ count, since ≤ count → count ≤ commits.length →
      TokenRevoked id ((tokenCache parsers).databaseAt commits count))
    (same : record.id = id) : record.revoked = true := by
  obtain ⟨count, after, within, found⟩ := reads.single
  obtain ⟨row, hit, rfl⟩ := Option.map_eq_some_iff.mp found
  exact (revoked count after within).2 row (List.mem_of_find?_eq_some hit) same

/-! ## Lookups after an invalidation -/

/-- Every lookup that starts after the invalidation of a revocation has been processed, and
joins no load that began before the revocation was committed, returns no record of the
token but one read after that commit, which is revoked. The same holds of a user's
lookups and the changes of the user. -/
theorem lookup_after_invalidation_reads_after_commit (parsers : Parsers Scope Network)
    (tables : UserTables) :
    (∀ (before after : List (Label String TokenShelf TokenChange TokenDrop))
        (state started final : TokenState Scope Network) (call index : Nat) (key id : String)
        (record : TokenRecord Scope Network),
      Machine.run (tokenCache parsers).step {} before = some state →
      RevocationProcessed id index state →
      (tokenCache parsers).step state (.start call key) = some started →
      Machine.Under (tokenCache parsers).step (Design.JoinsAfter call index) started after →
      Machine.run (tokenCache parsers).step started after = some final →
      final.calls call = .returned key (.answered (some record)) → record.id = id →
      (tokenCache parsers).Reads final.commits (index + 1) ((tokenCache parsers).load key)
          (.done (some record)) ∧
        ((∃ row ∈ (tokenCache parsers).databaseAt final.commits index, row.id = id) →
          record.revoked = true)) ∧
    (∀ (before after : List (Label UserKey UserShelf UserChange UserDrop))
        (state started final : UserState) (call index : Nat) (id : String) (change : UserChange)
        (record : UserRecord),
      Machine.run (userCache tables).step {} before = some state →
      UserChangeProcessed change index state → change.About (.user id) (.user record) →
      (userCache tables).step state (.start call (.user id)) = some started →
      Machine.Under (userCache tables).step (Design.JoinsAfter call index) started after →
      Machine.run (userCache tables).step started after = some final →
      final.calls call = .returned (.user id) (.answered (some (.user record))) →
      (userCache tables).Reads final.commits (index + 1) (loadUserRecord id)
        (.done (some (.user record)))) := by
  constructor
  · intro before after state started final call index key id record reached revocation start joins
      finished returned same
    obtain ⟨⟨now, committed⟩, entry, member, found, handled⟩ := revocation
    have processed : (tokenCache parsers).Processed TokenChange.About (.revoke id now) index state :=
      ⟨committed, entry, member, found, revocation_covered parsers now handled⟩
    have reads := Design.lookup_reads_after reached processed start joins finished returned same
    refine ⟨reads, fun present => ?_⟩
    obtain ⟨first, begun⟩ := Design.commits_step start
    obtain ⟨second, grown⟩ := Design.commits_run finished
    have still : final.commits[index]? = some (.revoke id now) := by
      rw [grown, begun, List.append_assoc, List.getElem?_append_left processed.within]
      exact committed
    exact read_record_revoked parsers reads
      (fun count after within => revoked_from_commit parsers still present after within) same
  · intro before after state started final call index id change record reached changed concerned
      start joins finished returned
    obtain ⟨committed, entry, member, found, handled⟩ := changed
    have processed : (userCache tables).Processed UserChange.About change index state :=
      ⟨committed, entry, member, found, user_change_covered tables handled⟩
    exact Design.lookup_reads_after reached processed start joins finished returned concerned

def plainParsers : Parsers String String where
  parseScopes := some
  parseNetworks := some

def sampleToken : TokenRow := { hash := "h", id := "t" }

def sampleUser (disabled : Bool) : UserRow :=
  { username := "u", disabled := disabled, isPlatformAdmin := false, passwordChangedAt := none }

def sampleTables : UserTables where
  users := fun _ => some (sampleUser false)
  bindings := fun _ => []
  tenants := fun _ => true

/-- The lookups of a revoked token and of a disabled user load them again. -/
theorem revoked_token_and_disabled_user_reloaded :
    (∃ final record, Machine.run (tokenCache plainParsers).step {}
        [.commit (.insert sampleToken), .commit (.revoke "t" 5), .invalidate (.dropToken "t"),
          .sweep, .start 0 "h", .probe 0, .probe 0, .share 0, .note 0, .read 0, .store 0,
          .finish 0, .wake 0] = some final ∧
      final.calls 0 = .returned "h" (.answered (some record)) ∧ record.revoked = true) ∧
    (∃ final record, Machine.run (userCache sampleTables).step {}
        [.commit (.ofUser "a" (some (sampleUser true)) []), .invalidate (.dropUser "a"), .sweep,
          .start 0 (.user "a"), .probe 0, .share 0, .note 0, .read 0, .read 0, .store 0,
          .finish 0, .wake 0] = some final ∧
      final.calls 0 = .returned (.user "a") (.answered (some (.user record))) ∧
      (userCache sampleTables).Reads final.commits 1 (loadUserRecord "a")
        (.done (some (.user record)))) := by
  have both := lookup_after_invalidation_reads_after_commit plainParsers sampleTables
  constructor
  · refine ⟨_, _, rfl, rfl, ?_⟩
    refine (both.1
      [.commit (.insert sampleToken), .commit (.revoke "t" 5), .invalidate (.dropToken "t"), .sweep]
      [.probe 0, .probe 0, .share 0, .note 0, .read 0, .store 0, .finish 0, .wake 0]
      _ _ _ 0 1 "h" "t" _ rfl ⟨⟨5, rfl⟩, _, List.mem_singleton_self _, by decide, rfl⟩ rfl ?_ rfl rfl
      rfl).2 ⟨sampleToken, List.mem_singleton_self _, rfl⟩
    iterate 2 refine Machine.under_cons rfl trivial ?_
    refine Machine.under_cons rfl (fun _ _ _ _ found => nomatch found) ?_
    iterate 5 refine Machine.under_cons rfl trivial ?_
    trivial
  · refine ⟨_, _, rfl, rfl, ?_⟩
    refine both.2
      [.commit (.ofUser "a" (some (sampleUser true)) []), .invalidate (.dropUser "a"), .sweep]
      [.probe 0, .share 0, .note 0, .read 0, .read 0, .store 0, .finish 0, .wake 0]
      _ _ _ 0 0 "a" (.ofUser "a" (some (sampleUser true)) []) _ rfl
      ⟨rfl, _, List.mem_singleton_self _, by decide, rfl⟩ rfl rfl ?_ rfl rfl
    refine Machine.under_cons rfl trivial ?_
    refine Machine.under_cons rfl (fun _ _ _ _ found => nomatch found) ?_
    iterate 6 refine Machine.under_cons rfl trivial ?_
    trivial

/-- The second lookup starts after the revocation of the token has been processed. It joins
the load the first one began before the revocation, and gets the token unrevoked. -/
theorem joined_load_returns_unrevoked_token :
    ∃ (state started final : TokenState String String) (record : TokenRecord String String),
      Machine.run (tokenCache plainParsers).step {}
        [.commit (.insert sampleToken), .start 0 "h", .probe 0, .probe 0, .share 0, .note 0,
          .read 0, .commit (.revoke "t" 5), .invalidate (.dropToken "t"), .sweep] = some state ∧
      RevocationProcessed "t" 1 state ∧
      (tokenCache plainParsers).step state (.start 1 "h") = some started ∧
      Machine.run (tokenCache plainParsers).step started
        [.probe 1, .probe 1, .share 1, .store 0, .finish 0, .wake 1] = some final ∧
      final.calls 1 = .returned "h" (.answered (some record)) ∧
      record.id = "t" ∧ record.revoked = false ∧
      (∃ row ∈ (tokenCache plainParsers).databaseAt final.commits 1, row.id = "t") :=
  ⟨_, _, _, _, rfl, ⟨⟨5, rfl⟩, _, List.mem_singleton_self _, by decide, rfl⟩, rfl, rfl, rfl, rfl, rfl,
    sampleToken, List.mem_singleton_self _, rfl⟩

end Spinneret.Auth
