import Spinneret.Auth.Cache
import Spinneret.Auth.Validate
import Spinneret.Lib.Machine

/-!
# Passwords of one user

Self-service password changes, administrative resets, updates of the disabled flag and
logins of one user, each as the sequence of its reads and writes, in any interleaving.
Passwords that were set are kept in a list, newest first, so that the password in force
is known at every moment; a password change that takes effect leaves a record of the
password it was authorized with and of the one it replaced.
-/

namespace Spinneret.Auth

open Spinneret.Authz Spinneret.Lib

set_option autoImplicit false

/-- The password hash: an encoding verifies the password it was made from, and no other. -/
structure Hasher (Hash : Type) where
  encode : Nat → String → Hash
  verify : String → Hash → Option Bool
  law : ∀ salt password given, verify given (encode salt password) = some (given == password)

variable {Hash : Type}

structure Credentials (Hash : Type) where
  passwordHash : Hash
  passwordChangedAt : Option Int
  disabled : Bool

structure Session where
  hash : String
  credential : String
  deriving DecidableEq

/-- The arguments of `ChangePassword`; the session of the cookie is the one to keep. -/
structure Change where
  isUser : Bool := true
  session : Option String := none
  current : String
  next : String

inductive Request where
  | changePassword (change : Change)
  | resetPassword (manageable : Bool) (password : String)
  | updateUser (manageable : Bool) (disabled : Bool)
  | login (password : String)

/-- Where a call stands between two of its accesses; `seen` counts the passwords set
before the call read the row. -/
inductive Phase (Hash : Type) where
  | changeRead (change : Change)
  | changeVerify (change : Change) (user : Credentials Hash) (seen : Nat)
  | changeHash (change : Change) (seen : Nat)
  | changeWrite (change : Change) (seen : Nat) (hashed : Hash)
  | changeKeep (change : Change) (changedAt : Option Int)
  | resetHash (password : String)
  | resetWrite (password : String) (hashed : Hash)
  | updateRead (disabled : Bool)
  | updateWrite (disabled wasDisabled : Bool)
  | revokeUser (keep : Option String)
  | loginRead (password : String)
  | loginVerify (password : String) (user : Credentials Hash)
  | loginStore (password : String) (user : Credentials Hash)
  | loginConfirm (password : String) (user : Credentials Hash) (session : String)
  | done (succeeded : Bool)

structure Taken where
  given : String
  replaced : String
  deriving DecidableEq

structure Accounts (Hash : Type) where
  row : Credentials Hash
  sessions : List Session := []
  calls : Nat → Option (Phase Hash) := fun _ => none
  initial : String
  sets : List String := []
  taken : List Taken := []

/-- The password in force after the first `count` passwords were set. -/
def Accounts.passwordAt (w : Accounts Hash) (count : Nat) : String :=
  (w.sets.drop (w.sets.length - count)).headD w.initial

def Accounts.inForce (w : Accounts Hash) : String := w.sets.headD w.initial

/-- The passwords set after the first `count`, newest first. -/
def Accounts.setSince (w : Accounts Hash) (count : Nat) : List String :=
  w.sets.take (w.sets.length - count)

/-- What the environment decides about an access: whether it succeeds (the throttle, the
context and the stores may all end a call), the time, the salt and a new session. -/
structure Access where
  ok : Bool := true
  now : Int := 0
  salt : Nat := 0
  session : String := ""

/-- `AuthUserSetPassword`. -/
def setPassword (w : Accounts Hash) (password : String) (hashed : Hash) (now : Int) :
    Accounts Hash :=
  { w with
    row := { w.row with passwordHash := hashed, passwordChangedAt := some now }
    sets := password :: w.sets }

/-- The next access of a call, with the phase it leaves the call in. -/
def advance [DecidableEq Hash] (hasher : Hasher Hash) (w : Accounts Hash) (access : Access) :
    Phase Hash → Accounts Hash × Phase Hash
  | .changeRead change =>
    if access.ok ∧ change.isUser ∧ (validatePassword change.next).isOk ∧ ¬w.row.disabled then
      (w, .changeVerify change w.row w.sets.length)
    else (w, .done false)
  | .changeVerify change user seen =>
    if access.ok ∧ hasher.verify change.current user.passwordHash = some true ∧
        change.current ≠ change.next then
      (w, .changeHash change seen)
    else (w, .done false)
  | .changeHash change seen =>
    if access.ok then (w, .changeWrite change seen (hasher.encode access.salt change.next))
    else (w, .done false)
  | .changeWrite change _ hashed =>
    if access.ok then
      let w' := setPassword w change.next hashed access.now
      ({ w' with taken := ⟨change.current, w.inForce⟩ :: w.taken },
        .changeKeep change (some access.now))
    else (w, .done false)
  | .changeKeep change changedAt =>
    -- setCredential moves the session to the new generation only when it still exists.
    let kept := access.ok && w.sessions.any fun s => change.session == some s.hash
    if kept then
      ({ w with sessions := w.sessions.map fun s =>
          if change.session = some s.hash then { s with credential := credentialOf changedAt }
          else s }, .revokeUser change.session)
    else (w, .revokeUser none)
  | .resetHash password =>
    if access.ok ∧ (validatePassword password).isOk then
      (w, .resetWrite password (hasher.encode access.salt password))
    else (w, .done false)
  | .resetWrite password hashed =>
    if access.ok then (setPassword w password hashed access.now, .revokeUser none)
    else (w, .done false)
  | .updateRead disabled =>
    if access.ok then (w, .updateWrite disabled w.row.disabled) else (w, .done false)
  | .updateWrite disabled wasDisabled =>
    if access.ok then
      ({ w with row := { w.row with disabled := disabled } },
        if disabled && !wasDisabled then .revokeUser none else .done true)
    else (w, .done false)
  | .revokeUser keep =>
    if access.ok then
      ({ w with sessions := w.sessions.filter fun s => keep == some s.hash }, .done true)
    else (w, .done false)
  | .loginRead password =>
    if access.ok ∧ password ≠ "" ∧ password.length ≤ maxPasswordLength then
      (w, .loginVerify password w.row)
    else (w, .done false)
  | .loginVerify password user =>
    if access.ok ∧ hasher.verify password user.passwordHash = some true ∧ ¬user.disabled then
      (w, .loginStore password user)
    else (w, .done false)
  | .loginStore password user =>
    if access.ok then
      ({ w with sessions := ⟨access.session, credentialOf user.passwordChangedAt⟩ :: w.sessions },
        .loginConfirm password user access.session)
    else (w, .done false)
  | .loginConfirm _ user session =>
    -- confirmSignIn
    if access.ok ∧ ¬w.row.disabled ∧ w.row.passwordHash = user.passwordHash ∧
        credentialOf w.row.passwordChangedAt = credentialOf user.passwordChangedAt then
      (w, .done true)
    else ({ w with sessions := w.sessions.filter fun s => s.hash != session }, .done false)
  | .done succeeded => (w, .done succeeded)

def Request.phase : Request → Phase Hash
  | .changePassword change => .changeRead change
  | .resetPassword manageable password => if manageable then .resetHash password else .done false
  | .updateUser manageable disabled => if manageable then .updateRead disabled else .done false
  | .login password => .loginRead password

inductive AccountStep where
  | start (id : Nat) (request : Request)
  | access (id : Nat) (access : Access)

def accountStep [DecidableEq Hash] (hasher : Hasher Hash) (w : Accounts Hash) :
    AccountStep → Option (Accounts Hash)
  | .start id request =>
    if w.calls id = none then
      some { w with calls := Function.update w.calls id (some request.phase) }
    else none
  | .access id access =>
    (w.calls id).map fun phase =>
      let outcome := advance hasher w access phase
      { outcome.1 with calls := Function.update outcome.1.calls id (some outcome.2) }

/-! ## The password in force -/

/-- What a call knows at its phase: the row it read stands for the password that was in
force then, and a hash it made for the password it is about to set. -/
def PhaseSound (hasher : Hasher Hash) (w : Accounts Hash) : Phase Hash → Prop
  | .changeVerify _ user seen =>
    seen ≤ w.sets.length ∧
      ∀ given, hasher.verify given user.passwordHash = some (given == w.passwordAt seen)
  | .changeHash change seen => seen ≤ w.sets.length ∧ change.current = w.passwordAt seen
  | .changeWrite change seen hashed =>
    seen ≤ w.sets.length ∧ change.current = w.passwordAt seen ∧
      ∃ salt, hashed = hasher.encode salt change.next
  | .resetWrite password hashed => ∃ salt, hashed = hasher.encode salt password
  | .loginStore password user => hasher.verify password user.passwordHash = some true
  | .loginConfirm password user _ => hasher.verify password user.passwordHash = some true
  | _ => True

structure Accountable (hasher : Hasher Hash) (w : Accounts Hash) : Prop where
  row : ∀ given, hasher.verify given w.row.passwordHash = some (given == w.inForce)
  calls : ∀ id phase, w.calls id = some phase → PhaseSound hasher w phase

section Steps

variable {hasher : Hasher Hash} {w after : Accounts Hash} {phase : Phase Hash} {access : Access}

theorem password_at_all (w : Accounts Hash) : w.passwordAt w.sets.length = w.inForce := by
  rw [Accounts.passwordAt, Nat.sub_self, List.drop_zero, Accounts.inForce]

/-- The password at an earlier count does not change when passwords are set. -/
theorem password_at_extends {more : List String} (start : after.initial = w.initial)
    (sets : after.sets = more ++ w.sets) {count : Nat} (counted : count ≤ w.sets.length) :
    after.passwordAt count = w.passwordAt count := by
  unfold Accounts.passwordAt
  have longer : (more ++ w.sets).length - count = more.length + (w.sets.length - count) := by
    rw [List.length_append]
    omega
  rw [start, sets, longer, List.drop_append, List.drop_eq_nil_of_le (by omega),
    Nat.add_sub_cancel_left, List.nil_append]

theorem PhaseSound.extends {more : List String} (sound : PhaseSound hasher w phase)
    (start : after.initial = w.initial) (sets : after.sets = more ++ w.sets) :
    PhaseSound hasher after phase := by
  have longer : w.sets.length ≤ after.sets.length := by
    rw [sets, List.length_append]
    omega
  cases phase with
  | changeVerify change user seen =>
    obtain ⟨counted, verifies⟩ := sound
    refine ⟨Nat.le_trans counted longer, fun given => ?_⟩
    rw [password_at_extends start sets counted]
    exact verifies given
  | changeHash change seen =>
    obtain ⟨counted, given⟩ := sound
    exact ⟨Nat.le_trans counted longer, given.trans (password_at_extends start sets counted).symm⟩
  | changeWrite change seen hashed =>
    obtain ⟨counted, given, made⟩ := sound
    exact ⟨Nat.le_trans counted longer, given.trans (password_at_extends start sets counted).symm, made⟩
  | resetWrite | loginStore | loginConfirm => exact sound
  | changeRead | changeKeep | resetHash | updateRead | updateWrite | revokeUser | loginRead
  | loginVerify | done => trivial

/-- What one access does to the passwords: nothing, a change or a reset. -/
inductive PasswordEffect (hasher : Hasher Hash) (w : Accounts Hash) (access : Access) :
    Phase Hash → Accounts Hash → Prop
  | same (phase : Phase Hash) (after : Accounts Hash) (calls : after.calls = w.calls)
      (start : after.initial = w.initial) (sets : after.sets = w.sets)
      (row : after.row.passwordHash = w.row.passwordHash) (taken : after.taken = w.taken)
      (idle : ∀ change seen hashed, phase = .changeWrite change seen hashed → access.ok = false) :
      PasswordEffect hasher w access phase after
  | changed (change : Change) (seen : Nat) (hashed : Hash) (ok : access.ok = true) :
      PasswordEffect hasher w access (.changeWrite change seen hashed)
        { setPassword w change.next hashed access.now with
          taken := ⟨change.current, w.inForce⟩ :: w.taken }
  | reset (password : String) (hashed : Hash) :
      PasswordEffect hasher w access (.resetWrite password hashed)
        (setPassword w password hashed access.now)

theorem set_password_accountable {password : String} {hashed : Hash} {now : Int}
    (sound : Accountable hasher w) {salt : Nat} (made : hashed = hasher.encode salt password) :
    Accountable hasher (setPassword w password hashed now) where
  row given := by
    subst made
    exact hasher.law salt password given
  calls id phase here :=
    (sound.calls id phase here).extends rfl (List.singleton_append (x := password)).symm

theorem effect_accountable (sound : Accountable hasher w) (own : PhaseSound hasher w phase)
    (effect : PasswordEffect hasher w access phase after) :
    Accountable hasher after ∧ after.calls = w.calls ∧ after.initial = w.initial ∧
      ∃ more, after.sets = more ++ w.sets := by
  cases effect with
  | same phase after calls start sets row taken idle =>
    refine ⟨⟨fun given => ?_, fun id phase here => ?_⟩, calls, start, [], sets⟩
    · rw [row, Accounts.inForce, start, sets]
      exact sound.row given
    · have none : after.sets = [] ++ w.sets := sets
      exact (sound.calls id phase (calls ▸ here)).extends start none
  | changed change seen hashed ok =>
    obtain ⟨salt, made⟩ := own.2.2
    have set : Accountable hasher (setPassword w change.next hashed access.now) :=
      set_password_accountable sound made
    exact ⟨⟨set.row, set.calls⟩, rfl, rfl, [change.next], rfl⟩
  | reset password hashed =>
    obtain ⟨salt, made⟩ := own
    exact ⟨set_password_accountable sound made, rfl, rfl, [password], rfl⟩

variable [DecidableEq Hash]

theorem advance_effect (hasher : Hasher Hash) (w : Accounts Hash) (access : Access)
    (phase : Phase Hash) :
    PasswordEffect hasher w access phase (advance hasher w access phase).1 := by
  cases phase with
  | changeWrite change seen hashed =>
    dsimp only [advance]
    cases ok : access.ok with
    | false => exact .same _ _ rfl rfl rfl rfl rfl fun _ _ _ _ => ok
    | true => exact .changed change seen hashed ok
  | resetWrite password hashed =>
    dsimp only [advance]
    split_ifs
    · exact .reset password hashed
    · exact .same _ _ rfl rfl rfl rfl rfl nofun
  | changeRead | changeVerify | changeHash | resetHash | updateRead | updateWrite | revokeUser
  | loginRead | loginVerify | loginStore | loginConfirm =>
    dsimp only [advance]
    split_ifs
    all_goals exact .same _ _ rfl rfl rfl rfl rfl nofun
  | changeKeep change changedAt =>
    dsimp only [advance]
    split_ifs
    all_goals exact .same _ _ rfl rfl rfl rfl rfl nofun
  | done succeeded => exact .same _ _ rfl rfl rfl rfl rfl nofun

/-- The phase that an access leaves its call in is sound before any later write. -/
theorem advance_phase (row : ∀ given, hasher.verify given w.row.passwordHash =
      some (given == w.inForce)) (sound : PhaseSound hasher w phase) :
    PhaseSound hasher w (advance hasher w access phase).2 := by
  cases phase with
  | changeRead change =>
    dsimp only [advance]
    split_ifs
    · exact ⟨Nat.le_refl _, fun given => (password_at_all w).symm ▸ row given⟩
    · trivial
  | changeVerify change user seen =>
    dsimp only [advance]
    split_ifs with verified
    · have matches_ := (sound.2 change.current).symm.trans verified.2.1
      exact ⟨sound.1, beq_iff_eq.mp (Option.some.inj matches_)⟩
    · trivial
  | changeHash change seen =>
    dsimp only [advance]
    split_ifs
    · exact ⟨sound.1, sound.2, _, rfl⟩
    · trivial
  | resetHash password =>
    dsimp only [advance]
    split_ifs
    · exact ⟨_, rfl⟩
    · trivial
  | updateWrite disabled wasDisabled =>
    dsimp only [advance]
    split_ifs
    all_goals trivial
  | loginVerify password user =>
    dsimp only [advance]
    split_ifs with verified
    · exact verified.2.1
    · trivial
  | loginStore password user =>
    dsimp only [advance]
    split_ifs
    · exact sound
    · trivial
  | changeWrite | resetWrite | updateRead | revokeUser | loginRead | loginConfirm =>
    dsimp only [advance]
    split_ifs <;> trivial
  | changeKeep change changedAt =>
    dsimp only [advance]
    split_ifs <;> trivial
  | done => trivial

theorem account_step_accountable (state : Accounts Hash) (label : AccountStep)
    (next : Accounts Hash) (sound : Accountable hasher state)
    (stepped : accountStep hasher state label = some next) : Accountable hasher next := by
  cases label with
  | start id request =>
    simp only [accountStep, Option.ite_none_right_eq_some] at stepped
    obtain ⟨-, stepped⟩ := stepped
    obtain rfl := Option.some.inj stepped
    refine ⟨sound.row, fun other phase here => ?_⟩
    rcases Machine.update_cases here with ⟨rfl, same⟩ | ⟨-, earlier⟩
    · obtain rfl := Option.some.inj same
      cases request with
      | changePassword | login => trivial
      | resetPassword manageable password => cases manageable <;> trivial
      | updateUser manageable disabled => cases manageable <;> trivial
    · exact sound.calls other phase earlier
  | access id access =>
    simp only [accountStep, Option.map_eq_some_iff] at stepped
    obtain ⟨phase, here, rfl⟩ := stepped
    have own := sound.calls id phase here
    obtain ⟨kept, calls, start, more, sets⟩ :=
      effect_accountable sound own (advance_effect hasher state access phase)
    refine ⟨kept.row, fun other phase' there => ?_⟩
    rcases Machine.update_cases there with ⟨rfl, same⟩ | ⟨-, earlier⟩
    · obtain rfl := Option.some.inj same
      exact (advance_phase sound.row own).extends start sets
    · exact kept.calls other phase' earlier

end Steps

/-! ## What a password change replaces -/

/-- At the write of a password change, the password set last since the call read the row,
if any was set, is the one that the caller gave. -/
def Undisturbed (w : Accounts Hash) : AccountStep → Prop
  | .start _ _ => True
  | .access id access =>
    ∀ change seen hashed, w.calls id = some (.changeWrite change seen hashed) →
      access.ok = true → ∀ newest ∈ (w.setSince seen).head?, newest = change.current

def Accounts.Authorized (w : Accounts Hash) : Prop := ∀ t ∈ w.taken, t.given = t.replaced

section Changes

variable {hasher : Hasher Hash} {w : Accounts Hash}

theorem set_since_iff {given : String} {seen : Nat} (counted : seen ≤ w.sets.length)
    (known : given = w.passwordAt seen) :
    (∀ newest ∈ (w.setSince seen).head?, newest = given) ↔ given = w.inForce := by
  rcases Nat.eq_or_lt_of_le counted with all | fewer
  · have none : w.setSince seen = [] := by
      rw [Accounts.setSince, all, Nat.sub_self, List.take_zero]
    rw [none, known, all, password_at_all]
    simp
  · have newest : (w.setSince seen).head? = w.sets.head? := by
      rw [Accounts.setSince, List.head?_take, if_neg (by omega)]
    have inForce : w.sets.head? = some w.inForce := by
      unfold Accounts.inForce
      cases sets : w.sets with
      | nil => simp [sets] at fewer
      | cons first rest => rfl
    rw [newest, inForce]
    simp [eq_comm]

theorem account_step_authorized [DecidableEq Hash] (state : Accounts Hash) (label : AccountStep)
    (next : Accounts Hash) (sound : Accountable hasher state)
    (stepped : accountStep hasher state label = some next) :
    next.Authorized ↔ state.Authorized ∧ Undisturbed state label := by
  cases label with
  | start id request =>
    simp only [accountStep, Option.ite_none_right_eq_some] at stepped
    obtain ⟨-, stepped⟩ := stepped
    obtain rfl := Option.some.inj stepped
    exact (and_iff_left trivial).symm
  | access id access =>
    simp only [accountStep, Option.map_eq_some_iff] at stepped
    obtain ⟨phase, here, rfl⟩ := stepped
    have own := sound.calls id phase here
    have effect := advance_effect hasher state access phase
    -- The record is the same with the phase of the call written back.
    have unwritten : ∀ (world : Accounts Hash) (calls : Nat → Option (Phase Hash)),
        Accounts.Authorized { world with calls := calls } ↔ world.Authorized :=
      fun _ _ => Iff.rfl
    rw [unwritten]
    generalize (advance hasher state access phase).1 = after at effect ⊢
    cases effect with
    | same _ _ calls start sets row taken idle =>
      have quiet : Undisturbed state (.access id access) := by
        intro change seen hashed there ok
        have writing := Option.some.inj (here.symm.trans there)
        exact absurd (ok.symm.trans (idle change seen hashed writing)) nofun
      rw [Accounts.Authorized, taken]
      exact (and_iff_left quiet).symm
    | changed change seen hashed ok =>
      obtain ⟨counted, known, -⟩ := own
      have condition : Undisturbed state (.access id access) ↔
          change.current = state.inForce := by
        rw [← set_since_iff counted known]
        constructor
        · exact fun undisturbed => undisturbed change seen hashed here ok
        · intro met other seen' hashed' there _
          have writing := Option.some.inj (here.symm.trans there)
          obtain ⟨rfl, rfl, rfl⟩ := Phase.changeWrite.inj writing
          exact met
      rw [condition, Accounts.Authorized, List.forall_mem_cons]
      exact and_comm
    | reset password hashed =>
      have quiet : Undisturbed state (.access id access) := by
        intro change seen hashed there
        exact absurd (here.symm.trans there) nofun
      exact (and_iff_left quiet).symm

end Changes

/-- The user before any call: the row holds the hash of the initial password. -/
structure Fresh (hasher : Hasher Hash) (w : Accounts Hash) : Prop where
  row : ∃ salt, w.row.passwordHash = hasher.encode salt w.initial
  calls : ∀ id, w.calls id = none
  sets : w.sets = []
  taken : w.taken = []

theorem fresh_accountable {hasher : Hasher Hash} {w : Accounts Hash} (fresh : Fresh hasher w) :
    Accountable hasher w where
  row given := by
    obtain ⟨salt, encoded⟩ := fresh.row
    rw [encoded, Accounts.inForce, fresh.sets]
    exact hasher.law salt w.initial given
  calls id phase here := absurd ((fresh.calls id).symm.trans here) nofun

/-- In every interleaving, every password change that took effect was authorized with the
password in force immediately before it, if and only if no change was overtaken: between
its read and its write nobody set another password. -/
theorem changes_authorized_iff [DecidableEq Hash] (hasher : Hasher Hash)
    (start final : Accounts Hash) (steps : List AccountStep) (fresh : Fresh hasher start)
    (ran : Machine.run (accountStep hasher) start steps = some final) :
    (∀ t ∈ final.taken, t.given = t.replaced) ↔
      Machine.Under (accountStep hasher) Undisturbed start steps := by
  have authorized : final.Authorized ↔ start.Authorized ∧
      Machine.Under (accountStep hasher) Undisturbed start steps :=
    Machine.run_iff_under account_step_accountable account_step_authorized
      (fresh_accountable fresh) ran
  have none : start.Authorized := by
    intro t listed
    rw [fresh.taken] at listed
    cases listed
  exact authorized.trans (and_iff_right none)

/-- Hashes that keep the password beside the salt. -/
def openHasher : Hasher (Nat × String) where
  encode salt password := (salt, password)
  verify given hash := some (given == hash.2)
  law _ _ _ := rfl

def oldOwner : Accounts (Nat × String) :=
  { row := { passwordHash := (0, "first-password"), passwordChangedAt := none, disabled := false }
    initial := "first-password" }

def takeover : Change := { current := "first-password", next := "stolen-password" }

/-- A change that reads, verifies, hashes and writes without a write of anybody else. -/
def plainSteps : List AccountStep :=
  [.start 1 (.changePassword takeover), .access 1 {}, .access 1 {}, .access 1 {}, .access 1 {}]

/-- A change that verifies the old password, and writes after a reset. -/
def overtakenSteps : List AccountStep :=
  [.start 1 (.changePassword takeover), .access 1 {}, .access 1 {}, .access 1 {},
    .start 2 (.resetPassword true "second-password"), .access 2 {}, .access 2 {}, .access 1 {}]

theorem plain_change_authorized :
    ∃ final, Machine.run (accountStep openHasher) oldOwner plainSteps = some final ∧
      final.taken = [⟨"first-password", "first-password"⟩] ∧
      Machine.Under (accountStep openHasher) Undisturbed oldOwner plainSteps := by
  have fresh : Fresh openHasher oldOwner := ⟨⟨0, rfl⟩, fun _ => rfl, rfl, rfl⟩
  have ran : ∃ final, Machine.run (accountStep openHasher) oldOwner plainSteps = some final ∧
      final.taken = [⟨"first-password", "first-password"⟩] := ⟨_, rfl, by decide +kernel⟩
  obtain ⟨final, reached, taken⟩ := ran
  refine ⟨final, reached, taken, (changes_authorized_iff openHasher oldOwner final plainSteps fresh
    reached).mp ?_⟩
  rw [taken]
  decide

/-- The old password overwrites the one that an administrator has just set. -/
theorem overtaken_change_replaces_reset :
    ∃ final, Machine.run (accountStep openHasher) oldOwner overtakenSteps = some final ∧
      final.taken = [⟨"first-password", "second-password"⟩] ∧
      final.row.passwordHash.2 = "stolen-password" :=
  ⟨_, rfl, by decide +kernel, by decide +kernel⟩

end Spinneret.Auth
