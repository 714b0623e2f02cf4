import Mathlib.Data.List.Sort
import Mathlib.Data.String.Basic
import Spinneret.Auth.Validate
import Spinneret.Authz.Principal

/-!
# User administration

Users, their role bindings, and the five calls that change them. Accounts are kept under
distinct ids. Each call is one transition: what it reads is what it decides on, and a
failed call leaves the directory as it was. Lower-casing and the address syntax of
emails belong to a library and are parameters.
-/

namespace Spinneret.Auth

open Spinneret.Authz

set_option autoImplicit false

structure UserAccount where
  id : String
  username : String
  displayName : String := ""
  email : String := ""
  locale : String := ""
  passwordHash : String
  isPlatformAdmin : Bool := false
  disabled : Bool := false
  deriving DecidableEq

structure RoleBinding where
  userID : String
  row : BindingRow

structure NamespaceRow where
  id : String
  tenantID : String
  name : String

structure SiteRow where
  id : String
  namespaceID : String

structure Directory where
  users : List UserAccount
  bindings : List RoleBinding
  namespaces : List NamespaceRow
  sites : List SiteRow
  distinct : (users.map UserAccount.id).Nodup
  distinctBindings : (bindings.map fun b => b.row.id).Nodup

structure Texts where
  lower : String → String
  validEmail : String → Bool

/-! ## Binding specifications -/

structure BindingSpec where
  role : String
  namespaceID : String := ""
  siteIDs : List String := []
  extraPermissions : List String := []
  deriving DecidableEq

def maxBindingSites : Nat := 500

def sortedUnique (texts : List String) : List String :=
  (texts.insertionSort fun a b => a ≤ b).dedup

def validExtraNames : List String :=
  [Permission.configPublish.name, Permission.secretReveal.name, Permission.identityReveal.name,
    Permission.policyPublish.name]

def normalizeBindingSpec (s : BindingSpec) : Except AppError BindingSpec := do
  check ((Role.ofName s.role).isSome)
    (.invalidArgument "role must be one of owner, admin, operator, viewer")
  check (s.siteIDs = [] ∨ s.namespaceID ≠ "") (.invalidArgument "sites require a namespace")
  check (s.siteIDs.length ≤ maxBindingSites)
    (.invalidArgument ("at most " ++ toString maxBindingSites ++ " sites can be bound"))
  let spec := { s with siteIDs := sortedUnique s.siteIDs
                       extraPermissions := sortedUnique s.extraPermissions }
  check ("" ∉ spec.siteIDs) ⟨.invalidArgument, .siteUnknown, "site IDs must not be empty"⟩
  spec.extraPermissions.forM fun perm => check (perm ∈ validExtraNames)
    (.invalidArgument ("extra permission " ++ perm.quote ++ " is not allowed"))
  return spec

def validateBindingTargets (dir : Directory) (tenantID : String) (s : BindingSpec) :
    Except AppError Unit :=
  if s.namespaceID = "" then .ok ()
  else
    match dir.namespaces.find? fun ns => ns.id == s.namespaceID with
    | none => .error (.notFound "namespace not found")
    | some ns => do
        check (ns.tenantID = tenantID) (.notFound "namespace not found")
        s.siteIDs.forM fun id =>
          check (dir.sites.any fun site => site.id == id && site.namespaceID == s.namespaceID)
            ⟨.invalidArgument, .siteUnknown,
              "site " ++ id.quote ++ " not found in namespace " ++ ns.name.quote⟩

def Directory.bindingsOf (dir : Directory) (userID : String) : List BindingRow :=
  (dir.bindings.filter fun b => b.userID == userID).map RoleBinding.row

def sameBinding (tenantID : String) (s : BindingSpec) (row : BindingRow) : Bool :=
  decide (row.tenantID = tenantID ∧ row.role = s.role ∧ row.namespaceID.getD "" = s.namespaceID ∧
    sortedUnique row.siteIds = s.siteIDs ∧ sortedUnique row.extraPermissions = s.extraPermissions)

def rejectDuplicateBinding (dir : Directory) (userID tenantID : String) (s : BindingSpec) :
    Except AppError Unit :=
  check ((dir.bindingsOf userID).all fun row => !sameBinding tenantID s row)
    (.alreadyExists "an identical role binding already exists")

def BindingSpec.row (s : BindingSpec) (id tenantID : String) : BindingRow where
  id := id
  tenantID := tenantID
  role := s.role
  namespaceID := if s.namespaceID = "" then none else some s.namespaceID
  siteIds := s.siteIDs
  extraPermissions := s.extraPermissions

theorem nodup_append_new {Item : Type} (key : Item → String) {items : List Item} {item : Item}
    (distinct : (items.map key).Nodup) (fresh : key item ∉ items.map key) :
    ((items ++ [item]).map key).Nodup := by
  rw [List.map_append, List.nodup_append]
  refine ⟨distinct, List.nodup_singleton _, ?_⟩
  intro other listed own member same
  rw [List.mem_singleton.mp member] at same
  exact fresh (same ▸ listed)

def insertBinding (dir : Directory) (id userID tenantID : String) (s : BindingSpec) :
    Except AppError Directory :=
  if fresh : id ∉ dir.bindings.map fun b => b.row.id then
    .ok { dir with
      bindings := dir.bindings ++ [⟨userID, s.row id tenantID⟩]
      distinctBindings := nodup_append_new _ dir.distinctBindings fresh }
  else .error (.alreadyExists "role binding already exists")

/-! ## Accounts -/

def activeTenant (p : Principal) : Except AppError String :=
  if p.tenantID = "" then
    .error (.invalidArgument "active tenant is required (X-Spinneret-Tenant header)")
  else .ok p.tenantID

/-- The checks that every call starts with: the active tenant, and managing its users. -/
def managedTenant (p : Principal) : Except AppError String := do
  let tenantID ← activeTenant p
  p.require .userWrite { tenantID := tenantID }
  return tenantID

def grantsOwner (p : Principal) (tenantID : String) (s : BindingSpec) : Except AppError Unit :=
  check (s.role ≠ Role.owner.name ∨ p.tenantOwner tenantID = true)
    (.permissionDenied "only tenant owners can grant the owner role")

/-- `AuthUserInsert`: both the id and the username are unique. -/
def insertUser (dir : Directory) (user : UserAccount) : Except AppError Directory :=
  if fresh : user.id ∉ dir.users.map UserAccount.id ∧
      user.username ∉ dir.users.map UserAccount.username then
    .ok { dir with
      users := dir.users ++ [user]
      distinct := nodup_append_new _ dir.distinct fresh.1 }
  else .error (.alreadyExists ("user " ++ user.username.quote ++ " already exists"))

def Directory.updateUser (dir : Directory) (id : String) (change : UserAccount → UserAccount)
    (keeps : ∀ user, (change user).id = user.id) : Directory where
  users := dir.users.map fun user => if user.id = id then change user else user
  bindings := dir.bindings
  namespaces := dir.namespaces
  sites := dir.sites
  distinct := by
    have ids : (dir.users.map fun user => if user.id = id then change user else user).map
        UserAccount.id = dir.users.map UserAccount.id := by
      rw [List.map_map]
      refine List.map_congr_left fun user _ => ?_
      dsimp only [Function.comp]
      split_ifs
      · exact keeps user
      · rfl
    rw [ids]
    exact dir.distinct
  distinctBindings := dir.distinctBindings

def manageableUser (dir : Directory) (p : Principal) (userID : String) :
    Except AppError UserAccount := do
  let tenantID ← if p.superuser then pure "" else managedTenant p
  match dir.users.find? fun user => user.id == userID with
  | none => .error (.notFound "user not found")
  | some target =>
    if p.superuser then return target
    let bindings := dir.bindingsOf target.id
    check (bindings.any fun b => b.tenantID == tenantID) (.notFound "user not found")
    check (target.isPlatformAdmin = false)
      (.permissionDenied
        "platform administrators can only be managed by platform administrators")
    bindings.forM fun b => check (p.can .userWrite { tenantID := b.tenantID } = true)
      (.permissionDenied "the user belongs to tenants you cannot manage")
    return target

/-! ## Calls -/

structure CreateUserInput where
  username : String
  displayName : String := ""
  email : String := ""
  password : String
  binding : BindingSpec

structure UpdateUserInput where
  displayName : Option String := none
  email : Option String := none
  locale : Option String := none
  disabled : Option Bool := none

def maxDisplayNameLength : Nat := 128

def maxEmailLength : Nat := 254

def validateEmail (texts : Texts) (email : String) : Except AppError Unit :=
  if email = "" then .ok ()
  else do
    check (email.utf8ByteSize ≤ maxEmailLength)
      (.invalidArgument ("email must be at most " ++ toString maxEmailLength ++ " characters"))
    check (texts.validEmail email = true) (.invalidArgument "email must be a valid address")

def normalizeUsername (texts : Texts) (s : String) : String :=
  texts.lower (String.ofList (Lib.trimSpace s.toList))

/-- `CreateUser`; the ids are new ones and `hashed` is the hash of the password. -/
def createUser (texts : Texts) (dir : Directory) (p : Principal) (input : CreateUserInput)
    (userID bindingID hashed : String) : Except AppError Directory := do
  let tenantID ← managedTenant p
  let spec ← normalizeBindingSpec input.binding
  grantsOwner p tenantID spec
  let username := normalizeUsername texts input.username
  validateUsername username
  validateText "display_name" input.displayName maxDisplayNameLength
  validateEmail texts input.email
  match dir.users.find? fun user => user.username == username with
  | some existing =>
    check (p.superuser = true) (.alreadyExists ("user " ++ username.quote ++ " already exists"))
    validateBindingTargets dir tenantID spec
    rejectDuplicateBinding dir existing.id tenantID spec
    insertBinding dir bindingID existing.id tenantID spec
  | none =>
    validatePassword input.password
    validateBindingTargets dir tenantID spec
    let dir ← insertUser dir
      { id := userID, username := username, displayName := input.displayName
        email := input.email, passwordHash := hashed }
    insertBinding dir bindingID userID tenantID spec

/-- `AuthUserUpdate`: absent fields are kept. -/
def UpdateUserInput.write (input : UpdateUserInput) (user : UserAccount) : UserAccount :=
  { user with
    displayName := input.displayName.getD user.displayName
    email := input.email.getD user.email
    locale := input.locale.getD user.locale
    disabled := input.disabled.getD user.disabled }

def updateUser (texts : Texts) (dir : Directory) (p : Principal) (userID : String)
    (input : UpdateUserInput) : Except AppError Directory := do
  let target ← manageableUser dir p userID
  input.displayName.forM fun name => validateText "display_name" name maxDisplayNameLength
  input.email.forM fun email => validateEmail texts email
  input.locale.forM validateLocale
  check (¬(input.disabled = some true ∧ p.kind = .user ∧ p.id = target.id))
    (.failedPrecondition "you cannot disable your own account")
  return dir.updateUser target.id input.write fun _ => rfl

def resetPassword (dir : Directory) (p : Principal) (userID password hashed : String) :
    Except AppError Directory := do
  let target ← manageableUser dir p userID
  validatePassword password
  return dir.updateUser target.id (fun user => { user with passwordHash := hashed }) fun _ => rfl

def createRoleBinding (dir : Directory) (p : Principal) (userID bindingID : String)
    (spec : BindingSpec) : Except AppError Directory := do
  let tenantID ← managedTenant p
  let spec ← normalizeBindingSpec spec
  grantsOwner p tenantID spec
  match dir.users.find? fun user => user.id == userID with
  | none => .error (.notFound "user not found")
  | some user =>
    validateBindingTargets dir tenantID spec
    rejectDuplicateBinding dir user.id tenantID spec
    insertBinding dir bindingID user.id tenantID spec

def tenantWideOwner (row : BindingRow) : Bool :=
  decide (row.role = Role.owner.name ∧ row.namespaceID = none ∧ row.siteIds = [])

def deleteRoleBinding (dir : Directory) (p : Principal) (bindingID : String) :
    Except AppError Directory := do
  let tenantID ← managedTenant p
  match dir.bindings.find? fun b => b.row.id == bindingID with
  | none => .error (.notFound "role binding not found")
  | some got =>
    check (got.row.tenantID = tenantID) (.notFound "role binding not found")
    check (got.row.role ≠ Role.owner.name ∨ p.tenantOwner tenantID = true)
      (.permissionDenied "only tenant owners can remove owner bindings")
    let owners := dir.bindings.filter fun b =>
      decide (b.row.tenantID = tenantID) && tenantWideOwner b.row
    check (tenantWideOwner got.row = false ∨ 1 < owners.length)
      (.failedPrecondition "cannot delete the last owner binding of the tenant")
    return { dir with
      bindings := dir.bindings.filter fun b => b.row.id != bindingID
      distinctBindings := dir.distinctBindings.sublist (List.filter_sublist.map _) }

inductive AdminCall where
  | createUser (input : CreateUserInput) (userID bindingID hashed : String)
  | updateUser (userID : String) (input : UpdateUserInput)
  | resetPassword (userID password hashed : String)
  | createRoleBinding (userID bindingID : String) (spec : BindingSpec)
  | deleteRoleBinding (bindingID : String)

def perform (texts : Texts) (dir : Directory) (p : Principal) :
    AdminCall → Except AppError Directory
  | .createUser input userID bindingID hashed =>
    createUser texts dir p input userID bindingID hashed
  | .updateUser userID input => updateUser texts dir p userID input
  | .resetPassword userID password hashed => resetPassword dir p userID password hashed
  | .createRoleBinding userID bindingID spec => createRoleBinding dir p userID bindingID spec
  | .deleteRoleBinding bindingID => deleteRoleBinding dir p bindingID

def adminStep (texts : Texts) (dir : Directory) (call : Principal × AdminCall) : Directory :=
  ((perform texts dir call.1 call.2).toOption).getD dir

/-! ## What a caller may touch -/

def Manages (p : Principal) (tenantID : String) : Prop :=
  p.can .userWrite { tenantID := tenantID } = true

def Protected (dir : Directory) (p : Principal) (user : UserAccount) : Prop :=
  user.isPlatformAdmin = true ∨
    ∃ b ∈ dir.bindings, b.userID = user.id ∧ ¬ Manages p b.row.tenantID

def Altered (before after : Directory) (b : RoleBinding) : Prop :=
  (b ∈ after.bindings ∧ b ∉ before.bindings) ∨ (b ∈ before.bindings ∧ b ∉ after.bindings)

/-- A change of the directory that stays inside the tenants of the principal. -/
structure Confined (p : Principal) (before after : Directory) : Prop where
  tenants : ∀ b, Altered before after b → Manages p b.row.tenantID
  owners : ∀ b, Altered before after b → b.row.role = Role.owner.name →
    p.tenantOwner b.row.tenantID = true
  accounts : ∀ user ∈ before.users, Protected before p user → user ∈ after.users

section Confinement

variable {texts : Texts} {dir after : Directory} {p : Principal}

theorem confined_same_bindings (bindings : after.bindings = dir.bindings)
    (accounts : ∀ user ∈ dir.users, Protected dir p user → user ∈ after.users) :
    Confined p dir after := by
  have same : ∀ b, ¬ Altered dir after b := by
    intro b altered
    rw [Altered, bindings] at altered
    exact altered.elim (fun made => made.2 made.1) fun removed => removed.2 removed.1
  exact ⟨fun b altered => absurd altered (same b), fun b altered => absurd altered (same b),
    accounts⟩

theorem confined_refl (p : Principal) (dir : Directory) : Confined p dir dir :=
  confined_same_bindings rfl fun _ member _ => member

theorem managed_tenant_ok {tenantID : String} (managed : managedTenant p = .ok tenantID) :
    Manages p tenantID := by
  unfold managedTenant at managed
  simp only [bind_eq_ok] at managed
  obtain ⟨active, -, ⟨⟩, required, managed⟩ := managed
  cases managed
  exact require_ok required

/-- A binding added in a managed tenant, by an owner when it makes an owner. -/
theorem insert_binding_confined {id userID tenantID : String} {s : BindingSpec}
    {middle : Directory} (manages : Manages p tenantID) (owner : grantsOwner p tenantID s = .ok ())
    (kept : middle.bindings = dir.bindings) (users : ∀ user ∈ dir.users, user ∈ middle.users)
    (inserted : insertBinding middle id userID tenantID s = .ok after) : Confined p dir after := by
  obtain ⟨bindings, accounts⟩ : after.bindings = middle.bindings ++ [⟨userID, s.row id tenantID⟩] ∧
      after.users = middle.users := by
    unfold insertBinding at inserted
    split_ifs at inserted with fresh
    cases inserted
    exact ⟨rfl, rfl⟩
  have new : ∀ b, Altered dir after b → b = ⟨userID, s.row id tenantID⟩ := by
    intro b altered
    rw [Altered, bindings, kept] at altered
    rcases altered with ⟨made, unknown⟩ | ⟨known, removed⟩
    · rcases List.mem_append.mp made with old | own
      · exact absurd old unknown
      · exact List.mem_singleton.mp own
    · exact absurd (List.mem_append_left _ known) removed
  refine ⟨fun b altered => ?_, fun b altered role => ?_,
    fun user member _ => accounts ▸ users user member⟩
  · rw [new b altered]
    exact manages
  · rw [new b altered] at role ⊢
    exact (check_ok owner).resolve_left fun other => other role

/-- A user that a tenant administrator may manage is no platform administrator and has
bindings only where the administrator manages users. -/
theorem manageable_user_ok {userID : String} {target : UserAccount}
    (ordinary : p.superuser = false) (managed : manageableUser dir p userID = .ok target) :
    target ∈ dir.users ∧ ¬ Protected dir p target := by
  unfold manageableUser at managed
  rw [ordinary] at managed
  obtain ⟨tenantID, -, managed⟩ := bind_eq_ok.mp managed
  cases found : dir.users.find? fun user => user.id == userID with
  | none =>
    rw [found] at managed
    cases managed
  | some user =>
    rw [found] at managed
    dsimp only at managed
    rw [if_neg Bool.false_ne_true] at managed
    simp only [bind_eq_ok] at managed
    obtain ⟨⟨⟩, -, ⟨⟩, plain, ⟨⟩, everywhere, managed⟩ := managed
    cases managed
    refine ⟨List.mem_of_find?_eq_some found, ?_⟩
    rintro (admin | ⟨b, listed, own, unmanaged⟩)
    · exact absurd (admin.symm.trans (check_ok plain)) nofun
    · have held : b.row ∈ dir.bindingsOf target.id :=
        List.mem_map.mpr ⟨b, List.mem_filter.mpr ⟨listed, beq_iff_eq.mpr own⟩, rfl⟩
      have manages := check_ok (for_m_ok everywhere b.row held)
      exact unmanaged manages

/-- An update of a user that is not protected touches no protected account. -/
theorem update_user_confined {target : UserAccount} {change : UserAccount → UserAccount}
    {keeps : ∀ user, (change user).id = user.id} (listed : target ∈ dir.users)
    (free : ¬ Protected dir p target) :
    Confined p dir (dir.updateUser target.id change keeps) := by
  refine confined_same_bindings rfl fun user member guarded => ?_
  have other : user.id ≠ target.id := by
    intro same
    have equal := List.inj_on_of_nodup_map dir.distinct member listed same
    exact free (equal ▸ guarded)
  exact List.mem_map.mpr ⟨user, member, if_neg other⟩

theorem create_user_confined {input : CreateUserInput} {userID bindingID hashed : String}
    (ordinary : p.superuser = false)
    (ok : createUser texts dir p input userID bindingID hashed = .ok after) :
    Confined p dir after := by
  unfold createUser at ok
  simp only [bind_eq_ok] at ok
  obtain ⟨tenantID, managed, spec, -, ⟨⟩, owner, ⟨⟩, -, ⟨⟩, -, ⟨⟩, -, ok⟩ := ok
  split at ok
  · obtain ⟨⟨⟩, super, -⟩ := bind_eq_ok.mp ok
    exact absurd ((check_ok super).symm.trans ordinary) nofun
  · simp only [bind_eq_ok] at ok
    obtain ⟨⟨⟩, -, ⟨⟩, -, middle, created, ok⟩ := ok
    unfold insertUser at created
    split_ifs at created with fresh
    cases created
    refine insert_binding_confined (managed_tenant_ok managed) owner ?_ ?_ ok
    · rfl
    · exact fun user member => List.mem_append_left _ member

theorem create_role_binding_confined {userID bindingID : String} {spec : BindingSpec}
    (ok : createRoleBinding dir p userID bindingID spec = .ok after) : Confined p dir after := by
  unfold createRoleBinding at ok
  simp only [bind_eq_ok] at ok
  obtain ⟨tenantID, managed, normal, -, ⟨⟩, owner, ok⟩ := ok
  split at ok
  · cases ok
  · simp only [bind_eq_ok] at ok
    obtain ⟨⟨⟩, -, ⟨⟩, -, ok⟩ := ok
    exact insert_binding_confined (managed_tenant_ok managed) owner rfl (fun _ member => member) ok

theorem delete_role_binding_confined {bindingID : String}
    (ok : deleteRoleBinding dir p bindingID = .ok after) : Confined p dir after := by
  unfold deleteRoleBinding at ok
  obtain ⟨tenantID, managed, ok⟩ := bind_eq_ok.mp ok
  split at ok
  · cases ok
  · rename_i got found
    simp only [bind_eq_ok] at ok
    obtain ⟨⟨⟩, own, ⟨⟩, owner, ⟨⟩, -, ok⟩ := ok
    obtain ⟨bindings, accounts⟩ : after.bindings =
        dir.bindings.filter (fun b => b.row.id != bindingID) ∧ after.users = dir.users := by
      cases ok
      exact ⟨rfl, rfl⟩
    have matching := List.find?_some found
    have named : got.row.id = bindingID := beq_iff_eq.mp matching
    have listed : got ∈ dir.bindings := List.mem_of_find?_eq_some found
    have removed : ∀ b, Altered dir after b → b = got := by
      intro b altered
      rw [Altered, bindings] at altered
      rcases altered with ⟨made, unknown⟩ | ⟨known, gone⟩
      · exact absurd (List.mem_filter.mp made).1 unknown
      · have same : b.row.id = bindingID := by
          by_contra other
          exact gone (List.mem_filter.mpr ⟨known, bne_iff_ne.mpr other⟩)
        exact List.inj_on_of_nodup_map dir.distinctBindings known listed (same.trans named.symm)
    refine ⟨fun b altered => ?_, fun b altered role => ?_, fun user member _ => accounts ▸ member⟩
    · rw [removed b altered, check_ok own]
      exact managed_tenant_ok managed
    · rw [removed b altered] at role ⊢
      rw [check_ok own]
      exact (check_ok owner).resolve_left fun other => other role

theorem perform_confined {call : AdminCall} (ordinary : p.superuser = false)
    (ok : perform texts dir p call = .ok after) : Confined p dir after := by
  cases call with
  | createUser input userID bindingID hashed => exact create_user_confined ordinary ok
  | updateUser userID input =>
    unfold perform updateUser at ok
    simp only [bind_eq_ok] at ok
    obtain ⟨target, managed, ⟨⟩, -, ⟨⟩, -, ⟨⟩, -, ⟨⟩, -, ok⟩ := ok
    cases ok
    obtain ⟨listed, free⟩ := manageable_user_ok ordinary managed
    exact update_user_confined listed free
  | resetPassword userID password hashed =>
    unfold perform resetPassword at ok
    simp only [bind_eq_ok] at ok
    obtain ⟨target, managed, ⟨⟩, -, ok⟩ := ok
    cases ok
    obtain ⟨listed, free⟩ := manageable_user_ok ordinary managed
    exact update_user_confined listed free
  | createRoleBinding userID bindingID spec => exact create_role_binding_confined ok
  | deleteRoleBinding bindingID => exact delete_role_binding_confined ok

theorem admin_step_confined {call : AdminCall} (ordinary : p.superuser = false) :
    Confined p dir (adminStep texts dir (p, call)) := by
  unfold adminStep
  cases outcome : perform texts dir p call with
  | error failure => exact confined_refl p dir
  | ok after => exact perform_confined ordinary outcome

end Confinement

/-- In every sequence of calls, a call of a principal who is no superuser creates and
removes bindings only in tenants whose users that principal manages, owner bindings only
as an owner of the tenant, and leaves the accounts of platform administrators and of
users with a binding elsewhere as they are. -/
theorem administration_confined (texts : Texts) (start : Directory)
    (before : List (Principal × AdminCall)) (p : Principal) (call : AdminCall)
    (ordinary : p.superuser = false) :
    Confined p (before.foldl (adminStep texts) start)
      (adminStep texts (before.foldl (adminStep texts) start) (p, call)) :=
  admin_step_confined ordinary

def asciiTexts : Texts where
  lower := String.toLower
  validEmail _ := true

def ownerBinding (id tenantID : String) : BindingRow :=
  { id := id, tenantID := tenantID, role := "owner", namespaceID := none, siteIds := []
    extraPermissions := [] }

/-- Two tenants with an owner each, and a user with a binding in both. -/
def twoTenants : Directory where
  users := [{ id := "u1", username := "alice", passwordHash := "h1" },
    { id := "u2", username := "bob", passwordHash := "h2" },
    { id := "u3", username := "carol", passwordHash := "h3" }]
  bindings := [⟨"u1", ownerBinding "b1" "t1"⟩, ⟨"u2", ownerBinding "b2" "t2"⟩,
    ⟨"u3", { ownerBinding "b3" "t1" with role := "viewer" }⟩,
    ⟨"u3", { ownerBinding "b4" "t2" with role := "viewer" }⟩]
  namespaces := []
  sites := []
  distinct := by decide
  distinctBindings := by decide

def alice : Principal :=
  { kind := .user, id := "u1", tenantID := "t1"
    bindings := [bindingFromRow (ownerBinding "b1" "t1")] }

/-- An owner of one tenant resets the password of a user only while that user belongs to
no other tenant. -/
theorem owner_confined_to_tenant :
    Confined alice
        ([(alice, AdminCall.deleteRoleBinding "b4")].foldl (adminStep asciiTexts) twoTenants)
        (adminStep asciiTexts
          ([(alice, AdminCall.deleteRoleBinding "b4")].foldl (adminStep asciiTexts) twoTenants)
          (alice, .resetPassword "u3" "brand-new-password" "h9")) ∧
      ((adminStep asciiTexts twoTenants
        (alice, .resetPassword "u3" "brand-new-password" "h9")).users.map
          UserAccount.passwordHash = ["h1", "h2", "h3"]) ∧
      ((adminStep asciiTexts twoTenants
        (alice, .resetPassword "u1" "brand-new-password" "h9")).users.map
          UserAccount.passwordHash = ["h9", "h2", "h3"]) :=
  ⟨administration_confined asciiTexts twoTenants [(alice, .deleteRoleBinding "b4")] alice
    (.resetPassword "u3" "brand-new-password" "h9") rfl, by decide +kernel, by decide +kernel⟩

end Spinneret.Auth
