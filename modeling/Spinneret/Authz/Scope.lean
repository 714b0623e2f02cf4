import Spinneret.Authz.Permission
import Spinneret.Pkg.Glob

/-!
# Token scopes

A scope is a name with an optional argument that narrows it: an exact site name, a
glob over the config group, or a glob over a namespace name and a secret path. Texts
are Unicode strings, so a text that is no valid UTF-8 does not occur.
-/

namespace Spinneret.Authz

set_option autoImplicit false

/-! ## Globs -/

/-- `Match` on the bytes of both texts. -/
def globMatch (pattern s : String) : Bool :=
  Glob.globMatch (pattern.toUTF8.toList.map UInt8.toFin) (s.toUTF8.toList.map UInt8.toFin)

def hasWildcard (pattern : String) : Bool :=
  pattern.toList.any fun c => c == '*' || c == '?'

/-! ## Scopes -/

inductive ScopeName where
  | leaseAcquire
  | reportWrite
  | configRead
  | configPublish
  | secretRead
  | identityWrite
  | proxyWrite
  | admin
  deriving DecidableEq, Repr

def ScopeName.text : ScopeName → String
  | .leaseAcquire => "lease:acquire"
  | .reportWrite => "report:write"
  | .configRead => "config:read"
  | .configPublish => "config:publish"
  | .secretRead => "secret:read"
  | .identityWrite => "identity:write"
  | .proxyWrite => "proxy:write"
  | .admin => "admin"

def scopeNames : List ScopeName :=
  [.leaseAcquire, .reportWrite, .configRead, .configPublish, .secretRead, .identityWrite,
    .proxyWrite, .admin]

def ScopeName.ofText (text : String) : Option ScopeName :=
  scopeNames.find? fun name => name.text == text

structure Scope where
  raw : String
  name : ScopeName
  arg : String
  deriving DecidableEq, Repr

inductive ArgKind where
  | argNone
  | argSite
  | argGroupGlob
  | argSecretGlob
  deriving DecidableEq, Repr

/-- `scopeDefs`: the kind of argument and the permissions, ignoring the argument. -/
def ScopeName.arg : ScopeName → ArgKind
  | .leaseAcquire | .reportWrite | .identityWrite => .argSite
  | .configRead | .configPublish => .argGroupGlob
  | .secretRead => .argSecretGlob
  | .proxyWrite | .admin => .argNone

def ScopeName.perms : ScopeName → List Permission
  | .leaseAcquire => [.leaseAcquire]
  | .reportWrite => [.reportWrite]
  | .configRead => [.configRead]
  | .configPublish => [.configRead, .configWrite, .configPublish]
  | .secretRead => [.secretRead]
  | .identityWrite => [.identityRead, .identityWrite, .identityOperate]
  | .proxyWrite => [.proxyRead, .proxyWrite, .proxyOperate]
  | .admin => rolePermissions .admin

/-! ## Parsing -/

def maxScopeLen : Nat := 512

def maxScopeArgLen : Nat := 256

def invalidScopeRune (c : Char) : Bool :=
  Lib.isSpace c.toNat || Lib.isControl c.toNat || c.toNat == 0xFFFD

def invalidScope (s why : String) : AppError :=
  .invalidArgument ("invalid scope " ++ s.quote ++ ": " ++ why)

/-- The text before the first colon and, when there is one, the text after it. -/
def cutColon (s : List Char) : List Char × Option (List Char) :=
  match s.dropWhile fun c => c != ':' with
  | [] => (s, none)
  | _ :: rest => (s.takeWhile fun c => c != ':', some rest)

/-- `splitScope`: the name is `admin` or has one colon in it. -/
def splitScope (s : String) : String × Option String :=
  match cutColon s.toList with
  | (_, none) => (s, none)
  | (first, some rest) =>
    if String.ofList first = ScopeName.admin.text then
      (ScopeName.admin.text, some (String.ofList rest))
    else
      match cutColon rest with
      | (_, none) => (s, none)
      | (second, some arg) => (String.ofList (first ++ ':' :: second), some (String.ofList arg))

def parseScope (s : String) : Except AppError Scope :=
  if s = "" then .error (.invalidArgument "scope must not be empty")
  else if maxScopeLen < s.utf8ByteSize then
    .error (.invalidArgument ("scope exceeds " ++ toString maxScopeLen ++ " bytes"))
  else if s.toList.any invalidScopeRune then
    .error (invalidScope s "contains whitespace, control characters or invalid UTF-8")
  else
    let (text, arg) := splitScope s
    match ScopeName.ofText text with
    | none => .error (invalidScope s "unknown scope name")
    | some name =>
      if arg = some "" then .error (invalidScope s "argument must not be empty")
      else if arg.any fun a => maxScopeArgLen < a.utf8ByteSize then
        .error (invalidScope s "argument is too long")
      else
        match name.arg, arg with
        | .argNone, some _ => .error (invalidScope s "scope takes no argument")
        | .argSite, some site =>
          if hasWildcard site then
            .error (invalidScope s ("site name argument must not contain wildcards; " ++
              "omit it to allow all sites"))
          else .ok ⟨s, name, site⟩
        | .argSecretGlob, none =>
          .error (invalidScope s "argument \"<namespace>/<path glob>\" is required")
        | _, _ => .ok ⟨s, name, arg.getD ""⟩

/-- The loop of `ParseScopes` after the scopes already `seen`. -/
def parseScopesFrom (seen : List String) : List String → Except AppError (List Scope)
  | [] => .ok []
  | raw :: rest => do
      let scope ← parseScope raw
      if seen.contains scope.raw then .error (invalidScope raw "duplicate scope")
      let scopes ← parseScopesFrom (scope.raw :: seen) rest
      .ok (scope :: scopes)

def parseScopes (texts : List String) : Except AppError (List Scope) := parseScopesFrom [] texts

theorem parse_scope_raw {s : String} {scope : Scope} (parsed : parseScope s = .ok scope) :
    scope.raw = s := by
  unfold parseScope at parsed
  split_ifs at parsed
  dsimp only at parsed
  split at parsed
  · cases parsed
  · split_ifs at parsed
    split at parsed
    · cases parsed
    · split_ifs at parsed
      cases parsed
      rfl
    · cases parsed
    · cases parsed
      rfl

theorem parse_scopes_raw {seen texts : List String} {scopes : List Scope}
    (parsed : parseScopesFrom seen texts = .ok scopes) : scopes.map Scope.raw = texts := by
  induction texts generalizing seen scopes with
  | nil =>
    cases parsed
    rfl
  | cons raw rest ih =>
    unfold parseScopesFrom at parsed
    cases first : parseScope raw with
    | error failure =>
      rw [first] at parsed
      cases parsed
    | ok scope =>
      rw [first] at parsed
      dsimp only [bind, Except.bind] at parsed
      split_ifs at parsed
      cases others : parseScopesFrom (scope.raw :: seen) rest with
      | error failure =>
        rw [others] at parsed
        cases parsed
      | ok tail =>
        rw [others] at parsed
        cases parsed
        rw [List.map_cons, parse_scope_raw first, ih others]

/-! ## What a scope grants -/

/-- Callers set every field they know; an empty one is unset. -/
structure Resource where
  tenantID : String
  namespaceID : String := ""
  namespaceName : String := ""
  siteID : String := ""
  siteName : String := ""
  configGroup : String := ""
  secretPath : String := ""

/-- A scope with an argument it cannot have, or without one it needs, grants nothing. -/
def Scope.grantsPermission (s : Scope) (perm : Permission) : Bool :=
  match s.name.arg with
  | .argNone => s.arg == "" && s.name.perms.contains perm
  | .argSecretGlob => s.arg != "" && s.name.perms.contains perm
  | .argSite | .argGroupGlob => s.name.perms.contains perm

/-- No leading, trailing or doubled slash and no `.` or `..` segment. -/
def cleanSecretPath (path : String) : Bool :=
  path != "" && (path.toList.splitOn '/').all fun segment =>
    segment != [] && segment != ['.'] && segment != ['.', '.']

def Scope.allows (s : Scope) (perm : Permission) (r : Resource) (namespaceName : String) : Bool :=
  s.grantsPermission perm &&
    match s.name.arg with
    | .argSite => s.arg == "" || (r.siteName != "" && r.siteName == s.arg)
    | .argGroupGlob => s.arg == "" || globMatch s.arg r.configGroup
    | .argSecretGlob =>
      let name := if r.namespaceName = "" then namespaceName else r.namespaceName
      if name = "" ∨ (namespaceName ≠ "" ∧ name ≠ namespaceName) ∨
          cleanSecretPath r.secretPath = false then false
      else globMatch s.arg (name ++ "/" ++ r.secretPath)
    | .argNone => true

theorem grants_listed {s : Scope} {perm : Permission} (grants : s.grantsPermission perm = true) :
    perm ∈ s.name.perms := by
  unfold Scope.grantsPermission at grants
  split at grants
  · exact List.contains_iff_mem.mp (Bool.and_eq_true_iff.mp grants).2
  · exact List.contains_iff_mem.mp (Bool.and_eq_true_iff.mp grants).2
  · exact List.contains_iff_mem.mp grants
  · exact List.contains_iff_mem.mp grants

/-- The admin scope is the only one that lets a token write tokens. -/
theorem token_write_admin {s : Scope} (grants : s.grantsPermission .tokenWrite = true) :
    s.name = .admin ∧ s.arg = "" := by
  have listed := grants_listed grants
  have admin : s.name = .admin := by
    cases known : s.name with
    | admin => rfl
    | leaseAcquire | reportWrite | configRead | configPublish | secretRead | identityWrite
    | proxyWrite =>
      rw [known] at listed
      exact absurd listed (by decide)
  unfold Scope.grantsPermission at grants
  rw [admin] at grants
  exact ⟨admin, beq_iff_eq.mp (Bool.and_eq_true_iff.mp grants).1⟩

/-- Outside the admin scope, what a scope grants is node-only or an admin's. -/
theorem perms_within_admin {name : ScopeName} {perm : Permission} (listed : perm ∈ name.perms) :
    perm ∈ rolePermissions .admin ∨ nodeOnly perm = true := by
  cases name <;> simp only [ScopeName.perms, List.mem_cons, List.not_mem_nil, or_false] at listed
  case admin => exact Or.inl listed
  case leaseAcquire => exact Or.inr (listed ▸ rfl)
  case reportWrite => exact Or.inr (listed ▸ rfl)
  case secretRead => exact Or.inr (listed ▸ rfl)
  case configRead => exact Or.inl (listed ▸ by decide)
  all_goals
    rcases listed with rfl | rfl | rfl
    all_goals exact Or.inl (by decide)

/-- An admin scope grants the admin's permissions on every resource. -/
theorem admin_allows {s : Scope} {perm : Permission} (admin : s.name = .admin) (bare : s.arg = "")
    (held : perm ∈ rolePermissions .admin) (r : Resource) (namespaceName : String) :
    s.allows perm r namespaceName = true := by
  unfold Scope.allows Scope.grantsPermission
  rw [admin, bare]
  have granted : ("" == "" && ScopeName.admin.perms.contains perm) = true :=
    Bool.and_eq_true_iff.mpr ⟨rfl, List.contains_iff_mem.mpr held⟩
  exact Bool.and_eq_true_iff.mpr ⟨granted, rfl⟩

end Spinneret.Authz
