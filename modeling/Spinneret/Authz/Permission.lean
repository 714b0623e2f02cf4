import Mathlib.Data.List.Basic

/-!
# Permissions and roles

Permissions are texts in the source; a text that is no known permission is kept as
`unknown` and denied. The permission sets of the roles grow from viewer to owner.
Application errors carry a code, a reason and a message.
-/

namespace Spinneret.Authz

set_option autoImplicit false

/-! ## Application errors -/

inductive Code where
  | invalidArgument
  | notFound
  | alreadyExists
  | failedPrecondition
  | permissionDenied
  | unauthenticated
  | internal
  deriving DecidableEq, Repr

inductive Reason where
  | tokenInvalid
  | tokenExpired
  | tokenRevoked
  | sessionInvalid
  | loginThrottled
  | ipNotAllowed
  | scopeMissing
  | permissionDenied
  | siteUnknown
  | invalidArgument
  | notFound
  | alreadyExists
  | failedPrecondition
  | internal
  deriving DecidableEq, Repr

structure AppError where
  code : Code
  reason : Reason
  message : String
  deriving DecidableEq, Repr

namespace AppError

def invalidArgument (message : String) : AppError :=
  ⟨.invalidArgument, .invalidArgument, message⟩

def notFound (message : String) : AppError := ⟨.notFound, .notFound, message⟩

def alreadyExists (message : String) : AppError := ⟨.alreadyExists, .alreadyExists, message⟩

def failedPrecondition (message : String) : AppError :=
  ⟨.failedPrecondition, .failedPrecondition, message⟩

def permissionDenied (message : String) : AppError :=
  ⟨.permissionDenied, .permissionDenied, message⟩

def unauthenticated (reason : Reason) (message : String) : AppError :=
  ⟨.unauthenticated, reason, message⟩

def internal : AppError := ⟨.internal, .internal, "internal error"⟩

end AppError

/-! ## Permissions -/

inductive Permission where
  | tenantManage | kekManage
  | namespaceRead | namespaceWrite
  | siteRead | siteWrite
  | identityRead | identityWrite | identityOperate | identityReveal
  | proxyRead | proxyWrite | proxyOperate
  | policyRead | policyWrite | policyPublish
  | breakerRead | breakerOperate
  | configRead | configWrite | configPublish
  | secretList | secretWrite | secretReveal
  | tokenRead | tokenWrite
  | userRead | userWrite
  | auditRead
  | notifyRead | notifyWrite
  | dashboardRead
  | leaseAcquire | reportWrite | secretRead
  | unknown (name : String)
  deriving DecidableEq, Repr

def Permission.name : Permission → String
  | .tenantManage => "tenant:manage"
  | .kekManage => "kek:manage"
  | .namespaceRead => "namespace:read"
  | .namespaceWrite => "namespace:write"
  | .siteRead => "site:read"
  | .siteWrite => "site:write"
  | .identityRead => "identity:read"
  | .identityWrite => "identity:write"
  | .identityOperate => "identity:operate"
  | .identityReveal => "identity:reveal"
  | .proxyRead => "proxy:read"
  | .proxyWrite => "proxy:write"
  | .proxyOperate => "proxy:operate"
  | .policyRead => "policy:read"
  | .policyWrite => "policy:write"
  | .policyPublish => "policy:publish"
  | .breakerRead => "breaker:read"
  | .breakerOperate => "breaker:operate"
  | .configRead => "config:read"
  | .configWrite => "config:write"
  | .configPublish => "config:publish"
  | .secretList => "secret:list"
  | .secretWrite => "secret:write"
  | .secretReveal => "secret:reveal"
  | .tokenRead => "token:read"
  | .tokenWrite => "token:write"
  | .userRead => "user:read"
  | .userWrite => "user:write"
  | .auditRead => "audit:read"
  | .notifyRead => "notify:read"
  | .notifyWrite => "notify:write"
  | .dashboardRead => "dashboard:read"
  | .leaseAcquire => "lease:acquire"
  | .reportWrite => "report:write"
  | .secretRead => "secret:read"
  | .unknown name => name

def validPermission : Permission → Bool
  | .unknown _ => false
  | _ => true

/-- Held by platform administrators and the system only. -/
def platformOnly (perm : Permission) : Bool := perm == .tenantManage || perm == .kekManage

/-- Granted through token scopes only. -/
def nodeOnly (perm : Permission) : Bool :=
  perm == .leaseAcquire || perm == .reportWrite || perm == .secretRead

/-! ## Roles -/

inductive Role where
  | owner
  | admin
  | operator
  | viewer
  deriving DecidableEq, Repr

def Role.name : Role → String
  | .owner => "owner"
  | .admin => "admin"
  | .operator => "operator"
  | .viewer => "viewer"

/-- `ValidRole`, with the role that the text names. -/
def Role.ofName (name : String) : Option Role :=
  [Role.owner, .admin, .operator, .viewer].find? fun role => role.name == name

def viewerPermissions : List Permission :=
  [.namespaceRead, .siteRead, .identityRead, .proxyRead, .policyRead, .breakerRead, .configRead,
    .secretList, .dashboardRead, .auditRead, .notifyRead]

def operatorPermissions : List Permission :=
  viewerPermissions ++
    [.identityWrite, .identityOperate, .proxyWrite, .proxyOperate, .policyWrite, .configWrite,
      .breakerOperate]

def adminPermissions : List Permission :=
  operatorPermissions ++
    [.siteWrite, .policyPublish, .configPublish, .secretWrite, .secretReveal, .identityReveal,
      .tokenRead, .tokenWrite, .notifyWrite]

def ownerPermissions : List Permission :=
  adminPermissions ++ [.namespaceWrite, .userRead, .userWrite]

def rolePermissions : Role → List Permission
  | .viewer => viewerPermissions
  | .operator => operatorPermissions
  | .admin => adminPermissions
  | .owner => ownerPermissions

def roleHas (role : Role) (perm : Permission) : Bool := (rolePermissions role).contains perm

/-- Permissions that a role binding may add to its role. -/
def validExtraPermission : Permission → Bool
  | .configPublish | .secretReveal | .identityReveal | .policyPublish => true
  | _ => false

end Spinneret.Authz
