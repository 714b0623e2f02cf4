import Spinneret.Auth.Cache
import Spinneret.Authz.Scope

/-!
# Principals

Whether an authenticated caller holds a permission on a resource. Users hold role
bindings, tokens are bound to one namespace and hold scopes; the system and platform
administrators hold every known permission. Everything unknown is denied.
-/

namespace Spinneret.Authz

open Spinneret.Auth (Binding)

set_option autoImplicit false

/-! ## Role bindings -/

/-- The role, or a valid extra permission, of a binding; an unknown role grants nothing. -/
def grants (b : Binding) (perm : Permission) : Bool :=
  match Role.ofName b.role with
  | none => false
  | some role => roleHas role perm || (validExtraPermission perm && b.extra.contains perm.name)

/-- What a binding restricted to sites still holds on its namespace. -/
def siteRestrictedNamespacePermission (perm : Permission) : Bool :=
  perm == .proxyRead || perm == .namespaceRead

def allows (b : Binding) (perm : Permission) (r : Resource) : Bool :=
  if b.tenantID = "" ∨ b.tenantID ≠ r.tenantID then false
  else if b.namespaceID ≠ "" ∧ b.namespaceID ≠ r.namespaceID then false
  else if grants b perm = false then false
  else if b.siteIDs = [] then true
  else if r.siteID = "" then
    siteRestrictedNamespacePermission perm && b.namespaceID != ""
  else b.siteIDs.contains r.siteID

/-! ## Principals -/

inductive PrincipalKind where
  | user
  | token
  | system
  deriving DecidableEq, Repr

/-- `tenantID` is the active tenant of a user, and the fixed tenant of a token. -/
structure Principal where
  kind : PrincipalKind
  id : String
  tenantID : String := ""
  namespaceID : String := ""
  namespaceName : String := ""
  isPlatformAdmin : Bool := false
  bindings : List Binding := []
  scopes : List Scope := []
  clientIP : String := ""

def Principal.tokenBoundTo (p : Principal) (tenantID namespaceID : String) : Bool :=
  decide (p.tenantID ≠ "" ∧ p.namespaceID ≠ "" ∧ p.tenantID = tenantID ∧
    p.namespaceID = namespaceID)

/-- A tenant is given, and a site only with its namespace. -/
def wellFormed (r : Resource) : Bool :=
  decide (r.tenantID ≠ "" ∧ (r.siteID = "" ∨ r.namespaceID ≠ ""))

def Principal.can (p : Principal) (perm : Permission) (r : Resource) : Bool :=
  validPermission perm &&
    match p.kind with
    | .system => true
    | .user =>
      if p.isPlatformAdmin then true
      else if platformOnly perm || !wellFormed r then false
      else p.bindings.any fun b => allows b perm r
    | .token =>
      if platformOnly perm || !wellFormed r || r.namespaceID == "" ||
          !p.tokenBoundTo r.tenantID r.namespaceID then false
      else p.scopes.any fun s => s.allows perm r p.namespaceName

def Principal.require (p : Principal) (perm : Permission) (r : Resource) : Except AppError Unit :=
  if p.can perm r then .ok ()
  else if p.kind = .token then
    .error ⟨.permissionDenied, .scopeMissing, "token scopes do not grant " ++ perm.name⟩
  else .error (.permissionDenied ("permission " ++ perm.name ++ " required"))

/-- `superuser`: the system, or a user who is a platform administrator. -/
def Principal.superuser (p : Principal) : Bool :=
  p.kind == .system || (p.kind == .user && p.isPlatformAdmin)

def Principal.tenantOwner (p : Principal) (tenantID : String) : Bool :=
  p.superuser || (p.kind == .user && p.bindings.any fun b =>
    decide (b.tenantID = tenantID ∧ b.role = Role.owner.name ∧ b.namespaceID = "" ∧
      b.siteIDs = []))

section Facts

variable {p : Principal} {perm : Permission} {r : Resource}

theorem require_ok (required : p.require perm r = .ok ()) : p.can perm r = true := by
  unfold Principal.require at required
  split_ifs at required with held
  exact held

/-- What a token holds lies in its own namespace and comes from one of its scopes. -/
theorem token_can_iff (token : p.kind = .token) :
    p.can perm r = true ↔ validPermission perm = true ∧ platformOnly perm = false ∧
      wellFormed r = true ∧ r.namespaceID ≠ "" ∧
      p.tokenBoundTo r.tenantID r.namespaceID = true ∧
      ∃ s ∈ p.scopes, s.allows perm r p.namespaceName = true := by
  unfold Principal.can
  rw [token, Bool.and_eq_true]
  refine and_congr_right fun _ => ?_
  dsimp only
  split_ifs with refused
  · simp only [Bool.or_eq_true, Bool.not_eq_true', beq_iff_eq] at refused
    constructor
    · nofun
    · rintro ⟨open_, formed, named, bound, -⟩
      rcases refused with ((only | unformed) | unnamed) | unbound
      · exact absurd (only.symm.trans open_) nofun
      · exact absurd (unformed.symm.trans formed) nofun
      · exact absurd unnamed named
      · exact absurd (unbound.symm.trans bound) nofun
  · simp only [Bool.or_eq_true, Bool.not_eq_true', beq_iff_eq, not_or, Bool.not_eq_true,
      Bool.not_eq_false] at refused
    obtain ⟨⟨⟨open_, formed⟩, named⟩, bound⟩ := refused
    rw [List.any_eq_true]
    exact ⟨fun held => ⟨open_, formed, named, bound, held⟩, fun held => held.2.2.2.2⟩

theorem bound_to_iff {tenantID namespaceID : String} :
    p.tokenBoundTo tenantID namespaceID = true ↔
      p.tenantID ≠ "" ∧ p.namespaceID ≠ "" ∧ p.tenantID = tenantID ∧ p.namespaceID = namespaceID :=
  decide_eq_true_iff

end Facts

end Spinneret.Authz
