import Mathlib.Algebra.Ring.Nat
import Spinneret.Auth.Validate
import Spinneret.Authz.Principal

/-!
# Creating API tokens

`Create` checks the caller's permission, prepares the input and, when the caller is a
token itself, compares the input with the caller's current row. What the new token can
do is decided later, from the stored scopes, when it authenticates. Address parsing and
time formatting belong to a library and are parameters.
-/

namespace Spinneret.Auth

open Spinneret.Authz

set_option autoImplicit false

/-! ## Input -/

structure NamespaceRef where
  id : String
  tenantID : String
  name : String

def NamespaceRef.resource (ns : NamespaceRef) : Resource :=
  { tenantID := ns.tenantID, namespaceID := ns.id, namespaceName := ns.name }

structure CreateTokenInput where
  name : String
  description : String := ""
  scopes : List String
  ipAllowlist : List String := []
  rateLimitRPS : Int := 0
  expiresAt : Option Int := none

/-- A masked network: the address family, the address as a number and the mask length. -/
structure Network where
  v6 : Bool
  addr : Nat
  bits : Nat
  deriving DecidableEq

/-- `Contains` for the address of another network; families are never mixed. -/
def Network.contains (p other : Network) : Bool :=
  let width := if p.v6 then 128 else 32
  p.v6 == other.v6 && p.addr / 2 ^ (width - p.bits) == other.addr / 2 ^ (width - p.bits)

structure Library where
  parsePrefixes : List String → Except String (List Network)
  networkText : Network → String
  rfc3339 : Int → String

structure PreparedToken where
  scopes : List String
  allow : List String
  parsed : List Scope
  prefixes : List Network

def maxTokenNameLength : Nat := 64
def maxTokenScopes : Nat := 64
def maxTokenAllowlist : Nat := 256
def maxTokenRateLimitRPS : Int := 1000000

def validateSiteArgument (s : Scope) : Except AppError Unit :=
  check (s.name.arg ≠ .argSite ∨ s.arg = "" ∨ validSiteName s.arg = true)
    (.invalidArgument ("invalid scope " ++ s.raw.quote ++
      ": site name argument is not a valid site name"))

def prepareToken (lib : Library) (input : CreateTokenInput) (now : Int) :
    Except AppError PreparedToken := do
  validateName "name" input.name maxTokenNameLength
  validateText "description" input.description maxDescriptionLength
  check (input.scopes ≠ []) (.invalidArgument "at least one scope is required")
  check (input.scopes.length ≤ maxTokenScopes)
    (.invalidArgument ("at most " ++ toString maxTokenScopes ++ " scopes are allowed"))
  let scopes ← parseScopes input.scopes
  scopes.forM validateSiteArgument
  check (input.ipAllowlist.length ≤ maxTokenAllowlist)
    (.invalidArgument ("at most " ++ toString maxTokenAllowlist ++
      " IP allowlist entries are allowed"))
  let prefixes ← (lib.parsePrefixes input.ipAllowlist).mapError fun cause =>
    .invalidArgument ("ip_allowlist: " ++ cause)
  check (0 ≤ input.rateLimitRPS ∧ input.rateLimitRPS ≤ maxTokenRateLimitRPS)
    (.invalidArgument ("rate_limit_rps must be between 0 and " ++ toString maxTokenRateLimitRPS))
  check (input.expiresAt.all fun expiry => now < expiry)
    (.invalidArgument "expires_at must be in the future")
  return { scopes := scopes.map Scope.raw, allow := prefixes.map lib.networkText,
           parsed := scopes, prefixes := prefixes }

/-! ## A token created by a token -/

def prefixWithinAny (child : Network) (parents : List Network) : Bool :=
  parents.any fun p => decide (p.bits ≤ child.bits) && p.contains child

def validateChildAllowlist (lib : Library) (parentAllow : List String) (child : List Network) :
    Except AppError Unit := do
  let parents ← (lib.parsePrefixes parentAllow).mapError fun _ => .internal
  if parents = [] then return
  check (child ≠ [])
    (.permissionDenied "ip_allowlist is required because the creating token has one")
  child.forM fun c => check (prefixWithinAny c parents = true)
    (.permissionDenied ("ip_allowlist entry " ++ lib.networkText c ++
      " is not within the creating token's allowlist"))

def validateChildExpiry (lib : Library) (parentExpiry : Int) (expiresAt : Option Int) :
    Except AppError Unit :=
  match expiresAt with
  | none => .error (.permissionDenied ("expires_at is required and must not be after the " ++
      "creating token's expiry (" ++ lib.rfc3339 parentExpiry ++ ")"))
  | some expiry => check (expiry ≤ parentExpiry)
      (.permissionDenied ("expires_at must not be after the creating token's expiry (" ++
        lib.rfc3339 parentExpiry ++ ")"))

def validateChildToken (lib : Library) (parent : TokenRow) (input : CreateTokenInput)
    (prep : PreparedToken) (now : Int) : Except AppError Unit := do
  check (parent.revokedAt = none) (.unauthenticated .tokenRevoked "API token has been revoked")
  check (parent.expiresAt.all fun expiry => now < expiry)
    (.unauthenticated .tokenExpired "API token has expired")
  prep.parsed.forM fun s => check (s.name ≠ .admin)
    (.permissionDenied "an API token cannot create tokens with the \"admin\" scope")
  match parent.expiresAt with
  | none => pure ()
  | some expiry => validateChildExpiry lib expiry input.expiresAt
  validateChildAllowlist lib parent.ipAllowlist prep.prefixes
  check (parent.rateLimitRps ≤ 0 ∨
      (0 < input.rateLimitRPS ∧ input.rateLimitRPS ≤ parent.rateLimitRps))
    (.permissionDenied ("rate_limit_rps must be between 1 and the creating token's limit (" ++
      toString parent.rateLimitRps ++ ")"))

def checkTokenCreatedByToken (lib : Library) (rows : List TokenRow) (p : Principal)
    (input : CreateTokenInput) (prep : PreparedToken) (now : Int) : Except AppError Unit :=
  if p.kind ≠ .token then .ok ()
  else
    match rows.find? fun row => row.id == p.id with
    | none => .error (.unauthenticated .tokenInvalid "API token is not valid")
    | some parent => validateChildToken lib parent input prep now

/-! ## Creation and authentication -/

/-- `Create`, with the id and the hash of the generated token: the stored row. A revoked token
leaves its name to others. -/
def create (lib : Library) (rows : List TokenRow) (p : Principal) (ns : NamespaceRef)
    (input : CreateTokenInput) (now : Int) (id hash : String) : Except AppError TokenRow := do
  p.require .tokenWrite ns.resource
  let prep ← prepareToken lib input now
  checkTokenCreatedByToken lib rows p input prep now
  check (∀ row ∈ rows, row.id ≠ id ∧ row.hash ≠ hash ∧
      ¬(row.revokedAt = none ∧ row.namespaceID = ns.id ∧ row.name = input.name))
    (.alreadyExists ("token " ++ input.name.quote ++ " already exists"))
  return { hash := hash, id := id, tenantID := ns.tenantID, namespaceID := ns.id,
           namespaceName := ns.name, name := input.name, scopes := prep.scopes,
           ipAllowlist := prep.allow, rateLimitRps := input.rateLimitRPS,
           expiresAt := input.expiresAt }

def Library.parsers (lib : Library) : Parsers Scope Network where
  parseScopes texts := (parseScopes texts).toOption
  parseNetworks texts := (lib.parsePrefixes texts).toOption

/-- The principal of `authenticateToken`; `namespaceName` is the namespace's name at the
time the row is read. -/
def tokenPrincipal (lib : Library) (row : TokenRow) (namespaceName clientIP : String) : Principal :=
  let record := recordFromRow lib.parsers { row with namespaceName := namespaceName }
  { kind := .token, id := record.id, tenantID := record.tenantID,
    namespaceID := record.namespaceID, namespaceName := record.namespaceName,
    scopes := record.scopes, clientIP := clientIP }

section Creation

variable {lib : Library} {rows : List TokenRow} {p : Principal} {ns : NamespaceRef}
  {input : CreateTokenInput} {now : Int} {id hash : String} {row : TokenRow}

/-- The stored scopes are those of the input, and parse to what was checked. -/
theorem prepare_token_scopes {prep : PreparedToken}
    (prepared : prepareToken lib input now = .ok prep) :
    parseScopes prep.scopes = .ok prep.parsed := by
  unfold prepareToken at prepared
  simp only [bind_eq_ok] at prepared
  obtain ⟨⟨⟩, -, ⟨⟩, -, ⟨⟩, -, ⟨⟩, -, scopes, parsed, ⟨⟩, -, ⟨⟩, -, prefixes, -, ⟨⟩, -, ⟨⟩, -,
    prepared⟩ := prepared
  cases prepared
  dsimp only
  rw [parse_scopes_raw parsed]
  exact parsed

theorem child_token_plain {parent : TokenRow} {prep : PreparedToken}
    (valid : validateChildToken lib parent input prep now = .ok ()) :
    ∀ s ∈ prep.parsed, s.name ≠ .admin := by
  unfold validateChildToken at valid
  simp only [bind_eq_ok] at valid
  obtain ⟨⟨⟩, -, ⟨⟩, -, ⟨⟩, plain, -⟩ := valid
  exact fun s member => check_ok (for_m_ok plain s member)

/-- What `Create` has checked once it stores a token for a token. -/
theorem create_by_token (token : p.kind = .token)
    (created : create lib rows p ns input now id hash = .ok row) :
    p.can .tokenWrite ns.resource = true ∧ row.tenantID = ns.tenantID ∧ row.namespaceID = ns.id ∧
      ∃ scopes, parseScopes row.scopes = .ok scopes ∧ ∀ s ∈ scopes, s.name ≠ .admin := by
  unfold create at created
  simp only [bind_eq_ok] at created
  obtain ⟨⟨⟩, required, prep, prepared, ⟨⟩, allowed, ⟨⟩, -, created⟩ := created
  cases created
  refine ⟨require_ok required, rfl, rfl, prep.parsed, prepare_token_scopes prepared, ?_⟩
  unfold checkTokenCreatedByToken at allowed
  rw [if_neg (not_not.mpr token)] at allowed
  split at allowed
  · cases allowed
  · exact child_token_plain allowed

end Creation

/-- A token that a token creates holds nothing its creator lacks, node-only permissions
apart: those come with scopes, which the creator need not hold itself. -/
theorem created_token_within_creator (lib : Library) (rows : List TokenRow) (p : Principal)
    (ns : NamespaceRef) (input : CreateTokenInput) (now : Int) (id hash : String) (row : TokenRow)
    (token : p.kind = .token) (created : create lib rows p ns input now id hash = .ok row)
    (namespaceName clientIP : String) (perm : Permission) (r : Resource)
    (operated : nodeOnly perm = false)
    (held : (tokenPrincipal lib row namespaceName clientIP).can perm r = true) :
    p.can perm r = true := by
  obtain ⟨mayCreate, tenant, space, -⟩ := create_by_token token created
  obtain ⟨-, -, -, -, bound, maker, listed, makes⟩ := (token_can_iff token).mp mayCreate
  obtain ⟨valid, shared, formed, named, within, s, -, grants⟩ := (token_can_iff rfl).mp held
  have admin := token_write_admin (Bool.and_eq_true_iff.mp makes).1
  have known : perm ∈ rolePermissions .admin := by
    rcases perms_within_admin (grants_listed (Bool.and_eq_true_iff.mp grants).1) with known | node
    · exact known
    · exact absurd (node.symm.trans operated) nofun
  have same : p.tokenBoundTo r.tenantID r.namespaceID = true := by
    obtain ⟨someTenant, someSpace, ofTenant, ofSpace⟩ := bound_to_iff.mp bound
    obtain ⟨-, -, resourceTenant, resourceSpace⟩ := bound_to_iff.mp within
    refine bound_to_iff.mpr ⟨someTenant, someSpace, ?_, ?_⟩
    · exact ofTenant.trans (tenant.symm.trans resourceTenant)
    · exact ofSpace.trans (space.symm.trans resourceSpace)
  exact (token_can_iff token).mpr ⟨valid, shared, formed, named, same, maker, listed,
    admin_allows admin.1 admin.2 known r p.namespaceName⟩

def plainLibrary : Library where
  parsePrefixes _ := .ok []
  networkText _ := ""
  rfc3339 := toString

def prodNamespace : NamespaceRef := { id := "ns1", tenantID := "t1", name := "prod" }

def adminRow : TokenRow :=
  { hash := "h0", id := "tok0", tenantID := "t1", namespaceID := "ns1", namespaceName := "prod",
    name := "parent", scopes := ["admin"] }

def adminToken : Principal := tokenPrincipal plainLibrary adminRow "prod" ""

def nodeInput : CreateTokenInput :=
  { name := "node", scopes := ["lease:acquire", "proxy:write"] }

theorem admin_child_within_creator :
    ∃ row, create plainLibrary [adminRow] adminToken prodNamespace nodeInput 10 "tok1" "h1" =
        .ok row ∧
      (tokenPrincipal plainLibrary row "prod" "").can .proxyOperate prodNamespace.resource = true ∧
      adminToken.can .proxyOperate prodNamespace.resource = true := by
  have held : ∃ row, create plainLibrary [adminRow] adminToken prodNamespace nodeInput 10 "tok1"
        "h1" = .ok row ∧
      (tokenPrincipal plainLibrary row "prod" "").can .proxyOperate prodNamespace.resource =
        true :=
    ⟨_, rfl, by decide +kernel⟩
  obtain ⟨row, created, can⟩ := held
  exact ⟨row, created, can, created_token_within_creator plainLibrary [adminRow] adminToken
    prodNamespace nodeInput 10 "tok1" "h1" row rfl created "prod" "" .proxyOperate
    prodNamespace.resource rfl can⟩

/-- An admin token mints a token that acquires leases, which it cannot do itself. -/
theorem admin_child_acquires_leases :
    ∃ row, create plainLibrary [adminRow] adminToken prodNamespace nodeInput 10 "tok1" "h1" =
        .ok row ∧
      (tokenPrincipal plainLibrary row "prod" "").can .leaseAcquire prodNamespace.resource = true ∧
      adminToken.can .leaseAcquire prodNamespace.resource = false :=
  ⟨_, rfl, by decide +kernel, by decide +kernel⟩

end Spinneret.Auth
