import Spinneret.Lib.LoadingCacheFresh

/-!
# The token and user caches of an instance

Both caches are loading caches with a generation. The token cache keeps records by
token hash and unknown hashes on a shelf of their own; the user cache keeps users,
read with their role bindings in a second query, and the existence of tenants. The
bus events of the tokens channel invalidate them.
-/

namespace Spinneret.Auth

open Spinneret.Lib Spinneret.Lib.LoadingCache

set_option autoImplicit false

/-! ## Tokens -/

/-- A row of `AuthTokenByHash`, with the hash it is found by. -/
structure TokenRow where
  hash : String
  id : String
  tenantID : String := ""
  namespaceID : String := ""
  namespaceName : String := ""
  name : String := ""
  scopes : List String := []
  ipAllowlist : List String := []
  rateLimitRps : Int := 0
  expiresAt : Option Int := none
  revokedAt : Option Int := none

structure TokenRecord (Scope Network : Type) where
  id : String
  tenantID : String
  namespaceID : String
  namespaceName : String
  name : String
  scopes : List Scope
  allow : List Network
  rateLimitRPS : Int
  expiresAt : Option Int
  revoked : Bool
  corrupt : Bool

/-- The parsers of stored scopes and allowlists; none on an error. -/
structure Parsers (Scope Network : Type) where
  parseScopes : List String → Option (List Scope)
  parseNetworks : List String → Option (List Network)

variable {Scope Network : Type}

def recordFromRow (parsers : Parsers Scope Network) (row : TokenRow) :
    TokenRecord Scope Network where
  id := row.id
  tenantID := row.tenantID
  namespaceID := row.namespaceID
  namespaceName := row.namespaceName
  name := row.name
  scopes := (parsers.parseScopes row.scopes).getD []
  allow := (parsers.parseNetworks row.ipAllowlist).getD []
  rateLimitRPS := row.rateLimitRps
  expiresAt := row.expiresAt
  revoked := row.revokedAt.isSome
  corrupt :=
    (parsers.parseScopes row.scopes).isNone || (parsers.parseNetworks row.ipAllowlist).isNone

inductive TokenChange where
  | insert (row : TokenRow)
  | revoke (id : String) (now : Int)

/-- `AuthTokenInsert`, refused when the id or the hash is taken. -/
def insertToken (rows : List TokenRow) (row : TokenRow) : List TokenRow :=
  if rows.any fun other => other.id == row.id || other.hash == row.hash then rows
  else rows ++ [row]

/-- `AuthTokenRevoke`: the time of the first revocation stays. -/
def revokeToken (id : String) (now : Int) (rows : List TokenRow) : List TokenRow :=
  rows.map fun row =>
    if row.id = id then { row with revokedAt := some (row.revokedAt.getD now) } else row

def TokenChange.apply (rows : List TokenRow) : TokenChange → List TokenRow
  | .insert row => insertToken rows row
  | .revoke id now => revokeToken id now rows

inductive TokenShelf where
  | positive
  | negative
  deriving DecidableEq

inductive TokenDrop where
  | dropToken (id : String)
  | purge
  deriving DecidableEq

def tokenCache (parsers : Parsers Scope Network) :
    Design String (TokenRecord Scope Network) TokenShelf TokenChange TokenDrop (List TokenRow) where
  initial := []
  apply := TokenChange.apply
  load := fun key => .read fun rows =>
    .done ((rows.find? fun row => row.hash == key).map (recordFromRow parsers))
  shelves := fun _ => [.positive, .negative]
  shelve
    | some _ => some .positive
    | none => some .negative
  drops
    | .dropToken id, .positive, _, some record => record.id == id
    | .dropToken _, _, _, _ => false
    | .purge, _, _, _ => true

/-! ## Users -/

structure UserRow where
  username : String
  disabled : Bool
  isPlatformAdmin : Bool
  /-- In microseconds. -/
  passwordChangedAt : Option Int

structure BindingRow where
  id : String
  tenantID : String
  role : String
  namespaceID : Option String
  siteIds : List String
  extraPermissions : List String

structure Binding where
  id : String
  tenantID : String
  namespaceID : String
  role : String
  siteIDs : List String
  extra : List String

structure UserRecord where
  id : String
  username : String
  disabled : Bool
  platformAdmin : Bool
  credential : String
  bindings : List Binding

structure UserTables where
  users : String → Option UserRow
  bindings : String → List BindingRow
  tenants : String → Bool

/-- A change of one user, of its row and its role bindings, or of everything. -/
inductive UserChange where
  | ofUser (id : String) (row : Option UserRow) (bindings : List BindingRow)
  | ofAll (tables : UserTables)

def UserChange.apply (tables : UserTables) : UserChange → UserTables
  | .ofUser id row bindings =>
    { tables with
      users := Function.update tables.users id row
      bindings := Function.update tables.bindings id bindings }
  | .ofAll replaced => replaced

def credentialOf (passwordChangedAt : Option Int) : String :=
  match passwordChangedAt with
  | none => "0"
  | some micros => toString micros

def bindingFromRow (row : BindingRow) : Binding where
  id := row.id
  tenantID := row.tenantID
  namespaceID := row.namespaceID.getD ""
  role := row.role
  siteIDs := row.siteIds
  extra := row.extraPermissions

/-- What the user cache is asked for, with the keys of its shared loads. -/
inductive UserKey where
  | user (id : String)
  | tenant (id : String)
  deriving DecidableEq

inductive UserAnswer where
  | user (record : UserRecord)
  | tenant (exist : Bool)

inductive UserShelf where
  | users
  | tenants
  deriving DecidableEq

inductive UserDrop where
  | dropUser (id : String)
  | purge
  deriving DecidableEq

/-- The user and then its role bindings are read; an unknown user ends the load. -/
def loadUserRecord (id : String) : Load UserTables UserAnswer :=
  .read fun first =>
    match first.users id with
    | none => .done none
    | some row => .read fun second =>
      .done (some (.user
        { id := id
          username := row.username
          disabled := row.disabled
          platformAdmin := row.isPlatformAdmin
          credential := credentialOf row.passwordChangedAt
          bindings := (second.bindings id).map bindingFromRow }))

def userCache (tables : UserTables) :
    Design UserKey UserAnswer UserShelf UserChange UserDrop UserTables where
  initial := tables
  apply := UserChange.apply
  load
    | .user id => loadUserRecord id
    | .tenant id => .read fun tables => .done (some (.tenant (tables.tenants id)))
  shelves
    | .user _ => [.users]
    | .tenant _ => [.tenants]
  shelve
    | some (.user _) => some .users
    | some (.tenant _) => some .tenants
    | none => none
  drops
    | .dropUser id, .users, key, _ => key == .user id
    | .dropUser _, .tenants, _, _ => false
    | .purge, _, _, _ => true

/-! ## Events -/

def eventTokenRevoked : String := "token.revoked"

def eventUserChanged : String := "user.changed"

/-- An event of the tokens channel with its decoded data. -/
structure TokensEvent where
  type : String
  tokenID : String := ""
  userID : String := ""
  all : Bool := false

inductive Invalidation where
  | ignored
  | tokens (drop : TokenDrop)
  | users (drop : UserDrop)

def invalidateUser (userID : String) : UserDrop :=
  if userID = "" then .purge else .dropUser userID

def onEvent (event : TokensEvent) : Invalidation :=
  if event.type = eventUserChanged ∧ (event.all = true ∨ event.userID = "") then
    .users (invalidateUser "")
  else if event.type = eventUserChanged then .users (invalidateUser event.userID)
  else if event.tokenID ≠ "" then .tokens (.dropToken event.tokenID)
  else if event.all = true then .tokens .purge
  else .ignored

def publishRevoked (tokenID : String) : TokensEvent :=
  { type := eventTokenRevoked, tokenID := tokenID }

def publishUserChanged (userID : String) : TokensEvent :=
  { type := eventUserChanged, userID := userID, all := userID == "" }

def UserChange.userID : UserChange → String
  | .ofUser id _ _ => id
  | .ofAll _ => ""

end Spinneret.Auth
