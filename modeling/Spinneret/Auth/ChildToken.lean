import Spinneret.Auth.Allowlist

/-!
# Limits of tokens that tokens create

A token may create tokens only within its own expiry, allowlist and rate. The limits are
compared once, when the token is created, on parsed networks; they take effect later, when
the stored row of the created token is read back and a client address is looked up in it.
-/

namespace Spinneret.Auth

open Spinneret.Authz

set_option autoImplicit false

/-! ## Authentication -/

def tokenPrefix : String := "spn_"

def tokenBodyLen : Nat := 43

def isBase62 (c : Char) : Bool := c.isDigit || c.isLower || c.isUpper

def wellFormedToken (s : String) : Bool :=
  s.utf8ByteSize == tokenPrefix.length + tokenBodyLen &&
    tokenPrefix.toList.isPrefixOf s.toList && (s.toList.drop tokenPrefix.length).all isBase62

/-- The zero time; times count from it. -/
def zeroTime : Int := 0

/-- The zero time is no expiry. -/
def expired (expiresAt : Option Int) (now : Int) : Bool :=
  expiresAt.any fun expiry => decide (expiry ≠ zeroTime) && decide (expiry ≤ now)

def admitsClient (net : Netip) (allow : List Network) (clientIP : String) : Bool :=
  allow.isEmpty || (net.parseAddr clientIP).any fun ip => allowedIP (some ip) allow

structure AuthResult where
  principal : Principal
  rateLimitRPS : Int

/-- `authenticateToken` with the table its record was read from; `namespaceName` is the
namespace's name at that time. -/
def authenticateToken (net : Netip) (rfc3339 : Int → String) (hashToken : String → String)
    (rows : List TokenRow) (namespaceName : String) (now : Int) (token clientIP : String) :
    Except AppError AuthResult := do
  check (wellFormedToken token = true) (.unauthenticated .tokenInvalid "invalid API token")
  match rows.find? fun row => row.hash == hashToken token with
  | none => .error (.unauthenticated .tokenInvalid "invalid API token")
  | some row =>
    let record := recordFromRow (net.library rfc3339).parsers
      { row with namespaceName := namespaceName }
    check (record.corrupt = false) (.unauthenticated .tokenInvalid "invalid API token")
    check (record.revoked = false) (.unauthenticated .tokenRevoked "API token has been revoked")
    check (expired record.expiresAt now = false)
      (.unauthenticated .tokenExpired "API token has expired")
    check (admitsClient net record.allow clientIP = true)
      ⟨.permissionDenied, .ipNotAllowed, "client address is not allowed for this API token"⟩
    return { principal := tokenPrincipal (net.library rfc3339) row namespaceName clientIP,
             rateLimitRPS := record.rateLimitRPS }

/-! ## What creation has compared -/

section Creation

variable {net : Netip} {rfc3339 : Int → String} {rows : List TokenRow} {p : Principal}
  {ns : NamespaceRef} {input : CreateTokenInput} {now : Int} {id hash : String} {row : TokenRow}
  {prep : PreparedToken}

/-- The prepared networks are those that the stored texts stand for. -/
theorem prepare_token_allow
    (prepared : prepareToken (net.library rfc3339) input now = .ok prep) :
    parsePrefixes net prep.allow = .ok prep.prefixes ∧
      ∀ expiry ∈ input.expiresAt, now < expiry := by
  unfold prepareToken at prepared
  simp only [bind_eq_ok] at prepared
  obtain ⟨⟨⟩, -, ⟨⟩, -, ⟨⟩, -, ⟨⟩, -, scopes, -, ⟨⟩, -, ⟨⟩, -, prefixes, read, ⟨⟩, -, ⟨⟩, future,
    prepared⟩ := prepared
  cases prepared
  constructor
  · exact parse_prefixes_text (map_error_ok read)
  · intro expiry given
    have late := check_ok future
    rw [Option.mem_def.mp given] at late
    exact of_decide_eq_true late

/-- Every child network lies within the parent's list, which is then not left empty. -/
theorem child_allowlist_within {parentAllow : List String} {child : List Network}
    (valid : validateChildAllowlist (net.library rfc3339) parentAllow child = .ok ()) :
    ∃ parents, parsePrefixes net parentAllow = .ok parents ∧
      (parents = [] ∨ (child ≠ [] ∧ ∀ c ∈ child, prefixWithinAny c parents = true)) := by
  unfold validateChildAllowlist at valid
  obtain ⟨parents, read, valid⟩ := bind_eq_ok.mp valid
  refine ⟨parents, map_error_ok read, ?_⟩
  by_cases empty : parents = []
  · exact .inl empty
  · rw [if_neg empty] at valid
    obtain ⟨⟨⟩, some, valid⟩ := bind_eq_ok.mp valid
    exact .inr ⟨check_ok some, fun c listed => check_ok (for_m_ok valid c listed)⟩

theorem child_expiry_within {limit : Int} {expiresAt : Option Int}
    (valid : validateChildExpiry (net.library rfc3339) limit expiresAt = .ok ()) :
    ∃ expiry ∈ expiresAt, expiry ≤ limit := by
  cases expiresAt with
  | none => cases valid
  | some expiry => exact ⟨expiry, rfl, check_ok valid⟩

theorem child_rate_within {limit rate : Int} {failure : AppError}
    (valid : check (limit ≤ 0 ∨ (0 < rate ∧ rate ≤ limit)) failure = .ok ()) :
    0 < limit → 0 < rate ∧ rate ≤ limit :=
  fun limited => (check_ok valid).resolve_left (Int.not_le.mpr limited)

structure WithinParent (net : Netip) (parent : TokenRow) (input : CreateTokenInput)
    (child : List Network) : Prop where
  expiry : ∀ limit ∈ parent.expiresAt, ∃ expiry ∈ input.expiresAt, expiry ≤ limit
  allow : ∃ parents, parsePrefixes net parent.ipAllowlist = .ok parents ∧
    (parents = [] ∨ (child ≠ [] ∧ ∀ c ∈ child, prefixWithinAny c parents = true))
  rate : 0 < parent.rateLimitRps →
    0 < input.rateLimitRPS ∧ input.rateLimitRPS ≤ parent.rateLimitRps

theorem child_token_within {parent : TokenRow}
    (valid : validateChildToken (net.library rfc3339) parent input prep now = .ok ()) :
    WithinParent net parent input prep.prefixes := by
  unfold validateChildToken at valid
  obtain ⟨⟨⟩, -, valid⟩ := bind_eq_ok.mp valid
  obtain ⟨⟨⟩, -, valid⟩ := bind_eq_ok.mp valid
  obtain ⟨⟨⟩, -, valid⟩ := bind_eq_ok.mp valid
  cases limits : parent.expiresAt with
  | none =>
    rw [limits] at valid
    obtain ⟨⟨⟩, allow, rate⟩ := bind_eq_ok.mp valid
    refine ⟨?_, child_allowlist_within allow, child_rate_within rate⟩
    rw [limits]
    nofun
  | some limit =>
    rw [limits] at valid
    simp only [bind_eq_ok] at valid
    obtain ⟨⟨⟩, expiry, ⟨⟩, allow, rate⟩ := valid
    refine ⟨?_, child_allowlist_within allow, child_rate_within rate⟩
    intro other expires
    rw [limits] at expires
    cases expires
    exact child_expiry_within expiry

theorem create_within_creator (token : p.kind = .token)
    (created : create (net.library rfc3339) rows p ns input now id hash = .ok row) :
    ∃ creator child, rows.find? (fun other => other.id == p.id) = some creator ∧
      WithinParent net creator input child ∧ parsePrefixes net row.ipAllowlist = .ok child ∧
      row.expiresAt = input.expiresAt ∧ row.rateLimitRps = input.rateLimitRPS ∧
      (∀ expiry ∈ input.expiresAt, now < expiry) ∧
      ∀ other ∈ rows, other.id ≠ row.id ∧ other.hash ≠ row.hash := by
  unfold create at created
  simp only [bind_eq_ok] at created
  obtain ⟨⟨⟩, -, prep, prepared, ⟨⟩, allowed, ⟨⟩, fresh, created⟩ := created
  cases created
  obtain ⟨read, future⟩ := prepare_token_allow prepared
  unfold checkTokenCreatedByToken at allowed
  rw [if_neg (not_not.mpr token)] at allowed
  split at allowed
  · cases allowed
  · next creator found =>
    refine ⟨creator, prep.prefixes, found, child_token_within allowed, read, rfl, rfl, future, ?_⟩
    intro other listed
    obtain ⟨freshId, freshHash, -⟩ := check_ok fresh other listed
    exact ⟨freshId, freshHash⟩

end Creation

/-! ## The created row in later tables -/

/-- The table's only row with the hash of `row` is `row`, revoked or not. -/
structure Keeps (row : TokenRow) (rows : List TokenRow) : Prop where
  present : ∃ other ∈ rows, other.hash = row.hash
  only : ∀ other ∈ rows, other.hash = row.hash → other = { row with revokedAt := other.revokedAt }

theorem keeps_inserted {row : TokenRow} {rows : List TokenRow}
    (fresh : ∀ other ∈ rows, other.id ≠ row.id ∧ other.hash ≠ row.hash) :
    Keeps row (insertToken rows row) := by
  have free : ¬ (rows.any fun other => other.id == row.id || other.hash == row.hash) = true := by
    intro taken
    obtain ⟨other, listed, clash⟩ := List.any_eq_true.mp taken
    rcases Bool.or_eq_true_iff.mp clash with sameId | sameHash
    · exact (fresh other listed).1 (beq_iff_eq.mp sameId)
    · exact (fresh other listed).2 (beq_iff_eq.mp sameHash)
  rw [insertToken, if_neg free]
  refine ⟨⟨row, List.mem_append_right _ (List.mem_singleton_self _), rfl⟩, ?_⟩
  intro other listed same
  rcases List.mem_append.mp listed with earlier | last
  · exact absurd same (fresh other earlier).2
  · rw [List.mem_singleton.mp last]

theorem keeps_apply {row : TokenRow} {rows : List TokenRow} (keeps : Keeps row rows)
    (change : TokenChange) : Keeps row (change.apply rows) := by
  obtain ⟨⟨holder, held, own⟩, only⟩ := keeps
  cases change with
  | insert new =>
    simp only [TokenChange.apply, insertToken]
    split_ifs with taken
    · exact ⟨⟨holder, held, own⟩, only⟩
    · refine ⟨⟨holder, List.mem_append_left _ held, own⟩, ?_⟩
      intro other listed same
      rcases List.mem_append.mp listed with earlier | last
      · exact only other earlier same
      · -- a row with a taken hash is refused
        obtain rfl := List.mem_singleton.mp last
        refine absurd (List.any_eq_true.mpr ⟨holder, held, Bool.or_eq_true_iff.mpr (.inr ?_)⟩)
          taken
        exact beq_iff_eq.mpr (own.trans same.symm)
  | revoke id now =>
    refine ⟨⟨_, List.mem_map_of_mem held, ?_⟩, ?_⟩
    · split_ifs <;> exact own
    · intro other listed same
      obtain ⟨before, earlier, rfl⟩ := List.mem_map.mp listed
      split_ifs at same ⊢ with revoked
      · rw [only before earlier same]
      · exact only before earlier same

theorem keeps_later {row : TokenRow} (later : List TokenChange) {rows : List TokenRow}
    (keeps : Keeps row rows) : Keeps row (later.foldl TokenChange.apply rows) := by
  induction later generalizing rows with
  | nil => exact keeps
  | cons change rest ih => exact ih (keeps_apply keeps change)

/-! ## Containment -/

/-- What the authenticator has checked on the row it found. -/
theorem authenticate_token_found {net : Netip} {rfc3339 : Int → String}
    {hashToken : String → String} {rows : List TokenRow} {namespaceName : String} {now : Int}
    {token clientIP : String} {result : AuthResult}
    (authenticated : authenticateToken net rfc3339 hashToken rows namespaceName now token clientIP =
      .ok result) :
    ∃ row ∈ rows, row.hash = hashToken token ∧ result.rateLimitRPS = row.rateLimitRps ∧
      expired row.expiresAt now = false ∧
      ∃ allow, parsePrefixes net row.ipAllowlist = .ok allow ∧
        admitsClient net allow clientIP = true := by
  unfold authenticateToken at authenticated
  obtain ⟨⟨⟩, -, authenticated⟩ := bind_eq_ok.mp authenticated
  split at authenticated
  · cases authenticated
  · next row found =>
    dsimp only at authenticated
    simp only [bind_eq_ok] at authenticated
    obtain ⟨⟨⟩, intact, ⟨⟩, -, ⟨⟩, current, ⟨⟩, admitted, authenticated⟩ := authenticated
    cases authenticated
    have hashed := List.find?_some found
    refine ⟨row, List.mem_of_find?_eq_some found, beq_iff_eq.mp hashed, rfl, check_ok current, ?_⟩
    have whole := check_ok intact
    have client := check_ok admitted
    simp only [recordFromRow, Library.parsers, Netip.library] at whole client
    cases read : parsePrefixes net row.ipAllowlist with
    | error cause =>
      simp only [read, Except.toOption, Option.isNone_none, Bool.or_true] at whole
      cases whole
    | ok allow =>
      simp only [read, Except.toOption, Option.getD_some] at client
      exact ⟨allow, rfl, client⟩

theorem admits_client_of_within {net : Netip} {parents child : List Network} {clientIP : String}
    (within : parents = [] ∨ (child ≠ [] ∧ ∀ c ∈ child, prefixWithinAny c parents = true))
    (admitted : admitsClient net child clientIP = true) :
    admitsClient net parents clientIP = true := by
  rcases within with rfl | ⟨nonempty, within⟩
  · rfl
  · rcases Bool.or_eq_true_iff.mp admitted with empty | looked
    · exact absurd (List.isEmpty_iff.mp empty) nonempty
    · refine Bool.or_eq_true_iff.mpr (.inr ?_)
      obtain ⟨ip, read, allowed⟩ := (Option.any_eq_true _ _).mp looked
      refine (Option.any_eq_true _ _).mpr ⟨ip, read, ?_⟩
      unfold allowedIP at allowed ⊢
      rw [if_neg nonempty] at allowed
      split_ifs with empty
      · rfl
      · exact contains_any_of_within within allowed

theorem unexpired_of_within {net : Netip} {parent : TokenRow} {input : CreateTokenInput}
    {child : List Network} {createdAt : Nat} {now : Int}
    (within : WithinParent net parent input child)
    (future : ∀ expiry ∈ input.expiresAt, (createdAt : Int) < expiry)
    (current : expired input.expiresAt now = false) : ∀ limit ∈ parent.expiresAt, now < limit := by
  intro limit expires
  obtain ⟨expiry, given, early⟩ := within.expiry limit expires
  have positive := future expiry given
  rw [Option.mem_def.mp given, expired, Option.any_some, zeroTime] at current
  have set : expiry ≠ 0 := by omega
  rw [decide_eq_true set, Bool.true_and] at current
  have open_ := of_decide_eq_false current
  omega

/-- A token created by a token authenticates only while its creator, with the limits it had
then, is unexpired and admits the client, and at a rate within the creator's. -/
theorem created_token_within_limits (net : Netip) (rfc3339 : Int → String)
    (hashToken : String → String) (rows : List TokenRow) (p : Principal) (ns : NamespaceRef)
    (input : CreateTokenInput) (createdAt : Nat) (id hash : String) (row : TokenRow)
    (token : p.kind = .token)
    (created : create (net.library rfc3339) rows p ns input createdAt id hash = .ok row)
    (later : List TokenChange) (namespaceName : String) (now : Int) (plaintext clientIP : String)
    (own : hashToken plaintext = row.hash) (result : AuthResult)
    (authenticated : authenticateToken net rfc3339 hashToken
      (later.foldl TokenChange.apply (insertToken rows row)) namespaceName now plaintext clientIP =
        .ok result) :
    ∃ creator, rows.find? (fun other => other.id == p.id) = some creator ∧
      (∀ limit ∈ creator.expiresAt, now < limit) ∧
      (∃ allow, parsePrefixes net creator.ipAllowlist = .ok allow ∧
        admitsClient net allow clientIP = true) ∧
      (0 < creator.rateLimitRps →
        0 < result.rateLimitRPS ∧ result.rateLimitRPS ≤ creator.rateLimitRps) := by
  obtain ⟨creator, child, found, within, stored, expiry, rate, future, fresh⟩ :=
    create_within_creator token created
  obtain ⟨read, listed, hashed, rateRead, current, allow, parsed, admitted⟩ :=
    authenticate_token_found authenticated
  have same := (keeps_later later (keeps_inserted fresh)).only read listed (hashed.trans own)
  have sameExpiry : read.expiresAt = input.expiresAt := by rw [same]; exact expiry
  have sameRate : read.rateLimitRps = input.rateLimitRPS := by rw [same]; exact rate
  have sameAllow : read.ipAllowlist = row.ipAllowlist := by rw [same]
  rw [sameExpiry] at current
  rw [sameAllow, stored] at parsed
  cases parsed
  obtain ⟨parents, parentAllow, inside⟩ := within.allow
  refine ⟨creator, found, unexpired_of_within within future current,
    ⟨parents, parentAllow, admits_client_of_within inside admitted⟩, ?_⟩
  rw [rateRead, sameRate]
  exact within.rate

/-! ### A child in the mapped form -/

def Network.groups (p : Network) : List Nat :=
  if p.v6 then [112, 96, 80, 64, 48, 32, 16, 0].map fun shift => p.addr / 2 ^ shift % 2 ^ 16
  else [24, 16, 8, 0].map fun shift => p.addr / 2 ^ shift % 2 ^ 8

def groupBase (v6 : Bool) : Nat := if v6 then 16 else 10

def groupBits (v6 : Bool) : Nat := if v6 then 16 else 8

def groupEnd (v6 : Bool) : Char := if v6 then ':' else '.'

/-- A network as `netip` writes it, but with all eight groups of an IPv6 address. -/
def Network.text (p : Network) : List Char :=
  ['/'].intercalate [[groupEnd p.v6].intercalate (p.groups.map (Nat.toDigits (groupBase p.v6))),
    Nat.toDigits 10 p.bits]

def readDigits (base : Nat) (text : List Char) : Nat :=
  text.foldl (fun value c => base * value + (c.toNat - if c.isDigit then 48 else 87)) 0

def readNetwork (text : List Char) : Option Network :=
  let v6 := text.contains ':'
  match text.splitOn '/' with
  | [addr, bits] =>
    let groups := (addr.splitOn (groupEnd v6)).map (readDigits (groupBase v6))
    let p : Network :=
      { v6 := v6, bits := readDigits 10 bits
        addr := groups.foldl (fun value group => 2 ^ groupBits v6 * value + group) 0 }
    if (p.addr < 2 ^ p.width ∧ p.bits ≤ p.width) ∧ p.text = text then some p else none
  | _ => none

def digitChars : List Char :=
  ['0', '1', '2', '3', '4', '5', '6', '7', '8', '9', 'a', 'b', 'c', 'd', 'e', 'f']

theorem digits_written {base : Nat} (more : 1 < base) (few : base ≤ 16) (value : Nat) :
    readDigits base (Nat.toDigits base value) = value ∧
      ∀ c ∈ Nat.toDigits base value, c ∈ digitChars := by
  have digit : ∀ d < 16, d.digitChar.toNat - (if d.digitChar.isDigit then 48 else 87) = d ∧
      d.digitChar ∈ digitChars := by decide
  induction value using Nat.strongRecOn with
  | ind value ih =>
    by_cases small : value < base
    · rw [Nat.toDigits_of_lt_base small]
      obtain ⟨read, listed⟩ := digit value (by omega)
      refine ⟨?_, List.forall_mem_singleton.mpr listed⟩
      rw [readDigits, List.foldl_cons, List.foldl_nil, read, Nat.mul_zero, Nat.zero_add]
    · rw [Nat.toDigits_of_base_le more (by omega)]
      have below := Nat.mod_lt value (Nat.zero_lt_of_lt more)
      obtain ⟨read, listed⟩ := digit (value % base) (by omega)
      obtain ⟨front, plain⟩ := ih (value / base) (Nat.div_lt_self (by omega) more)
      refine ⟨?_, List.forall_mem_append.mpr ⟨plain, List.forall_mem_singleton.mpr listed⟩⟩
      unfold readDigits at front ⊢
      rw [List.foldl_append, front, List.foldl_cons, List.foldl_nil, read, Nat.div_add_mod]

theorem group_written (v6 : Bool) (value : Nat) :
    readDigits (groupBase v6) (Nat.toDigits (groupBase v6) value) = value ∧
      ∀ c ∈ Nat.toDigits (groupBase v6) value, c ∈ digitChars := by
  cases v6 <;> exact digits_written (by decide) (by decide) value

theorem mem_joined {separator c : Char} {pieces : List (List Char)}
    (member : c ∈ [separator].intercalate pieces) :
    c = separator ∨ ∃ piece ∈ pieces, c ∈ piece := by
  induction pieces with
  | nil => simp at member
  | cons piece rest ih =>
    cases rest with
    | nil => exact .inr ⟨piece, List.mem_singleton_self _, by simpa using member⟩
    | cons next rest => rw [List.intercalate_cons_cons] at member; grind

theorem addr_chars {p : Network} {c : Char}
    (member : c ∈ [groupEnd p.v6].intercalate (p.groups.map (Nat.toDigits (groupBase p.v6)))) :
    c = groupEnd p.v6 ∨ c ∈ digitChars := by
  rcases mem_joined member with ends | ⟨piece, listed, inside⟩
  · exact .inl ends
  · obtain ⟨group, -, rfl⟩ := List.mem_map.mp listed
    exact .inr ((group_written _ group).2 c inside)

theorem text_chars {p : Network} {c : Char} (member : c ∈ p.text) :
    c = '/' ∨ c = groupEnd p.v6 ∨ c ∈ digitChars := by
  rcases mem_joined member with slash | ⟨piece, listed, inside⟩
  · exact .inl slash
  · rcases List.mem_pair.mp listed with rfl | rfl
    · exact .inr (addr_chars inside)
    · exact .inr (.inr ((group_written false p.bits).2 c inside))

theorem groups_value {p : Network} (valid : p.Valid) :
    p.groups.foldl (fun value group => 2 ^ groupBits p.v6 * value + group) 0 = p.addr := by
  have bounded := valid.addr
  unfold Network.width at bounded
  cases family : p.v6 <;> simp [Network.groups, groupBits, family] at bounded ⊢ <;> omega

theorem digits_apart (v6 : Bool) : ∀ c ∈ digitChars, c ≠ '/' ∧ c ≠ ':' ∧ c ≠ groupEnd v6 := by
  cases v6 <;> simp [digitChars, groupEnd]

theorem text_family (p : Network) : p.text.contains ':' = p.v6 := by
  cases v6 : p.v6 with
  | true => simp [Network.text, Network.groups, groupEnd, v6, List.intercalate_cons_cons]
  | false =>
    refine Bool.eq_false_iff.mpr fun colon => ?_
    rcases text_chars (List.contains_iff_mem.mp colon) with same | same | digit
    · exact absurd same (by decide)
    · exact absurd same (by rw [v6]; decide)
    · exact (digits_apart false _ digit).2.1 rfl

theorem split_text (p : Network) : p.text.splitOn '/' =
    [[groupEnd p.v6].intercalate (p.groups.map (Nat.toDigits (groupBase p.v6))),
      Nat.toDigits 10 p.bits] := by
  refine List.splitOn_intercalate '/' ?_ (List.cons_ne_nil _ _)
  intro piece listed inside
  rcases List.mem_pair.mp listed with rfl | rfl
  · rcases addr_chars inside with ends | digit
    · cases v6 : p.v6 <;> simp [groupEnd, v6] at ends
    · exact (digits_apart false _ digit).1 rfl
  · exact (digits_apart false _ ((group_written false p.bits).2 _ inside)).1 rfl

theorem read_network_text {p : Network} (valid : p.Valid) : readNetwork p.text = some p := by
  have groups := @List.splitOn_intercalate _ (p.groups.map (Nat.toDigits (groupBase p.v6))) _ _
    (groupEnd p.v6) (by
      intro piece listed inside
      obtain ⟨group, -, rfl⟩ := List.mem_map.mp listed
      exact (digits_apart _ _ ((group_written _ group).2 _ inside)).2.2 rfl) (by
      cases v6 : p.v6 <;> simp [Network.groups, v6])
  have values : (p.groups.map (Nat.toDigits (groupBase p.v6))).map (readDigits (groupBase p.v6)) =
      p.groups := by
    rw [List.map_map]
    exact List.map_id'' (fun group => (group_written p.v6 group).1) _
  have bits : readDigits 10 (Nat.toDigits 10 p.bits) = p.bits := (group_written false p.bits).1
  unfold readNetwork
  rw [text_family, split_text]
  dsimp only
  rw [groups, values, groups_value valid, bits, if_pos ⟨⟨valid.addr, valid.bits⟩, rfl⟩]

def mappedNetip : Netip where
  parseAddr v := if v = "::ffff:0.0.0.9%eth0" then some (.v6 0xffff00000009 "eth0") else none
  parsePrefix v := readNetwork v.toList
  text p := String.ofList p.text
  parse_valid {v p} parsed := by
    unfold readNetwork at parsed
    dsimp only at parsed
    split at parsed
    · split_ifs at parsed with valid
      cases parsed
      exact ⟨valid.1.1, valid.1.2⟩
    · cases parsed
  parse_text valid := by rw [String.toList_ofList, read_network_text valid]
  text_slash p := by simp [Network.text, List.intercalate_cons_cons]
  text_plain p := by
    have plain : ∀ c ∈ '/' :: groupEnd p.v6 :: digitChars, Lib.isSpace c.toNat = false := by
      cases p.v6 <;> simp [digitChars, groupEnd, Lib.isSpace]
    intro c listed
    rw [String.toList_ofList] at listed
    exact plain c (by simpa using text_chars listed)

def limitedRow : TokenRow :=
  { adminRow with ipAllowlist := ["0.0.0.0/24"], rateLimitRps := 50, expiresAt := some 1000 }

def limitedToken : Principal := tokenPrincipal (mappedNetip.library toString) limitedRow "prod" ""

def mappedInput : CreateTokenInput :=
  { name := "node", scopes := ["lease:acquire"], ipAllowlist := [" 0:0:0:0:0:ffff:0:8/126 "],
    rateLimitRPS := 20, expiresAt := some 900 }

def childSecret : String := "spn_0123456789012345678901234567890123456789abc"

theorem ok_of_to_option {Failure Value : Type} {outcome : Except Failure Value} {value : Value}
    (found : outcome.toOption = some value) : outcome = .ok value := by
  cases outcome with
  | error failure => cases found
  | ok held => cases found; rfl

/-- A child with a mapped entry serves a mapped client that its creator admits. -/
theorem mapped_child_within_limits :
    ∃ row result, create (mappedNetip.library toString) [limitedRow] limitedToken prodNamespace
        mappedInput (10 : Nat) "tok1" "h1" = .ok row ∧
      authenticateToken mappedNetip toString (fun _ => "h1") (insertToken [limitedRow] row) "prod"
        899 childSecret "::ffff:0.0.0.9%eth0" = .ok result ∧
      ∃ creator, [limitedRow].find? (fun other => other.id == limitedToken.id) = some creator ∧
        (∀ limit ∈ creator.expiresAt, 899 < limit) ∧
        (∃ allow, parsePrefixes mappedNetip creator.ipAllowlist = .ok allow ∧
          admitsClient mappedNetip allow "::ffff:0.0.0.9%eth0" = true) ∧
        (0 < creator.rateLimitRps →
          0 < result.rateLimitRPS ∧ result.rateLimitRPS ≤ creator.rateLimitRps) := by
  have held : ((create (mappedNetip.library toString) [limitedRow] limitedToken prodNamespace
      mappedInput (10 : Nat) "tok1" "h1").toOption.any fun row => row.hash == "h1" &&
        (authenticateToken mappedNetip toString (fun _ => "h1") (insertToken [limitedRow] row)
          "prod" 899 childSecret "::ffff:0.0.0.9%eth0").toOption.isSome) = true := by
    decide +kernel
  obtain ⟨row, made, held⟩ := (Option.any_eq_true _ _).mp held
  obtain ⟨hashed, served⟩ := Bool.and_eq_true_iff.mp held
  obtain ⟨result, served⟩ := Option.isSome_iff_exists.mp served
  have created := ok_of_to_option made
  have authenticated := ok_of_to_option served
  exact ⟨row, result, created, authenticated, created_token_within_limits mappedNetip toString
    (fun _ => "h1") [limitedRow] limitedToken prodNamespace mappedInput 10 "tok1" "h1" row rfl
    created [] "prod" 899 childSecret "::ffff:0.0.0.9%eth0" (beq_iff_eq.mp hashed).symm result
    authenticated⟩

end Spinneret.Auth
