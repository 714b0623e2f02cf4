import Spinneret.Auth.Tokens

/-!
# Address allowlists

An allowlist entry is a network or a single address. Parsing masks a network, turns an
IPv4-mapped network of at least 96 bits into the IPv4 network it stands for and refuses
zones; the client address is unmapped as well before it is looked up, so that both sides
of a comparison are normalized. Reading and printing addresses belong to a library.
-/

namespace Spinneret.Auth

open Spinneret.Authz

set_option autoImplicit false

/-! ## Addresses and networks -/

inductive Addr where
  | v4 (value : BitVec 32)
  | v6 (value : BitVec 128) (zone : String)
  deriving DecidableEq

def Addr.zone : Addr → String
  | .v4 _ => ""
  | .v6 _ zone => zone

/-- `PrefixFrom` with all bits of the address. -/
def Addr.network : Addr → Network
  | .v4 value => { v6 := false, addr := value.toNat, bits := 32 }
  | .v6 value _ => { v6 := true, addr := value.toNat, bits := 128 }

def Network.is4In6 (p : Network) : Bool := p.v6 && p.addr / 2 ^ 32 == 0xffff

def Addr.unmap (addr : Addr) : Addr :=
  match addr with
  | .v4 value => .v4 value
  | .v6 value zone =>
    if addr.network.is4In6 then .v4 (BitVec.ofNat 32 value.toNat) else .v6 value zone

def Addr.withoutZone : Addr → Addr
  | .v4 value => .v4 value
  | .v6 value _ => .v6 value ""

def normalize (addr : Addr) : Addr := addr.withoutZone.unmap

def Network.width (p : Network) : Nat := if p.v6 then 128 else 32

def Network.masked (p : Network) : Network :=
  { p with addr := p.addr / 2 ^ (p.width - p.bits) * 2 ^ (p.width - p.bits) }

def Network.unmapped (p : Network) : Network :=
  { v6 := false, addr := p.addr % 2 ^ 32, bits := p.bits - 96 }

/-- `Contains` for an address; an address with a zone is in no network. -/
def Network.containsAddr (p : Network) (addr : Addr) : Bool :=
  decide (addr.zone = "") && p.contains addr.network

structure Network.Valid (p : Network) : Prop where
  addr : p.addr < 2 ^ p.width
  bits : p.bits ≤ p.width

/-- The reading and printing functions of `net/netip`. A prefix is printed with its slash
and without blanks, and is read back from its text. -/
structure Netip where
  parseAddr : String → Option Addr
  parsePrefix : String → Option Network
  text : Network → String
  parse_valid : ∀ {v : String} {p : Network}, parsePrefix v = some p → p.Valid
  parse_text : ∀ {p : Network}, p.Valid → parsePrefix (text p) = some p
  text_slash : ∀ p : Network, '/' ∈ (text p).toList
  text_plain : ∀ p : Network, ∀ c ∈ (text p).toList, Lib.isSpace c.toNat = false

/-! ## Parsing and lookup -/

def parsePrefix (net : Netip) (v : String) : Except String Network :=
  if v.toList.contains '/' then
    match net.parsePrefix v with
    | none => .error ("invalid CIDR " ++ v.quote)
    | some p => .ok (if p.is4In6 && decide (96 ≤ p.bits) then p.unmapped.masked else p.masked)
  else
    match net.parseAddr v with
    | none => .error ("invalid IP address " ++ v.quote)
    | some addr =>
      if addr.zone ≠ "" then .error ("IP address " ++ v.quote ++ " must not have a zone")
      else .ok addr.unmap.network

def parsePrefixesFrom (net : Netip) : Nat → List String → Except String (List Network)
  | _, [] => .ok []
  | i, raw :: rest =>
    let v := String.ofList (Lib.trimSpace raw.toList)
    if v = "" then parsePrefixesFrom net (i + 1) rest
    else do
      let p ← (parsePrefix net v).mapError fun cause =>
        "netx: entry " ++ toString i ++ ": " ++ cause
      let others ← parsePrefixesFrom net (i + 1) rest
      return p :: others

def parsePrefixes (net : Netip) (values : List String) : Except String (List Network) :=
  parsePrefixesFrom net 0 values

def containsAny (prefixes : List Network) (addr : Addr) : Bool :=
  prefixes.any fun p => p.containsAddr addr

/-- `AllowedIP`; no address stands for the invalid one. -/
def allowedIP (ip : Option Addr) (allow : List Network) : Bool :=
  if allow = [] then true
  else
    match ip with
    | none => false
    | some addr => containsAny allow (normalize addr)

def Netip.library (net : Netip) (rfc3339 : Int → String) : Library where
  parsePrefixes := parsePrefixes net
  networkText := net.text
  rfc3339 := rfc3339

/-! ## Containment -/

/-- Numbers that agree above a bit agree above every higher bit. -/
theorem div_pow_eq_of_le {x y low high : Nat} (le : low ≤ high)
    (same : x / 2 ^ low = y / 2 ^ low) : x / 2 ^ high = y / 2 ^ high := by
  obtain ⟨gap, rfl⟩ := Nat.exists_eq_add_of_le le
  rw [Nat.pow_add, ← Nat.div_div_eq_div_mul, same, Nat.div_div_eq_div_mul]

theorem Network.contains_iff {p other : Network} :
    p.contains other = true ↔ p.v6 = other.v6 ∧
      p.addr / 2 ^ (p.width - p.bits) = other.addr / 2 ^ (p.width - p.bits) := by
  simp only [Network.contains, Bool.and_eq_true, beq_iff_eq, Network.width]

/-- A network that lies within another one passes its members on. -/
theorem Network.contains_of_within {outer inner member : Network}
    (shorter : outer.bits ≤ inner.bits) (within : outer.contains inner = true)
    (held : inner.contains member = true) :
    outer.contains member = true := by
  obtain ⟨outerFamily, outerBits⟩ := Network.contains_iff.mp within
  obtain ⟨innerFamily, innerBits⟩ := Network.contains_iff.mp held
  have width : inner.width = outer.width := by rw [Network.width, Network.width, outerFamily]
  rw [width] at innerBits
  refine Network.contains_iff.mpr ⟨outerFamily.trans innerFamily, outerBits.trans ?_⟩
  exact div_pow_eq_of_le (by omega) innerBits

/-- Entries that each lie within a parent's entry admit only what the parent admits. -/
theorem contains_any_of_within {parents child : List Network} {addr : Addr}
    (within : ∀ c ∈ child, prefixWithinAny c parents = true)
    (held : containsAny child addr = true) : containsAny parents addr = true := by
  obtain ⟨c, listed, holds⟩ := List.any_eq_true.mp held
  obtain ⟨p, parent, inside⟩ := List.any_eq_true.mp (within c listed)
  obtain ⟨shorter, contained⟩ := Bool.and_eq_true_iff.mp inside
  obtain ⟨plain, member⟩ := Bool.and_eq_true_iff.mp holds
  refine List.any_eq_true.mpr ⟨p, parent, Bool.and_eq_true_iff.mpr ⟨plain, ?_⟩⟩
  exact Network.contains_of_within (of_decide_eq_true shorter) contained member

/-! ## What is stored is read back -/

/-- A parsed entry: valid, masked, and not an IPv4 network in its mapped form. -/
structure Network.Normal (p : Network) : Prop where
  valid : p.Valid
  masked : p.masked = p
  plain : (p.is4In6 && decide (96 ≤ p.bits)) = false

theorem Network.masked_addr_le (p : Network) : p.masked.addr ≤ p.addr :=
  Nat.div_mul_le_self _ _

variable {p : Network}

theorem Network.Valid.masked (valid : p.Valid) : p.masked.Valid where
  addr := Nat.lt_of_le_of_lt p.masked_addr_le valid.addr
  bits := valid.bits

theorem Network.masked_masked (p : Network) : p.masked.masked = p.masked := by
  have width : p.masked.width = p.width := rfl
  have bits : p.masked.bits = p.bits := rfl
  unfold Network.masked at width bits ⊢
  simp only [width, Nat.mul_div_cancel _ (Nat.two_pow_pos _)]

/-- Masking at most the low 32 bits leaves the mapped form recognizable. -/
theorem Network.is4In6_masked (long : 96 ≤ p.bits) : p.masked.is4In6 = p.is4In6 := by
  cases family : p.v6 with
  | false => simp only [Network.is4In6, Network.masked, family, Bool.false_and]
  | true =>
    have same : p.masked.addr / 2 ^ 32 = p.addr / 2 ^ 32 := by
      refine @div_pow_eq_of_le _ _ (p.width - p.bits) _ ?_ ?_
      · simp only [Network.width, family, if_true]
        omega
      · exact Nat.mul_div_cancel _ (Nat.two_pow_pos _)
    have kept : p.masked.v6 = p.v6 := rfl
    rw [Network.is4In6, Network.is4In6, same, kept]

theorem Network.unmapped_valid (valid : p.Valid) (mapped : p.is4In6 = true) :
    p.unmapped.Valid where
  addr := Nat.mod_lt _ (Nat.two_pow_pos _)
  bits := by
    have family : p.v6 = true := (Bool.and_eq_true_iff.mp mapped).1
    have short := valid.bits
    simp only [Network.width, family, if_true] at short
    show p.bits - 96 ≤ 32
    omega

theorem Network.v4_plain (family : p.v6 = false) : (p.is4In6 && decide (96 ≤ p.bits)) = false := by
  simp only [Network.is4In6, family, Bool.false_and]

theorem Addr.network_valid (addr : Addr) : addr.network.Valid := by
  cases addr with
  | v4 value => exact ⟨value.isLt, Nat.le_refl _⟩
  | v6 value zone => exact ⟨value.isLt, Nat.le_refl _⟩

theorem Addr.network_masked (addr : Addr) : addr.network.masked = addr.network := by
  cases addr with
  | v4 value => simp [Addr.network, Network.masked, Network.width]
  | v6 value zone => simp [Addr.network, Network.masked, Network.width]

theorem Addr.unmap_plain (addr : Addr) : addr.unmap.network.is4In6 = false := by
  cases addr with
  | v4 value => rfl
  | v6 value zone =>
    unfold Addr.unmap
    split_ifs with mapped
    · rfl
    · exact Bool.eq_false_iff.mpr mapped

variable {net : Netip}

theorem parse_prefix_normal {v : String} (parsed : parsePrefix net v = .ok p) : p.Normal := by
  unfold parsePrefix at parsed
  split at parsed
  · split at parsed
    · cases parsed
    · next read found =>
      have valid := net.parse_valid found
      cases mapped : read.is4In6 && decide (96 ≤ read.bits) with
      | true =>
        rw [mapped, if_pos rfl] at parsed
        cases parsed
        obtain ⟨family, -⟩ := Bool.and_eq_true_iff.mp mapped
        exact ⟨(Network.unmapped_valid valid family).masked, Network.masked_masked _,
          Network.v4_plain rfl⟩
      | false =>
        rw [mapped, if_neg Bool.false_ne_true] at parsed
        cases parsed
        refine ⟨valid.masked, Network.masked_masked _, ?_⟩
        rcases Bool.and_eq_false_iff.mp mapped with other | short
        · -- a short mask may clear bits of the mapped form, a long one does not
          by_cases long : 96 ≤ read.bits
          · rw [Network.is4In6_masked long, other, Bool.false_and]
          · exact Bool.and_eq_false_iff.mpr (.inr (decide_eq_false long))
        · exact Bool.and_eq_false_iff.mpr (.inr short)
  · split at parsed
    · cases parsed
    · next addr found =>
      split_ifs at parsed with zone
      cases parsed
      exact ⟨Addr.network_valid _, Addr.network_masked _,
        by rw [Addr.unmap_plain, Bool.false_and]⟩

theorem parse_prefix_text (normal : p.Normal) : parsePrefix net (net.text p) = .ok p := by
  have slash : (net.text p).toList.contains '/' = true :=
    List.contains_iff_mem.mpr (net.text_slash p)
  unfold parsePrefix
  rw [if_pos slash, net.parse_text normal.valid]
  dsimp only
  rw [normal.plain, if_neg Bool.false_ne_true, normal.masked]

theorem text_ne_empty (p : Network) : net.text p ≠ "" := by
  intro empty
  have slash := net.text_slash p
  rw [empty] at slash
  cases slash

theorem parse_prefixes_from_normal {i : Nat} {values : List String} {ps : List Network}
    (parsed : parsePrefixesFrom net i values = .ok ps) : ∀ p ∈ ps, p.Normal := by
  induction values generalizing i ps with
  | nil =>
    cases parsed
    nofun
  | cons raw rest ih =>
    unfold parsePrefixesFrom at parsed
    dsimp only at parsed
    split_ifs at parsed with blank
    · exact ih parsed
    · simp only [bind_eq_ok] at parsed
      obtain ⟨p, first, others, tail, parsed⟩ := parsed
      cases parsed
      exact List.forall_mem_cons.mpr ⟨parse_prefix_normal (map_error_ok first), ih tail⟩

theorem parse_prefixes_from_text {ps : List Network} (normal : ∀ p ∈ ps, p.Normal) (i : Nat) :
    parsePrefixesFrom net i (ps.map net.text) = .ok ps := by
  induction ps generalizing i with
  | nil => rfl
  | cons p rest ih =>
    obtain ⟨here, later⟩ := List.forall_mem_cons.mp normal
    rw [List.map_cons, parsePrefixesFrom, Lib.trim_space_plain (net.text_plain p),
      String.ofList_toList,
      if_neg (text_ne_empty p), parse_prefix_text here, ih later]
    rfl

/-- The texts of a parsed allowlist parse to the same allowlist. -/
theorem parse_prefixes_text {values : List String} {ps : List Network}
    (parsed : parsePrefixes net values = .ok ps) :
    parsePrefixes net (ps.map net.text) = .ok ps :=
  parse_prefixes_from_text (parse_prefixes_from_normal parsed) 0

end Spinneret.Auth
