import Mathlib.Data.Nat.Digits.Lemmas
import Spinneret.HotState.Model
import Spinneret.Lib.Decimal
import Spinneret.Site.Path

/-!
# Lease ids

A lease id is a prefix made in Go, with a random part and the site key in base 36, and the two
hex digits of the report shard that the acquire script appends. `ParseLeaseID` reads the site
key and the shard back. The sixteen bytes of a UUID come from a library.
-/

namespace Spinneret.Idgen

open Spinneret.Site Spinneret.HotState
open Spinneret.Lib (digitByte minusByte formatUint formatInt)

set_option autoImplicit false

def underscore : Byte := 0x5F

def hexLen : Nat := 32

/-- Any sixteen bytes; those of the code are of version 7. -/
structure Uuid where
  bytes : Bytes
  size : bytes.length = 16

/-- `hex.Encode`. -/
def hexEncode (bytes : Bytes) : Bytes :=
  bytes.flatMap fun byte => [digitByte (byte.val / 16), digitByte (byte.val % 16)]

def newHex (u : Uuid) : Bytes := hexEncode u.bytes

def plus : Byte := 0x2B

def digitValue (byte : Byte) : Option Nat :=
  let c := byte.val
  if 48 ≤ c ∧ c ≤ 57 then some (c - 48)
  else if 97 ≤ c ∧ c ≤ 122 then some (c - 87)
  else if 65 ≤ c ∧ c ≤ 90 then some (c - 55)
  else none

/-- One digit more of `strconv.ParseUint`. -/
def pushDigit (base value : Nat) (byte : Byte) : Option Nat :=
  (digitValue byte).bind fun digit => if digit < base then some (value * base + digit) else none

/-- The number that digits denote; a value out of range is refused below. -/
def parseUint (text : Bytes) (base : Nat) : Option Nat :=
  if text = [] then none else text.foldlM (pushDigit base) 0

/-- `strconv.ParseInt` with a base given. -/
def parseInt (text : Bytes) (base bitSize : Nat) : Option Int :=
  let signed := text.head? = some minusByte ∨ text.head? = some plus
  (parseUint (if signed then text.tail else text) base).bind fun un =>
    if text.head? = some minusByte then
      if un ≤ 2 ^ (bitSize - 1) then some (-(un : Int)) else none
    else if un < 2 ^ (bitSize - 1) then some (un : Int)
    else none

structure LeaseRef where
  siteKey : Int
  shard : Int
  deriving DecidableEq, Repr

def lease : Bytes := asciiBytes "lse"

def leasePrefix (u : Uuid) (siteKey : Int) : Bytes :=
  lease ++ [underscore] ++ newHex u ++ [underscore] ++ formatInt siteKey 36 ++ [underscore]

def isLowerHex (text : Bytes) : Bool :=
  text.all fun byte =>
    decide (48 ≤ byte.val ∧ byte.val ≤ 57) || decide (97 ≤ byte.val ∧ byte.val ≤ 102)

def parseLeaseID (id : Bytes) : Option LeaseRef :=
  if id.length < lease.length + 1 + hexLen + 1 + 1 + 1 + 2 ∨ ¬ lease ++ [underscore] <+: id then none
  else
    match (id.drop (lease.length + 1)).splitOn underscore with
    | [random, site, shard] =>
      if random.length ≠ hexLen ∨ isLowerHex random = false ∨ shard.length ≠ 2 ∨
          isLowerHex shard = false then none
      else if site = [] ∨ 13 < site.length then none
      else
        (parseInt site 36 64).bind fun siteKey =>
          if siteKey ≤ 0 ∨ formatInt siteKey 36 ≠ site then none
          else (parseInt shard 16 32).map fun shard => { siteKey := siteKey, shard := shard }
    | _ => none

/-! ## Digits -/

theorem digit_value_byte {value : Nat} (small : value < 36) :
    digitValue (digitByte value) = some value := by
  revert value
  decide

theorem push_digit_byte {base digit : Nat} (few : base ≤ 36) (below : digit < base) (value : Nat) :
    pushDigit base value (digitByte digit) = some (value * base + digit) := by
  rw [pushDigit, digit_value_byte (below.trans_le few), Option.bind_some, if_pos below]

variable {base : Nat} {digits : List Nat} {siteKey : Int}

theorem push_digits (few : base ≤ 36) (bounded : ∀ digit ∈ digits, digit < base) (value : Nat) :
    (digits.map digitByte).foldlM (pushDigit base) value =
      some (value * base ^ digits.length + Nat.ofDigits base digits.reverse) := by
  induction digits generalizing value with
  | nil => simp
  | cons digit digits ih =>
    have later := ih (fun other listed => bounded other (List.mem_cons_of_mem _ listed))
      (value * base + digit)
    rw [List.map_cons, List.foldlM_cons, push_digit_byte few (bounded digit List.mem_cons_self)]
    simp only [Option.bind_eq_bind, Option.bind_some, later, List.reverse_cons,
      Nat.ofDigits_append, Nat.ofDigits_singleton, List.length_reverse, List.length_cons]
    congr 1
    ring

theorem digits_reversed_lt (more : 1 < base) (value : Nat) :
    ∀ digit ∈ (Nat.digits base value).reverse, digit < base := by
  intro digit listed
  exact Nat.digits_lt_base more (List.mem_reverse.mp listed)

theorem parse_uint_digits (few : base ≤ 36) (some_ : digits ≠ [])
    (bounded : ∀ digit ∈ digits, digit < base) :
    parseUint (digits.map digitByte) base = some (Nat.ofDigits base digits.reverse) := by
  have nonempty : digits.map digitByte ≠ [] := by simpa using some_
  rw [parseUint, if_neg nonempty, push_digits few bounded, Nat.zero_mul, Nat.zero_add]

theorem digit_byte_range {value : Nat} (small : value < 36) :
    (48 ≤ (digitByte value).val ∧ (digitByte value).val ≤ 57) ∨
      (97 ≤ (digitByte value).val ∧ (digitByte value).val ≤ 122) := by
  revert value
  decide

theorem not_mem_digits (bounded : ∀ digit ∈ digits, digit < 36) {byte : Byte}
    (outside : byte.val < 48 ∨ byte.val = 0x5F) : byte ∉ digits.map digitByte := by
  intro listed
  obtain ⟨digit, member, rfl⟩ := List.mem_map.mp listed
  have range := digit_byte_range (bounded digit member)
  omega

theorem parse_int_digits (few : base ≤ 36) (some_ : digits ≠ [])
    (bounded : ∀ digit ∈ digits, digit < base) {bitSize : Nat}
    (fits : Nat.ofDigits base digits.reverse < 2 ^ (bitSize - 1)) :
    parseInt (digits.map digitByte) base bitSize =
      some ((Nat.ofDigits base digits.reverse : Nat) : Int) := by
  have small : ∀ digit ∈ digits, digit < 36 := fun digit listed =>
    (bounded digit listed).trans_le few
  have unsigned {sign : Byte} (outside : sign.val < 48) :
      (digits.map digitByte).head? ≠ some sign := by
    intro head
    exact not_mem_digits small (.inl outside) (List.mem_of_mem_head? head)
  have first : (digits.map digitByte).head? ≠ some minusByte := unsigned (by decide)
  have second : (digits.map digitByte).head? ≠ some plus := unsigned (by decide)
  simp only [parseInt, first, second, or_self, if_false, parse_uint_digits few some_ bounded,
    Option.bind_some, fits, if_true]

/-! ## Site keys -/

theorem format_int_digits {value : Int} (positive : 0 < value) (base : Nat) :
    formatInt value base = (Nat.digits base value.natAbs).reverse.map digitByte := by
  rw [formatInt, if_neg (by omega), formatUint, if_neg (by omega)]

theorem site_key_digits (positive : 0 < siteKey) :
    (Nat.digits 36 siteKey.natAbs).reverse ≠ [] ∧
      ∀ digit ∈ (Nat.digits 36 siteKey.natAbs).reverse, digit < 36 := by
  constructor
  · simpa using Nat.digits_ne_nil_iff_ne_zero.mpr (show siteKey.natAbs ≠ 0 by omega)
  · intro digit listed
    exact Nat.digits_lt_base (by decide) (List.mem_reverse.mp listed)

theorem parse_site_key (positive : 0 < siteKey) (fits : siteKey < 2 ^ 63) :
    parseInt (formatInt siteKey 36) 36 64 = some siteKey := by
  obtain ⟨some_, bounded⟩ := site_key_digits positive
  have value : Nat.ofDigits 36 (Nat.digits 36 siteKey.natAbs).reverse.reverse = siteKey.natAbs := by
    rw [List.reverse_reverse, Nat.ofDigits_digits]
  have read := @parse_int_digits 36 _ le_rfl some_ bounded 64 (by rw [value]; omega)
  rw [format_int_digits positive, read, value]
  congr 1
  omega

theorem site_key_length (positive : 0 < siteKey) (fits : siteKey < 2 ^ 63) :
    (formatInt siteKey 36).length ≤ 13 := by
  rw [format_int_digits positive, List.length_map, List.length_reverse]
  apply Nat.digits_length_le_iff (by decide) _ |>.mpr
  omega

/-! ## Hex digits -/

theorem lower_hex_iff {text : Bytes} :
    isLowerHex text = true ↔
      ∃ values : List Nat, (∀ value ∈ values, value < 16) ∧ text = values.map digitByte := by
  have each (byte : Byte) : (decide (48 ≤ byte.val ∧ byte.val ≤ 57) ||
      decide (97 ≤ byte.val ∧ byte.val ≤ 102)) = true ↔ ∃ value < 16, byte = digitByte value := by
    revert byte
    decide +kernel
  constructor
  · intro lower
    induction text with
    | nil => exact ⟨[], nofun, rfl⟩
    | cons byte text ih =>
      obtain ⟨own, later⟩ := Bool.and_eq_true_iff.mp lower
      obtain ⟨value, small, rfl⟩ := (each byte).mp own
      obtain ⟨values, bounded, rfl⟩ := ih later
      exact ⟨value :: values, List.forall_mem_cons.mpr ⟨small, bounded⟩, rfl⟩
  · rintro ⟨values, bounded, rfl⟩
    apply List.all_eq_true.mpr
    intro byte listed
    obtain ⟨value, member, rfl⟩ := List.mem_map.mp listed
    exact (each _).mpr ⟨value, bounded value member, rfl⟩

theorem hex_encode_values (bytes : Bytes) :
    ∃ values : List Nat, values.length = 2 * bytes.length ∧ (∀ value ∈ values, value < 16) ∧
      hexEncode bytes = values.map digitByte := by
  induction bytes with
  | nil => exact ⟨[], rfl, nofun, rfl⟩
  | cons byte bytes ih =>
    obtain ⟨values, length, bounded, encoded⟩ := ih
    refine ⟨byte.val / 16 :: byte.val % 16 :: values, ?_, ?_, ?_⟩
    · simp only [List.length_cons, length]
      omega
    · have small := byte.isLt
      simp only [List.forall_mem_cons]
      exact ⟨by omega, by omega, bounded⟩
    · rw [List.map_cons, List.map_cons, ← encoded]
      rfl

/-- Any even number of lower hex digits encodes bytes. -/
theorem hex_decoded {values : List Nat} (bounded : ∀ value ∈ values, value < 16) (n : Nat)
    (length : values.length = 2 * n) :
    ∃ bytes : Bytes, bytes.length = n ∧ hexEncode bytes = values.map digitByte := by
  induction n generalizing values with
  | zero =>
    rw [List.eq_nil_of_length_eq_zero length]
    exact ⟨[], rfl, rfl⟩
  | succ n ih =>
    obtain ⟨high, low, rest, rfl⟩ : ∃ high low rest, values = high :: low :: rest := by
      rcases values with _ | ⟨high, _ | ⟨low, rest⟩⟩
      · simp at length
      · simp only [List.length_cons, List.length_nil] at length
        omega
      · exact ⟨high, low, rest, rfl⟩
    simp only [List.forall_mem_cons] at bounded
    obtain ⟨highSmall, lowSmall, others⟩ := bounded
    obtain ⟨bytes, size, encoded⟩ := ih others (by simp only [List.length_cons] at length; omega)
    have byte : high * 16 + low < 256 := by omega
    refine ⟨⟨high * 16 + low, byte⟩ :: bytes, by rw [List.length_cons, size], ?_⟩
    rw [List.map_cons, List.map_cons, ← encoded]
    have cut : (high * 16 + low) / 16 = high ∧ (high * 16 + low) % 16 = low := by omega
    simp only [hexEncode, List.flatMap_cons, cut.1, cut.2, List.cons_append, List.nil_append]

theorem shard_digits {shard : Nat} (small : shard < 256) :
    asciiBytes (hexDigits shard) = [shard / 16, shard % 16].map digitByte := by
  have text : (hexDigits shard).toList =
      if shard < 16 then '0' :: Nat.toDigits 16 shard else Nat.toDigits 16 shard := by
    unfold hexDigits
    split <;> simp
  rw [asciiBytes, text]
  revert shard
  decide +kernel

/-! ## Lease ids -/

theorem new_hex_values (u : Uuid) :
    (newHex u).length = hexLen ∧ isLowerHex (newHex u) = true ∧ underscore ∉ newHex u := by
  obtain ⟨values, length, bounded, encoded⟩ := hex_encode_values u.bytes
  have small : ∀ value ∈ values, value < 36 := fun value listed =>
    (bounded value listed).trans (by decide)
  rw [newHex, encoded]
  refine ⟨?_, lower_hex_iff.mpr ⟨values, bounded, rfl⟩, not_mem_digits small (.inr rfl)⟩
  rw [List.length_map, length, u.size]
  rfl

theorem intercalate_parts (random site shard : Bytes) :
    [underscore].intercalate [random, site, shard] =
      random ++ [underscore] ++ site ++ [underscore] ++ shard := by
  simp [List.intercalate]

theorem parse_shard {high low : Nat} (highSmall : high < 16) (lowSmall : low < 16) :
    parseInt ([high, low].map digitByte) 16 32 = some ((high * 16 + low : Nat) : Int) := by
  have value : Nat.ofDigits 16 [high, low].reverse = high * 16 + low := by
    simp only [List.reverse_cons, List.reverse_nil, List.nil_append, List.cons_append,
      Nat.ofDigits_cons, Nat.ofDigits_nil]
    ring
  have bounded : ∀ digit ∈ [high, low], digit < 16 := by
    simp [highSmall, lowSmall]
  rw [parse_int_digits (by decide) (List.cons_ne_nil _ _) bounded (by rw [value]; omega), value]

theorem parse_int_lt {text : Bytes} {base bitSize : Nat} {value : Int}
    (read : parseInt text base bitSize = some value) : value < 2 ^ (bitSize - 1) := by
  unfold parseInt at read
  obtain ⟨un, -, read⟩ := Option.bind_eq_some_iff.mp read
  split_ifs at read with negative within small
  · have power : (0 : Int) < 2 ^ (bitSize - 1) := by positivity
    obtain rfl := Option.some.inj read
    omega
  · obtain rfl := Option.some.inj read
    exact_mod_cast small

theorem drop_lease (rest : Bytes) :
    (lease ++ [underscore] ++ rest).drop (lease.length + 1) = rest := List.drop_left' rfl

theorem formed_of_parsed {id : Bytes} {ref : LeaseRef} (parsed : parseLeaseID id = some ref) :
    ∃ (u : Uuid) (shard : Nat), shard < 256 ∧ 0 < ref.siteKey ∧ ref.siteKey < 2 ^ 63 ∧
      ref.shard = shard ∧ id = leasePrefix u ref.siteKey ++ asciiBytes (hexDigits shard) := by
  unfold parseLeaseID at parsed
  split_ifs at parsed with outside
  split at parsed
  · next random site shard parts =>
    split_ifs at parsed with malformed wide
    obtain ⟨siteKey, readKey, parsed⟩ := Option.bind_eq_some_iff.mp parsed
    split_ifs at parsed with spelled
    obtain ⟨number, readShard, rfl⟩ := Option.map_eq_some_iff.mp parsed
    simp only [not_or, not_not, ne_eq, Bool.not_eq_false, not_le] at outside malformed spelled
    obtain ⟨randomLength, randomLower, shardLength, shardLower⟩ := malformed
    obtain ⟨-, rest, rfl⟩ := outside
    obtain ⟨randoms, randomSmall, rfl⟩ := lower_hex_iff.mp randomLower
    obtain ⟨shards, shardSmall, rfl⟩ := lower_hex_iff.mp shardLower
    rw [List.length_map] at randomLength shardLength
    obtain ⟨bytes, size, encoded⟩ := hex_decoded randomSmall 16 randomLength
    obtain ⟨high, low, rfl⟩ := List.length_eq_two.mp shardLength
    have highSmall := shardSmall high (by simp)
    have lowSmall := shardSmall low (by simp)
    rw [parse_shard highSmall lowSmall, Option.some.injEq] at readShard
    have byte : high * 16 + low < 256 := by omega
    have digits : (high * 16 + low) / 16 = high ∧ (high * 16 + low) % 16 = low := by omega
    refine ⟨⟨bytes, size⟩, high * 16 + low, byte, spelled.1, parse_int_lt readKey,
      readShard.symm, ?_⟩
    -- the parts joined again are the text behind the lead
    have joined : [underscore].intercalate (rest.splitOn underscore) = rest :=
      List.intercalate_splitOn underscore
    rw [drop_lease] at parts
    rw [parts, intercalate_parts] at joined
    rw [shard_digits byte, digits.1, digits.2, ← joined, leasePrefix, newHex, encoded, spelled.2]
    simp only [List.append_assoc]
  · cases parsed

theorem parsed_of_formed (u : Uuid) (positive : 0 < siteKey) (fits : siteKey < 2 ^ 63) {shard : Nat}
    (small : shard < 256) :
    parseLeaseID (leasePrefix u siteKey ++ asciiBytes (hexDigits shard)) =
      some { siteKey := siteKey, shard := shard } := by
  obtain ⟨length, lower, unbroken⟩ := new_hex_values u
  obtain ⟨some_, bounded⟩ := site_key_digits positive
  have site : formatInt siteKey 36 ≠ [] ∧ underscore ∉ formatInt siteKey 36 := by
    rw [format_int_digits positive]
    exact ⟨by simpa using some_, not_mem_digits bounded (.inr rfl)⟩
  have high : shard / 16 < 16 := by omega
  have low : shard % 16 < 16 := by omega
  have both : ∀ value ∈ [shard / 16, shard % 16], value < 16 := by simp [high, low]
  have plain : underscore ∉ [shard / 16, shard % 16].map digitByte :=
    not_mem_digits (fun value listed => (both value listed).trans (by decide)) (.inr rfl)
  have parts : (newHex u ++ [underscore] ++ formatInt siteKey 36 ++ [underscore] ++
      [shard / 16, shard % 16].map digitByte).splitOn underscore =
        [newHex u, formatInt siteKey 36, [shard / 16, shard % 16].map digitByte] := by
    rw [← intercalate_parts]
    apply List.splitOn_intercalate
    · simp only [List.forall_mem_cons, List.not_mem_nil, false_implies, implies_true, and_true]
      exact ⟨unbroken, site.2, plain⟩
    · exact List.cons_ne_nil _ _
  have whole : leasePrefix u siteKey ++ asciiBytes (hexDigits shard) =
      lease ++ [underscore] ++ (newHex u ++ [underscore] ++ formatInt siteKey 36 ++
        [underscore] ++ [shard / 16, shard % 16].map digitByte) := by
    rw [shard_digits small, leasePrefix]
    simp only [List.append_assoc]
  have long := List.length_pos_iff.mpr site.1
  have digits : shard / 16 * 16 + shard % 16 = shard := by omega
  rw [whole, parseLeaseID, if_neg, drop_lease, parts]
  · dsimp only
    rw [if_neg, if_neg, parse_site_key positive fits, Option.bind_some, if_neg,
      parse_shard high low, Option.map_some, digits]
    · simp only [not_or, not_le, not_not, ne_eq]
      exact ⟨positive, trivial⟩
    · simp only [not_or, not_lt]
      exact ⟨site.1, site_key_length positive fits⟩
    · simp only [not_or, not_not, ne_eq, Bool.not_eq_false]
      exact ⟨length, lower, rfl, lower_hex_iff.mpr ⟨_, both, rfl⟩⟩
  · simp only [not_or, not_not, not_lt, List.length_append, length, List.length_map,
      List.length_cons, List.length_nil]
    exact ⟨by omega, List.prefix_append _ _⟩

/-- `ParseLeaseID` accepts exactly the ids made of a lease prefix of a positive site key and
the shard digits of the acquire script, and returns the two numbers. -/
theorem parse_lease_id_iff (id : Bytes) (ref : LeaseRef) :
    parseLeaseID id = some ref ↔
      ∃ (u : Uuid) (shards n : Nat), 0 < shards ∧ shards ≤ 256 ∧
        0 < ref.siteKey ∧ ref.siteKey < 2 ^ 63 ∧ ref.shard = (n % shards : Nat) ∧
        id = leasePrefix u ref.siteKey ++ asciiBytes (hexDigits (n % shards)) := by
  constructor
  · intro parsed
    obtain ⟨u, shard, small, positive, fits, own, formed⟩ := formed_of_parsed parsed
    have same : shard % 256 = shard := Nat.mod_eq_of_lt small
    exact ⟨u, 256, shard, by decide, le_rfl, positive, fits, same.symm ▸ own, same.symm ▸ formed⟩
  · rintro ⟨u, shards, n, some_, few, positive, fits, own, rfl⟩
    rw [parsed_of_formed u positive fits ((Nat.mod_lt n some_).trans_le few), ← own]

end Spinneret.Idgen
