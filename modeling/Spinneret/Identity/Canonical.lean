import Mathlib.Data.List.Sort
import Mathlib.Data.String.Basic
import Spinneret.Identity.Values
import Spinneret.Lib.Fallible
import Spinneret.Lib.JsonString
import Spinneret.Lib.Separated

/-!
# Canonical JSON and unique keys

`writeFrom` writes a coerced value with the members of every object in the order of their
names. A reader takes the ordered value back out of the text, so two values have the same
text exactly when they are equal up to the order of members. The unique key of a payload is
the text of its coerced unique_by values.
-/

namespace Spinneret.Identity

open Spinneret.Lib

set_option autoImplicit false

variable {Number Value : Type}

/-! ## Writer -/

/-- Members by the byte order of their names, which is the order of their characters. -/
def sortMembers (members : List (List Char × Value)) : List (List Char × Value) :=
  members.insertionSort fun one other => one.1 ≤ other.1

def quoted (chars : List Char) : List Char := '"' :: (escapeText chars ++ ['"'])

def writeMember (key text : List Char) : List Char := quoted key ++ ':' :: text

def commas (texts : List (List Char)) : List Char := [','].intercalate texts

/-- `writeCanonical` with the levels that are left. -/
def writeFrom (format : Number → List Char) : Nat → JsonValue Number → Option (List Char)
  | 0, _ => none
  | levels + 1, value =>
    match value with
    | .null => some "null".toList
    | .bool value => some (if value then "true".toList else "false".toList)
    | .number value => some (format value)
    | .string chars => some (quoted chars)
    | .array items =>
      (items.mapM (writeFrom format levels)).map fun texts => '[' :: (commas texts ++ [']'])
    | .object members =>
      ((sortMembers members).mapM fun (member : List Char × JsonValue Number) =>
        (writeFrom format levels member.2).map (writeMember member.1)).map
          fun texts => '{' :: (commas texts ++ ['}'])
    | .cookies members =>
      some ('{' :: (commas ((sortMembers members).map fun member =>
        writeMember member.1 (quoted member.2)) ++ ['}']))

def canonicalJSON (format : Number → List Char) (value : JsonValue Number) : Option (List Char) :=
  writeFrom format (maxJSONDepth + 1) value

/-! ## Values up to the order of members -/

mutual

/-- The value with the members of all objects in order, cookies as an object of strings. -/
def canon : JsonValue Number → JsonValue Number
  | .array items => .array (canonItems items)
  | .object members => .object (sortMembers (canonMembers members))
  | .cookies members =>
    .object (sortMembers (members.map fun member => (member.1, JsonValue.string member.2)))
  | .null => .null
  | .bool value => .bool value
  | .number value => .number value
  | .string chars => .string chars

def canonItems : List (JsonValue Number) → List (JsonValue Number)
  | [] => []
  | item :: items => canon item :: canonItems items

def canonMembers : List (List Char × JsonValue Number) → List (List Char × JsonValue Number)
  | [] => []
  | (key, value) :: members => (key, canon value) :: canonMembers members

end

/-- Equal regardless of the order of members. -/
def SameValue (one other : JsonValue Number) : Prop := canon one = canon other

theorem canon_items_map (items : List (JsonValue Number)) : canonItems items = items.map canon := by
  induction items with
  | nil => rw [canonItems, List.map_nil]
  | cons item items ih => rw [canonItems, ih, List.map_cons]

theorem canon_members_map (members : List (List Char × JsonValue Number)) :
    canonMembers members = members.map fun member => (member.1, canon member.2) := by
  induction members with
  | nil => rw [canonMembers, List.map_nil]
  | cons member members ih => rw [canonMembers, ih, List.map_cons]

theorem sort_members_map {Other : Type} (change : Value → Other)
    (members : List (List Char × Value)) :
    sortMembers (members.map fun member => (member.1, change member.2)) =
      (sortMembers members).map fun member => (member.1, change member.2) := by
  refine (List.map_insertionSort (fun one other => one.1 ≤ other.1)
    (fun one other => one.1 ≤ other.1) (fun member : List Char × Value =>
      (member.1, change member.2)) members ?_).symm
  exact fun _ _ _ _ => Iff.rfl

theorem sort_members_sorted (members : List (List Char × Value)) :
    (sortMembers members).Pairwise fun one other => one.1 ≤ other.1 := by
  have total : Std.Total fun (one other : List Char × Value) => one.1 ≤ other.1 :=
    ⟨fun one other => le_total one.1 other.1⟩
  have trans : IsTrans (List Char × Value) fun one other => one.1 ≤ other.1 :=
    ⟨fun _ _ _ first second => le_trans first second⟩
  exact List.pairwise_insertionSort _ members

theorem sort_members_again (members : List (List Char × Value)) :
    sortMembers (sortMembers members) = sortMembers members :=
  (sort_members_sorted members).insertionSort_eq

/-- Values that are equal up to order have one text. The text of cookies as an object needs
one more level. -/
theorem write_canon (format : Number → List Char) (levels : Nat) (value : JsonValue Number)
    {text : List Char} (written : writeFrom format levels value = some text) :
    writeFrom format (levels + 1) (canon value) = some text := by
  induction levels generalizing value text with
  | zero => cases written
  | succ levels ih =>
    cases value with
    | null => exact written
    | bool value => exact written
    | number value => exact written
    | string chars => exact written
    | array items =>
      obtain ⟨texts, all, built⟩ := Option.map_eq_some_iff.mp written
      rw [canon, canon_items_map, writeFrom, map_m_map all fun item one => ih item]
      exact congrArg some built
    | object members =>
      obtain ⟨texts, all, built⟩ := Option.map_eq_some_iff.mp written
      have step : ∀ (member : List Char × JsonValue Number) (one : List Char),
          (writeFrom format levels member.2).map (writeMember member.1) = some one →
          (writeFrom format (levels + 1) (canon member.2)).map (writeMember member.1) =
            some one := by
        intro member one done
        obtain ⟨inner, wrote, same⟩ := Option.map_eq_some_iff.mp done
        rw [ih member.2 wrote, Option.map_some, same]
      rw [canon, writeFrom, sort_members_again, canon_members_map, sort_members_map,
        map_m_map all step]
      exact congrArg some built
    | cookies members =>
      have all : (sortMembers members).mapM (fun member : List Char × List Char =>
          some (writeMember member.1 (quoted member.2))) =
            some ((sortMembers members).map fun member =>
              writeMember member.1 (quoted member.2)) := List.mapM_pure
      have strings := @map_m_map _ _ _ _ (fun member : List Char × JsonValue Number =>
        (writeFrom format (levels + 1) member.2).map (writeMember member.1))
        (fun member : List Char × List Char => (member.1, .string member.2)) _ _ all
        fun _ _ done => done
      rw [canon, writeFrom, sort_members_again, sort_members_map, strings]
      exact written

/-! ## Reader -/

def isNumberChar (c : Char) : Bool := c.isDigit || c == '-' || c == '+' || c == '.' || c == 'e'

def readLiteral (text : List Char) : Option (List Char × List Char) :=
  (cutLiteral .plain text).map fun (inside, rest) => (decodeInside inside, rest)

def readMember (read : List Char → Option (Value × List Char)) :
    List Char → Option ((List Char × Value) × List Char)
  | '"' :: text =>
    match readLiteral text with
    | some (key, ':' :: rest) => (read rest).map fun (value, rest) => ((key, value), rest)
    | _ => none
  | _ => none

/-- A value off the front of a text, by the first character of it. -/
def readFrom (parse : List Char → Option Number) :
    Nat → List Char → Option (JsonValue Number × List Char)
  | 0, _ => none
  | levels + 1, text =>
    match text with
    | [] => none
    | c :: rest =>
      if c = '"' then
        (readLiteral rest).map fun (chars, rest) => (.string chars, rest)
      else if c = '[' then
        (readList (readFrom parse levels) ',' ']' rest).map fun (items, rest) =>
          (.array items, rest)
      else if c = '{' then
        (readList (readMember (readFrom parse levels)) ',' '}' rest).map fun (members, rest) =>
          (.object members, rest)
      else if c = 'n' then some (.null, rest.drop 3)
      else if c = 't' then some (.bool true, rest.drop 3)
      else if c = 'f' then some (.bool false, rest.drop 4)
      else
        (parse (text.takeWhile isNumberChar)).map fun value =>
          (.number value, text.dropWhile isNumberChar)

/-- What is assumed of the formatting of numbers. -/
structure FormatLaws (format : Number → List Char) : Prop where
  injective : Function.Injective format
  nonempty : ∀ value, format value ≠ []
  numeric : ∀ value, ∀ c ∈ format value, isNumberChar c = true

def Stops (rest : List Char) : Prop := ∀ c ∈ rest.head?, isNumberChar c = false

variable {format : Number → List Char} {parse : List Char → Option Number}

theorem read_literal_quoted (chars rest : List Char) :
    readLiteral (escapeText chars ++ '"' :: rest) = some (chars, rest) := by
  rw [readLiteral, cut_literal_run (escape_text_scan chars).1 rest, Option.map_some]
  dsimp only
  rw [decode_escape]

theorem read_string (levels : Nat) (chars rest : List Char) :
    readFrom parse (levels + 1) (quoted chars ++ rest) = some (.string chars, rest) := by
  have split : quoted chars ++ rest = '"' :: (escapeText chars ++ '"' :: rest) := by
    simp [quoted]
  rw [split, readFrom, if_pos rfl, read_literal_quoted]
  rfl

theorem read_number (laws : FormatLaws format) (parsed : ∀ value, parse (format value) = some value)
    (levels : Nat) (value : Number) {rest : List Char} (stops : Stops rest) :
    readFrom parse (levels + 1) (format value ++ rest) = some (.number value, rest) := by
  have taken : (format value ++ rest).takeWhile isNumberChar = format value := by
    rw [List.takeWhile_append_of_pos (laws.numeric value)]
    cases rest with
    | nil => simp
    | cons c rest => simp [stops c rfl]
  have left : (format value ++ rest).dropWhile isNumberChar = rest := by
    rw [List.dropWhile_append_of_pos (laws.numeric value)]
    cases rest with
    | nil => rfl
    | cons c rest => simp [stops c rfl]
  have numeric := laws.numeric value
  have parsed := parsed value
  obtain ⟨c, tail, shape⟩ := List.exists_cons_of_ne_nil (laws.nonempty value)
  rw [shape] at taken left numeric parsed ⊢
  have first : isNumberChar c = true := numeric c List.mem_cons_self
  have other : ∀ special, isNumberChar special = false → c ≠ special := by
    rintro special plain rfl
    rw [plain] at first
    cases first
  rw [List.cons_append] at taken left ⊢
  rw [readFrom, if_neg (other _ (by decide)), if_neg (other _ (by decide)),
    if_neg (other _ (by decide)), if_neg (other _ (by decide)), if_neg (other _ (by decide)),
    if_neg (other _ (by decide)), taken, left, parsed]
  rfl

/-- No text of a value could be taken for the end of a list. -/
theorem written_head (laws : FormatLaws format) {levels : Nat} {value : JsonValue Number}
    {text : List Char} (written : writeFrom format levels value = some text) :
    text ≠ [] ∧ text.head? ≠ some ']' ∧ text.head? ≠ some '}' := by
  cases levels with
  | zero => cases written
  | succ levels =>
    cases value with
    | null =>
      cases written
      decide
    | bool value =>
      cases written
      cases value <;> decide
    | number value =>
      cases written
      have numeric := laws.numeric value
      obtain ⟨c, tail, shape⟩ := List.exists_cons_of_ne_nil (laws.nonempty value)
      rw [shape] at numeric ⊢
      have first : isNumberChar c = true := numeric c List.mem_cons_self
      refine ⟨by simp, ?_, ?_⟩ <;>
      · rintro ⟨rfl⟩
        revert first
        decide
    | string chars =>
      cases written
      simp [quoted]
    | array items =>
      obtain ⟨texts, _, rfl⟩ := Option.map_eq_some_iff.mp written
      simp
    | object members =>
      obtain ⟨texts, _, rfl⟩ := Option.map_eq_some_iff.mp written
      simp
    | cookies members =>
      cases written
      simp

theorem member_taken_off {read : List Char → Option (Value × List Char)} {text : List Char}
    {value : Value} (key : List Char)
    (taken : ∀ c rest, c = ',' ∨ c = '}' → read (text ++ c :: rest) = some (value, c :: rest)) :
    TakenOff (readMember read) ',' '}' (writeMember key text) (key, value) := by
  refine ⟨by simp [writeMember, quoted], by simp [writeMember, quoted], fun c rest next => ?_⟩
  have split : writeMember key text ++ c :: rest =
      '"' :: (escapeText key ++ '"' :: ':' :: (text ++ c :: rest)) := by
    simp [writeMember, quoted]
  rw [split, readMember, read_literal_quoted]
  change (read (text ++ c :: rest)).map _ = _
  rw [taken c rest next]
  rfl

theorem stops_after {c : Char} (rest : List Char) (next : c = ',' ∨ c = ']' ∨ c = '}') :
    Stops (c :: rest) := by
  rintro found ⟨rfl⟩
  rcases next with rfl | rfl | rfl <;> decide

theorem read_array {levels : Nat} {texts : List (List Char)} {items : List (JsonValue Number)}
    (taken : List.Forall₂ (TakenOff (readFrom parse levels) ',' ']') texts items)
    (rest : List Char) :
    readFrom parse (levels + 1) ('[' :: (commas texts ++ [']']) ++ rest) =
      some (.array items, rest) := by
  have split : '[' :: (commas texts ++ [']']) ++ rest = '[' :: (commas texts ++ ']' :: rest) := by
    simp
  rw [split, readFrom, if_neg (by decide), if_pos rfl, commas,
    read_list_joined (by decide) taken]
  rfl

theorem read_object {levels : Nat} {texts : List (List Char)}
    {members : List (List Char × JsonValue Number)}
    (taken : List.Forall₂ (TakenOff (readMember (readFrom parse levels)) ',' '}') texts members)
    (rest : List Char) :
    readFrom parse (levels + 1) ('{' :: (commas texts ++ ['}']) ++ rest) =
      some (.object members, rest) := by
  have split : '{' :: (commas texts ++ ['}']) ++ rest = '{' :: (commas texts ++ '}' :: rest) := by
    simp
  rw [split, readFrom, if_neg (by decide), if_neg (by decide), if_pos rfl, commas,
    read_list_joined (by decide) taken]
  rfl

/-- The text of a value is read back as the ordered value, whatever follows it. -/
theorem read_written (laws : FormatLaws format)
    (parsed : ∀ value, parse (format value) = some value) (levels : Nat)
    (value : JsonValue Number) {text : List Char}
    (written : writeFrom format levels value = some text) {rest : List Char}
    (stops : Stops rest) :
    readFrom parse (levels + 1) (text ++ rest) = some (canon value, rest) := by
  induction levels generalizing value text rest with
  | zero => cases written
  | succ levels ih =>
    cases value with
    | null =>
      cases written
      rfl
    | bool value =>
      cases written
      cases value <;> rfl
    | number value =>
      cases written
      exact read_number laws parsed _ value stops
    | string chars =>
      cases written
      exact read_string _ chars rest
    | array items =>
      obtain ⟨texts, all, rfl⟩ := Option.map_eq_some_iff.mp written
      have taken : List.Forall₂ (TakenOff (readFrom parse (levels + 1)) ',' ']') texts
          (items.map canon) := by
        rw [List.forall₂_map_right_iff]
        refine ((map_m_forall₂ all).imp fun item one wrote => ?_).flip
        obtain ⟨full, open', _⟩ := written_head laws wrote
        exact ⟨full, open', fun c rest next => ih item wrote (stops_after rest (by tauto))⟩
      rw [canon, canon_items_map]
      exact read_array taken rest
    | object members =>
      obtain ⟨texts, all, rfl⟩ := Option.map_eq_some_iff.mp written
      have taken : List.Forall₂ (TakenOff (readMember (readFrom parse (levels + 1))) ',' '}')
          texts ((sortMembers members).map fun member => (member.1, canon member.2)) := by
        rw [List.forall₂_map_right_iff]
        refine ((map_m_forall₂ all).imp fun member one wrote => ?_).flip
        obtain ⟨inner, wroteInner, rfl⟩ := Option.map_eq_some_iff.mp wrote
        exact member_taken_off member.1 fun c rest next =>
          ih member.2 wroteInner (stops_after rest (by tauto))
      rw [canon, canon_members_map, sort_members_map]
      exact read_object taken rest
    | cookies members =>
      cases written
      have taken : List.Forall₂ (TakenOff (readMember (readFrom parse (levels + 1))) ',' '}')
          ((sortMembers members).map fun member => writeMember member.1 (quoted member.2))
          ((sortMembers members).map fun member => (member.1, JsonValue.string member.2)) := by
        rw [List.forall₂_map_left_iff, List.forall₂_map_right_iff, List.forall₂_same]
        exact fun member _ => member_taken_off member.1 fun c rest _ => read_string _ _ _
      rw [canon, sort_members_map]
      exact read_object taken rest

/-- Two values have the same text exactly when they are equal up to the order of members. -/
theorem same_text_iff (laws : FormatLaws format) {levels : Nat} {one other : JsonValue Number}
    {oneText otherText : List Char} (oneWritten : writeFrom format levels one = some oneText)
    (otherWritten : writeFrom format levels other = some otherText) :
    oneText = otherText ↔ SameValue one other := by
  classical
  have parsed : ∀ value, Function.partialInv format (format value) = some value :=
    Function.partialInv_left laws.injective
  have ends : Stops [] := nofun
  have first := read_written laws parsed levels one oneWritten ends
  have second := read_written laws parsed levels other otherWritten ends
  constructor
  · rintro rfl
    rw [first] at second
    exact (Prod.mk.inj (Option.some.inj second)).1
  · intro same
    have again := write_canon format levels one oneWritten
    rw [same, write_canon format levels other otherWritten] at again
    exact (Option.some.inj again).symm

/-! ## Unique keys -/

/-- A resolved unique_by path; of a cookie map, `sub` is at most the name of a cookie. -/
structure FieldPath where
  field : List Char
  ftype : FieldType
  sub : List (List Char)
  deriving DecidableEq, Repr

variable (numerals : Numerals Number)

def uniqueValue (payload : Payload Number) (path : FieldPath) : Option (JsonValue Number) :=
  match payload (.text path.field) with
  | none => some .null
  | some .null => some .null
  | some raw =>
    match path.ftype with
    | .cookieMap =>
      (parseCookieMap raw).map fun cookies =>
        match path.sub with
        | [] => .cookies cookies
        | name :: _ => (cookieValue cookies name).elim .null .string
    | .json => normalizeJSONValue (lookupJSON raw path.sub)
    | ftype => normalizeField numerals ftype raw

def isEmptyValue : JsonValue Number → Bool
  | .null => true
  | .string chars => chars.isEmpty
  | .cookies members => members.isEmpty
  | .object members => members.isEmpty
  | .array items => items.isEmpty
  | .bool _ => false
  | .number _ => false

def presentValue (payload : Payload Number) (path : FieldPath) : Option (JsonValue Number) :=
  (uniqueValue numerals payload path).filter fun value => !isEmptyValue value

def uniqueKey (uniqueBy : List FieldPath) (payload : Payload Number) : Option (List Char) :=
  (uniqueBy.mapM (presentValue numerals payload)).bind fun values =>
    canonicalJSON numerals.format (.array values)

def SameAt (one other : Payload Number) (path : FieldPath) : Prop :=
  Option.Rel SameValue (uniqueValue numerals one path) (uniqueValue numerals other path)

theorem unique_key_values {uniqueBy : List FieldPath} {payload : Payload Number}
    {key : List Char} (found : uniqueKey numerals uniqueBy payload = some key) :
    ∃ values, List.Forall₂ (fun path value => uniqueValue numerals payload path = some value)
      uniqueBy values ∧ canonicalJSON numerals.format (.array values) = some key := by
  obtain ⟨values, all, written⟩ := Option.bind_eq_some_iff.mp found
  refine ⟨values, (map_m_forall₂ all).imp fun path value present => ?_, written⟩
  exact (Option.filter_eq_some_iff.mp present).1

theorem same_at_all {uniqueBy : List FieldPath} {one other : Payload Number}
    {oneValues otherValues : List (JsonValue Number)}
    (first : List.Forall₂ (fun path value => uniqueValue numerals one path = some value)
      uniqueBy oneValues)
    (second : List.Forall₂ (fun path value => uniqueValue numerals other path = some value)
      uniqueBy otherValues) :
    oneValues.map canon = otherValues.map canon ↔
      ∀ path ∈ uniqueBy, SameAt numerals one other path := by
  induction first generalizing otherValues with
  | nil =>
    cases second
    simp
  | @cons path value paths values found later ih =>
    cases second with
    | @cons _ value' _ values' found' later' =>
      have here : SameAt numerals one other path ↔ canon value = canon value' := by
        rw [SameAt, found, found', Option.rel_some_some, SameValue]
      rw [List.map_cons, List.map_cons, List.cons.injEq, ih later', List.forall_mem_cons, here]

/-- Two payloads have the same digest of their unique keys exactly when the coerced values of
all unique_by paths are equal, up to the order of members. -/
theorem unique_keys_identify (laws : FormatLaws numerals.format) {Digest : Type}
    {digest : List Char → Digest} (collisionFree : Function.Injective digest)
    {uniqueBy : List FieldPath} {one other : Payload Number} {oneKey otherKey : List Char}
    (oneFound : uniqueKey numerals uniqueBy one = some oneKey)
    (otherFound : uniqueKey numerals uniqueBy other = some otherKey) :
    digest oneKey = digest otherKey ↔ ∀ path ∈ uniqueBy, SameAt numerals one other path := by
  obtain ⟨oneValues, first, oneWritten⟩ := unique_key_values numerals oneFound
  obtain ⟨otherValues, second, otherWritten⟩ := unique_key_values numerals otherFound
  rw [collisionFree.eq_iff, same_text_iff laws oneWritten otherWritten, SameValue, canon, canon,
    JsonValue.array.injEq, canon_items_map, canon_items_map, same_at_all numerals first second]

def digitNumerals : Numerals (Fin 10) where
  parse chars := (List.finRange 10).find? fun digit => chars = [Nat.digitChar digit]
  format digit := [Nat.digitChar digit]

def accountPaths : List FieldPath :=
  [⟨"id".toList, .number, []⟩, ⟨"session".toList, .cookieMap, []⟩]

/-- A browser payload: the number as text, the cookies as a header. -/
def browserPayload : Payload (Fin 10) := fun field =>
  if field = .text "id".toList then some (.string (.text " 7".toList))
  else if field = .text "session".toList then some (.string (.text "Cookie: b=2; a=\"".toList))
  else none

/-- The same account from an export. -/
def exportedPayload : Payload (Fin 10) := fun field =>
  if field = .text "id".toList then some (.number (some 7))
  else if field = .text "session".toList then
    some (.object [(.text ['a'], .string (.text ['"'])), (.text ['b'], .string (.text ['2']))])
  else none

theorem exported_account_same_key :
    ∃ oneKey otherKey, uniqueKey digitNumerals accountPaths browserPayload = some oneKey ∧
      uniqueKey digitNumerals accountPaths exportedPayload = some otherKey ∧
      oneKey = otherKey ∧
      ∀ path ∈ accountPaths, SameAt digitNumerals browserPayload exportedPayload path := by
  have laws : FormatLaws digitNumerals.format :=
    ⟨by unfold Function.Injective; decide, by decide,
      fun digit => List.all_eq_true.mp (by revert digit; decide)⟩
  have one : uniqueKey digitNumerals accountPaths browserPayload =
      some "[7,\x7b\"a\":\"\\\"\",\"b\":\"2\"\x7d]".toList := by decide +kernel
  have other : uniqueKey digitNumerals accountPaths exportedPayload =
      some "[7,\x7b\"a\":\"\\\"\",\"b\":\"2\"\x7d]".toList := by decide +kernel
  exact ⟨_, _, one, other, rfl, (unique_keys_identify digitNumerals laws
    Function.injective_id one other).mp rfl⟩

end Spinneret.Identity
