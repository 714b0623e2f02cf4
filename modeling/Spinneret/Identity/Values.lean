import Mathlib.Algebra.Ring.Nat
import Mathlib.Data.List.Basic
import Spinneret.Site.Path

/-!
# Payload values

The dynamically typed values of a payload, and how they are coerced to the kinds of the
declared fields. Strings are lists of characters; one that is not valid UTF-8 is kept apart,
as every coercion refuses it. Maps are lists of their members. Errors carry no text here.
-/

namespace Spinneret.Identity

set_option autoImplicit false

inductive GoString where
  | text (chars : List Char)
  | malformed (bytes : List (Fin 256))
  deriving DecidableEq, Repr

def GoString.chars : GoString → Option (List Char)
  | .text chars => some chars
  | .malformed _ => none

/-- Go values by their dynamic types: `map[string]any`, `map[string]string`, `map[any]any`,
`[]any`, `[]string` and `[]map[string]any` among them. A number is what its conversion to a
finite double gives, if anything. -/
inductive Any (Number : Type) where
  | null
  | bool (value : Bool)
  | string (value : GoString)
  | number (value : Option Number)
  | object (members : List (GoString × Any Number))
  | stringMap (members : List (GoString × GoString))
  | anyMap (members : List (Any Number × Any Number))
  | array (items : List (Any Number))
  | stringArray (items : List GoString)
  | objectArray (items : List (List (GoString × Any Number)))
  | other

/-- Coerced values; `cookies` is a `map[string]string`. -/
inductive JsonValue (Number : Type) where
  | null
  | bool (value : Bool)
  | number (value : Number)
  | string (chars : List Char)
  | array (items : List (JsonValue Number))
  | object (members : List (List Char × JsonValue Number))
  | cookies (members : List (List Char × List Char))

/-- The fields of a payload; a nil payload has none. -/
abbrev Payload (Number : Type) := GoString → Option (Any Number)

variable {Number : Type}

/-! ## JSON values -/

def maxJSONDepth : Nat := 64

/-- A member, when both its key and its value are accepted. -/
def pairUp (key : Option (List Char)) (value : Option (JsonValue Number)) :
    Option (List Char × JsonValue Number) := do
  let key ← key
  let value ← value
  return (key, value)

def stringKey : Any Number → Option (List Char)
  | .string key => key.chars
  | _ => none

/-- `normalizeJSONValue` with the levels that are left. -/
def normalizeFrom : Nat → Any Number → Option (JsonValue Number)
  | 0, _ => none
  | levels + 1, value =>
    match value with
    | .null => some .null
    | .bool value => some (.bool value)
    | .string value => value.chars.map JsonValue.string
    | .object members =>
      (members.mapM fun (member : GoString × Any Number) =>
        pairUp member.1.chars (normalizeFrom levels member.2)).map JsonValue.object
    | .stringMap members =>
      (members.mapM fun (member : GoString × GoString) =>
        pairUp member.1.chars (member.2.chars.map JsonValue.string)).map JsonValue.object
    | .anyMap members =>
      (members.mapM fun (member : Any Number × Any Number) =>
        pairUp (stringKey member.1) (normalizeFrom levels member.2)).map JsonValue.object
    | .array items => (items.mapM (normalizeFrom levels)).map JsonValue.array
    | .stringArray items =>
      (items.mapM fun (item : GoString) => item.chars.map JsonValue.string).map
        JsonValue.array
    | .number value => value.map JsonValue.number
    | .objectArray _ => none
    | .other => none

def normalizeJSONValue (value : Any Number) : Option (JsonValue Number) :=
  normalizeFrom (maxJSONDepth + 1) value

/-- `strconv.Atoi`, where a value out of range is none of an array's indexes anyway. -/
def atoi (key : List Char) : Option Int :=
  let digits := match key with
    | '-' :: rest => rest
    | '+' :: rest => rest
    | _ => key
  if digits ≠ [] ∧ digits.all Char.isDigit then
    let value : Nat := digits.foldl (fun value c => value * 10 + (c.toNat - '0'.toNat)) 0
    some (if key.head? = some '-' then -(value : Int) else value)
  else none

def lookupJSON : Any Number → List (List Char) → Any Number
  | value, [] => value
  | .object members, key :: sub =>
    lookupJSON ((members.find? fun member => member.1 = .text key).elim .null Prod.snd) sub
  | .stringMap members, key :: sub =>
    match members.find? fun member => member.1 = .text key with
    | none => .null
    | some member => lookupJSON (.string member.2) sub
  | .array items, key :: sub =>
    match atoi key with
    | none => .null
    | some index =>
      if 0 ≤ index ∧ index < items.length then lookupJSON (items.getD index.toNat .null) sub
      else .null
  | _, _ :: _ => .null

/-! ## Cookies -/

def maxCookies : Nat := 1024

def maxCookieNameBytes : Nat := 1024

def maxCookieValueBytes : Nat := 16384

def utf8Length (chars : List Char) : Nat := (chars.map fun c => c.utf8Size).sum

/-- `strings.Trim` of blanks and tabs. -/
def trimBlanks (chars : List Char) : List Char :=
  Lib.trimBoth (fun c => c == ' ' || c == '\t') chars

def validCookieName (name : List Char) : Bool :=
  decide (name ≠ []) && decide (utf8Length name ≤ maxCookieNameBytes) && name.all fun c =>
    !(decide (c.toNat ≤ 0x20) || c == '\x7f' || c == '=' || c == ';' || c == ',' || c == '"')

def validCookieValue (value : List Char) : Bool :=
  decide (utf8Length value ≤ maxCookieValueBytes) && value.all fun c =>
    !((decide (c.toNat < 0x20) && c != '\t') || c == '\x7f' || c == ';')

def setMember {Key Value : Type} [DecidableEq Key] (members : List (Key × Value)) (key : Key)
    (value : Value) : List (Key × Value) :=
  if key ∈ members.map Prod.fst then
    members.map fun member => if member.1 = key then (key, value) else member
  else members ++ [(key, value)]

abbrev Cookies := List (List Char × List Char)

def cookieValue (cookies : Cookies) (name : List Char) : Option (List Char) :=
  (cookies.find? fun member => member.1 = name).map Prod.snd

/-- `addNamedCookie` and `addCookieAt`, which differ in their messages. -/
def addCookie (out : Cookies) (name value : GoString) : Option Cookies := do
  let name ← name.chars
  let value ← value.chars
  if validCookieName name && validCookieValue value then return setMember out name value else none

/-- The text after the first `=`, with the text before it. -/
def cutEquals (part : List Char) : Option (List Char × List Char) :=
  if '=' ∈ part then
    some (part.takeWhile fun c => c != '=', (part.dropWhile fun c => c != '=').drop 1)
  else none

def addPair (out : Cookies) (part : List Char) : Option Cookies :=
  let part := trimBlanks part
  if part = [] then some out
  else do
    let (name, value) ← cutEquals part
    let out ← addCookie out (.text (trimBlanks name)) (.text (trimBlanks value))
    if maxCookies < out.length then none else return out

def parseCookieHeader (header : List Char) : Option Cookies :=
  let header := Lib.trimSpace header
  let header :=
    if (header.take 7).map Char.toLower = "cookie:".toList then header.drop 7 else header
  (header.splitOn ';').foldlM addPair []

def entryCookie (members : List (GoString × Any Number)) : Option (GoString × GoString) := do
  let field := fun (key : String) =>
    match members.find? fun member => member.1 = .text key.toList with
    | some (_, .string value) => some value
    | _ => none
  let name ← field "name"
  let value ← field "value"
  return (name, value)

def parseCookieArray (items : List (Any Number)) : Option Cookies :=
  if maxCookies < items.length then none
  else
    items.foldlM (fun out item => do
      let members ← match item with
        | .object members => some members
        | _ => none
      let (name, value) ← entryCookie members
      addCookie out name value) []

/-- `ParseCookieMap`. A header that is not valid UTF-8 has a pair that is not. -/
def parseCookieMap : Any Number → Option Cookies
  | .stringMap members =>
    if maxCookies < members.length then none
    else members.foldlM (fun out member => addCookie out member.1 member.2) []
  | .object members =>
    if maxCookies < members.length then none
    else
      members.foldlM (fun out member => do
        let value ← match member.2 with
          | .string value => some value
          | _ => none
        addCookie out member.1 value) []
  | .string (.text header) => parseCookieHeader header
  | .string (.malformed _) => none
  | .array items => parseCookieArray items
  | .objectArray items => parseCookieArray (items.map Any.object)
  | _ => none

/-! ## Declared fields -/

inductive FieldType where
  | string
  | number
  | bool
  | cookieMap
  | secretRef
  | json
  deriving DecidableEq, Repr

/-- The number library: `parse` reads a numeric string as a finite double and `format` writes
the one representation of a number. -/
structure Numerals (Number : Type) where
  parse : List Char → Option Number
  format : Number → List Char

def parseBool (chars : List Char) : Option Bool :=
  if chars ∈ ["1", "t", "T", "TRUE", "true", "True"].map String.toList then some true
  else if chars ∈ ["0", "f", "F", "FALSE", "false", "False"].map String.toList then some false
  else none

def isPathStart (c : Char) : Bool := c.isDigit || decide ('a' ≤ c ∧ c ≤ 'z')

def isPathChar (c : Char) : Bool := isPathStart c || c == '_' || c == '.' || c == '/' || c == '-'

def validSecretRefPath (path : List Char) : Bool :=
  (path.head?.any isPathStart) && decide (path.length ≤ 256) && path.all isPathChar &&
    (path.splitOn '/').all fun segment =>
      decide (segment ≠ [] ∧ segment ≠ ['.'] ∧ segment ≠ ['.', '.'])

variable (numerals : Numerals Number)

def coerceNumber : Any Number → Option Number
  | .string value => value.chars.bind fun chars => numerals.parse (Lib.trimSpace chars)
  | .number value => value
  | _ => none

def coerceBool : Any Number → Option Bool
  | .bool value => some value
  | .string value => value.chars.bind fun chars => parseBool (Lib.trimSpace chars)
  | _ => none

def normalizeField : FieldType → Any Number → Option (JsonValue Number)
  | .string, .string value => value.chars.map .string
  | .string, _ => none
  | .number, value => (coerceNumber numerals value).map .number
  | .bool, value => (coerceBool value).map .bool
  | .cookieMap, value => (parseCookieMap value).map .cookies
  | .secretRef, .string value =>
    value.chars.bind fun path => if validSecretRefPath path then some (.string path) else none
  | .secretRef, _ => none
  | .json, value => normalizeJSONValue value

end Spinneret.Identity
