import Mathlib.Tactic.SplitIfs
import Spinneret.Identity.Values

/-!
# Masked payloads

`mask` is what is displayed of a payload. Cookie maps are shown as functions of the names,
so equal functions are equal maps. `SameView` says which parts of two payloads agree when
nothing but the shown parts is compared.
-/

namespace Spinneret.Identity

set_option autoImplicit false

variable {Number : Type}

def maskPrefix : List Char := "••••".toList

def maskVisibleRunes : Nat := 4

def lastVisible (chars : List Char) : List Char := chars.drop (chars.length - maskVisibleRunes)

/-- `MaskString`; `maskBytes` cuts strings that are not valid UTF-8. -/
def maskString (maskBytes : List (Fin 256) → GoString) : GoString → GoString
  | .text chars =>
    .text (if chars.length ≤ maskVisibleRunes then maskPrefix
      else maskPrefix ++ lastVisible chars)
  | .malformed bytes => maskBytes bytes

inductive Shown (Number : Type) where
  | null
  | string (value : GoString)
  | cookies (value : List Char → Option GoString)
  | copied (value : JsonValue Number)

structure FieldSpec where
  ftype : FieldType
  sensitive : Bool
  deriving DecidableEq, Repr

variable (maskBytes : List (Fin 256) → GoString)

def maskSensitive : FieldType → Any Number → Shown Number
  | .cookieMap, value =>
    match parseCookieMap value with
    | none => .string (.text maskPrefix)
    | some cookies =>
      .cookies fun name => (cookieValue cookies name).map fun value =>
        maskString maskBytes (.text value)
  | .json, _ => .string (.text maskPrefix)
  | _, .string value => .string (maskString maskBytes value)
  | _, _ => .string (.text maskPrefix)

def copyValue (value : Any Number) : Shown Number :=
  (normalizeJSONValue value).elim (.string (.text maskPrefix)) .copied

def copyForDisplay (ftype : FieldType) (value : Any Number) : Shown Number :=
  if ftype = .cookieMap then
    match parseCookieMap value with
    | some cookies => .cookies fun name => (cookieValue cookies name).map .text
    | none => copyValue value
  else copyValue value

/-- What is displayed of a value that is not null. -/
def maskPresent (spec : Option FieldSpec) (value : Any Number) : Shown Number :=
  match spec with
  | none => .string (.text maskPrefix)
  | some spec =>
    if spec.sensitive then maskSensitive maskBytes spec.ftype value
    else copyForDisplay spec.ftype value

def maskField (spec : Option FieldSpec) : Any Number → Shown Number
  | .null => .null
  | value => maskPresent maskBytes spec value

def mask (fields : GoString → Option FieldSpec) (payload : Payload Number) :
    GoString → Option (Shown Number) :=
  fun name => (payload name).map (maskField maskBytes (fields name))

/-! ## What is revealed -/

/-- The same length up to four characters, and the same last four beyond. -/
def SameEnding (one other : List Char) : Prop :=
  (maskVisibleRunes < one.length ↔ maskVisibleRunes < other.length) ∧
    (maskVisibleRunes < one.length → lastVisible one = lastVisible other)

instance (one other : List Char) : Decidable (SameEnding one other) :=
  inferInstanceAs (Decidable (_ ∧ _))

def Any.isString : Any Number → Prop
  | .string _ => True
  | _ => False

/-- Field types whose sensitive values are masked by `maskString`. -/
def FieldType.plain : FieldType → Prop
  | .cookieMap => False
  | .json => False
  | _ => True

structure SameSecret (ftype : FieldType) (left right : Any Number) : Prop where
  stringness : ftype.plain → (left.isString ↔ right.isString)
  ending : ftype.plain → ∀ value value', left = .string value → right = .string value' →
    ∃ chars chars', value = .text chars ∧ value' = .text chars' ∧ SameEnding chars chars'
  parses : ftype = .cookieMap → ((parseCookieMap left).isSome ↔ (parseCookieMap right).isSome)
  names : ftype = .cookieMap → ∀ cookies cookies', parseCookieMap left = some cookies →
    parseCookieMap right = some cookies' →
    ∀ name, (cookieValue cookies name).isSome ↔ (cookieValue cookies' name).isSome
  values : ftype = .cookieMap → ∀ cookies cookies', parseCookieMap left = some cookies →
    parseCookieMap right = some cookies' → ∀ name value value',
    cookieValue cookies name = some value → cookieValue cookies' name = some value' →
    SameEnding value value'

structure SameView (fields : GoString → Option FieldSpec) (one other : Payload Number) : Prop where
  names : ∀ name, (one name).isSome ↔ (other name).isSome
  nulls : ∀ name, one name = some .null ↔ other name = some .null
  declared : ∀ name spec, fields name = some spec → spec.sensitive = false → one name = other name
  secrets : ∀ name spec value value', fields name = some spec → spec.sensitive = true →
    one name = some value → other name = some value' → SameSecret spec.ftype value value'

theorem mask_string_same {one other : List Char} (same : SameEnding one other) :
    maskString maskBytes (.text one) = maskString maskBytes (.text other) := by
  obtain ⟨long, ending⟩ := same
  rw [maskString, maskString]
  by_cases short : one.length ≤ maskVisibleRunes
  · have short' : other.length ≤ maskVisibleRunes := by omega
    rw [if_pos short, if_pos short']
  · have short' : ¬ other.length ≤ maskVisibleRunes := by omega
    rw [if_neg short, if_neg short', ending (by omega)]

theorem mask_cookies_same {left right : Any Number} (same : SameSecret .cookieMap left right) :
    maskSensitive maskBytes .cookieMap left = maskSensitive maskBytes .cookieMap right := by
  have parses := same.parses rfl
  rw [maskSensitive, maskSensitive]
  cases first : parseCookieMap left with
  | none =>
    cases second : parseCookieMap right with
    | none => rfl
    | some cookies' => simp [first, second] at parses
  | some cookies =>
    cases second : parseCookieMap right with
    | none => simp [first, second] at parses
    | some cookies' =>
      have names := same.names rfl cookies cookies' first second
      have values := same.values rfl cookies cookies' first second
      refine congrArg Shown.cookies (funext fun name => ?_)
      cases here : cookieValue cookies name with
      | none =>
        cases there : cookieValue cookies' name with
        | none => rfl
        | some value' => simpa [here, there] using names name
      | some value =>
        cases there : cookieValue cookies' name with
        | none => simpa [here, there] using names name
        | some value' =>
          exact congrArg some (mask_string_same maskBytes (values name _ _ here there))

theorem mask_plain {ftype : FieldType} (plain : ftype.plain) (value : Any Number) :
    (∃ text, value = .string text ∧
      maskSensitive maskBytes ftype value = .string (maskString maskBytes text)) ∨
    (¬ value.isString ∧ maskSensitive maskBytes ftype value = .string (.text maskPrefix)) := by
  cases ftype <;> cases value <;> simp [FieldType.plain, Any.isString, maskSensitive] at plain ⊢

theorem mask_sensitive_same {ftype : FieldType} {left right : Any Number}
    (same : SameSecret ftype left right) :
    maskSensitive maskBytes ftype left = maskSensitive maskBytes ftype right := by
  by_cases plain : ftype.plain
  · have stringness := same.stringness plain
    rcases mask_plain maskBytes plain left with ⟨text, rfl, shown⟩ | ⟨hidden, shown⟩
    · rcases mask_plain maskBytes plain right with ⟨text', rfl, shown'⟩ | ⟨hidden', shown'⟩
      · obtain ⟨chars, chars', rfl, rfl, ending⟩ := same.ending plain text text' rfl rfl
        rw [shown, shown', mask_string_same maskBytes ending]
      · exact absurd (stringness.mp trivial) hidden'
    · rcases mask_plain maskBytes plain right with ⟨text', rfl, shown'⟩ | ⟨hidden', shown'⟩
      · exact absurd (stringness.mpr trivial) hidden
      · rw [shown, shown']
  · cases ftype with
    | cookieMap => exact mask_cookies_same maskBytes same
    | json => rfl
    | string => exact absurd trivial plain
    | number => exact absurd trivial plain
    | bool => exact absurd trivial plain
    | secretRef => exact absurd trivial plain

theorem mask_field_present {value : Any Number} (present : value ≠ .null)
    (spec : Option FieldSpec) :
    maskField maskBytes spec value = maskPresent maskBytes spec value := by
  cases value <;> first | rfl | exact absurd rfl present

/-- Payloads that agree on what may be shown have equal masked payloads. -/
theorem mask_reveals_nothing_else (fields : GoString → Option FieldSpec)
    {one other : Payload Number} (same : SameView fields one other) :
    mask maskBytes fields one = mask maskBytes fields other := by
  funext name
  have names := same.names name
  have nulls := same.nulls name
  rw [mask, mask]
  cases first : one name with
  | none =>
    cases second : other name with
    | none => rfl
    | some value' => simp [first, second] at names
  | some value =>
    cases second : other name with
    | none => simp [first, second] at names
    | some value' =>
      rw [first, second, Option.some_inj, Option.some_inj] at nulls
      rw [Option.map_some, Option.map_some]
      refine congrArg some ?_
      by_cases null : value = .null
      · rw [null, nulls.mp null]
      · have null' : value' ≠ .null := fun found => null (nulls.mpr found)
        rw [mask_field_present maskBytes null, mask_field_present maskBytes null']
        cases spec : fields name with
        | none => rfl
        | some spec' =>
          rw [maskPresent, maskPresent]
          cases sensitive : spec'.sensitive with
          | false =>
            have equal := same.declared name spec' spec sensitive
            rw [first, second, Option.some_inj] at equal
            rw [equal]
          | true =>
            have secret := same.secrets name spec' value value' spec sensitive first second
            exact mask_sensitive_same maskBytes secret

def loginFields (name : GoString) : Option FieldSpec :=
  if name = .text "region".toList then some ⟨.string, false⟩
  else if name = .text "token".toList then some ⟨.string, true⟩
  else if name = .text "session".toList then some ⟨.cookieMap, true⟩
  else none

def loginPayload (token session : String) (note : Bool) : Payload Nat := fun name =>
  if name = .text "region".toList then some (.string (.text "eu".toList))
  else if name = .text "token".toList then some (.string (.text token.toList))
  else if name = .text "session".toList then some (.string (.text session.toList))
  else if name = .text "note".toList then some (.bool note)
  else none

theorem same_view_logins : SameView loginFields
    (loginPayload "first-1234" "sid=abc6789" true)
    (loginPayload "second-token-1234" "Cookie: sid=6789-6789" false) := by
  constructor
  · intro name
    unfold loginPayload
    split_ifs <;> simp
  · intro name
    unfold loginPayload
    split_ifs <;> simp
  · intro name spec declared plain
    unfold loginFields at declared
    unfold loginPayload
    split_ifs at declared with region token session
    · rw [if_pos region, if_pos region]
    · cases declared
      cases plain
    · cases declared
      cases plain
  · intro name spec value value' declared sensitive found found'
    unfold loginFields at declared
    unfold loginPayload at found found'
    split_ifs at declared with region token session
    · cases declared
      cases sensitive
    · cases declared
      rw [if_neg region, if_pos token] at found found'
      cases found
      cases found'
      exact ⟨fun _ => Iff.rfl, fun _ value value' text text' => by
        cases text
        cases text'
        exact ⟨_, _, rfl, rfl, by decide +kernel⟩, nofun, nofun, nofun⟩
    · cases declared
      rw [if_neg region, if_neg token, if_pos session] at found found'
      cases found
      cases found'
      have parsed : @parseCookieMap Nat (.string (.text "sid=abc6789".toList)) =
          some [("sid".toList, "abc6789".toList)] := by decide +kernel
      have parsed' : @parseCookieMap Nat (.string (.text "Cookie: sid=6789-6789".toList)) =
          some [("sid".toList, "6789-6789".toList)] := by decide +kernel
      have looked : ∀ text name : List Char, cookieValue [("sid".toList, text)] name =
          if "sid".toList = name then some text else none := by
        intro text name
        by_cases sid : "sid".toList = name
        · rw [if_pos sid, cookieValue, List.find?_cons_of_pos (by simpa using sid)]
          rfl
        · rw [if_neg sid, cookieValue, List.find?_cons_of_neg (by simpa using sid)]
          rfl
      refine ⟨nofun, nofun, fun _ => by rw [parsed, parsed']; simp, fun _ => ?_, fun _ => ?_⟩
      · rw [parsed, parsed']
        rintro _ _ ⟨rfl⟩ ⟨rfl⟩ name
        rw [looked, looked]
        split_ifs <;> simp
      · rw [parsed, parsed']
        rintro _ _ ⟨rfl⟩ ⟨rfl⟩ name value value' here there
        rw [looked] at here there
        split_ifs at here there
        cases here
        cases there
        decide +kernel

theorem logins_masked_alike :
    mask (fun _ => .text maskPrefix) loginFields
        (loginPayload "first-1234" "sid=abc6789" true) =
      mask (fun _ => .text maskPrefix) loginFields
        (loginPayload "second-token-1234" "Cookie: sid=6789-6789" false) :=
  mask_reveals_nothing_else _ loginFields same_view_logins

end Spinneret.Identity
