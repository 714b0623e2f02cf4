import Spinneret.Authz.Scope

/-!
# Checks of the access services

The field checks that tokens, users and bindings share. A failed check is an
application error with the text that names the field.
-/

namespace Spinneret.Auth

open Spinneret.Authz

set_option autoImplicit false

def check (holds : Prop) [Decidable holds] (failure : AppError) : Except AppError Unit :=
  if holds then .ok () else .error failure

def validateText (field s : String) (maxLen : Nat) : Except AppError Unit := do
  check (s.length ≤ maxLen)
    (.invalidArgument (field ++ " must be at most " ++ toString maxLen ++ " characters"))
  check (s.toList.all fun c => !Lib.isControl c.toNat || c == '\n' || c == '\t')
    (.invalidArgument (field ++ " must not contain control characters"))

def validateName (field s : String) (maxLen : Nat) : Except AppError Unit := do
  check (s.toList.any fun c => !Lib.isSpace c.toNat) (.invalidArgument (field ++ " is required"))
  validateText field s maxLen
  check (s.toList.all fun c => c != '\n' && c != '\t')
    (.invalidArgument (field ++ " must be a single line"))

def maxDescriptionLength : Nat := 1024

def minPasswordLength : Nat := 10

def maxPasswordLength : Nat := 1024

def validatePassword (password : String) : Except AppError Unit := do
  check (minPasswordLength ≤ password.length)
    (.invalidArgument ("password must be at least " ++ toString minPasswordLength ++
      " characters"))
  check (password.length ≤ maxPasswordLength)
    (.invalidArgument ("password must be at most " ++ toString maxPasswordLength ++
      " characters"))

def lowerOrDigit (c : Char) : Bool := c.isLower || c.isDigit

def validateUsername (username : String) : Except AppError Unit :=
  check (3 ≤ username.length ∧ username.length ≤ 64 ∧
      username.toList.head?.any lowerOrDigit = true ∧
      username.toList.all (fun c => lowerOrDigit c || ".-_".toList.contains c) = true)
    (.invalidArgument ("username must be 3-64 characters of a-z, 0-9, '.', '_' or '-' and " ++
      "start with a letter or digit"))

/-- `siteNamePattern`: up to 64 characters, the first no dot or dash. -/
def validSiteName (s : String) : Bool :=
  let plain := fun c : Char => lowerOrDigit c || c == '_'
  match s.toList with
  | [] => false
  | first :: rest =>
    plain first && decide (rest.length ≤ 63) && rest.all fun c => plain c || c == '.' || c == '-'

/-- A language of two or three letters and subtags of two to eight. -/
def localePattern (locale : String) : Bool :=
  let language := fun part : List Char =>
    decide (2 ≤ part.length ∧ part.length ≤ 3) && part.all Char.isAlpha
  let subtag := fun part : List Char =>
    decide (2 ≤ part.length ∧ part.length ≤ 8) && part.all Char.isAlphanum
  match locale.toList.splitOn '-' with
  | [] => false
  | first :: rest => language first && rest.all subtag

def validateLocale (locale : String) : Except AppError Unit :=
  check (locale.utf8ByteSize ≤ 35 ∧ (locale = "" ∨ localePattern locale = true))
    (.invalidArgument "locale must be a language tag such as \"en\" or \"zh-CN\"")

theorem bind_eq_ok {Failure First Second : Type} {first : Except Failure First}
    {rest : First → Except Failure Second} {result : Second} :
    (first >>= rest) = .ok result ↔ ∃ value, first = .ok value ∧ rest value = .ok result := by
  cases first with
  | error failure => exact ⟨nofun, nofun⟩
  | ok value =>
    constructor
    · exact fun ok => ⟨value, rfl, ok⟩
    · rintro ⟨other, ⟨⟩, ok⟩
      exact ok

theorem map_error_ok {Failure Other Value : Type} {first : Except Failure Value}
    {rename : Failure → Other} {value : Value} (ok : first.mapError rename = .ok value) :
    first = .ok value := by
  cases first <;> cases ok
  rfl

theorem check_ok {holds : Prop} [Decidable holds] {failure : AppError}
    (ok : check holds failure = .ok ()) : holds := by
  unfold check at ok
  split_ifs at ok with held
  exact held

theorem for_m_ok {Item : Type} {items : List Item} {test : Item → Except AppError Unit}
    (ok : items.forM test = .ok ()) : ∀ item ∈ items, test item = .ok () := by
  induction items with
  | nil => nofun
  | cons item rest ih =>
    obtain ⟨⟨⟩, head, tail⟩ := (@bind_eq_ok _ _ _ _ (fun _ => rest.forM test) _).mp ok
    exact List.forall_mem_cons.mpr ⟨head, ih tail⟩

end Spinneret.Auth
