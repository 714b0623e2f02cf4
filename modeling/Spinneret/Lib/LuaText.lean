import Mathlib.Data.List.Infix
import Spinneret.Lib.Byte

/-!
# Lexical structure of Lua 5.1

A text is a sequence of lexemes: bytes of code, string literals and comments. Only what keeps
them apart is stated: quotes and escapes, long brackets of any level, and the ends of lines. The
rules for names, numbers and operators are left out, so that every valid text is covered.
-/

namespace Spinneret.LuaText

set_option autoImplicit false

abbrev Text := List (Fin 256)

def lineFeed : Fin 256 := 0x0A

def carriageReturn : Fin 256 := 0x0D

def doubleQuote : Fin 256 := 0x22

def singleQuote : Fin 256 := 0x27

def dash : Fin 256 := 0x2D

def equalSign : Fin 256 := 0x3D

def leftBracket : Fin 256 := 0x5B

def backslash : Fin 256 := 0x5C

def rightBracket : Fin 256 := 0x5D

def IsNewline (c : Fin 256) : Prop := c = lineFeed ∨ c = carriageReturn

def IsQuote (c : Fin 256) : Prop := c = doubleQuote ∨ c = singleQuote

def opening (level : Nat) : Text :=
  leftBracket :: (List.replicate level equalSign ++ [leftBracket])

def closing (level : Nat) : Text :=
  rightBracket :: (List.replicate level equalSign ++ [rightBracket])

def Opens (text : Text) : Prop := ∃ level, opening level <+: text

/-- A body whose first closing bracket of the level comes right after it. -/
def Enclosed (level : Nat) (body : Text) : Prop :=
  ∀ i < body.length, ¬ closing level <+: (body ++ closing level).drop i

/-- What stands between quotes. An escape covers the byte after it, also a newline. -/
inductive StringBody (quote : Fin 256) : Text → Prop
  | nil : StringBody quote []
  | plain {c : Fin 256} {body : Text} (other : c ≠ quote) (unescaped : c ≠ backslash)
      (sameLine : ¬ IsNewline c) (rest : StringBody quote body) : StringBody quote (c :: body)
  | escape {c : Fin 256} {body : Text} (rest : StringBody quote body) :
      StringBody quote (backslash :: c :: body)

inductive Lexeme where
  | code (c : Fin 256)
  | string (text : Text)
  | comment (text : Text)
  deriving DecidableEq

def Lexeme.text : Lexeme → Text
  | .code c => [c]
  | .string text => text
  | .comment text => text

def Lexeme.isComment : Lexeme → Bool
  | .comment _ => true
  | _ => false

/-- A lexeme and what may follow it. -/
inductive Token : Lexeme → Text → Prop
  | code {c : Fin 256} {rest : Text} (unquoted : ¬ IsQuote c)
      (uncommented : ¬ [dash, dash] <+: c :: rest) (short : ¬ Opens (c :: rest)) :
      Token (.code c) rest
  | quoted {quote : Fin 256} {body rest : Text} (isQuote : IsQuote quote)
      (inside : StringBody quote body) : Token (.string (quote :: (body ++ [quote]))) rest
  | long {level : Nat} {body rest : Text} (inside : Enclosed level body) :
      Token (.string (opening level ++ (body ++ closing level))) rest
  | lineComment {body rest : Text} (sameLine : ∀ c ∈ body, ¬ IsNewline c)
      (short : ¬ Opens (body ++ rest)) (ends : ∀ c, rest.head? = some c → IsNewline c) :
      Token (.comment (dash :: dash :: body)) rest
  | longComment {level : Nat} {body rest : Text} (inside : Enclosed level body) :
      Token (.comment (dash :: dash :: (opening level ++ (body ++ closing level)))) rest

inductive Lexed : List Lexeme → Text → Prop
  | nil : Lexed [] []
  | cons {lexeme : Lexeme} {lexemes : List Lexeme} {rest : Text} (first : Token lexeme rest)
      (later : Lexed lexemes rest) : Lexed (lexeme :: lexemes) (lexeme.text ++ rest)

def outside (lexemes : List Lexeme) : List Text :=
  (lexemes.splitOnP Lexeme.isComment).map fun run => run.flatMap Lexeme.text

/-- A comment with its bytes other than line feeds replaced, another lexeme as it is. -/
def Lexeme.blanked (blank : Fin 256) : Lexeme → Text
  | .comment text => text.map fun c => if c = lineFeed then c else blank
  | lexeme => lexeme.text

def isPlain (c : Fin 256) : Bool :=
  c != doubleQuote && c != singleQuote && c != dash && c != leftBracket

theorem Lexed.plain_append {text rest : Text} {lexemes : List Lexeme}
    (plain : text.all isPlain = true) (later : Lexed lexemes rest) :
    Lexed (text.map Lexeme.code ++ lexemes) (text ++ rest) := by
  induction text with
  | nil => exact later
  | cons c text ih =>
    simp only [List.all_cons, isPlain, Bool.and_eq_true, bne_iff_ne] at plain
    obtain ⟨⟨⟨⟨noDouble, noSingle⟩, noDash⟩, noBracket⟩, others⟩ := plain
    have token : Token (.code c) (text ++ rest) := by
      apply Token.code
      · exact fun quote => quote.elim noDouble noSingle
      · intro comment
        exact noDash (List.cons_prefix_cons.mp comment).1.symm
      · rintro ⟨level, long⟩
        exact noBracket (List.cons_prefix_cons.mp long).1.symm
    exact .cons token (ih (by simpa only [isPlain] using others))

theorem Lexed.plain {text : Text} (plain : text.all isPlain = true) :
    Lexed (text.map Lexeme.code) text := by
  have lexed := Lexed.plain_append plain .nil
  rwa [List.append_nil, List.append_nil] at lexed

theorem Lexed.comment_line {body rest : Text} {c : Fin 256} {lexemes : List Lexeme}
    (sameLine : body.all (fun d => d != lineFeed && d != carriageReturn) = true)
    (some_ : body ≠ []) (short : body.head? ≠ some leftBracket) (newline : IsNewline c)
    (later : Lexed lexemes (c :: rest)) :
    Lexed (.comment (dash :: dash :: body) :: lexemes) (dash :: dash :: (body ++ c :: rest)) := by
  refine .cons (.lineComment ?_ ?_ ?_) later
  · intro d listed other
    have plain := List.all_eq_true.mp sameLine d listed
    rcases other with rfl | rfl <;> cases plain
  · rintro ⟨level, long⟩
    cases body with
    | nil => exact some_ rfl
    | cons d body => exact short (congrArg some (List.cons_prefix_cons.mp long).1.symm)
  · rintro d ⟨⟩
    exact newline

/-! ## First closing brackets -/

theorem Enclosed.first {level : Nat} {body : Text} (inside : Enclosed level body) (rest : Text)
    {i : Nat} (before : i < body.length) :
    ¬ closing level <+: (body ++ (closing level ++ rest)).drop i := by
  intro found
  apply inside i before
  have longer : (body ++ closing level).drop i <+: (body ++ (closing level ++ rest)).drop i := by
    rw [← List.append_assoc]
    exact (List.prefix_append _ rest).drop i
  apply List.prefix_of_prefix_length_le found longer
  rw [List.length_drop, List.length_append]
  omega

end Spinneret.LuaText
