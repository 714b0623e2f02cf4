import Mathlib.Data.List.Basic
import Mathlib.Data.Char
import Mathlib.Tactic.IntervalCases

/-!
# The inside of JSON string literals

A scanner runs over the characters of a literal with a mode: between items, after a
backslash, or within the four digits of a code unit. A text that leads from `plain` to
`plain` is a valid inside. It stands for a list of pieces, characters and 16-bit code units,
and pairs of surrogate units are combined when the pieces are decoded.
-/

namespace Spinneret.Lib

set_option autoImplicit false

/-! ## Scanning -/

inductive LiteralMode where
  | plain
  | escape
  | hex (missing code : Nat)
  deriving DecidableEq, Repr

def hexValue (c : Char) : Option Nat :=
  if '0' ≤ c ∧ c ≤ '9' then some (c.toNat - '0'.toNat)
  else if 'a' ≤ c ∧ c ≤ 'f' then some (c.toNat - 'a'.toNat + 10)
  else if 'A' ≤ c ∧ c ≤ 'F' then some (c.toNat - 'A'.toNat + 10)
  else none

def simpleEscape (c : Char) : Option Char :=
  if c = '"' ∨ c = '\\' ∨ c = '/' then some c
  else if c = 'b' then some '\x08'
  else if c = 'f' then some '\x0c'
  else if c = 'n' then some '\n'
  else if c = 'r' then some '\r'
  else if c = 't' then some '\t'
  else none

/-- One character of a literal; a quote between items would end it. -/
def advance : LiteralMode → Char → Option LiteralMode
  | .plain, c =>
    if c = '\\' then some .escape
    else if c = '"' ∨ c.toNat < 0x20 then none
    else some .plain
  | .escape, c => if c = 'u' then some (.hex 4 0) else (simpleEscape c).map fun _ => .plain
  | .hex 0 _, _ => none
  | .hex (missing + 1) code, c =>
    (hexValue c).map fun digit =>
      if missing = 0 then .plain else .hex missing (code * 16 + digit)

def runFrom (mode : LiteralMode) : List Char → Option LiteralMode
  | [] => some mode
  | c :: rest => (advance mode c).bind fun next => runFrom next rest

def ValidInside (text : List Char) : Prop := runFrom .plain text = some .plain

def cutLiteral (mode : LiteralMode) : List Char → Option (List Char × List Char)
  | [] => none
  | c :: rest =>
    if mode = .plain ∧ c = '"' then some ([], rest)
    else
      (advance mode c).bind fun next =>
        (cutLiteral next rest).map fun parts => (c :: parts.1, parts.2)

theorem run_from_append (mode : LiteralMode) (first second : List Char) :
    runFrom mode (first ++ second) = (runFrom mode first).bind fun next => runFrom next second := by
  induction first generalizing mode with
  | nil => rfl
  | cons c first ih =>
    rw [List.cons_append, runFrom, runFrom]
    cases advance mode c with
    | none => rfl
    | some next => exact ih next

theorem valid_inside_append {first second : List Char} (left : ValidInside first)
    (right : ValidInside second) : ValidInside (first ++ second) := by
  rw [ValidInside, run_from_append, left]
  exact right

theorem advance_plain_quote : advance .plain '"' = none := by decide

theorem cut_literal_run {mode : LiteralMode} {body : List Char}
    (valid : runFrom mode body = some .plain)
    (rest : List Char) : cutLiteral mode (body ++ '"' :: rest) = some (body, rest) := by
  induction body generalizing mode with
  | nil =>
    rw [runFrom, Option.some_inj] at valid
    rw [valid, List.nil_append, cutLiteral, if_pos ⟨rfl, rfl⟩]
  | cons c body ih =>
    rw [runFrom] at valid
    obtain ⟨next, step, later⟩ := Option.bind_eq_some_iff.mp valid
    have inside : ¬ (mode = .plain ∧ c = '"') := by
      rintro ⟨rfl, rfl⟩
      rw [advance_plain_quote] at step
      cases step
    rw [List.cons_append, cutLiteral, if_neg inside, step, Option.bind_some, ih later]
    rfl

/-! ## Decoding -/

inductive Piece where
  | char (c : Char)
  | unit (code : Nat)
  deriving DecidableEq, Repr

def emit : LiteralMode → Char → List Piece
  | .plain, c => if c = '\\' then [] else [.char c]
  | .escape, c =>
    match simpleEscape c with
    | some decoded => [.char decoded]
    | none => []
  | .hex missing code, c => if missing = 1 then [.unit (code * 16 + (hexValue c).getD 0)] else []

def pieces (mode : LiteralMode) : List Char → List Piece
  | [] => []
  | c :: rest =>
    match advance mode c with
    | some next => emit mode c ++ pieces next rest
    | none => []

theorem pieces_append {mode next : LiteralMode} {first : List Char}
    (ran : runFrom mode first = some next)
    (second : List Char) :
    pieces mode (first ++ second) = pieces mode first ++ pieces next second := by
  induction first generalizing mode with
  | nil =>
    rw [runFrom, Option.some_inj] at ran
    rw [ran]
    rfl
  | cons c first ih =>
    rw [runFrom] at ran
    obtain ⟨middle, step, later⟩ := Option.bind_eq_some_iff.mp ran
    rw [List.cons_append, pieces, pieces, step]
    dsimp only
    rw [ih later, List.append_assoc]

def isHigh (code : Nat) : Bool := decide (0xD800 ≤ code ∧ code < 0xDC00)

def isLow (code : Nat) : Bool := decide (0xDC00 ≤ code ∧ code < 0xE000)

def replacementChar : Char := Char.ofNat 0xFFFD

def pairChar (high low : Nat) : Char :=
  Char.ofNat (0x10000 + (high - 0xD800) * 0x400 + (low - 0xDC00))

/-- The text of pieces: a surrogate without its partner becomes the replacement character. -/
def combine : List Piece → List Char
  | [] => []
  | .char c :: rest => c :: combine rest
  | .unit code :: .unit next :: rest =>
    if isHigh code ∧ isLow next then pairChar code next :: combine rest
    else
      (if isHigh code ∨ isLow code then replacementChar else Char.ofNat code) ::
        combine (.unit next :: rest)
  | .unit code :: rest =>
    (if isHigh code ∨ isLow code then replacementChar else Char.ofNat code) :: combine rest

def decodeInside (text : List Char) : List Char := combine (pieces .plain text)

/-! ## Escaping -/

/-- A character as it is written into a literal: quotes, backslashes and control characters
are escaped, and so are the two line separators of JavaScript. -/
def escapeChar (c : Char) : List Char :=
  if c = '"' ∨ c = '\\' then ['\\', c]
  else if c = '\x08' then ['\\', 'b']
  else if c = '\x0c' then ['\\', 'f']
  else if c = '\n' then ['\\', 'n']
  else if c = '\r' then ['\\', 'r']
  else if c = '\t' then ['\\', 't']
  else if c.toNat < 0x20 then
    ['\\', 'u', '0', '0', Nat.digitChar (c.toNat / 16), Nat.digitChar (c.toNat % 16)]
  else if c.toNat = 0x2028 ∨ c.toNat = 0x2029 then
    ['\\', 'u', '2', '0', '2', Nat.digitChar (c.toNat % 16)]
  else [c]

def escapeText (text : List Char) : List Char := text.flatMap escapeChar

def byUnit (c : Char) : Bool :=
  (decide (c.toNat < 0x20) && c != '\x08' && c != '\x0c' && c != '\n' && c != '\r' &&
    c != '\t') || decide (c.toNat = 0x2028 ∨ c.toNat = 0x2029)

def charPiece (c : Char) : Piece := if byUnit c then .unit c.toNat else .char c

theorem hex_value_digit {digit : Nat} (small : digit < 16) :
    hexValue (Nat.digitChar digit) = some digit := by
  interval_cases digit <;> decide

theorem unit_escape {first second third fourth : Char} {a b c d : Nat}
    (one : hexValue first = some a) (two : hexValue second = some b)
    (three : hexValue third = some c) (four : hexValue fourth = some d) :
    runFrom .plain ['\\', 'u', first, second, third, fourth] = some .plain ∧
      pieces .plain ['\\', 'u', first, second, third, fourth] =
        [.unit ((((0 * 16 + a) * 16 + b) * 16 + c) * 16 + d)] := by
  constructor
  · simp [runFrom, advance, one, two, three, four]
  · simp [pieces, advance, emit, one, two, three, four]
    decide

theorem escape_char_scan (c : Char) :
    runFrom .plain (escapeChar c) = some .plain ∧ pieces .plain (escapeChar c) = [charPiece c] := by
  unfold escapeChar
  split_ifs with special backspace formFeed newline carriage tab control separator
  · rcases special with rfl | rfl <;> decide
  · subst backspace
    decide
  · subst formFeed
    decide
  · subst newline
    decide
  · subst carriage
    decide
  · subst tab
    decide
  · have high : c.toNat / 16 < 16 := by omega
    have low : c.toNat % 16 < 16 := by omega
    obtain ⟨ran, found⟩ := unit_escape (by decide : hexValue '0' = some 0)
      (by decide : hexValue '0' = some 0) (hex_value_digit high) (hex_value_digit low)
    refine ⟨ran, ?_⟩
    have unit : byUnit c = true := by
      simp [byUnit, control, backspace, formFeed, newline, carriage, tab]
    rw [found, charPiece, if_pos unit]
    congr 2
    omega
  · have low : c.toNat % 16 < 16 := by omega
    obtain ⟨ran, found⟩ := unit_escape (by decide : hexValue '2' = some 2)
      (by decide : hexValue '0' = some 0) (by decide : hexValue '2' = some 2)
      (hex_value_digit low)
    refine ⟨ran, ?_⟩
    have unit : byUnit c = true := by
      simp [byUnit, separator]
    rw [found, charPiece, if_pos unit]
    congr 2
    omega
  · have notSlash : c ≠ '\\' := fun same => special (.inr same)
    have notQuote : c ≠ '"' := fun same => special (.inl same)
    have step : advance .plain c = some .plain := by
      rw [advance, if_neg notSlash, if_neg (by simp [notQuote, control])]
    have char : byUnit c = false := by
      simp [byUnit, control, separator]
    refine ⟨by rw [runFrom, step]; rfl, ?_⟩
    rw [pieces, step, charPiece, char]
    simp [emit, notSlash, pieces]

theorem escape_text_scan (text : List Char) :
    ValidInside (escapeText text) ∧ pieces .plain (escapeText text) = text.map charPiece := by
  induction text with
  | nil => exact ⟨rfl, rfl⟩
  | cons c text ih =>
    obtain ⟨ran, found⟩ := escape_char_scan c
    refine ⟨valid_inside_append ran ih.1, ?_⟩
    have split : escapeText (c :: text) = escapeChar c ++ escapeText text := List.flatMap_cons
    rw [split, pieces_append ran, found, ih.2]
    rfl

theorem by_unit_plain {c : Char} (unit : byUnit c = true) :
    isHigh c.toNat = false ∧ isLow c.toNat = false := by
  have range : c.toNat < 0x2030 := by
    simp only [byUnit, Bool.or_eq_true, Bool.and_eq_true, decide_eq_true_eq] at unit
    omega
  constructor <;> simp only [isHigh, isLow, decide_eq_false_iff_not] <;> omega

theorem combine_char_piece (c : Char) (rest : List Piece) :
    combine (charPiece c :: rest) = c :: combine rest := by
  unfold charPiece
  split_ifs with unit
  · obtain ⟨notHigh, notLow⟩ := by_unit_plain unit
    cases rest with
    | nil => simp [combine, notHigh, notLow]
    | cons piece rest => cases piece <;> simp [combine, notHigh, notLow]
  · rfl

/-- Escaped text decodes to itself, whatever follows it. -/
theorem combine_char_pieces (text : List Char) (rest : List Piece) :
    combine (text.map charPiece ++ rest) = text ++ combine rest := by
  induction text with
  | nil => rfl
  | cons c text ih =>
    rw [List.map_cons, List.cons_append, combine_char_piece, ih, List.cons_append]

theorem decode_escape (text : List Char) : decodeInside (escapeText text) = text := by
  have whole := combine_char_pieces text []
  rw [List.append_nil] at whole
  rw [decodeInside, (escape_text_scan text).2, whole]
  exact List.append_nil text

end Spinneret.Lib
