import Mathlib.Data.Fin.Basic
import Mathlib.Algebra.Order.Group.Int
import Spinneret.Lib.Byte
import Spinneret.Lib.Unicode

/-!
# Paths and URI rule patterns

Strings are byte lists, as the matcher compares and cuts them byte by byte. The regular
expression library is a parameter: what it parses, compiles and matches.
-/

namespace Spinneret.Site

set_option autoImplicit false

abbrev Byte := Fin 256

abbrev Bytes := List Byte

def maxPathLength : Nat := 2048

inductive PatternError where
  | emptyGroup
  | empty
  | noSlash
  | tooLong
  | queryOrFragment
  | notUtf8
  | badCharacter
  | paramSegment (segment : Nat)
  | paramName (segment : Nat)
  | duplicateParam (segment : Nat) (name : Bytes)
  | regexTooLong
  | invalidRegex (cause : String)
  | regexTooComplex
  | unknownKind (name : String)
  deriving DecidableEq, Repr

/-- The bytes of a string of ASCII characters. -/
def asciiBytes (text : String) : Bytes := text.toList.map fun c => Fin.ofNat 256 c.toNat

/-! ## Characters -/

def runeError : Nat := 0xFFFD

def isContinuation (byte : Byte) : Bool := decide (0x80 ≤ byte.val ∧ byte.val ≤ 0xBF)

/-- The first rune of a string and its size in bytes; a malformed start is the error rune
of size one. -/
def decodeRune : Bytes → Nat × Nat
  | [] => (runeError, 0)
  | b0 :: rest =>
    if b0.val < 0x80 then (b0.val, 1)
    else if b0.val < 0xC2 ∨ 0xF4 < b0.val then (runeError, 1)
    else
      let low := if b0.val = 0xE0 then 0xA0 else if b0.val = 0xF0 then 0x90 else 0x80
      let high := if b0.val = 0xED then 0x9F else if b0.val = 0xF4 then 0x8F else 0xBF
      match rest with
      | [] => (runeError, 1)
      | b1 :: rest =>
        if b1.val < low ∨ high < b1.val then (runeError, 1)
        else if b0.val < 0xE0 then ((b0.val - 0xC0) * 64 + (b1.val - 0x80), 2)
        else
          match rest with
          | [] => (runeError, 1)
          | b2 :: rest =>
            if !isContinuation b2 then (runeError, 1)
            else if b0.val < 0xF0 then
              ((b0.val - 0xE0) * 4096 + (b1.val - 0x80) * 64 + (b2.val - 0x80), 3)
            else
              match rest with
              | [] => (runeError, 1)
              | b3 :: _ =>
                if !isContinuation b3 then (runeError, 1)
                else ((b0.val - 0xF0) * 262144 + (b1.val - 0x80) * 4096 +
                  (b2.val - 0x80) * 64 + (b3.val - 0x80), 4)

/-- The loop of `checkRunes`; every round takes at least one byte off, so the length is
enough fuel. -/
def checkRunesFrom : Nat → Bytes → Option PatternError
  | _, [] => none
  | 0, _ => none
  | fuel + 1, bytes =>
    let (rune, size) := decodeRune bytes
    if rune = runeError ∧ size ≤ 1 then some .notUtf8
    else if Lib.isControl rune || Lib.isSpace rune then some .badCharacter
    else checkRunesFrom fuel (bytes.drop size)

def checkRunes (bytes : Bytes) : Option PatternError := checkRunesFrom bytes.length bytes

/-! ## Patterns -/

def slash : Byte := 0x2F

end Spinneret.Site
