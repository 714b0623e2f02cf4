import Spinneret.Site.Path

/-!
# Blanks around a text

`strings.TrimSpace` on bytes. It takes runes off both ends as long as they are spaces, so a
text that starts and ends in ASCII characters other than spaces is kept.
-/

namespace Spinneret.Netx

open Spinneret.Site

set_option autoImplicit false

/-- `TrimLeftFunc` with `unicode.IsSpace`; every round takes at least one byte off. -/
def trimLeftFrom : Nat → Bytes → Bytes
  | 0, bytes => bytes
  | _, [] => []
  | fuel + 1, bytes =>
    let (rune, size) := decodeRune bytes
    if Lib.isSpace rune then trimLeftFrom fuel (bytes.drop size) else bytes

def isRuneStart (byte : Byte) : Bool := !isContinuation byte

/-- The last rune of a string and its size in bytes. It starts at the nearest start byte
among the three bytes before the last one. -/
def decodeLastRune (bytes : Bytes) : Nat × Nat :=
  match bytes.getLast? with
  | none => (runeError, 0)
  | some last =>
    if last.val < 0x80 then (last.val, 1)
    else
      let back := (bytes.dropLast.reverse.take 3).findIdx isRuneStart
      let width := min (back + 2) bytes.length
      let (rune, size) := decodeRune (bytes.drop (bytes.length - width))
      if size = width then (rune, size) else (runeError, 1)

def trimRightFrom : Nat → Bytes → Bytes
  | 0, bytes => bytes
  | _, [] => []
  | fuel + 1, bytes =>
    let (rune, size) := decodeLastRune bytes
    if Lib.isSpace rune then trimRightFrom fuel (bytes.take (bytes.length - size)) else bytes

def trimSpace (bytes : Bytes) : Bytes :=
  let trimmed := trimLeftFrom bytes.length bytes
  trimRightFrom trimmed.length trimmed

def Solid (byte : Byte) : Prop := byte.val < 0x80 ∧ Lib.isSpace byte.val = false

theorem trim_left_kept {first : Byte} (solid : Solid first) (fuel : Nat) (rest : Bytes) :
    trimLeftFrom fuel (first :: rest) = first :: rest := by
  cases fuel with
  | zero => rfl
  | succ fuel =>
    have decoded : decodeRune (first :: rest) = (first.val, 1) := if_pos solid.1
    rw [trimLeftFrom, decoded]
    · exact if_neg (Bool.eq_false_iff.mp solid.2)
    · intro empty
      cases empty

theorem trim_right_kept {text : Bytes} {last : Byte} (ends : text.getLast? = some last)
    (solid : Solid last) (fuel : Nat) : trimRightFrom fuel text = text := by
  cases fuel with
  | zero => rfl
  | succ fuel =>
    have decoded : decodeLastRune text = (last.val, 1) := by
      rw [decodeLastRune, ends]
      exact if_pos solid.1
    rw [trimRightFrom, decoded]
    · exact if_neg (Bool.eq_false_iff.mp solid.2)
    · rintro rfl
      cases ends

theorem trim_space_kept {first last : Byte} {text : Bytes} (starts : text.head? = some first)
    (ends : text.getLast? = some last) (leading : Solid first) (trailing : Solid last) :
    trimSpace text = text := by
  cases text with
  | nil => cases starts
  | cons byte rest =>
    cases starts
    rw [trimSpace, trim_left_kept leading]
    exact trim_right_kept ends trailing _

end Spinneret.Netx
