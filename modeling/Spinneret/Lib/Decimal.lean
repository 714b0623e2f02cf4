import Mathlib.Data.Int.Order.Basic
import Spinneret.Lib.Byte
import Spinneret.Lib.Numeral

/-!
# Decimal texts of integers

Integers as byte strings: an optional minus sign and decimal digits without leading zeros.
Reading such a text returns the integer, so no two integers share one.
-/

namespace Spinneret.Lib

set_option autoImplicit false

abbrev Text := List (Fin 256)

/-- The digit of a value below 36, in lower case. -/
def digitByte (value : Nat) : Fin 256 :=
  Fin.ofNat 256 (if value < 10 then 48 + value else 87 + value)

def minusByte : Fin 256 := 45

/-- The digits of `strconv.FormatInt` without the sign. -/
def formatUint (value base : Nat) : Text :=
  if value = 0 then [digitByte 0] else (Nat.digits base value).reverse.map digitByte

def formatInt (value : Int) (base : Nat) : Text :=
  if value < 0 then minusByte :: formatUint value.natAbs base else formatUint value.natAbs base

abbrev decimalNat (value : Nat) : Text := formatUint value 10

def decimal (value : Int) : Text := formatInt value 10

def isDigit (byte : Fin 256) : Bool := decide (48 ≤ byte.val ∧ byte.val ≤ 57)

def digitsValue (text : Text) : Nat := numeralValue (text.map fun byte => byte.val - 48)

def readNat (text : Text) : Option Nat :=
  if text ≠ [] ∧ text.all isDigit then some (digitsValue text) else none

def readInt : Text → Option Int
  | [] => none
  | first :: rest =>
    if first = minusByte then (readNat rest).map fun (value : Nat) => -(value : Int)
    else (readNat (first :: rest)).map fun (value : Nat) => (value : Int)

theorem digit_byte_val {digit : Nat} (small : digit < 10) : (digitByte digit).val = 48 + digit := by
  have bounded : 48 + digit < 256 := by omega
  simp [digitByte, small, Fin.ofNat, Nat.mod_eq_of_lt bounded]

theorem decimal_nat_eq (value : Nat) : decimalNat value = (numeral value).map digitByte := by
  unfold decimalNat formatUint numeral
  split_ifs <;> rfl

theorem digit_byte_is_digit {digit : Nat} (small : digit < 10) :
    isDigit (digitByte digit) = true := by
  rw [isDigit, digit_byte_val small, decide_eq_true_eq]
  omega

theorem decimal_nat_digits (value : Nat) : ∀ byte ∈ decimalNat value, isDigit byte = true := by
  intro byte listed
  rw [decimal_nat_eq] at listed
  obtain ⟨digit, member, rfl⟩ := List.mem_map.mp listed
  exact digit_byte_is_digit (numeral_digit_lt member)

theorem decimal_nat_ne_nil (value : Nat) : decimalNat value ≠ [] := by
  unfold decimalNat formatUint
  split_ifs with zero
  · simp
  · simpa using Nat.digits_ne_nil_iff_ne_zero.mpr zero

theorem digits_value_decimal (value : Nat) : digitsValue (decimalNat value) = value := by
  have digits : (decimalNat value).map (fun byte => byte.val - 48) = numeral value := by
    rw [decimal_nat_eq, List.map_map]
    conv_rhs => rw [← List.map_id (numeral value)]
    refine List.map_congr_left fun digit member => ?_
    rw [Function.comp_apply, digit_byte_val (numeral_digit_lt member), Nat.add_sub_cancel_left]
    rfl
  rw [digitsValue, digits, numeral_value]

theorem read_nat_decimal (value : Nat) : readNat (decimalNat value) = some value := by
  have allDigits : (decimalNat value).all isDigit = true :=
    List.all_eq_true.mpr (decimal_nat_digits value)
  rw [readNat, if_pos ⟨decimal_nat_ne_nil value, allDigits⟩, digits_value_decimal]

theorem minus_not_digit : isDigit minusByte = false := by decide

@[simp] theorem read_int_decimal (value : Int) : readInt (decimal value) = some value := by
  by_cases negative : value < 0
  · rw [decimal, formatInt, if_pos negative, readInt, if_pos rfl, read_nat_decimal, Option.map_some]
    congr 1
    omega
  · rw [decimal, formatInt, if_neg negative]
    change readInt (decimalNat value.natAbs) = _
    have read := read_nat_decimal value.natAbs
    have digits := decimal_nat_digits value.natAbs
    generalize decimalNat value.natAbs = text at read digits
    cases text with
    | nil => cases read
    | cons first rest =>
      have apart : first ≠ minusByte := by
        rintro rfl
        have digit := digits minusByte List.mem_cons_self
        rw [minus_not_digit] at digit
        cases digit
      rw [readInt, if_neg apart, read, Option.map_some]
      congr 1
      omega

theorem read_int_digits {text : Text} (nonempty : text ≠ []) (digits : text.all isDigit = true) :
    readInt text = some (digitsValue text : Int) := by
  cases text with
  | nil => exact absurd rfl nonempty
  | cons first rest =>
    have apart : first ≠ minusByte := by
      rintro rfl
      exact absurd (List.all_eq_true.mp digits minusByte List.mem_cons_self) (by decide)
    rw [readInt, if_neg apart, readNat, if_pos ⟨nonempty, digits⟩, Option.map_some]

theorem digits_value_lt {text : Text} (digits : text.all isDigit = true) :
    digitsValue text < 10 ^ text.length := by
  have bounded := numeral_value_lt (text.map fun byte => byte.val - 48) (by
    intro digit listed
    obtain ⟨byte, member, rfl⟩ := List.mem_map.mp listed
    have range := List.all_eq_true.mp digits byte member
    rw [isDigit, decide_eq_true_eq] at range
    omega)
  rwa [List.length_map] at bounded

theorem decimal_injective : Function.Injective decimal := by
  intro left right same
  have values := congrArg readInt same
  rwa [read_int_decimal, read_int_decimal, Option.some_inj] at values

theorem decimal_ne_nil (value : Int) : decimal value ≠ [] := by
  unfold decimal formatInt
  split_ifs
  · exact List.cons_ne_nil _ _
  · exact decimal_nat_ne_nil _

theorem decimal_bytes (value : Int) :
    ∀ byte ∈ decimal value, byte = minusByte ∨ isDigit byte = true := by
  intro byte listed
  unfold decimal formatInt at listed
  split_ifs at listed
  · rcases List.mem_cons.mp listed with sign | digit
    · exact .inl sign
    · exact .inr (decimal_nat_digits _ _ digit)
  · exact .inr (decimal_nat_digits _ _ listed)

theorem not_mem_decimal {byte : Fin 256} (sign : byte ≠ minusByte) (digit : isDigit byte = false)
    (value : Int) : byte ∉ decimal value := by
  intro listed
  rcases decimal_bytes value byte listed with same | isOne
  · exact sign same
  · rw [digit] at isOne
    cases isOne

theorem digits_value_append (left right : Text) :
    digitsValue (left ++ right) = digitsValue left * 10 ^ right.length + digitsValue right := by
  simp only [digitsValue, numeralValue, List.map_append, List.reverse_append,
    Nat.ofDigits_append, List.length_reverse, List.length_map]
  ring

/-- A run of digits cut before its last `tail` ones. -/
structure DigitsCut (text head last : Text) (tail : Nat) : Prop where
  headNonempty : head ≠ []
  lastNonempty : last ≠ []
  headDigits : head.all isDigit = true
  lastDigits : last.all isDigit = true
  headLength : head.length + tail = text.length
  lastLength : last.length = tail
  value : digitsValue text = digitsValue head * 10 ^ tail + digitsValue last

theorem digits_cut {text : Text} (digits : text.all isDigit = true) {tail : Nat}
    (positive : 0 < tail) (shorter : tail < text.length) :
    DigitsCut text (text.take (text.length - tail)) (text.drop (text.length - tail)) tail := by
  have headLength : (text.take (text.length - tail)).length = text.length - tail := by
    rw [List.length_take]
    omega
  have lastLength : (text.drop (text.length - tail)).length = tail := by
    rw [List.length_drop]
    omega
  refine ⟨List.ne_nil_of_length_pos (by omega), List.ne_nil_of_length_pos (by omega),
    List.all_eq_true.mpr fun byte listed =>
      List.all_eq_true.mp digits byte (List.mem_of_mem_take listed),
    List.all_eq_true.mpr fun byte listed =>
      List.all_eq_true.mp digits byte (List.mem_of_mem_drop listed), by omega, lastLength, ?_⟩
  have value := digits_value_append (text.take (text.length - tail))
    (text.drop (text.length - tail))
  rwa [List.take_append_drop, lastLength] at value

end Spinneret.Lib
