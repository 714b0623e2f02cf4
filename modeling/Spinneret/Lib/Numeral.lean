import Mathlib.Data.Nat.Digits.Lemmas

/-!
# Comparing canonical numerals as text

A canonical decimal numeral has no sign and no leading zero, so comparing two
of them first by length and then byte by byte is comparing the numbers.
-/

namespace Spinneret.Lib

set_option autoImplicit false

/-- The digits of the canonical decimal numeral, most significant first. -/
def numeral (value : Nat) : List Nat :=
  if value = 0 then [0] else (Nat.digits 10 value).reverse

def bytesLt : List Nat → List Nat → Bool
  | _, [] => false
  | [], _ :: _ => true
  | left :: lefts, right :: rights =>
    decide (left < right) || (decide (left = right) && bytesLt lefts rights)

/-- The shorter numeral is the smaller one; equal lengths compare byte-wise. -/
def numeralLt (left right : List Nat) : Bool :=
  decide (left.length < right.length) ||
    (decide (left.length = right.length) && bytesLt left right)

def numeralValue (digits : List Nat) : Nat := Nat.ofDigits 10 digits.reverse

theorem numeral_value_cons (digit : Nat) (rest : List Nat) :
    numeralValue (digit :: rest) = digit * 10 ^ rest.length + numeralValue rest := by
  simp only [numeralValue, List.reverse_cons, Nat.ofDigits_append, List.length_reverse,
    Nat.ofDigits_singleton]
  ring

theorem numeral_value (value : Nat) : numeralValue (numeral value) = value := by
  unfold numeralValue numeral
  split_ifs with zero
  · simp [zero]
  · rw [List.reverse_reverse, Nat.ofDigits_digits]

theorem numeral_digit_lt {value digit : Nat} (member : digit ∈ numeral value) : digit < 10 := by
  unfold numeral at member
  split_ifs at member with zero
  · simp_all
  · exact Nat.digits_lt_base (by decide) (List.mem_reverse.mp member)

theorem numeral_value_lt (digits : List Nat) (bounded : ∀ digit ∈ digits, digit < 10) :
    numeralValue digits < 10 ^ digits.length := by
  have small := Nat.ofDigits_lt_base_pow_length (b := 10) (l := digits.reverse) (by decide)
    (fun digit member => bounded digit (List.mem_reverse.mp member))
  simpa [numeralValue] using small

theorem numeral_length_bound (value : Nat) (positive : value ≠ 0) :
    10 ^ ((numeral value).length - 1) ≤ value := by
  have large := Nat.base_pow_length_digits_le 10 value (by decide) positive
  simp only [numeral, if_neg positive, List.length_reverse]
  have nonempty : 0 < (Nat.digits 10 value).length :=
    List.length_pos_of_ne_nil (Nat.digits_ne_nil_iff_ne_zero.mpr positive)
  obtain ⟨shorter, lengthEq⟩ : ∃ shorter, (Nat.digits 10 value).length = shorter + 1 :=
    ⟨_, (Nat.sub_add_cancel nonempty).symm⟩
  rw [lengthEq] at large ⊢
  rw [pow_succ] at large
  simp only [Nat.add_sub_cancel]
  omega

/-- At equal length the first differing digit decides, as its place outweighs
everything after it. -/
theorem bytes_lt_iff_value_lt (left right : List Nat) (same : left.length = right.length)
    (leftDigits : ∀ digit ∈ left, digit < 10) (rightDigits : ∀ digit ∈ right, digit < 10) :
    bytesLt left right = true ↔ numeralValue left < numeralValue right := by
  induction left generalizing right with
  | nil =>
    obtain rfl : right = [] := List.length_eq_zero_iff.mp (by simpa using same.symm)
    simp [bytesLt]
  | cons first lefts ih =>
    cases right with
    | nil => simp at same
    | cons second rights =>
      have tails : lefts.length = rights.length := by simpa using same
      have leftBound := numeral_value_lt lefts fun digit member =>
        leftDigits digit (List.mem_cons_of_mem _ member)
      have rightBound := numeral_value_lt rights fun digit member =>
        rightDigits digit (List.mem_cons_of_mem _ member)
      have rest := ih rights tails
        (fun digit member => leftDigits digit (List.mem_cons_of_mem _ member))
        (fun digit member => rightDigits digit (List.mem_cons_of_mem _ member))
      simp only [bytesLt, Bool.or_eq_true, decide_eq_true_eq, Bool.and_eq_true, rest,
        numeral_value_cons, tails]
      rw [tails] at leftBound
      rcases Nat.lt_trichotomy first second with below | rfl | above
      · have place : (first + 1) * 10 ^ rights.length ≤ second * 10 ^ rights.length :=
          Nat.mul_le_mul_right _ below
        rw [Nat.add_mul] at place
        simp only [below, true_or, true_iff]
        omega
      · simp
      · have place : (second + 1) * 10 ^ rights.length ≤ first * 10 ^ rights.length :=
          Nat.mul_le_mul_right _ above
        rw [Nat.add_mul] at place
        constructor
        · rintro (below | ⟨equal, _⟩) <;> omega
        · intro smaller
          omega

theorem shorter_numeral_lt {left right : Nat}
    (shorter : (numeral left).length < (numeral right).length) : left < right := by
  have leftSmall := numeral_value_lt (numeral left) fun _ member => numeral_digit_lt member
  rw [numeral_value] at leftSmall
  have leftNonempty : 0 < (numeral left).length := by
    unfold numeral
    split_ifs with zero
    · simp
    · rw [List.length_reverse]
      exact List.length_pos_of_ne_nil (Nat.digits_ne_nil_iff_ne_zero.mpr zero)
  have rightPositive : right ≠ 0 := by
    rintro rfl
    have single : (numeral 0).length = 1 := rfl
    omega
  have rightLarge := numeral_length_bound right rightPositive
  have power : 10 ^ (numeral left).length ≤ 10 ^ ((numeral right).length - 1) :=
    Nat.pow_le_pow_right (by decide) (by omega)
  omega

theorem numeral_lt_iff (left right : Nat) :
    numeralLt (numeral left) (numeral right) = true ↔ left < right := by
  simp only [numeralLt, Bool.or_eq_true, decide_eq_true_eq, Bool.and_eq_true]
  rcases Nat.lt_trichotomy (numeral left).length (numeral right).length with shorter | same | longer
  · simp only [shorter, true_or, true_iff]
    exact shorter_numeral_lt shorter
  · have compared := bytes_lt_iff_value_lt (numeral left) (numeral right) same
      (fun _ member => numeral_digit_lt member) (fun _ member => numeral_digit_lt member)
    rw [numeral_value, numeral_value] at compared
    simp [same, compared]
  · have reversed := shorter_numeral_lt longer
    constructor
    · rintro (shorter | ⟨same, _⟩) <;> omega
    · intro smaller
      omega

theorem numeral_injective : Function.Injective numeral := by
  intro left right same
  have values := congrArg numeralValue same
  rwa [numeral_value, numeral_value] at values

end Spinneret.Lib
