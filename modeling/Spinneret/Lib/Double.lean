import Mathlib.Data.Nat.Log
import Mathlib.Tactic.NormNum
import Spinneret.Lib.Decimal

/-!
# Integers as doubles

The double nearest to an integer: 53 significant bits, ties to even. Integers of magnitude
at most `2 ^ 53` are exact, and so are the sums and products of them that stay below it.
-/

namespace Spinneret.Lib

set_option autoImplicit false

/-- The nearest multiple of the unit in the last place, ties to an even quotient. -/
def roundNat (value : Nat) : Nat :=
  let unit := 2 ^ (Nat.log2 value + 1 - 53)
  let quotient := value / unit
  let rest := value % unit
  if unit < 2 * rest ∨ (unit = 2 * rest ∧ quotient % 2 = 1) then (quotient + 1) * unit
  else quotient * unit

def roundDouble (value : Int) : Int :=
  if value < 0 then -(roundNat value.natAbs : Int) else roundNat value.natAbs

def readDouble (text : Text) : Option Int := (readInt text).map roundDouble

theorem round_nat_exact {value : Nat} (small : value ≤ 2 ^ 53) : roundNat value = value := by
  rcases Nat.lt_or_eq_of_le small with below | rfl
  · have unit : Nat.log2 value + 1 - 53 = 0 := by
      by_cases zero : value = 0
      · rw [zero]
        decide
      · have bits := (Nat.log2_lt zero).mpr below
        omega
    rw [roundNat, unit]
    simp [Nat.mod_one]
  · decide

theorem round_double_exact {value : Int} (small : value.natAbs ≤ 2 ^ 53) :
    roundDouble value = value := by
  unfold roundDouble
  rw [round_nat_exact small]
  split_ifs <;> omega

@[simp] theorem read_double_decimal (value : Int) :
    readDouble (decimal value) = some (roundDouble value) := by
  rw [readDouble, read_int_decimal, Option.map_some]

theorem read_double_exact {value : Int} (small : value.natAbs ≤ 2 ^ 53) :
    readDouble (decimal value) = some value := by
  rw [read_double_decimal, round_double_exact small]

end Spinneret.Lib
