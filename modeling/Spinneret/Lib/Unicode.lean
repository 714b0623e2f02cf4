/-!
# Characters

What the Unicode tables say of a rune, and the characters at the ends of a text.
-/

namespace Spinneret.Lib

set_option autoImplicit false

def isControl (rune : Nat) : Bool := decide (rune < 0x20 ∨ (0x7F ≤ rune ∧ rune < 0xA0))

def isSpace (rune : Nat) : Bool :=
  decide ((0x09 ≤ rune ∧ rune ≤ 0x0D) ∨ rune = 0x20 ∨ rune = 0x85 ∨ rune = 0xA0 ∨ rune = 0x1680 ∨
    (0x2000 ≤ rune ∧ rune ≤ 0x200A) ∨ rune = 0x2028 ∨ rune = 0x2029 ∨ rune = 0x202F ∨
    rune = 0x205F ∨ rune = 0x3000)

def trimBoth (drop : Char → Bool) (chars : List Char) : List Char :=
  ((chars.dropWhile drop).reverse.dropWhile drop).reverse

/-- `strings.TrimSpace` of a text that is valid UTF-8; `Netx.trimSpace` is the one of any bytes. -/
def trimSpace (chars : List Char) : List Char := trimBoth (fun c => isSpace c.toNat) chars

theorem trim_space_plain {chars : List Char} (plain : ∀ c ∈ chars, isSpace c.toNat = false) :
    trimSpace chars = chars := by
  have kept : ∀ cs : List Char, (∀ c ∈ cs, isSpace c.toNat = false) →
      cs.dropWhile (fun c => isSpace c.toNat) = cs := by
    intro cs none
    cases cs with
    | nil => rfl
    | cons first rest => exact List.dropWhile_cons_of_neg (by simp [none first])
  unfold trimSpace trimBoth
  rw [kept _ plain, kept _ fun c listed => plain c (List.mem_reverse.mp listed),
    List.reverse_reverse]

end Spinneret.Lib
