import Mathlib.Algebra.Ring.Nat

/-!
# Bytes

Texts are lists of `Fin 256` in the models of code that works on bytes.
-/

namespace Spinneret.Lib

set_option autoImplicit false

/-- Byte literals need that there are bytes. -/
instance byteNeZero : NeZero 256 := ⟨by decide⟩

end Spinneret.Lib
