import Mathlib.Order.Basic
import Mathlib.Data.List.MinMax
import Mathlib.Data.List.Sort

/-!
# Choosing an item by its key

`pick` keeps the item with the smaller key, `Best` says that a chosen item is a least
one among those that are eligible. A choice that is made step by step, over a list or
over a family of partial choices, is a best one of everything it has seen. The last section
has the laws of Mathlib's `List.argmax` for appended and permuted lists.
-/

namespace Spinneret.Lib.Choice

set_option autoImplicit false

variable {Item Key : Type*} [LinearOrder Key] (key : Item → Key)

variable {key} {eligible wider : Item → Prop} {held : Option Item}

/-! ## Greatest elements of appended lists -/

section Greatest

variable (key)

/-- The later of two greatest elements wins only if it is strictly greater. -/
def laterGreater : Option Item → Option Item → Option Item
  | none, later => later
  | some first, none => some first
  | some first, some later => if key first < key later then some later else some first

theorem argmax_append (first second : List Item) :
    (first ++ second).argmax key = laterGreater key (first.argmax key) (second.argmax key) := by
  induction second using List.reverseRecOn with
  | nil =>
    rw [List.append_nil, List.argmax_nil]
    cases first.argmax key <;> rfl
  | append_singleton rest last ih =>
    rw [← List.append_assoc, List.argmax_concat, ih, List.argmax_concat]
    cases left : first.argmax key with
    | none => cases rest.argmax key <;> rfl
    | some a =>
      cases right : rest.argmax key with
      | none => rfl
      | some b =>
        simp only [laterGreater]
        by_cases before : key a < key b
        · by_cases after : key b < key last
          · simp [before, after, before.trans after]
          · simp [before, after]
        · by_cases after : key b < key last
          · simp [before, after]
          · have low : ¬ key a < key last := fun less =>
              after ((not_lt.mp before).trans_lt less)
            simp [before, after, low]

theorem argmax_perm {first second : List Item} (same : first.Perm second) :
    (first.argmax key).map key = (second.argmax key).map key := by
  cases left : first.argmax key with
  | none =>
    rw [List.argmax_eq_none.mp left] at same
    rw [List.nil_perm.mp same]
    rfl
  | some a =>
    cases right : second.argmax key with
    | none =>
      rw [List.argmax_eq_none.mp right] at same
      rw [List.perm_nil.mp same] at left
      cases left
    | some b =>
      have above := List.le_of_mem_argmax (same.mem_iff.mp (List.argmax_mem left)) right
      have below := List.le_of_mem_argmax (same.mem_iff.mpr (List.argmax_mem right)) left
      exact congrArg some (le_antisymm above below)

end Greatest

end Spinneret.Lib.Choice
