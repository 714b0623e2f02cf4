import Mathlib.Data.List.Basic

/-!
# Counted lists in an argument vector

A reader takes a value off the front of a vector. Reading a fixed number of records takes
back exactly the records that were written there, whatever follows them.
-/

namespace Spinneret.Lib

set_option autoImplicit false

variable {Item Value Record : Type*}

def nextItem : List Item → Option (Item × List Item)
  | [] => none
  | item :: rest => some (item, rest)

def readTimes (read : List Item → Option (Value × List Item)) :
    Nat → List Item → Option (List Value × List Item)
  | 0, items => some ([], items)
  | count + 1, items => do
      let (value, items) ← read items
      let (values, items) ← readTimes read count items
      return (value :: values, items)

theorem read_times_written {read : List Item → Option (Value × List Item)}
    {write : Record → List Item} {view : Record → Value} (records : List Record)
    (one : ∀ record ∈ records, ∀ rest,
      read (write record ++ rest) = some (view record, rest)) (rest : List Item) :
    readTimes read records.length (records.flatMap write ++ rest) =
      some (records.map view, rest) := by
  induction records with
  | nil => rfl
  | cons record records ih =>
    have first := one record List.mem_cons_self (records.flatMap write ++ rest)
    have later := ih fun other listed => one other (List.mem_cons_of_mem _ listed)
    rw [List.flatMap_cons, List.append_assoc, List.length_cons, readTimes, first]
    simp [later]

theorem read_times_items (items rest : List Item) :
    readTimes nextItem items.length (items ++ rest) = some (items, rest) := by
  have taken := @read_times_written Item Item Item nextItem (fun item => [item]) id items
    (fun _ _ _ => rfl) rest
  simpa using taken

end Spinneret.Lib
