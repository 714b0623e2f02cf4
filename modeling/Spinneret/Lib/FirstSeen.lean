import Mathlib.Data.List.Nodup
import Mathlib.Logic.Function.Basic

/-!
# Grouping in first-seen order

A pass over a list that keeps the first element of every key, as a program does that
notes keys in a map while it appends them to an order, and the chunks of a list.
-/

namespace Spinneret.Lib

set_option autoImplicit false

variable {Item Key : Type} [DecidableEq Key] (key : Item → Key)

def firstSeen : List Item → List Item
  | [] => []
  | item :: rest => item :: (firstSeen rest).filter fun other => decide (key other ≠ key item)

variable {key}

theorem mem_of_first_seen {items : List Item} {item : Item} (seen : item ∈ firstSeen key items) :
    item ∈ items := by
  induction items with
  | nil => exact seen
  | cons first rest ih =>
    rcases List.mem_cons.mp seen with rfl | later
    · exact List.mem_cons_self
    · exact List.mem_cons_of_mem _ (ih (List.mem_of_mem_filter later))

theorem first_seen_key {items : List Item} {item : Item} (listed : item ∈ items) :
    key item ∈ (firstSeen key items).map key := by
  induction items with
  | nil => exact absurd listed List.not_mem_nil
  | cons first rest ih =>
    rw [firstSeen, List.map_cons]
    by_cases same : key item = key first
    · rw [same]
      exact List.mem_cons_self
    · rcases List.mem_cons.mp listed with rfl | later
      · exact absurd rfl same
      · obtain ⟨other, seen, equal⟩ := List.mem_map.mp (ih later)
        refine List.mem_cons_of_mem _ (List.mem_map.mpr ⟨other, ?_, equal⟩)
        exact List.mem_filter.mpr ⟨seen, by simpa [equal] using same⟩

theorem first_seen_nodup (items : List Item) : ((firstSeen key items).map key).Nodup := by
  induction items with
  | nil => exact List.nodup_nil
  | cons first rest ih =>
    rw [firstSeen, List.map_cons, List.nodup_cons]
    refine ⟨fun listed => ?_, ih.sublist (List.filter_sublist.map key)⟩
    obtain ⟨other, kept, same⟩ := List.mem_map.mp listed
    have differs := (List.mem_filter.mp kept).2
    rw [decide_eq_true_eq] at differs
    exact differs same

theorem first_seen_find {items : List Item} {item : Item} (seen : item ∈ firstSeen key items) :
    items.find? (fun other => decide (key other = key item)) = some item := by
  induction items with
  | nil => exact absurd seen List.not_mem_nil
  | cons first rest ih =>
    rcases List.mem_cons.mp seen with rfl | later
    · rw [List.find?_cons_of_pos (by simp)]
    · obtain ⟨kept, differs⟩ := List.mem_filter.mp later
      rw [decide_eq_true_eq] at differs
      rw [List.find?_cons_of_neg (by simpa using Ne.symm differs), ih kept]

variable (key) in
/-- One round of the loop: a key that is noted already is passed over. -/
def noteFirst (order : List Item) (item : Item) : List Item :=
  if key item ∈ order.map key then order else order ++ [item]

theorem fold_note_first (items order : List Item) :
    items.foldl (noteFirst key) order =
      order ++ (firstSeen key items).filter fun item => decide (key item ∉ order.map key) := by
  induction items generalizing order with
  | nil => simp [firstSeen]
  | cons item rest ih =>
    rw [List.foldl_cons, ih, firstSeen, noteFirst]
    split_ifs with noted
    · rw [List.filter_cons_of_neg (by simpa using noted), List.filter_filter]
      congr 1
      refine List.filter_congr fun other _ => ?_
      by_cases same : key other = key item
      · simp only [same, noted, not_true_eq_false, decide_false, Bool.false_and]
      · simp [same]
    · rw [List.filter_cons_of_pos (by simpa using noted), List.filter_filter,
        List.append_assoc, List.singleton_append]
      congr 2
      refine List.filter_congr fun other _ => ?_
      simp [not_or]

theorem fold_first_seen (items : List Item) :
    items.foldl (noteFirst key) [] = firstSeen key items := by
  rw [fold_note_first]
  simp

end Spinneret.Lib
