import Mathlib.Algebra.Ring.Int.Defs
import Spinneret.Lib.Table

/-!
# Counting in buckets

Items are counted in a table by the bucket they fall into, and old buckets are dropped. The
table holds the numbers from some bucket on; the sum of what it keeps is then the number of
items in those buckets.
-/

namespace Spinneret.Lib.Buckets

open Spinneret.Lib

set_option autoImplicit false

variable {Item : Type*} {bucket : Item → Int} {items : List Item} {table : Table Int Int}
  {low high : Int}

/-- From bucket `low` on, the table holds the number of items of each bucket. -/
def Tallies (bucket : Item → Int) (low : Int) (items : List Item) (table : Table Int Int) : Prop :=
  ∀ idx, low ≤ idx →
    (table.lookup idx).getD 0 = (items.countP fun item => decide (bucket item = idx) : Nat)

def count (table : Table Int Int) (idx : Int) : Table Int Int :=
  table.insert idx ((table.lookup idx).getD 0 + 1)

theorem lookup_count (table : Table Int Int) (idx : Int) :
    (count table idx).lookup idx = some ((table.lookup idx).getD 0 + 1) :=
  AList.lookup_insert table

theorem Tallies.mono (tallies : Tallies bucket low items table) (le : low ≤ high) :
    Tallies bucket high items table :=
  fun idx above => tallies idx (le.trans above)

/-- An empty table tallies items that are all below. -/
theorem tallies_empty (below : ∀ item ∈ items, bucket item < low) :
    Tallies bucket low items ∅ := by
  intro idx above
  have none_ : items.countP (fun item => decide (bucket item = idx)) = 0 := by
    refine List.countP_eq_zero.mpr fun item listed same => ?_
    have stale := below item listed
    have equal := of_decide_eq_true same
    omega
  rw [none_]
  rfl

theorem Tallies.count (tallies : Tallies bucket low items table) (item : Item) :
    Tallies bucket low (items ++ [item]) (count table (bucket item)) := by
  intro idx above
  rw [List.countP_append, List.countP_singleton, Int.natCast_add, ← tallies idx above]
  by_cases same : bucket item = idx
  · subst same
    rw [lookup_count, if_pos (decide_eq_true rfl)]
    rfl
  · rw [Buckets.count, AList.lookup_insert_ne (Ne.symm same), if_neg (by simpa using same)]
    simp

theorem lookup_from_key {idx : Int} (above : low ≤ idx) :
    (Table.fromKey table low).lookup idx = table.lookup idx := by
  refine Option.ext fun value => ?_
  show value ∈ (Table.fromKey table low).lookup idx ↔ value ∈ table.lookup idx
  rw [AList.mem_lookup_iff, AList.mem_lookup_iff]
  simp [Table.fromKey, above]

theorem Tallies.from_key (tallies : Tallies bucket low items table) :
    Tallies bucket low items (Table.fromKey table low) := by
  intro idx above
  rw [lookup_from_key above]
  exact tallies idx above

/-- Items in different buckets are counted apart. -/
theorem sum_counts {keys : List Int} (nodup : keys.Nodup) :
    (keys.map fun key => ((items.countP fun item => decide (bucket item = key) : Nat) : Int)).sum =
      (items.countP fun item => decide (bucket item ∈ keys) : Nat) := by
  induction keys with
  | nil => simp
  | cons key rest ih =>
    obtain ⟨fresh, others⟩ := List.nodup_cons.mp nodup
    have split : ∀ item, (if decide (bucket item ∈ key :: rest) then 1 else 0) =
        (if decide (bucket item = key) then 1 else 0) +
          if decide (bucket item ∈ rest) then 1 else 0 := by
      intro item
      by_cases here : bucket item = key
      · simp [here, fresh]
      · simp [here]
    rw [List.map_cons, List.sum_cons, ih others, ← Int.natCast_add]
    congr 1
    clear ih nodup fresh others
    induction items with
    | nil => rfl
    | cons item items ih =>
      rw [List.countP_cons, List.countP_cons, List.countP_cons, split item, ← ih]
      omega

/-- What is left of the table adds up to the items of the buckets kept. -/
theorem Tallies.sum (tallies : Tallies bucket low items table) :
    ((Table.fromKey table low).entries.map fun entry => entry.2).sum =
      (items.countP fun item => decide (low ≤ bucket item) : Nat) := by
  have values : ((Table.fromKey table low).entries.map fun entry => entry.2) =
      (Table.fromKey table low).keys.map fun key =>
        ((items.countP fun item => decide (bucket item = key) : Nat) : Int) := by
    rw [AList.keys, List.keys, List.map_map]
    refine List.map_congr_left fun entry listed => ?_
    have above : low ≤ entry.1 := of_decide_eq_true (List.mem_filter.mp listed).2
    have found : (Table.fromKey table low).lookup entry.1 = some entry.2 :=
      AList.mem_lookup_iff.mpr listed
    have held := tallies.from_key entry.1 above
    rw [found] at held
    exact held
  rw [values, sum_counts (AList.keys_nodup _)]
  congr 1
  refine List.countP_congr fun item listed => ?_
  rw [decide_eq_true_iff, decide_eq_true_iff]
  constructor
  · intro held
    obtain ⟨value, found⟩ := AList.lookup_isSome.mpr held |> Option.isSome_iff_exists.mp
    exact of_decide_eq_true (List.mem_filter.mp (AList.mem_lookup_iff.mp found)).2
  · intro above
    -- the item itself is counted in its bucket, which therefore has an entry
    have counted : 0 < items.countP fun other => decide (bucket other = bucket item) :=
      List.countP_pos_iff.mpr ⟨item, listed, decide_eq_true rfl⟩
    have held := tallies.from_key (bucket item) above
    refine AList.lookup_isSome.mp (Option.isSome_iff_ne_none.mpr fun none_ => ?_)
    rw [none_] at held
    simp only [Option.getD_none] at held
    omega

end Spinneret.Lib.Buckets
