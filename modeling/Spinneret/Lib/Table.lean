import Mathlib.Data.List.AList
import Mathlib.Data.List.Sort
import Mathlib.Data.Int.Order.Basic

/-!
# Keyed tables and score-ordered sets

A table is a finite association list without repeated keys. The counting rules
say how an update moves the number of entries with a given property, which is
what a stored counter has to agree with. A scored set is a table of integer
scores; a range query returns its members by score and, among equal scores, by
the caller's order on members.
-/

namespace Spinneret.Lib

set_option autoImplicit false

abbrev Table (Key Value : Type*) := AList fun _ : Key => Value

namespace Table

variable {Key Value : Type*}

def countWhere (holds : Key → Value → Bool) (table : Table Key Value) : Nat :=
  table.entries.countP fun entry => holds entry.1 entry.2

def weight (holds : Key → Value → Bool) (key : Key) : Option Value → Nat
  | none => 0
  | some value => if holds key value then 1 else 0

@[simp] theorem weight_none (holds : Key → Value → Bool) (key : Key) :
    weight holds key none = 0 := rfl

@[simp] theorem weight_some (holds : Key → Value → Bool) (key : Key) (value : Value) :
    weight holds key (some value) = if holds key value then 1 else 0 := rfl

@[simp] theorem count_empty (holds : Key → Value → Bool) :
    countWhere holds (∅ : Table Key Value) = 0 := by
  simp [countWhere]

variable [DecidableEq Key]

private theorem count_kerase (holds : Key → Value → Bool) (key : Key)
    (entries : List (Sigma fun _ : Key => Value)) (nodup : entries.NodupKeys) :
    entries.countP (fun entry => holds entry.1 entry.2) =
      (entries.kerase key).countP (fun entry => holds entry.1 entry.2) +
        weight holds key (entries.dlookup key) := by
  induction entries with
  | nil => simp
  | cons entry rest ih =>
    rw [List.nodupKeys_cons] at nodup
    by_cases same : key = entry.1
    · obtain ⟨entryKey, value⟩ := entry
      obtain rfl : key = entryKey := same
      simp [List.countP_cons]
    · rw [List.kerase_cons_ne same, List.dlookup_cons_ne _ _ same, List.countP_cons,
        List.countP_cons, ih nodup.2]
      omega

theorem count_erase (holds : Key → Value → Bool) (key : Key) (table : Table Key Value) :
    countWhere holds table =
      countWhere holds (table.erase key) + weight holds key (table.lookup key) :=
  count_kerase holds key table.entries table.nodupKeys

/-- Writing a key replaces the contribution it had before the write. -/
theorem count_insert (holds : Key → Value → Bool) (key : Key) (value : Value)
    (table : Table Key Value) :
    countWhere holds (table.insert key value) + weight holds key (table.lookup key) =
      countWhere holds table + weight holds key (some value) := by
  have erased := count_erase holds key table
  have inserted : countWhere holds (table.insert key value) =
      countWhere holds (table.erase key) + weight holds key (some value) := by
    simp only [countWhere, AList.entries_insert, List.countP_cons, weight_some]
    rfl
  omega

theorem weight_le_count (holds : Key → Value → Bool) (key : Key) (table : Table Key Value) :
    weight holds key (table.lookup key) ≤ countWhere holds table := by
  have erased := count_erase holds key table
  omega

def insertAll (table : Table Key Value) (entries : List (Key × Value)) : Table Key Value :=
  entries.foldl (fun table entry => table.insert entry.1 entry.2) table

theorem lookup_insert_all_other {key : Key} {entries : List (Key × Value)}
    (absent : key ∉ entries.map Prod.fst) (table : Table Key Value) :
    (table.insertAll entries).lookup key = table.lookup key := by
  induction entries generalizing table with
  | nil => rfl
  | cons entry rest ih =>
    rw [List.map_cons, List.mem_cons, not_or] at absent
    exact (ih absent.2 (table.insert entry.1 entry.2)).trans (AList.lookup_insert_ne absent.1)

theorem lookup_insert_all {entry : Key × Value} {entries : List (Key × Value)}
    (distinct : (entries.map Prod.fst).Nodup) (member : entry ∈ entries)
    (table : Table Key Value) :
    (table.insertAll entries).lookup entry.1 = some entry.2 := by
  induction entries generalizing table with
  | nil => cases member
  | cons first rest ih =>
    rw [List.map_cons, List.nodup_cons] at distinct
    rcases List.mem_cons.mp member with rfl | later
    · exact (lookup_insert_all_other distinct.1 _).trans (AList.lookup_insert _)
    · exact ih distinct.2 later _

/-- The entries whose key is at least `low`, as a hash drops stale buckets. -/
def fromKey {Value : Type*} (table : Table Int Value) (low : Int) : Table Int Value where
  entries := table.entries.filter fun entry => decide (low ≤ entry.1)
  nodupKeys := table.nodupKeys.sublist List.filter_sublist

end Table

abbrev ZSet (Member : Type*) := Table Member Int

namespace ZSet

variable {Member : Type*} [DecidableEq Member]

def add (set : ZSet Member) (score : Int) (member : Member) : ZSet Member :=
  set.insert member score

/-- `ZADD XX`: only a member that is present is moved. -/
def move (set : ZSet Member) (score : Int) (member : Member) : ZSet Member :=
  if (set.lookup member).isSome then set.insert member score else set

/-- `ZADD XX GT`: a present member is only moved to a higher score. -/
def raise (set : ZSet Member) (score : Int) (member : Member) : ZSet Member :=
  match set.lookup member with
  | some current => if current < score then set.insert member score else set
  | none => set

/-- `ZREMRANGEBYSCORE -inf (min`: members scored below `min` are dropped. -/
def trim (set : ZSet Member) (min : Int) : ZSet Member where
  entries := set.entries.filter fun entry => decide (min ≤ entry.2)
  nodupKeys := set.nodupKeys.sublist List.filter_sublist

def Before (le : Member → Member → Bool) (left right : Member × Int) : Prop :=
  left.2 < right.2 ∨ (left.2 = right.2 ∧ le left.1 right.1 = true)

instance (le : Member → Member → Bool) : DecidableRel (Before le) :=
  fun _ _ => inferInstanceAs (Decidable (_ ∨ _))

def ordered (le : Member → Member → Bool) (set : ZSet Member) : List (Member × Int) :=
  (set.entries.map fun entry => (entry.1, entry.2)).insertionSort (Before le)

def countUpTo (set : ZSet Member) (max : Int) : Nat :=
  Table.countWhere (fun _ score => decide (score ≤ max)) set

/-- `ZRANGEBYSCORE -inf max LIMIT offset count`. -/
def rangeUpTo (le : Member → Member → Bool) (set : ZSet Member) (max : Int)
    (offset count : Nat) : List Member :=
  ((((ordered le set).filter fun entry => decide (entry.2 ≤ max)).drop offset).take count).map
    Prod.fst

theorem lookup_move (set : ZSet Member) (score : Int) (member other : Member) :
    (move set score member).lookup other =
      if other = member then (set.lookup member).map fun _ => score else set.lookup other := by
  unfold move
  by_cases same : other = member
  · subst same
    cases present : set.lookup other with
    | none => simp [present]
    | some current => simp
  · rw [if_neg same]
    split
    · exact AList.lookup_insert_ne same
    · rfl

theorem mem_ordered {le : Member → Member → Bool} {set : ZSet Member} {member : Member}
    {score : Int} : (member, score) ∈ ordered le set ↔ set.lookup member = some score := by
  rw [ordered, List.mem_insertionSort, List.mem_map]
  constructor
  · rintro ⟨entry, stored, same⟩
    obtain ⟨rfl, rfl⟩ := Prod.mk.inj same
    exact AList.mem_lookup_iff.mpr stored
  · intro stored
    exact ⟨⟨member, score⟩, AList.mem_lookup_iff.mp stored, rfl⟩

omit [DecidableEq Member] in
theorem ordered_nodup (le : Member → Member → Bool) (set : ZSet Member) :
    ((ordered le set).map Prod.fst).Nodup := by
  have permuted := (List.perm_insertionSort (Before le)
    (set.entries.map fun entry => (entry.1, entry.2))).map Prod.fst
  rw [ordered, permuted.nodup_iff, List.map_map]
  exact set.keys_nodup

omit [DecidableEq Member] in
theorem range_nodup (le : Member → Member → Bool) (set : ZSet Member) (max : Int)
    (offset count : Nat) : (rangeUpTo le set max offset count).Nodup := by
  refine (ordered_nodup le set).sublist (List.Sublist.map Prod.fst ?_)
  exact ((List.take_sublist _ _).trans (List.drop_sublist _ _)).trans List.filter_sublist

theorem mem_range {le : Member → Member → Bool} {set : ZSet Member} {max : Int}
    {offset count : Nat} {member : Member}
    (listed : member ∈ rangeUpTo le set max offset count) :
    ∃ score, set.lookup member = some score ∧ score ≤ max := by
  obtain ⟨⟨key, score⟩, taken, rfl⟩ := List.mem_map.mp listed
  have kept := List.mem_of_mem_drop (List.mem_of_mem_take taken)
  rw [List.mem_filter, decide_eq_true_eq] at kept
  exact ⟨score, mem_ordered.mp kept.1, kept.2⟩

/-- A range from the first member on that is not filled lists every member up to its end. -/
theorem mem_short_range {le : Member → Member → Bool} {set : ZSet Member} {max score : Int}
    {count : Nat} {member : Member} (short : (rangeUpTo le set max 0 count).length < count)
    (stored : set.lookup member = some score) (reached : score ≤ max) :
    member ∈ rangeUpTo le set max 0 count := by
  rw [rangeUpTo, List.drop_zero] at short ⊢
  have whole : ((ordered le set).filter fun entry => decide (entry.2 ≤ max)).length ≤ count := by
    rw [List.length_map, List.length_take] at short
    omega
  rw [List.take_of_length_le whole]
  exact List.mem_map.mpr ⟨(member, score),
    List.mem_filter.mpr ⟨mem_ordered.mpr stored, by simpa using reached⟩, rfl⟩

end ZSet

end Spinneret.Lib
