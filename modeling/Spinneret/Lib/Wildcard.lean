import Mathlib.Data.List.Infix

/-!
# Wildcard patterns

A pattern is a list of items: a symbol stands for itself, `one` for any symbol and `many` for
any sequence of symbols. A name matches when it splits into one segment for each item.
-/

namespace Spinneret.Lib.Wildcard

set_option autoImplicit false

variable {Symbol : Type}

inductive Item (Symbol : Type) where
  | literal (symbol : Symbol)
  | one
  | many
  deriving DecidableEq, Repr

def Item.Takes : Item Symbol → List Symbol → Prop
  | .literal symbol, segment => segment = [symbol]
  | .one, segment => ∃ symbol, segment = [symbol]
  | .many, _ => True

/-- The name splits into segments that the items take in turn. -/
def Matches (pattern : List (Item Symbol)) (name : List Symbol) : Prop :=
  ∃ segments, segments.flatten = name ∧ List.Forall₂ Item.Takes pattern segments

theorem matches_nil {name : List Symbol} : Matches [] name ↔ name = [] := by
  constructor
  · rintro ⟨segments, joined, taken⟩
    cases taken
    exact joined.symm
  · intro empty
    exact ⟨[], empty.symm, .nil⟩

theorem matches_cons {item : Item Symbol} {pattern : List (Item Symbol)} {name : List Symbol} :
    Matches (item :: pattern) name ↔
      ∃ segment rest, name = segment ++ rest ∧ item.Takes segment ∧ Matches pattern rest := by
  constructor
  · rintro ⟨segments, joined, taken⟩
    cases taken with
    | cons first others => exact ⟨_, _, joined.symm, first, _, rfl, others⟩
  · rintro ⟨segment, rest, split, first, segments, joined, others⟩
    refine ⟨segment :: segments, ?_, .cons first others⟩
    rw [List.flatten_cons, joined, split]

theorem matches_single {item : Item Symbol} (single : item ≠ .many)
    {pattern : List (Item Symbol)} {symbol : Symbol} {name : List Symbol} :
    Matches (item :: pattern) (symbol :: name) ↔ item.Takes [symbol] ∧ Matches pattern name := by
  rw [matches_cons]
  constructor
  · rintro ⟨segment, rest, split, first, later⟩
    have length : ∃ taken, segment = [taken] := by
      cases item with
      | literal taken => exact ⟨taken, first⟩
      | one => exact first
      | many => exact absurd rfl single
    obtain ⟨taken, rfl⟩ := length
    rw [List.singleton_append, List.cons.injEq] at split
    rw [split.1, split.2]
    exact ⟨first, later⟩
  · rintro ⟨first, later⟩
    exact ⟨[symbol], name, rfl, first, later⟩

theorem not_matches_single {item : Item Symbol} (single : item ≠ .many)
    {pattern : List (Item Symbol)} : ¬ Matches (item :: pattern) [] := by
  intro matched
  obtain ⟨segment, rest, split, first, -⟩ := matches_cons.mp matched
  rw [(List.append_eq_nil_iff.mp split.symm).1] at first
  cases item with
  | literal symbol => cases first
  | one =>
    obtain ⟨symbol, impossible⟩ := first
    cases impossible
  | many => exact single rfl

theorem matches_many {pattern : List (Item Symbol)} {name : List Symbol} :
    Matches (.many :: pattern) name ↔ ∃ rest, rest <:+ name ∧ Matches pattern rest := by
  rw [matches_cons]
  constructor
  · rintro ⟨segment, rest, split, -, later⟩
    exact ⟨rest, ⟨segment, split.symm⟩, later⟩
  · rintro ⟨rest, ⟨segment, split⟩, later⟩
    exact ⟨segment, rest, split.symm, trivial, later⟩

/-- A star takes nothing, or at least the first symbol. -/
theorem matches_many_tail {pattern : List (Item Symbol)} {name : List Symbol} :
    Matches (.many :: pattern) name ↔
      Matches pattern name ∨ Matches (.many :: pattern) name.tail := by
  rw [matches_many, matches_many]
  constructor
  · rintro ⟨rest, suffix, matched⟩
    cases name with
    | nil =>
      rw [List.suffix_nil.mp suffix] at matched
      exact .inl matched
    | cons symbol name =>
      rcases List.suffix_cons_iff.mp suffix with rfl | behind
      · exact .inl matched
      · exact .inr ⟨rest, behind, matched⟩
  · rintro (matched | ⟨rest, suffix, matched⟩)
    · exact ⟨name, List.suffix_rfl, matched⟩
    · exact ⟨rest, suffix.trans (List.tail_suffix name), matched⟩

/-- Items that take one symbol each take as many symbols as there are items. -/
theorem Matches.passed {passed pattern : List (Item Symbol)} (single : .many ∉ passed)
    {name : List Symbol} (matched : Matches (passed ++ pattern) name) :
    ∃ before rest, name = before ++ rest ∧ before.length = passed.length ∧
      Matches pattern rest := by
  induction passed generalizing name with
  | nil => exact ⟨[], name, rfl, rfl, matched⟩
  | cons item passed ih =>
    obtain ⟨own, later⟩ := List.ne_and_not_mem_of_not_mem_cons single
    cases name with
    | nil => exact absurd matched (not_matches_single own.symm)
    | cons symbol name =>
      obtain ⟨before, rest, split, aligned, kept⟩ :=
        ih later ((matches_single own.symm).mp matched).2
      refine ⟨symbol :: before, rest, ?_, ?_, kept⟩
      · rw [split, List.cons_append]
      · rw [List.length_cons, List.length_cons, aligned]

/-- Once a later star is reached, no earlier star has to take more: what a retry of the
earlier one would match, the later one matches from here. -/
theorem Matches.later_star {passed pattern : List (Item Symbol)} (single : .many ∉ passed)
    {before name other : List Symbol} (aligned : before.length = passed.length)
    (suffix : other <:+ before ++ name)
    (matched : Matches (.many :: (passed ++ .many :: pattern)) other) :
    Matches (.many :: pattern) name := by
  obtain ⟨start, inside, found⟩ := matches_many.mp matched
  obtain ⟨taken, left, rfl, length, later⟩ := found.passed single
  obtain ⟨rest, behind, last⟩ := matches_many.mp later
  have whole := inside.trans suffix
  have shorter : left.length ≤ name.length := by
    have bound := whole.length_le
    rw [List.length_append, List.length_append] at bound
    omega
  have within : left <:+ name :=
    List.suffix_of_suffix_length_le ((List.suffix_append taken left).trans whole)
      (List.suffix_append before name) shorter
  exact matches_many.mpr ⟨rest, behind.trans within, last⟩

end Spinneret.Lib.Wildcard
