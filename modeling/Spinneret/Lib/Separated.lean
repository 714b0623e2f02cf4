import Mathlib.Data.List.Forall2

/-!
# Separated lists

Texts joined with a separator and ended by a closing symbol, and a reader that takes them
apart again when every item can be read off the front of what follows it.
-/

namespace Spinneret.Lib

set_option autoImplicit false

variable {Symbol Value : Type*}

/-- Items up to the closing symbol, at least one. -/
def readItems [DecidableEq Symbol] (item : List Symbol → Option (Value × List Symbol))
    (separator close : Symbol) : Nat → List Symbol → Option (List Value × List Symbol)
  | 0, _ => none
  | fuel + 1, text =>
    match item text with
    | none => none
    | some (_, []) => none
    | some (value, symbol :: rest) =>
      if symbol = close then some ([value], rest)
      else if symbol = separator then
        (readItems item separator close fuel rest).map fun (values, rest) =>
          (value :: values, rest)
      else none

def readList [DecidableEq Symbol] (item : List Symbol → Option (Value × List Symbol))
    (separator close : Symbol) (text : List Symbol) : Option (List Value × List Symbol) :=
  if text.head? = some close then some ([], text.drop 1)
  else readItems item separator close text.length text

/-- The reader takes the value off a text before a separator and before the closing symbol. -/
def TakenOff (item : List Symbol → Option (Value × List Symbol)) (separator close : Symbol)
    (text : List Symbol) (value : Value) : Prop :=
  text ≠ [] ∧ text.head? ≠ some close ∧ ∀ symbol rest, symbol = separator ∨ symbol = close →
    item (text ++ symbol :: rest) = some (value, symbol :: rest)

variable {item : List Symbol → Option (Value × List Symbol)} {separator close : Symbol}

theorem read_items_joined [DecidableEq Symbol] {text : List Symbol}
    {texts : List (List Symbol)} {value : Value} {values : List Value} (apart : separator ≠ close)
    (first : TakenOff item separator close text value)
    (later : List.Forall₂ (TakenOff item separator close) texts values) {fuel : Nat}
    (enough : texts.length < fuel) (rest : List Symbol) :
    readItems item separator close fuel ([separator].intercalate (text :: texts) ++ close :: rest) =
      some (value :: values, rest) := by
  obtain ⟨fuel, rfl⟩ : ∃ less, fuel = less + 1 := ⟨fuel - 1, by omega⟩
  induction later generalizing text value fuel with
  | nil =>
    rw [List.intercalate_singleton, readItems, first.2.2 close rest (.inr rfl)]
    simp
  | @cons next nextValue texts values second later ih =>
    obtain ⟨less, rfl⟩ : ∃ less, fuel = less + 1 :=
      ⟨fuel - 1, by rw [List.length_cons] at enough; omega⟩
    have rests := ih second less (by rw [List.length_cons] at enough; omega)
    have joined : [separator].intercalate (text :: next :: texts) ++ close :: rest =
        text ++ separator :: ([separator].intercalate (next :: texts) ++ close :: rest) := by
      rw [List.intercalate_cons_cons, List.append_assoc, List.append_assoc]
      rfl
    rw [joined, readItems, first.2.2 separator _ (.inl rfl)]
    simp [apart, rests]

theorem length_le_joined {texts : List (List Symbol)} {values : List Value}
    (all : List.Forall₂ (TakenOff item separator close) texts values) :
    texts.length ≤ ([separator].intercalate texts).length := by
  induction all with
  | nil => exact Nat.zero_le _
  | @cons text value texts values first later ih =>
    have size : 0 < text.length := List.length_pos_iff.mpr first.1
    cases texts with
    | nil =>
      rw [List.intercalate_singleton]
      exact size
    | cons next texts =>
      rw [List.intercalate_cons_cons, List.length_append, List.length_append,
        List.length_cons, List.length_singleton]
      omega

theorem joined_head {text : List Symbol} (full : text ≠ []) (texts : List (List Symbol))
    (rest : List Symbol) :
    ([separator].intercalate (text :: texts) ++ rest).head? = text.head? := by
  cases text with
  | nil => exact absurd rfl full
  | cons symbol text =>
    cases texts with
    | nil =>
      rw [List.intercalate_singleton]
      rfl
    | cons next texts =>
      rw [List.intercalate_cons_cons]
      rfl

/-- A list that is joined and closed is read back, whatever follows it. -/
theorem read_list_joined [DecidableEq Symbol] {texts : List (List Symbol)} {values : List Value}
    (apart : separator ≠ close) (all : List.Forall₂ (TakenOff item separator close) texts values)
    (rest : List Symbol) :
    readList item separator close ([separator].intercalate texts ++ close :: rest) =
      some (values, rest) := by
  cases all with
  | nil =>
    rw [List.intercalate_nil, List.nil_append, readList]
    exact if_pos rfl
  | @cons text value texts values first later =>
    have opens : ([separator].intercalate (text :: texts) ++ close :: rest).head? ≠
        some close := by
      rw [joined_head first.1]
      exact first.2.1
    rw [readList, if_neg opens]
    refine read_items_joined apart first later ?_ rest
    have bound := length_le_joined (.cons first later)
    rw [List.length_cons] at bound
    rw [List.length_append]
    omega

end Spinneret.Lib
