import Mathlib.Data.List.Forall2
import Mathlib.Tactic.SplitIfs

/-!
# Computations that may fail

The rules by which a computation in `Except` that succeeded is taken apart, one bound
step at a time, and a list of computations in `Option`, one item at a time.
-/

namespace Spinneret.Lib

set_option autoImplicit false

variable {Failure : Type}

theorem map_m_forall₂ {Item Value : Type} {f : Item → Option Value} {items : List Item}
    {values : List Value} (all : items.mapM f = some values) :
    List.Forall₂ (fun item value => f item = some value) items values := by
  induction items generalizing values with
  | nil =>
    rw [List.mapM_nil] at all
    cases all
    exact .nil
  | cons item items ih =>
    rw [List.mapM_cons] at all
    obtain ⟨value, one, later⟩ := Option.bind_eq_some_iff.mp all
    obtain ⟨rest, others, same⟩ := Option.bind_eq_some_iff.mp later
    cases same
    exact .cons one (ih others)

theorem map_m_map {Item Other Value : Type} {f : Item → Option Value} {g : Other → Option Value}
    {change : Item → Other} {items : List Item} {values : List Value}
    (all : items.mapM f = some values)
    (same : ∀ item value, f item = some value → g (change item) = some value) :
    (items.map change).mapM g = some values := by
  induction items generalizing values with
  | nil => exact all
  | cons item items ih =>
    rw [List.mapM_cons] at all
    obtain ⟨value, one, later⟩ := Option.bind_eq_some_iff.mp all
    obtain ⟨rest, others, built⟩ := Option.bind_eq_some_iff.mp later
    rw [List.map_cons, List.mapM_cons, same item value one, ih others]
    exact built

end Spinneret.Lib
