import Mathlib.Data.List.Perm.Basic
import Mathlib.Order.Lattice
import Mathlib.Order.MinMax

/-!
# Escalating operations

An operation has a target level and takes effect only on a state strictly below
it. If a written state has the target level, a higher write hides a lower one
and equal targets write alike, then the operations commute: the final state
depends on the multiset of operations only, and its level is the maximum.
-/

namespace Spinneret.Lib

set_option autoImplicit false

theorem foldl_frame {State Item View : Type*} (view : State → View) (f : State → Item → State)
    (kept : ∀ state item, view (f state item) = view state) (items : List Item) (state : State) :
    view (items.foldl f state) = view state := by
  induction items generalizing state with
  | nil => rfl
  | cons item rest ih => rw [List.foldl_cons, ih, kept]

theorem foldl_view {State Item View : Type*} (view : State → View) (f : State → Item → State)
    (g : View → Item → View) (items : List Item) (state : State)
    (commutes : ∀ state, ∀ item ∈ items, view (f state item) = g (view state) item) :
    view (items.foldl f state) = items.foldl g (view state) := by
  induction items generalizing state with
  | nil => rfl
  | cons item rest ih =>
    have tail : ∀ state, ∀ later ∈ rest, view (f state later) = g (view state) later :=
      fun state later member => commutes state later (List.mem_cons_of_mem _ member)
    rw [List.foldl_cons, List.foldl_cons, ih _ tail, commutes state item List.mem_cons_self]

structure Escalation (State Op Level : Type*) [LinearOrder Level] where
  level : State → Level
  target : Op → Level
  write : Op → State → State
  raises : ∀ op state, level state < target op → level (write op state) = target op
  hides : ∀ low high state, level state < target low → target low < target high →
    write high (write low state) = write high state
  agrees : ∀ first second state, level state < target first → target first = target second →
    write first state = write second state

namespace Escalation

variable {State Op Level : Type*} [LinearOrder Level] (machine : Escalation State Op Level)

def step (state : State) (op : Op) : State :=
  if machine.level state < machine.target op then machine.write op state else state

theorem level_step (state : State) (op : Op) :
    machine.level (machine.step state op) = max (machine.level state) (machine.target op) := by
  unfold step
  split_ifs with below
  · rw [machine.raises op state below, max_eq_right below.le]
  · rw [max_eq_left (not_lt.mp below)]

theorem level_le_step (state : State) (op : Op) :
    machine.level state ≤ machine.level (machine.step state op) := by
  rw [level_step]
  exact le_max_left _ _

/-- After the higher of two operations the lower one has no effect, whether or
not it came first. -/
private theorem step_step_of_lt (state : State) (low high : Op)
    (order : machine.target low < machine.target high) :
    machine.step (machine.step state low) high = machine.step state high ∧
      machine.step (machine.step state high) low = machine.step state high := by
  constructor
  · by_cases below : machine.level state < machine.target low
    · have first : machine.step state low = machine.write low state := if_pos below
      have raised := machine.raises low state below
      rw [first, step, raised, if_pos order, machine.hides low high state below order, step,
        if_pos (below.trans order)]
    · rw [show machine.step state low = state from if_neg below]
  · have above : ¬ machine.level (machine.step state high) < machine.target low := by
      rw [level_step, not_lt]
      exact order.le.trans (le_max_right _ _)
    exact if_neg above

private theorem step_step_of_eq (state : State) (first second : Op)
    (same : machine.target first = machine.target second) :
    machine.step (machine.step state first) second = machine.step state first := by
  have reached : ¬ machine.level (machine.step state first) < machine.target second := by
    rw [level_step, not_lt, ← same]
    exact le_max_right _ _
  exact if_neg reached

theorem step_right_comm (state : State) (first second : Op) :
    machine.step (machine.step state first) second =
      machine.step (machine.step state second) first := by
  rcases lt_trichotomy (machine.target first) (machine.target second) with order | same | order
  · obtain ⟨left, right⟩ := machine.step_step_of_lt state first second order
    rw [left, right]
  · rw [machine.step_step_of_eq state first second same,
      machine.step_step_of_eq state second first same.symm]
    unfold step
    rw [← same]
    split_ifs with below
    · exact machine.agrees first second state below same
    · rfl
  · obtain ⟨left, right⟩ := machine.step_step_of_lt state second first order
    rw [left, right]

def stepOption (state : State) : Option Op → State
  | none => state
  | some op => machine.step state op

theorem stepOption_right_comm (state : State) (first second : Option Op) :
    machine.stepOption (machine.stepOption state first) second =
      machine.stepOption (machine.stepOption state second) first := by
  cases first with
  | none => rfl
  | some first =>
    cases second with
    | none => rfl
    | some second => exact machine.step_right_comm state first second

theorem level_le_stepOption (state : State) (op : Option Op) :
    machine.level state ≤ machine.level (machine.stepOption state op) := by
  cases op with
  | none => exact le_rfl
  | some op => exact machine.level_le_step state op

end Escalation

end Spinneret.Lib
