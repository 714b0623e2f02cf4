import Mathlib.Data.List.Induction

/-!
# Labelled partial machines and their runs

A machine is a partial step function on a state type: a label that is not
enabled in a state yields no successor. Runs are label lists, so one statement
covers every order in which the labels can be taken. The rules below turn what
one step preserves into what every run preserves, with or without a side
condition on the steps.
-/

namespace Spinneret.Lib.Machine

set_option autoImplicit false

variable {State Label : Type*}

def run (step : State → Label → Option State) : State → List Label → Option State
  | state, [] => some state
  | state, label :: rest => (step state label).bind fun next => run step next rest

/-- Every label of the run meets `guard` in the state it is taken from. -/
def Under (step : State → Label → Option State) (guard : State → Label → Prop) :
    State → List Label → Prop
  | _, [] => True
  | state, label :: rest =>
    guard state label ∧ ∀ next, step state label = some next → Under step guard next rest

variable {step : State → Label → Option State} {guard : State → Label → Prop}

@[simp] theorem run_nil (state : State) : run step state [] = some state := rfl

theorem run_cons_eq_some {state final : State} {label : Label} {rest : List Label} :
    run step state (label :: rest) = some final ↔
      ∃ next, step state label = some next ∧ run step next rest = some final := by
  simp only [run, Option.bind_eq_some_iff]

theorem run_append {state final : State} {first second : List Label} :
    run step state (first ++ second) = some final ↔
      ∃ middle, run step state first = some middle ∧ run step middle second = some final := by
  induction first generalizing state with
  | nil => simp
  | cons label rest ih =>
    simp only [List.cons_append, run_cons_eq_some, ih]
    constructor
    · rintro ⟨next, stepped, middle, reached, finished⟩
      exact ⟨middle, ⟨next, stepped, reached⟩, finished⟩
    · rintro ⟨middle, ⟨next, stepped, reached⟩, finished⟩
      exact ⟨next, stepped, middle, reached, finished⟩

theorem under_cons {state next : State} {label : Label} {rest : List Label}
    (stepped : step state label = some next) (met : guard state label)
    (later : Under step guard next rest) : Under step guard state (label :: rest) := by
  refine ⟨met, fun other reached => ?_⟩
  obtain rfl : next = other := Option.some.inj (stepped.symm.trans reached)
  exact later

/-- A guarded run is guarded up to any point and from any point on. -/
theorem under_append {state : State} {first second : List Label}
    (guarded : Under step guard state (first ++ second)) :
    Under step guard state first ∧
      ∀ middle, run step state first = some middle → Under step guard middle second := by
  induction first generalizing state with
  | nil =>
    refine ⟨trivial, fun middle reached => ?_⟩
    obtain rfl : state = middle := by simpa using reached
    exact guarded
  | cons label rest ih =>
    refine ⟨⟨guarded.1, fun next stepped => (ih (guarded.2 next stepped)).1⟩, ?_⟩
    intro middle reached
    obtain ⟨next, stepped, finished⟩ := run_cons_eq_some.mp reached
    exact (ih (guarded.2 next stepped)).2 middle finished

theorem under_of_all {allowed : Label → Prop} {state : State} {labels : List Label}
    (each : ∀ label ∈ labels, allowed label) :
    Under step (fun _ label => allowed label) state labels := by
  induction labels generalizing state with
  | nil => trivial
  | cons label rest ih =>
    exact ⟨each label List.mem_cons_self, fun next _ =>
      ih fun later member => each later (List.mem_cons_of_mem _ member)⟩

theorem under_both {other : State → Label → Prop} {state : State} {labels : List Label}
    (first : Under step guard state labels) (second : Under step other state labels) :
    Under step (fun state label => guard state label ∧ other state label) state labels := by
  induction labels generalizing state with
  | nil => trivial
  | cons label rest ih =>
    exact ⟨⟨first.1, second.1⟩, fun next stepped =>
      ih (first.2 next stepped) (second.2 next stepped)⟩

/-- A condition on the labels alone joins a guard. -/
theorem under_and {allowed : Label → Prop} {state : State} {labels : List Label}
    (guarded : Under step guard state labels) (each : ∀ label ∈ labels, allowed label) :
    Under step (fun state label => guard state label ∧ allowed label) state labels :=
  under_both guarded (under_of_all each)

theorem run_invariant_under {Invariant : State → Prop}
    (preserved : ∀ state label next, Invariant state → guard state label →
      step state label = some next → Invariant next)
    {state final : State} {labels : List Label}
    (initial : Invariant state) (guarded : Under step guard state labels)
    (reached : run step state labels = some final) : Invariant final := by
  induction labels generalizing state with
  | nil =>
    obtain rfl : state = final := by simpa using reached
    exact initial
  | cons label rest ih =>
    obtain ⟨next, stepped, finished⟩ := run_cons_eq_some.mp reached
    exact ih (preserved state label next initial guarded.1 stepped)
      (guarded.2 next stepped) finished

theorem run_invariant {Invariant : State → Prop}
    (preserved : ∀ state label next, Invariant state → step state label = some next →
      Invariant next)
    {state final : State} {labels : List Label}
    (initial : Invariant state) (reached : run step state labels = some final) :
    Invariant final :=
  run_invariant_under (fun state label next held _ => preserved state label next held) initial
    (@under_of_all _ _ _ (fun _ => True) _ _ fun _ _ => trivial) reached

/-- What each step keeps exactly when it meets the guard holds in the end of a run
exactly when every step has met it. -/
theorem run_iff_under {Invariant Good : State → Prop}
    (preserved : ∀ state label next, Invariant state → step state label = some next →
      Invariant next)
    (each : ∀ state label next, Invariant state → step state label = some next →
      (Good next ↔ Good state ∧ guard state label))
    {state final : State} {labels : List Label}
    (initial : Invariant state) (reached : run step state labels = some final) :
    Good final ↔ Good state ∧ Under step guard state labels := by
  induction labels generalizing state with
  | nil =>
    obtain rfl : state = final := by simpa using reached
    simp [Under]
  | cons label rest ih =>
    obtain ⟨next, stepped, finished⟩ := run_cons_eq_some.mp reached
    rw [ih (preserved state label next initial stepped) finished,
      each state label next initial stepped, and_assoc]
    refine and_congr_right fun _ => ⟨fun ⟨met, later⟩ => under_cons stepped met later, ?_⟩
    exact fun guarded => ⟨guarded.1, guarded.2 next stepped⟩

/-- The property holds in every state of the run, the first one included. -/
def Throughout (step : State → Label → Option State) (Good : State → Prop) :
    State → List Label → Prop
  | state, [] => Good state
  | state, label :: rest =>
    Good state ∧ ∀ next, step state label = some next → Throughout step Good next rest

/-- What a step keeps exactly when it meets the guard holds throughout a run exactly when
every step meets it, whether or not it could hold again after a step that does not. -/
theorem throughout_iff_under {allowed : State → Label → Prop} {Invariant Good : State → Prop}
    (preserved : ∀ state label next, Invariant state → Good state → allowed state label →
      step state label = some next → Invariant next)
    (each : ∀ state label next, Invariant state → Good state → allowed state label →
      step state label = some next → (Good next ↔ guard state label))
    {state final : State} {labels : List Label} (initial : Invariant state) (good : Good state)
    (permitted : Under step allowed state labels)
    (reached : run step state labels = some final) :
    Throughout step Good state labels ↔ Under step guard state labels := by
  induction labels generalizing state with
  | nil => exact ⟨fun _ => trivial, fun _ => good⟩
  | cons label rest ih =>
    obtain ⟨next, stepped, finished⟩ := run_cons_eq_some.mp reached
    have kept := preserved state label next initial good permitted.1 stepped
    have step_iff := each state label next initial good permitted.1 stepped
    have later (goes : Good next) :=
      ih kept goes (permitted.2 next stepped) finished
    have head (rest : List Label) (through : Throughout step Good next rest) : Good next := by
      cases rest with
      | nil => exact through
      | cons _ _ => exact through.1
    constructor
    · rintro ⟨-, through⟩
      have goes := head rest (through next stepped)
      exact under_cons stepped (step_iff.mp goes) ((later goes).mp (through next stepped))
    · rintro ⟨met, under⟩
      refine ⟨good, fun other again => ?_⟩
      obtain rfl : next = other := Option.some.inj (stepped.symm.trans again)
      exact (later (step_iff.mpr met)).mpr (under next stepped)

/-- A run whose steps meet the guard leads from one state to the other. -/
def Reaches (step : State → Label → Option State) (guard : State → Label → Prop)
    (state final : State) : Prop :=
  ∃ labels, Under step guard state labels ∧ run step state labels = some final

theorem Reaches.refl (state : State) : Reaches step guard state state := ⟨[], trivial, rfl⟩

theorem Reaches.head {state next final : State} (label : Label) (met : guard state label)
    (stepped : step state label = some next) (later : Reaches step guard next final) :
    Reaches step guard state final := by
  obtain ⟨labels, guarded, reached⟩ := later
  exact ⟨label :: labels, under_cons stepped met guarded,
    run_cons_eq_some.mpr ⟨next, stepped, reached⟩⟩

theorem Reaches.trans {state middle final : State} (first : Reaches step guard state middle)
    (second : Reaches step guard middle final) : Reaches step guard state final := by
  obtain ⟨labels, guarded, reached⟩ := first
  induction labels generalizing state with
  | nil =>
    obtain rfl : state = middle := by simpa using reached
    exact second
  | cons label rest ih =>
    obtain ⟨next, stepped, finished⟩ := run_cons_eq_some.mp reached
    exact Reaches.head label guarded.1 stepped (ih (guarded.2 next stepped) finished)

/-- Parts of a state that are kept by index: what an index holds after one of them was
written is the value written, or what it held before. -/
theorem update_cases {Index Value : Type*} [DecidableEq Index] {held : Index → Value}
    {index other : Index} {written value : Value}
    (here : Function.update held index written other = value) :
    (other = index ∧ written = value) ∨ (other ≠ index ∧ held other = value) := by
  by_cases same : other = index
  · subst same
    rw [Function.update_self] at here
    exact Or.inl ⟨rfl, here⟩
  · rw [Function.update_of_ne same] at here
    exact Or.inr ⟨same, here⟩

end Spinneret.Lib.Machine
