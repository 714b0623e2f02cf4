import Mathlib
import Spinneret.Lib.Choice
import Spinneret.Policy.Evaluate

/-!
# The most severe action of every subject

Planned actions are compared by severity, then by duration, scope and rule index. This is a
linear order on ranks, and `MostSevere` keeps the first action of the greatest rank for every
subject. The laws of the function follow from those of the greatest element of a list.
-/

namespace Spinneret.Policy

open Spinneret.HotState Spinneret.Worker Spinneret.Lib.Choice

set_option autoImplicit false

/-! ## Ranks -/

/-- Severity, duration, breadth of the scope, and the rule index downwards. -/
abbrev Rank := Int ×ₗ Int ×ₗ Int ×ₗ Int

def rank (a : PlannedAction) : Rank :=
  toLex (severityOf a, toLex (effectiveDuration a, toLex (scopeBreadth a.scope, -a.ruleIndex)))

theorem more_severe_iff (a b : PlannedAction) : moreSevere a b = true ↔ rank b < rank a := by
  simp only [rank, Prod.Lex.toLex_lt_toLex, moreSevere]
  split_ifs <;> simp only [decide_eq_true_eq] <;> omega

def restamp (a : PlannedAction) : PlannedAction := { a with severity := severityOf a }

/-! ## Winners -/

def ofSubject (group : Option SubjectKind) (actions : List PlannedAction) : List PlannedAction :=
  actions.filter fun a => decide (a.scope.subject = group)

theorem mem_of_subject {group : Option SubjectKind} {actions : List PlannedAction}
    {a : PlannedAction} : a ∈ ofSubject group actions ↔ a ∈ actions ∧ a.scope.subject = group := by
  simp [ofSubject]

theorem contend_own (best : Winners) (a : PlannedAction) :
    contend best a a.scope.subject =
      List.argAux (fun b c => rank c < rank b) (best a.scope.subject) a := by
  unfold contend List.argAux
  cases held : best a.scope.subject with
  | none => exact Function.update_self ..
  | some b =>
    dsimp only
    by_cases wins : moreSevere a b
    · rw [if_pos wins, Function.update_self, if_pos ((more_severe_iff a b).mp wins)]
    · rw [if_neg wins, if_neg fun less => wins ((more_severe_iff a b).mpr less), held]

theorem winners_eq (actions : List PlannedAction) (best : Winners) (group : Option SubjectKind) :
    actions.foldl contend best group =
      (ofSubject group actions).foldl (List.argAux fun b c => rank c < rank b) (best group) := by
  induction actions generalizing best with
  | nil => rfl
  | cons a rest ih =>
    rw [List.foldl_cons, ih]
    by_cases own : a.scope.subject = group
    · subst own
      have kept : ofSubject a.scope.subject (a :: rest) =
          a :: ofSubject a.scope.subject rest := by simp [ofSubject]
      rw [kept, List.foldl_cons, contend_own]
    · have dropped : ofSubject group (a :: rest) = ofSubject group rest := by
        simp [ofSubject, own]
      rw [dropped, contend_other own]

/-- The first action of the greatest rank among those of a subject. -/
noncomputable def winner (actions : List PlannedAction) (group : Option SubjectKind) :
    Option PlannedAction :=
  (ofSubject group actions).argmax rank

theorem winner_subject {actions : List PlannedAction} {group : Option SubjectKind}
    {a : PlannedAction} (won : winner actions group = some a) : a.scope.subject = group :=
  (mem_of_subject.mp (List.argmax_mem won)).2

def subjectGroups : List (Option SubjectKind) :=
  [some .identity, some .account, some .proxy, none]

theorem mem_subject_groups (group : Option SubjectKind) : group ∈ subjectGroups := by
  rcases group with _ | (_ | _ | _) <;> decide

theorem most_severe_eq (actions : List PlannedAction) :
    mostSevere actions =
      subjectGroups.filterMap fun group => (winner actions group).map restamp := by
  have winners : actions.foldl contend (fun _ => none) = winner actions := by
    funext group
    exact winners_eq actions _ group
  unfold mostSevere
  rw [winners, List.map_filterMap]
  rfl

/-- Picks by subject keep apart when they are put in one list. -/
theorem filter_picks {pick : Option SubjectKind → Option PlannedAction}
    (own : ∀ group a, pick group = some a → a.scope.subject = group)
    {groups : List (Option SubjectKind)} (distinct : groups.Nodup) {group : Option SubjectKind}
    (listed : group ∈ groups) :
    ofSubject group (groups.filterMap pick) = (pick group).toList := by
  have absent {rest : List (Option SubjectKind)} (unlisted : group ∉ rest) :
      ofSubject group (rest.filterMap pick) = [] := by
    refine List.filter_eq_nil_iff.mpr fun a member => ?_
    obtain ⟨other, here, picked⟩ := List.mem_filterMap.mp member
    rw [decide_eq_true_eq, own other a picked]
    rintro rfl
    exact unlisted here
  induction groups with
  | nil => cases listed
  | cons first rest ih =>
    rw [List.nodup_cons] at distinct
    by_cases here : group = first
    · subst here
      have later := absent distinct.1
      cases picked : pick group with
      | none =>
        rw [List.filterMap_cons_none picked, later]
        rfl
      | some a =>
        have kept : ofSubject group (a :: rest.filterMap pick) =
            a :: ofSubject group (rest.filterMap pick) := by
          simp [ofSubject, own group a picked]
        rw [List.filterMap_cons_some picked, kept, later]
        rfl
    · have later := ih distinct.2 ((List.mem_cons.mp listed).resolve_left here)
      cases picked : pick first with
      | none => rw [List.filterMap_cons_none picked, later]
      | some a =>
        have dropped : ofSubject group (a :: rest.filterMap pick) =
            ofSubject group (rest.filterMap pick) := by
          simp [ofSubject, own first a picked, Ne.symm here]
        rw [List.filterMap_cons_some picked, dropped, later]

theorem most_severe_of_subject (actions : List PlannedAction) (group : Option SubjectKind) :
    ofSubject group (mostSevere actions) = ((winner actions group).map restamp).toList := by
  rw [most_severe_eq]
  refine filter_picks (fun other a picked => ?_) (by decide) (mem_subject_groups group)
  obtain ⟨b, won, stamped⟩ := Option.map_eq_some_iff.mp picked
  rw [← stamped]
  show b.scope.subject = other
  exact winner_subject won

theorem winner_append (first second : List PlannedAction) (group : Option SubjectKind) :
    winner (first ++ second) group =
      laterGreater rank (winner first group) (winner second group) := by
  rw [winner, ofSubject, List.filter_append]
  exact argmax_append rank _ _

theorem winner_most_severe (actions : List PlannedAction) (group : Option SubjectKind) :
    winner (mostSevere actions) group = (winner actions group).map restamp := by
  rw [winner, most_severe_of_subject]
  cases winner actions group <;> rfl

theorem later_greater_restamp (first second : Option PlannedAction) :
    laterGreater rank (first.map restamp) (second.map restamp) =
      (laterGreater rank first second).map restamp := by
  cases first with
  | none => rfl
  | some a =>
    cases second with
    | none => rfl
    | some b =>
      show _ = (if rank a < rank b then some b else some a).map restamp
      rw [apply_ite (Option.map restamp)]
      rfl

/-! ## The laws -/

/-- The one action kept for a subject is one of its actions and of the greatest rank. -/
theorem most_severe_greatest (actions : List PlannedAction) (group : Option SubjectKind)
    (planned : ∃ a ∈ actions, a.scope.subject = group) :
    ∃ a ∈ actions, a.scope.subject = group ∧ ofSubject group (mostSevere actions) = [restamp a] ∧
      ∀ b ∈ actions, b.scope.subject = group → rank b ≤ rank a := by
  cases won : winner actions group with
  | none =>
    obtain ⟨a, member, own⟩ := planned
    have nothing := List.argmax_eq_none.mp won
    have here := mem_of_subject.mpr ⟨member, own⟩
    rw [nothing] at here
    cases here
  | some a =>
    obtain ⟨member, own⟩ := mem_of_subject.mp (List.argmax_mem won)
    refine ⟨a, member, own, ?_, fun b there same => ?_⟩
    · rw [most_severe_of_subject, won]
      rfl
    · exact List.le_of_mem_argmax (mem_of_subject.mpr ⟨there, same⟩) won

theorem most_severe_ranks {first second : List PlannedAction} (same : first.Perm second) :
    (mostSevere first).map (fun a => (a.scope.subject, rank a)) =
      (mostSevere second).map fun a => (a.scope.subject, rank a) := by
  have labelled (actions : List PlannedAction) :
      (mostSevere actions).map (fun a => (a.scope.subject, rank a)) =
        subjectGroups.filterMap fun group => ((winner actions group).map rank).map (group, ·) := by
    rw [most_severe_eq, List.map_filterMap]
    refine List.filterMap_congr fun group _ => ?_
    cases won : winner actions group with
    | none => rfl
    | some a =>
      have own := winner_subject won
      show some (a.scope.subject, rank a) = some (group, rank a)
      rw [own]
  rw [labelled, labelled]
  refine List.filterMap_congr fun group _ => ?_
  exact congrArg (Option.map _) (argmax_perm rank (same.filter _))

/-- `moreSevere` is the order of the ranks and `MostSevere` keeps exactly one action of every
subject that has one, of the greatest rank; its result has the same ranks for every order of the
input, keeping is idempotent, and a concatenation may be reduced part by part. -/
theorem most_severe_laws (actions : List PlannedAction) :
    (∀ a b, moreSevere a b = true ↔ rank b < rank a) ∧
    (∀ group, (∃ a ∈ actions, a.scope.subject = group) →
      ∃ a ∈ actions, a.scope.subject = group ∧
        ofSubject group (mostSevere actions) = [restamp a] ∧
        ∀ b ∈ actions, b.scope.subject = group → rank b ≤ rank a) ∧
      (∀ a ∈ mostSevere actions, ∃ b ∈ actions, a = restamp b) ∧
      (∀ other : List PlannedAction, other.Perm actions →
        (mostSevere other).map (fun a => (a.scope.subject, rank a)) =
          (mostSevere actions).map fun a => (a.scope.subject, rank a)) ∧
      mostSevere (mostSevere actions) = mostSevere actions ∧
      ∀ more,
        mostSevere (actions ++ more) = mostSevere (mostSevere actions ++ mostSevere more) := by
  refine ⟨more_severe_iff, most_severe_greatest actions, fun a kept => mem_most_severe kept,
    fun other same => most_severe_ranks same, ?_, fun more => ?_⟩
  · rw [most_severe_eq (mostSevere actions), most_severe_eq actions]
    refine List.filterMap_congr fun group _ => ?_
    rw [← most_severe_eq, winner_most_severe, Option.map_map]
    rfl
  · rw [most_severe_eq (actions ++ more), most_severe_eq (mostSevere actions ++ mostSevere more)]
    refine List.filterMap_congr fun group _ => ?_
    rw [winner_append, winner_append, winner_most_severe, winner_most_severe,
      later_greater_restamp, Option.map_map]
    rfl

end Spinneret.Policy
