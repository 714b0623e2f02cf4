import Mathlib.Data.List.Forall2
import Mathlib.Data.List.ReduceOption
import Spinneret.Worker.Consumer

/-!
# The ledger of a report shard

What a shard is for is said by the ledger machine: the entries of the stream are
applied to the hot state one after the other, each once, without any checkpoint test.
A group is processed up to a frontier when its hot state is the ledger's there; a
script call for an entry that is not beyond the frontier keeps it so.
-/

namespace Spinneret.Worker

open Spinneret.HotState Spinneret.Lib

set_option autoImplicit false

/-- The hot state, the stream, and the next entry to apply. -/
structure Ledger where
  sites : Nat → Site := fun _ => {}
  entries : List Entry := []
  next : Nat := 0

inductive LedgerOp where
  | add (entry : Entry)
  | other (s : Nat) (site : Site)
  | apply (full : Option ObserveArgs)

/-- The effects of a report, with no test before them. -/
def effects (shard : Nat) (sid : StreamId) (full : Option ObserveArgs) (site : Site) : Site :=
  let advanced := { site with ckpt := Function.update site.ckpt shard (some sid) }
  match full with
  | none => advanced
  | some args => (observeFull args advanced).1

def ledgerStep (shard : Nat) (ledger : Ledger) : LedgerOp → Option Ledger
  | .add entry => some { ledger with entries := ledger.entries ++ [entry] }
  | .other s site =>
    if site.ckpt shard = (ledger.sites s).ckpt shard then
      some { ledger with sites := Function.update ledger.sites s site }
    else none
  | .apply full =>
    match ledger.entries[ledger.next]? with
    | none => none
    | some { id := _, site := none } => some { ledger with next := ledger.next + 1 }
    | some { id := sid, site := some s } =>
      some { ledger with
        sites := Function.update ledger.sites s (effects shard sid full (ledger.sites s))
        next := ledger.next + 1 }

theorem observe_effects {shard : Nat} {sid : StreamId} {full : Option ObserveArgs} {site : Site}
    (fresh : (observe shard sid full site).2.isDup = false) :
    (observe shard sid full site).1 = effects shard sid full site := by
  unfold observe at fresh ⊢
  split_ifs with seen
  · rw [if_pos seen] at fresh
    cases fresh
  · cases full <;> rfl

/-- What an operation on the shard is to the ledger. A script call applies the next entry with
the arguments of the call, or does nothing; all other commands of consumers do nothing. -/
inductive Follows : ShardOp → Option LedgerOp → Prop where
  | add (entry : Entry) : Follows (.add entry) (some (.add entry))
  | other (s : Nat) (site : Site) : Follows (.other s site) (some (.other s site))
  | attempt (c : Nat) (full : Option ObserveArgs) :
      Follows (.consumer c (.attempt full)) (some (.apply full))
  | process (c : Nat) (full : Option ObserveArgs) :
      Follows (.consumer c (.process full)) (some (.apply full))
  | quiet (c : Nat) (command : Command) : Follows (.consumer c command) none

def Group.ledger (group : Group) (next : Nat) : Ledger := ⟨group.sites, group.entries, next⟩

/-- The operations, read one by one, bring the ledger to the stream and the hot state of the group. -/
def Refines (shard : Nat) (ops : List ShardOp) (group : Group) (next : Nat) : Prop :=
  ∃ trace, List.Forall₂ Follows ops trace ∧
    Machine.run (ledgerStep shard) {} trace.reduceOption = some (group.ledger next)

theorem Refines.snoc {shard next reached : Nat} {ops : List ShardOp} {op : ShardOp}
    {group after : Group} {label : Option LedgerOp} (refines : Refines shard ops group next)
    (follows : Follows op label)
    (stepped : Machine.run (ledgerStep shard) (group.ledger next) label.toList =
      some (after.ledger reached)) : Refines shard (ops ++ [op]) after reached := by
  obtain ⟨trace, earlier, ran⟩ := refines
  refine ⟨trace ++ [label], List.rel_append earlier (.cons follows .nil), ?_⟩
  have single : [label].reduceOption = label.toList := by cases label <;> rfl
  rw [List.reduceOption_append, single]
  exact Machine.run_append.mpr ⟨_, ran, stepped⟩

/-! ## The processed part of the stream -/

/-- Everything below the frontier is processed and nothing else: the checkpoint of a site is
the last entry below it that is routed to the site. Delivered entries from the frontier on are
still pending. -/
structure Processed (shard : Nat) (group : Group) (frontier : Nat) : Prop where
  applied : group.applied = group.routed frontier
  reached : frontier ≤ group.delivered
  marks : ∀ s mark, (group.sites s).ckpt shard = some mark →
    ∃ position < frontier, group.entries[position]? = some ⟨mark, some s⟩
  covered : ∀ position < frontier, ∀ sid s, group.entries[position]? = some ⟨sid, some s⟩ →
    ∃ mark, (group.sites s).ckpt shard = some mark ∧ sid ≤ mark
  kept : ∀ position, frontier ≤ position → position < group.delivered → position ∈ group.pending

section Processed

variable {shard frontier : Nat} {group : Group}

/-- The checkpoint test asks whether the entry is below the frontier. -/
theorem Processed.dup_iff {position s : Nat} {sid : StreamId} (full : Option ObserveArgs)
    (formed : group.Formed) (processed : Processed shard group frontier)
    (found : group.entries[position]? = some ⟨sid, some s⟩) :
    (observe shard sid full (group.sites s)).2.isDup = true ↔ position < frontier := by
  rw [observe_dup_iff]
  constructor
  · rintro ⟨mark, stored, le⟩
    obtain ⟨last, below, lastAt⟩ := processed.marks s mark stored
    exact lt_of_le_of_lt (formed.position_le found lastAt le) below
  · intro below
    exact processed.covered position below sid s found

theorem Processed.observe_old {position : Nat} (full : Option ObserveArgs)
    (formed : group.Formed) (processed : Processed shard group frontier)
    (below : position < frontier) : group.observeEntry shard position full = group := by
  cases routed : group.siteAt position with
  | none => exact Group.observe_entry_skipped full routed
  | some s =>
    obtain ⟨sid, found⟩ := Group.site_at_eq_some routed
    have dup := (processed.dup_iff full formed found).mpr below
    rw [Group.observe_entry_routed full found, if_pos dup, observe_dup_unchanged dup,
      Function.update_eq_self]

theorem Group.routed_succ (group : Group) (next : Nat) :
    group.routed (next + 1) =
      group.routed next ++ if (group.siteAt next).isSome then [next] else [] := by
  unfold Group.routed
  rw [List.range_succ, List.filter_append]
  by_cases routed : (group.siteAt next).isSome <;> simp [routed]

theorem Processed.skip_next (processed : Processed shard group frontier)
    (delivered : frontier < group.delivered)
    (skipped : group.siteAt frontier = none) : Processed shard group (frontier + 1) where
  applied := by
    rw [Group.routed_succ, skipped, processed.applied]
    simp
  reached := delivered
  marks := by
    intro s mark stored
    obtain ⟨position, below, found⟩ := processed.marks s mark stored
    exact ⟨position, Nat.lt_succ_of_lt below, found⟩
  covered := by
    intro position below sid s found
    rcases Nat.lt_succ_iff_lt_or_eq.mp below with earlier | rfl
    · exact processed.covered position earlier sid s found
    · rw [Group.siteAt, found] at skipped
      cases skipped
  kept := fun position ge => processed.kept position (Nat.le_of_succ_le ge)

theorem ledger_skip (full : Option ObserveArgs) (bound : frontier < group.entries.length)
    (skipped : group.siteAt frontier = none) :
    ledgerStep shard (group.ledger frontier) (.apply full) = some (group.ledger (frontier + 1)) := by
  have found := List.getElem?_eq_getElem bound
  rcases entry : group.entries[frontier] with ⟨sid, site⟩
  rw [entry] at found
  obtain rfl : site = none := by simpa [Group.siteAt, found] using skipped
  simp only [ledgerStep, Group.ledger, found]

theorem Processed.apply_next {s : Nat} {sid : StreamId} (full : Option ObserveArgs)
    (processed : Processed shard group frontier) (delivered : frontier < group.delivered)
    (formed : group.Formed) (found : group.entries[frontier]? = some ⟨sid, some s⟩) :
    ledgerStep shard (group.ledger frontier) (.apply full) =
        some ((group.observeEntry shard frontier full).ledger (frontier + 1)) ∧
      Processed shard (group.observeEntry shard frontier full) (frontier + 1) := by
  have fresh : (observe shard sid full (group.sites s)).2.isDup = false := by
    rw [Bool.eq_false_iff]
    exact fun dup => lt_irrefl _ ((processed.dup_iff full formed found).mp dup)
  have moved := observe_ckpt fresh
  rw [Group.observe_entry_routed full found, fresh]
  refine ⟨by simp only [ledgerStep, Group.ledger, found, observe_effects fresh], ?_, delivered, ?_,
    ?_, fun position ge => processed.kept position (Nat.le_of_succ_le ge)⟩
  · have routed : group.siteAt frontier = some s := by rw [Group.siteAt, found]; rfl
    show group.applied ++ [frontier] = group.routed (frontier + 1)
    rw [Group.routed_succ, routed, processed.applied]
    rfl
  · intro other mark stored
    by_cases same : other = s
    · subst same
      simp only [Function.update_self, moved, Option.some.injEq] at stored
      subst stored
      exact ⟨frontier, Nat.lt_succ_self _, found⟩
    · simp only [Function.update_of_ne same] at stored
      obtain ⟨position, below, lastAt⟩ := processed.marks other mark stored
      exact ⟨position, Nat.lt_succ_of_lt below, lastAt⟩
  · intro position below id other entryAt
    by_cases same : other = s
    · subst same
      exact ⟨sid, by simp only [Function.update_self, moved],
        formed.id_le entryAt found (Nat.lt_succ_iff.mp below)⟩
    · simp only [Function.update_of_ne same]
      rcases Nat.lt_succ_iff_lt_or_eq.mp below with earlier | rfl
      · exact processed.covered position earlier id other entryAt
      · rw [found] at entryAt
        cases entryAt
        exact absurd rfl same

/-- A call for an entry up to the frontier moves the frontier past it at most, as the ledger does
in a step or in none. -/
theorem Processed.observe {position : Nat} (full : Option ObserveArgs)
    (formed : group.Formed) (processed : Processed shard group frontier)
    (delivered : position < group.delivered) (next : position ≤ frontier) :
    ∃ reached label, (label = none ∨ label = some (.apply full)) ∧
      Machine.run (ledgerStep shard) (group.ledger frontier) label.toList =
        some ((group.observeEntry shard position full).ledger reached) ∧
      frontier ≤ reached ∧ position < reached ∧
      Processed shard (group.observeEntry shard position full) reached := by
  rcases Nat.lt_or_eq_of_le next with below | rfl
  · refine ⟨frontier, none, .inl rfl, ?_, le_rfl, below, ?_⟩ <;>
      rw [processed.observe_old full formed below]
    · rfl
    · exact processed
  · refine ⟨position + 1, some (.apply full), .inr rfl, ?_⟩
    have single {after : Ledger}
        (stepped : ledgerStep shard (group.ledger position) (.apply full) = some after) :
        Machine.run (ledgerStep shard) (group.ledger position) [.apply full] = some after :=
      Machine.run_cons_eq_some.mpr ⟨_, stepped, rfl⟩
    cases routed : group.siteAt position with
    | none =>
      rw [Group.observe_entry_skipped full routed]
      exact ⟨single (ledger_skip full (delivered.trans_le formed.delivered) routed),
        Nat.le_succ _, Nat.lt_succ_self _, processed.skip_next delivered routed⟩
    | some s =>
      obtain ⟨sid, found⟩ := Group.site_at_eq_some routed
      obtain ⟨stepped, later⟩ := processed.apply_next full delivered formed found
      exact ⟨single stepped, Nat.le_succ _, Nat.lt_succ_self _, later⟩

theorem Processed.add (entry : Entry) (formed : group.Formed)
    (processed : Processed shard group frontier) :
    Processed shard { group with entries := group.entries ++ [entry] } frontier where
  applied := by
    have bound := processed.reached.trans formed.delivered
    refine processed.applied.trans (List.filter_congr fun position below => ?_)
    rw [Group.site_at_add entry (lt_of_lt_of_le (List.mem_range.mp below) bound)]
  reached := processed.reached
  marks := by
    intro s mark stored
    obtain ⟨position, below, found⟩ := processed.marks s mark stored
    have bound := (List.getElem?_eq_some_iff.mp found).1
    exact ⟨position, below, by rw [List.getElem?_append_left bound, found]⟩
  covered := by
    intro position below sid s found
    have bound := lt_of_lt_of_le below (processed.reached.trans formed.delivered)
    rw [List.getElem?_append_left bound] at found
    exact processed.covered position below sid s found
  kept := processed.kept

theorem Processed.other {s : Nat} {site : Site} (processed : Processed shard group frontier)
    (same : site.ckpt shard = (group.sites s).ckpt shard) :
    Processed shard { group with sites := Function.update group.sites s site } frontier where
  applied := processed.applied
  reached := processed.reached
  marks := fun t mark stored =>
    processed.marks t mark ((ckpt_update_same same t).symm.trans stored)
  covered := by
    intro position below sid t found
    rw [ckpt_update_same same t]
    exact processed.covered position below sid t found
  kept := processed.kept

theorem Processed.deliver (processed : Processed shard group frontier) (count : Nat) :
    Processed shard (group.deliver count) frontier where
  applied := processed.applied
  reached := processed.reached.trans (Nat.le_add_right _ _)
  marks := processed.marks
  covered := processed.covered
  kept := by
    intro position unprocessed bound
    rcases Nat.lt_or_ge position group.delivered with old | new
    · exact List.mem_append_left _ (processed.kept position unprocessed old)
    · exact List.mem_append_right _ (Group.mem_fresh.mpr ⟨new, bound⟩)

theorem Processed.acknowledge {done : List Nat} (processed : Processed shard group frontier)
    (below : ∀ position ∈ done, position < frontier) :
    Processed shard (group.acknowledge done) frontier where
  applied := processed.applied
  reached := processed.reached
  marks := processed.marks
  covered := processed.covered
  kept := by
    intro position unprocessed bound
    refine List.mem_filter.mpr ⟨processed.kept position unprocessed bound, decide_eq_true ?_⟩
    exact fun member => absurd (below position member) (not_lt.mpr unprocessed)

end Processed

end Spinneret.Worker
