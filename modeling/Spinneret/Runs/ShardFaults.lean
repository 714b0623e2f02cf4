import Spinneret.Runs.ShardOnce

/-!
# Delivery faults of a report shard

A read whose reply is lost leaves entries pending behind a consumer that keeps
reading, and an owner that has not noticed the loss of its lock reads next to the
new one. The checkpoint is one id per site and shard, so an entry that comes up after
a later one of its site is taken for a duplicate and acknowledged without effects.
As long as the entries of a site are processed in turn nothing is skipped, whatever
the number of consumers and the replies lost.
-/

namespace Spinneret.Worker

open Spinneret.HotState Spinneret.Lib

set_option autoImplicit false

/-- Every earlier entry of the same site has been applied. -/
def Group.InTurn (group : Group) (position : Nat) : Prop :=
  ∀ earlier < position, (group.siteAt earlier).isSome →
    group.siteAt earlier = group.siteAt position → earlier ∈ group.applied

instance (group : Group) (position : Nat) : Decidable (group.InTurn position) :=
  inferInstanceAs (Decidable (∀ earlier < position, _ → _ → _))

/-- A call is made for an entry only in turn. -/
def CallsInTurn (group : Group) : ConsumerPhase → Command → Prop
  | .batch (position :: _) _ _, .attempt _ => group.InTurn position
  | .batch (position :: _) _ _, .process _ => group.InTurn position
  | _, _ => True

def StepsInTurn (state : Shard) : ShardOp → Prop
  | .consumer c command => CallsInTurn state.group (state.phase c) command
  | _ => True

/-- The calls of an entry are retried until one succeeds. -/
def ShardOp.Succeeds : ShardOp → Prop
  | .consumer _ .giveUp => False
  | _ => True

/-- Everything of a site up to its checkpoint was applied, and so was what is no longer
pending. -/
structure EntriesAccounted (shard : Nat) (group : Group) : Prop where
  marks : ∀ s mark, (group.sites s).ckpt shard = some mark →
    ∃ last, group.entries[last]? = some ⟨mark, some s⟩ ∧
      ∀ position ≤ last, group.siteAt position = some s → position ∈ group.applied
  acknowledged : ∀ position < group.delivered, position ∉ group.pending →
    (group.siteAt position).isSome → position ∈ group.applied

/-- The processed entries of a batch were applied. -/
def BatchAccounted (group : Group) : ConsumerPhase → Prop
  | .batch rest done _ =>
    (∀ position ∈ rest, position < group.delivered) ∧
      ∀ position ∈ done, position < group.delivered ∧
        ((group.siteAt position).isSome → position ∈ group.applied)
  | _ => True

/-- A step of the others adds to what is delivered and applied. -/
structure Group.Extends (group after : Group) : Prop where
  delivered : group.delivered ≤ after.delivered
  routes : ∀ position < group.delivered, after.siteAt position = group.siteAt position
  applied : ∀ position ∈ group.applied, position ∈ after.applied

section EntriesAccounted

variable {shard : Nat} {group after : Group}

theorem BatchAccounted.extends {phase : ConsumerPhase} (accounted : BatchAccounted group phase)
    (extended : group.Extends after) : BatchAccounted after phase := by
  cases phase with
  | batch rest done resume =>
    refine ⟨fun position member => (accounted.1 position member).trans_le extended.delivered, ?_⟩
    intro position member
    obtain ⟨bound, applied⟩ := accounted.2 position member
    refine ⟨bound.trans_le extended.delivered, fun routed => ?_⟩
    rw [extended.routes position bound] at routed
    exact extended.applied position (applied routed)
  | idle | claiming | reading => trivial

theorem EntriesAccounted.add {entry : Entry} (formed : group.Formed)
    (accounted : EntriesAccounted shard group) :
    EntriesAccounted shard { group with entries := group.entries ++ [entry] } where
  marks := by
    intro s mark stored
    obtain ⟨last, lastAt, applied⟩ := accounted.marks s mark stored
    have bound := (List.getElem?_eq_some_iff.mp lastAt).1
    refine ⟨last, by rw [List.getElem?_append_left bound, lastAt], ?_⟩
    intro position le routed
    rw [Group.site_at_add entry (lt_of_le_of_lt le bound)] at routed
    exact applied position le routed
  acknowledged := by
    intro position delivered acked routed
    rw [Group.site_at_add entry (delivered.trans_le formed.delivered)] at routed
    exact accounted.acknowledged position delivered acked routed

theorem EntriesAccounted.other {s : Nat} {site : Site} (accounted : EntriesAccounted shard group)
    (same : site.ckpt shard = (group.sites s).ckpt shard) :
    EntriesAccounted shard { group with sites := Function.update group.sites s site } where
  marks := fun t mark stored =>
    accounted.marks t mark ((ckpt_update_same same t).symm.trans stored)
  acknowledged := accounted.acknowledged

theorem EntriesAccounted.deliver (accounted : EntriesAccounted shard group) (count : Nat) :
    EntriesAccounted shard (group.deliver count) where
  marks := accounted.marks
  acknowledged := by
    intro position delivered acked routed
    obtain ⟨notOld, notFresh⟩ := not_or.mp fun member => acked (List.mem_append.mpr member)
    refine accounted.acknowledged position ?_ notOld routed
    by_contra! new
    exact notFresh (Group.mem_fresh.mpr ⟨new, delivered⟩)

theorem EntriesAccounted.acknowledge {done : List Nat} (accounted : EntriesAccounted shard group)
    (processed : ∀ position ∈ done, (group.siteAt position).isSome → position ∈ group.applied) :
    EntriesAccounted shard (group.acknowledge done) where
  marks := accounted.marks
  acknowledged := by
    intro position delivered acked routed
    by_cases now : position ∈ done
    · exact processed position now routed
    · exact accounted.acknowledged position delivered
        (fun pending => acked (List.mem_filter.mpr ⟨pending, decide_eq_true now⟩)) routed

theorem observe_entry_applied (position : Nat) (full : Option ObserveArgs) :
    ∀ earlier ∈ group.applied, earlier ∈ (group.observeEntry shard position full).applied := by
  intro earlier member
  unfold Group.observeEntry
  split
  · dsimp only
    split_ifs
    · exact member
    · exact List.mem_append_left _ member
  · exact member

/-- A call in turn leaves its entry applied: either it has the effects, or the checkpoint
says that an earlier call had them. -/
theorem EntriesAccounted.call {position : Nat} (full : Option ObserveArgs) (formed : group.Formed)
    (accounted : EntriesAccounted shard group) (inTurn : group.InTurn position) :
    EntriesAccounted shard (group.observeEntry shard position full) ∧
      ((group.siteAt position).isSome →
        position ∈ (group.observeEntry shard position full).applied) := by
  cases routed : group.siteAt position with
  | none =>
    rw [Group.observe_entry_skipped full routed]
    exact ⟨accounted, nofun⟩
  | some s =>
    obtain ⟨sid, found⟩ := Group.site_at_eq_some routed
    rw [Group.observe_entry_routed full found]
    cases dup : (observe shard sid full (group.sites s)).2.isDup with
    | true =>
      rw [observe_dup_unchanged dup, Function.update_eq_self]
      refine ⟨accounted, fun _ => ?_⟩
      obtain ⟨mark, stored, le⟩ := (observe_dup_iff _ _ _ _).mp dup
      obtain ⟨last, lastAt, applied⟩ := accounted.marks s mark stored
      exact applied position (formed.position_le found lastAt le) routed
    | false =>
      refine ⟨⟨?_, ?_⟩, fun _ => List.mem_append_right _ List.mem_cons_self⟩
      · intro other mark stored
        by_cases same : other = s
        · subst same
          simp only [Function.update_self, observe_ckpt dup, Option.some.injEq] at stored
          subst stored
          refine ⟨position, found, fun earlier le atSite => ?_⟩
          rcases Nat.lt_or_eq_of_le le with before | rfl
          · have same : group.siteAt earlier = group.siteAt position :=
              Eq.trans atSite routed.symm
            exact List.mem_append_left _
              (inTurn earlier before (by rw [same, routed]; rfl) same)
          · exact List.mem_append_right _ List.mem_cons_self
        · simp only [Function.update_of_ne same] at stored
          obtain ⟨last, lastAt, applied⟩ := accounted.marks other mark stored
          exact ⟨last, lastAt, fun earlier le atSite =>
            List.mem_append_left _ (applied earlier le atSite)⟩
      · intro earlier delivered acked isRouted
        exact List.mem_append_left _
          (accounted.acknowledged earlier delivered acked isRouted)

theorem Group.Extends.refl (group : Group) : group.Extends group :=
  ⟨le_rfl, fun _ _ => rfl, fun _ member => member⟩

theorem deliver_extends (group : Group) (count : Nat) : group.Extends (group.deliver count) :=
  ⟨Nat.le_add_right _ _, fun _ _ => rfl, fun _ member => member⟩

theorem acknowledge_extends (group : Group) (done : List Nat) :
    group.Extends (group.acknowledge done) :=
  ⟨le_rfl, fun _ _ => rfl, fun _ member => member⟩

theorem observe_entry_extends (position : Nat) (full : Option ObserveArgs) :
    group.Extends (group.observeEntry shard position full) where
  delivered := by rw [Group.observe_entry_delivered]
  routes := fun _ _ => Group.observe_entry_site_at full _
  applied := observe_entry_applied position full

theorem after_batch_accounted (resume : Resume) (ok : Bool) :
    BatchAccounted group (resume.after ok) := by
  cases resume with
  | claim next acked =>
    cases next with
    | none => cases acked <;> cases ok <;> trivial
    | some next => trivial
  | read => cases ok <;> trivial
  | stop => trivial

theorem consumes_accounted {c : Nat} {phase reached : ConsumerPhase} {command : Command}
    (formed : group.Formed) (accounted : EntriesAccounted shard group)
    (batch : BatchAccounted group phase) (inTurn : CallsInTurn group phase command)
    (succeeds : (ShardOp.consumer c command).Succeeds)
    (moved : Consumes shard group phase command after reached) :
    EntriesAccounted shard after ∧ group.Extends after ∧ BatchAccounted after reached := by
  cases moved with
  | start | stop | readNone | cutIdle => exact ⟨accounted, .refl group, trivial⟩
  | drained positive page => exact ⟨accounted, .refl group, after_batch_accounted _ _⟩
  | claimed paged =>
    obtain ⟨rfl, rfl⟩ := Prod.mk.inj paged
    refine ⟨accounted, .refl group, fun position member => ?_, nofun⟩
    exact formed.bounded position (List.mem_of_mem_filter (List.mem_of_mem_take member))
  | read =>
    exact ⟨accounted.deliver _, deliver_extends group _,
      fun position member => (Group.mem_fresh.mp member).2, nofun⟩
  | readLost | readStopped => exact ⟨accounted.deliver _, deliver_extends group _, trivial⟩
  | attempt =>
    exact ⟨(accounted.call _ formed inTurn).1, observe_entry_extends _ _,
      batch.extends (observe_entry_extends _ _)⟩
  | @process position rest done resume full =>
    obtain ⟨next, applied⟩ := accounted.call full formed inTurn
    have extended : group.Extends (group.observeEntry shard position full) :=
      observe_entry_extends position full
    obtain ⟨left, processed⟩ := batch.extends extended
    refine ⟨next, extended, fun old member => left old (List.mem_cons_of_mem _ member), ?_⟩
    intro old member
    rcases List.mem_append.mp member with earlier | last
    · exact processed old earlier
    · obtain rfl := List.mem_singleton.mp last
      refine ⟨left old List.mem_cons_self, fun routed => applied ?_⟩
      rwa [Group.observe_entry_site_at] at routed
  | giveUp => exact succeeds.elim
  | cut => exact ⟨accounted, .refl group, nofun, batch.2⟩
  | ack =>
    exact ⟨accounted.acknowledge fun position member => (batch.2 position member).2,
      acknowledge_extends group _, after_batch_accounted _ _⟩
  | ackLost =>
    exact ⟨accounted.acknowledge fun position member => (batch.2 position member).2,
      acknowledge_extends group _, batch.extends (acknowledge_extends group _)⟩
  | ackFailed => exact ⟨accounted, .refl group, after_batch_accounted _ _⟩

end EntriesAccounted

/-- The invariant of a shard whose calls are made in turn. -/
structure NothingSkipped (shard : Nat) (state : Shard) : Prop where
  formed : state.group.Formed
  accounted : EntriesAccounted shard state.group
  batches : ∀ c, BatchAccounted state.group (state.phase c)

theorem nothing_skipped_step {shard : Nat} {state next : Shard} {op : ShardOp}
    (holds : NothingSkipped shard state) (inTurn : StepsInTurn state op) (succeeds : op.Succeeds)
    (stepped : shardStep shard state op = some next) : NothingSkipped shard next := by
  have moved := shard_step_moves stepped
  have formed := shard_moves_formed holds.formed moved
  cases moved with
  | add grows =>
    refine ⟨formed, holds.accounted.add holds.formed, fun c => (holds.batches c).extends ?_⟩
    exact ⟨le_rfl, fun position delivered =>
      Group.site_at_add _ (delivered.trans_le holds.formed.delivered), fun _ member => member⟩
  | other same =>
    exact ⟨formed, holds.accounted.other same, fun c => (holds.batches c).extends
      ⟨le_rfl, fun _ _ => rfl, fun _ member => member⟩⟩
  | @consumer c command group phase moved =>
    obtain ⟨accounted, extended, batch⟩ := consumes_accounted holds.formed holds.accounted
      (holds.batches c) inTurn succeeds moved
    refine ⟨formed, accounted, fun d => ?_⟩
    by_cases mover : d = c
    · subst mover
      simpa only [Function.update_self] using batch
    · simp only [Function.update_of_ne mover]
      exact (holds.batches d).extends extended

/-- Whatever replies are lost and however many owners overlap, an entry that is delivered and
no longer pending was applied, if every call is made in turn. -/
theorem acknowledged_entry_applied {shard : Nat} {ops : List ShardOp} {final : Shard}
    (inTurn : Machine.Under (shardStep shard) StepsInTurn {} ops)
    (succeed : ∀ op ∈ ops, op.Succeeds)
    (reached : Machine.run (shardStep shard) {} ops = some final) :
    ∀ position < final.group.delivered, position ∉ final.group.pending →
      (final.group.siteAt position).isSome → position ∈ final.group.applied := by
  have start : NothingSkipped shard {} :=
    ⟨⟨List.Pairwise.nil, le_rfl, List.Pairwise.nil, nofun⟩, ⟨nofun, nofun⟩, fun _ => trivial⟩
  have preserved : ∀ state op next, NothingSkipped shard state →
      StepsInTurn state op ∧ op.Succeeds → shardStep shard state op = some next →
      NothingSkipped shard next :=
    fun _ _ _ holds guard => nothing_skipped_step holds guard.1 guard.2
  exact (Machine.run_invariant_under preserved start (Machine.under_and inTurn succeed)
    reached).accounted.acknowledged

/-- A read reply is lost; the consumer goes on to the next entry and stops. The next owner
claims the first one. -/
def lostReply (first second : Nat) (report : ObserveArgs) : List ShardOp :=
  [.add ⟨⟨1, 0⟩, some first⟩, .add ⟨⟨1, 1⟩, some second⟩,
    .consumer 0 .start, .consumer 0 (.autoClaim 10), .consumer 0 (.readLost 1),
    .consumer 0 (.readGroup 1), .consumer 0 (.process (some report)), .consumer 0 .ack,
    .consumer 0 .stop, .consumer 1 .start, .consumer 1 (.autoClaim 10),
    .consumer 1 (.process (some report)), .consumer 1 .ack]

/-- Two owners read one entry each, and the one with the later entry is faster. -/
def overlappingOwners (report : ObserveArgs) : List ShardOp :=
  [.add ⟨⟨1, 0⟩, some 0⟩, .add ⟨⟨1, 1⟩, some 0⟩,
    .consumer 0 .start, .consumer 0 (.autoClaim 10), .consumer 1 .start,
    .consumer 1 (.autoClaim 10), .consumer 0 (.readGroup 1), .consumer 1 (.readGroup 1),
    .consumer 1 (.process (some report)), .consumer 1 .ack,
    .consumer 0 (.process (some report)), .consumer 0 .ack]

/-- Entries of two sites are in turn in any order. -/
theorem lost_reply_of_other_site_applied :
    ∃ final, Machine.run (shardStep 3) {} (lostReply 0 1 (successReport 1000 ⟨"a", 3⟩)) = some final ∧
      final.group.applied = [1, 0] ∧
      ∀ position < final.group.delivered, position ∉ final.group.pending →
        (final.group.siteAt position).isSome → position ∈ final.group.applied := by
  refine ⟨_, rfl, by decide +kernel, ?_⟩
  have inTurn : Machine.Under (shardStep 3) StepsInTurn {}
      (lostReply 0 1 (successReport 1000 ⟨"a", 3⟩)) := by
    iterate 6 refine Machine.under_cons rfl trivial ?_
    refine Machine.under_cons rfl (show Group.InTurn _ 1 by decide +kernel) ?_
    iterate 4 refine Machine.under_cons rfl trivial ?_
    refine Machine.under_cons rfl (show Group.InTurn _ 0 by decide +kernel) ?_
    exact Machine.under_cons rfl trivial trivial
  have succeed : ∀ op ∈ lostReply 0 1 (successReport 1000 ⟨"a", 3⟩), op.Succeeds := by
    simp [lostReply, ShardOp.Succeeds]
  exact acknowledged_entry_applied inTurn succeed rfl

/-- For entries of one site both faults acknowledge the first entry without its effects. -/
theorem delivery_fault_skips_entry :
    (∃ final, Machine.run (shardStep 3) {} (lostReply 0 0 (successReport 1000 ⟨"a", 3⟩)) = some final ∧
      0 < final.group.delivered ∧ 0 ∉ final.group.pending ∧ final.group.siteAt 0 = some 0 ∧
      0 ∉ final.group.applied) ∧
    ∃ final, Machine.run (shardStep 3) {} (overlappingOwners (successReport 1000 ⟨"a", 3⟩)) = some final ∧
      0 < final.group.delivered ∧ 0 ∉ final.group.pending ∧ final.group.siteAt 0 = some 0 ∧
      0 ∉ final.group.applied :=
  ⟨⟨_, rfl, by decide +kernel, by decide +kernel, by decide +kernel, by decide +kernel⟩,
    ⟨_, rfl, by decide +kernel, by decide +kernel, by decide +kernel, by decide +kernel⟩⟩

end Spinneret.Worker
