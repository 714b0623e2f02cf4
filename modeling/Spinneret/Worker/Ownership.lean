import Spinneret.Lib.Machine

/-!
# Owners of report shards

Every report shard has an owner key in Redis, which names an instance and expires. The instance
starts the consumer of the shard some time after its lock call took effect, and deletes the key
only after the consumer has exited. The steps of all instances interleave, a reply can be lost
after the effect of its call, a process can end at any time, and expiry is a step of its own. The
calls under one instance id take effect in the order in which they are made.
-/

namespace Spinneret.Worker

open Spinneret.Lib

set_option autoImplicit false

variable {Instance : Type} [DecidableEq Instance]

/-- Before the phases of the program, `acquireShard` has the lock and `startShard` is to run. -/
inductive ShardPhase where
  | acquired
  | owned
  | releasing
  | lost
  deriving DecidableEq

/-- `shardState`. The consumer runs until `done` is closed, and `unlocked` says that its call of
`Unlock` is over. The program has no `lapsed`: the owner key expired since the lock call took
effect. -/
structure ShardState where
  phase : ShardPhase := .acquired
  running : Bool := false
  unlocked : Bool := false
  lapsed : Bool := false

def startShard (st : ShardState) : ShardState := { st with phase := .owned, running := true }

def loseShard (st : ShardState) : ShardState :=
  if st.phase = .owned then { st with phase := .lost } else st

/-- A process of an instance and one shard. `tryLock` and `adopt` are the two calls of
`acquireShard`; calls whose reply is lost are reported as failed. -/
inductive OwnerStep where
  | tryLock (replied : Bool)
  | adopt (replied : Bool)
  | start
  | refresh (replied stale : Bool)
  | release
  | exit
  | unlock (applied : Bool)
  | forget

/-- The owner key and the entry of the shard after a step. A call that is under way when the
process is stopped still takes effect, and so does an `Unlock` that was reported as failed. -/
def actStep (i : Instance) (stopping : Bool) (owner : Option Instance) :
    Option ShardState → OwnerStep → Option (Option Instance × Option ShardState)
  | none, .tryLock replied =>
    some (if owner = none then (some i, if replied then some {} else none) else (owner, none))
  | none, .adopt replied => some (owner, if replied ∧ owner = some i then some {} else none)
  | none, .unlock applied => some (if applied ∧ owner = some i then none else owner, none)
  | some st, .start => if st.phase = .acquired then some (owner, startShard st) else none
  | some st, .refresh replied stale =>
    if st.phase = .acquired ∨ st.phase = .lost then none
    else if replied then some (owner, if owner = some i then st else loseShard st)
    else some (owner, if stale then loseShard st else st)
  | some st, .release =>
    if st.phase = .owned then some (owner, some { st with phase := .releasing }) else none
  | some st, .exit =>
    if st.running ∧ (st.phase ≠ .owned ∨ stopping) then
      some (owner, some { st with running := false })
    else none
  | some st, .unlock applied =>
    if ¬ st.running ∧ (st.phase = .releasing ∨ stopping ∧ st.phase = .owned) then
      some (if applied ∧ owner = some i then none else owner, some { st with unlocked := true })
    else none
  | some st, .forget =>
    if ¬ st.running ∧ (st.phase = .lost ∨ st.unlocked) then some (owner, none) else none
  | _, _ => none

structure Fleet (Instance : Type) where
  owner : Nat → Option Instance
  shards : Instance → Nat → Option ShardState
  stopping : Instance → Bool

inductive FleetStep (Instance : Type) where
  | act (i : Instance) (shard : Nat) (step : OwnerStep)
  | expire (shard : Nat)
  | stop (i : Instance)
  /-- A process ends, and another one of the same id may start. -/
  | crash (i : Instance)

def fleetStep (f : Fleet Instance) : FleetStep Instance → Option (Fleet Instance)
  | .act i shard step =>
    (actStep i (f.stopping i) (f.owner shard) (f.shards i shard) step).map fun (owner, st) =>
      { f with
        owner := Function.update f.owner shard owner
        shards := Function.update f.shards i (Function.update (f.shards i) shard st) }
  | .expire shard =>
    some { f with
      owner := Function.update f.owner shard none
      shards := fun i => Function.update (f.shards i) shard
        ((f.shards i shard).map fun st =>
          { st with lapsed := st.lapsed || f.owner shard = some i }) }
  | .stop i => some { f with stopping := Function.update f.stopping i true }
  | .crash i =>
    some { f with
      shards := Function.update f.shards i fun _ => none
      stopping := Function.update f.stopping i false }

def idleFleet : Fleet Instance := ⟨fun _ => none, fun _ _ => none, fun _ => false⟩

/-- A consumer runs or is to be started, and the key of its lock call has not expired. -/
def Holds (st : ShardState) : Prop :=
  (st.phase = .acquired ∨ st.running = true) ∧ st.lapsed = false

/-- The owner keys name the instances whose consumers run, as long as no key has expired. -/
def Keyed (f : Fleet Instance) : Prop :=
  ∀ i shard st, f.shards i shard = some st → Holds st → f.owner shard = some i

/-- A key keeps its name unless the instance it names deletes it. -/
theorem act_step_owner {i j : Instance} {stopping : Bool} {owner owner' : Option Instance}
    {before after : Option ShardState} {step : OwnerStep}
    (taken : actStep i stopping owner before step = some (owner', after))
    (named : owner = some j) : owner' = some j ∨ j = i ∧ step = .unlock true := by
  subst named
  cases before <;> cases step <;> simp only [actStep, reduceCtorEq] at taken <;>
    split_ifs at taken <;> simp_all

theorem Holds.of_lose {st : ShardState} (holds : Holds (loseShard st)) : Holds st := by
  unfold loseShard at holds
  split at holds
  · exact ⟨.inr (holds.1.resolve_left nofun), holds.2⟩
  · exact holds

/-- A step of an instance keeps that its own running consumer has the key: a consumer starts with
the key, and the key is deleted after the consumer has exited. -/
theorem act_step_own {i : Instance} {stopping : Bool} {owner owner' : Option Instance}
    {before after : Option ShardState} {step : OwnerStep}
    (taken : actStep i stopping owner before step = some (owner', after))
    (held : ∀ st, before = some st → Holds st → owner = some i) :
    ∀ st, after = some st → Holds st → owner' = some i := by
  intro st now holds
  subst now
  cases before with
  | none =>
    cases step <;> simp only [actStep, reduceCtorEq] at taken <;> split_ifs at taken <;> simp_all
  | some old =>
    have mine := held old rfl
    cases step <;> simp only [actStep, reduceCtorEq] at taken <;> split_ifs at taken <;>
      cases taken <;> grind [Holds.of_lose, Holds, startShard]

theorem keyed_step {f next : Fleet Instance} {label : FleetStep Instance} (keyed : Keyed f)
    (taken : fleetStep f label = some next) : Keyed next := by
  intro j n st entry holds
  have mine := keyed j n
  cases label with
  | act i shard step =>
    obtain ⟨⟨owner, after⟩, acted, rfl⟩ := Option.map_eq_some_iff.mp taken
    have own := act_step_own acted (keyed i shard)
    have other := act_step_owner acted (j := j)
    dsimp only at entry ⊢
    by_cases self : j = i
    · subst self
      rw [Function.update_self] at entry
      grind [Function.update_apply]
    · rw [Function.update_of_ne self] at entry
      grind [Function.update_apply]
  | expire shard =>
    cases taken
    by_cases here : n = shard
    · subst here
      obtain ⟨old, known, rfl⟩ := Option.map_eq_some_iff.mp (by simpa using entry)
      grind [Holds]
    · grind [Function.update_apply]
  | stop i =>
    cases taken
    exact mine st entry holds
  | crash i =>
    cases taken
    by_cases self : j = i
    · subst self
      simp at entry
    · exact mine st (by simpa [self] using entry) holds

/-- A running consumer is named by the key, unless the key has expired since the lock call took
effect. So two instances run the consumer of one shard at a time only after the key of one of
them has expired, before or after its consumer was started. -/
theorem one_consumer {labels : List (FleetStep Instance)} {f : Fleet Instance}
    (reached : Machine.run fleetStep idleFleet labels = some f) {i : Instance} {shard : Nat}
    {st : ShardState} (entry : f.shards i shard = some st) (running : st.running = true) :
    (st.lapsed = false → f.owner shard = some i) ∧
      ∀ j other, f.shards j shard = some other → other.running = true → j ≠ i →
        st.lapsed = true ∨ other.lapsed = true := by
  have keyed : Keyed f := by
    apply Machine.run_invariant (fun _ _ _ before taken => keyed_step before taken) _ reached
    intro i shard st entry
    cases entry
  constructor
  · exact fun unexpired => keyed i shard st entry ⟨.inr running, unexpired⟩
  · intro j other elsewhere alive apart
    by_contra both
    rw [not_or, Bool.not_eq_true, Bool.not_eq_true] at both
    have mine := keyed i shard st entry ⟨.inr running, both.1⟩
    have theirs := keyed j shard other elsewhere ⟨.inr alive, both.2⟩
    exact apart (Option.some.inj (theirs.symm.trans mine))

/-- The key of instance 0 expires before its consumer starts, and instance 1 takes it. -/
def handover : List (FleetStep Nat) :=
  [.act 0 3 (.tryLock true), .expire 3, .act 1 3 (.tryLock true), .act 0 3 .start, .act 1 3 .start]

theorem one_consumer_handover : ∃ f, Machine.run fleetStep idleFleet handover = some f ∧
    (f.shards 0 3).any (·.running) ∧ f.owner 3 = some 1 :=
  ⟨_, rfl, rfl, (@one_consumer Nat _ handover _ rfl 1 3 _ rfl rfl).1 rfl⟩

end Spinneret.Worker
