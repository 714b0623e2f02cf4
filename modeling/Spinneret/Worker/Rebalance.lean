import Mathlib.Algebra.BigOperators.Group.Finset.Basic
import Mathlib.Data.Finset.Sort
import Mathlib.Data.Nat.ModEq
import Spinneret.Worker.Ownership

/-!
# Rebalancing report shards

Every live instance takes free shards up to the share `ceil(shards / live)`. The scans of the
instances interleave call by call; a failing call, which may have set the key, and a cancelled
context end the scan of their instance. The instances agree on who is live, and no key expires or
is deleted during a round.
-/

namespace Spinneret.Worker

open Spinneret.Lib Function

set_option autoImplicit false

variable {Instance : Type} [DecidableEq Instance]

/-- The variables of the loop of `rebalance`; `owned` grows as shards are started. -/
structure Scan where
  start : Nat
  busy : Finset Nat
  owned : Finset Nat
  cursor : Nat
  need : Nat
  ended : Bool := false

/-- The shard of turn `k`. -/
def turn (shards start k : Nat) : Nat := (start + k) % shards

/-- The position of an instance among the live ones and their number. -/
def place (live : List Instance) (i : Instance) : Nat × Nat :=
  if i ∈ live then (live.idxOf i, live.length) else (live.length, live.length + 1)

def target (shards n : Nat) : Nat := (shards + n - 1) / n

/-- `rebalance` up to its loop: the shards to release, and the scan for free shards. At most one
of the two does anything. -/
def rebalance (shards : Nat) (live : List Instance) (i : Instance)
    (table : Nat → Option ShardState) : List Nat × Scan :=
  let (pos, n) := place live i
  let owned := (Finset.range shards).filter fun s => (table s).any (·.phase = .owned)
  ((owned.sort (· ≤ ·)).drop (target shards n),
    { start := pos * shards / n
      busy := (Finset.range shards).filter fun s => (table s).isSome
      owned
      cursor := 0
      need := target shards n - owned.card })

/-- Both calls are one step: a key that names another instance in the first call does so in the
second. -/
def acquireShard (owner : Option Instance) (i : Instance) : Bool :=
  [.tryLock true, .adopt true].any fun call => ((actStep i false owner none call).bind (·.2)).isSome

theorem acquire_shard_iff {owner : Option Instance} {i : Instance} :
    acquireShard owner i = true ↔ owner = none ∨ owner = some i := by
  cases owner with
  | none => simp [acquireShard, actStep]
  | some j => by_cases own : j = i <;> simp [acquireShard, actStep, own]

structure Round (Instance : Type) where
  owner : Nat → Option Instance
  scans : Instance → Scan

def startRound (shards : Nat) (live : List Instance) (f : Fleet Instance) : Round Instance :=
  ⟨f.owner, fun i => (rebalance shards live i (f.shards i)).2⟩

/-- What a turn of the loop meets. A failing call may have set the key. -/
inductive Turn where
  | call
  | fail (applied : Bool)
  | cancel

/-- One turn of the loop of an instance; a busy shard is passed without a call. -/
def scanStep (shards : Nat) (r : Round Instance) : Instance × Turn → Option (Round Instance)
  | (i, met) =>
    let scan := r.scans i
    let s := turn shards scan.start scan.cursor
    let stopped := update r.scans i { scan with ended := true }
    if scan.cursor < shards ∧ 0 < scan.need ∧ scan.ended = false then
      match met with
      | .call => some (if s ∉ scan.busy ∧ acquireShard (r.owner s) i then
          { owner := update r.owner s (some i)
            scans := update r.scans i { scan with
              cursor := scan.cursor + 1, owned := insert s scan.owned, need := scan.need - 1 } }
        else { r with scans := update r.scans i { scan with cursor := scan.cursor + 1 } })
      | .fail applied =>
        if s ∈ scan.busy then none
        else if applied ∧ r.owner s = none then some ⟨update r.owner s (some i), stopped⟩
        else some ⟨r.owner, stopped⟩
      | .cancel => some ⟨r.owner, stopped⟩
    else none

/-- What the scan of an instance has done so far. -/
structure Progress (shards goal : Nat) (owner : Nat → Option Instance) (i : Instance)
    (scan : Scan) : Prop where
  count : scan.owned.card + scan.need = goal
  named : ∀ s ∈ scan.owned, s < shards ∧ owner s = some i
  known : ∀ s ∈ scan.busy, owner s ≠ none
  seen : ∀ s ∈ scan.owned, s ∈ scan.busy ∨ ∃ k < scan.cursor, turn shards scan.start k = s
  passed : ∀ k < scan.cursor, owner (turn shards scan.start k) ≠ none

variable {shards goal : Nat} {owner : Nat → Option Instance} {i j : Instance} {scan : Scan}
  {s : Nat}

section

omit [DecidableEq Instance]

theorem progress_pass (before : Progress shards goal owner i scan)
    (named : owner (turn shards scan.start scan.cursor) ≠ none) :
    Progress shards goal owner i { scan with cursor := scan.cursor + 1 } where
  count := before.count
  named := before.named
  known := before.known
  seen n member := (before.seen n member).imp_right (by grind)
  passed k earlier := by
    obtain earlier | rfl := Nat.lt_succ_iff_lt_or_eq.mp earlier
    · exact before.passed k earlier
    · exact named

/-- The turns of one scan visit different shards, so a shard that is not busy is not owned. -/
theorem turn_fresh (before : Progress shards goal owner i scan) (below : scan.cursor < shards)
    (idle : turn shards scan.start scan.cursor ∉ scan.busy) :
    turn shards scan.start scan.cursor ∉ scan.owned := by
  intro member
  obtain busy | ⟨k, earlier, same⟩ := before.seen _ member
  · exact idle busy
  · have equal : k = scan.cursor :=
      (Nat.ModEq.add_left_cancel' _ same).eq_of_lt_of_lt (earlier.trans below) below
    exact earlier.ne equal

theorem progress_take (before : Progress shards goal owner i scan) (below : scan.cursor < shards)
    (needed : 0 < scan.need) (here : turn shards scan.start scan.cursor = s)
    (idle : s ∉ scan.busy) :
    Progress shards goal (update owner s (some i)) i { scan with
      cursor := scan.cursor + 1, owned := insert s scan.owned, need := scan.need - 1 } := by
  have fresh : s ∉ scan.owned := here ▸ turn_fresh before below (here ▸ idle)
  have inside : s < shards := here ▸ Nat.mod_lt _ (by omega)
  constructor <;> dsimp only
  · have total := before.count
    rw [Finset.card_insert_of_notMem fresh]
    omega
  · intro n member
    have := before.named n
    grind
  · grind [before.known]
  · intro n member
    have := before.seen n
    grind
  · intro k earlier
    have := before.passed k
    grind

/-- Keys that are named keep their names. -/
theorem progress_named {owner' : Nat → Option Instance}
    (before : Progress shards goal owner j scan)
    (kept : ∀ n, owner n ≠ none → owner' n = owner n) : Progress shards goal owner' j scan where
  count := before.count
  named n member := by
    obtain ⟨inside, mine⟩ := before.named n member
    exact ⟨inside, (kept n (by simp [mine])).trans mine⟩
  known n member := (kept n (before.known n member)).trans_ne (before.known n member)
  seen := before.seen
  passed k earlier := (kept _ (before.passed k earlier)).trans_ne (before.passed k earlier)

theorem update_kept (free : owner s = none ∨ owner s = some i) :
    ∀ n, owner n ≠ none → update owner s (some i) n = owner n := by
  intro n known
  by_cases here : n = s
  · subst here
    rw [update_self, free.resolve_left known]
  · exact update_of_ne here _ _

end

theorem progress_step {r next : Round Instance} {met : Turn}
    (taken : scanStep shards r (i, met) = some next)
    (before : Progress shards goal r.owner j (r.scans j)) :
    Progress shards goal next.owner j (next.scans j) := by
  have stopped : Progress shards goal r.owner j
      (update r.scans i { r.scans i with ended := true } j) := by
    by_cases own : j = i
    · subst own
      rw [update_self]
      exact ⟨before.count, before.named, before.known, before.seen, before.passed⟩
    · rwa [update_of_ne own]
  cases met <;> simp only [scanStep] at taken
  case call =>
    split_ifs at taken with enabled free <;> cases taken <;> dsimp only <;> by_cases own : j = i
    · subst own
      rw [update_self]
      exact progress_take before enabled.1 enabled.2.1 rfl free.1
    · rw [update_of_ne own]
      exact progress_named before (update_kept (acquire_shard_iff.mp free.2))
    · subst own
      rw [update_self]
      apply progress_pass before
      intro absent
      apply free
      constructor
      · exact fun busy => before.known _ busy absent
      · exact acquire_shard_iff.mpr (.inl absent)
    · rwa [update_of_ne own]
  case fail applied =>
    split_ifs at taken with enabled busy set <;> cases taken
    · exact progress_named stopped (update_kept (.inl set.2))
    · exact stopped
  case cancel =>
    split_ifs at taken
    cases taken
    exact stopped

/-- No live instance has surplus shards, and the shards in its table have their keys. -/
structure Settled (shards : Nat) (live : List Instance) (f : Fleet Instance) : Prop where
  owned : ∀ i ∈ live, ∀ s st, f.shards i s = some st →
    f.owner s ≠ none ∧ (st.phase = .owned → f.owner s = some i)
  within : ∀ i ∈ live, ((startRound shards live f).scans i).owned.card ≤ target shards live.length

theorem progress_start {live : List Instance} {f : Fleet Instance} (settled : Settled shards live f)
    (alive : i ∈ live) : Progress shards (target shards live.length) f.owner i
      ((startRound shards live f).scans i) := by
  have within := settled.within i alive
  have names := settled.owned i alive
  simp only [startRound, rebalance, place, alive, if_true] at within ⊢
  refine ⟨Nat.add_sub_of_le within, ?_, ?_, ?_, ?_⟩ <;>
    simp only [Finset.mem_filter, Finset.mem_range, Option.any_eq_true, Option.isSome_iff_exists]
  · rintro s ⟨inside, st, entry, owned⟩
    exact ⟨inside, (names s st entry).2 (of_decide_eq_true owned)⟩
  · rintro s ⟨-, st, entry⟩
    exact (names s st entry).1
  · rintro s ⟨inside, st, entry, owned⟩
    exact .inl ⟨inside, st, entry⟩
  · intro k earlier
    cases earlier

theorem le_mul_target {n : Nat} (positive : 0 < n) : shards ≤ n * target shards n := by
  have split := Nat.div_add_mod (shards + n - 1) n
  have below := Nat.mod_lt (shards + n - 1) positive
  unfold target
  omega

theorem exists_turn (start : Nat) (inside : s < shards) :
    ∃ k < shards, turn shards start k = s := by
  refine ⟨(s + (shards - start % shards)) % shards, Nat.mod_lt _ (by omega), ?_⟩
  have below := Nat.mod_lt start (by omega : 0 < shards)
  rw [turn, Nat.add_mod_mod, ← Nat.mod_add_mod]
  rw [show start % shards + (s + (shards - start % shards)) = s + shards by omega]
  simpa using Nat.mod_eq_of_lt inside

/-- Disjoint shares that are as large as all shards together cover them. -/
theorem shares_cover {live : List Instance} {owned : Instance → Finset Nat} {share : Nat}
    (distinct : live.Nodup) (full : ∀ i ∈ live, (owned i).card = share)
    (enough : shards ≤ live.length * share) (inner : ∀ i ∈ live, ∀ n ∈ owned i, n < shards)
    (apart : ∀ i ∈ live, ∀ j ∈ live, ∀ n ∈ owned i, n ∈ owned j → i = j) (inside : s < shards) :
    ∃ i ∈ live, s ∈ owned i := by
  simp only [← List.mem_toFinset] at full inner apart ⊢
  have disjoint : Set.PairwiseDisjoint live.toFinset owned := by
    intro i known j alive differ
    rw [Function.onFun, Finset.disjoint_left]
    exact fun n mine theirs => differ (apart i known j alive n mine theirs)
  have subset : live.toFinset.biUnion owned ⊆ Finset.range shards := by
    intro n member
    obtain ⟨i, alive, mine⟩ := Finset.mem_biUnion.mp member
    exact Finset.mem_range.mpr (inner i alive n mine)
  have size : (Finset.range shards).card ≤ (live.toFinset.biUnion owned).card := by
    rw [Finset.card_range, Finset.card_biUnion disjoint, Finset.sum_congr rfl full,
      Finset.sum_const, List.toFinset_card_of_nodup distinct]
    exact enough
  rw [← Finset.mem_biUnion, Finset.eq_of_subset_of_card_le subset size]
  exact Finset.mem_range.mpr inside

/-- No live instance has more than its share of the shards in a round that started settled.
Every shard has an owner when one live instance is through with all shards or every one of them
has its share, whatever calls of others failed or were cancelled. -/
theorem rebalance_round {live : List Instance} {f : Fleet Instance} {r : Round Instance}
    {labels : List (Instance × Turn)} (distinct : live.Nodup) (inhabited : live ≠ [])
    (settled : Settled shards live f)
    (reached : Machine.run (scanStep shards) (startRound shards live f) labels = some r) :
    (∀ i ∈ live, (r.scans i).owned.card ≤ target shards live.length) ∧
      ((∃ i ∈ live, (r.scans i).cursor = shards) ∨ (∀ i ∈ live, (r.scans i).need = 0) →
        ∀ s < shards, r.owner s ≠ none) := by
  have progress : ∀ i ∈ live,
      Progress shards (target shards live.length) r.owner i (r.scans i) := by
    apply Machine.run_invariant _ _ reached
    · rintro r ⟨i, met⟩ next before taken j alive
      exact progress_step taken (before j alive)
    · exact fun i => progress_start settled
  constructor
  · intro i alive
    have total := (progress i alive).count
    omega
  · rintro (⟨i, alive, whole⟩ | met) s inside
    · obtain ⟨k, below, rfl⟩ := exists_turn (r.scans i).start inside
      exact (progress i alive).passed k (whole.symm ▸ below)
    · -- Every instance has its share, and the shares make up all shards.
      have full : ∀ i ∈ live, (r.scans i).owned.card = target shards live.length := by
        intro i alive
        have total := (progress i alive).count
        rwa [met i alive] at total
      obtain ⟨i, alive, mine⟩ := shares_cover distinct full
        (le_mul_target (List.length_pos_iff.mpr inhabited))
        (fun i alive n mine => ((progress i alive).named n mine).1)
        (fun i known j alive n mine theirs => Option.some.inj
          (((progress i known).named n mine).2.symm.trans ((progress j alive).named n theirs).2))
        inside
      rw [((progress i alive).named s mine).2]
      exact Option.some_ne_none i

/-- The second call of instance 0 fails after it set the key; instance 1 looks at all shards. -/
def interrupted : List (Nat × Turn) :=
  [(0, .call), (0, .fail true), (1, .call), (1, .call), (1, .call)]

theorem rebalance_round_pair :
    ∃ r, Machine.run (scanStep 3) (startRound 3 [0, 1] idleFleet) interrupted = some r ∧
      r.owner 1 = some 0 ∧ ∀ s < 3, r.owner s ≠ none :=
  ⟨_, rfl, rfl, (@rebalance_round Nat _ 3 [0, 1] idleFleet _ interrupted (by decide) (by decide)
    ⟨by simp [idleFleet], by decide⟩ rfl).2 (.inl ⟨1, by decide, by decide⟩)⟩

end Spinneret.Worker
