import Spinneret.Scheduler.AcquireRule

/-!
# The selection loop step by step

One iteration of the selection loop settles one entry of the pool: it leases the
identity, keeps it as a verified candidate, or rejects it. The iteration is
described once, up to the order of the pool and the cached selection keys, and the
loop is reasoned about through this description. Every iteration settles an entry
for good or verifies one, so the loop ends before its fuel does.
-/

namespace Spinneret.Scheduler

open Spinneret.HotState Spinneret.Lib

set_option autoImplicit false

/-! ## The chosen entry -/

theorem roulette_lt {target acc : ℚ} {index : Nat} {weights : List ℚ}
    (some : 0 < index + weights.length) :
    roulette target acc index weights < index + weights.length := by
  induction weights generalizing acc index with
  | nil =>
    simp only [roulette, List.length_nil] at some ⊢
    omega
  | cons weight rest ih =>
    simp only [roulette, List.length_cons]
    split
    · omega
    · have later := @ih (acc + weight) (index + 1) (by omega)
      omega

theorem first_best_lt {Value : Type*} (better : Value → Value → Bool) {values : List Value}
    (nonempty : values ≠ []) : firstBest better values < values.length := by
  cases values with
  | nil => exact absurd rfl nonempty
  | cons first rest =>
    have fold : ∀ (later : List Value) (state : Nat × Value × Nat), state.1 < state.2.2 →
        (later.foldl (fun state value =>
          if better value state.2.1 then (state.2.2, value, state.2.2 + 1)
          else (state.1, state.2.1, state.2.2 + 1)) state).1 < state.2.2 + later.length := by
      intro later
      induction later with
      | nil => exact fun state below => below
      | cons value later ih =>
        intro state below
        rw [List.foldl_cons, List.length_cons]
        split
        · have next := ih (state.2.2, value, state.2.2 + 1) (Nat.lt_succ_self _)
          dsimp only at next
          omega
        · have next := ih (state.1, state.2.1, state.2.2 + 1) (by dsimp only; omega)
          dsimp only at next
          omega
    have within := fold rest (0, first, 1) Nat.one_pos
    dsimp only at within
    simp only [firstBest, List.length_cons]
    omega

theorem first_best_mem {Value : Type*} (better : Value → Value → Bool) (default : Value)
    {values : List Value} (nonempty : values ≠ []) :
    values.getD (firstBest better values) default ∈ values := by
  have within := first_best_lt better nonempty
  rw [List.getD_eq_getElem?_getD, List.getElem?_eq_getElem within]
  exact List.getElem_mem within

theorem round_robin_lt (cursor : Int) {ids : List Hkey} (nonempty : ids ≠ []) :
    roundRobinIndex cursor ids < ids.length := by
  rw [roundRobinIndex, List.idxOf_lt_length_iff]
  split
  · exact first_best_mem _ _ nonempty
  · next first rest above =>
    have member := first_best_mem (fun left right : Hkey => decide (left < right)) 0
      (List.cons_ne_nil first rest)
    rw [← above] at member
    exact (List.mem_filter.mp member).1

variable {pool : Pool} {call : Call}

theorem propose_lt {args : AcquireArgs} {site : Site} {tries ridx j : Nat}
    (accepted : (propose args site tries pool ridx).1 = some j) :
    j < (propose args site tries pool ridx).2.1.entries.length := by
  induction tries generalizing pool ridx with
  | zero => cases accepted
  | succ tries ih =>
    unfold propose at accepted ⊢
    dsimp only at accepted ⊢
    split
    · next missing =>
      rw [missing] at accepted
      cases accepted
    · next entry found =>
      rw [found] at accepted
      dsimp only at accepted
      split
      · next taken =>
        rw [if_pos taken] at accepted
        obtain rfl := Option.some.inj accepted
        rw [Pool.setEntry, List.length_set]
        exact (List.getElem?_eq_some_iff.mp found).1
      · next refused =>
        rw [if_neg refused] at accepted
        exact ih accepted

/-- The chosen index is an entry of the pool, whatever the strategy and the draws. -/
theorem pick_index_lt (args : AcquireArgs) (site : Site) (strategy : Strategy) (ridx : Nat)
    (cursor : Option Int) (nonempty : pool.entries ≠ []) :
    (pickIndex args site strategy pool ridx cursor).index <
      (pickIndex args site strategy pool ridx cursor).pool.entries.length := by
  cases strategy with
  | weightedRandom =>
    simp only [pickIndex]
    split
    · next j proposed drawn same =>
      split_ifs at same with exact
      · cases same
      · have within := @propose_lt pool args site 8 ridx j (by rw [same])
        rw [same] at within
        exact within
    · next proposed drawn same =>
      have kept : proposed.entries.map PoolEntry.held = pool.entries.map PoolEntry.held := by
        split_ifs at same with exact
        · cases same
          rfl
        · have before := propose_same args site 8 pool ridx
          rw [same] at before
          exact before
      have length := congrArg List.length kept
      simp only [List.length_map] at length
      have positive := List.length_pos_iff.mpr nonempty
      have bound := @roulette_lt
        (rnd args.randoms (drawn + 1) * ((proposed.entries.map (PoolEntry.weighed args site)).map
          (PoolEntry.weight args site)).sum) 0 0
        ((proposed.entries.map (PoolEntry.weighed args site)).map (PoolEntry.weight args site))
        (by simp only [List.length_map]; omega)
      simpa using bound
  | roundRobin =>
    have bound := round_robin_lt (cursor.getD (site.rr args.eg))
      (show pool.entries.map PoolEntry.i ≠ [] by simpa using nonempty)
    simpa [pickIndex] using bound
  | leastRecentlyUsed =>
    have bound := first_best_lt (fun left right : Int => decide (left < right))
      (show (pool.entries.map fun entry => hsLastUsed (site.hs args.eg entry.i)) ≠ [] by
        simpa using nonempty)
    simpa [pickIndex] using bound
  | bestHealth =>
    have bound := first_best_lt (fun left right : ℚ => decide (right < left))
      (show (pool.entries.map fun entry => hsScore args (site.hs args.eg entry.i)) ≠ [] by
        simpa using nonempty)
    simpa [pickIndex] using bound

/-! ## One iteration -/

abbrev Pooled := List (Hkey × Option Candidate)

abbrev Judged := List (Hkey × Verdict)

/-- The identity an iteration evaluates; a cached candidate is not evaluated again. -/
def stepJudges (args : AcquireArgs) (mode : Mode) (call : Call) (pool : Pool) : Judged :=
  let choice := pickIndex args call.site mode.strategy pool call.ridx call.cursor
  match choice.pool.entries[choice.index]? with
  | none => []
  | some entry =>
    match entry.c with
    | some _ => []
    | none => [(entry.i, evaluate args call.site entry.i false)]

/-- What an iteration does with the chosen identity, whose candidate may be cached,
and what it leaves of the pool. -/
inductive Moved (args : AcquireArgs) (mode : Mode) (call : Call) (i : Hkey) (rest : Pooled) :
    Option Candidate → Judged → Call → Pooled → Prop where
  | known {c : Candidate} :
      Moved args mode call i rest (some c) [] (leaseChosen args mode call c) rest
  | fresh {c : Candidate} (passed : evaluate args call.site i false = .ok c) :
      Moved args mode call i rest none [(i, .ok c)] (leaseChosen args mode call c) rest
  | spared {c : Candidate} (passed : evaluate args call.site i false = .ok c) :
      Moved args mode call i rest none [(i, .ok c)] call ((i, some c) :: rest)
  | rejected {verdict : Verdict} (judged : evaluate args call.site i false = verdict)
      (refused : ∀ c, verdict ≠ .ok c) :
      Moved args mode call i rest none [(i, verdict)]
        { call with site := rejectCandidate args call.site i verdict } rest

theorem set_held {j : Nat} {entry other : PoolEntry} (found : pool.entries[j]? = some entry) :
    ((pool.setEntry j other).entries.map PoolEntry.held).Perm
      (other.held :: (pool.remove j).entries.map PoolEntry.held) := by
  obtain ⟨inside, rfl⟩ := List.getElem?_eq_some_iff.mp found
  have set := (List.set_perm_cons_eraseIdx inside other).map PoolEntry.held
  have whole := (remove_perm found).trans (List.getElem_cons_eraseIdx_perm inside).symm
  exact set.trans ((whole.cons_inv.map PoolEntry.held).symm.cons _)

theorem remove_set {j : Nat} {entry other : PoolEntry} (found : pool.entries[j]? = some entry) :
    (((pool.setEntry j other).remove j).entries.map PoolEntry.held).Perm
      ((pool.remove j).entries.map PoolEntry.held) := by
  have here : (pool.setEntry j other).entries[j]? = some other :=
    List.getElem?_set_self (List.getElem?_eq_some_iff.mp found).1
  have whole := (remove_perm here).map PoolEntry.held
  exact (whole.trans (set_held found)).cons_inv

/-- An iteration on a pool that is not empty settles one of its entries. -/
theorem pool_step_moved (args : AcquireArgs) (mode : Mode) (call : Call)
    (nonempty : pool.entries ≠ []) :
    ∃ i cached rest after ridx cursor,
      ((i, cached) :: rest).Perm (pool.entries.map PoolEntry.held) ∧
      after.Perm ((poolStep args mode call pool).2.entries.map PoolEntry.held) ∧
      Moved args mode { call with ridx := ridx, cursor := cursor } i rest cached
        (stepJudges args mode call pool) (poolStep args mode call pool).1 after := by
  have within := pick_index_lt args call.site mode.strategy call.ridx call.cursor nonempty
  have same := pick_index_same args call.site mode.strategy pool call.ridx call.cursor
  unfold poolStep stepJudges
  generalize pickIndex args call.site mode.strategy pool call.ridx call.cursor = choice
    at within same
  dsimp only
  have found := List.getElem?_eq_getElem within
  generalize choice.pool.entries[choice.index] = entry at found
  have chosen : ((entry.i, entry.c) :: (choice.pool.remove choice.index).entries.map
      PoolEntry.held).Perm (pool.entries.map PoolEntry.held) := by
    rw [← same]
    exact (remove_perm found).map PoolEntry.held
  rw [found]
  dsimp only
  cases cached : entry.c with
  | some c =>
    rw [cached] at chosen
    exact ⟨_, _, _, _, _, _, chosen, .refl _, .known⟩
  | none =>
    rw [cached] at chosen
    dsimp only
    split
    · next c passed =>
      rw [passed]
      split
      · split
        · exact ⟨_, _, _, _, _, _, chosen, (remove_set found).symm, .fresh passed⟩
        · exact ⟨_, _, _, _, _, _, chosen, (set_held found).symm, .spared passed⟩
      · exact ⟨_, _, _, _, _, _, chosen, .refl _, .fresh passed⟩
    · next refused =>
      exact ⟨_, _, _, _, choice.ridx, choice.cursor, chosen, .refl _, .rejected rfl refused⟩

/-! ## Rejected identities -/

section Rejects

variable {args : AcquireArgs} {site : Site} {i : Hkey}

theorem mark_pushed_rdy (site : Site) (eg i : Hkey) : (markPushed site eg i).rdy = site.rdy := by
  unfold markPushed
  split
  · rfl
  · split
    · rfl
    · rfl
    · split <;> rfl

theorem reject_lookup (verdict : Verdict) (j : Hkey) :
    ((rejectCandidate args site i verdict).rdy args.eg).lookup j =
      match verdict with
      | .ok _ => (site.rdy args.eg).lookup j
      | .rem => if j = i then none else (site.rdy args.eg).lookup j
      | .push score _ =>
        if j = i then ((site.rdy args.eg).lookup i).map fun _ => score
        else (site.rdy args.eg).lookup j := by
  cases verdict with
  | ok c => rfl
  | rem =>
    simp only [rejectCandidate, set_rdy_self]
    split_ifs with same
    · rw [same, AList.lookup_erase]
    · exact AList.lookup_erase_ne same
  | push score mark =>
    have moved : (rejectCandidate args site i (.push score mark)).rdy args.eg =
        (site.rdy args.eg).move score i := by
      unfold rejectCandidate
      dsimp only
      split
      · rw [mark_pushed_rdy, set_rdy_self]
      · rw [set_rdy_self]
    rw [moved]
    exact ZSet.lookup_move ..

theorem reject_other {verdict : Verdict} {j : Hkey} (other : j ≠ i) :
    ((rejectCandidate args site i verdict).rdy args.eg).lookup j =
      (site.rdy args.eg).lookup j := by
  rw [reject_lookup]
  cases verdict with
  | ok c => rfl
  | rem => exact if_neg other
  | push score mark => exact if_neg other

end Rejects

/-! ## The loop -/

/-- A property of the identities evaluated so far, the call and the pool that every
iteration keeps. -/
structure LoopRule (args : AcquireArgs) (mode : Mode) (Keeps : Judged → Call → Pooled → Prop) :
    Prop where
  draw : ∀ {past call held} (ridx : Nat) (cursor : Option Int), Keeps past call held →
    Keeps past { call with ridx := ridx, cursor := cursor } held
  order : ∀ {past call held other}, held.Perm other → Keeps past call held → Keeps past call other
  step : ∀ {past call next i cached judged rest after}, call.picked < mode.count →
    call.proxyFail < 3 → Keeps past call ((i, cached) :: rest) →
    Moved args mode call i rest cached judged next after → Keeps (past ++ judged) next after

def loopJudges (args : AcquireArgs) (mode : Mode) : Nat → Call → Pool → Judged
  | 0, _, _ => []
  | fuel + 1, call, pool =>
    if call.picked < mode.count ∧ pool.entries ≠ [] ∧ call.proxyFail < 3 then
      let next := poolStep args mode call pool
      stepJudges args mode call pool ++ loopJudges args mode fuel next.1 next.2
    else []

/-- Iterations an entry can still cause: one when its candidate is cached, else two. -/
def pending (held : Pooled) : Nat :=
  (held.map fun entry => if entry.2.isSome then 1 else 2).sum

theorem pending_perm {held other : Pooled} (same : held.Perm other) :
    pending held = pending other :=
  (same.map _).sum_eq

theorem Moved.pending_lt {args : AcquireArgs} {mode : Mode} {call next : Call} {i : Hkey}
    {cached : Option Candidate} {judged : Judged} {rest after : Pooled}
    (moved : Moved args mode call i rest cached judged next after) :
    pending after < pending ((i, cached) :: rest) := by
  cases moved with
  | known => simp [pending]
  | fresh => simp [pending]
  | spared => simp [pending]
  | rejected => simp [pending]

theorem loop_moves {args : AcquireArgs} {mode : Mode} {Keeps : Judged → Call → Pooled → Prop}
    {past : Judged} (rule : LoopRule args mode Keeps)
    (goesOn : call.picked < mode.count ∧ pool.entries ≠ [] ∧ call.proxyFail < 3)
    (start : Keeps past call (pool.entries.map PoolEntry.held)) :
    Keeps (past ++ stepJudges args mode call pool) (poolStep args mode call pool).1
      ((poolStep args mode call pool).2.entries.map PoolEntry.held) := by
  obtain ⟨i, cached, rest, after, ridx, cursor, chosen, left, moved⟩ :=
    pool_step_moved args mode call goesOn.2.1
  have drawn := rule.draw ridx cursor (rule.order chosen.symm start)
  have settled := @rule.step _ { call with ridx := ridx, cursor := cursor } _ _ _ _ _ _
    goesOn.1 goesOn.2.2 drawn moved
  exact rule.order left settled

theorem pool_step_pending {args : AcquireArgs} {mode : Mode} (nonempty : pool.entries ≠ []) :
    pending ((poolStep args mode call pool).2.entries.map PoolEntry.held) <
      pending (pool.entries.map PoolEntry.held) := by
  obtain ⟨i, cached, rest, after, ridx, cursor, chosen, left, moved⟩ :=
    pool_step_moved args mode call nonempty
  have fewer := moved.pending_lt
  rwa [pending_perm chosen, pending_perm left] at fewer

theorem pending_pos (nonempty : pool.entries ≠ []) :
    0 < pending (pool.entries.map PoolEntry.held) := by
  cases entries : pool.entries with
  | nil => exact absurd entries nonempty
  | cons entry rest =>
    simp only [pending, List.map_cons, List.sum_cons]
    split <;> omega

/-- The loop keeps what its iterations keep, and with fuel for every entry it ends
because it has leased enough, the pool is empty or too many proxies were missing. -/
theorem pool_loop_keeps {args : AcquireArgs} {mode : Mode} {Keeps : Judged → Call → Pooled → Prop}
    (rule : LoopRule args mode Keeps) {fuel : Nat} {past : Judged}
    (enough : pending (pool.entries.map PoolEntry.held) ≤ fuel)
    (start : Keeps past call (pool.entries.map PoolEntry.held)) :
    ∃ held, Keeps (past ++ loopJudges args mode fuel call pool)
        (poolLoop args mode fuel call pool) held ∧
      (mode.count ≤ (poolLoop args mode fuel call pool).picked ∨ held = [] ∨
        3 ≤ (poolLoop args mode fuel call pool).proxyFail) := by
  induction fuel generalizing past call pool with
  | zero =>
    refine ⟨_, by rw [loopJudges, List.append_nil]; exact start, Or.inr (Or.inl ?_)⟩
    by_contra nonempty
    have some := pending_pos (show pool.entries ≠ [] by simpa using nonempty)
    omega
  | succ fuel ih =>
    unfold poolLoop loopJudges
    split
    · next goesOn =>
      have fewer := @pool_step_pending pool call args mode goesOn.2.1
      dsimp only
      rw [← List.append_assoc]
      exact ih (by omega) (loop_moves rule goesOn start)
    · next stops =>
      refine ⟨_, by simpa only [List.append_nil] using start, ?_⟩
      by_cases full : mode.count ≤ call.picked
      · exact Or.inl full
      · by_cases empty : pool.entries = []
        · exact Or.inr (Or.inl (by rw [empty]; rfl))
        · refine Or.inr (Or.inr (Nat.le_of_not_lt fun room => ?_))
          exact stops ⟨Nat.lt_of_not_le full, empty, room⟩

/-- More fuel than a round has does not change its outcome: the loop has ended. -/
theorem pool_loop_ends {args : AcquireArgs} {mode : Mode} {fuel : Nat}
    (enough : pending (pool.entries.map PoolEntry.held) ≤ fuel) (more : Nat) :
    poolLoop args mode (fuel + more) call pool = poolLoop args mode fuel call pool := by
  induction fuel generalizing call pool with
  | zero =>
    have empty : pool.entries = [] := by
      by_contra nonempty
      have some := pending_pos nonempty
      omega
    cases more with
    | zero => rfl
    | succ more => simp [poolLoop, empty]
  | succ fuel ih =>
    rw [Nat.add_right_comm]
    simp only [poolLoop]
    split
    · next goesOn =>
      have fewer := @pool_step_pending pool call args mode goesOn.2.1
      exact ih (by omega)
    · rfl

theorem pending_new_pool (ids : List Hkey) (limit : Nat) (skip : List Hkey) :
    pending ((newPool ids limit skip).entries.map PoolEntry.held) =
      2 * (newPool ids limit skip).entries.length := by
  simp only [pending, newPool, List.map_map, List.length_map]
  generalize (ids.filter fun i => !skip.contains i).take limit = taken
  induction taken with
  | nil => rfl
  | cons i rest ih =>
    simp only [List.map_cons, List.sum_cons, List.length_cons, ih]
    simp only [Function.comp_apply, PoolEntry.held, Option.isSome_none]
    simp only [Bool.false_eq_true, if_false]
    omega

/-! ## The call -/

/-- A property of the call between the rounds and one inside the loop: a round starts
with distinct identities and no candidate, and what its loop keeps holds after it. -/
structure CallRule (args : AcquireArgs) (mode : Mode) (Keeps : Call → Prop)
    (Inside : Judged → Call → Pooled → Prop) : Prop where
  loop : LoopRule args mode Inside
  enter : ∀ {call} {ids : List Hkey} (want : Nat), ids.Nodup → Keeps call →
    Inside [] call ((newPool ids want call.skip).entries.map PoolEntry.held)
  leave : ∀ {past call held}, Inside past call held → Keeps call

section Calls

variable {args : AcquireArgs} {mode : Mode} {Keeps : Call → Prop}
  {Inside : Judged → Call → Pooled → Prop}

theorem sampling_rounds_keeps (rule : CallRule args mode Keeps Inside) (rounds : Nat)
    (before : Keeps call) : Keeps (samplingRounds args mode rounds call) := by
  induction rounds generalizing call with
  | zero => exact before
  | succ rounds ih =>
    unfold samplingRounds
    dsimp only
    split
    · exact before
    · have sampled (ids : List Hkey) (want : Nat) (nodup : ids.Nodup) :
          Keeps (poolLoop args mode (2 * (newPool ids want call.skip).entries.length) call
            (newPool ids want call.skip)) := by
        obtain ⟨held, kept, -⟩ := pool_loop_keeps rule.loop
          (pending_new_pool ids want call.skip).le (rule.enter want nodup before)
        exact rule.leave kept
      split
      · exact sampled _ _ (ZSet.range_nodup hkeyLe _ _ _ _)
      · exact ih (sampled _ _ (ZSet.range_nodup hkeyLe _ _ _ _))

/-- The leases of a call: what the sticky identity and the rounds keep. -/
theorem issue_keeps (rule : CallRule args mode Keeps Inside) {site : Site}
    (start : Keeps { site := site })
    (sticky : ∀ i c, mode.sticky = true → site.stk args.eg args.session = some i →
      evaluate args site i true = .ok c →
      Keeps (takeCandidate args mode { site := site } c true)) :
    Keeps (issue args mode site) := by
  have reused : Keeps (stickyReuse args mode { site := site }) := by
    unfold stickyReuse
    split
    · next wanted =>
      split
      · exact start
      · next si bound =>
        split
        · split
          · next c passed => exact sticky si c wanted bound passed
          · exact start
        · exact start
    · exact start
  unfold issue
  dsimp only
  split
  · exact sampling_rounds_keeps rule 3 reused
  · exact reused

end Calls

end Spinneret.Scheduler
