import Spinneret.Scheduler.AcquireSound

/-!
# When a call is exhausted

The identities a call evaluates, round by round. An identity that is rejected leaves
the due range of its group, so a later round samples others. Without proxies a
candidate that passes is leased before its round ends. A call that leases nothing has
therefore rejected everything it evaluated, and it has evaluated three full rounds or
everything that was due.
-/

namespace Spinneret.Scheduler

open Spinneret.HotState Spinneret.Lib

set_option autoImplicit false

/-! ## Evaluated identities -/

/-- The identities the sampling rounds evaluate, round by round. -/
def roundJudges (args : AcquireArgs) (mode : Mode) : Nat → Call → List Judged
  | 0, _ => []
  | rounds + 1, call =>
    let want := max args.ksample (mode.count - call.picked)
    let lim := want + call.skip.length
    let ids := ZSet.rangeUpTo hkeyLe (call.site.rdy args.eg) args.now 0 lim
    if ids = [] then []
    else
      let pool := newPool ids want call.skip
      let judged := loopJudges args mode (2 * pool.entries.length) call pool
      let after := poolLoop args mode (2 * pool.entries.length) call pool
      if mode.count ≤ after.picked ∨ 3 ≤ after.proxyFail ∨ ids.length < lim then [judged]
      else judged :: roundJudges args mode rounds after

/-- The identity of the sticky session, when it is evaluated. -/
def stickyJudges (args : AcquireArgs) (mode : Mode) (site : Site) : Judged :=
  if mode.sticky then
    match site.stk args.eg args.session with
    | none => []
    | some si =>
      if ((site.rdy args.eg).lookup si).isSome then [(si, evaluate args site si true)] else []
  else []

def callRounds (args : AcquireArgs) (mode : Mode) (site : Site) : List Judged :=
  let reused := stickyReuse args mode { site := site }
  if reused.picked < mode.count then roundJudges args mode 3 reused else []

def Verdict.Refused (verdict : Verdict) : Prop := ∀ c, verdict ≠ .ok c

/-- The identity is not in the due range of the call's group. -/
def Gone (args : AcquireArgs) (site : Site) (i : Hkey) : Prop :=
  ∀ score, (site.rdy args.eg).lookup i = some score → args.now < score

variable {c : Candidate} {call : Call} {rest : Pooled} {judged : Judged}

section Verdicts

variable {args : AcquireArgs} {site : Site} {i : Hkey}

theorem bind_check_later {score : Int} (lasting : 0 < args.ttl)
    (waits : bindCheck args site c = .inl score) : args.now < score := by
  have short : args.now < args.shortPush := by
    unfold AcquireArgs.shortPush
    omega
  have long : args.now < args.now + longPush := by
    unfold longPush
    omega
  unfold bindCheck at waits
  split at waits
  · cases waits
  · dsimp only at waits
    split at waits
    · split_ifs at waits <;> cases waits <;> exact long
    · split_ifs at waits with active cool full near
      all_goals cases waits
      · exact short
      · exact not_le.mp cool
      all_goals exact long

/-- A push goes beyond the time of the call. -/
theorem evaluate_push_later {sticky mark : Bool} {score : Int} (lasting : 0 < args.ttl)
    (pushed : evaluate args site i sticky = .push score mark) : args.now < score := by
  unfold evaluate at pushed
  split at pushed
  · cases pushed
  · split at pushed
    · dsimp only at pushed
      split at pushed
      · next later =>
        cases pushed
        exact later
      · unfold admitCandidate at pushed
        split at pushed
        · cases pushed
          unfold AcquireArgs.shortPush
          omega
        · split at pushed
          · next time asked =>
            cases pushed
            obtain ⟨quota, -, window⟩ := quota_push_attained asked
            exact (window_push_refuses window).1
          · split at pushed
            · split at pushed
              · next time waits =>
                cases pushed
                exact bind_check_later lasting waits
              · cases pushed
            · cases pushed
    · cases pushed

theorem reject_gone {verdict : Verdict} (lasting : 0 < args.ttl)
    (judged : evaluate args site i false = verdict) (refused : verdict.Refused) :
    Gone args (rejectCandidate args site i verdict) i := by
  intro score stored
  rw [reject_lookup] at stored
  cases verdict with
  | ok c => exact absurd rfl (refused c)
  | rem => simp at stored
  | push time mark =>
    simp only [if_true, Option.map_eq_some_iff] at stored
    obtain ⟨-, -, rfl⟩ := stored
    exact evaluate_push_later lasting judged

end Verdicts

/-! ## Leases without proxies -/

theorem lease_chosen_plain {args : AcquireArgs} (plain : args.pmode = .none) (mode : Mode)
    (call : Call) (c : Candidate) :
    (leaseChosen args mode call c).proxyFail = call.proxyFail ∧
      (leaseChosen args mode call c).picked = call.picked + 1 ∧
      ∀ j, j ≠ c.i → ((leaseChosen args mode call c).site.rdy args.eg).lookup j =
        (call.site.rdy args.eg).lookup j := by
  have taken : takeCandidate args mode call c false =
      Call.lease args mode { call with skip := c.i :: call.skip } c none false := by
    unfold takeCandidate assignProxy
    simp only [plain]
  have scored (j : Hkey) (other : j ≠ c.i) :
      ((takeCandidate args mode call c false).site.rdy args.eg).lookup j =
        (call.site.rdy args.eg).lookup j := by
    rw [taken]
    simp only [Call.lease]
    rw [write_lease_rdy, set_rdy_self, ZSet.lookup_move, if_neg other]
  unfold leaseChosen
  dsimp only
  split
  · exact ⟨by rw [taken]; rfl, by rw [taken]; rfl, scored⟩
  · exact ⟨by rw [taken]; rfl, by rw [taken]; rfl, scored⟩

/-! ## One round -/

def unseen (held : Pooled) : List Hkey :=
  (held.filter fun entry => entry.2.isNone).map Prod.fst

/-- What a round keeps. The sampled identities `ids` are evaluated or still unseen, rejected
ones are gone for good, and while nothing is leased passed candidates wait in the pool
and other identities have the score they had at the start. -/
structure Sampled (args : AcquireArgs) (start : Site) (past : Judged) (ids : List Hkey)
    (base : Nat) (judged : Judged) (call : Call) (held : Pooled) : Prop where
  proxied : call.proxyFail = 0
  grown : base ≤ call.picked
  nodup : (held.map Prod.fst).Nodup
  cached : ∀ i c, (i, some c) ∈ held → c.i = i
  split : (judged.map Prod.fst ++ unseen held).Perm ids
  gone : ∀ i verdict, (i, verdict) ∈ past ++ judged → verdict.Refused →
    Gone args call.site i ∧ i ∉ held.map Prod.fst
  untaken : call.picked = 0 → call.skip = []
  waiting : call.picked = 0 → ∀ i c, (i, Verdict.ok c) ∈ past ++ judged → (i, some c) ∈ held
  unmoved : call.picked = 0 → ∀ i, i ∉ (past ++ judged).map Prod.fst →
    (call.site.rdy args.eg).lookup i = (start.rdy args.eg).lookup i

section Round

variable {args : AcquireArgs} {mode : Mode} {start : Site} {past : Judged} {ids : List Hkey}
  {base : Nat}

theorem Gone.same {before after : Site} {i : Hkey} (gone : Gone args before i)
    (same : (after.rdy args.eg).lookup i = (before.rdy args.eg).lookup i) : Gone args after i := by
  intro score stored
  exact gone score (same ▸ stored)

theorem Sampled.lease {judged added : Judged} {i : Hkey} {cached : Option Candidate}
    (plain : args.pmode = .none)
    (before : Sampled args start past ids base judged call ((i, cached) :: rest)) (same : c.i = i)
    (seen : added.map Prod.fst ++ unseen rest = unseen ((i, cached) :: rest))
    (passed : ∀ entry ∈ added, ∃ c, entry.2 = Verdict.ok c) :
    Sampled args start past ids base (judged ++ added) (leaseChosen args mode call c) rest := by
  obtain ⟨fails, picked, scored⟩ := lease_chosen_plain plain mode call c
  obtain ⟨first, later⟩ := List.nodup_cons.mp before.nodup
  have leased : (leaseChosen args mode call c).picked ≠ 0 := by omega
  refine ⟨fails.trans before.proxied, before.grown.trans (by omega), later, ?_, ?_, ?_,
    fun idle => absurd idle leased, fun idle => absurd idle leased, fun idle => absurd idle leased⟩
  · exact fun j d member => before.cached j d (List.mem_cons_of_mem _ member)
  · rw [List.map_append, List.append_assoc, seen]
    exact before.split
  · intro j verdict member refused
    rw [← List.append_assoc] at member
    rcases List.mem_append.mp member with old | new
    · obtain ⟨gone, apart⟩ := before.gone j verdict old refused
      have other : j ≠ i := fun here => apart (here ▸ List.mem_cons_self)
      exact ⟨gone.same (scored j (same ▸ other)), fun member => apart (List.mem_cons_of_mem _ member)⟩
    · obtain ⟨d, ok⟩ := passed _ new
      exact absurd ok (refused d)

theorem mem_rest {i : Hkey}
    (before : Sampled args start past ids base judged call ((i, none) :: rest))
    (idle : call.picked = 0) {j : Hkey} (passed : (j, Verdict.ok c) ∈ past ++ judged) :
    (j, some c) ∈ rest := by
  rcases List.mem_cons.mp (before.waiting idle j c passed) with head | member
  · cases head
  · exact member

theorem Sampled.spare {i : Hkey}
    (before : Sampled args start past ids base judged call ((i, none) :: rest)) (same : c.i = i) :
    Sampled args start past ids base (judged ++ [(i, .ok c)]) call ((i, some c) :: rest) := by
  refine ⟨before.proxied, before.grown, before.nodup, ?_, ?_, ?_, before.untaken, ?_, ?_⟩
  · intro j d member
    rcases List.mem_cons.mp member with head | old
    · cases head
      exact same
    · exact before.cached j d (List.mem_cons_of_mem _ old)
  · rw [List.map_append, List.append_assoc]
    exact before.split
  · intro j verdict member refused
    rw [← List.append_assoc] at member
    rcases List.mem_append.mp member with old | new
    · exact before.gone j verdict old refused
    · obtain ⟨-, ok⟩ := Prod.mk.inj (List.mem_singleton.mp new)
      exact absurd ok (refused c)
  · intro idle j d member
    rw [← List.append_assoc] at member
    rcases List.mem_append.mp member with old | new
    · exact List.mem_cons_of_mem _ (mem_rest before idle old)
    · obtain ⟨rfl, ok⟩ := Prod.mk.inj (List.mem_singleton.mp new)
      cases ok
      exact List.mem_cons_self
  · intro idle j unlisted
    refine before.unmoved idle j fun listed => unlisted ?_
    rw [← List.append_assoc, List.map_append]
    exact List.mem_append_left _ listed

theorem Sampled.reject {i : Hkey} {verdict : Verdict} (lasting : 0 < args.ttl)
    (before : Sampled args start past ids base judged call ((i, none) :: rest))
    (found : evaluate args call.site i false = verdict) (refused : verdict.Refused) :
    Sampled args start past ids base (judged ++ [(i, verdict)])
      { call with site := rejectCandidate args call.site i verdict } rest := by
  obtain ⟨first, later⟩ := List.nodup_cons.mp before.nodup
  refine ⟨before.proxied, before.grown, later, ?_, ?_, ?_, before.untaken, ?_, ?_⟩
  · exact fun j d member => before.cached j d (List.mem_cons_of_mem _ member)
  · rw [List.map_append, List.append_assoc]
    exact before.split
  · intro j other member rejected
    rw [← List.append_assoc] at member
    rcases List.mem_append.mp member with old | new
    · obtain ⟨gone, apart⟩ := before.gone j other old rejected
      have distinct : j ≠ i := fun here => apart (here ▸ List.mem_cons_self)
      exact ⟨gone.same (reject_other distinct), fun listed => apart (List.mem_cons_of_mem _ listed)⟩
    · obtain ⟨rfl, rfl⟩ := Prod.mk.inj (List.mem_singleton.mp new)
      exact ⟨reject_gone lasting found refused, first⟩
  · intro idle j d member
    rw [← List.append_assoc] at member
    rcases List.mem_append.mp member with old | new
    · exact mem_rest before idle old
    · obtain ⟨-, ok⟩ := Prod.mk.inj (List.mem_singleton.mp new)
      exact absurd ok.symm (refused d)
  · intro idle j unlisted
    rw [← List.append_assoc, List.map_append] at unlisted
    have distinct : j ≠ i := fun here =>
      unlisted (List.mem_append_right _ (here ▸ List.mem_singleton_self _))
    refine (reject_other distinct).trans (before.unmoved idle j fun listed => unlisted ?_)
    exact List.mem_append_left _ listed

theorem sampled_rule (plain : args.pmode = .none) (lasting : 0 < args.ttl) :
    LoopRule args mode (Sampled args start past ids base) where
  draw ridx cursor before :=
    ⟨before.proxied, before.grown, before.nodup, before.cached, before.split, before.gone,
      before.untaken, before.waiting, before.unmoved⟩
  order same before := by
    refine ⟨before.proxied, before.grown, (same.map Prod.fst).nodup_iff.mp before.nodup, ?_, ?_, ?_,
      before.untaken, ?_, before.unmoved⟩
    · exact fun i c member => before.cached i c (same.mem_iff.mpr member)
    · refine List.Perm.trans ?_ before.split
      exact ((same.symm.filter _).map _).append_left _
    · intro i verdict member refused
      obtain ⟨gone, apart⟩ := before.gone i verdict member refused
      exact ⟨gone, fun listed => apart ((same.map Prod.fst).mem_iff.mpr listed)⟩
    · exact fun idle i c member => same.mem_iff.mp (before.waiting idle i c member)
  step := by
    intro judged call next i cached added rest after _ _ before moved
    cases moved with
    | known =>
      refine before.lease plain (before.cached _ _ List.mem_cons_self) rfl fun entry member => ?_
      exact absurd member List.not_mem_nil
    | fresh passed =>
      refine before.lease plain (evaluate_fits 0 passed).1 rfl fun entry member => ?_
      rw [List.mem_singleton.mp member]
      exact ⟨_, rfl⟩
    | spared passed => exact before.spare (evaluate_fits 0 passed).1
    | rejected found refused => exact before.reject lasting found refused

/-! ## The rounds -/

/-- What holds between two rounds. -/
structure Between (args : AcquireArgs) (start : Site) (past : Judged) (call : Call) : Prop where
  proxied : call.proxyFail = 0
  gone : ∀ i verdict, (i, verdict) ∈ past → verdict.Refused → Gone args call.site i
  untaken : call.picked = 0 → call.skip = []
  refused : call.picked = 0 → ∀ i c, (i, Verdict.ok c) ∉ past
  unmoved : call.picked = 0 → ∀ i, i ∉ past.map Prod.fst →
    (call.site.rdy args.eg).lookup i = (start.rdy args.eg).lookup i

theorem Between.sampled {sampled : List Hkey} {limit lim : Nat}
    (between : Between args start past call)
    (due : sampled = ZSet.rangeUpTo hkeyLe (call.site.rdy args.eg) args.now 0 lim) :
    Sampled args start past (((sampled.filter fun i => !call.skip.contains i).take limit))
      call.picked [] call ((newPool sampled limit call.skip).entries.map PoolEntry.held) := by
  have fresh : (newPool sampled limit call.skip).entries.map PoolEntry.held =
      ((sampled.filter fun i => !call.skip.contains i).take limit).map fun i => (i, none) := by
    simp only [newPool, List.map_map]
    rfl
  have plainIds : ∀ list : List Hkey,
      (list.map fun i => (i, (none : Option Candidate))).map Prod.fst = list := by
    intro list
    rw [List.map_map]
    exact List.map_id list
  rw [fresh]
  refine ⟨between.proxied, le_rfl, ?_, ?_, ?_, ?_, between.untaken, ?_, ?_⟩
  · rw [plainIds, due]
    exact (ZSet.range_nodup hkeyLe _ _ _ _).sublist
      ((List.take_sublist _ _).trans List.filter_sublist)
  · intro i c member
    obtain ⟨j, -, same⟩ := List.mem_map.mp member
    cases same
  · have all : ∀ entry ∈ ((sampled.filter fun i => !call.skip.contains i).take limit).map
        fun i => (i, (none : Option Candidate)), entry.2.isNone = true := by
      intro entry member
      obtain ⟨i, -, rfl⟩ := List.mem_map.mp member
      rfl
    rw [List.map_nil, List.nil_append, unseen, List.filter_eq_self.mpr all, plainIds]
  · intro i verdict member refused
    rw [List.append_nil] at member
    have gone := between.gone i verdict member refused
    refine ⟨gone, fun listed => ?_⟩
    rw [plainIds, due] at listed
    obtain ⟨score, stored, reached⟩ := ZSet.mem_range
      (List.mem_filter.mp ((List.take_sublist _ _).subset listed)).1
    exact absurd (gone score stored) (not_lt.mpr reached)
  · intro idle i c member
    rw [List.append_nil] at member
    exact absurd member (between.refused idle i c)
  · intro idle i unlisted
    rw [List.append_nil] at unlisted
    exact between.unmoved idle i unlisted

/-- A round that ends with nothing leased has rejected every identity of its pool. -/
theorem Sampled.ended {held : Pooled} (sampled : Sampled args start past ids base judged call held)
    (ends : mode.count ≤ call.picked ∨ held = [] ∨ 3 ≤ call.proxyFail) (asked : 0 < mode.count) :
    Between args start (past ++ judged) call ∧
      (call.picked = 0 → base = 0 ∧ (judged.map Prod.fst).Perm ids) := by
  have empty (idle : call.picked = 0) : held = [] := by
    have proxied := sampled.proxied
    rcases ends with enough | empty | failed
    · omega
    · exact empty
    · omega
  refine ⟨⟨sampled.proxied, fun i verdict member refused =>
    (sampled.gone i verdict member refused).1, sampled.untaken, ?_, sampled.unmoved⟩, ?_⟩
  · intro idle i c member
    have waits := sampled.waiting idle i c member
    rw [empty idle] at waits
    cases waits
  · intro idle
    have split := sampled.split
    rw [empty idle] at split
    refine ⟨Nat.eq_zero_of_le_zero (idle ▸ sampled.grown), ?_⟩
    simpa [unseen] using split

/-- Every identity that was due at the start has been evaluated. -/
def Covered (args : AcquireArgs) (start : Site) (past : Judged) : Prop :=
  ∀ i score, (start.rdy args.eg).lookup i = some score → score ≤ args.now →
    i ∈ past.map Prod.fst

theorem sampling_rounds_honest (plain : args.pmode = .none) (lasting : 0 < args.ttl)
    (asked : 0 < mode.count) (rounds : Nat) (between : Between args start past call) :
    Between args start (past ++ (roundJudges args mode rounds call).flatten)
        (samplingRounds args mode rounds call) ∧
      call.picked ≤ (samplingRounds args mode rounds call).picked ∧
      ((samplingRounds args mode rounds call).picked = 0 →
        ((roundJudges args mode rounds call).length = rounds ∧
          ∀ round ∈ roundJudges args mode rounds call, (round.map Prod.fst).Nodup ∧
            round.length = max args.ksample mode.count) ∨
        Covered args start (past ++ (roundJudges args mode rounds call).flatten)) := by
  induction rounds generalizing past call with
  | zero =>
    refine ⟨by simpa [roundJudges, samplingRounds] using between, le_rfl,
      fun _ => Or.inl ⟨rfl, ?_⟩⟩
    exact fun round member => absurd member List.not_mem_nil
  | succ rounds ih =>
    unfold roundJudges samplingRounds
    dsimp only
    set want := max args.ksample (mode.count - call.picked) with wanted
    set lim := want + call.skip.length with limit
    set sampled := ZSet.rangeUpTo hkeyLe (call.site.rdy args.eg) args.now 0 lim with due
    set pool := newPool sampled want call.skip with drawn
    -- what a due range that was not filled has left of the start
    have covers (short : sampled.length < lim) (idle : call.picked = 0) (judged : Judged)
        (seen : ∀ i ∈ sampled, i ∈ judged.map Prod.fst) : Covered args start (past ++ judged) := by
      intro i score stored reached
      by_cases before : i ∈ past.map Prod.fst
      · rw [List.map_append]
        exact List.mem_append_left _ before
      · have still : (call.site.rdy args.eg).lookup i = some score :=
          (between.unmoved idle i before).trans stored
        have listed : i ∈ sampled := ZSet.mem_short_range short still reached
        rw [List.map_append]
        exact List.mem_append_right _ (seen i listed)
    split
    · next nothing =>
      refine ⟨by simpa using between, le_rfl, fun idle => Or.inr ?_⟩
      have positive : 0 < lim := by omega
      refine covers (by rw [nothing]; exact positive) idle _ ?_
      rw [nothing]
      exact fun i member => absurd member List.not_mem_nil
    · have rule : LoopRule args mode (Sampled args start past
          ((sampled.filter fun i => !call.skip.contains i).take want) call.picked) :=
        sampled_rule plain lasting
      obtain ⟨held, kept, ends⟩ := pool_loop_keeps rule
        (pending_new_pool sampled want call.skip).le (between.sampled due)
      rw [List.nil_append] at kept
      obtain ⟨next, settled⟩ := kept.ended ends asked
      set after := poolLoop args mode (2 * pool.entries.length) call pool
      set judged := loopJudges args mode (2 * pool.entries.length) call pool
      -- with nothing leased the pool was the whole sample
      have whole (idle : after.picked = 0) : call.picked = 0 ∧
          (judged.map Prod.fst).Perm sampled ∧ lim = max args.ksample mode.count := by
        obtain ⟨before, seen⟩ := settled idle
        have skip := between.untaken before
        rw [skip, List.length_nil, Nat.add_zero] at limit
        refine ⟨before, ?_, by rw [limit, wanted, before, Nat.sub_zero]⟩
        have within : sampled.length ≤ want := by
          rw [due, limit, ZSet.rangeUpTo, List.length_map, List.length_take]
          exact min_le_left _ _
        have unfiltered : sampled.filter (fun i => !call.skip.contains i) = sampled := by
          simp [skip]
        rwa [unfiltered, List.take_of_length_le within] at seen
      split
      · next stops =>
        refine ⟨by simpa using next, kept.grown, fun idle => Or.inr ?_⟩
        obtain ⟨before, seen, -⟩ := whole idle
        rw [List.flatten_cons, List.flatten_nil, List.append_nil]
        refine covers ?_ before judged fun i member => seen.mem_iff.mpr member
        have proxied := next.proxied
        rcases stops with enough | failed | short
        · omega
        · omega
        · exact short
      · next goesOn =>
        obtain ⟨final, grown, honest⟩ := ih next
        rw [List.flatten_cons, ← List.append_assoc]
        refine ⟨final, kept.grown.trans grown, fun idle => ?_⟩
        rcases honest idle with ⟨count, full⟩ | covered
        · obtain ⟨-, seen, filled⟩ := whole (by omega)
          have length : judged.length = sampled.length := by
            rw [← seen.length_eq, List.length_map]
          have most : sampled.length ≤ lim := by
            rw [due, ZSet.rangeUpTo, List.length_map, List.length_take]
            exact min_le_left _ _
          push Not at goesOn
          refine Or.inl ⟨by rw [List.length_cons, count], List.forall_mem_cons.mpr ⟨?_, full⟩⟩
          refine ⟨seen.nodup_iff.mpr (ZSet.range_nodup hkeyLe _ _ _ _), ?_⟩
          rw [length, ← filled]
          exact le_antisymm most goesOn.2.2
        · exact Or.inr covered

end Round

/-! ## The call -/

theorem sticky_reuse_between {args : AcquireArgs} {mode : Mode} {site : Site}
    (plain : args.pmode = .none) :
    Between args site [] (stickyReuse args mode { site := site }) ∧
      ((stickyReuse args mode { site := site }).picked = 0 →
        ∀ i c, (i, Verdict.ok c) ∉ stickyJudges args mode site) := by
  have untouched : Between args site [] { site := site } :=
    ⟨rfl, fun i verdict member => absurd member List.not_mem_nil, fun _ => rfl,
      fun _ i c => List.not_mem_nil, fun _ i _ => rfl⟩
  unfold stickyReuse stickyJudges
  split
  · dsimp only
    cases site.stk args.eg args.session with
    | none => exact ⟨untouched, fun _ i c => List.not_mem_nil⟩
    | some si =>
      dsimp only
      by_cases ready : ((site.rdy args.eg).lookup si).isSome = true
      · simp only [ready, if_true]
        split
        · next c passed =>
          have taken : takeCandidate args mode { site := site } c true =
              Call.lease args mode { site := site, skip := [c.i] } c none true := by
            unfold takeCandidate assignProxy
            simp only [plain]
          rw [taken]
          refine ⟨⟨rfl, fun i verdict member => absurd member List.not_mem_nil, ?_, ?_, ?_⟩, ?_⟩
          all_goals exact fun idle => absurd idle (Nat.succ_ne_zero 0)
        · next refused =>
          refine ⟨untouched, fun _ i c member => ?_⟩
          obtain ⟨rfl, ok⟩ := Prod.mk.inj (List.mem_singleton.mp member)
          exact refused c ok.symm
      · simp only [ready]
        exact ⟨untouched, fun _ i c => List.not_mem_nil⟩
  · exact ⟨untouched, fun _ i c => List.not_mem_nil⟩

/-- EXHAUSTED is honest. With proxy mode none and a closed breaker the loop of every round
ends, every identity the rounds evaluate and reject leaves the due range, and a call is
exhausted only when no identity it evaluated passed, after three full rounds or after
every identity that was due at its start was rejected. A validated policy has a positive
lease ttl. -/
theorem exhausted_call_honest {args : AcquireArgs} {site : Site} (plain : args.pmode = .none)
    (closed : (site.brk args.eg).st = .closed) (lasting : 0 < args.ttl) :
    (∀ call ids limit more, poolLoop args (modeOf args false)
        (2 * (newPool ids limit call.skip).entries.length + more) call
        (newPool ids limit call.skip) =
      poolLoop args (modeOf args false) (2 * (newPool ids limit call.skip).entries.length) call
        (newPool ids limit call.skip)) ∧
    (∀ i verdict, (i, verdict) ∈ (callRounds args (modeOf args false) site).flatten →
      verdict.Refused → Gone args (acquire args site).1 i) ∧
    ∀ transition retry, (acquire args site).2 = .exhausted transition retry →
      (∀ i c, (i, Verdict.ok c) ∉ stickyJudges args (modeOf args false) site ++
        (callRounds args (modeOf args false) site).flatten) ∧
      (((callRounds args (modeOf args false) site).length = 3 ∧
        ∀ round ∈ callRounds args (modeOf args false) site, (round.map Prod.fst).Nodup ∧
          round.length = max args.ksample args.prefixes.length) ∨
        ∀ i score, (site.rdy args.eg).lookup i = some score → score ≤ args.now →
          ∃ verdict, (i, verdict) ∈ (callRounds args (modeOf args false) site).flatten ∧
            verdict.Refused) := by
  have passes : breakerGate args (site.brk args.eg) =
      { breaker := site.brk args.eg, transition := false, verdict := .inr false } := by
    unfold breakerGate
    rw [closed]
  have gated : site.setBrk args.eg (site.brk args.eg) = site := by
    rw [Site.setBrk, Function.update_eq_self]
  have called : acquire args site =
      finish args false (issue args (modeOf args false) site) := by
    unfold acquire
    rw [passes]
    dsimp only
    rw [gated]
  obtain ⟨between, sticky⟩ := @sticky_reuse_between args (modeOf args false) site plain
  have rounds : Between args site (callRounds args (modeOf args false) site).flatten
        (issue args (modeOf args false) site) ∧
      ((issue args (modeOf args false) site).picked = 0 →
        (∀ i c, (i, Verdict.ok c) ∉ stickyJudges args (modeOf args false) site) ∧
        (((callRounds args (modeOf args false) site).length = 3 ∧
          ∀ round ∈ callRounds args (modeOf args false) site, (round.map Prod.fst).Nodup ∧
            round.length = max args.ksample args.prefixes.length) ∨
          Covered args site (callRounds args (modeOf args false) site).flatten)) := by
    unfold callRounds issue
    dsimp only
    split
    · obtain ⟨final, grown, honest⟩ := sampling_rounds_honest plain lasting
        (mode_count_pos args false) 3 between
      rw [List.nil_append] at final honest
      exact ⟨final, fun idle => ⟨sticky (by omega), honest idle⟩⟩
    · next enough =>
      have asked := mode_count_pos args false
      exact ⟨between, fun idle => absurd idle (by omega)⟩
  refine ⟨fun call ids limit more => pool_loop_ends (pending_new_pool ids limit call.skip).le more,
    ?_, ?_⟩
  · intro i verdict member refused
    have gone := rounds.1.gone i verdict member refused
    rw [called]
    unfold finish
    split
    · refine gone.same ?_
      dsimp only
      split <;> rfl
    · split <;> exact gone
  · intro transition retry reply
    have idle : (issue args (modeOf args false) site).picked = 0 := by
      rw [called] at reply
      unfold finish at reply
      split at reply
      · cases reply
      · omega
    obtain ⟨unstuck, enough⟩ := rounds.2 idle
    have none := rounds.1.refused idle
    refine ⟨fun i c member => ?_, ?_⟩
    · rcases List.mem_append.mp member with first | later
      · exact unstuck i c first
      · exact none i c later
    · refine enough.imp_right fun covered i score stored reached => ?_
      obtain ⟨⟨j, verdict⟩, judged, rfl⟩ := List.mem_map.mp (covered i score stored reached)
      exact ⟨verdict, judged, fun c ok => none j c (ok ▸ judged)⟩

def bannedSite : Site where
  id := Function.update (fun _ => none) 7 (some (plainIdentity "idt_7" .banned))
  rdy := Function.update (fun _ => ∅) 1 ((∅ : ZSet Hkey).add 0 7)

theorem banned_identity_exhausts :
    (acquire (plainAcquire 1 1000 "a") bannedSite).2 = .exhausted false 60000 ∧
      (∀ i c, (i, Verdict.ok c) ∉
        stickyJudges (plainAcquire 1 1000 "a") (modeOf (plainAcquire 1 1000 "a") false) bannedSite ++
        (callRounds (plainAcquire 1 1000 "a") (modeOf (plainAcquire 1 1000 "a") false)
          bannedSite).flatten) ∧
      Gone (plainAcquire 1 1000 "a") (acquire (plainAcquire 1 1000 "a") bannedSite).1 7 := by
  have honest := @exhausted_call_honest (plainAcquire 1 1000 "a") bannedSite rfl rfl (by decide)
  have exhausted : (acquire (plainAcquire 1 1000 "a") bannedSite).2 = .exhausted false 60000 := rfl
  have rounds : callRounds (plainAcquire 1 1000 "a") (modeOf (plainAcquire 1 1000 "a") false)
      bannedSite = [[(7, .rem)]] := rfl
  refine ⟨exhausted, (honest.2.2 _ _ exhausted).1, honest.2.1 7 .rem ?_ fun c same => ?_⟩
  · rw [rounds]
    exact List.mem_singleton_self _
  · cases same

end Spinneret.Scheduler
