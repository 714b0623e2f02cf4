import Spinneret.Runs.Quota
import Spinneret.Scheduler.AcquireSound
import Spinneret.Scheduler.LeaseEndLedger

/-!
# The limit of a quota window

Without further requests the sliding estimate of a window only falls, also across the
end of the window, where the current count becomes the previous one. A request is
admitted while there is room for one more and a refund takes one away, so under
non-decreasing clocks the estimate stays within the limit at every time. A quota hash
is dropped at the earliest when no window counts anything that it stores.
-/

namespace Spinneret.Runs

open Spinneret.HotState Spinneret.Lib Spinneret.Scheduler

set_option autoImplicit false

/-! ## One window -/

section Cell

variable {w now : Int} {cell : Option QuotaCell}

theorem quota_est_mono {p p' n n' : Int} (start w now : Int) (previous : p ≤ p')
    (current : n ≤ n') : quotaEst p n start w now ≤ quotaEst p' n' start w now := by
  have before : (p : ℚ) ≤ p' := by exact_mod_cast previous
  have here : (n : ℚ) ≤ n' := by exact_mod_cast current
  unfold quotaEst
  split
  · exact here
  · have share : (0 : ℚ) ≤ 1 - max 0 (min 1 (((now - start : Int) : ℚ) / (w : ℚ))) :=
      sub_nonneg.mpr (max_le zero_le_one (min_le_left _ _))
    exact max_le_max here (add_le_add (mul_le_mul_of_nonneg_right before share) here)

theorem quota_est_succ (p n start w now : Int) :
    quotaEst p (n + 1) start w now = quotaEst p n start w now + 1 := by
  unfold quotaEst
  split
  · push_cast
    rfl
  · dsimp only
    rw [← max_add_add_right, add_assoc]
    push_cast
    rfl

/-- Both counts are counts, and the window counted last is not ahead of the clock. -/
structure Steady (w now : Int) (cell : Option QuotaCell) : Prop where
  counts : ∀ stored, cell = some stored → 0 ≤ stored.n ∧ 0 ≤ stored.p
  current : ∀ stored, cell = some stored → stored.c ≤ now / w

theorem Steady.rolled_nonneg (steady : Steady w now cell) (idx : Int) :
    0 ≤ (quotaRolled cell idx).1 ∧ 0 ≤ (quotaRolled cell idx).2 := by
  unfold quotaRolled
  split
  · exact ⟨le_refl 0, le_refl 0⟩
  · next stored =>
    obtain ⟨n, p⟩ := steady.counts stored rfl
    split_ifs
    · exact ⟨n, p⟩
    · exact ⟨le_refl 0, n⟩
    · exact ⟨le_refl 0, le_refl 0⟩

/-- In a window after that of the clock only the count of the clock's window is left,
as the previous one. -/
theorem Steady.rolled_later (steady : Steady w now cell) {idx : Int} (later : now / w < idx) :
    (quotaRolled cell idx).1 = 0 ∧ (quotaRolled cell idx).2 ≤ (quotaRolled cell (now / w)).1 := by
  have nonneg := (steady.rolled_nonneg (now / w)).1
  cases stored : cell with
  | none => exact ⟨rfl, le_refl 0⟩
  | some known =>
    have bound := steady.current known stored
    rw [stored] at nonneg
    have passed : known.c ≠ idx := by omega
    by_cases next : known.c = idx - 1
    · have here : known.c = now / w := by omega
      simp only [quotaRolled, if_neg passed, if_pos next, if_pos here, le_refl, and_self]
    · simpa [quotaRolled, passed, next] using nonneg

theorem Steady.estimate_eq (steady : Steady w now cell) (positive : 0 < w) (t : Int) :
    slidingEstimate cell w t =
      ((quotaRolled cell (t / w)).2 : ℚ) * (1 - ((t - t / w * w : Int) : ℚ) / (w : ℚ)) +
        ((quotaRolled cell (t / w)).1 : ℚ) := by
  have after : t / w * w ≤ t := Int.ediv_mul_le t positive.ne'
  have before : t < (t / w + 1) * w := Int.lt_ediv_add_one_mul_self t positive
  rw [add_mul, one_mul] at before
  exact quota_est_eq (steady.rolled_nonneg _).2 positive after before.le

/-- Without further requests the estimate does not grow. -/
theorem Steady.estimate_falls (steady : Steady w now cell) (positive : 0 < w) {t : Int}
    (later : now ≤ t) : slidingEstimate cell w t ≤ slidingEstimate cell w now := by
  have length : (0 : ℚ) < w := by exact_mod_cast positive
  obtain ⟨-, previous⟩ := steady.rolled_nonneg (t / w)
  have previously : (0 : ℚ) ≤ ((quotaRolled cell (t / w)).2 : ℚ) := by exact_mod_cast previous
  rcases (Int.ediv_le_ediv positive later).eq_or_lt with same | rolls
  · rw [steady.estimate_eq positive, steady.estimate_eq positive, same]
    have elapsed : ((now - t / w * w : Int) : ℚ) / (w : ℚ) ≤
        ((t - t / w * w : Int) : ℚ) / (w : ℚ) := by
      apply (div_le_div_iff_of_pos_right length).mpr
      exact_mod_cast sub_le_sub_right later _
    have faded := mul_le_mul_of_nonneg_left (sub_le_sub_left elapsed 1) previously
    linarith
  · obtain ⟨reset, left⟩ := steady.rolled_later rolls
    have elapsed : (0 : ℚ) ≤ ((t - t / w * w : Int) : ℚ) / (w : ℚ) := by
      apply div_nonneg _ length.le
      exact_mod_cast sub_nonneg.mpr (Int.ediv_mul_le t positive.ne')
    have faded := mul_nonneg previously elapsed
    have carried : ((quotaRolled cell (t / w)).2 : ℚ) ≤ ((quotaRolled cell (now / w)).1 : ℚ) := by
      exact_mod_cast left
    have counted : ((quotaRolled cell (now / w)).1 : ℚ) ≤ slidingEstimate cell w now :=
      quota_est_ge ..
    rw [steady.estimate_eq positive t, reset, Int.cast_zero]
    linarith

theorem counted_rolled (now w : Int) (cell : Option QuotaCell) :
    quotaRolled (some (quotaCounted now w cell)) (now / w) =
      ((quotaRolled cell (now / w)).1 + 1, (quotaRolled cell (now / w)).2) := by
  cases cell with
  | none =>
    simp only [quotaRolled, quotaCounted, Option.getD_none]
    split_ifs <;> simp_all
  | some stored =>
    simp only [quotaRolled, quotaCounted, Option.getD_some]
    split_ifs <;> simp_all

theorem counted_estimate (now w : Int) (cell : Option QuotaCell) :
    slidingEstimate (some (quotaCounted now w cell)) w now = slidingEstimate cell w now + 1 := by
  unfold slidingEstimate
  rw [counted_rolled]
  exact quota_est_succ ..

theorem Steady.counted (steady : Steady w now cell) :
    Steady w now (some (quotaCounted now w cell)) where
  counts stored same := by
    obtain rfl := Option.some.inj same
    have rolled := counted_rolled now w cell
    simp only [quotaRolled, quota_counted_c, if_true, Prod.mk.injEq] at rolled
    have nonneg := steady.rolled_nonneg (now / w)
    simp only [quotaRolled] at nonneg
    omega
  current stored same := by
    obtain rfl := Option.some.inj same
    exact (quota_counted_c ..).le

theorem Steady.refunded (steady : Steady w now cell) (a : Int) :
    Steady w now (cell.map (quotaRefund a w)) := by
  cases cell with
  | none => exact steady
  | some stored =>
    obtain ⟨n, p⟩ := steady.counts stored rfl
    have current := steady.current stored rfl
    unfold quotaRefund
    rw [Option.map_some]
    constructor
    all_goals
      rintro next ⟨⟩
      split
    · next taken => exact ⟨by dsimp only; omega, p⟩
    · exact ⟨n, p⟩
    · exact current
    · exact current

theorem refund_estimate_le (a w t : Int) (cell : Option QuotaCell) :
    slidingEstimate (cell.map (quotaRefund a w)) w t ≤ slidingEstimate cell w t := by
  cases cell with
  | none => exact le_refl _
  | some stored =>
    unfold quotaRefund
    rw [Option.map_some]
    split
    · unfold slidingEstimate
      simp only [quotaRolled]
      split_ifs
      · exact quota_est_mono _ _ _ (le_refl _) (by omega)
      · exact quota_est_mono _ _ _ (by omega) (le_refl _)
      · exact le_refl _
    · exact le_refl _

/-- The estimate of one window is within its limit. -/
structure Bounded (quota : QuotaWindow) (now : Int) (cell : Option QuotaCell) : Prop
    extends Steady quota.window now cell where
  within : slidingEstimate cell quota.window now ≤ (quota.limit : ℚ)

variable {quota : QuotaWindow}

theorem Bounded.later (bounded : Bounded quota now cell) (positive : 0 < quota.window) {t : Int}
    (later : now ≤ t) : Bounded quota t cell where
  counts := bounded.counts
  current stored same :=
    (bounded.current stored same).trans (Int.ediv_le_ediv positive later)
  within := (bounded.estimate_falls positive later).trans bounded.within

theorem Bounded.counted (bounded : Bounded quota now cell)
    (room : slidingEstimate cell quota.window now + 1 ≤ (quota.limit : ℚ)) :
    Bounded quota now (some (quotaCounted now quota.window cell)) where
  toSteady := bounded.toSteady.counted
  within := (counted_estimate ..).trans_le room

theorem Bounded.refunds (bounded : Bounded quota now cell) (a : Int) (times : Nat) :
    Bounded quota now ((Option.map (quotaRefund a quota.window))^[times] cell) := by
  induction times generalizing cell with
  | zero => exact bounded
  | succ times ih =>
    rw [Function.iterate_succ_apply]
    exact ih ⟨bounded.toSteady.refunded a, (refund_estimate_le ..).trans bounded.within⟩

/-- A refund stays in the window that was counted. -/
theorem refunds_window (a w : Int) (times : Nat) {stored : QuotaCell}
    (found : (Option.map (quotaRefund a w))^[times] cell = some stored) :
    ∃ before, cell = some before ∧ before.c = stored.c := by
  induction times generalizing cell with
  | zero => exact ⟨stored, found, rfl⟩
  | succ times ih =>
    rw [Function.iterate_succ_apply] at found
    obtain ⟨middle, reached, same⟩ := ih found
    obtain ⟨before, known, rfl⟩ := Option.map_eq_some_iff.mp reached
    refine ⟨before, known, ?_⟩
    rw [← same]
    unfold quotaRefund
    split <;> rfl

end Cell

/-! ## One quota hash -/

/-- The quota windows of a policy that has passed validation. -/
structure QuotaPolicy where
  windows : List QuotaWindow
  limited : ∀ quota ∈ windows, 1 ≤ quota.limit
  lengthy : ∀ quota ∈ windows, 0 < quota.window

structure HashBounded (policy : QuotaPolicy) (now : Int) (hash : QuotaHash) : Prop where
  bounded : ∀ quota ∈ policy.windows, Bounded quota now (hash.cells quota.window)
  lasting : ∀ quota ∈ policy.windows, ∀ stored, hash.cells quota.window = some stored →
    ∃ e, hash.expireAt = some e ∧ (stored.c + 2) * quota.window ≤ e

namespace HashBounded

variable {policy : QuotaPolicy} {now : Int} {hash : QuotaHash}

theorem empty (policy : QuotaPolicy) (now : Int) {hash : QuotaHash}
    (none : ∀ quota ∈ policy.windows, hash.cells quota.window = none) :
    HashBounded policy now hash where
  bounded quota member := by
    rw [none quota member]
    refine ⟨⟨nofun, nofun⟩, ?_⟩
    have limit : (1 : ℚ) ≤ quota.limit := by exact_mod_cast policy.limited quota member
    have nothing : slidingEstimate Option.none quota.window now = 0 := by
      simp [slidingEstimate, quotaRolled, quotaEst]
    rw [nothing]
    linarith
  lasting quota member stored found := by
    rw [none quota member] at found
    cases found

theorem later (kept : HashBounded policy now hash) {t : Int} (later : now ≤ t) :
    HashBounded policy t hash where
  bounded quota member := (kept.bounded quota member).later (policy.lengthy quota member) later
  lasting := kept.lasting

theorem refunds (kept : HashBounded policy now hash) (a : Int) (windows : List Int) :
    HashBounded policy now { hash with
      cells := fun w => (Option.map (quotaRefund a w))^[windows.count w] (hash.cells w) } where
  bounded quota member := (kept.bounded quota member).refunds a _
  lasting quota member stored found := by
    obtain ⟨before, known, same⟩ := refunds_window a _ _ found
    obtain ⟨e, expires, long⟩ := kept.lasting quota member before known
    exact ⟨e, expires, same ▸ long⟩

/-- When the hash expires, no window counts anything that is stored. -/
theorem forgets_nothing (kept : HashBounded policy now hash) {quota : QuotaWindow}
    (member : quota ∈ policy.windows) {e t : Int} (expires : hash.expireAt = some e)
    (gone : e ≤ t) : quotaRolled (hash.cells quota.window) (t / quota.window) = (0, 0) := by
  cases found : hash.cells quota.window with
  | none => rfl
  | some stored =>
    obtain ⟨other, same, long⟩ := kept.lasting quota member stored found
    obtain rfl := Option.some.inj (expires.symm.trans same)
    have ahead : stored.c + 2 ≤ t / quota.window :=
      (Int.le_ediv_iff_mul_le (policy.lengthy quota member)).mpr (long.trans gone)
    have passed : stored.c ≠ t / quota.window := by omega
    have longPassed : stored.c ≠ t / quota.window - 1 := by omega
    simp [quotaRolled, passed, longPassed]

end HashBounded

theorem window_le_longest (quotas : List QuotaWindow) (start : Int) :
    start ≤ quotas.foldl (fun longest quota => max longest quota.window) start ∧
      ∀ quota ∈ quotas,
        quota.window ≤ quotas.foldl (fun longest quota => max longest quota.window) start := by
  induction quotas generalizing start with
  | nil => exact ⟨le_refl _, fun quota member => absurd member List.not_mem_nil⟩
  | cons first rest ih =>
    obtain ⟨from_start, each⟩ := ih (max start first.window)
    refine ⟨(le_max_left _ _).trans from_start, List.forall_mem_cons.mpr ⟨?_, each⟩⟩
    exact (le_max_right _ _).trans from_start

/-! ## Acquires and lease ends -/

section Calls

variable {policy : QuotaPolicy} {eg i : Hkey}

/-- A call whose policy has the quota windows `policy`. -/
def Follows (policy : QuotaPolicy) (args : AcquireArgs) : Prop :=
  args.quotas = policy.windows ∧ args.warmupFactor ≤ 1

theorem quota_limit_le {quota : QuotaWindow} {factor : ℚ} (limited : 1 ≤ quota.limit)
    (scaled : factor ≤ 1) : quotaLimit quota factor ≤ (quota.limit : ℚ) := by
  have limit : (1 : ℚ) ≤ quota.limit := by exact_mod_cast limited
  refine max_le limit ?_
  calc (quota.limit : ℚ) * factor ≤ quota.limit * 1 :=
        mul_le_mul_of_nonneg_left scaled (by linarith)
    _ = quota.limit := mul_one _

theorem quota_factor_le {args : AcquireArgs} (scaled : args.warmupFactor ≤ 1) (act : Int) :
    quotaFactor args act ≤ 1 := by
  unfold quotaFactor
  split
  · exact scaled
  · exact le_refl 1

theorem quota_write_bounded {args : AcquireArgs} {site : Site} {picked : Nat} {sticky : Bool}
    {c : Candidate} {id : Identity} (follows : args.eg = eg → Follows policy args)
    (fit : Fit args site picked sticky c id)
    (kept : HashBounded policy args.now (site.q eg i)) :
    HashBounded policy args.now ((quotaWrite args site c).q eg i) := by
  unfold quotaWrite
  split
  · exact kept
  · by_cases here : args.eg = eg ∧ c.i = i
    · obtain ⟨rfl, rfl⟩ := here
      obtain ⟨quotas, scaled⟩ := follows rfl
      simp only [Site.setQ, Function.update_self]
      have written : ∀ quota ∈ policy.windows,
          (args.quotas.foldl (fun (cells : Int → Option QuotaCell) quota =>
            Function.update cells quota.window
              (some (quotaCounted args.now quota.window (c.q quota.window))))
            (site.q args.eg c.i).cells) quota.window =
          some (quotaCounted args.now quota.window
            ((site.q args.eg c.i).cells quota.window)) := by
        intro quota member
        rw [acquire_fold_cell, if_pos (List.mem_map_of_mem (quotas ▸ member)), fit.cells]
      refine ⟨fun quota member => ?_, fun quota member stored found => ?_⟩
      · dsimp only
        rw [written quota member]
        apply (kept.bounded quota member).counted
        have room := quota_push_none fit.quota (quotas ▸ member)
        rw [fit.cells] at room
        exact room.trans
          (quota_limit_le (policy.limited quota member) (quota_factor_le scaled _))
      · dsimp only at found
        rw [written quota member] at found
        obtain rfl := Option.some.inj found
        refine ⟨_, rfl, ?_⟩
        have longest := (window_le_longest args.quotas 0).2 quota (quotas ▸ member)
        have inside := Int.ediv_mul_le args.now (policy.lengthy quota member).ne'
        rw [quota_counted_c, add_mul]
        omega
    · rw [set_q_other here]
      exact kept

theorem acquire_bounded {args : AcquireArgs} {site : Site}
    (follows : args.eg = eg → Follows policy args)
    (kept : HashBounded policy args.now (site.q eg i)) :
    HashBounded policy args.now ((acquire args site).1.q eg i) := by
  refine @acquire_grant_rule (fun site => HashBounded policy args.now (site.q eg i)) args site
    kept ?_ ?_
  · intro before after quiet held
    rw [quiet.q]
    exact held
  · intro mode k write granted held
    obtain ⟨id, fit⟩ := granted.fit
    dsimp only [Write.after]
    rw [write_lease_q]
    exact quota_write_bounded follows fit held

theorem release_bounded {args : ReleaseArgs} {site : Site}
    (kept : HashBounded policy args.now (site.q eg i)) :
    HashBounded policy args.now ((release args site).1.site.q eg i) := by
  have refunded (lease : Lease) (site : Site) (windows : List Int)
      (kept : HashBounded policy args.now (site.q eg i)) :
      HashBounded policy args.now ((windows.foldl (refundWindow lease) site).q eg i) := by
    rw [refund_windows_cells]
    by_cases group : eg = lease.e
    · subst group
      by_cases identity : i = lease.i
      · subst identity
        rw [Function.update_self, Function.update_self]
        exact kept.refunds lease.a windows
      · rw [Function.update_self, Function.update_of_ne identity]
        exact kept
    · rw [Function.update_of_ne group]
      exact kept
  unfold release
  split
  · exact kept
  · next lease found =>
    split_ifs
    · exact kept
    · dsimp only
      rw [ls_end_q]
      unfold refundAborted abortAccounting
      dsimp only
      split_ifs
      · exact refunded lease _ _ kept
      · exact kept
      · exact refunded lease _ _ kept
      · exact kept
    · dsimp only
      rw [ls_end_q]
      exact kept
    · exact kept

end Calls

/-! ## Runs -/

/-- The calls that count and refund requests, and the expiry of a quota hash. -/
inductive PacedOp where
  | acquire (args : AcquireArgs)
  | release (args : ReleaseArgs)
  | lapse (eg i : Hkey) (now : Int)

structure Paced where
  site : Site
  clock : Int

def PacedOp.now : PacedOp → Int
  | .acquire args => args.now
  | .release args => args.now
  | .lapse _ _ now => now

/-- A key is gone at its expiry at the earliest. -/
def PacedOp.perform (site : Site) : PacedOp → Option Site
  | .acquire args => some (Scheduler.acquire args site).1
  | .release args => some (Scheduler.release args site).1.site
  | .lapse eg i now =>
    match (site.q eg i).expireAt with
    | none => none
    | some e => if e ≤ now then some (site.setQ eg i {}) else none

def pace (state : Paced) (op : PacedOp) : Option Paced :=
  if state.clock ≤ op.now then
    (op.perform state.site).map fun site => { site := site, clock := op.now }
  else none

/-- Every acquire on the group follows the policy. -/
def PacedOp.Follows (policy : QuotaPolicy) (eg : Hkey) : PacedOp → Prop
  | .acquire args => args.eg = eg → Runs.Follows policy args
  | _ => True

theorem pace_bounded {policy : QuotaPolicy} {eg i : Hkey} {state next : Paced} {op : PacedOp}
    (kept : HashBounded policy state.clock (state.site.q eg i))
    (follows : op.Follows policy eg) (stepped : pace state op = some next) :
    HashBounded policy next.clock (next.site.q eg i) := by
  unfold pace at stepped
  split at stepped
  · next forward =>
    obtain ⟨site, performed, rfl⟩ := Option.map_eq_some_iff.mp stepped
    have now := kept.later forward
    cases op with
    | acquire args =>
      obtain rfl := Option.some.inj performed
      exact acquire_bounded follows now
    | release args =>
      obtain rfl := Option.some.inj performed
      exact release_bounded now
    | lapse eg' i' time =>
      dsimp only [PacedOp.perform] at performed
      split at performed
      · cases performed
      · split at performed
        · obtain rfl := Option.some.inj performed
          by_cases here : eg' = eg ∧ i' = i
          · obtain ⟨rfl, rfl⟩ := here
            simp only [Site.setQ, Function.update_self]
            exact .empty policy _ fun quota _ => rfl
          · rw [set_q_other here]
            exact now
        · cases performed
  · cases stepped

/-- Sliding quota bound: in every run of acquires, releases and aborts with non-decreasing
clocks the estimate of every quota window is at most its limit at every time from the last
call on, and from the expiry of the hash on it counts nothing that the hash holds. -/
theorem quota_estimate_within_limit {policy : QuotaPolicy} {eg i : Hkey} {start : Site}
    {clock : Int} {ops : List PacedOp} {final : Paced}
    (fresh : ∀ quota ∈ policy.windows, (start.q eg i).cells quota.window = none)
    (follows : ∀ op ∈ ops, op.Follows policy eg)
    (reached : Machine.run pace { site := start, clock := clock } ops = some final)
    {quota : QuotaWindow} (member : quota ∈ policy.windows) {t : Int} (later : final.clock ≤ t) :
    ((quotaRolled ((final.site.q eg i).cells quota.window) (t / quota.window)).2 : ℚ) *
          (1 - ((t - t / quota.window * quota.window : Int) : ℚ) / (quota.window : ℚ)) +
        ((quotaRolled ((final.site.q eg i).cells quota.window) (t / quota.window)).1 : ℚ) ≤
      (quota.limit : ℚ) ∧
    ∀ e, (final.site.q eg i).expireAt = some e → e ≤ t →
      quotaRolled ((final.site.q eg i).cells quota.window) (t / quota.window) = (0, 0) := by
  have guarded : Machine.Under pace (fun _ op => op.Follows policy eg)
      { site := start, clock := clock } ops := Machine.under_of_all follows
  have initial : HashBounded policy clock (start.q eg i) := .empty policy clock fresh
  have kept := @Machine.run_invariant_under _ _ _ _
    (fun state : Paced => HashBounded policy state.clock (state.site.q eg i))
    (fun state op next before met stepped => pace_bounded before met stepped)
    _ _ _ initial guarded reached
  have bounded := (kept.later later).bounded quota member
  refine ⟨?_, fun e expires gone => kept.forgets_nothing member expires gone⟩
  rw [← bounded.estimate_eq (policy.lengthy quota member)]
  exact bounded.within

def twoASecond : QuotaPolicy where
  windows := [{ limit := 2, window := 1000 }]
  limited := by decide
  lengthy := by decide

def meteredCall (now : Int) (lead : String) : AcquireArgs :=
  { plainAcquire 1 now lead with mc := 3, quotas := twoASecond.windows }

def meteredSite : Site where
  id := Function.update (fun _ => none) 7 (some (plainIdentity "idt_7" .active))
  rdy := Function.update (fun _ => ∅) 1 ((∅ : ZSet Hkey).add 0 7)

/-- Two leases, a third call that is refused, and an abort in the window after. -/
def meteredRun : List PacedOp :=
  [.acquire (meteredCall 1100 "a"), .acquire (meteredCall 1200 "b"),
    .acquire (meteredCall 1300 "c"),
    .release { now := 2300, lid := { lead := "a", shard := 0 }, late := 0, ns := none
               abort := true, windows := [1000], layout := [] }]

theorem metered_run_within_limit :
    ∃ final, Machine.run pace { site := meteredSite, clock := 0 } meteredRun = some final ∧
      (final.site.q 1 7).cells 1000 = some { c := 1, n := 1, p := 0 } ∧
      (final.site.q 1 7).expireAt = some 3200 ∧
      ((quotaRolled ((final.site.q 1 7).cells 1000) (2500 / 1000)).2 : ℚ) *
            (1 - ((2500 - 2500 / 1000 * 1000 : Int) : ℚ) / ((1000 : Int) : ℚ)) +
          ((quotaRolled ((final.site.q 1 7).cells 1000) (2500 / 1000)).1 : ℚ) ≤ ((2 : Int) : ℚ) := by
  have follows : ∀ op ∈ meteredRun, op.Follows twoASecond 1 := by
    unfold meteredRun
    simp only [List.forall_mem_cons]
    exact ⟨fun _ => ⟨rfl, le_refl 1⟩, fun _ => ⟨rfl, le_refl 1⟩, fun _ => ⟨rfl, le_refl 1⟩,
      trivial, fun op member => absurd member List.not_mem_nil⟩
  have ran : (Machine.run pace { site := meteredSite, clock := 0 } meteredRun).map
      (fun state => ((state.site.q 1 7).cells 1000, (state.site.q 1 7).expireAt, state.clock)) =
      some (some { c := 1, n := 1, p := 0 }, some 3200, 2300) := by decide +kernel
  obtain ⟨final, reached, same⟩ := Option.map_eq_some_iff.mp ran
  simp only [Prod.mk.injEq] at same
  obtain ⟨cell, expires, clock⟩ := same
  refine ⟨final, reached, cell, expires, ?_⟩
  exact (@quota_estimate_within_limit twoASecond 1 7 meteredSite 0 meteredRun final
    (fun quota _ => rfl) follows reached { limit := 2, window := 1000 }
    (List.mem_singleton_self _) 2500 (by rw [clock]; decide)).1

end Spinneret.Runs
