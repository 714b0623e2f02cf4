import Mathlib.Tactic.Linarith
import Spinneret.Scheduler.AcquireFilters

/-!
# Acquire: quota estimate and back-off

A quota window admits a request while the sliding estimate leaves room for one more.
A refused identity is pushed to the time at which every window admits a request
again. Without further requests no window that asked for this time admits one more
than a millisecond before it.
-/

namespace Spinneret.Scheduler

open Spinneret.HotState

set_option autoImplicit false

/-- The estimate `quota_push` compares with the limit. -/
def slidingEstimate (cell : Option QuotaCell) (w now : Int) : ℚ :=
  quotaEst (quotaRolled cell (now / w)).2 (quotaRolled cell (now / w)).1 (now / w * w) w now

def quotaLimit (quota : QuotaWindow) (factor : ℚ) : ℚ := max 1 ((quota.limit : ℚ) * factor)

/-- The warm-up factor of an identity activated at `act`. -/
def quotaFactor (args : AcquireArgs) (act : Int) : ℚ :=
  if 0 < args.warmup ∧ 0 < act ∧ args.now - act < args.warmup then args.warmupFactor else 1

theorem quota_window_admits {now : Int} {factor : ℚ} {cell : Option QuotaCell}
    {quota : QuotaWindow} :
    quotaWindowPush now factor cell quota = none ↔
      slidingEstimate cell quota.window now + 1 ≤ quotaLimit quota factor := by
  unfold quotaWindowPush slidingEstimate quotaLimit
  dsimp only
  split
  · next fits => simpa using fits
  · next full => simpa using full

theorem quota_est_ge (p n start w now : Int) : (n : ℚ) ≤ quotaEst p n start w now := by
  unfold quotaEst
  split
  · exact le_refl _
  · exact le_max_left _ _

/-- Inside its window the estimate is the weighted sum, unless no request is left of the
window before. -/
theorem quota_est_eq {p n start w now : Int} (counted : 0 ≤ p) (positive : 0 < w)
    (after : start ≤ now) (before : now ≤ start + w) :
    quotaEst p n start w now = (p : ℚ) * (1 - ((now - start : Int) : ℚ) / (w : ℚ)) + (n : ℚ) := by
  have length : (0 : ℚ) < w := by exact_mod_cast positive
  have elapsed : (0 : ℚ) ≤ ((now - start : Int) : ℚ) := by exact_mod_cast sub_nonneg.mpr after
  have within : ((now - start : Int) : ℚ) ≤ (w : ℚ) := by
    have bound : now - start ≤ w := by omega
    exact_mod_cast bound
  have share : (0 : ℚ) ≤ ((now - start : Int) : ℚ) / (w : ℚ) := div_nonneg elapsed length.le
  have part : ((now - start : Int) : ℚ) / (w : ℚ) ≤ 1 := (div_le_one length).mpr within
  have weighted : (0 : ℚ) ≤ (p : ℚ) * (1 - ((now - start : Int) : ℚ) / (w : ℚ)) :=
    mul_nonneg (by exact_mod_cast counted) (sub_nonneg.mpr part)
  unfold quotaEst
  rw [if_neg (not_le.mpr positive)]
  dsimp only
  rw [min_eq_right part, max_eq_right share, max_eq_right]
  linarith

/-! ## One window -/

theorem window_index {w now u : Int} (positive : 0 < w) (later : now ≤ u)
    (inside : u < now / w * w + w) : u / w = now / w := by
  have lower := Int.ediv_le_ediv positive later
  have upper : u / w < now / w + 1 := by
    apply Int.ediv_lt_of_lt_mul positive
    rw [add_mul, one_mul]
    exact inside
  omega

/-- A refusing window that has room for another request of its own is held back by
the requests of the window before. -/
theorem refused_by_previous {p n start w now : Int} {limit : ℚ}
    (refused : limit < quotaEst p n start w now + 1) (room : (n : ℚ) + 1 ≤ limit) :
    0 < w ∧ 0 < p := by
  have lengthy : 0 < w := by
    by_contra short
    rw [quotaEst, if_pos (not_lt.mp short)] at refused
    linarith
  refine ⟨lengthy, ?_⟩
  by_contra none
  have nothing : (p : ℚ) ≤ 0 := by exact_mod_cast not_lt.mp none
  rw [quotaEst, if_neg (not_le.mpr lengthy)] at refused
  dsimp only at refused
  have bounded : max 0 (min 1 (((now - start : Int) : ℚ) / (w : ℚ))) ≤ 1 :=
    max_le zero_le_one (min_le_left _ _)
  have product := mul_nonpos_of_nonpos_of_nonneg nothing (sub_nonneg.mpr bounded)
  rw [max_eq_left (by linarith)] at refused
  linarith

/-- Before the time at which the previous window has faded enough, the estimate is
still too high. -/
theorem refused_until {p n start w u : Int} {limit : ℚ} (positive : 0 < w) (counted : 0 < p)
    (after : start ≤ u) (inside : u ≤ start + w)
    (early : u - start < ⌈(w : ℚ) * (1 - (limit - (n : ℚ) - 1) / (p : ℚ))⌉) :
    limit < quotaEst p n start w u + 1 := by
  have length : (0 : ℚ) < w := by exact_mod_cast positive
  have count : (0 : ℚ) < p := by exact_mod_cast counted
  have below : ((u - start : Int) : ℚ) < (w : ℚ) * (1 - (limit - (n : ℚ) - 1) / (p : ℚ)) :=
    Int.lt_ceil.mp early
  have share : ((u - start : Int) : ℚ) / (w : ℚ) < 1 - (limit - (n : ℚ) - 1) / (p : ℚ) := by
    rw [div_lt_iff₀ length]
    linarith
  have needed : (limit - (n : ℚ) - 1) / (p : ℚ) < 1 - ((u - start : Int) : ℚ) / (w : ℚ) := by
    linarith
  rw [div_lt_iff₀ count] at needed
  rw [quota_est_eq counted.le positive after inside]
  linarith

/-- The push of one window lies ahead, and the window refuses until a millisecond
before it. -/
theorem window_push_refuses {now t : Int} {factor : ℚ} {cell : Option QuotaCell}
    {quota : QuotaWindow} (pushed : quotaWindowPush now factor cell quota = some t) :
    now < t ∧ ∀ u, now ≤ u → u < t - 1 →
      quotaLimit quota factor < slidingEstimate cell quota.window u + 1 := by
  have refusedNow : quotaLimit quota factor < slidingEstimate cell quota.window now + 1 := by
    rw [← not_le, ← quota_window_admits, pushed]
    nofun
  unfold quotaWindowPush at pushed
  dsimp only at pushed
  split at pushed
  · cases pushed
  set w := quota.window
  set start := now / w * w with begins
  set counts := quotaRolled cell (now / w) with rolled
  set early := if (counts.1 : ℚ) + 1 ≤ max 1 ((quota.limit : ℚ) * factor) ∧ 0 < counts.2 then
      min (start + w) (start + ⌈(w : ℚ) * (1 - (max 1 ((quota.limit : ℚ) * factor) -
        (counts.1 : ℚ) - 1) / (counts.2 : ℚ))⌉ + 1)
    else start + w with resumes
  obtain rfl := Option.some.inj pushed
  split
  · exact ⟨Int.lt_succ now, fun u after before => by omega⟩
  · next ahead =>
    refine ⟨not_le.mp ahead, fun u after before => ?_⟩
    have capped : early ≤ start + w := by
      rw [resumes]
      split
      · exact min_le_left _ _
      · exact le_rfl
    -- a window of no length never moves on, one of negative length never asks for later
    have sameIndex : u / w = now / w := by
      rcases lt_trichotomy w 0 with negative | zero | positive
      · have floor := Int.ediv_mul_le now negative.ne
        omega
      · rw [zero, Int.ediv_zero, Int.ediv_zero]
      · exact window_index positive after (by omega)
    unfold slidingEstimate at refusedNow ⊢
    rw [sameIndex, ← begins, ← rolled]
    rw [← begins, ← rolled] at refusedNow
    by_cases room : (counts.1 : ℚ) + 1 ≤ quotaLimit quota factor
    · obtain ⟨positive, counted⟩ := refused_by_previous refusedNow room
      have floor := Int.ediv_mul_le now positive.ne'
      rw [resumes, if_pos ⟨room, counted⟩] at before
      have soon := before.trans_le (sub_le_sub_right (min_le_right _ _) 1)
      refine refused_until positive counted (by omega) (by omega) ?_
      unfold quotaLimit
      omega
    · have least := quota_est_ge counts.2 counts.1 start w u
      linarith [not_le.mp room]

/-! ## All windows -/

def laterPush (push asked : Option Int) : Option Int :=
  match asked, push with
  | none, _ => push
  | some time, none => some time
  | some time, some latest => some (max time latest)

theorem later_push_some {asked : List (Option Int)} {latest : Option Int} {t : Int}
    (folded : asked.foldl laterPush latest = some t) : latest = some t ∨ some t ∈ asked := by
  induction asked generalizing latest with
  | nil => exact Or.inl folded
  | cons first rest ih =>
    rcases ih folded with here | later
    · unfold laterPush at here
      split at here
      · exact Or.inl here
      · exact Or.inr (here ▸ List.mem_cons_self)
      · next time latest =>
        rcases max_choice time latest with first | second
        · rw [first] at here
          exact Or.inr (here ▸ List.mem_cons_self)
        · rw [second] at here
          exact Or.inl here
    · exact Or.inr (List.mem_cons_of_mem _ later)

theorem later_push_none {asked : List (Option Int)} {latest : Option Int}
    (folded : asked.foldl laterPush latest = none) : latest = none ∧ ∀ push ∈ asked, push = none := by
  induction asked generalizing latest with
  | nil => exact ⟨folded, nofun⟩
  | cons first rest ih =>
    obtain ⟨here, later⟩ := ih folded
    unfold laterPush at here
    split at here
    · exact ⟨here, List.forall_mem_cons.mpr ⟨rfl, later⟩⟩
    · cases here
    · cases here

section Windows

variable {args : AcquireArgs} {cells : Int → Option QuotaCell} {act : Int}

theorem quota_push_eq : quotaPush args cells act = (args.quotas.map fun quota =>
    quotaWindowPush args.now (quotaFactor args act) (cells quota.window) quota).foldl
      laterPush none := by
  rw [List.foldl_map]
  rfl

theorem quota_push_attained {t : Int} (pushed : quotaPush args cells act = some t) :
    ∃ quota ∈ args.quotas,
      quotaWindowPush args.now (quotaFactor args act) (cells quota.window) quota = some t := by
  rw [quota_push_eq] at pushed
  rcases later_push_some pushed with never | asked
  · cases never
  · exact List.mem_map.mp asked

/-- `quota_push` lets a request pass when every window admits it. -/
theorem quota_push_none (passed : quotaPush args cells act = none) {quota : QuotaWindow}
    (member : quota ∈ args.quotas) :
    slidingEstimate (cells quota.window) quota.window args.now + 1 ≤
      quotaLimit quota (quotaFactor args act) := by
  rw [quota_push_eq] at passed
  exact quota_window_admits.mp ((later_push_none passed).2 _ (List.mem_map_of_mem member))

end Windows

end Spinneret.Scheduler
