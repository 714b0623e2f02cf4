import Mathlib.Logic.Function.Iterate
import Spinneret.Runs.Machine
import Spinneret.Scheduler.AcquireVerified
import Spinneret.Scheduler.QuotaBackoff

/-!
# Quota windows

The requests of an identity on a group are counted per quota window in a pair of
counters, of the window counted last and of the one before it. Acquire counts the
first request of a lease and every report after the first counts one more, each
with the clock of its own instance. A request of an earlier window than the one
counted last starts that earlier window anew and drops the newer count; as long as
no request falls back like this, the sliding estimate covers every request of the
latest window.
-/

namespace Spinneret.Runs

open Spinneret.HotState Spinneret.Lib Spinneret.Scheduler Spinneret.Worker

set_option autoImplicit false

/-! ## Counted requests -/

/-- A request that is counted. Acquire writes from the cells `evaluate` read in the same
script call. -/
inductive QuotaOp where
  | acquire (args : AcquireArgs) (c : Candidate)
  | report (args : ObserveArgs) (i : Hkey)

def QuotaOp.now : QuotaOp → Int
  | .acquire args _ => args.now
  | .report args _ => args.now

def QuotaOp.perform (site : Site) : QuotaOp → Site
  | .acquire args c => quotaWrite args site { c with q := (site.q args.eg c.i).cells }
  | .report args i => quotaReport args site i

/-- How often the request counts for identity `i` on group `eg` in windows of length `w`. -/
def QuotaOp.times (eg i : Hkey) (w : Int) : QuotaOp → Nat
  | .acquire args c =>
    if args.eg = eg ∧ c.i = i ∧ w ∈ args.quotas.map QuotaWindow.window then 1 else 0
  | .report args j => if args.eg = eg ∧ j = i then args.quotas.count w else 0

section Cells

variable {eg i : Hkey} {w : Int} {site : Site}

theorem acquire_fold_cell (now : Int) (read : Int → Option QuotaCell) (quotas : List QuotaWindow)
    (cells : Int → Option QuotaCell) :
    (quotas.foldl (fun (cells : Int → Option QuotaCell) quota =>
      Function.update cells quota.window (some (quotaCounted now quota.window (read quota.window))))
      cells) w =
      if w ∈ quotas.map QuotaWindow.window then some (quotaCounted now w (read w)) else cells w := by
  induction quotas generalizing cells with
  | nil => rfl
  | cons quota rest ih =>
    rw [List.foldl_cons, ih]
    by_cases later : w ∈ rest.map QuotaWindow.window
    · simp [later]
    · by_cases here : w = quota.window
      · simp [here]
      · simp [later, here]

theorem report_fold_cell (now : Int) (windows : List Int) (cells : Int → Option QuotaCell) :
    (windows.foldl (fun (cells : Int → Option QuotaCell) w =>
      Function.update cells w (some (quotaCounted now w (cells w)))) cells) w =
      (fun cell => some (quotaCounted now w cell))^[windows.count w] (cells w) := by
  induction windows generalizing cells with
  | nil => rfl
  | cons first rest ih =>
    rw [List.foldl_cons, ih]
    by_cases here : first = w
    · subst here
      rw [List.count_cons_self, Function.iterate_succ_apply, Function.update_self]
    · rw [List.count_cons_of_ne here, Function.update_of_ne (Ne.symm here)]

theorem set_q_other {eg' i' : Hkey} {value : QuotaHash} (other : ¬(eg' = eg ∧ i' = i)) :
    (site.setQ eg' i' value).q eg i = site.q eg i := by
  simp only [Site.setQ]
  by_cases group : eg = eg'
  · subst group
    have identity : i ≠ i' := fun same => other ⟨rfl, same.symm⟩
    rw [Function.update_self, Function.update_of_ne identity]
  · rw [Function.update_of_ne group]

theorem quota_write_cell (args : AcquireArgs) (site : Site) (c : Candidate) :
    ((quotaWrite args site c).q eg i).cells w =
      if args.eg = eg ∧ c.i = i ∧ w ∈ args.quotas.map QuotaWindow.window then
        some (quotaCounted args.now w (c.q w))
      else (site.q eg i).cells w := by
  unfold quotaWrite
  by_cases here : args.eg = eg ∧ c.i = i
  · obtain ⟨rfl, rfl⟩ := here
    split
    · next none => simp [List.isEmpty_iff.mp none]
    · simp only [Site.setQ, Function.update_self, acquire_fold_cell, true_and]
  · have unlisted : ¬(args.eg = eg ∧ c.i = i ∧ w ∈ args.quotas.map QuotaWindow.window) :=
      fun listed => here ⟨listed.1, listed.2.1⟩
    rw [if_neg unlisted]
    split
    · rfl
    · rw [set_q_other here]

theorem perform_cell (positive : 0 < w) (op : QuotaOp) :
    ((op.perform site).q eg i).cells w =
      (fun cell => some (quotaCounted op.now w cell))^[op.times eg i w] ((site.q eg i).cells w) := by
  cases op with
  | acquire args c =>
    simp only [QuotaOp.perform, QuotaOp.times, QuotaOp.now, quota_write_cell]
    split
    · next listed =>
      obtain ⟨rfl, rfl, -⟩ := listed
      rfl
    · rfl
  | report args j =>
    simp only [QuotaOp.perform, QuotaOp.times, QuotaOp.now, quotaReport]
    by_cases here : args.eg = eg ∧ j = i
    · obtain ⟨rfl, rfl⟩ := here
      have kept : (args.quotas.filter fun w => decide (0 < w)).count w = args.quotas.count w :=
        List.count_filter (by simpa using positive)
      have both : args.eg = args.eg ∧ j = j := ⟨rfl, rfl⟩
      rw [if_pos both, ← kept]
      split
      · next none =>
        rw [List.isEmpty_iff.mp none]
        rfl
      · simp only [Site.setQ, Function.update_self, report_fold_cell]
    · rw [if_neg here]
      split
      · rfl
      · rw [set_q_other here]
        rfl

end Cells

/-! ## Runs of counted requests -/

structure Metered where
  site : Site
  past : List QuotaOp := []

def meter (state : Metered) (op : QuotaOp) : Option Metered :=
  some { site := op.perform state.site, past := state.past ++ [op] }

def stamps (eg i : Hkey) (w : Int) (ops : List QuotaOp) : List Int :=
  (ops.filter fun op => decide (0 < op.times eg i w)).map QuotaOp.now

/-- No counted request belongs to an earlier window than the one counted last. -/
def Forward (eg i : Hkey) (w : Int) (state : Metered) (op : QuotaOp) : Prop :=
  0 < op.times eg i w → ∀ cell, (state.site.q eg i).cells w = some cell → cell.c ≤ op.now / w

/-- The cell counts every request of its window, and it is the latest window. -/
structure Tallied (w : Int) (times : List Int) (cell : Option QuotaCell) : Prop where
  counted : ∀ stored, cell = some stored →
    ((times.countP fun time => decide (time / w = stored.c) : Nat) : Int) ≤ stored.n
  reached : ∀ time ∈ times, ∃ stored, cell = some stored ∧ time / w ≤ stored.c
  latest : ∀ stored, cell = some stored → times ≠ [] → ∃ time ∈ times, time / w = stored.c

theorem quota_counted_c (now w : Int) (cell : Option QuotaCell) :
    (quotaCounted now w cell).c = now / w := by
  unfold quotaCounted
  dsimp only
  split
  · next same => exact same
  · rfl

theorem Tallied.count {w time : Int} {times : List Int} {cell : Option QuotaCell}
    (tallied : Tallied w times cell)
    (forward : ∀ stored, cell = some stored → stored.c ≤ time / w) :
    Tallied w (times ++ [time]) (some (quotaCounted time w cell)) where
  counted stored same := by
    obtain rfl := Option.some.inj same
    have this : decide (time / w = (quotaCounted time w cell).c) = true := by
      rw [quota_counted_c, decide_eq_true_eq]
    rw [List.countP_append, List.countP_singleton, if_pos this, quota_counted_c]
    cases known : cell with
    | none =>
      have none : times.countP (fun earlier => decide (earlier / w = time / w)) = 0 := by
        rw [List.countP_eq_zero]
        intro earlier member
        obtain ⟨stored, found, -⟩ := tallied.reached earlier member
        rw [known] at found
        cases found
      rw [none]
      unfold quotaCounted
      dsimp only
      split
      · simp
      · simp
    | some stored =>
      by_cases here : stored.c = time / w
      · have before := tallied.counted stored known
        rw [here] at before
        simp only [quotaCounted, Option.getD_some, here, if_true]
        omega
      · have below := forward stored known
        have none : times.countP (fun earlier => decide (earlier / w = time / w)) = 0 := by
          rw [List.countP_eq_zero]
          intro earlier member again
          obtain ⟨other, found, bound⟩ := tallied.reached earlier member
          obtain rfl := Option.some.inj (known.symm.trans found)
          simp only [decide_eq_true_eq] at again
          omega
        simp [quotaCounted, here, none]
  reached earlier member := by
    refine ⟨_, rfl, ?_⟩
    rw [quota_counted_c]
    rcases List.mem_append.mp member with old | new
    · obtain ⟨stored, found, bound⟩ := tallied.reached earlier old
      exact bound.trans (forward stored found)
    · rw [List.mem_singleton.mp new]
  latest stored same _ := by
    obtain rfl := Option.some.inj same
    exact ⟨time, List.mem_append_right _ (List.mem_singleton_self _), (quota_counted_c ..).symm⟩

theorem Tallied.again {w time : Int} {times : List Int} {stored : QuotaCell}
    (tallied : Tallied w times (some stored)) (here : stored.c = time / w) :
    Tallied w times (some (quotaCounted time w (some stored))) := by
  have same : quotaCounted time w (some stored) = { stored with n := stored.n + 1 } := by
    simp [quotaCounted, here]
  rw [same]
  constructor
  · intro next found
    obtain rfl := Option.some.inj found
    exact (tallied.counted stored rfl).trans (by simp)
  · intro earlier member
    obtain ⟨other, found, bound⟩ := tallied.reached earlier member
    obtain rfl := Option.some.inj found
    exact ⟨_, rfl, bound⟩
  · intro next found nonempty
    obtain rfl := Option.some.inj found
    exact tallied.latest stored rfl nonempty

theorem Tallied.repeated {w time : Int} {times : List Int} {cell : Option QuotaCell}
    (tallied : Tallied w times cell)
    (forward : ∀ stored, cell = some stored → stored.c ≤ time / w) (more : Nat) :
    ∃ stored, (fun cell => some (quotaCounted time w cell))^[more + 1] cell = some stored ∧
      stored.c = time / w ∧ Tallied w (times ++ [time]) (some stored) := by
  induction more with
  | zero => exact ⟨_, rfl, quota_counted_c .., tallied.count forward⟩
  | succ more ih =>
    obtain ⟨stored, reached, here, known⟩ := ih
    rw [Function.iterate_succ_apply', reached]
    exact ⟨_, rfl, quota_counted_c .., known.again here⟩

theorem stamps_append {eg i : Hkey} {w : Int} {ops : List QuotaOp} {op : QuotaOp} :
    stamps eg i w (ops ++ [op]) =
      stamps eg i w ops ++ if 0 < op.times eg i w then [op.now] else [] := by
  simp only [stamps, List.filter_append, List.map_append, List.filter_singleton]
  split <;> simp_all

theorem meter_tallied {eg i : Hkey} {w : Int} (positive : 0 < w) {state next : Metered}
    {op : QuotaOp} (tallied : Tallied w (stamps eg i w state.past) ((state.site.q eg i).cells w))
    (forward : Forward eg i w state op) (stepped : meter state op = some next) :
    Tallied w (stamps eg i w next.past) ((next.site.q eg i).cells w) := by
  obtain rfl := Option.some.inj stepped
  rw [stamps_append, perform_cell positive]
  by_cases counts : 0 < op.times eg i w
  · rw [if_pos counts]
    obtain ⟨more, times⟩ := Nat.exists_eq_succ_of_ne_zero counts.ne'
    obtain ⟨stored, reached, -, known⟩ := tallied.repeated (forward counts) more
    rw [times, reached]
    exact known
  · rw [if_neg counts, List.append_nil, Nat.eq_zero_of_not_pos counts]
    exact tallied

/-- Quota counts: in every run of counted requests none of which falls back into an earlier
window, the sliding estimate at the latest clock value is at least the number of requests
counted in its window. -/
theorem quota_estimate_covers_window {eg i : Hkey} {w : Int} {start : Site} {ops : List QuotaOp}
    {final : Metered} (positive : 0 < w)
    (counters : ∀ cell, (start.q eg i).cells w = some cell → 0 ≤ cell.n)
    (forward : Machine.Under meter (Forward eg i w) { site := start } ops)
    (reached : Machine.run meter { site := start } ops = some final) :
    ∀ last ∈ stamps eg i w final.past, (∀ time ∈ stamps eg i w final.past, time ≤ last) →
      (((stamps eg i w final.past).countP fun time => decide (time / w = last / w) : Nat) : ℚ) ≤
        slidingEstimate ((final.site.q eg i).cells w) w last := by
  have initial : Tallied w (stamps eg i w []) ((start.q eg i).cells w) :=
    ⟨fun stored same => by simpa [stamps] using counters stored same, nofun,
      fun _ _ none => absurd rfl none⟩
  have tallied := Machine.run_invariant_under
    (fun state op next before met stepped => meter_tallied positive before met stepped)
    initial forward reached
  intro last member largest
  obtain ⟨stored, found, upper⟩ := tallied.reached last member
  obtain ⟨time, earlier, same⟩ := tallied.latest stored found (List.ne_nil_of_mem member)
  have here : stored.c = last / w := by
    have lower := Int.ediv_le_ediv positive (largest time earlier)
    omega
  have counted := tallied.counted stored found
  rw [here] at counted
  refine le_trans ?_ (quota_est_ge ..)
  rw [found]
  simp only [quotaRolled, here, if_true]
  exact_mod_cast counted

/-- Requests arrive out of order by less than `bound`. -/
def DisorderBelow (bound : Int) (times : List Int) : Prop :=
  times.Pairwise fun earlier later => earlier - later < bound

/-- A call under a quota of ten requests a second. -/
def quotaCall (now : Int) : AcquireArgs :=
  { plainAcquire 1 now "a" with quotas := [{ limit := 10, window := 1000 }] }

def firstRequest (now : Int) : QuotaOp :=
  .acquire (quotaCall now) (candidateOf (quotaCall now) {} 7 (plainIdentity "idt_7" .active)
    { score := 70, sts := 0 })

def laterRequest (now : Int) : QuotaOp :=
  .report { successReport now { lead := "a", shard := 0 } with quotas := [1000] } 7

/-- Late within its window, but not behind it. -/
def lateRequests : List QuotaOp :=
  [firstRequest 1000, laterRequest 1900, laterRequest 1200, firstRequest 1850]

theorem late_requests_counted :
    ∃ final, Machine.run meter { site := {} } lateRequests = some final ∧
      stamps 1 7 1000 final.past = [1000, 1900, 1200, 1850] ∧
      (((stamps 1 7 1000 final.past).countP fun time => decide (time / 1000 = 1900 / 1000) : Nat)
        : ℚ) ≤ slidingEstimate ((final.site.q 1 7).cells 1000) 1000 1900 := by
  refine ⟨_, rfl, by decide, ?_⟩
  have forward : ∀ (state : Metered) (op : QuotaOp) (cell : QuotaCell),
      (state.site.q 1 7).cells 1000 = some cell → cell.c ≤ op.now / 1000 →
      Forward 1 7 1000 state op := by
    intro state op cell stored ahead _ other found
    obtain rfl := Option.some.inj (stored.symm.trans found)
    exact ahead
  have ordered : Machine.Under meter (Forward 1 7 1000) { site := {} } lateRequests := by
    refine Machine.under_cons rfl nofun ?_
    refine Machine.under_cons rfl (forward _ _ _ rfl (by decide)) ?_
    refine Machine.under_cons rfl (forward _ _ _ rfl (by decide)) ?_
    exact Machine.under_cons rfl (forward _ _ _ rfl (by decide)) trivial
  exact quota_estimate_covers_window (by decide) (fun cell none => by cases none) ordered rfl 1900
    (by decide) (by decide)

/-- Three requests at the start of a window, then one of the millisecond before it. -/
def fallenBack : List QuotaOp :=
  [firstRequest 1000, firstRequest 1000, laterRequest 1000, laterRequest 999]

/-- A request one millisecond late drops the three requests counted in the new window. -/
theorem fallen_back_request_drops_count :
    ∃ final, Machine.run meter { site := {} } fallenBack = some final ∧
      stamps 1 7 1000 final.past = [1000, 1000, 1000, 999] ∧
      DisorderBelow 1000 (stamps 1 7 1000 final.past) ∧
      ((stamps 1 7 1000 final.past).countP fun time => decide (time / 1000 = 1000 / 1000)) = 3 ∧
      slidingEstimate ((final.site.q 1 7).cells 1000) 1000 1000 = 1 := by
  refine ⟨_, rfl, by decide, ?_, by decide, by decide +kernel⟩
  unfold DisorderBelow
  decide

end Spinneret.Runs
