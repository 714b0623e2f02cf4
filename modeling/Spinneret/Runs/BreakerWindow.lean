import Spinneret.Breaker.Params
import Spinneret.Runs.BreakerSteps

/-!
# The breaker window over a run

Reports are counted in bucket hashes of a group, each with a TTL of two windows from
its first report on, and an evaluation sums the buckets of its window. Here the
scripts of the site run in any order with any clock values, and Redis drops a
bucket hash at any time after its TTL is over. As long as the summed buckets cover
no more than two windows, an evaluation finds every report of those buckets.
-/

namespace Spinneret.Runs

open Spinneret.HotState Spinneret.Lib Spinneret.Scheduler Spinneret.Worker Spinneret.Action
open Spinneret.Breakers Spinneret.Policy

set_option autoImplicit false

/-! ## What a step does to the windows -/

/-- The report a step counts, if it is not a duplicate. -/
def countedReport (op : SiteOp) (site : Site) : Option ObserveArgs :=
  match op with
  | .observe shard sid (some args) =>
    match (Worker.observe shard sid (some args) site).2 with
    | .applied _ => some args
    | _ => none
  | _ => none

inductive WindowEffect (site : Site) (op : SiteOp) (after : Site) : Prop where
  | still (uncounted : countedReport op site = none)
      (kept : ∀ eg bucket, op ≠ .forget (.window eg bucket)) (same : after.win = site.win)
  | counted (args : ObserveArgs) (report : countedReport op site = some args)
      (win : after.win = (windowReport args site).win)
  | dropped (eg : Hkey) (bucket : Int) (drop : op = .forget (.window eg bucket))
      (win : after.win = (HotState.forget site (.window eg bucket)).win)

theorem acquire_windows (args : AcquireArgs) (site : Site) :
    (acquire args site).1.win = site.win :=
  @acquire_rule args site (fun after _ => after.win = site.win) rfl fun _ _ =>
    { quiet := fun _ _ _ quiet same => quiet.win.trans same
      lease := fun _ _ _ _ _ same _ _ _ => (write_lease_win ..).trans same }

theorem release_windows (args : ReleaseArgs) (site : Site) :
    (release args site).1.site.win = site.win := by
  unfold release
  split
  · rfl
  · split
    · rfl
    · split
      · exact (ls_end_frame ..).2.2.2
      · rfl

theorem observe_windows (shard : Nat) (sid : StreamId) (full : Option ObserveArgs) (site : Site) :
    WindowEffect site (.observe shard sid full) (observe shard sid full site).1 := by
  by_cases seen : ((site.ckpt shard).any fun prev => duplicate prev sid) = true
  · have same : observe shard sid full site = (site, .dup) := by rw [observe, if_pos seen]
    refine .still ?_ nofun (by rw [same])
    cases full with
    | none => rfl
    | some args => simp only [countedReport, same]
  · cases full with
    | none => exact .still rfl nofun (by rw [observe, if_neg seen])
    | some args =>
      refine .counted args ?_ ?_
      · simp only [countedReport, observe, if_neg seen]
      · rw [observe, if_neg seen]
        refine (observe_full_windows args _).trans ?_
        unfold windowReport
        dsimp only
        split <;> rfl

theorem perform_windows {op : SiteOp} {site : Site} {outcome : Outcome}
    (performed : perform op site = some outcome) : WindowEffect site op outcome.site := by
  cases op with
  | acquire args =>
    cases performed
    exact .still rfl nofun (acquire_windows args site)
  | renew args =>
    cases performed
    exact .still rfl nofun (renew_breakers args site).win
  | release args =>
    cases performed
    exact .still rfl nofun (release_windows args site)
  | reap args =>
    cases performed
    exact .still rfl nofun (reap_breakers args site).win
  | observe shard sid full =>
    cases performed
    exact observe_windows shard sid full site
  | act now token ops =>
    cases performed
    exact .still rfl nofun (apply_untouched now token ops site).win
  | evalBreaker args =>
    cases performed
    refine .still rfl nofun ?_
    unfold breakerEval
    dsimp only
    split <;> rfl
  | setBreaker args =>
    cases performed
    refine .still rfl nofun ?_
    unfold breakerSet
    dsimp only
    split <;> rfl
  | sync args =>
    cases performed
    exact .still rfl nofun (sync_breakers args site).win
  | syncProxies args =>
    cases performed
    exact .still rfl nofun (sync_proxies_undisturbed args site).win
  | retain args =>
    cases performed
    exact .still rfl nofun (retain_breakers args site).win
  | expire lid =>
    obtain ⟨after, expired, rfl⟩ := Option.map_eq_some_iff.mp performed
    obtain ⟨lease, -, -, rfl⟩ := expire_lease_writes expired
    exact .still rfl nofun rfl
  | forget key =>
    cases performed
    cases key with
    | window eg bucket => exact .dropped eg bucket rfl rfl
    | _ => exact .still rfl nofun rfl

/-! ## Runs with expiring buckets -/

/-- A run with the expiry times of the bucket hashes of one group. -/
structure WindowRun where
  run : SiteRun
  expiry : Int → Option Int

def WindowRun.start (site : Site) : WindowRun := { run := .start site, expiry := fun _ => none }

/-- Redis drops a bucket hash only after its expiry time. -/
def windowDue (eg : Hkey) (state : WindowRun) (time : Int) : SiteOp → Bool
  | .forget (.window group bucket) =>
    group ≠ eg || (state.expiry bucket).any fun expiry => decide (expiry < time)
  | _ => true

/-- The first report of a bucket sets the TTL of its key, and a dropped key has none. -/
def windowExpiry (spec : Option BreakerSpec) (eg : Hkey) (state : WindowRun) (op : SiteOp) :
    Int → Option Int :=
  match countedReport op state.run.site, op with
  | some args, _ =>
    match args.winBucket with
    | none => state.expiry
    | some bucket =>
      if args.eg = eg ∧ (state.run.site.win eg bucket).t + 1 = 1 then
        Function.update state.expiry bucket (some (args.now + (winSuffix spec args.now).2))
      else state.expiry
  | none, .forget (.window group bucket) =>
    if group = eg then Function.update state.expiry bucket none else state.expiry
  | none, _ => state.expiry

/-- One step at a time of the Redis clock. -/
def windowRunStep (spec : Option BreakerSpec) (eg : Hkey) (state : WindowRun)
    (label : Int × SiteOp) : Option WindowRun :=
  if windowDue eg state label.1 label.2 = true then
    (siteStep state.run label.2).map fun run =>
      { run := run, expiry := windowExpiry spec eg state label.2 }
  else none

theorem window_run_step_cases {spec : Option BreakerSpec} {eg : Hkey} {state next : WindowRun}
    {label : Int × SiteOp} (stepped : windowRunStep spec eg state label = some next) :
    windowDue eg state label.1 label.2 = true ∧ siteStep state.run label.2 = some next.run ∧
      next.expiry = windowExpiry spec eg state label.2 := by
  simp only [windowRunStep, Option.ite_none_right_eq_some, Option.map_eq_some_iff] at stepped
  obtain ⟨due, run, taken, rfl⟩ := stepped
  exact ⟨due, taken, rfl⟩

def windowReports (eg : Hkey) (past : List Event) : List ObserveArgs :=
  past.filterMap fun event =>
    (countedReport event.op event.before).filter fun args => decide (args.eg = eg)

/-- Every report of the group is written with the bucket derived from the policy. -/
def WrittenFor (spec : Option BreakerSpec) (eg : Hkey) : SiteOp → Prop
  | .observe _ _ (some args) =>
    args.eg = eg → 0 ≤ args.now ∧ args.winBucket = (winSuffix spec args.now).1
  | _ => True

/-! ## Buckets -/

def windowTally (reports : List ObserveArgs) : WindowBucket where
  t := reports.length
  s := (reports.countP ObserveArgs.success : Nat)
  r := (reports.countP ObserveArgs.risk : Nat)

def bucketOf (spec : Option BreakerSpec) (args : ObserveArgs) : Int :=
  args.now / (paramsFor spec).bucketMs

def bucketReports (spec : Option BreakerSpec) (eg : Hkey) (past : List Event) (bucket : Int) :
    List ObserveArgs :=
  (windowReports eg past).filter fun args => decide (bucketOf spec args = bucket)

/-- The least time up to which the key of a bucket stays: two windows from its start. -/
def bucketLasts (spec : Option BreakerSpec) (bucket : Int) : Int :=
  bucket * (paramsFor spec).bucketMs + 2 * (paramsFor spec).windowMs

/-- A bucket hash holds every report of its bucket, and its key stays for two windows. -/
structure BucketKept (spec : Option BreakerSpec) (eg : Hkey) (state : WindowRun) (bucket : Int) :
    Prop where
  tallied : state.run.site.win eg bucket =
    windowTally (bucketReports spec eg state.run.past bucket)
  keyed : bucketReports spec eg state.run.past bucket ≠ [] → ∃ expiry,
    state.expiry bucket = some expiry ∧ bucketLasts spec bucket ≤ expiry

theorem window_tally_snoc (reports : List ObserveArgs) (args : ObserveArgs) :
    windowTally (reports ++ [args]) =
      { t := (windowTally reports).t + 1
        s := if args.success then (windowTally reports).s + 1 else (windowTally reports).s
        r := if args.risk then (windowTally reports).r + 1 else (windowTally reports).r } := by
  unfold windowTally
  cases success : args.success <;> cases risk : args.risk <;> simp [success, risk]

theorem tally_nonempty {reports : List ObserveArgs} :
    (windowTally reports).t = 0 ↔ reports = [] := by
  simp [windowTally]

variable {args : ObserveArgs} {bucket : Int}

section Buckets

variable {spec : Option BreakerSpec} {eg : Hkey} {state next : WindowRun} {op : SiteOp}

theorem counted_report_cases {site : Site} (report : countedReport op site = some args) :
    ∃ shard sid, op = .observe shard sid (some args) := by
  unfold countedReport at report
  split at report
  · next shard sid written =>
    split at report
    · obtain rfl := Option.some.inj report
      exact ⟨shard, sid, rfl⟩
    · cases report
  · cases report

theorem window_reports_step (stepped : siteStep state.run op = some next.run) :
    windowReports eg next.run.past = windowReports eg state.run.past ++
      ((countedReport op state.run.site).filter fun args => decide (args.eg = eg)).toList := by
  obtain ⟨outcome, -, -, past⟩ := site_step_cases stepped
  rw [past, windowReports, List.filterMap_append]
  congr 1

theorem bucket_reports_step (stepped : siteStep state.run op = some next.run) (bucket : Int) :
    bucketReports spec eg next.run.past bucket = bucketReports spec eg state.run.past bucket ++
      ((countedReport op state.run.site).filter fun args =>
        decide (args.eg = eg ∧ bucketOf spec args = bucket)).toList := by
  rw [bucketReports, window_reports_step stepped, List.filter_append, bucketReports]
  congr 1
  cases countedReport op state.run.site with
  | none => rfl
  | some args =>
    by_cases ours : args.eg = eg <;> by_cases here : bucketOf spec args = bucket <;>
      simp [Option.filter, ours, here]

theorem window_report_win (args : ObserveArgs) (site : Site) (bucket : Int) :
    (windowReport args site).win eg bucket =
      if args.eg = eg ∧ args.winBucket = some bucket then
        { t := (site.win eg bucket).t + 1
          s := if args.success then (site.win eg bucket).s + 1 else (site.win eg bucket).s
          r := if args.risk then (site.win eg bucket).r + 1 else (site.win eg bucket).r }
      else site.win eg bucket := by
  unfold windowReport
  cases placed : args.winBucket with
  | none => simp
  | some other =>
    by_cases group : args.eg = eg
    · subst group
      by_cases here : other = bucket
      · subst here
        simp
      · simp [here, Function.update_of_ne (Ne.symm here)]
    · simp [group, Function.update_of_ne (Ne.symm group)]

theorem forget_window_win (site : Site) (group : Hkey) (other bucket : Int) :
    (HotState.forget site (.window group other)).win eg bucket =
      if group = eg ∧ other = bucket then {} else site.win eg bucket := by
  simp only [HotState.forget]
  by_cases here : group = eg
  · subst here
    by_cases same : other = bucket
    · subst same
      simp
    · simp [same, Function.update_of_ne (Ne.symm same)]
  · simp [here, Function.update_of_ne (Ne.symm here)]

theorem window_expiry_still (uncounted : countedReport op state.run.site = none)
    (kept : ∀ group bucket, op ≠ .forget (.window group bucket)) :
    windowExpiry spec eg state op = state.expiry := by
  unfold windowExpiry
  rw [uncounted]
  split
  · next counted => cases counted
  · exact absurd rfl (kept _ _)
  · rfl

theorem window_expiry_counted (report : countedReport op state.run.site = some args)
    (placed : args.winBucket = some bucket) :
    windowExpiry spec eg state op =
      if args.eg = eg ∧ (state.run.site.win eg bucket).t + 1 = 1 then
        Function.update state.expiry bucket (some (args.now + (winSuffix spec args.now).2))
      else state.expiry := by
  unfold windowExpiry
  rw [report]
  simp only [placed]

theorem window_expiry_other (report : countedReport op state.run.site = some args)
    (other : args.eg ≠ eg) : windowExpiry spec eg state op = state.expiry := by
  unfold windowExpiry
  rw [report]
  dsimp only
  split
  · rfl
  · exact if_neg fun both => other both.1

/-- A report lands in the bucket the policy gives it, not before the bucket starts. -/
theorem written_bucket {shard : Nat} {sid : StreamId}
    (written : WrittenFor spec eg (.observe shard sid (some args))) (ours : args.eg = eg) :
    args.winBucket = some (bucketOf spec args) ∧
      bucketOf spec args * (paramsFor spec).bucketMs ≤ args.now := by
  obtain ⟨since, placed⟩ := written ours
  refine ⟨?_, Int.ediv_mul_le _ (params_bucket_pos spec).ne'⟩
  rw [placed, win_suffix_params, bucketOf, Int.tdiv_eq_ediv_of_nonneg since]

theorem BucketKept.same (kept : BucketKept spec eg state bucket)
    (win : next.run.site.win eg bucket = state.run.site.win eg bucket)
    (reports :
      bucketReports spec eg next.run.past bucket = bucketReports spec eg state.run.past bucket)
    (expiry : next.expiry bucket = state.expiry bucket) : BucketKept spec eg next bucket where
  tallied := by rw [win, reports, kept.tallied]
  keyed some := by
    rw [expiry]
    exact kept.keyed (reports ▸ some)

/-- A counted report keeps its bucket complete and leaves the others alone. -/
theorem BucketKept.count (kept : BucketKept spec eg state bucket) (written : WrittenFor spec eg op)
    (taken : siteStep state.run op = some next.run)
    (report : countedReport op state.run.site = some args)
    (win : next.run.site.win = (windowReport args state.run.site).win)
    (expiry : next.expiry = windowExpiry spec eg state op) : BucketKept spec eg next bucket := by
  obtain ⟨shard, sid, rfl⟩ := counted_report_cases report
  have reports : bucketReports spec eg next.run.past bucket = _ := bucket_reports_step taken bucket
  rw [report, Option.filter_some] at reports
  by_cases group : args.eg = eg
  · obtain ⟨placed, started⟩ := written_bucket written group
    rw [window_expiry_counted report placed] at expiry
    by_cases here : bucketOf spec args = bucket
    · subst here
      have both : args.eg = eg ∧ args.winBucket = some (bucketOf spec args) := ⟨group, placed⟩
      simp only [group, true_and, decide_true, if_true, Option.toList_some] at reports
      refine ⟨?_, fun _ => ?_⟩
      · rw [win, window_report_win, if_pos both, reports, window_tally_snoc, kept.tallied]
      · by_cases first : (state.run.site.win eg (bucketOf spec args)).t = 0
        · refine ⟨args.now + 2 * (paramsFor spec).windowMs, ?_, Int.add_le_add_right started _⟩
          rw [expiry, if_pos ⟨group, by omega⟩, Function.update_self, win_suffix_params]
        · have again : ¬(args.eg = eg ∧ (state.run.site.win eg (bucketOf spec args)).t + 1 = 1) :=
            fun both => first (by omega)
          rw [kept.tallied, tally_nonempty] at first
          obtain ⟨time, stored, bound⟩ := kept.keyed first
          exact ⟨time, by rw [expiry, if_neg again, stored], bound⟩
    · have elsewhere : ¬(args.eg = eg ∧ args.winBucket = some bucket) := by
        rintro ⟨-, same⟩
        exact here (Option.some.inj (placed.symm.trans same))
      refine kept.same ?_ (by simpa [here] using reports) ?_
      · rw [win, window_report_win, if_neg elsewhere]
      · rw [expiry]
        split_ifs
        · rw [Function.update_of_ne (Ne.symm here)]
        · rfl
  · have elsewhere : ¬(args.eg = eg ∧ args.winBucket = some bucket) := fun both => group both.1
    refine kept.same ?_ (by simpa [group] using reports) ?_
    · rw [win, window_report_win, if_neg elsewhere]
    · rw [expiry, window_expiry_other report group]

/-- A dropped bucket was empty, or its two windows are over. -/
theorem BucketKept.drop {bucket other time : Int} {group : Hkey}
    (kept : BucketKept spec eg state bucket)
    (taken : siteStep state.run (.forget (.window group other)) = some next.run)
    (due : windowDue eg state time (.forget (.window group other)) = true)
    (win : next.run.site.win = (HotState.forget state.run.site (.window group other)).win)
    (expiry : next.expiry = windowExpiry spec eg state (.forget (.window group other))) :
    BucketKept spec eg next bucket ∨ bucketLasts spec bucket < time := by
  have reports : bucketReports spec eg next.run.past bucket =
      bucketReports spec eg state.run.past bucket := by
    rw [bucket_reports_step taken bucket]
    exact List.append_nil _
  simp only [windowExpiry, countedReport] at expiry
  by_cases here : group = eg ∧ other = bucket
  · obtain ⟨rfl, rfl⟩ := here
    by_cases empty : bucketReports spec group state.run.past other = []
    · refine .inl ⟨?_, fun some => absurd (reports.trans empty) some⟩
      rw [win, forget_window_win, if_pos ⟨rfl, rfl⟩, reports, empty]
      rfl
    · obtain ⟨lasts, stored, bound⟩ := kept.keyed empty
      simp only [windowDue, stored, ne_eq, not_true, decide_false, Bool.false_or, Option.any_some,
        decide_eq_true_eq] at due
      exact .inr (bound.trans_lt due)
  · refine .inl (kept.same ?_ reports ?_)
    · rw [win, forget_window_win, if_neg here]
    · rw [expiry]
      split_ifs with ours
      · exact Function.update_of_ne (fun same => here ⟨ours, same.symm⟩) _ _
      · rfl

/-- A step within the time up to `now` keeps every bucket whose two windows are not over. -/
theorem bucket_step {now : Int} {label : Int × SiteOp} (written : WrittenFor spec eg label.2)
    (early : label.1 ≤ now) (stepped : windowRunStep spec eg state label = some next)
    (sound : BucketKept spec eg state bucket ∨ bucketLasts spec bucket < now) :
    BucketKept spec eg next bucket ∨ bucketLasts spec bucket < now := by
  obtain ⟨due, taken, expiry⟩ := window_run_step_cases stepped
  obtain ⟨outcome, performed, site, -⟩ := site_step_cases taken
  rcases sound with kept | ended
  · cases perform_windows performed with
    | still uncounted untouched same =>
      refine .inl (kept.same ?_ ?_ ?_)
      · rw [site, same]
      · rw [bucket_reports_step taken, uncounted]
        exact List.append_nil _
      · rw [expiry, window_expiry_still uncounted untouched]
    | counted args report win =>
      exact .inl (kept.count written taken report (site ▸ win) expiry)
    | dropped group other drop win =>
      rw [drop] at taken due expiry
      exact (kept.drop taken due (site ▸ win) expiry).imp id fun ended => ended.trans_le early
  · exact .inr ended

/-- Up to `now`, a bucket is complete as long as its two windows are not over. -/
theorem bucket_run {start : Site} {labels : List (Int × SiteOp)} {final : WindowRun} {now : Int}
    (fresh : ∀ bucket, start.win eg bucket = {})
    (written : ∀ label ∈ labels, WrittenFor spec eg label.2)
    (early : ∀ label ∈ labels, label.1 ≤ now)
    (reached : Machine.run (windowRunStep spec eg) (.start start) labels = some final)
    (bucket : Int) :
    BucketKept spec eg final bucket ∨ bucketLasts spec bucket < now := by
  have preserved : ∀ (state : WindowRun) (label : Int × SiteOp) (next : WindowRun),
      (BucketKept spec eg state bucket ∨ bucketLasts spec bucket < now) →
      (WrittenFor spec eg label.2 ∧ label.1 ≤ now) → windowRunStep spec eg state label = some next →
      (BucketKept spec eg next bucket ∨ bucketLasts spec bucket < now) :=
    fun state label next sound met stepped => bucket_step met.1 met.2 stepped sound
  have initial : BucketKept spec eg (.start start) bucket :=
    ⟨fresh bucket, fun some => absurd rfl some⟩
  exact Machine.run_invariant_under preserved (.inl initial)
    (Machine.under_and (Machine.under_of_all written) early) reached

end Buckets

/-! ## Evaluations -/

theorem tally_filter_split (reports : List ObserveArgs) (first second : ObserveArgs → Bool)
    (apart : ∀ args, first args = true → second args = false) :
    windowTally (reports.filter fun args => first args || second args) =
      { t := (windowTally (reports.filter first)).t + (windowTally (reports.filter second)).t
        s := (windowTally (reports.filter first)).s + (windowTally (reports.filter second)).s
        r := (windowTally (reports.filter first)).r +
          (windowTally (reports.filter second)).r } := by
  induction reports with
  | nil => rfl
  | cons args rest ih =>
    simp only [windowTally, WindowBucket.mk.injEq] at ih ⊢
    have other := apart args
    cases chosen : first args <;> cases taken : second args <;>
      simp_all [List.countP_cons] <;> omega

theorem bucket_fold {win : Int → WindowBucket} {reports : List ObserveArgs}
    {bucket : ObserveArgs → Int} (first : Int) (count : Nat)
    (each : ∀ k < count, win (first + k) =
      windowTally (reports.filter fun args => decide (bucket args = first + k))) :
    (List.range count).foldl
        (fun (sum : WindowBucket) (k : Nat) =>
          { t := sum.t + (win (first + k)).t
            s := sum.s + (win (first + k)).s
            r := sum.r + (win (first + k)).r }) {} =
      windowTally (reports.filter fun args =>
        decide (first ≤ bucket args ∧ bucket args < first + count)) := by
  induction count with
  | zero =>
    have none : reports.filter (fun args =>
        decide (first ≤ bucket args ∧ bucket args < first + (0 : Nat))) = [] := by
      rw [List.filter_eq_nil_iff]
      intro args _ inside
      simp only [decide_eq_true_eq] at inside
      omega
    rw [none]
    rfl
  | succ count ih =>
    have grown : (fun args =>
          decide (first ≤ bucket args ∧ bucket args < first + (count + 1 : Nat))) =
        fun args => decide (first ≤ bucket args ∧ bucket args < first + count) ||
          decide (bucket args = first + count) := by
      funext args
      rw [← Bool.decide_or]
      congr 1
      rw [eq_iff_iff]
      omega
    rw [List.range_succ, List.foldl_append, ih fun k below => each k (by omega), grown,
      tally_filter_split]
    · simp only [List.foldl_cons, List.foldl_nil, each count (Nat.lt_succ_self _)]
    · intro args inside
      simp only [decide_eq_true_eq, decide_eq_false_iff_not] at inside ⊢
      omega

/-- The bucket of the report is among the last ones at `now` and starts no earlier than `lc`. -/
def includedReport (spec : Option BreakerSpec) (now lc : Int) (args : ObserveArgs) : Bool :=
  let last := now / (paramsFor spec).bucketMs
  decide (last - (paramsFor spec).buckets < bucketOf spec args ∧ bucketOf spec args ≤ last ∧
    lc ≤ bucketOf spec args * (paramsFor spec).bucketMs)

section Evaluations

variable {spec : Option BreakerSpec} {eg : Hkey}

/-- None of the last buckets has outlived two windows. -/
theorem last_bucket_within {now bucket : Int}
    (roomy : (paramsFor spec).buckets ≤ 2 * (paramsFor spec).windowMs + 1)
    (recent : now / (paramsFor spec).bucketMs - (paramsFor spec).buckets < bucket) :
    now ≤ bucketLasts spec bucket := by
  have positive := params_bucket_pos spec
  have span := buckets_span spec roomy
  rw [← Int.lt_add_one_iff, bucketLasts]
  calc now < (now / (paramsFor spec).bucketMs + 1) * (paramsFor spec).bucketMs :=
        Int.lt_ediv_add_one_mul_self now positive
    _ ≤ (bucket + (paramsFor spec).buckets) * (paramsFor spec).bucketMs :=
        Int.mul_le_mul_of_nonneg_right (by omega) positive.le
    _ = bucket * (paramsFor spec).bucketMs +
          (paramsFor spec).buckets * (paramsFor spec).bucketMs := Int.add_mul ..
    _ ≤ bucket * (paramsFor spec).bucketMs + 2 * (paramsFor spec).windowMs + 1 := by omega

theorem visited_iff_included {now lc : Int} (since : 0 ≤ args.now) :
    let last := now / (paramsFor spec).bucketMs
    let opened := last - (paramsFor spec).buckets + 1
    let first := if 0 < lc then max opened (-((-lc) / (paramsFor spec).bucketMs)) else opened
    (first ≤ bucketOf spec args ∧ bucketOf spec args ≤ last ↔
      includedReport spec now lc args = true) := by
  have positive := params_bucket_pos spec
  have closed : -((-lc) / (paramsFor spec).bucketMs) ≤ bucketOf spec args ↔
      lc ≤ bucketOf spec args * (paramsFor spec).bucketMs := by
    have rounded : -bucketOf spec args ≤ -lc / (paramsFor spec).bucketMs ↔ _ :=
      Int.le_ediv_iff_mul_le positive
    rw [Int.neg_mul] at rounded
    omega
  have started : 0 ≤ bucketOf spec args * (paramsFor spec).bucketMs :=
    Int.mul_nonneg (Int.ediv_nonneg since positive.le) positive.le
  simp only [includedReport, decide_eq_true_eq]
  split_ifs <;> omega

theorem window_sum_included {site : Site} {reports : List ObserveArgs} {now lc : Int}
    (mode : EvalMode) (captcha : Nat) (since : ∀ args ∈ reports, 0 ≤ args.now)
    (complete : ∀ bucket, now / (paramsFor spec).bucketMs - (paramsFor spec).buckets < bucket →
      site.win eg bucket =
        windowTally (reports.filter fun args => decide (bucketOf spec args = bucket))) :
    windowSum (evalExec eg now (paramsFor spec) mode captcha) site lc =
      windowTally (reports.filter (includedReport spec now lc)) := by
  obtain ⟨length, count⟩ := eval_exec_lengths spec eg now mode captcha
  unfold windowSum
  rw [length, count]
  dsimp only [evalExec]
  set last := now / (paramsFor spec).bucketMs
  set first := if 0 < lc then
      max (last - (paramsFor spec).buckets + 1) (-(-lc / (paramsFor spec).bucketMs))
    else last - (paramsFor spec).buckets + 1 with lowest
  have lower : last - (paramsFor spec).buckets + 1 ≤ first := by
    rw [lowest]
    split_ifs <;> omega
  simp only [bind_pure_comp, List.map_eq_map, List.foldl_map]
  rw [bucket_fold first _ fun k _ => complete (first + k) (by omega)]
  congr 1
  refine List.filter_congr fun args member => ?_
  have visited : first ≤ bucketOf spec args ∧ bucketOf spec args ≤ last ↔ _ :=
    visited_iff_included (since args member)
  rw [Bool.eq_iff_iff, ← visited, decide_eq_true_eq]
  omega

end Evaluations

theorem window_reports_since {spec : Option BreakerSpec} {eg : Hkey} {start : Site}
    {labels : List (Int × SiteOp)} {final : WindowRun}
    (written : ∀ label ∈ labels, WrittenFor spec eg label.2)
    (reached : Machine.run (windowRunStep spec eg) (.start start) labels = some final) :
    ∀ args ∈ windowReports eg final.run.past, 0 ≤ args.now := by
  have preserved : ∀ (state : WindowRun) (label : Int × SiteOp) (next : WindowRun),
      (∀ args ∈ windowReports eg state.run.past, 0 ≤ args.now) → WrittenFor spec eg label.2 →
      windowRunStep spec eg state label = some next →
      ∀ args ∈ windowReports eg next.run.past, 0 ≤ args.now := by
    intro state label next since met stepped args member
    obtain ⟨-, taken, -⟩ := window_run_step_cases stepped
    rw [window_reports_step taken, List.mem_append, Option.mem_toList,
      Option.filter_eq_some_iff] at member
    rcases member with old | ⟨report, ours⟩
    · exact since args old
    · obtain ⟨shard, sid, same⟩ := counted_report_cases report
      rw [same] at met
      exact (met (of_decide_eq_true ours)).1
  refine Machine.run_invariant_under preserved ?_ (Machine.under_of_all written) reached
  exact fun args none => absurd none List.not_mem_nil

/-- Writer and evaluator agree on every policy, and an evaluation sums exactly the reports of the
last buckets that start at or after the last close, whose keys are all still there. -/
theorem breaker_window_agreement (spec : Option BreakerSpec) (eg : Hkey) :
    breakerWindow spec = ((paramsFor spec).windowMs, (paramsFor spec).bucketMs) ∧
    ((paramsFor spec).buckets ≤ 2 * (paramsFor spec).windowMs + 1 →
      ∀ (start : Site) (labels : List (Int × SiteOp)) (final : WindowRun) (now : Int)
        (mode : EvalMode) (captcha : Nat), (∀ bucket, start.win eg bucket = {}) →
        (∀ label ∈ labels, WrittenFor spec eg label.2) → (∀ label ∈ labels, label.1 ≤ now) →
        Machine.run (windowRunStep spec eg) (.start start) labels = some final →
        let reports := windowReports eg final.run.past
        let lc := (final.run.site.brk eg).lc
        (breakerEval (evalExec eg now (paramsFor spec) mode captcha) final.run.site).2.sum =
          windowTally (reports.filter (includedReport spec now lc)) ∧
        ∀ args ∈ reports, includedReport spec now lc args = true →
          ∃ expiry, final.expiry (bucketOf spec args) = some expiry ∧ now ≤ expiry) := by
  refine ⟨breaker_window_params spec, ?_⟩
  intro roomy start labels final now mode captcha fresh written early reached reports lc
  have complete : ∀ bucket,
      now / (paramsFor spec).bucketMs - (paramsFor spec).buckets < bucket →
      BucketKept spec eg final bucket := by
    intro bucket recent
    rcases bucket_run fresh written early reached bucket with kept | ended
    · exact kept
    · exact absurd ended (last_bucket_within roomy recent).not_gt
  constructor
  · have summed : windowSum _ final.run.site lc = _ := window_sum_included mode captcha
      (window_reports_since written reached) fun bucket recent => (complete bucket recent).tallied
    cases mode with
    | eval => exact summed
    | read => exact summed
  · intro args member included
    simp only [includedReport, decide_eq_true_eq] at included
    obtain ⟨expiry, stored, bound⟩ := (complete _ included.1).keyed
      (List.ne_nil_of_mem (List.mem_filter.mpr ⟨member, decide_eq_true rfl⟩))
    exact ⟨expiry, stored, (last_bucket_within roomy included.1).trans bound⟩

def bucketedReport (spec : Option BreakerSpec) (now : Int) : ObserveArgs :=
  { successReport now { lead := "a", shard := 0 } with winBucket := (winSuffix spec now).1 }

def reportedAt (spec : Option BreakerSpec) (now : Int) (sid : StreamId) : Int × SiteOp :=
  (now, .observe 0 sid (some (bucketedReport spec now)))

/-- Under the default policy, an evaluation sums the reports of the minute before it. -/
theorem breaker_window_minute :
    ∃ final, Machine.run (windowRunStep none 1) (.start {})
        [reportedAt none 1000 { ms := 1, seq := 0 }, reportedAt none 50000 { ms := 2, seq := 0 }] =
          some final ∧
      (breakerEval (evalExec 1 61000 (paramsFor none) .eval 0) final.run.site).2.sum =
        { t := 1, s := 1, r := 0 } := by
  refine ⟨_, rfl, ?_⟩
  have roomy : (paramsFor none).buckets ≤ 2 * (paramsFor none).windowMs + 1 := by decide
  have summed := ((breaker_window_agreement none 1).2 roomy {}
    [reportedAt none 1000 { ms := 1, seq := 0 }, reportedAt none 50000 { ms := 2, seq := 0 }]
    _ 61000 .eval 0 (fun _ => rfl) ?_ ?_ rfl).1
  · refine summed.trans ?_
    decide +kernel
  · simp [reportedAt, WrittenFor, bucketedReport, successReport]
  · simp [reportedAt]

/-- A policy that fails validation: sixty buckets in a window of one millisecond. -/
def splitMillisecond : BreakerSpec :=
  { newBreakerBase with window := ⟨1000000⟩, buckets := 60 }

/-- Its buckets are stretched to a millisecond each, so that an evaluation sums sixty
milliseconds, but their keys last for two. -/
theorem split_millisecond_loses_report :
    ∃ final, Machine.run (windowRunStep (some splitMillisecond) 1) (.start {})
        [reportedAt (some splitMillisecond) 1000 { ms := 1, seq := 0 },
          (1003, .forget (.window 1 1000))] = some final ∧
      windowReports 1 final.run.past = [bucketedReport (some splitMillisecond) 1000] ∧
      includedReport (some splitMillisecond) 1030 (final.run.site.brk 1).lc
        (bucketedReport (some splitMillisecond) 1000) = true ∧
      (breakerEval (evalExec 1 1030 (paramsFor (some splitMillisecond)) .eval 0)
        final.run.site).2.sum = {} := by
  refine ⟨_, rfl, rfl, by decide +kernel, by decide +kernel⟩

end Spinneret.Runs
