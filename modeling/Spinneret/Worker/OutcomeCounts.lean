import Mathlib.Tactic.Linarith
import Mathlib.Tactic.Ring
import Spinneret.Action.Apply
import Spinneret.HotState.Expiry
import Spinneret.Lib.Buckets
import Spinneret.Lib.Machine
import Spinneret.Worker.Checkpoint

/-!
# Sliding outcome counters over runs

A counter is a hash from bucket to count under a key with an expiry. A report raises the
current bucket of every key it asks for, drops the buckets before the window, sums the rest
and renews the expiry. The runs consist of reports in the order of time, resets of counters
by an operator, and anything else that leaves the counters alone.
-/

namespace Spinneret.Worker

open Spinneret.HotState Spinneret.Lib

set_option autoImplicit false

/-! ## Buckets of a window -/

def bucketMs (w : Int) : Int := max (w / 60) 1000

/-- The number of buckets that a window is counted over: `ceil(w / b)`. -/
def windowBuckets (w : Int) : Int := -((-w) / bucketMs w)

def lowestBucket (now w : Int) : Int := now / bucketMs w - windowBuckets w + 1

def bucketOf (w t : Int) : Int := t / bucketMs w

/-- The reports at `times` whose bucket is among the last ones of the window. -/
def countedAt (now w : Int) (times : List Int) : Int :=
  (times.countP fun t => decide (lowestBucket now w ≤ bucketOf w t) : Nat)

theorem bucket_ms_pos (w : Int) : 0 < bucketMs w := by
  unfold bucketMs
  omega

theorem window_buckets_bounds (w : Int) :
    w ≤ windowBuckets w * bucketMs w ∧ windowBuckets w * bucketMs w < w + bucketMs w := by
  have positive := bucket_ms_pos w
  have below := Int.ediv_mul_le (-w) (Int.ne_of_gt positive)
  have above := Int.lt_ediv_add_one_mul_self (-w) positive
  unfold windowBuckets
  constructor <;> nlinarith

theorem bucket_of_bounds (w t : Int) :
    bucketOf w t * bucketMs w ≤ t ∧ t < bucketOf w t * bucketMs w + bucketMs w := by
  have positive := bucket_ms_pos w
  have below := Int.ediv_mul_le t (Int.ne_of_gt positive)
  have above := Int.lt_ediv_add_one_mul_self t positive
  unfold bucketOf
  constructor <;> linarith

theorem lowest_bucket_mono {now later : Int} (w : Int) (le : now ≤ later) :
    lowestBucket now w ≤ lowestBucket later w := by
  have divided := Int.ediv_le_ediv (bucket_ms_pos w) le
  unfold lowestBucket
  omega

theorem current_bucket_counted {w : Int} (now : Int) (positive : 0 < w) :
    lowestBucket now w ≤ bucketOf w now := by
  have width := bucket_ms_pos w
  have some_ : 0 < windowBuckets w := by
    have bound := (window_buckets_bounds w).1
    by_contra none_
    nlinarith
  unfold lowestBucket bucketOf
  omega

/-- A report younger than the window less a bucket is counted. -/
theorem young_counted {now t w : Int} (young : now - t < w - bucketMs w) :
    lowestBucket now w ≤ bucketOf w t := by
  have width := bucket_ms_pos w
  obtain ⟨enough, -⟩ := window_buckets_bounds w
  obtain ⟨start, -⟩ := bucket_of_bounds w now
  refine (Int.le_ediv_iff_mul_le width).mpr ?_
  unfold bucketOf at start
  unfold lowestBucket
  nlinarith

/-- A report that is counted is younger than the window and a bucket. -/
theorem counted_young {now t w : Int} (counted : lowestBucket now w ≤ bucketOf w t) :
    now - t < w + bucketMs w := by
  have width := bucket_ms_pos w
  obtain ⟨-, few⟩ := window_buckets_bounds w
  obtain ⟨-, current⟩ := bucket_of_bounds w now
  have start := (Int.le_ediv_iff_mul_le width).mp counted
  unfold bucketOf at current
  unfold lowestBucket at start
  nlinarith

/-- What a key held when its expiry was last renewed is not counted once it is gone. -/
theorem stale_of_expired {now t w : Int} (gone : t + (w + bucketMs w) ≤ now) :
    bucketOf w t < lowestBucket now w := by
  by_contra held
  have young := counted_young (Int.not_lt.mp held)
  omega

theorem count_outcome_eq (now w : Int) (buckets : Table Int Int) :
    countOutcome now w buckets =
      (Table.fromKey (Buckets.count buckets (bucketOf w now)) (lowestBucket now w),
        ((Table.fromKey (Buckets.count buckets (bucketOf w now)) (lowestBucket now w)).entries.map
          fun entry => entry.2).sum) :=
  rfl

/-! ## The counters of one report -/

/-- The key of a requested counter, if the subject is known and the window is positive. -/
def requestKey (args : ObserveArgs) (i : Hkey) (acc : Option Hkey) (request : SubjectKind × Int) :
    Option CounterKey :=
  if 0 < request.2 then
    (counterSubject args i acc request.1).map fun subject =>
      { subject := subject, outcome := args.outcome, window := request.2 }
  else none

/-- The counter of `key` after it counts a report. -/
def countedKey (args : ObserveArgs) (site : Site) (key : CounterKey) : Table Int Int × Int :=
  countOutcome args.now key.window (site.cnt key)

/-- What the loop over the requests has done after those in `done`: every key asked for is
counted once, on the counter as it was before the loop. -/
structure Looped (args : ObserveArgs) (i : Hkey) (acc : Option Hkey) (site : Site)
    (done : List (SubjectKind × Int)) (state : Site × List (CounterKey × Int) × List Int) :
    Prop where
  cnt : ∀ key, state.1.cnt key =
    if key ∈ done.filterMap (requestKey args i acc) then (countedKey args site key).1
    else site.cnt key
  sums : ∀ key, state.2.1.lookup key =
    if key ∈ done.filterMap (requestKey args i acc) then some (countedKey args site key).2
    else none
  counts : state.2.2 = done.map fun request =>
    ((requestKey args i acc request).map fun key => (countedKey args site key).2).getD 0

variable {request : SubjectKind × Int} {key : CounterKey}

section Loop

variable {args : ObserveArgs} {i : Hkey} {acc : Option Hkey} {site : Site}
  {done : List (SubjectKind × Int)} {state : Site × List (CounterKey × Int) × List Int}

theorem Looped.skip (looped : Looped args i acc site done state)
    (unasked : requestKey args i acc request = none) :
    Looped args i acc site (done ++ [request]) (state.1, state.2.1, state.2.2 ++ [0]) := by
  have keys : (done ++ [request]).filterMap (requestKey args i acc) =
      done.filterMap (requestKey args i acc) := by
    rw [List.filterMap_append, List.filterMap_cons_none unasked, List.filterMap_nil,
      List.append_nil]
  constructor
  · rw [keys]
    exact looped.cnt
  · rw [keys]
    exact looped.sums
  · rw [List.map_append, ← looped.counts, List.map_singleton, unasked]
    rfl

theorem Looped.repeat (looped : Looped args i acc site done state)
    (asked : requestKey args i acc request = some key)
    (seen : key ∈ done.filterMap (requestKey args i acc)) :
    Looped args i acc site (done ++ [request])
      (state.1, state.2.1, state.2.2 ++ [(countedKey args site key).2]) := by
  have keys : ∀ other, other ∈ (done ++ [request]).filterMap (requestKey args i acc) ↔
      other ∈ done.filterMap (requestKey args i acc) := by
    intro other
    rw [List.filterMap_append, List.filterMap_cons_some asked, List.filterMap_nil, List.mem_append,
      List.mem_singleton]
    constructor
    · rintro (earlier | rfl)
      · exact earlier
      · exact seen
    · exact .inl
  constructor
  · simp only [keys]
    exact looped.cnt
  · simp only [keys]
    exact looped.sums
  · rw [List.map_append, ← looped.counts, List.map_singleton, asked]
    rfl

theorem Looped.count (looped : Looped args i acc site done state)
    (asked : requestKey args i acc request = some key) :
    Looped args i acc site (done ++ [request])
      ({ state.1 with cnt := Function.update state.1.cnt key (countedKey args site key).1 },
        (key, (countedKey args site key).2) :: state.2.1,
        state.2.2 ++ [(countedKey args site key).2]) := by
  have keys : ∀ other, other ∈ (done ++ [request]).filterMap (requestKey args i acc) ↔
      other ∈ done.filterMap (requestKey args i acc) ∨ other = key := by
    intro other
    rw [List.filterMap_append, List.filterMap_cons_some asked, List.filterMap_nil, List.mem_append,
      List.mem_singleton]
  constructor
  · intro other
    by_cases same : other = key
    · rw [same, if_pos ((keys key).mpr (.inr rfl))]
      exact Function.update_self ..
    · refine (Function.update_of_ne same _ _).trans ((looped.cnt other).trans ?_)
      exact if_congr ((keys other).trans (or_iff_left same)).symm rfl rfl
  · intro other
    by_cases same : other = key
    · rw [same, if_pos ((keys key).mpr (.inr rfl)), List.lookup_cons_self]
    · rw [List.lookup_cons, beq_false_of_ne same]
      refine (looped.sums other).trans ?_
      exact if_congr ((keys other).trans (or_iff_left same)).symm rfl rfl
  · rw [List.map_append, ← looped.counts, List.map_singleton, asked]
    rfl

theorem Looped.step (looped : Looped args i acc site done state) (request : SubjectKind × Int) :
    Looped args i acc site (done ++ [request]) (countRequest args i acc state request) := by
  unfold countRequest
  cases known : counterSubject args i acc request.1 with
  | none =>
    refine looped.skip ?_
    unfold requestKey
    rw [known]
    split_ifs <;> rfl
  | some subject =>
    dsimp only
    split_ifs with positive
    · have asked : requestKey args i acc request =
          some { subject := subject, outcome := args.outcome, window := request.2 } := by
        unfold requestKey
        rw [if_pos positive, known]
        rfl
      have sums := looped.sums
        { subject := subject, outcome := args.outcome, window := request.2 }
      by_cases seen : { subject := subject, outcome := args.outcome, window := request.2 } ∈
          done.filterMap (requestKey args i acc)
      · rw [sums, if_pos seen]
        exact looped.repeat asked seen
      · rw [sums, if_neg seen]
        have before := looped.cnt
          { subject := subject, outcome := args.outcome, window := request.2 }
        rw [if_neg seen] at before
        dsimp only
        rw [before]
        exact looped.count asked
    · refine looped.skip ?_
      unfold requestKey
      rw [if_neg positive]

theorem counter_loop (requests : List (SubjectKind × Int)) :
    Looped args i acc site requests
      (requests.foldl (countRequest args i acc) (site, [], [])) := by
  induction requests using List.reverseRecOn with
  | nil => exact ⟨fun _ => rfl, fun _ => rfl, rfl⟩
  | append_singleton requests request ih =>
    rw [List.foldl_append]
    exact ih.step request

end Loop

/-! ## Runs of reports -/

/-- The key that a report counted for one of its requests. A report counts nothing when its
identity is unknown, its group is suppressed or it comes late. -/
def requestedKey (args : ObserveArgs) (reply : ObserveReply) (request : SubjectKind × Int) :
    Option CounterKey :=
  if reply.idState.isSome ∧ reply.suppressed = false ∧ args.late = false then
    args.ident.bind fun i => requestKey args i reply.account request
  else none

def countedKeys (args : ObserveArgs) : Observed → List CounterKey
  | .applied reply => args.counters.filterMap (requestedKey args reply)
  | .dup | .checkpointed => []

/-- The hot state with the expiry times of its counters, the time of the last report, and
for every key the times of the reports counted for it. -/
structure Counting where
  site : Site
  clock : Int
  deadline : CounterKey → Option Int := fun _ => none
  history : CounterKey → List Int := fun _ => []

inductive CountEvent where
  | report (shard : Nat) (sid : StreamId) (args : ObserveArgs) (lapsed : List CounterKey)
  | reset (keys : List CounterKey)
  | other (site : Site)

def expireCounters (lapsed : List CounterKey) (site : Site) : Site :=
  lapsed.foldl (fun site key => forget site (.counter key)) site

/-- A call of the observe script; keys past their expiry may be gone before it. -/
def Counting.observe (s : Counting) (shard : Nat) (sid : StreamId) (args : ObserveArgs)
    (lapsed : List CounterKey) : Counting × Observed :=
  let result := Worker.observe shard sid (some args) (expireCounters lapsed s.site)
  let keys := countedKeys args result.2
  ({ site := result.1
     clock := args.now
     deadline := fun key =>
       if key ∈ keys then some (args.now + (key.window + bucketMs key.window))
       else if key ∈ lapsed then none else s.deadline key
     history := fun key => if key ∈ keys then s.history key ++ [args.now] else s.history key },
    result.2)

def countStep (s : Counting) : CountEvent → Option Counting
  | .report shard sid args lapsed =>
    if s.clock ≤ args.now ∧ ∀ key ∈ lapsed, (s.deadline key).any fun d => decide (d ≤ args.now)
    then some (s.observe shard sid args lapsed).1 else none
  | .reset keys =>
    some { s with
      site := Action.dropCounters keys s.site
      deadline := fun key => if key ∈ keys then none else s.deadline key
      history := fun key => if key ∈ keys then [] else s.history key }
  | .other site => some { s with site := { site with cnt := s.site.cnt } }

/-- Up to the buckets that no report counts any more, the counters agree with the reports. -/
structure Tallied (s : Counting) : Prop where
  past : ∀ key, ∀ t ∈ s.history key, t ≤ s.clock
  renewed : ∀ key d, s.deadline key = some d →
    ∀ t ∈ s.history key, t + (key.window + bucketMs key.window) ≤ d
  tallies : ∀ key, Buckets.Tallies (bucketOf key.window) (lowestBucket s.clock key.window)
    (s.history key) (s.site.cnt key)

theorem expire_counters_cnt (lapsed : List CounterKey) (site : Site) (key : CounterKey) :
    (expireCounters lapsed site).cnt key = if key ∈ lapsed then ∅ else site.cnt key := by
  induction lapsed generalizing site with
  | nil => rfl
  | cons first rest ih =>
    rw [expireCounters, List.foldl_cons]
    refine (ih _).trans ?_
    by_cases same : key = first
    · simp [forget, same]
    · simp [forget, same]

theorem drop_counters_cnt (keys : List CounterKey) (site : Site) (key : CounterKey) :
    (Action.dropCounters keys site).cnt key = if key ∈ keys then ∅ else site.cnt key := by
  unfold Action.dropCounters
  show keys.foldl (fun cnt key => Function.update cnt key ∅) site.cnt key = _
  induction keys generalizing site with
  | nil => rfl
  | cons first rest ih =>
    rw [List.foldl_cons]
    refine (ih { site with cnt := Function.update site.cnt first ∅ }).trans ?_
    by_cases same : key = first
    · simp [same]
    · simp [same]

theorem Counts.counters {args : ObserveArgs} {site : Site} {result : Site × ObserveReply}
    (counts : Counts args site result) :
    (∀ key, result.1.cnt key =
      if key ∈ args.counters.filterMap (requestedKey args result.2) then
        (countedKey args site key).1
      else site.cnt key) ∧
    result.2.counts = args.counters.map fun request =>
      ((requestedKey args result.2 request).map fun key =>
        (countedKey args site key).2).getD 0 := by
  cases counts with
  | silent kept why zeros =>
    have unasked : ∀ request, requestedKey args result.2 request = none := by
      intro request
      refine if_neg ?_
      rintro ⟨known, heard, timely⟩
      rcases why with unknown | suppressed | late
      · rw [unknown] at known
        cases known
      · exact Bool.false_ne_true (heard.symm.trans suppressed)
      · exact Bool.false_ne_true (timely.symm.trans late)
    constructor
    · intro key
      rw [kept.cnt, if_neg]
      intro listed
      obtain ⟨request, -, asked⟩ := List.mem_filterMap.mp listed
      rw [unasked] at asked
      cases asked
    · rw [zeros]
      refine List.map_congr_left fun request _ => ?_
      rw [unasked]
      rfl
  | @counted marked i acc after answered kept ident known account heard timely =>
    have asked : requestedKey args result.2 = requestKey args i acc := by
      funext request
      rw [requestedKey, if_pos ⟨known, heard, timely⟩, ident, account]
      rfl
    have same : countedKey args marked = countedKey args site := by
      funext key
      rw [countedKey, countedKey, kept.cnt]
    have looped := @counter_loop args i acc marked args.counters
    rw [asked]
    constructor
    · intro key
      rw [after, ← same, ← kept.cnt]
      exact looped.cnt key
    · rw [answered, ← same]
      exact looped.counts

theorem observe_counters (shard : Nat) (sid : StreamId) (args : ObserveArgs) (site : Site) :
    (∀ key, (observe shard sid (some args) site).1.cnt key =
      if key ∈ countedKeys args (observe shard sid (some args) site).2 then
        (countedKey args site key).1
      else site.cnt key) ∧
    ∀ reply, (observe shard sid (some args) site).2 = .applied reply →
      reply.counts = args.counters.map fun request =>
        ((requestedKey args reply request).map fun key => (countedKey args site key).2).getD 0 := by
  unfold observe
  split
  · exact ⟨fun _ => rfl, fun reply applied => by cases applied⟩
  · have counters := (observe_full_counts args
      { site with ckpt := Function.update site.ckpt shard (some sid) }).counters
    refine ⟨counters.1, fun reply applied => ?_⟩
    cases applied
    exact counters.2

theorem requested_window {args : ObserveArgs} {reply : ObserveReply}
    (asked : requestedKey args reply request = some key) : 0 < key.window := by
  unfold requestedKey at asked
  split_ifs at asked
  obtain ⟨i, -, asked⟩ := Option.bind_eq_some_iff.mp asked
  unfold requestKey at asked
  split_ifs at asked with positive
  obtain ⟨subject, -, rfl⟩ := Option.map_eq_some_iff.mp asked
  exact positive

theorem counted_keys_window {args : ObserveArgs} {observed : Observed}
    (counted : key ∈ countedKeys args observed) : 0 < key.window := by
  cases observed with
  | dup => cases counted
  | checkpointed => cases counted
  | applied reply =>
    obtain ⟨request, -, asked⟩ := List.mem_filterMap.mp counted
    exact requested_window asked

section Run

variable {s next : Counting} {shard : Nat} {sid : StreamId} {args : ObserveArgs}
  {lapsed : List CounterKey}

/-- A report that is taken: in the order of time, and after the expiry of what has lapsed. -/
structure Takes (s : Counting) (args : ObserveArgs) (lapsed : List CounterKey) : Prop where
  later : s.clock ≤ args.now
  expired : ∀ key ∈ lapsed, ∃ d, s.deadline key = some d ∧ d ≤ args.now

theorem count_step_report (stepped : countStep s (.report shard sid args lapsed) = some next) :
    Takes s args lapsed ∧ next = (s.observe shard sid args lapsed).1 := by
  simp only [countStep] at stepped
  split_ifs at stepped with taken
  refine ⟨⟨taken.1, fun key listed => ?_⟩, (Option.some.inj stepped).symm⟩
  obtain ⟨d, held, passed⟩ := (Option.any_eq_true _ _).mp (taken.2 key listed)
  exact ⟨d, held, of_decide_eq_true passed⟩

/-- A lapsed key held no report that is still counted. -/
theorem Tallied.lapsed_stale (tallied : Tallied s) (takes : Takes s args lapsed)
    (gone : key ∈ lapsed) :
    ∀ t ∈ s.history key, bucketOf key.window t < lowestBucket args.now key.window := by
  intro t listed
  obtain ⟨d, held, passed⟩ := takes.expired key gone
  exact stale_of_expired (Int.le_trans (tallied.renewed key d held t listed) passed)

theorem Tallied.before_report (tallied : Tallied s) (takes : Takes s args lapsed)
    (key : CounterKey) :
    Buckets.Tallies (bucketOf key.window) (lowestBucket args.now key.window) (s.history key)
      ((expireCounters lapsed s.site).cnt key) := by
  rw [expire_counters_cnt]
  by_cases gone : key ∈ lapsed
  · rw [if_pos gone]
    exact Buckets.tallies_empty (tallied.lapsed_stale takes gone)
  · rw [if_neg gone]
    exact (tallied.tallies key).mono (lowest_bucket_mono _ takes.later)

theorem Tallied.report (tallied : Tallied s) (takes : Takes s args lapsed) :
    Tallied (s.observe shard sid args lapsed).1 := by
  obtain ⟨counters, -⟩ := observe_counters shard sid args (expireCounters lapsed s.site)
  refine ⟨fun key t listed => ?_, fun key d held t listed => ?_, fun key => ?_⟩
  · simp only [Counting.observe] at listed ⊢
    split_ifs at listed with counted
    · rcases List.mem_append.mp listed with earlier | now
      · exact Int.le_trans (tallied.past key t earlier) takes.later
      · exact Int.le_of_eq (List.mem_singleton.mp now)
    · exact Int.le_trans (tallied.past key t listed) takes.later
  · simp only [Counting.observe] at held listed
    split_ifs at held listed with counted gone
    · cases held
      rcases List.mem_append.mp listed with earlier | now
      · have before := Int.le_trans (tallied.past key t earlier) takes.later
        omega
      · rw [List.mem_singleton.mp now]
    · exact tallied.renewed key d held t listed
  · have found := tallied.before_report takes key
    have after := counters key
    simp only [Counting.observe]
    split_ifs with counted
    · rw [after, if_pos counted, countedKey, count_outcome_eq]
      exact (found.count args.now).from_key
    · rw [after, if_neg counted]
      exact found

theorem Tallied.reset (tallied : Tallied s) (keys : List CounterKey) :
    Tallied { s with
      site := Action.dropCounters keys s.site
      deadline := fun key => if key ∈ keys then none else s.deadline key
      history := fun key => if key ∈ keys then [] else s.history key } := by
  refine ⟨fun key t listed => ?_, fun key d held t listed => ?_, fun key => ?_⟩
  · dsimp only at listed
    split_ifs at listed
    · cases listed
    · exact tallied.past key t listed
  · dsimp only at held listed
    split_ifs at held listed
    exact tallied.renewed key d held t listed
  · dsimp only
    rw [drop_counters_cnt]
    split_ifs
    · exact Buckets.tallies_empty nofun
    · exact tallied.tallies key

theorem tallied_step {event : CountEvent} (tallied : Tallied s)
    (stepped : countStep s event = some next) : Tallied next := by
  cases event with
  | report shard sid args lapsed =>
    obtain ⟨takes, rfl⟩ := count_step_report stepped
    exact tallied.report takes
  | reset keys =>
    cases stepped
    exact tallied.reset keys
  | other site =>
    cases stepped
    exact ⟨tallied.past, tallied.renewed, tallied.tallies⟩

end Run

/-- In every run of reports in the order of time, a report is answered with the number of
reports counted for each requested key whose bucket is among the last ones of the window.
The expiry of a key loses no bucket that is still counted, and a report raises the current
bucket of each of its keys once. -/
theorem outcome_counts_exact (site : Site) (fresh : ∀ key, site.cnt key = ∅) (clock : Int)
    (events : List CountEvent) (s : Counting)
    (reached : Machine.run countStep { site := site, clock := clock } events = some s)
    (shard : Nat) (sid : StreamId) (args : ObserveArgs) (lapsed : List CounterKey) (next : Counting)
    (stepped : countStep s (.report shard sid args lapsed) = some next) :
    (∀ reply, (s.observe shard sid args lapsed).2 = .applied reply →
      reply.counts = args.counters.map fun request =>
        ((requestedKey args reply request).map fun key =>
          countedAt args.now key.window (next.history key)).getD 0) ∧
    (∀ key ∈ countedKeys args (s.observe shard sid args lapsed).2,
      ((next.site.cnt key).lookup (bucketOf key.window args.now)).getD 0 =
          (((expireCounters lapsed s.site).cnt key).lookup
            (bucketOf key.window args.now)).getD 0 + 1 ∧
        ∀ t ∈ next.history key,
          (args.now - t < key.window - bucketMs key.window →
            lowestBucket args.now key.window ≤ bucketOf key.window t) ∧
          (lowestBucket args.now key.window ≤ bucketOf key.window t →
            args.now - t < key.window + bucketMs key.window)) ∧
    ∀ key ∈ lapsed, ∀ idx, lowestBucket args.now key.window ≤ idx →
      ((s.site.cnt key).lookup idx).getD 0 = 0 := by
  have initial : Tallied { site := site, clock := clock } := by
    refine ⟨nofun, nofun, fun key => ?_⟩
    rw [fresh key]
    exact Buckets.tallies_empty nofun
  have tallied : Tallied s :=
    Machine.run_invariant (fun _ _ _ held step => tallied_step held step) initial reached
  obtain ⟨takes, rfl⟩ := count_step_report stepped
  obtain ⟨counters, answers⟩ := observe_counters shard sid args (expireCounters lapsed s.site)
  refine ⟨fun reply applied => ?_, fun key counted => ⟨?_, fun t _ => ⟨young_counted,
    counted_young⟩⟩, fun key gone idx above => ?_⟩
  · rw [answers reply applied]
    refine List.map_congr_left fun request listed => ?_
    cases asked : requestedKey args reply request with
    | none => rfl
    | some key =>
      have counted : key ∈ countedKeys args
          (observe shard sid (some args) (expireCounters lapsed s.site)).2 := by
        have same : (observe shard sid (some args) (expireCounters lapsed s.site)).2 =
          .applied reply := applied
        rw [same]
        exact List.mem_filterMap.mpr ⟨request, listed, asked⟩
      have history : (s.observe shard sid args lapsed).1.history key =
          s.history key ++ [args.now] := if_pos counted
      rw [Option.map_some, Option.map_some, history, countedKey, count_outcome_eq]
      exact ((tallied.before_report takes key).count args.now).sum
  · have after := (counters key).trans (if_pos counted)
    rw [countedKey, count_outcome_eq] at after
    show (((observe shard sid (some args) (expireCounters lapsed s.site)).1.cnt key).lookup _).getD
      0 = _
    rw [after, Buckets.lookup_from_key
      (current_bucket_counted args.now (counted_keys_window counted)), Buckets.lookup_count]
    rfl
  · have older := lowest_bucket_mono key.window takes.later
    have none_ : (s.history key).countP (fun t => decide (bucketOf key.window t = idx)) = 0 := by
      refine List.countP_eq_zero.mpr fun t listed same => ?_
      have stale := tallied.lapsed_stale takes gone t listed
      rw [of_decide_eq_true same] at stale
      omega
    rw [tallied.tallies key idx (Int.le_trans older above), none_]
    rfl

def countedIdentity : Identity :=
  { iid := "idn1", st := .active, ty := "cookie", tv := "", pv := "", acc := none, rg := "",
    bu := 0, qu := 0, act := 0, px := none, sct := 0 }

def countedSite : Site := { id := fun i => if i = 1 then some countedIdentity else none }

/-- A report of that identity which asks for its counter twice. -/
def minuteReport (now : Int) : ObserveArgs :=
  { successReport now { lead := "lse", shard := 0 } with
    ident := some 1, counters := [(.identity, 60000), (.account, 60000)] }

def minuteReports : List CountEvent :=
  [.report 0 { ms := 1, seq := 0 } (minuteReport 500) [],
   .report 0 { ms := 2, seq := 0 } (minuteReport 30000) []]

def appliedCounts : Observed → List Int
  | .applied reply => reply.counts
  | _ => []

/-- Of the reports at 0.5, 30 and 61 seconds, the last minute holds two. -/
theorem minute_counts_two :
    ∃ s next reply, Machine.run countStep { site := countedSite, clock := 0 } minuteReports =
        some s ∧
      countStep s (.report 0 { ms := 3, seq := 0 } (minuteReport 61000) []) = some next ∧
      (s.observe 0 { ms := 3, seq := 0 } (minuteReport 61000) []).2 = .applied reply ∧
      reply.counts = [2, 2] ∧
      reply.counts = (minuteReport 61000).counters.map fun request =>
        ((requestedKey (minuteReport 61000) reply request).map fun key =>
          countedAt 61000 key.window (next.history key)).getD 0 := by
  have ran : (Machine.run countStep { site := countedSite, clock := 0 } minuteReports).map
      (fun s => ((countStep s (.report 0 { ms := 3, seq := 0 } (minuteReport 61000) [])).isSome,
        appliedCounts (s.observe 0 { ms := 3, seq := 0 } (minuteReport 61000) []).2)) =
      some (true, [2, 2]) := by
    decide +kernel
  obtain ⟨s, reached, same⟩ := Option.map_eq_some_iff.mp ran
  obtain ⟨taken, counts⟩ := Prod.mk.inj same
  obtain ⟨next, stepped⟩ := Option.isSome_iff_exists.mp taken
  cases answer : (s.observe 0 { ms := 3, seq := 0 } (minuteReport 61000) []).2 with
  | dup =>
    rw [answer] at counts
    cases counts
  | checkpointed =>
    rw [answer] at counts
    cases counts
  | applied reply =>
    rw [answer] at counts
    exact ⟨s, next, reply, reached, stepped, answer, counts,
      (outcome_counts_exact countedSite (fun _ => rfl) 0 minuteReports s reached 0
        { ms := 3, seq := 0 } (minuteReport 61000) [] next stepped).1 reply answer⟩

end Spinneret.Worker
