import Spinneret.Runs.LeaseAccounting
import Spinneret.Runs.LeaseLife

/-!
# Retention of lease hashes

Reports are processed some time after they were ingested, and the worker still
needs the lease hash then. An active hash never expires; ending a lease sets an
expiry, and every timely report pushes it back. Here the scripts run under a
clock that never goes back, and Redis drops a hash only after its expiry time
on the same clock.
-/

namespace Spinneret.Runs

open Spinneret.HotState Spinneret.Lib Spinneret.Scheduler Spinneret.Worker Spinneret.Action
open Spinneret.Breakers

set_option autoImplicit false

/-! ## Runs under a clock -/

structure TimedRun where
  run : SiteRun
  time : Int

/-- Redis drops a hash only after its expiry time. -/
def due (site : Site) (time : Int) : SiteOp → Bool
  | .expire lid => ((site.ls.lookup lid).bind Lease.expireAt).all fun expiry => decide (expiry < time)
  | _ => true

/-- One step at a time not before the last one; a script is called with that time. -/
def timedStep (state : TimedRun) (label : Int × SiteOp) : Option TimedRun :=
  if state.time ≤ label.1 ∧ (label.2.clock.all fun now => decide (now = label.1)) = true ∧
      due state.run.site label.1 label.2 = true then
    (siteStep state.run label.2).map fun run => { run := run, time := label.1 }
  else none

variable {state next : TimedRun} {label : Int × SiteOp} {lease : Lease} {limit : Int}
  {lid : LeaseId}

theorem timed_step_cases (stepped : timedStep state label = some next) :
    state.time ≤ label.1 ∧ next.time = label.1 ∧ (∀ now, label.2.clock = some now → now = label.1) ∧
      due state.run.site label.1 label.2 = true ∧ siteStep state.run label.2 = some next.run := by
  simp only [timedStep, Option.ite_none_right_eq_some, Option.map_eq_some_iff] at stepped
  obtain ⟨⟨later, called, due⟩, run, taken, rfl⟩ := stepped
  refine ⟨later, rfl, fun now clock => ?_, due, taken⟩
  simpa [clock] using called

structure Windows where
  late : Int
  retain : Int

def Configured (windows : Windows) : SiteOp → Prop
  | .release args => args.late = windows.late
  | .reap args => args.late = windows.late
  | .retain args => args.late = windows.late ∧ args.retain = windows.retain
  | _ => True

/-! ## Hashes that are kept -/

/-- The hash does not expire before `limit`, nor will ending the lease let it. -/
structure Kept (limit : Int) (lease : Lease) : Prop where
  expiry : ∀ expiry, lease.expireAt = some expiry → limit ≤ expiry
  ending : lease.st = .active → limit ≤ lease.kx

theorem ended_kept {limit now late endMs : Int} {state : LeaseState} (kept : Kept limit lease)
    (active : lease.st = .active) (ends : state ≠ .active) (early : now < limit) :
    ∃ left, endedLease lease state endMs now late = some left ∧ Kept limit left := by
  have reach := kept.ending active
  have positive : ¬max late (lease.kx - now) ≤ 0 := by omega
  refine ⟨_, if_neg positive, ?_, fun still => absurd still ends⟩
  intro expiry same
  obtain rfl := Option.some.inj same
  omega

theorem raised_reaches {limit time : Int} {old : Option Int}
    (reach : ∀ current, old = some current → limit ≤ max current time) :
    ∀ expiry, raiseExpiry time old = some expiry → limit ≤ expiry := by
  intro expiry raised
  cases old with
  | none => cases raised
  | some current => exact Option.some.inj raised ▸ reach current rfl

theorem retained_kept (args : RetainArgs) (count : Int) (kept : Kept limit lease) :
    Kept limit (retained args lease count) := by
  unfold retained
  dsimp only
  split_ifs with timely active
  · exact ⟨kept.expiry, fun still => (kept.ending still).trans (le_max_left _ _)⟩
  · refine ⟨raised_reaches fun current old => ?_, fun still => absurd still active⟩
    exact (kept.expiry current old).trans (le_max_left _ _)
  · exact ⟨kept.expiry, kept.ending⟩

theorem move_kept {limit time : Int} {op : SiteOp} {replies : List LeaseReply}
    {after : Option Lease} (kept : Kept limit lease) (early : time < limit)
    (clock : ∀ now, op.clock = some now → now = time)
    (due : op = .expire lid → ∀ expiry, lease.expireAt = some expiry → expiry < time)
    (drawn : lid.lead ∉ op.leads) (move : LeaseMove lid op replies (some lease) after) :
    ∃ left, after = some left ∧ Kept limit left := by
  cases move with
  | issued issued replied => exact absurd issued drawn
  | renewed active running short => exact ⟨_, rfl, kept.expiry, kept.ending⟩
  | released active =>
    exact ended_kept kept active (by decide) ((clock _ rfl).trans_lt early)
  | reaped active =>
    exact ended_kept kept active (by decide) ((clock _ rfl).trans_lt early)
  | counted => exact ⟨_, rfl, kept.expiry, kept.ending⟩
  | retained => exact ⟨_, rfl, retained_kept _ _ kept⟩
  | expired lapses =>
    obtain ⟨expiry, stored⟩ := Option.isSome_iff_exists.mp lapses
    have passed := due rfl expiry stored
    have bound := kept.expiry expiry stored
    omega

/-- The hash is there and is kept up to `limit`. -/
def KeptUntil (limit : Int) (lid : LeaseId) (site : Site) : Prop :=
  ∃ lease, site.ls.lookup lid = some lease ∧ Kept limit lease

theorem kept_step (kept : KeptUntil limit lid state.run.site) (booked : Booked state.run)
    (orderly : Orderly state.run label.2) (stepped : timedStep state label = some next)
    (early : next.time < limit) : KeptUntil limit lid next.run.site := by
  obtain ⟨lease, stored, kept⟩ := kept
  obtain ⟨-, time, clock, timely, taken⟩ := timed_step_cases stepped
  obtain ⟨outcome, performed, site, -⟩ := site_step_cases taken
  rw [time] at early
  have drawn : lid.lead ∉ label.2.leads := by
    intro again
    have used := booked.leads lid (AList.lookup_isSome.mp (Option.isSome_of_mem stored))
    exact (List.nodup_append.mp orderly.fresh).2.2 lid.lead used lid.lead again rfl
  have chain := perform_moves performed lid
  rw [stored] at chain
  rw [site]
  -- an expiry is a single move, so the hash it meets is the one of the state
  have along : ∃ left, outcome.site.ls.lookup lid = some left ∧ Kept limit left ∧
      (label.2 = .expire lid → left = lease) := by
    generalize outcome.site.ls.lookup lid = after at chain
    induction chain with
    | refl => exact ⟨lease, rfl, kept, fun _ => rfl⟩
    | tail _ move ih =>
      obtain ⟨between, rfl, held, same⟩ := ih
      obtain ⟨left, rfl, still⟩ := move_kept held early clock (fun expires expiry found => by
        rw [expires, due] at timely
        rw [same expires] at found
        simpa [stored, found] using timely) drawn move
      refine ⟨left, rfl, still, fun expires => ?_⟩
      rw [expires] at move
      cases move
  obtain ⟨left, found, still, -⟩ := along
  exact ⟨left, found, still⟩

/-! ## What begins a retention -/

theorem retained_begins {args : RetainArgs} (count : Int)
    (persistent : lease.st = .active → lease.expireAt = none) (fresh : timely args lease = true) :
    Kept (args.now + args.retain) (retained args lease count) := by
  unfold retained
  dsimp only
  rw [if_pos fresh]
  split_ifs with active
  · refine ⟨fun expiry found => ?_, fun _ => le_max_right _ _⟩
    have none : lease.expireAt = none := persistent active
    simp [none] at found
  · exact ⟨raised_reaches fun _ _ => le_max_right _ _, fun still => absurd still active⟩

theorem retained_alike (args : RetainArgs) (lease : Lease) (count : Int) :
    (retained args lease count).ns = lease.ns ∧ (retained args lease count).st = lease.st ∧
      (retained args lease count).ended = lease.ended := by
  unfold retained
  dsimp only
  split_ifs <;> exact ⟨rfl, rfl, rfl⟩

/-- The reports of one call, with the hash of `lid` timely all along. -/
theorem retain_fold_kept {args : RetainArgs} (reports : List (LeaseId × Int)) {site : Site}
    (stored : site.ls.lookup lid = some lease) (own : lease.ns = args.ns)
    (fresh : timely args lease = true) (persistent : lease.st = .active → lease.expireAt = none)
    (counted : Kept (args.now + args.retain) lease ∨ ∃ count, (lid, count) ∈ reports) :
    KeptUntil (args.now + args.retain) lid (reports.foldl (retainOne args) site) := by
  induction reports generalizing site lease with
  | nil =>
    rcases counted with kept | ⟨count, none⟩
    · exact ⟨lease, stored, kept⟩
    · cases none
  | cons report rest ih =>
    rw [List.foldl_cons]
    by_cases here : report.1 = lid
    · subst here
      obtain ⟨ns, st, ended⟩ := retained_alike args lease report.2
      have written : retainOne args site report =
          { site with ls := site.ls.insert report.1 (retained args lease report.2) } := by
        simp only [retainOne, stored, own, if_true]
      have begun := retained_begins report.2 persistent fresh
      rw [written]
      refine ih (AList.lookup_insert _) (ns.trans own) ?_ ?_ (.inl begun)
      · simpa only [timely, st, ended] using fresh
      · intro active
        rw [st] at active
        have counted := (retained_spec args lease report.2).2.2.2.2 active
        exact counted.trans (persistent active)
    · have untouched : (retainOne args site report).ls.lookup lid = some lease := by
        unfold retainOne
        split
        · exact stored
        · split
          · rw [AList.lookup_insert_ne (Ne.symm here)]
            exact stored
          · exact stored
      refine ih untouched own fresh persistent (counted.imp_right ?_)
      rintro ⟨count, member⟩
      rcases List.mem_cons.mp member with same | later
      · exact absurd (congrArg Prod.fst same).symm here
      · exact ⟨count, later⟩

/-- While a step ends a lease: the hash is active, or kept for the late report window, or
gone because the window is over at once. -/
def Ending (limit time : Int) : Option Lease → Prop
  | some lease => lease.st = .active ∨ Kept limit lease
  | none => limit ≤ time

theorem ended_ending {late time endMs : Int} {state : LeaseState} (ends : state ≠ .active) :
    Ending (time + late) time (endedLease lease state endMs time late) := by
  unfold endedLease
  split
  · next ended =>
    have bound := le_max_left late (lease.kx - time)
    simp only [Ending]
    omega
  · refine .inr ⟨fun expiry same => ?_, fun still => absurd still ends⟩
    obtain rfl := Option.some.inj same
    have bound := le_max_left late (lease.kx - time)
    omega

theorem move_ending {windows : Windows} {time : Int} {op : SiteOp} {replies : List LeaseReply}
    {before after : Option Lease} (ending : Ending (time + windows.late) time before)
    (clock : ∀ now, op.clock = some now → now = time) (configured : Configured windows op)
    (other : op ≠ .expire lid) (move : LeaseMove lid op replies before after) :
    Ending (time + windows.late) time after := by
  cases move with
  | issued drawn replied => exact .inl rfl
  | renewed active running short => exact .inl active
  | released active =>
    obtain rfl := clock _ rfl
    rw [← show _ = windows.late from configured]
    exact ended_ending (by decide)
  | reaped active =>
    obtain rfl := clock _ rfl
    rw [← show _ = windows.late from configured]
    exact ended_ending (by decide)
  | counted => exact ending.imp id fun kept => ⟨kept.expiry, kept.ending⟩
  | @retained args lease count replies =>
    refine ending.imp (fun active => ?_) (retained_kept args count)
    rw [(retained_alike args lease count).2.1]
    exact active
  | expired lapses => exact absurd rfl other

/-! ## Runs -/

/-- A hash that was kept up to `limit` stays until the clock reaches it. -/
theorem kept_run {state final : TimedRun} {labels : List (Int × SiteOp)} (booked : Booked state.run)
    (kept : limit ≤ state.time ∨ KeptUntil limit lid state.run.site)
    (orderly : Machine.Under timedStep (fun state label => Orderly state.run label.2) state labels)
    (reached : Machine.run timedStep state labels = some final) :
    limit ≤ final.time ∨ KeptUntil limit lid final.run.site := by
  have preserved : ∀ (state : TimedRun) (label : Int × SiteOp) (next : TimedRun),
      (Booked state.run ∧ (limit ≤ state.time ∨ KeptUntil limit lid state.run.site)) →
      Orderly state.run label.2 → timedStep state label = some next →
      Booked next.run ∧ (limit ≤ next.time ∨ KeptUntil limit lid next.run.site) := by
    rintro state label next ⟨booked, kept⟩ met stepped
    obtain ⟨later, time, -, -, taken⟩ := timed_step_cases stepped
    refine ⟨(booked_step booked met taken).1, ?_⟩
    by_cases ended : limit ≤ next.time
    · exact .inl ended
    · rcases kept with reached | kept
      · omega
      · exact .inr (kept_step kept booked met stepped (not_le.mp ended))
  exact (Machine.run_invariant_under preserved ⟨booked, kept⟩ orderly reached).2

/-- The hash is there and does not expire before `limit`. -/
def Available (limit : Int) (lid : LeaseId) (site : Site) : Prop :=
  ∃ lease, site.ls.lookup lid = some lease ∧
    ∀ expiry, lease.expireAt = some expiry → limit ≤ expiry

theorem KeptUntil.available {site : Site} (kept : KeptUntil limit lid site) :
    Available limit lid site := by
  obtain ⟨lease, stored, kept⟩ := kept
  exact ⟨lease, stored, kept.expiry⟩

/-- A step that ends a lease keeps its hash for the late report window. -/
theorem ended_step {windows : Windows} (booked : Booked state.run)
    (configured : Configured windows label.2) (stepped : timedStep state label = some next)
    (stored : state.run.site.ls.lookup lid = some lease) (active : lease.st = .active)
    (ended : ∀ left, next.run.site.ls.lookup lid = some left → left.st ≠ .active) :
    label.1 + windows.late ≤ next.time ∨
      KeptUntil (label.1 + windows.late) lid next.run.site := by
  obtain ⟨-, time, clock, -, taken⟩ := timed_step_cases stepped
  obtain ⟨outcome, performed, site, -⟩ := site_step_cases taken
  have persistent := booked.accounted.persistent lid lease stored active
  have other : label.2 ≠ .expire lid := by
    intro expires
    rw [expires] at performed
    simp [perform, expireLease, stored, persistent] at performed
  have chain := perform_moves performed lid
  rw [stored] at chain
  have along : Ending (label.1 + windows.late) label.1 (outcome.site.ls.lookup lid) := by
    generalize outcome.site.ls.lookup lid = after at chain
    induction chain with
    | refl => exact .inl active
    | tail _ move ih => exact move_ending ih clock configured other move
  rw [← site] at along
  cases found : next.run.site.ls.lookup lid with
  | none =>
    rw [found] at along
    exact .inl (time ▸ along)
  | some left =>
    rw [found] at along
    exact .inr ⟨left, found, along.resolve_left (ended left found)⟩

theorem ingested_step {windows : Windows} {args : RetainArgs} {count : Int}
    (booked : Booked state.run) (configured : Configured windows label.2)
    (stepped : timedStep state label = some next) (ingests : label.2 = .retain args)
    (reported : (lid, count) ∈ args.reports) (stored : state.run.site.ls.lookup lid = some lease)
    (own : lease.ns = args.ns) (fresh : lease.st = .active ∨ label.1 - lease.ended ≤ windows.late) :
    KeptUntil (label.1 + windows.retain) lid next.run.site := by
  obtain ⟨-, -, clock, -, taken⟩ := timed_step_cases stepped
  obtain ⟨outcome, performed, site, -⟩ := site_step_cases taken
  rw [ingests] at configured performed clock
  obtain ⟨late, retain⟩ := configured
  have now : args.now = label.1 := clock _ rfl
  cases performed
  rw [site, ← now, ← retain]
  have timely : timely args lease = true := by
    simp only [HotState.timely, decide_eq_true_eq]
    rw [now, late]
    exact fresh.imp_right .inr
  exact retain_fold_kept args.reports stored own timely
    (booked.accounted.persistent lid lease stored) (.inr ⟨count, reported⟩)

/-- Report retention: in every run of the scripts under a clock that never goes back, an
active lease hash has no expiry; once a timely report is ingested, the hash is there and
does not expire before the retention is over; and once a lease ends, before the late
report window is over. -/
theorem report_retention {start : Site} {time : Int} {windows : Windows}
    {labels : List (Int × SiteOp)} {final : TimedRun} (leaseless : Leaseless start)
    (orderly : Machine.Under timedStep (fun state label => Orderly state.run label.2)
      { run := SiteRun.start start, time := time } labels)
    (configured : ∀ label ∈ labels, Configured windows label.2)
    (reached : Machine.run timedStep { run := SiteRun.start start, time := time } labels =
      some final) :
    (∀ lid lease, final.run.site.ls.lookup lid = some lease → lease.st = .active →
      lease.expireAt = none) ∧
    ∀ first label second state next, labels = first ++ label :: second →
      Machine.run timedStep { run := SiteRun.start start, time := time } first = some state →
      timedStep state label = some next →
      ∀ lid lease, state.run.site.ls.lookup lid = some lease →
        (∀ args count, label.2 = .retain args → (lid, count) ∈ args.reports →
          lease.ns = args.ns → (lease.st = .active ∨ label.1 - lease.ended ≤ windows.late) →
          final.time < label.1 + windows.retain →
          Available (label.1 + windows.retain) lid final.run.site) ∧
        (lease.st = .active →
          (∀ left, next.run.site.ls.lookup lid = some left → left.st ≠ .active) →
          final.time < label.1 + windows.late →
          Available (label.1 + windows.late) lid final.run.site) := by
  have preserved : ∀ (state : TimedRun) (label : Int × SiteOp) (next : TimedRun),
      Booked state.run → Orderly state.run label.2 → timedStep state label = some next →
      Booked next.run := fun state label next booked met stepped =>
    (booked_step booked met (timed_step_cases stepped).2.2.2.2).1
  have booked := Machine.run_invariant_under preserved leaseless.booked orderly reached
  refine ⟨booked.accounted.persistent, ?_⟩
  rintro first label second state next rfl before stepped lid lease stored
  obtain ⟨early, later⟩ := Machine.under_append orderly
  have bookedState := Machine.run_invariant_under preserved leaseless.booked early before
  obtain ⟨met, rest⟩ := later state before
  have bookedNext := preserved state label next bookedState met stepped
  have settings := configured label (List.mem_append_right _ List.mem_cons_self)
  have finished : Machine.run timedStep next second = some final := by
    obtain ⟨middle, again, after⟩ := Machine.run_append.mp reached
    obtain rfl := Option.some.inj (before.symm.trans again)
    obtain ⟨other, taken, finished⟩ := Machine.run_cons_eq_some.mp after
    obtain rfl := Option.some.inj (stepped.symm.trans taken)
    exact finished
  constructor
  · intro args count ingests reported own fresh within
    have kept := ingested_step bookedState settings stepped ingests reported stored own fresh
    exact ((kept_run bookedNext (.inr kept) (rest next stepped) finished).resolve_left
      (not_le.mpr within)).available
  · intro active ended within
    have kept := ended_step bookedState settings stepped stored active ended
    exact ((kept_run bookedNext kept (rest next stepped) finished).resolve_left
      (not_le.mpr within)).available

/-- A report on a running lease, which is then released; a reaper run follows. -/
def reportedRun : List (Int × SiteOp) :=
  [(1000, .acquire (plainAcquire 1 1000 "a")),
    (2000, .retain { ns := "", now := 2000, retain := 86400000, late := 600000
                     reports := [(soloLease, 1)] }),
    (3000, .release { now := 3000, lid := soloLease, late := 600000, ns := none, abort := false
                      windows := [], layout := [] }),
    (4000, .reap { now := 4000, limit := 500, late := 600000, layout := [] })]

theorem reported_lease_kept :
    ∃ final, Machine.run timedStep { run := SiteRun.start soloSite, time := 0 } reportedRun =
        some final ∧
      Available (2000 + 86400000) soloLease final.run.site ∧
      Available (3000 + 600000) soloLease final.run.site := by
  refine ⟨_, rfl, ?_⟩
  have orderly : Machine.Under timedStep (fun state label => Orderly state.run label.2)
      { run := SiteRun.start soloSite, time := 0 } reportedRun := by
    refine Machine.under_cons rfl ⟨by decide, by decide⟩ ?_
    refine Machine.under_cons rfl ⟨by decide, by decide⟩ ?_
    refine Machine.under_cons rfl ⟨by decide, by decide⟩ ?_
    exact Machine.under_cons rfl ⟨by decide, by decide⟩ trivial
  have configured : ∀ label ∈ reportedRun,
      Configured { late := 600000, retain := 86400000 } label.2 := by
    simp [reportedRun, Configured]
  have retention := (report_retention solo_site_leaseless orderly configured rfl).2
  constructor
  · exact (retention [_] _ [_, _] _ _ rfl rfl rfl soloLease _ rfl).1 _ 1 rfl
      (List.mem_singleton_self _) rfl (.inl rfl) (by decide)
  · exact (retention [_, _] _ [_] _ _ rfl rfl rfl soloLease _ rfl).2 rfl
      (fun left found => by obtain rfl := Option.some.inj found; decide) (by decide)

end Spinneret.Runs
