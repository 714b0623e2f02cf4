import Spinneret.Runs.LeaseAccounting
import Spinneret.Runs.LeaseTrace
import Spinneret.Scheduler.ReuseValue

/-!
# Reuse values under aborts

A lease with an `acquired` reuse anchor raises the reuse value of its identity and
remembers the value before it. Its abort brings this value back if the stored one is
still the one the lease asked for. Whether the reuse value stays the latest end that any
lease asks for which was not aborted is decided by the order of issues and aborts alone.
-/

namespace Spinneret.Runs

open Spinneret.HotState Spinneret.Lib Spinneret.Scheduler

set_option autoImplicit false

/-! ## Standing leases -/

/-- An acquire adds the leases it issued, an abort takes its lease away. -/
def Event.stand (standing : List Stood) (event : Event) : List Stood :=
  match event.op with
  | .acquire _ => (issuedLeases event.outcome.site event.outcome.leases).foldl standBehind standing
  | .release args =>
    if (abortedLease args event.before).isSome then
      standing.filter fun stood => decide (stood.entry.1 ≠ args.lid)
    else standing
  | _ => standing

/-- The leases issued in the run that were not aborted, each with those that stood at its issue. -/
def SiteRun.stood (run : SiteRun) : List Stood := run.past.foldl Event.stand []

def SiteRun.standing (run : SiteRun) : List (LeaseId × Lease) := run.stood.map Stood.entry

/-- Calls that acquire with an `acquired` anchor, and releases and aborts of leases that were
not there at the start. -/
def Reuses (start : Site) : SiteOp → Prop
  | .acquire args => args.ra = .acquired
  | .release args => args.lid ∉ start.ls
  | _ => False

/-- Every active lease of the run stands, under an id of its own, with an `acquired` anchor
and with the hashes its abort writes to. -/
structure Standing (start : Site) (run : SiteRun) : Prop where
  keys : (run.standing.map Prod.fst).Nodup
  drawn : ∀ entry ∈ run.standing, entry.1.lead ∈ run.used
  active : ∀ lid lease, run.site.ls.lookup lid = some lease → lease.st = .active →
    lid ∉ start.ls → (lid, lease) ∈ run.standing
  anchored : ∀ entry ∈ run.standing, entry.2.ra = .acquired
  present : ∀ entry ∈ run.standing,
    (run.site.id entry.2.i).isSome ∧ (run.site.hs entry.2.e entry.2.i).isSome

theorem stood_step {run next : SiteRun} {op : SiteOp} {outcome : Outcome}
    (past : next.past = run.past ++ [{ op := op, before := run.site, outcome := outcome }]) :
    next.stood = Event.stand run.stood { op := op, before := run.site, outcome := outcome } := by
  rw [SiteRun.stood, past, List.foldl_append]
  rfl

/-- The reuse value is the latest end of the standing leases, and every one of them remembers
what its abort is to bring back. -/
structure Exact (slot : ReuseSlot) (before : Int) (run : SiteRun) : Prop where
  value : slot.value run.site = slot.due before run.standing
  remembered : ∀ stood ∈ run.stood, slot.Remembers before stood

theorem acquire_standing {start : Site} {run next : SiteRun} {args : AcquireArgs}
    (stood : Standing start run) (fresh : (run.used ++ args.prefixes).Nodup)
    (anchor : args.ra = .acquired) (stepped : siteStep run (.acquire args) = some next) :
    Standing start next ∧ ∀ (slot : ReuseSlot) (before : Int),
      Exact slot before run → Exact slot before next := by
  have used := used_step stepped
  obtain ⟨outcome, performed, site, past⟩ := site_step_cases stepped
  cases performed
  obtain ⟨issues, replied, leads, each, hashes, retains, values⟩ :=
    acquire_reuse args run.site (List.nodup_append.mp fresh).2.1
  have queued : next.stood = issues.foldl standBehind run.stood := by
    rw [stood_step past, ← replied]
    rfl
  have stands : next.standing = run.standing ++ issues := by
    rw [SiteRun.standing, queued, stand_behind_entries]
    rfl
  have keys : (issues.map Prod.fst).Nodup := by
    refine List.Nodup.of_map LeaseId.lead ?_
    rwa [List.map_map]
  refine ⟨⟨?_, ?_, ?_, ?_, ?_⟩, ?_⟩
  · rw [stands, List.map_append, List.nodup_append]
    refine ⟨stood.keys, keys, ?_⟩
    rintro old earlier new later rfl
    obtain ⟨first, held, rfl⟩ := List.mem_map.mp earlier
    obtain ⟨second, issued, same⟩ := List.mem_map.mp later
    have again := (each second issued).1
    rw [same] at again
    exact (List.nodup_append.mp fresh).2.2 _ (stood.drawn first held) _ again rfl
  · intro entry member
    rw [stands] at member
    rw [used]
    rcases List.mem_append.mp member with old | new
    · exact List.mem_append_left _ (stood.drawn entry old)
    · exact List.mem_append_right _ (each entry new).1
  · intro lid lease found active later
    rw [site, hashes] at found
    rw [stands, List.mem_append]
    by_cases issued : lid ∈ issues.map Prod.fst
    · obtain ⟨entry, member, rfl⟩ := List.mem_map.mp issued
      rw [Table.lookup_insert_all keys member] at found
      obtain rfl := Option.some.inj found
      exact .inr member
    · rw [Table.lookup_insert_all_other issued] at found
      exact .inl (stood.active lid lease found active later)
  · intro entry member
    rw [stands] at member
    rcases List.mem_append.mp member with old | new
    · exact stood.anchored entry old
    · exact (each entry new).2.1.trans anchor
  · intro entry member
    rw [stands] at member
    rw [site]
    rcases List.mem_append.mp member with old | new
    · obtain ⟨identity, health⟩ := stood.present entry old
      exact ⟨retains.identities _ identity, retains.entries _ _ health⟩
    · exact (each entry new).2.2
  · intro slot before exact
    obtain ⟨value, remembered⟩ := values slot before run.stood exact.value exact.remembered
    refine ⟨?_, ?_⟩
    · rw [site, stands]
      exact value
    · rw [queued]
      exact remembered

/-- At the abort of a lease that ends no earlier than the others, the others end as late as
those that stood at its issue, or as late as the lease itself if that is earlier. A lease
issued later that ends after those, or the abort of the last of those, breaks this. -/
def Restorable (slot : ReuseSlot) (before : Int) (run : SiteRun) : SiteOp → Prop
  | .release args => (abortedLease args run.site).isSome → ∀ stood ∈ run.stood,
      stood.entry.1 = args.lid → slot.Guarded stood.entry.2 →
      let left := run.standing.filter fun entry => decide (entry.1 ≠ args.lid)
      slot.due before left ≤ reuseEnds stood.entry.2 →
      slot.due before left = min (slot.due before stood.ahead) (reuseEnds stood.entry.2)
  | _ => True

/-- The end of an aborted lease is the stored value exactly if no other one is later. -/
theorem restorable_iff {slot : ReuseSlot} {before : Int} {run : SiteRun} {args : ReleaseArgs}
    {lease : Lease} (keys : (run.standing.map Prod.fst).Nodup)
    (member : (args.lid, lease) ∈ run.standing) (aborted : abortedLease args run.site = some lease)
    (guarded : slot.Guarded lease) (exact : Exact slot before run) :
    Restorable slot before run (.release args) ↔
      (slot.value run.site = reuseEnds lease →
        lease.pru.getD (slot.value run.site) =
          slot.due before (run.standing.filter fun entry => decide (entry.1 ≠ args.lid))) := by
  have removed := @ReuseSlot.due_remove slot before args.lid lease _ keys member
  rw [← exact.value, if_pos guarded] at removed
  obtain ⟨stood, held, same⟩ := List.mem_map.mp member
  have remembered := exact.remembered stood held
  rw [ReuseSlot.Remembers, same] at remembered
  have unique : ∀ other ∈ run.stood, other.entry.1 = args.lid → other = stood := by
    intro other among here
    rw [SiteRun.standing, List.map_map] at keys
    exact List.inj_on_of_nodup_map keys among held (here.trans (congrArg Prod.fst same).symm)
  have last : slot.value run.site = reuseEnds lease ↔ slot.due before (run.standing.filter
      fun entry => decide (entry.1 ≠ args.lid)) ≤ reuseEnds lease := by
    rw [removed, max_eq_right_iff]
  constructor
  · intro restorable current
    have asked := restorable (by rw [aborted]; rfl) stood held (congrArg Prod.fst same)
    rw [same] at asked
    rw [current, remembered guarded, asked guarded (last.mp current)]
  · intro brought _ other among here guardedToo left late
    obtain rfl := unique other among here
    rw [same] at late ⊢
    have current := last.mpr late
    rw [← brought current, current, remembered guarded]

theorem release_standing {start : Site} {run next : SiteRun} {args : ReleaseArgs}
    (stood : Standing start run) (later : args.lid ∉ start.ls)
    (stepped : siteStep run (.release args) = some next) :
    Standing start next ∧ ∀ (slot : ReuseSlot) (before : Int), Exact slot before run →
      (∀ other ∈ next.stood, slot.Remembers before other) ∧
      (slot.value next.site = slot.due before next.standing ↔
        Restorable slot before run (.release args)) := by
  have used : next.used = run.used := (used_step stepped).trans (List.append_nil _)
  obtain ⟨outcome, performed, site, past⟩ := site_step_cases stepped
  cases performed
  have queued := stood_step past
  simp only [Event.stand] at queued
  have kept : next.stood.Sublist run.stood := by
    rw [queued]
    split
    · exact List.filter_sublist
    · exact List.Sublist.refl _
  have shorter : next.standing.Sublist run.standing := kept.map _
  obtain ⟨same, idle⟩ | ⟨lease, found, active, ended, aborted⟩ := release_cases args run.site
  · simp only [idle, Option.isSome_none, Bool.false_eq_true, if_false] at queued
    have stands : next.standing = run.standing := congrArg (List.map Stood.entry) queued
    dsimp only at site
    rw [same] at site
    refine ⟨?_, fun slot before exact => ⟨queued ▸ exact.remembered, ?_⟩⟩
    · constructor <;> rw [stands]
      · exact stood.keys
      · rw [used]
        exact stood.drawn
      · rw [site]
        exact stood.active
      · exact stood.anchored
      · rw [site]
        exact stood.present
    · rw [site, stands]
      refine ⟨fun _ aborts => ?_, fun _ => exact.value⟩
      rw [idle] at aborts
      cases aborts
  · have member := stood.active args.lid lease found active later
    have stands : next.standing = if (abortedLease args run.site).isSome then
        run.standing.filter fun entry => decide (entry.1 ≠ args.lid) else run.standing := by
      rw [SiteRun.standing, queued, SiteRun.standing, List.filter_map]
      split <;> rfl
    obtain ⟨identity, entry⟩ := stood.present _ member
    obtain ⟨id, present⟩ := Option.isSome_iff_exists.mp identity
    dsimp only at site
    rw [ended] at site
    have retains := ls_end_retains args.layout args.lid .released args.now args.now args.late
      (if args.abort then some args.windows else none) present
    refine ⟨⟨stood.keys.sublist (shorter.map _), ?_, ?_, ?_, ?_⟩, fun slot before exact =>
      ⟨fun other held => exact.remembered other (kept.subset held), ?_⟩⟩
    · rw [used]
      exact fun entry held => stood.drawn entry (shorter.subset held)
    · intro other stored known running unstarted
      rw [site] at known
      have apart : other ≠ args.lid := by
        rintro rfl
        exact ls_end_inactive (by decide) known running
      rw [ls_end_lookup_other apart] at known
      have among := stood.active other stored known running unstarted
      rw [stands]
      split
      · exact List.mem_filter.mpr ⟨among, decide_eq_true apart⟩
      · exact among
    · exact fun entry held => stood.anchored entry (shorter.subset held)
    · intro entry held
      obtain ⟨kept, health⟩ := stood.present entry (shorter.subset held)
      rw [site]
      exact ⟨retains.identities _ kept, retains.entries _ _ health⟩
    · have value := ls_end_restores args.layout args.lid .released args.now args.now args.late
        (if args.abort then some args.windows else none) present entry
        (stood.anchored _ member) slot
      by_cases aborts : args.abort = true
      · rw [aborts, if_pos rfl] at aborted
        have removed := @ReuseSlot.due_remove slot before args.lid lease _ stood.keys member
        rw [← exact.value] at removed
        rw [site, value, stands, aborted, aborts]
        by_cases guarded : slot.Guarded lease
        · rw [if_pos guarded] at removed
          rw [restorable_iff stood.keys member aborted guarded exact]
          by_cases current : slot.value run.site = reuseEnds lease
          · simp [guarded, current]
          · have unmoved := removed.trans (max_eq_left_iff.mpr (le_of_not_ge fun late =>
              current (removed.trans (max_eq_right late))))
            simp [guarded, unmoved]
        · rw [if_neg guarded] at removed
          have unbound : Restorable slot before run (.release args) := by
            intro _ other among here guardedToo
            have entries := List.inj_on_of_nodup_map stood.keys
              (List.mem_map_of_mem among) member here
            rw [entries] at guardedToo
            exact absurd guardedToo guarded
          simp [guarded, removed, unbound]
      · have delivered : args.abort = false := Bool.eq_false_iff.mpr aborts
        rw [delivered, if_neg Bool.false_ne_true] at aborted
        rw [site, value, stands, aborted, delivered]
        simp only [Bool.false_eq_true, if_false, Option.isSome_none, false_and]
        refine ⟨fun _ aborts => ?_, fun _ => exact.value⟩
        rw [aborted] at aborts
        cases aborts

/-! ## Runs -/

/-- Reuse protection under aborts: in every run of acquires with an `acquired` anchor,
releases and aborts, the reuse value is throughout the latest end that a lease asks for
which was not aborted, if and only if every lease that ends last is aborted while the others
end as late as those that stood at its issue. -/
theorem reuse_value_exact_iff {slot : ReuseSlot} {start : Site} {ops : List SiteOp}
    {final : SiteRun} (fresh : (ops.flatMap SiteOp.leads).Nodup)
    (kinds : ∀ op ∈ ops, Reuses start op)
    (reached : Machine.run siteStep (.start start) ops = some final) :
    Machine.Throughout siteStep
        (fun run => slot.value run.site = slot.due (slot.value start) run.standing)
        (.start start) ops ↔
      Machine.Under siteStep (Restorable slot (slot.value start)) (.start start) ops := by
  have orderly : Machine.Under siteStep Orderly (.start start) ops := by
    refine orderly_of_fresh fresh fun op member => ?_
    have kind := kinds op member
    cases op with
    | acquire args => rfl
    | release args => rfl
    | _ => exact kind.elim
  have initial : Standing start (.start start) :=
    ⟨List.nodup_nil, fun entry none => absurd none List.not_mem_nil, fun lid lease found _ absent =>
      absurd (AList.lookup_isSome.mp (Option.isSome_of_mem found)) absent,
      fun entry none => absurd none List.not_mem_nil, fun entry none => absurd none List.not_mem_nil⟩
  have step (run next : SiteRun) (op : SiteOp) (stood : Standing start run)
      (exact : Exact slot (slot.value start) run) (allowed : Orderly run op ∧ Reuses start op)
      (stepped : siteStep run op = some next) :
      (Standing start next ∧ ∀ other ∈ next.stood, slot.Remembers (slot.value start) other) ∧
        (slot.value next.site = slot.due (slot.value start) next.standing ↔
          Restorable slot (slot.value start) run op) := by
    obtain ⟨orderly, kind⟩ := allowed
    cases op with
    | acquire args =>
      obtain ⟨kept, value⟩ := acquire_standing stood orderly.fresh kind stepped
      have later := value slot _ exact
      exact ⟨⟨kept, later.remembered⟩, iff_of_true later.value trivial⟩
    | release args =>
      obtain ⟨kept, value⟩ := release_standing stood kind stepped
      obtain ⟨remembered, restores⟩ := value slot _ exact
      exact ⟨⟨kept, remembered⟩, restores⟩
    | _ => exact kind.elim
  exact @Machine.throughout_iff_under _ _ _ _ _
    (fun run => Standing start run ∧ ∀ stood ∈ run.stood, slot.Remembers (slot.value start) stood) _
    (fun run op next stood exact allowed stepped =>
      (step run next op stood.1 ⟨exact, stood.2⟩ allowed stepped).1)
    (fun run op next stood exact allowed stepped =>
      (step run next op stood.1 ⟨exact, stood.2⟩ allowed stepped).2)
    _ _ _ ⟨initial, fun _ none => absurd none List.not_mem_nil⟩ rfl
    (Machine.under_and orderly kinds) reached

def stickyCall (now : Int) (lead : String) : AcquireArgs :=
  { plainAcquire 1 now lead with mc := 2, ri := 1000, session := "s", stickyTtl := 60000 }

def stickySite : Site where
  id := Function.update (fun _ => none) 7 (some (plainIdentity "idt_7" .active))
  rdy := Function.update (fun _ => ∅) 1 ((∅ : ZSet Hkey).add 0 7)

def abortOf (now : Int) (lead : String) : ReleaseArgs :=
  { now := now, lid := { lead := lead, shard := 0 }, late := 0, ns := none, abort := true
    windows := [], layout := [] }

/-- The second lease raises the reuse value again and is aborted. -/
def abortedLater : List SiteOp :=
  [.acquire (stickyCall 1000 "a"), .acquire (stickyCall 1500 "b"), .release (abortOf 1600 "b")]

theorem aborted_later_exact :
    ∃ final, Machine.run siteStep (.start stickySite) abortedLater = some final ∧
      (ReuseSlot.endpoint 1 7).value final.site = 2000 ∧
      (Machine.Throughout siteStep
          (fun run => (ReuseSlot.endpoint 1 7).value run.site =
            (ReuseSlot.endpoint 1 7).due ((ReuseSlot.endpoint 1 7).value stickySite) run.standing)
          (.start stickySite) abortedLater ↔
        Machine.Under siteStep
          (Restorable (.endpoint 1 7) ((ReuseSlot.endpoint 1 7).value stickySite))
          (.start stickySite) abortedLater) := by
  have ran : (Machine.run siteStep (.start stickySite) abortedLater).map
      (fun run => (ReuseSlot.endpoint 1 7).value run.site) = some 2000 := by decide +kernel
  obtain ⟨final, reached, value⟩ := Option.map_eq_some_iff.mp ran
  have kinds : ∀ op ∈ abortedLater, Reuses stickySite op := by
    unfold abortedLater
    simp only [List.forall_mem_cons]
    exact ⟨rfl, rfl, AList.notMem_empty _, fun op none => absurd none List.not_mem_nil⟩
  exact ⟨final, reached, value, reuse_value_exact_iff (by decide) kinds reached⟩

/-- Two leases of the same millisecond, of which the first is aborted. -/
def abortedTwin : List SiteOp :=
  [.acquire (stickyCall 1000 "a"), .acquire (stickyCall 1000 "b"), .release (abortOf 1100 "a")]

/-- The abort takes the protection of the other lease away. -/
theorem aborted_twin_unprotected :
    (∀ op ∈ abortedTwin, Reuses stickySite op) ∧
      ∃ final, Machine.run siteStep (.start stickySite) abortedTwin = some final ∧
        (final.standing.map fun entry => (entry.1.lead, entry.2.a, entry.2.ri)) =
          [("b", 1000, 1000)] ∧
        (ReuseSlot.endpoint 1 7).value final.site = 0 ∧
        (ReuseSlot.endpoint 1 7).due ((ReuseSlot.endpoint 1 7).value stickySite) final.standing =
          2000 := by
  have ran : (Machine.run siteStep (.start stickySite) abortedTwin).map
      (fun run => ((run.standing.map fun entry => (entry.1.lead, entry.2.a, entry.2.ri)),
        (ReuseSlot.endpoint 1 7).value run.site, (ReuseSlot.endpoint 1 7).due
          ((ReuseSlot.endpoint 1 7).value stickySite) run.standing)) =
      some ([("b", 1000, 1000)], 0, 2000) := by decide +kernel
  obtain ⟨final, reached, same⟩ := Option.map_eq_some_iff.mp ran
  simp only [Prod.mk.injEq] at same
  refine ⟨?_, final, reached, same⟩
  unfold abortedTwin
  simp only [List.forall_mem_cons]
  exact ⟨rfl, rfl, AList.notMem_empty _, fun op none => absurd none List.not_mem_nil⟩

end Spinneret.Runs
