import Spinneret.Runs.BreakerSteps
import Spinneret.Runs.LeaseLife

/-!
# Where a lease hash comes from

A lease hash keeps its group, its issue time and its probe mark for life. Acquire
is the only step that writes new ones; every other step rewrites, ends or drops
the hashes it finds, and none makes an ended lease active again.
-/

namespace Spinneret.Runs

open Spinneret.HotState Spinneret.Lib Spinneret.Scheduler Spinneret.Worker Spinneret.Action
open Spinneret.Breakers

set_option autoImplicit false

/-- The fields of a lease hash that are written once. -/
def origin (lease : Lease) : Hkey × Int × Bool := (lease.e, lease.a, lease.pr)

structure Descends (old lease : Lease) : Prop where
  origin : origin lease = origin old
  active : lease.st = .active → old.st = .active

theorem Descends.refl (lease : Lease) : Descends lease lease := ⟨rfl, id⟩

theorem Descends.group {old lease : Lease} (descends : Descends old lease) : lease.e = old.e :=
  congrArg Prod.fst descends.origin

theorem Descends.issued {old lease : Lease} (descends : Descends old lease) : lease.a = old.a :=
  congrArg (fun value => value.2.1) descends.origin

theorem Descends.probe {old lease : Lease} (descends : Descends old lease) : lease.pr = old.pr :=
  congrArg (fun value => value.2.2) descends.origin

/-- Every lease hash of `after` is a version of one of `before`. -/
def Inherits (before after : Site) : Prop :=
  ∀ lid lease, after.ls.lookup lid = some lease →
    ∃ old, before.ls.lookup lid = some old ∧ Descends old lease

theorem Moves.inherits {op : SiteOp} {replies : List LeaseReply} {before after : Site}
    (moves : Moves op replies before after) (other : ∀ args, op ≠ .acquire args) :
    Inherits before after := by
  intro lid lease found
  obtain ⟨old, stored, continues⟩ := moves.continues other found
  have same := congrArg origin continues.fixed
  exact ⟨old, stored, same, continues.active⟩

/-! ## Aborted leases -/

variable {site : Site}

theorem ls_end_inactive {layout : Layout} {lid : LeaseId} {lease left : Lease} {state : LeaseState}
    {endMs now late : Int} {windows : Option (List Int)} (ends : state ≠ .active)
    (found :
      (lsEnd site layout lid lease state endMs now late windows).site.ls.lookup lid = some left) :
    left.st ≠ .active := by
  rw [(ls_end_frame site layout lid lease state endMs now late windows).1] at found
  unfold endLeaseHash at found
  dsimp only at found
  split_ifs at found
  · rw [AList.lookup_erase] at found
    cases found
  · rw [AList.lookup_insert, Option.some.injEq] at found
    exact found ▸ ends

theorem aborted_inactive {args : ReleaseArgs} {lease left : Lease}
    (aborted : abortedLease args site = some lease)
    (found : (release args site).1.site.ls.lookup args.lid = some left) : left.st ≠ .active := by
  obtain ⟨stored, met⟩ := Option.filter_eq_some_iff.mp aborted
  simp only [Bool.and_eq_true, decide_eq_true_eq, Bool.not_eq_true', decide_eq_false_iff_not] at met
  simp only [release, stored, met, if_true, if_false] at found
  exact ls_end_inactive (by decide) found

/-! ## Acquire -/

/-- Every lease hash is an old one or one of the leases the call returned. -/
def IssuedBy (args : AcquireArgs) (site after : Site) (leases : List LeaseReply) : Prop :=
  ∀ lid lease, after.ls.lookup lid = some lease →
    site.ls.lookup lid = some lease ∨
      (origin lease = (args.eg, args.now, probing args (site.brk args.eg)) ∧
        lid ∈ leases.map LeaseReply.lid)

theorem issued_by_rule {args : AcquireArgs} {probe : Bool}
    (passed : (breakerGate args (site.brk args.eg)).verdict = .inr probe) :
    LeaseRule args (modeOf args probe) (IssuedBy args site) where
  quiet before after out quiet issued lid lease found :=
    issued lid lease (quiet.ls ▸ found)
  lease before out c proxy sticky issued _ _ _ := by
    have probes : probing args (site.brk args.eg) = probe := by simp only [probing, passed]
    intro lid lease found
    rw [write_lease_ls] at found
    rw [List.map_append, List.mem_append]
    by_cases here : lid = leaseIdOf args (args.prefixes.getD out.length "") c
    · subst here
      rw [AList.lookup_insert, Option.some.injEq] at found
      refine .inr ⟨?_, .inr (List.mem_singleton_self _)⟩
      rw [probes, ← found]
      rfl
    · rw [AList.lookup_insert_ne here] at found
      exact (issued lid lease found).imp_right fun new => ⟨new.1, .inl new.2⟩

theorem acquire_issued_by (args : AcquireArgs) (site : Site) :
    IssuedBy args site (acquire args site).1 (acquire args site).2.leases :=
  acquire_rule (fun _ _ found => .inl found) fun _ passed => issued_by_rule passed

/-! ## Steps -/

/-- A step inherits the lease hashes, or is an acquire that issued the new ones. -/
inductive LeaseEffect (site : Site) : SiteOp → Outcome → Prop where
  | issues {args : AcquireArgs} {outcome : Outcome}
      (issued : IssuedBy args site outcome.site outcome.leases) :
      LeaseEffect site (.acquire args) outcome
  | inherits {op : SiteOp} {outcome : Outcome} (inherits : Inherits site outcome.site) :
      LeaseEffect site op outcome

theorem perform_leases {op : SiteOp} {outcome : Outcome}
    (performed : perform op site = some outcome) : LeaseEffect site op outcome := by
  by_cases acquires : ∃ args, op = .acquire args
  · obtain ⟨args, rfl⟩ := acquires
    cases performed
    exact .issues (acquire_issued_by args site)
  · exact .inherits ((perform_moves performed).inherits fun args same => acquires ⟨args, same⟩)

/-- A lease hash after a step is a version of an old one, or was issued by it. -/
theorem lease_traced {op : SiteOp} {outcome : Outcome} (performed : perform op site = some outcome)
    {lid : LeaseId} {lease : Lease} (found : outcome.site.ls.lookup lid = some lease) :
    (∃ old, site.ls.lookup lid = some old ∧ Descends old lease) ∨
      ∃ args, op = .acquire args ∧
        origin lease = (args.eg, args.now, probing args (site.brk args.eg)) ∧
        lid ∈ outcome.leases.map LeaseReply.lid := by
  cases perform_leases performed with
  | issues issued =>
    rcases issued lid lease found with old | ⟨fresh, replied⟩
    · exact .inl ⟨lease, old, .refl lease⟩
    · exact .inr ⟨_, rfl, fresh, replied⟩
  | inherits inherits => exact .inl (inherits lid lease found)

end Spinneret.Runs
