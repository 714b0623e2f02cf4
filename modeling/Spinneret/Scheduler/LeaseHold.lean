import Spinneret.Scheduler.AcquireLedger
import Spinneret.Scheduler.LeaseEndLedger

/-!
# Exclusive leases hold their identity

A lease of an exclusive policy sets the exclusive-until value of its identity, its
renewals raise it, and only the end of the last lease of the identity clears it.
-/

namespace Spinneret.Scheduler

open Spinneret.HotState Spinneret.Lib

set_option autoImplicit false

/-- Every active lease lies between its issue and its lifetime cap, and an exclusive one
holds its identity for as long as it runs. -/
structure Held (site : Site) : Prop where
  within : ∀ lid lease, site.ls.lookup lid = some lease → lease.st = .active →
    lease.a ≤ lease.x ∧ lease.x ≤ lease.cap
  exclusive : ∀ lid lease, site.ls.lookup lid = some lease → lease.st = .active →
    lease.mc = 1 → lease.x ≤ identityXl site lease.i

/-- The hold on an identity is not shortened while it has active leases. -/
def HoldKept (before after : Site) : Prop :=
  ∀ i, leasesOf after i ≠ 0 → identityXl before i ≤ identityXl after i

theorem HoldKept.of_xl {before after : Site}
    (same : ∀ i, identityXl after i = identityXl before i) : HoldKept before after :=
  fun i _ => (same i).ge

theorem leases_of_ne_zero {site : Site} {lid : LeaseId} {lease : Lease}
    (found : site.ls.lookup lid = some lease) (active : lease.st = .active) :
    leasesOf site lease.i ≠ 0 := by
  have weighed := Table.weight_le_count (namesIdentity lease.i) lid site.ls
  simp only [found, Table.weight_some, namesIdentity, active, and_self, decide_true,
    if_true] at weighed
  exact Nat.one_le_iff_ne_zero.mp weighed

/-! ## Lease ends -/

section Ends

variable {site : Site} {layout : Layout} {lid : LeaseId} {lease : Lease} {state : LeaseState}
  {endMs now late : Int} {windows : Option (List Int)}

theorem refund_id (site : Site) (lease : Lease) (windows : Option (List Int)) :
    (refundAborted site lease windows).id = site.id := by
  rw [refund_writes]

theorem end_health_id (site : Site) (layout : Layout) (lease : Lease) (reuse : ReuseEnd)
    (endMs now : Int) : (endHealth site layout lease reuse endMs now).id = site.id := by
  unfold endHealth
  dsimp only
  split_ifs <;> rfl

theorem count_end_id (site : Site) (lease : Lease) (reuse : ReuseEnd) (endMs : Int)
    (id : Identity) :
    (countEnd site lease reuse endMs id).id =
      Function.update site.id lease.i (some (identityEnded id lease reuse endMs)) := by
  unfold countEnd
  dsimp only
  split <;> rfl

theorem end_identity_id {id : Identity} (layout : Layout) (abort : Bool) (endMs now : Int)
    (present : site.id lease.i = some id) :
    (endIdentity site layout lease abort endMs now).site.id =
      Function.update site.id lease.i
        (some (identityEnded id lease (reuseEnd lease abort) endMs)) := by
  simp only [endIdentity, present]
  rw [(ready_after_end_only_ready ..).id, end_health_id, count_end_id]

theorem ls_end_id (layout : Layout) (lid : LeaseId) (state : LeaseState) (endMs now late : Int)
    (windows : Option (List Int)) {id : Identity} (present : site.id lease.i = some id) :
    (lsEnd site layout lid lease state endMs now late windows).site.id =
      Function.update site.id lease.i
        (some (identityEnded id lease (reuseEnd lease windows.isSome) endMs)) := by
  have refunded := refund_id (endLeaseHash site lid lease state endMs now late) lease windows
  have stays : (refundAborted (endLeaseHash site lid lease state endMs now late) lease
      windows).id lease.i = some id := by
    rw [refunded]
    exact present
  unfold lsEnd
  dsimp only
  rw [(end_proxy_frame ..).1, end_identity_id _ _ _ _ stays, refunded]
  rfl

/-- The hold is cleared only with the last lease of the identity. -/
theorem ls_end_hold_kept (accounted : Accounted site) (found : site.ls.lookup lid = some lease)
    (active : lease.st = .active) (inactive : state ≠ .active) :
    HoldKept site (lsEnd site layout lid lease state endMs now late windows).site := by
  have ends : Ends site lid lease (lsEnd site layout lid lease state endMs now late windows).site :=
    (ls_end_ends accounted found active inactive).1
  have after := accounted.finish ends
  obtain ⟨id, present⟩ := accounted.identity_present found active
  have hashes := ls_end_id layout lid state endMs now late windows present
  intro i leased
  by_cases here : i = lease.i
  · subst here
    have counted := after.identities lease.i
    simp only [identityAl, hashes, Function.update_self, Option.map_some,
      Option.getD_some] at counted
    have left : (identityEnded id lease (reuseEnd lease windows.isSome) endMs).al ≠ 0 := by
      rw [counted]
      exact_mod_cast leased
    simp only [identityEnded] at left
    simp [identityXl, hashes, present, identityEnded, left]
  · simp [identityXl, hashes, here]

end Ends

theorem HoldKept.trans {first second third : Site} (left : HoldKept first second)
    (right : HoldKept second third) (fewer : ∀ i, leasesOf third i ≤ leasesOf second i) :
    HoldKept first third := by
  intro i leased
  have before : leasesOf second i ≠ 0 := by
    have bound := fewer i
    omega
  exact (left i before).trans (right i leased)

theorem release_hold_kept {site : Site} (args : ReleaseArgs) (accounted : Accounted site) :
    HoldKept site (release args site).1.site := by
  unfold release
  split
  · exact .of_xl fun _ => rfl
  · next lease found =>
    split
    · exact .of_xl fun _ => rfl
    · split
      · next active => exact ls_end_hold_kept accounted found active (by decide)
      · exact .of_xl fun _ => rfl

theorem reap_one_hold_kept (args : ReapArgs) {state : Ended × List ReapedLease} (lid : LeaseId)
    (accounted : Accounted state.1.site) :
    HoldKept state.1.site (reapOne args state lid).1.site := by
  unfold reapOne
  dsimp only
  split
  · exact .of_xl fun _ => rfl
  · next lease found =>
    split
    · next active => exact ls_end_hold_kept accounted found active (by decide)
    · exact .of_xl fun _ => rfl

theorem reap_hold_kept {site : Site} (args : ReapArgs) (accounted : Accounted site) :
    HoldKept site (reap args site).1.site := by
  have fold : ∀ (ids : List LeaseId) (state : Ended × List ReapedLease),
      Accounted state.1.site → state.1.clamped = false →
      HoldKept state.1.site (ids.foldl (reapOne args) state).1.site ∧
        Settles state.1.site (ids.foldl (reapOne args) state).1.site := by
    intro ids
    induction ids with
    | nil => exact fun state _ _ => ⟨.of_xl fun _ => rfl, .refl _⟩
    | cons lid rest ih =>
      intro state accounted free
      obtain ⟨settles, stillFree⟩ := reap_one_settles args lid accounted free
      obtain ⟨kept, settled⟩ := ih _ (settles.accounted accounted) stillFree
      exact ⟨(reap_one_hold_kept args lid accounted).trans kept settled.leases_of_le,
        settles.trans settled⟩
  exact (fold _ ({ site := site, clamped := false }, []) accounted rfl).1

/-! ## Renewals -/

theorem hold_renewed_xl (site : Site) (lease : Lease) (nx : Int) (i : Hkey) :
    identityXl site i ≤ identityXl (holdRenewed site lease nx) i := by
  unfold holdRenewed
  split
  · next id present =>
    split
    · dsimp only
      split
      · next below =>
        by_cases here : i = lease.i
        · subst here
          simp only [identityXl, present, Site.setRdy, Site.setId, Function.update_self,
            Option.map_some, Option.getD_some]
          exact below.le
        · simp [identityXl, Site.setRdy, Site.setId, here]
      · exact le_refl _
    · exact le_refl _
  · exact le_refl _

/-- A renewed exclusive lease holds its identity up to the new expiry. -/
theorem hold_renewed_reaches (site : Site) {lease : Lease} {id : Identity} (nx : Int)
    (present : site.id lease.i = some id) (exclusive : lease.mc = 1) :
    nx ≤ identityXl (holdRenewed site lease nx) lease.i := by
  unfold holdRenewed
  simp only [present, exclusive, if_true]
  split
  · simp [identityXl, Site.setRdy, Site.setId]
  · next reached => simpa [identityXl, Site.setRdy, present] using not_lt.mp reached

theorem renewed_expiry_bounds (args : RenewArgs) {lease : Lease} (short : lease.x ≤ lease.cap) :
    lease.x ≤ renewedExpiry args lease ∧ renewedExpiry args lease ≤ lease.cap := by
  unfold renewedExpiry
  dsimp only
  omega

/-! ## Acquire -/

variable {args : AcquireArgs}

theorem lease_expiry_bounds (ttl : 0 ≤ args.ttl) (lifetime : 0 ≤ args.lifetime) :
    args.now ≤ leaseExpiry args ∧ leaseExpiry args ≤ args.now + args.lifetime := by
  unfold leaseExpiry
  omega

theorem Quiet.xl {before after : Site} (quiet : Quiet before after) (i : Hkey) :
    identityXl after i = identityXl before i := by
  have same := congrArg (Option.map Identity.xl) (quiet.identities i)
  simp only [Option.map_map, Function.comp_def, unmarked] at same
  simp only [identityXl, same]

theorem identity_leased_xl (args : AcquireArgs) (c : Candidate) (proxy : Option ProxyPick)
    (id : Identity) :
    (identityLeased args c proxy id).xl = if args.mc = 1 then exclusiveUntil args c else id.xl := by
  unfold identityLeased
  dsimp only
  split
  · split_ifs <;> rfl
  · split_ifs <;> rfl

theorem write_lease_xl {mode : Mode} {site : Site} {c : Candidate} {lead : String}
    {proxy : Option ProxyPick} (verified : Verified args site c) (i : Hkey) :
    identityXl (writeLease args mode site c lead proxy) i =
      if i = c.i ∧ args.mc = 1 then exclusiveUntil args c else identityXl site i := by
  simp only [identityXl, write_lease_id]
  by_cases here : i = c.i
  · subst here
    obtain ⟨id, present, -⟩ := Option.map_eq_some_iff.mp verified.stored
    simp [present, identity_leased_xl]
  · simp [here]

/-- A new lease of a verified candidate. An exclusive one finds no other lease of its
identity, so the hold it writes shortens none. -/
theorem Held.issue {site : Site} {c : Candidate} {proxy : Option ProxyPick} (held : Held site)
    (accounted : Accounted site) (mode : Mode) (lead : String) (verified : Verified args site c)
    (ttl : 0 ≤ args.ttl) (lifetime : 0 ≤ args.lifetime) :
    Held (writeLease args mode site c lead proxy) where
  within key value found active := by
    rw [write_lease_ls] at found
    by_cases same : key = leaseIdOf args lead c
    · subst same
      rw [AList.lookup_insert, Option.some.injEq] at found
      subst found
      exact lease_expiry_bounds ttl lifetime
    · rw [AList.lookup_insert_ne same] at found
      exact held.within key value found active
  exclusive key value found active exclusive := by
    rw [write_lease_ls] at found
    rw [write_lease_xl verified]
    by_cases same : key = leaseIdOf args lead c
    · subst same
      rw [AList.lookup_insert, Option.some.injEq] at found
      subst found
      have mc : args.mc = 1 := exclusive
      rw [if_pos ⟨rfl, mc⟩]
      simp only [leaseOf, exclusiveUntil, mc, if_true]
      exact le_max_right _ _
    · rw [AList.lookup_insert_ne same] at found
      split
      · next raised =>
        have counted := accounted.identity_counted found active
        rw [raised.1, identityAl, verified.stored, Option.getD_some] at counted
        have below := verified.below
        omega
      · exact held.exclusive key value found active exclusive

theorem Held.quiet {before after : Site} (held : Held before) (quiet : Quiet before after) :
    Held after where
  within key value found := held.within key value (quiet.ls ▸ found)
  exclusive key value found active exclusive := by
    rw [quiet.xl]
    exact held.exclusive key value (quiet.ls ▸ found) active exclusive

theorem acquire_held {site : Site} {used : List String} (held : Held site)
    (accounted : Accounted site) (leads : Leads site used) (fresh : (used ++ args.prefixes).Nodup)
    (ttl : 0 ≤ args.ttl) (lifetime : 0 ≤ args.lifetime) : Held (acquire args site).1 := by
  have both : Issuing args used site (acquire args site).1 (acquire args site).2.leases ∧
      Held (acquire args site).1 := by
    refine @acquire_rule args site (fun after out => Issuing args used site after out ∧ Held after)
      ⟨⟨accounted.same_ledger (.of_eq rfl rfl rfl rfl), ?_, ?_⟩, held.within, held.exclusive⟩
      fun probe _ => ⟨?_, ?_⟩
    · exact fun lid found => List.mem_append_left _ (leads lid found)
    · exact fun i => le_max_left _ _
    · intro before after out quiet both
      exact ⟨(issuing_rule site probe fresh).quiet before after out quiet both.1,
        both.2.quiet quiet⟩
    · intro before out c proxy sticky both room verified present
      exact ⟨(issuing_rule site probe fresh).lease before out c proxy sticky both.1 room verified
        present, both.2.issue both.1.accounted _ _ verified ttl lifetime⟩
  exact both.2

end Spinneret.Scheduler
