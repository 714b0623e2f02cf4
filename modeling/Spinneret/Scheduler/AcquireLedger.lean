import Spinneret.Scheduler.AcquireRule

/-!
# Acquire issues leases one by one

Every lease write of a call issues one lease under an unused id: its identity
and proxy are present and their counters go up by one. The identity counter is
written from the value read at evaluation, which is still the stored one.
-/

namespace Spinneret.Scheduler

open Spinneret.HotState Spinneret.Lib

set_option autoImplicit false

/-- Every lease id starts with one of the leads used so far. -/
def Leads (site : Site) (used : List String) : Prop := ∀ lid ∈ site.ls, lid.lead ∈ used

theorem identity_leased_al (args : AcquireArgs) (c : Candidate) (proxy : Option ProxyPick)
    (id : Identity) : (identityLeased args c proxy id).al = c.al + 1 := by
  unfold identityLeased
  dsimp only
  split
  · split_ifs <;> rfl
  · split_ifs <;> rfl

theorem write_lease_al {args : AcquireArgs} {site : Site} {c : Candidate} (mode : Mode)
    (lead : String) (proxy : Option ProxyPick) (verified : Verified args site c) (i : Hkey) :
    identityAl (writeLease args mode site c lead proxy) i =
      identityAl site i + if c.i = i then 1 else 0 := by
  simp only [identityAl, write_lease_id]
  by_cases here : c.i = i
  · subst here
    obtain ⟨id, found, counted⟩ := Option.map_eq_some_iff.mp verified.stored
    simp [found, identity_leased_al, counted]
  · simp [here, Ne.symm here]

theorem write_lease_pal {args : AcquireArgs} {site : Site} (mode : Mode) (c : Candidate)
    (lead : String) {proxy : Option ProxyPick}
    (present : ∀ pick, proxy = some pick → (site.px pick.p).isSome) (p : Hkey) :
    proxyAl (writeLease args mode site c lead proxy) p =
      proxyAl site p + if proxy.map ProxyPick.p = some p then 1 else 0 := by
  simp only [proxyAl, write_lease_px]
  by_cases holds : proxy.map ProxyPick.p = some p
  · obtain ⟨pick, chosen, rfl⟩ := Option.map_eq_some_iff.mp holds
    obtain ⟨hash, found⟩ := Option.isSome_iff_exists.mp (present pick chosen)
    simp [holds, found]
  · simp [holds]

theorem write_lease_issues {args : AcquireArgs} {site : Site} {c : Candidate}
    {proxy : Option ProxyPick} (mode : Mode) {lead : String} (verified : Verified args site c)
    (present : ∀ pick, proxy = some pick → (site.px pick.p).isSome)
    (unused : leaseIdOf args lead c ∉ site.ls) :
    Issues site (leaseIdOf args lead c) (leaseOf args mode c proxy)
      (writeLease args mode site c lead proxy) where
  al := write_lease_al mode lead proxy verified
  pal := write_lease_pal mode c lead present
  active := rfl
  persistent := rfl
  unused _ found := absurd (AList.lookup_isSome.mp (Option.isSome_of_mem found)) unused
  ls := write_lease_ls ..
  lsexp := write_lease_lsexp ..

/-- What an acquire call maintains: the ledger agrees with the leases, their ids
start with used leads and no identity exceeds the limit of the call. -/
structure Issuing (args : AcquireArgs) (used : List String) (start site : Site)
    (out : List LeaseReply) : Prop where
  accounted : Accounted site
  leads : Leads site (used ++ args.prefixes.take out.length)
  limited : ∀ i, (leasesOf site i : Int) ≤ max (leasesOf start i : Int) args.mc

theorem issuing_rule {args : AcquireArgs} {used : List String} (start : Site) (probe : Bool)
    (fresh : (used ++ args.prefixes).Nodup) :
    LeaseRule args (modeOf args probe) (Issuing args used start) where
  quiet before after out quiet issuing :=
    { accounted := issuing.accounted.same_ledger quiet.same_ledger
      leads := by
        intro lid found
        exact issuing.leads lid (quiet.ls ▸ found)
      limited := by
        intro i
        rw [quiet.same_ledger.leasesOf]
        exact issuing.limited i }
  lease site out c proxy sticky issuing room verified present := by
    have within : out.length < args.prefixes.length := room.trans_le (mode_count_le args probe)
    set lead := args.prefixes.getD out.length "" with chosen
    have taken : args.prefixes.take (out.length + 1) = args.prefixes.take out.length ++ [lead] := by
      rw [chosen, List.take_add_one, List.getD_eq_getElem?_getD, List.getElem?_eq_getElem within]
      rfl
    have unused : leaseIdOf args lead c ∉ site.ls := by
      intro found
      have before := issuing.leads _ found
      have distinct : (used ++ args.prefixes.take (out.length + 1)).Nodup :=
        fresh.sublist ((List.take_sublist _ _).append_left used)
      rw [taken, ← List.append_assoc] at distinct
      exact (List.nodup_append.mp distinct).2.2 lead before lead (List.mem_singleton_self lead) rfl
    have issues := write_lease_issues (modeOf args probe) verified present unused
    refine ⟨issuing.accounted.issue issues, ?_, ?_⟩
    · intro lid found
      rw [issues.ls, AList.mem_insert] at found
      rw [List.length_append, List.length_singleton, taken, ← List.append_assoc]
      rcases found with rfl | old
      · exact List.mem_append_right _ (List.mem_singleton_self lead)
      · exact List.mem_append_left _ (issuing.leads lid old)
    · intro i
      rw [leases_of_issued issues]
      by_cases here : c.i = i
      · subst here
        have counted : (leasesOf site c.i : Int) = c.al := by
          rw [← issuing.accounted.identities, identityAl, verified.stored]
          rfl
        have below := verified.below
        simp only [leaseOf, if_true]
        omega
      · simp only [leaseOf, here, if_false]
        simpa using issuing.limited i

theorem acquire_issuing {args : AcquireArgs} {site : Site} {used : List String}
    (accounted : Accounted site) (leads : Leads site used)
    (fresh : (used ++ args.prefixes).Nodup) :
    Issuing args used site (acquire args site).1 (acquire args site).2.leases := by
  refine acquire_rule ⟨accounted.same_ledger (.of_eq rfl rfl rfl rfl), ?_, ?_⟩ ?_
  · intro lid found
    exact List.mem_append_left _ (leads lid found)
  · exact fun i => le_max_left _ _
  · exact fun probe _ => issuing_rule site probe fresh

end Spinneret.Scheduler
