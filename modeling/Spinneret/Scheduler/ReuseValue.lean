import Spinneret.Scheduler.AcquireSound
import Spinneret.Scheduler.LeaseHold

/-!
# Reuse values

A reuse interval keeps an identity back on one group or on the whole site. The value
that says until when is in the health entry of the group or in the identity hash. A
lease with an `acquired` anchor raises it when it is written and remembers what it was,
so that an abort can bring it back.
-/

namespace Spinneret.Scheduler

open Spinneret.HotState Spinneret.Lib

set_option autoImplicit false

/-- What a reuse interval holds back: an identity on one group or on the whole site. -/
inductive ReuseSlot where
  | endpoint (eg i : Hkey)
  | site (i : Hkey)
  deriving DecidableEq

def ReuseSlot.value (site : Site) : ReuseSlot → Int
  | .endpoint eg i => (hsCdRu (site.hs eg i)).2
  | .site i => ((site.id i).map Identity.sru).getD 0

/-- The reuse interval of the lease applies to the slot. -/
def ReuseSlot.Covers (lease : Lease) : ReuseSlot → Prop
  | .endpoint eg i => lease.rs = .endpoint ∧ lease.e = eg ∧ lease.i = i
  | .site i => lease.rs = .site ∧ lease.i = i

instance (lease : Lease) : DecidablePred (ReuseSlot.Covers lease)
  | .endpoint _ _ => inferInstanceAs (Decidable (_ ∧ _ ∧ _))
  | .site _ => inferInstanceAs (Decidable (_ ∧ _))

/-- The lease has raised the value of the slot when it was written, if it was lower. -/
def ReuseSlot.Guarded (slot : ReuseSlot) (lease : Lease) : Prop :=
  slot.Covers lease ∧ lease.ra = .acquired ∧ 0 < lease.ri

instance (slot : ReuseSlot) : DecidablePred slot.Guarded :=
  fun _ => inferInstanceAs (Decidable (_ ∧ _ ∧ _))

/-- The end of the reuse interval counted from the issue of the lease. -/
def reuseEnds (lease : Lease) : Int := lease.a + lease.ri

variable {picked : Nat} {sticky : Bool} {c : Candidate} {id : Identity}

section Values

variable {args : AcquireArgs} {mode : Mode} {site : Site} {slot : ReuseSlot} {lease : Lease}

theorem Quiet.reuse_value {before after : Site} (quiet : Quiet before after) (slot : ReuseSlot) :
    slot.value after = slot.value before := by
  cases slot with
  | endpoint eg i => rw [ReuseSlot.value, ReuseSlot.value, quiet.hs]
  | site i =>
    have same := congrArg (Option.map Identity.sru) (quiet.identities i)
    simp only [Option.map_map, Function.comp_def, unmarked] at same
    exact congrArg (fun value : Option Int => value.getD 0) same

theorem Fit.identity (fit : Fit args site picked sticky c id) :
    ∃ stored, site.id c.i = some stored ∧ unmarked stored = id :=
  Option.map_eq_some_iff.mp fit.stored

theorem Fit.health_ru (fit : Fit args site picked sticky c id) :
    c.hs.ru = (hsCdRu (site.hs args.eg c.i)).2 := by
  rw [fit.health]
  exact (hs_unpack_cd_ru _ _ _).2

theorem identity_leased_sru (args : AcquireArgs) (c : Candidate) (proxy : Option ProxyPick)
    (id : Identity) :
    (identityLeased args c proxy id).sru =
      if raisesSite args c then args.now + args.ri else id.sru := by
  unfold identityLeased
  dsimp only
  cases proxy with
  | none => dsimp only; split <;> rfl
  | some pick => dsimp only; split_ifs <;> rfl

theorem write_lease_reuse (fit : Fit args site picked sticky c id) (mode : Mode) (lead : String)
    (proxy : Option ProxyPick) (slot : ReuseSlot) :
    slot.value (writeLease args mode site c lead proxy) =
      if slot.Guarded (leaseOf args mode c proxy) then
        max (slot.value site) (reuseEnds (leaseOf args mode c proxy))
      else slot.value site := by
  cases slot with
  | endpoint eg i =>
    simp only [ReuseSlot.value, write_lease_hs]
    by_cases here : args.eg = eg ∧ c.i = i
    · obtain ⟨rfl, rfl⟩ := here
      have held : (ReuseSlot.endpoint args.eg c.i).Guarded (leaseOf args mode c proxy) ↔
          args.ra = .acquired ∧ 0 < args.ri ∧ args.rs = .endpoint := by
        constructor
        · rintro ⟨covered, anchored, positive⟩
          exact ⟨anchored, positive, covered.1⟩
        · rintro ⟨anchored, positive, covered⟩
          exact ⟨⟨covered, rfl, rfl⟩, anchored, positive⟩
      simp only [held, Site.setHs, Function.update_self, hsPack, healthLeased]
      rw [hsCdRu, fit.health_ru]
      rfl
    · have other : ¬(ReuseSlot.endpoint eg i).Guarded (leaseOf args mode c proxy) :=
        fun held => here held.1.2
      rw [if_neg other]
      simp only [Site.setHs]
      by_cases group : eg = args.eg
      · subst group
        have apart : i ≠ c.i := fun same => here ⟨rfl, same.symm⟩
        rw [Function.update_self, Function.update_of_ne apart]
      · rw [Function.update_of_ne group]
  | site i =>
    simp only [ReuseSlot.value, write_lease_id]
    by_cases here : i = c.i
    · subst here
      obtain ⟨stored, found, rfl⟩ := fit.identity
      have read : c.sru = stored.sru := fit.sru
      have held : (ReuseSlot.site c.i).Guarded (leaseOf args mode c proxy) ↔
          args.ra = .acquired ∧ 0 < args.ri ∧ args.rs = .site := by
        constructor
        · rintro ⟨covered, anchored, positive⟩
          exact ⟨anchored, positive, covered.1⟩
        · rintro ⟨anchored, positive, covered⟩
          exact ⟨⟨covered, rfl⟩, anchored, positive⟩
      have ends : reuseEnds (leaseOf args mode c proxy) = args.now + args.ri := rfl
      simp only [found, if_true, Option.map_some, Option.getD_some, identity_leased_sru,
        raisesSite, read, held, ends, decide_eq_true_eq]
      by_cases raises : args.ra = .acquired ∧ 0 < args.ri ∧ args.rs = .site
      · by_cases above : stored.sru < args.now + args.ri
        · simp [raises, above, above.le]
        · simp [raises, above, not_lt.mp above]
      · have other : ¬(args.ra = .acquired ∧ 0 < args.ri ∧ args.rs = .site ∧
            stored.sru < args.now + args.ri) :=
          fun all => raises ⟨all.1, all.2.1, all.2.2.1⟩
        rw [if_neg raises, if_neg other]
    · have other : ¬(ReuseSlot.site i).Guarded (leaseOf args mode c proxy) :=
        fun held => here held.1.2.symm
      rw [if_neg other, if_neg here]

/-- A lease that raised the value of a slot remembers what it was. -/
theorem lease_remembers (fit : Fit args site picked sticky c id) (mode : Mode)
    (proxy : Option ProxyPick) (held : slot.Guarded (leaseOf args mode c proxy)) :
    (leaseOf args mode c proxy).pru =
      if slot.value site < reuseEnds (leaseOf args mode c proxy) then some (slot.value site)
      else none := by
  obtain ⟨covered, anchored⟩ := held
  have acquired : args.ra = .acquired ∧ 0 < args.ri := anchored
  simp only [leaseOf, reuseBefore, if_pos acquired, reuseEnds]
  cases slot with
  | endpoint eg i =>
    obtain ⟨whole, rfl, rfl⟩ : args.rs = .endpoint ∧ args.eg = eg ∧ c.i = i := covered
    have read : (if args.rs = .site then c.sru else c.hs.ru) =
        (hsCdRu (site.hs args.eg c.i)).2 := by
      simp [whole, fit.health_ru]
    rw [read]
    rfl
  | site i =>
    obtain ⟨whole, rfl⟩ : args.rs = .site ∧ c.i = i := covered
    obtain ⟨stored, found, rfl⟩ := fit.identity
    have read : c.sru = stored.sru := fit.sru
    simp [whole, read, ReuseSlot.value, found]

/-! ## Lease ends -/

theorem end_health_hs {before after : Site} (same : after.hs = before.hs) (layout : Layout)
    (lease : Lease) (reuse : ReuseEnd) (endMs now : Int) :
    (endHealth after layout lease reuse endMs now).hs =
      (endHealth before layout lease reuse endMs now).hs := by
  unfold endHealth
  dsimp only
  rw [same]
  split_ifs <;> simp only [hsSet, Site.setHs, Site.markDirty, same]

theorem ls_end_hs (layout : Layout) (lid : LeaseId) (state : LeaseState) (endMs now late : Int)
    (windows : Option (List Int)) (present : site.id lease.i = some id) :
    (lsEnd site layout lid lease state endMs now late windows).site.hs =
      (endHealth site layout lease (reuseEnd lease windows.isSome) endMs now).hs := by
  set refunded := refundAborted (endLeaseHash site lid lease state endMs now late) lease windows
    with refund
  have stays : refunded.id lease.i = some id := by
    rw [refund, refund_id]
    exact present
  have counted : (countEnd refunded lease (reuseEnd lease windows.isSome) endMs id).hs =
      site.hs := by
    rw [refund, refund_writes]
    unfold countEnd
    dsimp only
    split <;> rfl
  unfold lsEnd
  dsimp only
  rw [end_proxy_writes, ← refund]
  dsimp only
  simp only [endIdentity, stays]
  rw [(ready_after_end_only_ready ..).hs, end_health_hs counted]

theorem reuse_after_same {reuse : ReuseEnd} {ri endMs current : Int}
    (still : ¬((reuse.anchor ∧ current < endMs + ri) ∨
      (reuse.restore.isSome ∧ current = reuse.raised))) :
    reuseAfter reuse ri endMs current = current := by
  rw [not_or] at still
  unfold reuseAfter
  rw [if_neg still.1]
  split
  · next prev remembered =>
    rw [if_neg fun same => still.2 ⟨by rw [remembered]; rfl, same⟩]
  · rfl

theorem end_health_reuse (layout : Layout) (reuse : ReuseEnd) (endMs now : Int)
    (entry : (site.hs lease.e lease.i).isSome) (slot : ReuseSlot) {eg i : Hkey}
    (endpoint : slot = .endpoint eg i) :
    (hsCdRu ((endHealth site layout lease reuse endMs now).hs eg i)).2 =
      if slot.Covers lease then reuseAfter reuse lease.ri endMs (hsCdRu (site.hs eg i)).2
      else (hsCdRu (site.hs eg i)).2 := by
  subst endpoint
  obtain ⟨health, stored⟩ := Option.isSome_iff_exists.mp entry
  unfold endHealth
  simp only [stored, hsUnpack, Option.getD_some, Option.isSome_some, true_and]
  by_cases covered : (ReuseSlot.endpoint eg i).Covers lease
  · rw [if_pos covered]
    obtain ⟨whole, rfl, rfl⟩ := covered
    rw [stored]
    have current : (hsCdRu (some health)).2 = health.ru := rfl
    rw [current]
    by_cases moves : (reuse.anchor ∧ health.ru < endMs + lease.ri) ∨
        (reuse.restore.isSome ∧ health.ru = reuse.raised)
    · have anchored : lease.rs = .endpoint ∧ (reuse.anchor ∨ reuse.restore.isSome) :=
        ⟨whole, moves.imp And.left And.left⟩
      rw [if_pos anchored, if_pos moves]
      simp only [hsSet, Site.setHs, Site.markDirty, Function.update_self, hsCdRu, hsPack]
    · rw [if_neg moves, ite_self, stored, reuse_after_same moves]
      rfl
  · rw [if_neg covered]
    split_ifs with anchored
    · simp only [hsSet, Site.setHs, Site.markDirty]
      by_cases group : eg = lease.e
      · subst group
        have apart : i ≠ lease.i := fun same => covered ⟨anchored.1, rfl, same.symm⟩
        rw [Function.update_self, Function.update_of_ne apart]
      · rw [Function.update_of_ne group]
    · rfl
    · rfl

theorem ls_end_reuse (layout : Layout) (lid : LeaseId) (state : LeaseState) (endMs now late : Int)
    (windows : Option (List Int)) (present : site.id lease.i = some id)
    (entry : (site.hs lease.e lease.i).isSome) (slot : ReuseSlot) :
    slot.value (lsEnd site layout lid lease state endMs now late windows).site =
      if slot.Covers lease then
        reuseAfter (reuseEnd lease windows.isSome) lease.ri endMs (slot.value site)
      else slot.value site := by
  cases slot with
  | endpoint eg i =>
    simp only [ReuseSlot.value, ls_end_hs layout lid state endMs now late windows present]
    exact end_health_reuse layout _ endMs now entry _ rfl
  | site i =>
    simp only [ReuseSlot.value, ls_end_id layout lid state endMs now late windows present]
    by_cases here : lease.i = i
    · subst here
      simp only [Function.update_self, present, Option.map_some, Option.getD_some,
        identityEnded]
      by_cases whole : lease.rs = .site
      · rw [if_pos whole, if_pos ⟨whole, rfl⟩]
      · rw [if_neg whole, if_neg fun covered => whole covered.1]
    · rw [Function.update_of_ne (Ne.symm here), if_neg fun covered => here covered.2]

/-- The end of a lease with an `acquired` anchor: an abort brings back the value the lease
remembers, if the stored one is the one it asked for. -/
theorem ls_end_restores (layout : Layout) (lid : LeaseId) (state : LeaseState)
    (endMs now late : Int) (windows : Option (List Int)) (present : site.id lease.i = some id)
    (entry : (site.hs lease.e lease.i).isSome) (anchor : lease.ra = .acquired) (slot : ReuseSlot) :
    slot.value (lsEnd site layout lid lease state endMs now late windows).site =
      if windows.isSome ∧ slot.Guarded lease ∧ slot.value site = reuseEnds lease then
        lease.pru.getD (slot.value site)
      else slot.value site := by
  rw [ls_end_reuse layout lid state endMs now late windows present entry slot]
  by_cases covered : slot.Covers lease
  · by_cases restores : windows.isSome = true ∧ 0 < lease.ri
    · have guarded : slot.Guarded lease := ⟨covered, anchor, restores.2⟩
      rw [if_pos covered]
      simp only [reuseAfter, reuseEnd, anchor, restores.1, restores.2, guarded, reuseEnds,
        Bool.not_true, Bool.false_and, Bool.false_eq_true, false_and, if_false, and_self, if_true,
        true_and]
      cases lease.pru with
      | none => simp
      | some prev => rfl
    · have still : ¬(windows.isSome ∧ slot.Guarded lease ∧ slot.value site = reuseEnds lease) :=
        fun ⟨aborts, guarded, _⟩ => restores ⟨aborts, guarded.2.2⟩
      rw [if_pos covered, if_neg still]
      apply reuse_after_same
      simp [reuseEnd, anchor, restores]
  · rw [if_neg covered, if_neg fun restores => covered restores.2.1.1]

end Values

/-! ## The latest end -/

/-- The latest end the leases ask for, and at least `before`. -/
def ReuseSlot.due (slot : ReuseSlot) (before : Int) (leases : List (LeaseId × Lease)) : Int :=
  leases.foldl
    (fun value entry => if slot.Guarded entry.2 then max value (reuseEnds entry.2) else value)
    before

namespace ReuseSlot

variable {slot : ReuseSlot}

theorem due_append (before : Int) (first second : List (LeaseId × Lease)) :
    slot.due before (first ++ second) = slot.due (slot.due before first) second :=
  List.foldl_append

theorem due_max (before value : Int) (leases : List (LeaseId × Lease)) :
    slot.due (max before value) leases = max (slot.due before leases) value := by
  induction leases generalizing before with
  | nil => rfl
  | cons entry rest ih =>
    simp only [due, List.foldl_cons]
    split
    · rw [max_right_comm]
      exact ih _
    · exact ih _

theorem due_remove {before : Int} {lid : LeaseId} {lease : Lease}
    {leases : List (LeaseId × Lease)} (distinct : (leases.map Prod.fst).Nodup)
    (member : (lid, lease) ∈ leases) :
    slot.due before leases =
      if slot.Guarded lease then
        max (slot.due before (leases.filter fun entry => decide (entry.1 ≠ lid)))
          (reuseEnds lease)
      else slot.due before (leases.filter fun entry => decide (entry.1 ≠ lid)) := by
  induction leases generalizing before with
  | nil => cases member
  | cons first rest ih =>
    rw [List.map_cons, List.nodup_cons] at distinct
    rcases List.mem_cons.mp member with rfl | later
    · have others : rest.filter (fun entry => decide (entry.1 ≠ lid)) = rest := by
        refine List.filter_eq_self.mpr fun entry held => decide_eq_true fun same => ?_
        exact distinct.1 (List.mem_map.mpr ⟨entry, held, same⟩)
      rw [List.filter_cons_of_neg (by simp), others]
      simp only [due, List.foldl_cons]
      split
      · exact due_max before _ rest
      · rfl
    · have apart : first.1 ≠ lid := by
        rintro rfl
        exact distinct.1 (List.mem_map.mpr ⟨_, later, rfl⟩)
      rw [List.filter_cons_of_pos (by simpa using apart)]
      exact ih distinct.2 later

end ReuseSlot

/-! ## Leases in the order of their issue -/

/-- A lease with the leases that stood when it was issued. -/
structure Stood where
  entry : LeaseId × Lease
  ahead : List (LeaseId × Lease)

def standBehind (standing : List Stood) (entry : LeaseId × Lease) : List Stood :=
  standing ++ [{ entry := entry, ahead := standing.map Stood.entry }]

theorem stand_behind_entries (base : List Stood) (issues : List (LeaseId × Lease)) :
    (issues.foldl standBehind base).map Stood.entry = base.map Stood.entry ++ issues := by
  induction issues generalizing base with
  | nil => exact (List.append_nil _).symm
  | cons entry rest ih =>
    rw [List.foldl_cons, ih, standBehind, List.map_append, List.append_assoc]
    rfl

/-- What an abort of the lease brings back is the latest end of the leases before it, or its
own end if that is earlier. -/
def ReuseSlot.Remembers (slot : ReuseSlot) (before : Int) (stood : Stood) : Prop :=
  slot.Guarded stood.entry.2 →
    stood.entry.2.pru.getD (reuseEnds stood.entry.2) =
      min (slot.due before stood.ahead) (reuseEnds stood.entry.2)

/-! ## One call -/

/-- Identities and health entries that are there stay there. -/
structure Retains (before after : Site) : Prop where
  identities : ∀ i, (before.id i).isSome → (after.id i).isSome
  entries : ∀ eg i, (before.hs eg i).isSome → (after.hs eg i).isSome

theorem Retains.trans {first second third : Site} (left : Retains first second)
    (right : Retains second third) : Retains first third :=
  ⟨fun i held => right.identities i (left.identities i held),
    fun eg i held => right.entries eg i (left.entries eg i held)⟩

theorem Quiet.retains {before after : Site} (quiet : Quiet before after) :
    Retains before after where
  identities i held := by
    have same := congrArg Option.isSome (quiet.identities i)
    simp only [Option.isSome_map] at same
    rwa [same]
  entries eg i held := by rwa [quiet.hs]

theorem write_lease_retains (args : AcquireArgs) (mode : Mode) (site : Site) (c : Candidate)
    (lead : String) (proxy : Option ProxyPick) :
    Retains site (writeLease args mode site c lead proxy) ∧
      ((writeLease args mode site c lead proxy).hs args.eg c.i).isSome := by
  refine ⟨⟨fun i held => ?_, fun eg i held => ?_⟩, ?_⟩
  · rw [write_lease_id]
    split
    · rwa [Option.isSome_map]
    · exact held
  · rw [write_lease_hs]
    simp only [Site.setHs]
    by_cases group : eg = args.eg
    · subst group
      by_cases here : i = c.i
      · simp [here]
      · rwa [Function.update_self, Function.update_of_ne here]
    · rwa [Function.update_of_ne group]
  · rw [write_lease_hs]
    simp [Site.setHs]

theorem ls_end_retains {site : Site} {lease : Lease} (layout : Layout) (lid : LeaseId)
    (state : LeaseState) (endMs now late : Int) (windows : Option (List Int))
    (present : site.id lease.i = some id) :
    Retains site (lsEnd site layout lid lease state endMs now late windows).site where
  identities i held := by
    rw [ls_end_id layout lid state endMs now late windows present]
    by_cases here : i = lease.i
    · simp [here]
    · rwa [Function.update_of_ne here]
  entries eg i held := by
    rw [ls_end_hs layout lid state endMs now late windows present]
    unfold endHealth
    dsimp only
    split_ifs
    · simp only [hsSet, Site.setHs, Site.markDirty]
      by_cases group : eg = lease.e
      · subst group
        by_cases here : i = lease.i
        · simp [here]
        · rwa [Function.update_self, Function.update_of_ne here]
      · rwa [Function.update_of_ne group]
    · exact held
    · exact held

def issuedLeases (site : Site) (replies : List LeaseReply) : List (LeaseId × Lease) :=
  replies.filterMap fun reply => (site.ls.lookup reply.lid).map fun lease => (reply.lid, lease)

/-- The leases of a call, as they are stored after it, raise the reuse value of a slot to
the latest end they ask for and remember what it was. -/
theorem acquire_reuse (args : AcquireArgs) (site : Site) (distinct : args.prefixes.Nodup) :
    ∃ issues : List (LeaseId × Lease),
      issuedLeases (acquire args site).1 (acquire args site).2.leases = issues ∧
      (issues.map fun entry => entry.1.lead).Nodup ∧
      (∀ entry ∈ issues, entry.1.lead ∈ args.prefixes ∧ entry.2.ra = args.ra ∧
        ((acquire args site).1.id entry.2.i).isSome ∧
        ((acquire args site).1.hs entry.2.e entry.2.i).isSome) ∧
      (acquire args site).1.ls = Table.insertAll site.ls issues ∧
      Retains site (acquire args site).1 ∧
      ∀ (slot : ReuseSlot) (before : Int) (base : List Stood),
        slot.value site = slot.due before (base.map Stood.entry) →
        (∀ stood ∈ base, slot.Remembers before stood) →
        slot.value (acquire args site).1 = slot.due before (base.map Stood.entry ++ issues) ∧
          ∀ stood ∈ issues.foldl standBehind base, slot.Remembers before stood := by
  obtain ⟨probe, writes, wrote, replies, -, -, bounded, granted⟩ := acquire_wrote args site
  set mode := modeOf args probe
  set issues := writes.map (Write.issue args mode) with issued
  have leads : issues.map (fun entry => entry.1.lead) = args.prefixes.take writes.length := by
    rw [issued, List.map_map]
    exact issue_leads granted bounded
  have nodup : (issues.map fun entry => entry.1.lead).Nodup := by
    rw [leads]
    exact distinct.sublist (List.take_sublist _ _)
  have keys : (issues.map Prod.fst).Nodup := by
    refine List.Nodup.of_map LeaseId.lead ?_
    rwa [List.map_map]
  have stored := wrote.ls
  have held : Retains site (acquire args site).1 ∧ ∀ write ∈ writes,
      ((acquire args site).1.id write.c.i).isSome ∧
        ((acquire args site).1.hs args.eg write.c.i).isSome := by
    refine @Wrote.rule _ _ _ _ _ (fun writes after => Retains site after ∧ ∀ write ∈ writes,
      (after.id write.c.i).isSome ∧ (after.hs args.eg write.c.i).isSome) wrote granted ?_ ?_ ?_
    · exact ⟨⟨fun _ held => held, fun _ _ held => held⟩, fun write none => by cases none⟩
    · intro writes before after quiet held
      refine ⟨held.1.trans quiet.retains, fun write member => ?_⟩
      obtain ⟨identity, entry⟩ := held.2 write member
      exact ⟨quiet.retains.identities _ identity, quiet.retains.entries _ _ entry⟩
    · intro writes write grant held
      obtain ⟨id, fit⟩ := grant.fit
      obtain ⟨identity, found, -⟩ := fit.identity
      obtain ⟨retains, entry⟩ := write_lease_retains args mode write.before write.c write.lead
        write.proxy
      refine ⟨held.1.trans retains, fun other member => ?_⟩
      rcases List.mem_append.mp member with old | new
      · obtain ⟨present, health⟩ := held.2 other old
        exact ⟨retains.identities _ present, retains.entries _ _ health⟩
      · rw [List.mem_singleton.mp new]
        exact ⟨retains.identities _ (by rw [found]; rfl), entry⟩
  refine ⟨issues, ?_, nodup, ?_, stored, held.1, fun slot before base exact known => ?_⟩
  · rw [replies, issuedLeases, List.filterMap_map, issued, ← List.filterMap_eq_map]
    apply List.filterMap_congr
    intro write member
    have entry : write.issue args mode ∈ issues := List.mem_map_of_mem member
    have found := Table.lookup_insert_all keys entry site.ls
    simp only [Function.comp_apply]
    rw [stored]
    exact congrArg (Option.map _) found
  · intro entry member
    obtain ⟨write, chosen, rfl⟩ := List.mem_map.mp member
    have lead : (write.issue args mode).1.lead ∈ issues.map fun entry => entry.1.lead :=
      List.mem_map_of_mem member
    rw [leads] at lead
    exact ⟨(List.take_sublist _ _).subset lead, rfl, held.2 write chosen⟩
  · refine @Wrote.rule _ _ _ _ _ (fun writes after =>
      slot.value after =
        slot.due before (base.map Stood.entry ++ writes.map (Write.issue args mode)) ∧
      ∀ stood ∈ (writes.map (Write.issue args mode)).foldl standBehind base,
        slot.Remembers before stood) wrote granted ?_ ?_ ?_
    · refine ⟨?_, known⟩
      rw [List.map_nil, List.append_nil, ← exact]
      cases slot <;> rfl
    · intro writes earlier later quiet held
      rwa [quiet.reuse_value]
    · intro writes write grant held
      obtain ⟨id, fit⟩ := grant.fit
      rw [List.map_append, List.map_singleton]
      refine ⟨?_, ?_⟩
      · rw [← List.append_assoc, ReuseSlot.due_append, Write.after, write_lease_reuse fit, held.1]
        rfl
      · rw [List.foldl_append, List.foldl_cons, List.foldl_nil, standBehind, stand_behind_entries]
        intro stood member
        rcases List.mem_append.mp member with old | new
        · exact held.2 stood old
        · rw [List.mem_singleton.mp new]
          intro guarded
          have remembered := lease_remembers fit mode write.proxy guarded
          rw [held.1] at remembered
          dsimp only [Write.issue] at remembered ⊢
          rw [remembered]
          split_ifs with raises
          · exact (min_eq_left raises.le).symm
          · exact (min_eq_right (not_lt.mp raises)).symm

end Spinneret.Scheduler
