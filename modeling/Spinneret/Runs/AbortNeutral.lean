import Spinneret.Runs.Counters
import Spinneret.Runs.QuotaBound
import Spinneret.Scheduler.ReuseValue

/-!
# An aborted acquire leaves no trace

A lease that was never delivered is aborted. What acquire counted for it is taken back
from the fields that the lease remembers: the counters of its identity and proxy, the
quota windows, the reuse value and the probe slot. This restores what was there before,
except for the exclusive hold of an identity that no lease holds, for the slot of a probe
window that started later than the lease was issued, and for a quota window that the
policy names twice: it is counted once and refunded twice.
-/

namespace Spinneret.Runs

open Spinneret.HotState Spinneret.Lib Spinneret.Scheduler Spinneret.Breakers

set_option autoImplicit false

/-- The probe slots used in the probe window that runs at `now`. -/
def probeSlots (now : Int) (breaker : Breaker) : Int :=
  if breaker.st = .halfOpen ∧ now - breaker.hw < probeWindow then breaker.hc else 0

/-- What an acquire counts and raises is as it was. -/
structure Neutral (now : Int) (before after : Site) : Prop where
  leases : ∀ i, identityAl after i = identityAl before i
  exclusive : ∀ i, identityXl after i = identityXl before i
  proxies : ∀ p, proxyAl after p = proxyAl before p
  quotas : ∀ eg i w, quotaRolled ((after.q eg i).cells w) (now / w) =
    quotaRolled ((before.q eg i).cells w) (now / w)
  reuse : ∀ slot : ReuseSlot, slot.value after = slot.value before
  slots : ∀ eg, probeSlots now (after.brk eg) = probeSlots now (before.brk eg)

/-- The abort of the only lease of a call, under the same policy. -/
structure Undoes (args : AcquireArgs) (reply : LeaseReply) (abort : ReleaseArgs) : Prop where
  lid : abort.lid = reply.lid
  undelivered : abort.abort = true
  windows : abort.windows = args.quotas.map QuotaWindow.window
  ours : abort.ns = none ∨ abort.ns = some args.ns

/-! ## What a lease end gives back -/

section Ends

variable {site : Site} {lease : Lease} {id : Identity} (layout : Layout) (lid : LeaseId)
  (state : LeaseState) (endMs now late : Int) (windows : Option (List Int))

theorem ls_end_al (present : site.id lease.i = some id) (i : Hkey) :
    identityAl (lsEnd site layout lid lease state endMs now late windows).site i =
      if i = lease.i then (decrement (identityAl site i)).1 else identityAl site i := by
  simp only [identityAl, ls_end_id layout lid state endMs now late windows present]
  by_cases here : i = lease.i
  · subst here
    simp [present, identityEnded]
  · simp [here]

theorem ls_end_xl (present : site.id lease.i = some id) (i : Hkey) :
    identityXl (lsEnd site layout lid lease state endMs now late windows).site i =
      if i = lease.i ∧ (decrement (identityAl site i)).1 = 0 then 0 else identityXl site i := by
  simp only [identityXl, identityAl, ls_end_id layout lid state endMs now late windows present]
  by_cases here : i = lease.i
  · subst here
    simp [present, identityEnded]
  · simp [here]

theorem ls_end_pal (p : Hkey) :
    proxyAl (lsEnd site layout lid lease state endMs now late windows).site p =
      if lease.p = some p ∧ (site.px p).isSome then (decrement (proxyAl site p)).1
      else proxyAl site p := by
  set identity := endIdentity (refundAborted (endLeaseHash site lid lease state endMs now late)
    lease windows) layout lease windows.isSome endMs now
  have hashes : identity.site.px = site.px := by
    rw [end_identity_writes, refund_writes]
    rfl
  show proxyAl (endProxy identity.site lease now).site p = _
  cases holds : lease.p with
  | none => simp [endProxy, holds, proxyAl, hashes]
  | some held =>
    cases present : site.px held with
    | none =>
      have absent : identity.site.px held = none := hashes ▸ present
      have none (same : held = p) : ¬(site.px p).isSome := by
        rw [← same, present]
        exact Bool.false_ne_true
      rw [if_neg fun gives => none (Option.some.inj gives.1) gives.2]
      simp [endProxy, holds, absent, proxyAl, hashes]
    | some proxy =>
      have found : identity.site.px held = some proxy := hashes ▸ present
      rw [(end_proxy_untouched now holds found).pal]
      simp only [proxyAl, Site.setPx, hashes]
      by_cases here : p = held
      · subst here
        simp [present]
      · rw [Function.update_of_ne here, if_neg fun gives => here (Option.some.inj gives.1).symm]

end Ends

/-! ## Quota windows and probe slots -/

theorem rolled_nonneg {cell : Option QuotaCell} (idx : Int)
    (counted : ∀ stored, cell = some stored → 0 ≤ stored.n) : 0 ≤ (quotaRolled cell idx).1 := by
  unfold quotaRolled
  split
  · exact le_refl 0
  · next stored =>
    split_ifs
    · exact counted stored rfl
    · exact le_refl 0
    · exact le_refl 0

theorem refund_times {now w : Int} {cell : QuotaCell} (current : cell.c = now / w)
    (counted : 0 ≤ cell.n) (times : Nat) :
    (quotaRefund now w)^[times] cell = { cell with n := max (cell.n - times) 0 } := by
  induction times with
  | zero => simp [counted]
  | succ times ih =>
    rw [Function.iterate_succ_apply', ih]
    unfold quotaRefund
    dsimp only
    split_ifs with positive
    · congr 1
      omega
    · have spent := mt (And.intro current) positive
      congr 1
      omega

theorem rolled_current {cell : QuotaCell} {idx : Int} (current : cell.c = idx) :
    quotaRolled (some cell) idx = (cell.n, cell.p) :=
  if_pos current

/-- The refunds of a counted request bring the counts of its window back, unless there
are several and they take from another request. -/
theorem refunded_rolled_iff {now w : Int} {cell : Option QuotaCell}
    (counted : ∀ stored, cell = some stored → 0 ≤ stored.n) (times : Nat) :
    quotaRolled (some ((quotaRefund now w)^[times + 1] (quotaCounted now w cell))) (now / w) =
        quotaRolled cell (now / w) ↔
      (1 ≤ times → (quotaRolled cell (now / w)).1 = 0) := by
  have current := quota_counted_c now w cell
  have rolled := counted_rolled now w cell
  rw [rolled_current current] at rolled
  obtain ⟨count, previous⟩ := Prod.mk.inj rolled
  have nonneg := rolled_nonneg (now / w) counted
  set before := quotaRolled cell (now / w)
  have stays : 0 ≤ (quotaCounted now w cell).n := by
    rw [count]
    exact Int.add_nonneg nonneg Int.one_nonneg
  rw [refund_times current stays, rolled_current (by exact current)]
  dsimp only
  rw [count, previous, Prod.ext_iff]
  constructor
  · rintro ⟨same, -⟩ several
    dsimp only at same
    omega
  · intro alone
    refine ⟨?_, rfl⟩
    dsimp only
    omega

theorem half_open_slots_refunded {now : Int} {breaker : Breaker} (half : breaker.st = .halfOpen)
    (counted : 0 ≤ breaker.hc) :
    probeSlots now (probeRefund now { rollProbeWindow now breaker with
        hc := (rollProbeWindow now breaker).hc + 1 }) =
      probeSlots now breaker ↔ breaker.hw ≤ now := by
  have wide : 0 < probeWindow := by decide
  unfold rollProbeWindow
  split_ifs with passed
  · have past : breaker.hw ≤ now := by omega
    have spent : ¬now - breaker.hw < probeWindow := not_lt.mpr passed
    simp [probeSlots, probeRefund, half, past, spent]
  · by_cases past : breaker.hw ≤ now
    · have slot : ¬breaker.hc < 0 := not_lt.mpr counted
      simp [probeSlots, probeRefund, half, past, slot]
    · have runs : now - breaker.hw < probeWindow := by omega
      simp [probeSlots, probeRefund, half, past, runs]

/-- A probe that was charged to the window of a breaker and refunded: the slot is free
again unless the window started after the call. -/
theorem probe_slots_refunded {args : AcquireArgs} {breaker : Breaker}
    (passed : ∃ probe, (breakerGate args breaker).verdict = .inr probe)
    (counted : 0 ≤ breaker.hc) :
    probeSlots args.now (if probing args breaker then
        probeRefund args.now (breakerAcquired args breaker 1) else breakerAcquired args breaker 1) =
      probeSlots args.now breaker ↔ (breaker.st = .halfOpen → breaker.hw ≤ args.now) := by
  obtain ⟨probe, passed⟩ := passed
  have probes : probing args breaker = probe := by simp only [probing, passed]
  simp only [breakerAcquired, probes]
  unfold breakerGate at passed ⊢
  cases state : breaker.st with
  | closed =>
    simp only [state, Sum.inr.injEq] at passed ⊢
    simp [← passed, probeSlots, state]
  | opened =>
    simp only [state] at passed ⊢
    cases opens : lazyHalfOpen args.now breaker with
    | inr retry => simp [opens] at passed
    | inl opened =>
      have fresh : opened.st = .halfOpen ∧ opened.hw = args.now ∧ opened.hc = 0 := by
        unfold lazyHalfOpen at opens
        split_ifs at opens
        cases opens
        exact ⟨rfl, rfl, rfl⟩
      obtain ⟨half, starts, unused⟩ := fresh
      have restored := (half_open_slots_refunded half unused.ge).mpr starts.le
      simp only [opens, halfOpenGate] at passed ⊢
      split_ifs at passed
      simp only [Sum.inr.injEq] at passed
      subst passed
      rw [if_pos rfl]
      simp only [if_true, Nat.cast_one]
      rw [restored]
      simp [probeSlots, state, unused]
  | halfOpen =>
    simp only [state, halfOpenGate] at passed ⊢
    have half := @half_open_slots_refunded args.now _ state counted
    split_ifs at passed
    simp only [Sum.inr.injEq] at passed
    simpa [← passed] using half

/-! ## One lease -/

/-- What the call that issued `reply` alone wrote, and the lease it stored. -/
structure Leased (args : AcquireArgs) (before after : Site) (reply : LeaseReply)
    (lease : Lease) : Prop where
  stored : after.ls.lookup reply.lid = some lease
  active : lease.st = .active
  ns : lease.ns = args.ns
  issued : lease.a = args.now
  group : lease.e = args.eg
  identity : lease.i = reply.i
  probe : lease.pr = probing args (before.brk args.eg)
  present : (after.id reply.i).isSome
  entry : (after.hs args.eg reply.i).isSome
  al : ∀ i, identityAl after i = identityAl before i + if reply.i = i then 1 else 0
  xl : ∀ i, identityXl after i ≠ identityXl before i → reply.i = i ∧ identityAl before i < 1
  pal : ∀ p, proxyAl after p = proxyAl before p + if lease.p = some p then 1 else 0
  served : ∀ p, lease.p = some p → (after.px p).isSome
  cells : ∀ eg i w, ((after.q eg i).cells w) =
    if args.eg = eg ∧ reply.i = i ∧ w ∈ args.quotas.map QuotaWindow.window then
      some (quotaCounted args.now w ((before.q eg i).cells w))
    else (before.q eg i).cells w
  reuse : ∀ slot : ReuseSlot, slot.value after =
    if slot.Guarded lease then max (slot.value before) (reuseEnds lease) else slot.value before
  remembers : ∀ slot : ReuseSlot, slot.Guarded lease →
    lease.pru = if slot.value before < reuseEnds lease then some (slot.value before) else none
  brk : after.brk = Function.update before.brk args.eg
    (breakerAcquired args (before.brk args.eg) 1)
  passed : ∃ probe, (breakerGate args (before.brk args.eg)).verdict = .inr probe

section Single

variable {args : AcquireArgs} {site : Site} {reply : LeaseReply} {abort : ReleaseArgs}

theorem acquire_leased (single : (acquire args site).2.leases = [reply]) :
    ∃ lease, Leased args site (acquire args site).1 reply lease := by
  obtain ⟨mode, write, calm, grant, later, same⟩ := acquire_single single
  have lid : reply.lid = leaseIdOf args write.lead write.c := by rw [same]; rfl
  have key : reply.i = write.c.i := by rw [same]; rfl
  have probe : reply.probe = mode.probe := by rw [same]; rfl
  obtain ⟨id, fit⟩ := grant.fit
  have effect := acquire_gate_effect args site
  rw [single] at effect
  have served : ∀ pick, write.proxy = some pick → (write.before.px pick.p).isSome :=
    fun pick chosen => Carried.present (chosen ▸ grant.carried)
  obtain ⟨retains, entry⟩ := write_lease_retains args mode write.before write.c write.lead
    write.proxy
  refine ⟨leaseOf args mode write.c write.proxy, ?_, rfl, rfl, rfl, rfl, key.symm, ?_, ?_, ?_, ?_,
    ?_, ?_, ?_, ?_, ?_, ?_, effect.brk, ?_⟩
  · rw [lid, later.ls, Write.after, write_lease_ls]
    exact AList.lookup_insert _
  · exact probe.symm.trans (effect.marked _ (List.mem_singleton_self _))
  · obtain ⟨stored, found, -⟩ := fit.identity
    rw [key]
    exact later.retains.identities _ (retains.identities _ (by rw [found]; rfl))
  · rw [key]
    exact later.retains.entries _ _ entry
  · intro i
    rw [later.same_ledger.al, Write.after, write_lease_al mode _ _ fit.verified,
      calm.same_ledger.al, key]
    rfl
  · intro i moved
    rw [later.xl, Write.after, write_lease_xl fit.verified, calm.xl] at moved
    have here : i = write.c.i ∧ args.mc = 1 := by
      by_contra other
      rw [if_neg other] at moved
      exact moved rfl
    obtain ⟨rfl, exclusive⟩ := here
    refine ⟨key, ?_⟩
    have counted : identityAl write.before write.c.i = write.c.al := by
      rw [identityAl, fit.verified.stored]
      rfl
    have same : identityAl site write.c.i = write.c.al :=
      (calm.same_ledger.al write.c.i).symm.trans counted
    rw [same, ← exclusive]
    exact fit.verified.below
  · intro p
    rw [later.same_ledger.pal, Write.after, write_lease_pal mode _ _ served,
      calm.same_ledger.pal]
    rfl
  · intro p holds
    obtain ⟨pick, chosen, rfl⟩ := Option.map_eq_some_iff.mp holds
    rw [later.px, Write.after, write_lease_px]
    split
    · rw [Option.isSome_map]
      exact served pick chosen
    · exact served pick chosen
  · intro eg i w
    rw [later.q, Write.after, write_lease_q, quota_write_cell, calm.q, fit.cells, calm.q, key]
    split
    · next listed =>
      obtain ⟨rfl, rfl, -⟩ := listed
      rfl
    · rfl
  · intro slot
    rw [later.reuse_value, Write.after, write_lease_reuse fit, calm.reuse_value]
    cases slot <;> rfl
  · intro slot guarded
    have remembered := lease_remembers fit mode write.proxy guarded
    rw [calm.reuse_value] at remembered
    rw [remembered]
    cases slot <;> rfl
  · cases gate : (breakerGate args (site.brk args.eg)).verdict with
    | inl retry => exact absurd (effect.refused retry gate) (List.cons_ne_nil _ _)
    | inr probe => exact ⟨probe, rfl⟩

end Single

namespace Leased

variable {args : AcquireArgs} {site after : Site} {reply : LeaseReply} {lease : Lease}
  (layout : Layout) (lid : LeaseId) (state : LeaseState) (endMs now late : Int)

theorem al_restored (leased : Leased args site after reply lease) (windows : Option (List Int))
    {i : Hkey} (counted : 0 ≤ identityAl site i) :
    identityAl (lsEnd after layout lid lease state endMs now late windows).site i =
      identityAl site i := by
  obtain ⟨id, present⟩ := Option.isSome_iff_exists.mp leased.present
  rw [← leased.identity] at present
  rw [ls_end_al layout lid state endMs now late windows present, leased.al, ← leased.identity]
  by_cases here : i = lease.i
  · rw [if_pos here, if_pos here.symm, decrement_counted (Int.le_add_of_nonneg_left counted)]
    exact add_sub_cancel_right _ _
  · rw [if_neg here, if_neg (Ne.symm here)]
    exact add_zero _

/-- The end of the only lease of an identity clears its hold. -/
theorem xl_restored_iff (leased : Leased args site after reply lease)
    (windows : Option (List Int)) (counted : ∀ i, 0 ≤ identityAl site i) :
    (∀ i, identityXl (lsEnd after layout lid lease state endMs now late windows).site i =
      identityXl site i) ↔ (identityAl site reply.i = 0 → identityXl site reply.i = 0) := by
  obtain ⟨id, present⟩ := Option.isSome_iff_exists.mp leased.present
  rw [← leased.identity] at present
  have left := leased.al_restored layout lid state endMs now late windows (counted reply.i)
  rw [ls_end_al layout lid state endMs now late windows present,
    if_pos leased.identity.symm] at left
  simp only [ls_end_xl layout lid state endMs now late windows present, leased.identity]
  constructor
  · intro same alone
    have here := same reply.i
    rw [left, if_pos ⟨rfl, alone⟩] at here
    exact here.symm
  · intro cleared i
    by_cases here : i = reply.i
    · subst here
      rw [left]
      split_ifs with alone
      · exact (cleared alone.2).symm
      · by_contra moved
        have few := (leased.xl _ moved).2
        have some := counted reply.i
        exact alone ⟨rfl, by omega⟩
    · rw [if_neg fun gone => here gone.1]
      by_contra moved
      exact here (leased.xl i moved).1.symm

theorem pal_restored (leased : Leased args site after reply lease) (windows : Option (List Int))
    {p : Hkey} (counted : 0 ≤ proxyAl site p) :
    proxyAl (lsEnd after layout lid lease state endMs now late windows).site p =
      proxyAl site p := by
  rw [ls_end_pal, leased.pal]
  by_cases here : lease.p = some p
  · rw [if_pos ⟨here, leased.served p here⟩, if_pos here,
      decrement_counted (Int.le_add_of_nonneg_left counted)]
    exact add_sub_cancel_right _ _
  · rw [if_neg fun gone => here gone.1, if_neg here]
    exact add_zero _

theorem cells_ended (leased : Leased args site after reply lease) (epoch : 0 < args.now)
    (windows : List Int) (eg i : Hkey) (w : Int) :
    ((lsEnd after layout lid lease state endMs now late (some windows)).site.q eg i).cells w =
      if args.eg = eg ∧ reply.i = i then
        (Option.map (quotaRefund args.now w))^[windows.count w] ((after.q eg i).cells w)
      else (after.q eg i).cells w := by
  have positive : 0 < lease.a := by rwa [leased.issued]
  have metered : (lsEnd after layout lid lease state endMs now late (some windows)).site.q =
      (windows.foldl (refundWindow lease)
        (endLeaseHash after lid lease state endMs now late)).q := by
    rw [ls_end_q]
    simp only [refundAborted, abortAccounting, if_pos positive]
    split <;> rfl
  rw [metered, refund_windows_cells, leased.group, leased.identity, leased.issued]
  by_cases here : args.eg = eg ∧ reply.i = i
  · obtain ⟨rfl, rfl⟩ := here
    simp only [Function.update_self, and_self, if_true]
    rfl
  · rw [if_neg here]
    by_cases group : eg = args.eg
    · subst group
      have other : i ≠ reply.i := fun same => here ⟨rfl, same.symm⟩
      rw [Function.update_self, Function.update_of_ne other]
      rfl
    · rw [Function.update_of_ne group]
      rfl

theorem cells_restored_iff (leased : Leased args site after reply lease)
    (counted : QuotasCounted site) (epoch : 0 < args.now) :
    (∀ eg i w, quotaRolled (((lsEnd after layout lid lease state endMs now late
        (some (args.quotas.map QuotaWindow.window))).site.q eg i).cells w) (args.now / w) =
      quotaRolled ((site.q eg i).cells w) (args.now / w)) ↔
    ∀ w, 2 ≤ (args.quotas.map QuotaWindow.window).count w →
      (quotaRolled ((site.q args.eg reply.i).cells w) (args.now / w)).1 = 0 := by
  set windows := args.quotas.map QuotaWindow.window with listing
  have window (w : Int) : (∀ eg i, quotaRolled (((lsEnd after layout lid lease state endMs now late
        (some windows)).site.q eg i).cells w) (args.now / w) =
      quotaRolled ((site.q eg i).cells w) (args.now / w)) ↔
      (2 ≤ windows.count w →
        (quotaRolled ((site.q args.eg reply.i).cells w) (args.now / w)).1 = 0) := by
    simp only [leased.cells_ended layout lid state endMs now late epoch, leased.cells, ← listing]
    cases times : windows.count w with
    | zero =>
      have unlisted : w ∉ windows := List.count_eq_zero.mp times
      simp [unlisted]
    | succ more =>
      have listed : w ∈ windows := List.count_pos_iff.mp (times ▸ Nat.succ_pos more)
      have refunded := @refunded_rolled_iff args.now w _ (counted args.eg reply.i w) more
      have through : Function.Semiconj some (quotaRefund args.now w)
          (Option.map (quotaRefund args.now w)) := fun cell => rfl
      rw [Nat.succ_le_succ_iff, ← refunded, (through.iterate_right (more + 1)).eq]
      constructor
      · intro same
        simpa only [listed, and_self, if_true] using same args.eg reply.i
      · intro same eg i
        by_cases here : args.eg = eg ∧ reply.i = i
        · obtain ⟨rfl, rfl⟩ := here
          simpa only [listed, and_self, if_true] using same
        · rw [if_neg here, if_neg fun both => here ⟨both.1, both.2.1⟩]
  constructor
  · intro same w
    exact (window w).mp fun eg i => same eg i w
  · intro alone eg i w
    exact (window w).mpr (alone w) eg i

theorem reuse_restored (leased : Leased args site after reply lease) (windows : List Int)
    (slot : ReuseSlot) :
    slot.value (lsEnd after layout lid lease state endMs now late (some windows)).site =
      slot.value site := by
  obtain ⟨id, present⟩ := Option.isSome_iff_exists.mp leased.present
  rw [← leased.identity] at present
  have entry := leased.entry
  rw [← leased.identity, ← leased.group] at entry
  rw [ls_end_reuse layout lid state endMs now late _ present entry slot, leased.reuse]
  by_cases covered : slot.Covers lease
  · rw [if_pos covered]
    by_cases guarded : slot.Guarded lease
    · have anchored : lease.ra = .acquired ∧ 0 < lease.ri := guarded.2
      rw [if_pos guarded]
      simp only [reuseAfter, reuseEnd, Option.isSome_some, Bool.not_true, Bool.false_and,
        Bool.false_eq_true, false_and, if_false, anchored, and_self, if_true,
        leased.remembers slot guarded]
      by_cases below : slot.value site < reuseEnds lease
      · rw [if_pos below]
        exact if_pos (max_eq_right below.le)
      · rw [if_neg below]
        exact max_eq_left (not_lt.mp below)
    · rw [if_neg guarded]
      have bare : ¬(lease.ra = .acquired ∧ 0 < lease.ri) :=
        fun anchored => guarded ⟨covered, anchored⟩
      apply reuse_after_same
      simp [reuseEnd, bare]
  · rw [if_neg covered, if_neg fun guarded => covered guarded.1]

theorem slots_restored_iff (leased : Leased args site after reply lease) (windows : List Int)
    (counted : 0 ≤ (site.brk args.eg).hc) :
    (∀ eg, probeSlots args.now
        ((lsEnd after layout lid lease state endMs now late (some windows)).site.brk eg) =
      probeSlots args.now (site.brk eg)) ↔
    ((site.brk args.eg).st = .halfOpen → (site.brk args.eg).hw ≤ args.now) := by
  have refunded : (lsEnd after layout lid lease state endMs now late (some windows)).site.brk =
      Function.update site.brk args.eg (if probing args (site.brk args.eg) then
        probeRefund args.now (breakerAcquired args (site.brk args.eg) 1)
      else breakerAcquired args (site.brk args.eg) 1) := by
    rw [(ls_end_frame ..).2.1, (refund_breakers ..).1, leased.probe, leased.group, leased.issued,
      leased.brk]
    by_cases probe : probing args (site.brk args.eg)
    · simp [probe]
    · simp [probe]
  rw [← probe_slots_refunded leased.passed counted, refunded]
  constructor
  · intro same
    simpa using same args.eg
  · intro same eg
    by_cases here : eg = args.eg
    · subst here
      simpa using same
    · rw [Function.update_of_ne here]

end Leased

section Abort

variable {args : AcquireArgs} {site : Site} {reply : LeaseReply} {abort : ReleaseArgs}

theorem Leased.release {after : Site} {lease : Lease} (leased : Leased args site after reply lease)
    (undoes : Undoes args reply abort) :
    (release abort after).1 = lsEnd after abort.layout reply.lid lease .released abort.now
      abort.now abort.late (some (args.quotas.map QuotaWindow.window)) := by
  have found : after.ls.lookup abort.lid = some lease := by
    rw [undoes.lid]
    exact leased.stored
  rw [release_ends found leased.active (leased.ns ▸ undoes.ours), undoes.lid,
    if_pos undoes.undelivered, undoes.windows]

/-- What is left of a lease that was issued and aborted with nothing in between. -/
theorem acquire_abort_neutral (counters : Counters site) (slots : ∀ eg, 0 ≤ (site.brk eg).hc)
    (epoch : 0 < args.now) (single : (acquire args site).2.leases = [reply])
    (undoes : Undoes args reply abort) :
    Neutral args.now site (release abort (acquire args site).1).1.site ↔
      (identityAl site reply.i = 0 → identityXl site reply.i = 0) ∧
        ((site.brk args.eg).st = .halfOpen → (site.brk args.eg).hw ≤ args.now) ∧
        ∀ w, 2 ≤ (args.quotas.map QuotaWindow.window).count w →
          (quotaRolled ((site.q args.eg reply.i).cells w) (args.now / w)).1 = 0 := by
  obtain ⟨lease, leased⟩ := acquire_leased single
  rw [leased.release undoes]
  have exclusive := leased.xl_restored_iff abort.layout reply.lid .released abort.now abort.now
    abort.late (some (args.quotas.map QuotaWindow.window)) counters.identities
  have quotas := leased.cells_restored_iff abort.layout reply.lid .released abort.now abort.now
    abort.late counters.quotas epoch
  have probes := leased.slots_restored_iff abort.layout reply.lid .released abort.now abort.now
    abort.late (args.quotas.map QuotaWindow.window) (slots args.eg)
  constructor
  · intro neutral
    exact ⟨exclusive.mp neutral.exclusive, probes.mp neutral.slots, quotas.mp neutral.quotas⟩
  · rintro ⟨free, running, alone⟩
    exact
      { leases := fun i => leased.al_restored _ _ _ _ _ _ _ (counters.identities i)
        exclusive := exclusive.mpr free
        proxies := fun p => leased.pal_restored _ _ _ _ _ _ _ (counters.proxies p)
        quotas := quotas.mpr alone
        reuse := leased.reuse_restored _ _ _ _ _ _ _
        slots := probes.mpr running }

end Abort

/-- In every state reached from one without negative counts, the abort of the only lease of
a call restores what the call counted and raised if and only if no hold is stored for an idle
identity, the probe window of the group has not started after the call, and a quota window
that the policy names more than once, in whole milliseconds, has counted no other request. -/
theorem aborted_acquire_neutral_iff {start : Site} {ops : List SiteOp} {run : SiteRun}
    {args : AcquireArgs} {reply : LeaseReply} {abort : ReleaseArgs} (counted : Counters start)
    (unspent : ∀ eg, 0 ≤ (start.brk eg).hc)
    (reached : Machine.run siteStep (.start start) ops = some run) (epoch : 0 < args.now)
    (single : (acquire args run.site).2.leases = [reply]) (undoes : Undoes args reply abort) :
    Neutral args.now run.site (release abort (acquire args run.site).1).1.site ↔
      (identityAl run.site reply.i = 0 → identityXl run.site reply.i = 0) ∧
        ((run.site.brk args.eg).st = .halfOpen → (run.site.brk args.eg).hw ≤ args.now) ∧
        ∀ w, 2 ≤ (args.quotas.map QuotaWindow.window).count w →
          (quotaRolled ((run.site.q args.eg reply.i).cells w) (args.now / w)).1 = 0 := by
  obtain ⟨counters, slots⟩ := run_counters counted unspent reached
  exact acquire_abort_neutral counters slots epoch single undoes

def lonelySync : SyncArgs :=
  { now := 1000, merge := false, mergeAccounts := false, resetHealth := false
    resetFailuresArg := false, cold := false, baselines := fun _ => none, accounts := []
    records := [.sync { i := 7, iid := "idt_7", st := .active, ty := "", tv := "", pv := ""
                        acc := none, rg := "", bu := 0, qu := 0, act := 0, px := none
                        profile := ⟨[1], []⟩, jitter := 0, sct := 0 }] }

def limitedCall (quotas : List QuotaWindow) (now : Int) (lead : String) : AcquireArgs :=
  { plainAcquire 1 now lead with mc := 2, ri := 300, rs := .site, quotas := quotas }

def abortedCall (quotas : List QuotaWindow) (lead : String) : ReleaseArgs :=
  { now := 1900, lid := { lead := lead, shard := 0 }, late := 0, ns := none, abort := true
    windows := quotas.map QuotaWindow.window, layout := [] }

def deliveredOnce (quotas : List QuotaWindow) : List SiteOp :=
  [.sync lonelySync, .acquire (limitedCall quotas 1200 "a")]

def twoWindows : List QuotaWindow := [⟨5, 1000⟩, ⟨9, 2000⟩]

/-- Identity 7 is ready and bound to proxy 3, which takes two leases. -/
def pooledSite : Site :=
  { boundSite with px := fun p => (boundSite.px p).map fun proxy => { proxy with mc := 2 } }

def pooledCall (now : Int) (lead : String) : AcquireArgs :=
  { limitedCall twoWindows now lead with pmode := .bindIdentity }

theorem pooled_counted : Counters pooledSite where
  identities i := by
    by_cases here : i = 7
    · subst here
      decide
    · simp [identityAl, pooledSite, boundSite, Function.update_of_ne here]
  proxies p := by
    by_cases here : p = 3
    · subst here
      decide
    · simp [proxyAl, pooledSite, boundSite, Function.update_of_ne here]
  quotas _ _ := HashCounted.empty

/-- A second lease on identity and proxy leaves nothing behind. -/
theorem aborted_second_neutral :
    ∃ run reply, Machine.run siteStep (.start pooledSite) [.acquire (pooledCall 1200 "a")] =
        some run ∧
      (acquire (pooledCall 1800 "b") run.site).2.leases = [reply] ∧ reply.p = some 3 ∧
      identityAl run.site 7 = 1 ∧ proxyAl run.site 3 = 1 ∧
      Neutral 1800 run.site (release (abortedCall twoWindows "b")
        (acquire (pooledCall 1800 "b") run.site).1).1.site := by
  have ran : (Machine.run siteStep (.start pooledSite) [.acquire (pooledCall 1200 "a")]).map
      (fun run => ((acquire (pooledCall 1800 "b") run.site).2.leases.map
        fun reply => (reply.i, reply.lid, reply.p), identityAl run.site 7, proxyAl run.site 3,
        (run.site.brk 1).st)) =
      some ([(7, { lead := "b", shard := 0 }, some 3)], 1, 1, .closed) := by
    decide +kernel
  obtain ⟨run, reached, same⟩ := Option.map_eq_some_iff.mp ran
  simp only [Prod.mk.injEq] at same
  obtain ⟨leases, leased, carried, closed⟩ := same
  obtain ⟨reply, single, reads⟩ := List.map_eq_singleton_iff.mp leases
  simp only [Prod.mk.injEq] at reads
  obtain ⟨key, lid, proxy⟩ := reads
  refine ⟨run, reply, reached, single, proxy, leased, carried, ?_⟩
  refine (aborted_acquire_neutral_iff pooled_counted (fun _ => le_refl 0) reached (by decide) single
    ⟨lid.symm, rfl, rfl, .inl rfl⟩).mpr ⟨fun idle => ?_, fun half => ?_, fun w twice => ?_⟩
  · rw [key, leased] at idle
    cases idle
  · exact absurd (closed.symm.trans half) (by decide)
  · have distinct : (twoWindows.map QuotaWindow.window).Nodup := by decide
    exact absurd twice (Nat.not_le.mpr (Nat.lt_succ_of_le (List.nodup_iff_count_le_one.mp distinct w)))

/-- Windows of 1 s and 1.0005 s are different durations of the same millisecond length. -/
def nearWindows : List QuotaWindow := [⟨5, 1000⟩, ⟨9, 1000⟩]

/-- The abort takes the delivered request out of the window as well. -/
theorem aborted_refund_doubled :
    ∃ run reply, Machine.run siteStep (.start {}) (deliveredOnce nearWindows) = some run ∧
      (acquire (limitedCall nearWindows 1800 "b") run.site).2.leases = [reply] ∧
      Undoes (limitedCall nearWindows 1800 "b") reply (abortedCall nearWindows "b") ∧
      quotaRolled ((run.site.q 1 7).cells 1000) 1 = (1, 0) ∧
      quotaRolled (((release (abortedCall nearWindows "b")
        (acquire (limitedCall nearWindows 1800 "b") run.site).1).1.site.q 1 7).cells 1000) 1 =
          (0, 0) ∧
      ¬Neutral 1800 run.site (release (abortedCall nearWindows "b")
        (acquire (limitedCall nearWindows 1800 "b") run.site).1).1.site := by
  have ran : (Machine.run siteStep (.start {}) (deliveredOnce nearWindows)).map (fun run =>
      ((acquire (limitedCall nearWindows 1800 "b") run.site).2.leases.map fun reply => reply.lid,
        quotaRolled ((run.site.q 1 7).cells 1000) 1,
        quotaRolled (((release (abortedCall nearWindows "b")
          (acquire (limitedCall nearWindows 1800 "b") run.site).1).1.site.q 1 7).cells 1000) 1)) =
      some ([{ lead := "b", shard := 0 }], (1, 0), (0, 0)) := by
    decide +kernel
  obtain ⟨run, reached, same⟩ := Option.map_eq_some_iff.mp ran
  simp only [Prod.mk.injEq] at same
  obtain ⟨leases, before, after⟩ := same
  obtain ⟨reply, single, lid⟩ := List.map_eq_singleton_iff.mp leases
  refine ⟨run, reply, reached, single, ⟨lid.symm, rfl, rfl, .inl rfl⟩, before, after,
    fun neutral => ?_⟩
  have kept : ((0, 0) : Int × Int) = (1, 0) := by
    rw [← after, ← before]
    exact neutral.quotas 1 7 1000
  cases kept

end Spinneret.Runs
