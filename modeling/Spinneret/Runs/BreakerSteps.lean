import Spinneret.Runs.ScriptLedger

/-!
# What a step does to the breakers

Five kinds of step write a breaker: the gate of an acquire, the abort of a probe
lease, the report of a probe lease, an evaluation and a manual operation. Every
other step leaves breakers and the tracked set as they are. The effect of a step
is said here once, and the breaker invariants are derived from it.
-/

namespace Spinneret.Runs

open Spinneret.HotState Spinneret.Lib Spinneret.Scheduler Spinneret.Worker Spinneret.Action
open Spinneret.Breakers

set_option autoImplicit false

/-! ## Acquire -/

/-- Whether the leases of a call are probes. -/
def probing (args : AcquireArgs) (breaker : Breaker) : Bool :=
  match (breakerGate args breaker).verdict with
  | .inl _ => false
  | .inr probe => probe

def breakerAcquired (args : AcquireArgs) (breaker : Breaker) (count : Nat) : Breaker :=
  let gated := (breakerGate args breaker).breaker
  { gated with hc := gated.hc + if probing args breaker then (count : Int) else 0 }

structure GateEffect (args : AcquireArgs) (site after : Site) (leases : List LeaseReply) :
    Prop where
  brk : after.brk = Function.update site.brk args.eg
    (breakerAcquired args (site.brk args.eg) leases.length)
  brko : after.brko = site.brko
  marked : ∀ reply ∈ leases, reply.probe = probing args (site.brk args.eg)
  single : probing args (site.brk args.eg) = true → leases.length ≤ 1
  refused : ∀ retry, (breakerGate args (site.brk args.eg)).verdict = .inl retry → leases = []

theorem gate_effect_start (args : AcquireArgs) (site : Site) :
    GateEffect args site
      (site.setBrk args.eg (breakerGate args (site.brk args.eg)).breaker) [] where
  brk := by simp [Site.setBrk, breakerAcquired]
  brko := rfl
  marked reply none := absurd none List.not_mem_nil
  single _ := Nat.zero_le _
  refused _ _ := rfl

theorem gate_effect_rule {args : AcquireArgs} {site : Site} {probe : Bool}
    (passed : (breakerGate args (site.brk args.eg)).verdict = .inr probe) :
    LeaseRule args (modeOf args probe) (GateEffect args site) where
  quiet before after out quiet effect :=
    { effect with
      brk := quiet.brk.trans effect.brk
      brko := quiet.brko.trans effect.brko }
  lease before out c proxy sticky effect room _ _ := by
    have probes : probing args (site.brk args.eg) = probe := by simp only [probing, passed]
    refine ⟨?_, ?_, ?_, ?_, ?_⟩
    · rw [write_lease_brk]
      have counted := effect.brk
      simp only [breakerAcquired, probes] at counted ⊢
      unfold chargeProbe
      cases probe with
      | false => simpa [modeOf] using counted
      | true =>
        simp only [modeOf, Site.setBrk, counted, if_true, Function.update_self,
          Function.update_idem, List.length_append, List.length_singleton]
        congr 2
        push_cast
        ring
    · rw [write_lease_brko]
      exact effect.brko
    · intro reply member
      rcases List.mem_append.mp member with old | new
      · exact effect.marked reply old
      · obtain rfl := List.mem_singleton.mp new
        rw [probes]
        rfl
    · intro probing
      rw [probes] at probing
      subst probing
      have one : (modeOf args true).count = 1 := rfl
      rw [List.length_append, List.length_singleton]
      omega
    · intro retry refused
      rw [passed] at refused
      cases refused

theorem acquire_gate_effect (args : AcquireArgs) (site : Site) :
    GateEffect args site (acquire args site).1 (acquire args site).2.leases :=
  acquire_rule (gate_effect_start args site) fun _ passed => gate_effect_rule passed

/-! ## Lease ends -/

structure SameBreakers (before after : Site) : Prop where
  brk : after.brk = before.brk
  brko : after.brko = before.brko

theorem SameBreakers.refl (site : Site) : SameBreakers site site := ⟨rfl, rfl⟩

/-- Neither a breaker nor a bucket of its window differs. -/
structure SameWindows (before after : Site) : Prop extends SameBreakers before after where
  win : after.win = before.win

theorem SameWindows.refl (site : Site) : SameWindows site site := ⟨.refl site, rfl⟩

theorem SameWindows.trans {first second third : Site} (left : SameWindows first second)
    (right : SameWindows second third) : SameWindows first third where
  brk := right.brk.trans left.brk
  brko := right.brko.trans left.brko
  win := right.win.trans left.win

theorem SameWindows.of_untouched {before after : Site} (same : Untouched before after) :
    SameWindows before after :=
  ⟨⟨same.brk, same.brko⟩, same.win⟩

def abortedLease (args : ReleaseArgs) (site : Site) : Option Lease :=
  (site.ls.lookup args.lid).filter fun lease =>
    decide (lease.st = .active) && args.abort && !decide (args.ns.isSome ∧ args.ns ≠ some lease.ns)

/-- A release ends an active lease of its namespace or changes nothing. -/
theorem release_cases (args : ReleaseArgs) (site : Site) :
    ((release args site).1.site = site ∧ abortedLease args site = none) ∨
    ∃ lease, site.ls.lookup args.lid = some lease ∧ lease.st = .active ∧
      (release args site).1 = lsEnd site args.layout args.lid lease .released args.now args.now
        args.late (if args.abort then some args.windows else none) ∧
      abortedLease args site = if args.abort then some lease else none := by
  unfold release abortedLease
  cases found : site.ls.lookup args.lid with
  | none => exact .inl ⟨rfl, rfl⟩
  | some lease =>
    dsimp only
    rw [Option.filter_some]
    split
    · next foreign =>
      rw [decide_eq_true foreign]
      exact .inl ⟨rfl, by simp⟩
    · next ours =>
      rw [decide_eq_false ours]
      split
      · next active => exact .inr ⟨lease, rfl, active, rfl, by simp [active]⟩
      · next ended => exact .inl ⟨rfl, by simp [ended]⟩

theorem release_breakers (args : ReleaseArgs) (site : Site) :
    (∃ lease, abortedLease args site = some lease ∧ lease.pr = true ∧
      (release args site).1.site.brk = Function.update site.brk lease.e
        (probeRefund lease.a (site.brk lease.e)) ∧
      (release args site).1.site.brko = site.brko) ∨
    SameBreakers site (release args site).1.site := by
  obtain ⟨same, -⟩ | ⟨lease, found, active, ended, aborted⟩ := release_cases args site
  · rw [same]
    exact .inr (.refl site)
  · obtain ⟨-, brk, brko, -⟩ := ls_end_frame site args.layout args.lid lease .released
      args.now args.now args.late (if args.abort then some args.windows else none)
    rw [(refund_breakers ..).1] at brk
    rw [ended, aborted]
    by_cases probe : lease.pr = true ∧ args.abort = true
    · refine .inl ⟨lease, if_pos probe.2, probe.1, ?_, brko⟩
      rw [brk]
      simp [probe]
    · refine .inr ⟨?_, brko⟩
      rw [brk, if_neg]
      rintro ⟨pr, aborts⟩
      refine probe ⟨pr, ?_⟩
      by_contra delivered
      simp [delivered] at aborts

theorem reap_breakers (args : ReapArgs) (site : Site) :
    SameWindows site (reap args site).1.site := by
  have one : ∀ (state : Ended × List ReapedLease) (lid : LeaseId),
      SameWindows state.1.site (reapOne args state lid).1.site := by
    intro state lid
    unfold reapOne
    dsimp only
    split
    · exact ⟨⟨rfl, rfl⟩, rfl⟩
    · next lease found =>
      split
      · obtain ⟨-, brk, brko, win⟩ := ls_end_frame state.1.site args.layout lid lease .expired
          lease.x args.now args.late none
        exact ⟨⟨brk, brko⟩, win⟩
      · exact ⟨⟨rfl, rfl⟩, rfl⟩
  have fold : ∀ (ids : List LeaseId) (state : Ended × List ReapedLease),
      SameWindows state.1.site (ids.foldl (reapOne args) state).1.site := by
    intro ids
    induction ids with
    | nil => exact fun state => .refl _
    | cons lid rest ih => exact fun state => (one state lid).trans (ih _)
  exact fold _ ({ site := site, clamped := false }, [])

theorem renew_breakers (args : RenewArgs) (site : Site) :
    SameWindows site (renew args site).1 := by
  rcases renew_cases args site with ⟨same, -⟩ | ⟨lease, -, -, -, -, renewed⟩
  · rw [same]
    exact .refl site
  · rw [renewed]
    have held := hold_renewed_untouched (leaseExtended args lease site) lease
      (renewedExpiry args lease)
    exact ⟨⟨held.brk, held.brko⟩, held.win⟩

/-! ## Synchronization, retention and expiry -/

theorem sync_breakers (args : SyncArgs) (site : Site) :
    SameWindows site (syncIdentities args site) := by
  have accounts : SameWindows site (args.accounts.foldl (syncAccount args) site) :=
    .of_untouched (Undisturbed.foldl (sync_account_undisturbed args) args.accounts site).toUntouched
  have records : ∀ (records : List SyncRecord) (site : Site),
      SameWindows site (records.foldl (syncRecord args) site) := by
    intro records
    induction records with
    | nil => exact .refl
    | cons record rest ih =>
      intro site
      refine SameWindows.trans ?_ (ih _)
      cases record with
      | sync row => exact .of_untouched (sync_identity_undisturbed args site row).toUntouched
      | remove i profile =>
        have removed := remove_identity_undisturbed site i profile
        exact ⟨⟨removed.brk, removed.brko⟩, removed.win⟩
  exact accounts.trans (records args.records _)

theorem retain_breakers (args : RetainArgs) (site : Site) :
    SameWindows site (leaseRetain args site) := by
  obtain ⟨ls, written⟩ := lease_retain_writes args site
  rw [written]
  exact ⟨⟨rfl, rfl⟩, rfl⟩

theorem observe_breakers (shard : Nat) (sid : StreamId) (full : Option ObserveArgs) (site : Site) :
    (∃ args, full = some args ∧ (∃ reply, (observe shard sid full site).2 = .applied reply) ∧
      (observe shard sid full site).1.brk = Function.update site.brk args.eg
        (probeCounted args (probeOf args site) (site.brk args.eg)) ∧
      (observe shard sid full site).1.brko = site.brko) ∨
    SameBreakers site (observe shard sid full site).1 := by
  unfold observe
  split
  · exact .inr (.refl site)
  · split
    · exact .inr ⟨rfl, rfl⟩
    · next args =>
      obtain ⟨brk, brko⟩ := observe_full_breakers args
        { site with ckpt := Function.update site.ckpt shard (some sid) }
      exact .inl ⟨args, rfl, ⟨_, rfl⟩, brk, brko⟩

/-! ## Steps -/

/-- The effect of a step on the breakers and on what it reports about them. -/
inductive BreakerEffect (site : Site) : SiteOp → Outcome → Prop where
  | still {op : SiteOp} {outcome : Outcome} (inactive : op.operates = none)
      (same : SameBreakers site outcome.site)
      (records : outcome.records = []) (leases : outcome.leases = []) :
      BreakerEffect site op outcome
  | gated {args : AcquireArgs} {outcome : Outcome}
      (gate : GateEffect args site outcome.site outcome.leases)
      (records : outcome.records = []) : BreakerEffect site (.acquire args) outcome
  | refunded {args : ReleaseArgs} {outcome : Outcome} {lease : Lease}
      (aborted : abortedLease args site = some lease) (probe : lease.pr = true)
      (brk : outcome.site.brk = Function.update site.brk lease.e
        (probeRefund lease.a (site.brk lease.e)))
      (brko : outcome.site.brko = site.brko)
      (records : outcome.records = []) (leases : outcome.leases = []) :
      BreakerEffect site (.release args) outcome
  | reported {shard : Nat} {sid : StreamId} {args : ObserveArgs} {outcome : Outcome}
      (applied : ∃ reply, (observe shard sid (some args) site).2 = .applied reply)
      (brk : outcome.site.brk = Function.update site.brk args.eg
        (probeCounted args (probeOf args site) (site.brk args.eg)))
      (brko : outcome.site.brko = site.brko)
      (records : outcome.records = []) (leases : outcome.leases = []) :
      BreakerEffect site (.observe shard sid (some args)) outcome
  | evaluated {args : EvalArgs} {outcome : Outcome} (mode : args.mode = .eval)
      (brk : outcome.site.brk = Function.update site.brk args.eg
        (evalBreaker args (windowSum args site (site.brk args.eg).lc) (site.brk args.eg)).breaker)
      (brko : outcome.site.brko = trackOpen site.brko args.eg (outcome.site.brk args.eg).st)
      (records : outcome.records = evalRecords args.eg (breakerEval args site).2)
      (leases : outcome.leases = []) : BreakerEffect site (.evalBreaker args) outcome
  | operated {args : SetArgs} {outcome : Outcome} {after : Breaker}
      (changed : Breakers.setBreaker args (site.brk args.eg) = some after)
      (brk : outcome.site.brk = Function.update site.brk args.eg after)
      (brko : outcome.site.brko = trackOpen site.brko args.eg after.st)
      (records : outcome.records = setRecords args.eg (breakerSet args site).2)
      (leases : outcome.leases = []) : BreakerEffect site (.setBreaker args) outcome
  | unchanged {args : SetArgs} {outcome : Outcome}
      (closed : Breakers.setBreaker args (site.brk args.eg) = none)
      (same : SameBreakers site outcome.site)
      (records : outcome.records = setRecords args.eg (breakerSet args site).2)
      (leases : outcome.leases = []) : BreakerEffect site (.setBreaker args) outcome

theorem perform_breakers {op : SiteOp} {site : Site} {outcome : Outcome}
    (performed : perform op site = some outcome) : BreakerEffect site op outcome := by
  cases op with
  | acquire args =>
    cases performed
    exact .gated (acquire_gate_effect args site) rfl
  | renew args =>
    cases performed
    exact .still rfl (renew_breakers args site).toSameBreakers rfl rfl
  | release args =>
    cases performed
    rcases release_breakers args site with ⟨lease, aborted, probe, brk, brko⟩ | same
    · exact .refunded aborted probe brk brko rfl rfl
    · exact .still rfl same rfl rfl
  | reap args =>
    cases performed
    exact .still rfl (reap_breakers args site).toSameBreakers rfl rfl
  | observe shard sid full =>
    cases performed
    rcases observe_breakers shard sid full site with ⟨args, rfl, applied, brk, brko⟩ | same
    · exact .reported applied brk brko rfl rfl
    · exact .still rfl same rfl rfl
  | act now token ops =>
    cases performed
    have same := apply_untouched now token ops site
    exact .still rfl ⟨same.brk, same.brko⟩ rfl rfl
  | evalBreaker args =>
    cases performed
    cases mode : args.mode with
    | read =>
      refine .still (by simp [SiteOp.operates, mode]) ?_ ?_ rfl
      · simp only [breakerEval, mode, SameBreakers.refl]
      · simp [breakerEval, mode, evalRecords, lazyRecord]
    | eval =>
      refine .evaluated mode ?_ ?_ rfl rfl
      · simp [breakerEval, mode, Site.setBrk]
      · simp [breakerEval, mode, Site.setBrk]
  | setBreaker args =>
    cases performed
    cases changed : Breakers.setBreaker args (site.brk args.eg) with
    | none =>
      refine .unchanged changed ?_ rfl rfl
      simp only [breakerSet, changed, SameBreakers.refl]
    | some after =>
      refine .operated changed ?_ ?_ rfl rfl
      · simp [breakerSet, changed, Site.setBrk]
      · simp [breakerSet, changed, Site.setBrk]
  | sync args =>
    cases performed
    exact .still rfl (sync_breakers args site).toSameBreakers rfl rfl
  | syncProxies args =>
    cases performed
    have same := sync_proxies_undisturbed args site
    exact .still rfl ⟨same.brk, same.brko⟩ rfl rfl
  | retain args =>
    cases performed
    exact .still rfl (retain_breakers args site).toSameBreakers rfl rfl
  | expire lid =>
    obtain ⟨after, expired, rfl⟩ := Option.map_eq_some_iff.mp performed
    obtain ⟨lease, -, -, rfl⟩ := expire_lease_writes expired
    exact .still rfl ⟨rfl, rfl⟩ rfl rfl
  | forget key =>
    cases performed
    have rest := forget_untouched site key
    exact .still rfl ⟨rest.brk, rest.brko⟩ rfl rfl

/-! ## Evaluations -/

/-- What an evaluation does to a breaker: it reports a pending lazy step, keeps
the breaker, or takes one transition. -/
inductive Evaluates (args : EvalArgs) (breaker : Breaker) : Evaluated → Prop where
  | catchUp (pending : lazyPending breaker = true) :
      Evaluates args breaker { breaker := { breaker with ou := 0 } }
  | keeps (settled : lazyPending breaker = false) : Evaluates args breaker { breaker := breaker }
  | closes (settled : lazyPending breaker = false) (reason : String) (trigger : Trigger) :
      Evaluates args breaker (goClosed args breaker reason trigger)
  | opens (settled : lazyPending breaker = false) (reason : String) (trigger : Trigger)
      (oc : Int) : Evaluates args breaker (goOpen args breaker reason trigger oc)
  | halves (opened : breaker.st = .opened)
      (due : (0 < breaker.ou ∧ breaker.ou ≤ args.now) ∨ (breaker.man ≠ 1 ∧ breaker.ou ≤ 0)) :
      Evaluates args breaker (goHalfOpen args breaker)

theorem eval_breaker_evaluates (args : EvalArgs) (sum : WindowBucket) (breaker : Breaker) :
    Evaluates args breaker (evalBreaker args sum breaker) := by
  unfold evalBreaker
  split
  · next pending => exact .catchUp pending
  · next settled =>
    rw [Bool.not_eq_true] at settled
    split
    · split
      · unfold evalClosed
        dsimp only
        split
        · split
          · exact .keeps settled
          · exact .opens settled _ _ _
        · exact .keeps settled
      · next opened =>
        unfold evalOpen
        split
        · next due => exact .halves opened due
        · exact .keeps settled
      · unfold evalHalfOpen
        dsimp only
        split
        · split
          · exact .closes settled _ _
          · exact .opens settled _ _ _
        · exact .keeps settled
    · unfold evalDisabled
      split
      · exact .closes settled _ _
      · split
        · exact .closes settled _ _
        · exact .keeps settled

theorem doubled_ge (most : Int) (steps : Nat) {d : Int} (positive : 1 ≤ d) :
    1 ≤ doubled most steps d := by
  induction steps generalizing d with
  | zero => exact positive
  | succ steps ih =>
    unfold doubled
    split_ifs
    · apply ih
      omega
    · exact positive

theorem open_for_pos (args : EvalArgs) (n : Int) : 0 < openFor args n := by
  have first : 1 ≤ args.openFirst := le_max_right _ _
  have most : 1 ≤ args.openMost := first.trans (le_max_right _ _)
  exact lt_min (doubled_ge _ _ first) most

end Spinneret.Runs
