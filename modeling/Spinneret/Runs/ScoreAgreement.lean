import Spinneret.Runs.ExclusiveReturn
import Spinneret.Runs.Lifecycle

/-!
# The availability rule and its copies

`sp_avail` says when an identity may be leased on a group. The scripts that write a ready
score compute it from values they have in hand, each with a copy of the rule. Here the
score of every such write is compared with the rule on the state the write leaves.
-/

namespace Spinneret.Runs

open Spinneret.HotState Spinneret.Lib Spinneret.Scheduler Spinneret.Action

set_option autoImplicit false

/-! ## Operations that write a score -/

/-- The operations, each as one script makes it: an `apply` operation, a lease of an acquire,
the end of a lease, one record of a synchronization. -/
inductive ScoreWriter where
  | cooldown (now : Int) (op : Op)
  | clear (now : Int) (op : Op)
  | write (args : AcquireArgs) (mode : Mode) (c : Candidate) (lead : String)
      (proxy : Option ProxyPick)
  | finish (layout : Layout) (lid : LeaseId) (lease : Lease) (state : LeaseState)
      (endMs now late : Int) (windows : Option (List Int))
  | sync (args : SyncArgs) (row : IdentityRow)

def ScoreWriter.perform (site : Site) : ScoreWriter → Site
  | .cooldown now op => (apCooldown now op site).1
  | .clear now op => (apClear now op site).1
  | .write args mode c lead proxy => writeLease args mode site c lead proxy
  | .finish layout lid lease state endMs now late windows =>
    (lsEnd site layout lid lease state endMs now late windows).site
  | .sync args row => syncIdentity args site row

def Ready (site : Site) (g i : Hkey) : Prop := ((site.rdy g).lookup i).isSome

/-- The score of `i` on `g` is delayed by the cold-start jitter. -/
def Jittered (args : SyncArgs) (site : Site) (g i : Hkey) : Prop :=
  args.cold ∧ avail site g i ≤ args.now

/-- The operation writes the ready score of `i` on `g`. -/
def ScoreWriter.Writes (site : Site) (g i : Hkey) : ScoreWriter → Prop
  | .cooldown now op =>
    op.sc = .ie ∧ (apCooldown now op site).2.applied ∧ g = op.eg ∧ i = op.s ∧ Ready site g i
  | .clear now op =>
    (apClear now op site).2.applied ∧ i = op.s ∧ Ready site g i ∧
      (op.sc = .ie ∧ g = op.eg ∨ op.sc = .is ∧ g ∈ op.egs)
  | .write args _ c _ _ => g = args.eg ∧ i = c.i ∧ Ready site g i
  | .finish layout lid lease state endMs now late windows =>
    i = lease.i ∧ (site.id i).isSome ∧ Ready site g i ∧
      (g = lease.e ∨ ((lsEnd site layout lid lease state endMs now late windows).site.rdy g).lookup
        i ≠ (site.rdy g).lookup i)
  | .sync args row =>
    i = row.i ∧ g ∈ row.profile.eligible ∧ g ∉ row.profile.others ∧
      ((syncedIdentity args site row).st = .active ∨
        (syncedIdentity args site row).st = .pending) ∧
      ¬(args.merge ∧ Ready site g i) ∧ ¬Jittered args (syncIdentity args site row) g i

/-- The call time, or the short push of an identity without a free lease. -/
def leaseFloor (args : AcquireArgs) (c : Candidate) : Int :=
  if c.lim ≤ c.al + 1 then max args.now args.shortPush else args.now

def ScoreWriter.raised (time : Int) : ScoreWriter → Int
  | .write args _ c _ _ => max time (leaseFloor args c)
  | .finish _ _ _ _ endMs _ _ _ => max time endMs
  | _ => time

/-- Every score the operation writes is the availability on the state it leaves, raised to
its floor. -/
def ScoreWriter.Agrees (site : Site) (writer : ScoreWriter) : Prop :=
  ∀ g i, writer.Writes site g i →
    ((writer.perform site).rdy g).lookup i =
      some (writer.raised (avail (writer.perform site) g i))

/-! ## Cooldowns -/

variable {site : Site} {id : Identity} {g : Hkey}

theorem ap_avail_eq {eg i : Hkey} {cd ru : Int} (present : site.id i = some id)
    (entry : hsCdRu (site.hs eg i) = (cd, ru)) : apAvail site id cd ru = avail site eg i := by
  rw [avail, present, entry]
  rfl

theorem moved_lookup {site stored : Site} {eg i : Hkey} {time : Int} (ready : stored.rdy = site.rdy)
    (member : Ready site eg i) :
    ((stored.setRdy eg ((stored.rdy eg).move time i)).rdy eg).lookup i = some time := by
  obtain ⟨score, found⟩ := Option.isSome_iff_exists.mp member
  rw [set_rdy_self, ZSet.lookup_move, if_pos rfl, ready, found]
  rfl

theorem cooldown_agrees (site : Site) (now : Int) (op : Op) :
    (ScoreWriter.cooldown now op).Agrees site := by
  rintro g i ⟨scope, applied, rfl, rfl, member⟩
  have positive : ¬ op.u ≤ 0 := by
    intro past
    rw [apCooldown, if_pos past] at applied
    cases applied
  cases present : site.id op.s with
  | none =>
    simp only [apCooldown, if_neg positive, scope, present] at applied
    cases applied
  | some id =>
    have called : apCooldown now op site = cooldownEndpoint now op id site := by
      simp only [apCooldown, if_neg positive, scope, present]
    simp only [ScoreWriter.perform, ScoreWriter.raised]
    rw [called] at applied ⊢
    by_cases cooling : op.u ≤ (cooldownEntry now op site).cd ∧ ¬ op.force
    · simp only [cooldownEndpoint, if_pos cooling] at applied
      cases applied
    · simp only [cooldownEndpoint, if_neg cooling]
      set recorded : Site := if apHas op.f fAuto then recordCooldown now op _ _ _ else _
        with record
      have ready : recorded.rdy = site.rdy := by
        rw [record]
        split <;> rfl
      have entry : hsCdRu (recorded.hs op.eg op.s) = (op.u, (cooldownEntry now op site).ru) := by
        have stored : recorded.hs = (site.setHs op.eg op.s
            (some { cooldownEntry now op site with cd := op.u })).hs := by
          rw [record]
          split <;> rfl
        rw [stored]
        simp only [Site.setHs, Function.update_self, hsCdRu]
      have identity : recorded.id op.s = some id := by
        rw [← present, record]
        split <;> rfl
      refine (moved_lookup ready member).trans ?_
      rw [ap_avail_eq identity entry]
      rfl

/-! ## Clearing a cooldown -/

theorem rescored_lookup (egs : List Hkey) (i g : Hkey) (site : Site) :
    ((egs.foldl (fun site eg => rescore site eg i) site).rdy g).lookup i =
      if g ∈ egs then ((site.rdy g).lookup i).map fun _ => avail site g i
      else (site.rdy g).lookup i := by
  induction egs generalizing site with
  | nil => rfl
  | cons first rest ih =>
    have same : avail (rescore site first i) g i = avail site g i := rfl
    rw [List.foldl_cons, ih, same]
    by_cases here : g = first
    · subst here
      have moved : ((rescore site g i).rdy g).lookup i =
          ((site.rdy g).lookup i).map fun _ => avail site g i := by
        rw [rescore, set_rdy_self, ZSet.lookup_move, if_pos rfl]
      simp only [moved, List.mem_cons, true_or, if_true, Option.map_map, Function.comp_def,
        ite_self]
    · have kept : (rescore site first i).rdy g = site.rdy g := set_rdy_of_ne here ..
      simp only [kept, List.mem_cons, here, false_or]

theorem reset_identity_rdy (op : Op) (egs : List Hkey) (i : Hkey) (now : Int)
    (fails health : Bool) (site : Site) :
    (apResetIdentity op egs i now fails health site).rdy = site.rdy := by
  have entries : (egs.foldl (apResetHs op i now fails health) site).rdy = site.rdy := by
    refine foldl_frame Site.rdy _ (fun site eg => ?_) egs site
    unfold apResetHs
    split <;> rfl
  have mapped : ∀ (site : Site) (change : Identity → Identity),
      (mapId site i change).rdy = site.rdy := by
    intro site change
    unfold mapId
    split <;> rfl
  unfold apResetIdentity
  dsimp only
  split_ifs
  · exact (mapped _ _).trans ((mapped _ _).trans entries)
  · exact (mapped _ _).trans entries
  · exact (mapped _ _).trans entries
  · exact entries
  · rfl

theorem clear_endpoint_agrees {now : Int} {op : Op} (present : site.id op.s = some id)
    (applied : (clearEndpoint now op id site).2.applied) (member : Ready site op.eg op.s) :
    ((clearEndpoint now op id site).1.rdy op.eg).lookup op.s =
      some (avail (clearEndpoint now op id site).1 op.eg op.s) := by
  unfold clearEndpoint at applied ⊢
  dsimp only at applied ⊢
  split at applied
  · cases applied
  · next cooling =>
    rw [if_neg cooling]
    set entry := hsUnpack (site.hs op.eg op.s) (apBaseline op op.eg) now
    set stored := hsSet site op.eg op.s (resetHealth op op.eg now (apHas op.f fResetFail)
      (apHas op.f fResetHealth) { entry with cd := 0 }) with store
    have cleared : hsCdRu (stored.hs op.eg op.s) = (0, entry.ru) := by
      simp only [store, hsSet, Site.setHs, Function.update_self, hsCdRu, hsPack, resetHealth]
      split_ifs <;> rfl
    have identity : stored.id op.s = some id := present
    refine (moved_lookup (show stored.rdy = site.rdy from rfl) member).trans ?_
    rw [ap_avail_eq identity cleared]
    rfl

theorem clear_site_agrees {now : Int} {op : Op} (applied : (clearSite now op id site).2.applied)
    (member : Ready site g op.s) (listed : g ∈ op.egs) :
    ((clearSite now op id site).1.rdy g).lookup op.s =
      some (avail (clearSite now op id site).1 g op.s) := by
  unfold clearSite at applied ⊢
  dsimp only at applied ⊢
  split at applied
  · cases applied
  · next cooling =>
    rw [if_neg cooling]
    set reset := apResetIdentity op op.egs op.s now (apHas op.f fResetFail)
      (apHas op.f fResetHealth) (site.setId op.s (some { id with scd := 0 })) with resets
    have ready : reset.rdy = site.rdy := reset_identity_rdy ..
    have only : OnlyReady reset (op.egs.foldl (fun site eg => rescore site eg op.s) reset) :=
      OnlyReady.foldl (fun site eg => rescore_only_ready site eg op.s) op.egs reset
    have same : avail (op.egs.foldl (fun site eg => rescore site eg op.s) reset) g op.s =
        avail reset g op.s := by
      rw [only]
      rfl
    obtain ⟨score, found⟩ := Option.isSome_iff_exists.mp member
    refine (rescored_lookup op.egs op.s g reset).trans ?_
    rw [if_pos listed, ready, found]
    exact congrArg some same.symm

theorem clear_agrees (site : Site) (now : Int) (op : Op) :
    (ScoreWriter.clear now op).Agrees site := by
  rintro g i ⟨applied, rfl, member, scope⟩
  cases present : site.id op.s with
  | none =>
    simp only [apClear, present] at applied
    cases applied
  | some id =>
    simp only [ScoreWriter.perform, ScoreWriter.raised]
    rcases scope with ⟨endpoint, rfl⟩ | ⟨whole, listed⟩
    · have called : apClear now op site = clearEndpoint now op id site := by
        simp only [apClear, present, endpoint]
      rw [called] at applied ⊢
      exact clear_endpoint_agrees present applied member
    · have called : apClear now op site = clearSite now op id site := by
        simp only [apClear, present, whole]
      rw [called] at applied ⊢
      exact clear_site_agrees applied member listed

/-! ## The write of a lease -/

/-- What keeps the identity after the write, besides an exclusive lease. -/
def leaseKept (args : AcquireArgs) (c : Candidate) : Int :=
  let stored := max (max c.hs.cd c.hs.ru) (max c.scd (max c.sru c.acd))
  let anchored :=
    if args.ra = .acquired ∧ 0 < args.ri then max stored (args.now + args.ri) else stored
  max anchored (leaseFloor args c)

/-- No exclusive end is left over from leases the counter no longer counts, or it is no
later than what keeps the identity anyway. A counter below zero is never written; an
exclusive lease would not count there. -/
def NoStaleEnd (args : AcquireArgs) (c : Candidate) : Prop :=
  (c.al = 0 → args.mc ≠ 1 → c.xl ≤ leaseKept args c) ∧
    (c.al < 0 → args.mc = 1 → leaseExpiry args ≤ leaseKept args c)

section Lease

variable {args : AcquireArgs} {c : Candidate}

theorem anchored_reuse :
    max (max (healthLeased args c).cd (healthLeased args c).ru)
        (max c.scd (max (siteReuse args c) c.acd)) =
      if args.ra = .acquired ∧ 0 < args.ri then
        max (max (max c.hs.cd c.hs.ru) (max c.scd (max c.sru c.acd))) (args.now + args.ri)
      else max (max c.hs.cd c.hs.ru) (max c.scd (max c.sru c.acd)) := by
  by_cases anchored : args.ra = .acquired ∧ 0 < args.ri
  · rw [if_pos anchored]
    cases scope : args.rs with
    | endpoint =>
      have reuse : siteReuse args c = c.sru := by
        simp [siteReuse, raisesSite, scope]
      have health : (healthLeased args c).ru = max c.hs.ru (args.now + args.ri) := by
        simp [healthLeased, anchored, scope]
      rw [reuse, health]
      show max (max c.hs.cd _) _ = _
      ac_rfl
    | site =>
      have reuse : siteReuse args c = max c.sru (args.now + args.ri) := by
        simp only [siteReuse, raisesSite, anchored, scope, true_and, decide_eq_true_eq]
        split_ifs <;> omega
      have health : (healthLeased args c).ru = c.hs.ru := by
        simp [healthLeased, scope]
      rw [reuse, health]
      show max (max c.hs.cd _) _ = _
      ac_rfl
  · rw [if_neg anchored]
    have reuse : siteReuse args c = c.sru := by
      have low : raisesSite args c = false := by
        simp only [raisesSite, decide_eq_false_iff_not]
        exact fun raised => anchored ⟨raised.1, raised.2.1⟩
      rw [siteReuse, low]
      rfl
    have health : (healthLeased args c).ru = c.hs.ru :=
      if_neg fun raised => anchored ⟨raised.1, raised.2.1⟩
    rw [reuse, health]
    rfl

theorem lease_kept_eq :
    leaseKept args c = max (max (max (healthLeased args c).cd (healthLeased args c).ru)
      (max c.scd (max (siteReuse args c) c.acd))) (leaseFloor args c) := by
  rw [anchored_reuse]
  rfl

theorem lease_floor_nonneg (now : 0 ≤ args.now) : 0 ≤ leaseFloor args c := by
  unfold leaseFloor
  split_ifs <;> omega

theorem ready_after_lease_eq :
    readyAfterLease args c = max (leaseKept args c) (exclusiveUntil args c) := by
  rw [lease_kept_eq]
  unfold readyAfterLease leaseFloor
  dsimp only
  split_ifs <;> ac_rfl

theorem identity_leased_kept (proxy : Option ProxyPick) (id : Identity) :
    (identityLeased args c proxy id).scd = id.scd ∧
      (identityLeased args c proxy id).acc = id.acc := by
  unfold identityLeased
  dsimp only
  split
  · split_ifs <;> exact ⟨rfl, rfl⟩
  · split_ifs <;> exact ⟨rfl, rfl⟩

/-- The exclusive end in the hash counts while the counter is positive. -/
theorem leased_avail {mode : Mode} {lead : String} {proxy : Option ProxyPick} {picked : Nat}
    {sticky : Bool} (now : 0 ≤ args.now) (fit : Fit args site picked sticky c id) :
    max (avail (writeLease args mode site c lead proxy) args.eg c.i) (leaseFloor args c) =
      if 0 < c.al + 1 then
        max (leaseKept args c) (if args.mc = 1 then exclusiveUntil args c else c.xl)
      else leaseKept args c := by
  obtain ⟨stored, present, rfl⟩ := Option.map_eq_some_iff.mp fit.stored
  have identity : (writeLease args mode site c lead proxy).id c.i =
      some (identityLeased args c proxy stored) := by
    rw [write_lease_id, if_pos rfl, present]
    rfl
  have entry : hsCdRu ((writeLease args mode site c lead proxy).hs args.eg c.i) =
      ((healthLeased args c).cd, (healthLeased args c).ru) := by
    rw [write_lease_hs]
    simp only [Site.setHs, Function.update_self, hsCdRu, hsPack]
  have next : (identityLeased args c proxy stored).scd = c.scd ∧
      (identityLeased args c proxy stored).sru = siteReuse args c ∧
      (identityLeased args c proxy stored).xl =
        (if args.mc = 1 then exclusiveUntil args c else c.xl) := by
    rw [(identity_leased_kept proxy stored).1, identity_leased_sru, identity_leased_xl, siteReuse,
      fit.scd, fit.sru, fit.xl]
    exact ⟨rfl, rfl, rfl⟩
  have kept : leaseKept args c = max (max (max (healthLeased args c).cd (healthLeased args c).ru)
      (max c.scd (siteReuse args c))) (max c.acd (leaseFloor args c)) := by
    rw [lease_kept_eq]
    ac_rfl
  have cd : c.acd = accountCd site stored.acc := fit.acd
  rw [avail, identity, entry, kept]
  dsimp only
  rw [identity_leased_al, (identity_leased_kept proxy stored).2, next.1, next.2.1, next.2.2]
  generalize (if args.mc = 1 then exclusiveUntil args c else c.xl) = hold
  cases owner : stored.acc with
  | none =>
    have bare : identityAvail (writeLease args mode site c lead proxy) c.scd (siteReuse args c)
        (c.al + 1) hold none =
        if 0 < c.al + 1 then max (max c.scd (siteReuse args c)) hold
        else max c.scd (siteReuse args c) := rfl
    have low : max c.acd (leaseFloor args c) = leaseFloor args c := by
      rw [cd, owner]
      exact max_eq_right (lease_floor_nonneg now)
    rw [bare, low]
    split_ifs <;> ac_rfl
  | some a =>
    have account : accountCd (writeLease args mode site c lead proxy) (some a) = c.acd := by
      rw [cd, owner]
      simp only [accountCd, write_lease_acc]
    have owned : identityAvail (writeLease args mode site c lead proxy) c.scd (siteReuse args c)
        (c.al + 1) hold (some a) =
        max (if 0 < c.al + 1 then max (max c.scd (siteReuse args c)) hold
          else max c.scd (siteReuse args c)) c.acd := congrArg (max _) account
    rw [owned]
    split_ifs <;> ac_rfl

theorem write_agrees_iff {mode : Mode} {lead : String} {proxy : Option ProxyPick} {picked : Nat}
    {sticky : Bool} (now : 0 ≤ args.now) (fit : Fit args site picked sticky c id) :
    (ScoreWriter.write args mode c lead proxy).Agrees site ↔
      (Ready site args.eg c.i → NoStaleEnd args c) := by
  have scored (member : Ready site args.eg c.i) :
      ((writeLease args mode site c lead proxy).rdy args.eg).lookup c.i =
        some (readyAfterLease args c) := by
    rw [write_lease_rdy]
    exact moved_lookup rfl member
  have floor : 0 ≤ leaseKept args c := (lease_floor_nonneg now).trans (le_max_right _ _)
  have equal : readyAfterLease args c =
      max (avail (writeLease args mode site c lead proxy) args.eg c.i) (leaseFloor args c) ↔
      NoStaleEnd args c := by
    rw [leased_avail now fit, ready_after_lease_eq]
    unfold NoStaleEnd exclusiveUntil
    dsimp only
    split_ifs <;> omega
  constructor
  · intro agrees member
    have same := agrees args.eg c.i ⟨rfl, rfl, member⟩
    exact equal.mp (Option.some.inj ((scored member).symm.trans same))
  · rintro fresh g i ⟨rfl, rfl, member⟩
    exact (scored member).trans (congrArg some (equal.mpr (fresh member)))

end Lease

/-! ## The end of a lease -/

theorem finish_agrees (site : Site) (layout : Layout) (lid : LeaseId) (lease : Lease)
    (state : LeaseState) (endMs now late : Int) (windows : Option (List Int)) :
    (ScoreWriter.finish layout lid lease state endMs now late windows).Agrees site := by
  rintro g i ⟨rfl, stored, member, written⟩
  obtain ⟨id, present⟩ := Option.isSome_iff_exists.mp stored
  obtain ⟨score, found⟩ := Option.isSome_iff_exists.mp member
  simp only [ScoreWriter.perform, ScoreWriter.raised]
  by_cases own : g = lease.e
  · rw [own, ls_end_own_score layout lid state endMs now late windows present, ← own, found]
    rfl
  · have changed := written.resolve_left own
    obtain ⟨healthy, ready, scores, times⟩ :=
      ls_end_scores layout lid state endMs now late windows present
    rw [scores] at changed ⊢
    rw [← times]
    rw [← ready] at changed
    exact (ready_after_end_either own).resolve_left changed

/-! ## Synchronization -/

def healthEnds (entry : Option Health) : Option (Int × Int) :=
  entry.map fun health => (health.cd, health.ru)

section Sync

variable {args : SyncArgs} {i : Hkey} {level jitter : Int}

theorem hs_cd_ru_ends (entry : Option Health) : hsCdRu entry = (healthEnds entry).getD (0, 0) := by
  cases entry <;> rfl

theorem sync_health_ends (site : Site) (eg g j : Hkey) :
    healthEnds ((syncHealth args i site eg).hs g j) = healthEnds (site.hs g j) := by
  have written (health reset : Health) (found : site.hs eg i = some health)
      (ends : (reset.cd, reset.ru) = (health.cd, health.ru)) :
      healthEnds (((hsSet site eg i reset).markDirty (.endpoint eg i)).hs g j) =
        healthEnds (site.hs g j) := by
    show healthEnds ((site.setHs eg i (some (hsPack reset))).hs g j) = _
    by_cases here : g = eg ∧ j = i
    · obtain ⟨rfl, rfl⟩ := here
      simp only [Site.setHs, Function.update_self, found]
      exact congrArg some ends
    · congr 1
      by_cases group : g = eg
      · subst group
        exact set_hs_other fun same => here ⟨rfl, same⟩
      · simp only [Site.setHs, Function.update_of_ne group]
  unfold syncHealth
  split
  · rfl
  · next health found =>
    split_ifs
    · exact written health _ found rfl
    · exact written health _ found rfl
    · rfl

theorem sync_score_eq (site : Site) (eg : Hkey) :
    syncScore args site i eg level jitter =
      let score := (healthEnds (site.hs eg i)).elim level fun ends => max (max level ends.1) ends.2
      if args.cold ∧ score ≤ args.now then args.now + jitter else score := by
  unfold syncScore healthEnds
  cases site.hs eg i <;> rfl

theorem sync_group_ends (eligible : Bool) (site : Site) (eg g j : Hkey) :
    healthEnds ((syncGroup args i level jitter eligible site eg).hs g j) =
      healthEnds (site.hs g j) := by
  have reset := @sync_health_ends args i site eg g j
  unfold syncGroup
  dsimp only
  split_ifs <;> exact reset

theorem sync_health_rdy (site : Site) (eg : Hkey) : (syncHealth args i site eg).rdy = site.rdy := by
  unfold syncHealth
  split
  · rfl
  · split_ifs <;> rfl

theorem sync_group_written (unkept : ¬(args.merge ∧ Ready site g i)) :
    ((syncGroup args i level jitter true site g).rdy g).lookup i =
      some (syncScore args site i g level jitter) := by
  have same : syncScore args (syncHealth args i site g) i g level jitter =
      syncScore args site i g level jitter := by
    rw [sync_score_eq, sync_score_eq, sync_health_ends]
  unfold Ready at unkept
  unfold syncGroup
  dsimp only
  rw [if_pos rfl, same, sync_health_rdy, if_neg unkept, set_rdy_self]
  exact AList.lookup_insert _

theorem sync_group_elsewhere (eligible : Bool) {eg g : Hkey} (other : g ≠ eg) :
    (syncGroup args i level jitter eligible site eg).rdy g = site.rdy g := by
  unfold syncGroup
  dsimp only
  split_ifs
  · rw [sync_health_rdy]
  · rw [set_rdy_of_ne other, sync_health_rdy]
  · rw [set_rdy_of_ne other, sync_health_rdy]

/-- A group listed again is written with the same score, or kept by merge mode. -/
theorem sync_group_again {eg g : Hkey}
    (written : (site.rdy g).lookup i = some (syncScore args site i g level jitter)) :
    ((syncGroup args i level jitter true site eg).rdy g).lookup i =
      some (syncScore args site i g level jitter) := by
  by_cases here : g = eg
  · subst here
    by_cases kept : args.merge ∧ Ready site g i
    · unfold Ready at kept
      unfold syncGroup
      dsimp only
      rw [if_pos rfl, sync_health_rdy, if_pos kept, sync_health_rdy, written]
    · exact sync_group_written kept
  · rw [sync_group_elsewhere true here, written]

theorem sync_score_group (site : Site) (eg g : Hkey) :
    syncScore args (syncGroup args i level jitter true site eg) i g level jitter =
      syncScore args site i g level jitter := by
  rw [sync_score_eq, sync_score_eq, sync_group_ends]

theorem sync_eligible_again (groups : List Hkey)
    (written : (site.rdy g).lookup i = some (syncScore args site i g level jitter)) :
    ((groups.foldl (syncGroup args i level jitter true) site).rdy g).lookup i =
      some (syncScore args site i g level jitter) := by
  induction groups generalizing site with
  | nil => exact written
  | cons first rest ih =>
    have again := @sync_group_again site args i level jitter first g written
    rw [← sync_score_group site first g] at again ⊢
    exact ih again

theorem sync_eligible_written {groups : List Hkey} (listed : g ∈ groups)
    (unkept : ¬(args.merge ∧ Ready site g i)) :
    ((groups.foldl (syncGroup args i level jitter true) site).rdy g).lookup i =
      some (syncScore args site i g level jitter) := by
  induction groups generalizing site with
  | nil => cases listed
  | cons first rest ih =>
    rw [List.foldl_cons, ← sync_score_group site first g]
    by_cases here : g = first
    · subst here
      refine sync_eligible_again rest ?_
      rw [sync_score_group]
      exact sync_group_written unkept
    · have stays : (syncGroup args i level jitter true site first).rdy g = site.rdy g :=
        sync_group_elsewhere true here
      have later : g ∈ rest := (List.mem_cons.mp listed).resolve_left here
      refine ih later ?_
      unfold Ready
      rwa [stays]

theorem sync_groups_elsewhere (eligible : Bool) {groups : List Hkey} (unlisted : g ∉ groups) :
    (groups.foldl (syncGroup args i level jitter eligible) site).rdy g = site.rdy g := by
  induction groups generalizing site with
  | nil => rfl
  | cons first rest ih =>
    rw [List.mem_cons, not_or] at unlisted
    rw [List.foldl_cons, ih unlisted.2, sync_group_elsewhere eligible unlisted.1]

theorem sync_groups_ends (eligible : Bool) (groups : List Hkey) (site : Site) (g j : Hkey) :
    healthEnds ((groups.foldl (syncGroup args i level jitter eligible) site).hs g j) =
      healthEnds (site.hs g j) :=
  foldl_frame (fun site : Site => healthEnds (site.hs g j)) _
    (fun site eg => sync_group_ends eligible site eg g j) groups site

theorem sync_groups_acc (eligible : Bool) (groups : List Hkey) (site : Site) :
    (groups.foldl (syncGroup args i level jitter eligible) site).acc = site.acc := by
  refine foldl_frame Site.acc _ (fun site eg => ?_) groups site
  have reset : (syncHealth args i site eg).acc = site.acc := by
    unfold syncHealth
    split
    · rfl
    · split_ifs <;> rfl
  unfold syncGroup
  dsimp only
  split_ifs <;> exact reset

/-- The identity side of the rule, on the counters the record finds. -/
def syncLevel (site : Site) (row : IdentityRow) : Int :=
  match site.id row.i with
  | none => identityAvail site 0 0 0 0 row.acc
  | some id => identityAvail site id.scd id.sru id.al id.xl row.acc

/-- Before the groups, a record changes neither entries, scores nor accounts. -/
theorem sync_identity_steps (args : SyncArgs) (site : Site) (row : IdentityRow) :
    ∃ noted : Site, noted.hs = site.hs ∧ noted.rdy = site.rdy ∧ noted.acc = site.acc ∧
      syncIdentity args site row = row.profile.others.foldl
        (syncGroup args row.i (syncLevel site row) row.jitter false)
        (row.profile.eligible.foldl (syncGroup args row.i (syncLevel site row) row.jitter
          (decide ((syncedIdentity args site row).st = .active ∨
            (syncedIdentity args site row).st = .pending))) noted) := by
  set stored := site.setId row.i (some (syncedIdentity args site row)) with store
  set left := if (site.id row.i).bind Identity.acc = row.acc then stored
    else leaveAccount stored row.i ((site.id row.i).bind Identity.acc) with leaves
  set joined := joinAccount left row.i row.acc with joins
  set noted := if args.resetHealth then joined.markDirty (.global row.i) else joined with notes
  have leaving : left.hs = site.hs ∧ left.rdy = site.rdy ∧ left.acc = site.acc := by
    rw [leaves]
    split_ifs
    · exact ⟨rfl, rfl, rfl⟩
    · cases (site.id row.i).bind Identity.acc <;> exact ⟨rfl, rfl, rfl⟩
  have joining : joined.hs = site.hs ∧ joined.rdy = site.rdy ∧ joined.acc = site.acc := by
    rw [joins]
    cases row.acc <;> exact leaving
  have noting : noted.hs = site.hs ∧ noted.rdy = site.rdy ∧ noted.acc = site.acc := by
    rw [notes]
    split_ifs <;> exact joining
  have accounts : noted.acc = site.acc := noting.2.2
  refine ⟨noted, noting.1, noting.2.1, accounts, ?_⟩
  have level : syncLevel site row = match site.id row.i with
      | none => identityAvail noted 0 0 0 0 row.acc
      | some id => identityAvail noted id.scd id.sru id.al id.xl row.acc := by
    unfold syncLevel identityAvail accountCd
    rw [accounts]
  rw [level]
  rfl

theorem synced_avail (args : SyncArgs) (site : Site) (row : IdentityRow) (g : Hkey) :
    avail (syncIdentity args site row) g row.i =
      max (max (hsCdRu (site.hs g row.i)).1 (hsCdRu (site.hs g row.i)).2) (syncLevel site row) := by
  obtain ⟨noted, health, -, accounts, steps⟩ := sync_identity_steps args site row
  have ends : healthEnds ((syncIdentity args site row).hs g row.i) =
      healthEnds (site.hs g row.i) := by
    rw [steps, sync_groups_ends, sync_groups_ends, health]
  have same : (syncIdentity args site row).acc = site.acc := by
    rw [steps, sync_groups_acc, sync_groups_acc, accounts]
  have stored : (syncIdentity args site row).id row.i = some (syncedIdentity args site row) := by
    rw [sync_identity_id, Function.update_self]
  have level : identityAvail (syncIdentity args site row) (syncedIdentity args site row).scd
      (syncedIdentity args site row).sru (syncedIdentity args site row).al
      (syncedIdentity args site row).xl (syncedIdentity args site row).acc =
      syncLevel site row := by
    unfold identityAvail accountCd syncLevel syncedIdentity
    rw [same]
    cases site.id row.i <;> rfl
  rw [avail, hs_cd_ru_ends, ends, ← hs_cd_ru_ends, stored, ← level]

theorem sync_score_written {row : IdentityRow}
    (written : (ScoreWriter.sync args row).Writes site g row.i) :
    ((syncIdentity args site row).rdy g).lookup row.i =
      some (syncScore args site row.i g (syncLevel site row) row.jitter) := by
  obtain ⟨-, listed, unlisted, usable, unkept, -⟩ := written
  obtain ⟨noted, health, ready, -, steps⟩ := sync_identity_steps args site row
  have same : syncScore args noted row.i g (syncLevel site row) row.jitter =
      syncScore args site row.i g (syncLevel site row) row.jitter := by
    rw [sync_score_eq, sync_score_eq, health]
  rw [steps, sync_groups_elsewhere false unlisted, decide_eq_true usable, ← same]
  refine sync_eligible_written listed ?_
  unfold Ready at unkept ⊢
  rwa [ready]

/-- Without a health entry the rule starts at zero, the copy at the identity side. -/
theorem sync_agrees_iff {row : IdentityRow} (now : 0 ≤ args.now) :
    (ScoreWriter.sync args row).Agrees site ↔
      ∀ g, (ScoreWriter.sync args row).Writes site g row.i → site.hs g row.i = none →
        0 ≤ syncLevel site row := by
  have equal {g : Hkey} (written : (ScoreWriter.sync args row).Writes site g row.i) :
      syncScore args site row.i g (syncLevel site row) row.jitter =
          avail (syncIdentity args site row) g row.i ↔
        (site.hs g row.i = none → 0 ≤ syncLevel site row) := by
    have steady := written.2.2.2.2.2
    unfold Jittered at steady
    rw [synced_avail] at steady ⊢
    cases entry : site.hs g row.i with
    | none =>
      simp only [entry, hsCdRu] at steady
      simp only [syncScore, entry, hsCdRu, true_implies]
      rw [if_neg fun early => steady ⟨early.1, by omega⟩]
      omega
    | some health =>
      simp only [entry, hsCdRu] at steady
      simp only [syncScore, entry, hsCdRu, reduceCtorEq, false_implies, iff_true]
      rw [max_comm, ← max_assoc] at steady
      rw [if_neg steady]
      ac_rfl
  constructor
  · intro agrees g written
    have same := (sync_score_written written).symm.trans (agrees g row.i written)
    exact (equal written).mp (Option.some.inj same)
  · rintro fresh g i written
    obtain rfl : i = row.i := written.1
    exact (sync_score_written written).trans
      (congrArg some ((equal written).mpr (fresh g written)))

end Sync

/-! ## All operations -/

/-- A script makes the operation: a lease is written for a candidate that fits, and calls
have a time. -/
def ScoreWriter.Called (site : Site) : ScoreWriter → Prop
  | .write args _ c _ _ =>
    0 ≤ args.now ∧ ∃ picked sticky id, Fit args site picked sticky c id
  | .sync args _ => 0 ≤ args.now
  | _ => True

/-- The state has no exclusive end left over for a lease write, and no identity side below
zero for a synchronization. -/
def ScoreWriter.Fresh (site : Site) : ScoreWriter → Prop
  | .write args _ c _ _ => Ready site args.eg c.i → NoStaleEnd args c
  | .sync args row =>
    ∀ g, (ScoreWriter.sync args row).Writes site g row.i → site.hs g row.i = none →
      0 ≤ syncLevel site row
  | _ => True

/-- The copies of the availability rule agree with it, up to an exclusive end that outlived
its leases. -/
theorem written_scores_agree_iff {site : Site} {writer : ScoreWriter}
    (called : writer.Called site) : writer.Agrees site ↔ writer.Fresh site := by
  cases writer with
  | cooldown now op => exact iff_of_true (cooldown_agrees site now op) trivial
  | clear now op => exact iff_of_true (clear_agrees site now op) trivial
  | write args mode c lead proxy =>
    obtain ⟨now, picked, sticky, id, fit⟩ := called
    exact write_agrees_iff now fit
  | finish layout lid lease state endMs now late windows =>
    exact iff_of_true (finish_agrees site layout lid lease state endMs now late windows) trivial
  | sync args row => exact sync_agrees_iff called

def sharedAcquire : AcquireArgs := { plainAcquire 2 3000 "b" with mc := 2 }

def sharedWrite (c : Candidate) : ScoreWriter :=
  .write sharedAcquire (modeOf sharedAcquire false) c "b" none

/-- What `sharedWrite` meets and leaves: the counters read, the score written on group 2, the
availability after it and the floor. -/
def sharedScores (site : Site) : Option (Int × Int × Option Int × Int × Int) :=
  match evaluate sharedAcquire site 7 false with
  | .ok c =>
    let after := (sharedWrite c).perform site
    some (c.al, c.xl, (after.rdy 2).lookup 7, avail after 2 7, leaseFloor sharedAcquire c)
  | _ => none

theorem shared_scores_some {al xl time floor : Int} {score : Option Int}
    (scores : sharedScores site = some (al, xl, score, time, floor)) :
    ∃ c, evaluate sharedAcquire site 7 false = .ok c ∧ c.al = al ∧ c.xl = xl ∧
      (((sharedWrite c).perform site).rdy 2).lookup 7 = score ∧
      avail ((sharedWrite c).perform site) 2 7 = time ∧ leaseFloor sharedAcquire c = floor := by
  unfold sharedScores at scores
  split at scores
  · next c passed =>
    simp only [Option.some.injEq, Prod.mk.injEq] at scores
    exact ⟨c, passed, scores⟩
  · cases scores

theorem shared_write_called {c : Candidate} (passed : evaluate sharedAcquire site 7 false = .ok c) :
    (sharedWrite c).Called site :=
  ⟨by decide, 0, false, (evaluate_fits 0 passed).2⟩

/-- An identity without leases is leased once: its score is the call time. -/
theorem shared_write_agrees :
    ∃ run c, Machine.run siteStep (.start {}) [.sync sharedSync] = some run ∧
      evaluate sharedAcquire run.site 7 false = .ok c ∧ (sharedWrite c).Agrees run.site ∧
      (((sharedWrite c).perform run.site).rdy 2).lookup 7 = some 3000 := by
  have ran : (Machine.run siteStep (.start {}) [.sync sharedSync]).map
      (fun run => sharedScores run.site) = some (some (0, 0, some 3000, 0, 3000)) := by
    decide +kernel
  obtain ⟨run, reached, scores⟩ := Option.map_eq_some_iff.mp ran
  obtain ⟨c, passed, al, xl, score, -⟩ := shared_scores_some scores
  have fresh : (sharedWrite c).Fresh run.site := by
    intro _
    have kept : 0 ≤ leaseKept sharedAcquire c :=
      (lease_floor_nonneg (by decide)).trans (le_max_right _ _)
    exact ⟨fun _ _ => xl.trans_le kept, fun low => by omega⟩
  exact ⟨run, c, reached, passed,
    (written_scores_agree_iff (shared_write_called passed)).mpr fresh, score⟩

/-- The identity is removed and synchronized again while a lease holds it, and the lease is
renewed. -/
def staleRun : List SiteOp :=
  [.sync sharedSync, .acquire (plainAcquire 1 1000 "a"),
    .sync { sharedSync with records := [.remove 7 ⟨[1, 2], []⟩] }, .sync sharedSync,
    .renew { now := 2000, lid := exclusiveLid, extend := 0, ns := none }]

/-- The lease write counts the identity again, but leaves the exclusive end out. -/
theorem stale_end_left_out :
    ∃ run c, Machine.run siteStep (.start {}) staleRun = some run ∧
      evaluate sharedAcquire run.site 7 false = .ok c ∧
      (((sharedWrite c).perform run.site).rdy 2).lookup 7 = some 3000 ∧
      avail ((sharedWrite c).perform run.site) 2 7 = 62000 ∧
      ¬ (sharedWrite c).Agrees run.site := by
  have ran : (Machine.run siteStep (.start {}) staleRun).map
      (fun run => sharedScores run.site) = some (some (0, 62000, some 3000, 62000, 3000)) := by
    decide +kernel
  have queued : (Machine.run siteStep (.start {}) staleRun).map
      (fun run => ((run.site.rdy 2).lookup 7).isSome) = some true := by
    decide +kernel
  obtain ⟨run, reached, scores⟩ := Option.map_eq_some_iff.mp ran
  have member : Ready run.site 2 7 := by
    rw [reached] at queued
    exact Option.some.inj queued
  obtain ⟨c, passed, -, -, score, time, floor⟩ := shared_scores_some scores
  refine ⟨run, c, reached, passed, score, time, fun agrees => ?_⟩
  have here : c.i = 7 := (evaluate_fits 0 passed).1
  have written := agrees 2 7 ⟨rfl, here.symm, member⟩
  rw [score, time] at written
  simp [sharedWrite, ScoreWriter.raised, floor] at written

end Spinneret.Runs
