import Spinneret.Scheduler.AcquireLedger
import Spinneret.Scheduler.LeaseEndLedger
import Spinneret.Worker.ObserveLedger
import Spinneret.Action.ApplyLedger
import Spinneret.Runs.Machine

/-!
# What the other scripts do to the ledger

Breaker scripts, retention, expiry and synchronization on the lease ledger. A
removal record is the only write that can lose a count or an exclusive hold: it
deletes both together with the hash of the identity.
-/

namespace Spinneret.Runs

open Spinneret.HotState Spinneret.Lib Spinneret.Scheduler Spinneret.Worker Spinneret.Action
open Spinneret.Breakers

set_option autoImplicit false

/-! ## Breaker scripts, retention and expiry -/

theorem breaker_eval_same_ledger (args : EvalArgs) (site : Site) :
    SameLedger site (breakerEval args site).1 := by
  unfold breakerEval
  dsimp only
  split
  · exact .refl site
  · exact .of_eq rfl rfl rfl rfl

theorem breaker_set_same_ledger (args : SetArgs) (site : Site) :
    SameLedger site (breakerSet args site).1 := by
  unfold breakerSet
  dsimp only
  split
  · exact .refl site
  · exact .of_eq rfl rfl rfl rfl

theorem forget_untouched (site : Site) (key : Transient) :
    Untouched { site with win := (forget site key).win } (forget site key) := by
  cases key <;> exact .of_eq rfl rfl rfl rfl rfl rfl rfl

theorem retained_spec (args : RetainArgs) (lease : Lease) (count : Int) :
    (retained args lease count).i = lease.i ∧ (retained args lease count).p = lease.p ∧
    (retained args lease count).st = lease.st ∧ (retained args lease count).x = lease.x ∧
    (lease.st = .active → (retained args lease count).expireAt = lease.expireAt) := by
  unfold retained
  dsimp only
  split_ifs with _ active
  · exact ⟨rfl, rfl, rfl, rfl, fun _ => rfl⟩
  · exact ⟨rfl, rfl, rfl, rfl, fun same => absurd same active⟩
  · exact ⟨rfl, rfl, rfl, rfl, fun _ => rfl⟩

theorem retain_one_settles (args : RetainArgs) {site : Site} (report : LeaseId × Int)
    (accounted : Accounted site) : Settles site (retainOne args site report) := by
  unfold retainOne
  split
  · exact .refl site
  · next lease found =>
    obtain ⟨identity, proxy, state, expiry, persistent⟩ := retained_spec args lease report.2
    have rewrites : Rewrites site report.1 lease (retained args lease report.2)
        { site with ls := site.ls.insert report.1 (retained args lease report.2) } := by
      refine ⟨fun _ => rfl, fun _ => rfl, found, identity, proxy, state, ?_, rfl, ?_⟩
      · exact fun active => persistent (state ▸ active)
      · intro key
        split_ifs with here
        · rw [here.1, expiry]
          exact (accounted.expiries _ _).mpr ⟨lease, found, here.2, rfl⟩
        · rfl
    split
    · exact .rewrites rewrites
    · exact .refl site

theorem settles_foldl {Item : Type*} {f : Site → Item → Site}
    (each : ∀ site item, Accounted site → Settles site (f site item)) (items : List Item)
    {site : Site} (accounted : Accounted site) : Settles site (items.foldl f site) := by
  induction items generalizing site with
  | nil => exact .refl site
  | cons item rest ih =>
    have first := each site item accounted
    exact first.trans (ih (first.accounted accounted))

theorem lease_retain_settles (args : RetainArgs) {site : Site} (accounted : Accounted site) :
    Settles site (leaseRetain args site) :=
  settles_foldl (fun _ report => retain_one_settles args report) args.reports accounted

theorem expire_lease_settles {site after : Site} {lid : LeaseId} (accounted : Accounted site)
    (expired : expireLease site lid = some after) : Settles site after := by
  obtain ⟨lease, found, lapses, rfl⟩ := expire_lease_writes expired
  refine .drops found fun active => ?_
  rw [accounted.persistent lid lease found active] at lapses
  cases lapses

/-! ## Synchronization -/

theorem synced_identity_counters (args : SyncArgs) (site : Site) (row : IdentityRow) :
    (syncedIdentity args site row).al = identityAl site row.i ∧
      (syncedIdentity args site row).xl = identityXl site row.i := by
  unfold syncedIdentity identityAl identityXl
  cases site.id row.i with
  | none => exact ⟨rfl, rfl⟩
  | some id => exact ⟨rfl, rfl⟩

theorem leave_account_undisturbed (site : Site) (i : Hkey) (acc : Option Hkey) :
    Undisturbed site (leaveAccount site i acc) := by
  cases acc <;> exact .of_eq rfl rfl rfl rfl rfl rfl rfl rfl

theorem join_account_undisturbed (site : Site) (i : Hkey) (acc : Option Hkey) :
    Undisturbed site (joinAccount site i acc) := by
  cases acc <;> exact .of_eq rfl rfl rfl rfl rfl rfl rfl rfl

theorem sync_account_undisturbed (args : SyncArgs) (site : Site) (row : AccountRow) :
    Undisturbed site (syncAccount args site row) := by
  unfold syncAccount
  split
  · exact .setAcc ..
  · dsimp only
    split <;> exact .setAcc ..

theorem sync_health_undisturbed (args : SyncArgs) (i : Hkey) (site : Site) (eg : Hkey) :
    Undisturbed site (syncHealth args i site eg) := by
  unfold syncHealth
  split
  · exact .refl site
  · split_ifs <;> exact .of_eq rfl rfl rfl rfl rfl rfl rfl rfl

theorem sync_group_undisturbed (args : SyncArgs) (i : Hkey) (level jitter : Int)
    (eligible : Bool) (site : Site) (eg : Hkey) :
    Undisturbed site (syncGroup args i level jitter eligible site eg) := by
  have reset := sync_health_undisturbed args i site eg
  unfold syncGroup
  dsimp only
  split
  · split
    · exact reset
    · exact reset.trans (.of_eq rfl rfl rfl rfl rfl rfl rfl rfl)
  · exact reset.trans (.of_eq rfl rfl rfl rfl rfl rfl rfl rfl)

/-- A sync record keeps the counter of a hash that is present, and a new hash
starts at the zero that a missing one counts as. -/
theorem sync_identity_undisturbed (args : SyncArgs) (site : Site) (row : IdentityRow) :
    Undisturbed site (syncIdentity args site row) := by
  have stored : Undisturbed site (site.setId row.i (some (syncedIdentity args site row))) :=
    .setId (synced_identity_counters args site row).1 (synced_identity_counters args site row).2
  have left : Undisturbed site
      (if (site.id row.i).bind Identity.acc = row.acc then
        site.setId row.i (some (syncedIdentity args site row))
      else leaveAccount (site.setId row.i (some (syncedIdentity args site row))) row.i
        ((site.id row.i).bind Identity.acc)) := by
    split
    · exact stored
    · exact stored.trans (leave_account_undisturbed ..)
  have joined := left.trans (join_account_undisturbed _ row.i row.acc)
  unfold syncIdentity
  dsimp only
  refine Undisturbed.trans (Undisturbed.trans ?_
    (.foldl (fun site eg => sync_group_undisturbed ..) _ _))
    (.foldl (fun site eg => sync_group_undisturbed ..) _ _)
  split
  · exact joined.trans (.markDirty ..)
  · exact joined

/-- Besides the identity hash, a removal touches neither ledger nor breakers. -/
theorem remove_identity_undisturbed (site : Site) (i : Hkey) (profile : GroupProfile) :
    Undisturbed (site.setId i none) (removeIdentity site i profile) := by
  have deleted : Undisturbed (site.setId i none) { site.setId i none with
      bans := Function.update site.bans i ∅
      xaIdentity := Function.update site.xaIdentity i ∅ } :=
    .of_eq rfl rfl rfl rfl rfl rfl rfl rfl
  unfold removeIdentity
  dsimp only
  refine Undisturbed.trans (deleted.trans ?_) (leave_account_undisturbed _ i _)
  apply Undisturbed.foldl
  intro site eg
  exact ⟨.of_eq rfl rfl rfl rfl rfl rfl rfl, fun _ => rfl,
    fun counted => QuotasCounted.setQ counted .empty⟩

theorem sync_untouched (args : SyncArgs) {site : Site}
    (idle : ∀ i ∈ (SiteOp.sync args).removals, identityAl site i = 0) :
    Untouched site (syncIdentities args site) := by
  have accounts : Untouched site (args.accounts.foldl (syncAccount args) site) :=
    (Undisturbed.foldl (sync_account_undisturbed args) args.accounts site).toUntouched
  have records : ∀ (records : List SyncRecord) (after : Site), Untouched site after →
      (∀ i profile, .remove i profile ∈ records → identityAl site i = 0) →
      Untouched site (records.foldl (syncRecord args) after) := by
    intro records
    induction records with
    | nil => exact fun after same _ => same
    | cons record rest ih =>
      intro after same idle
      refine ih _ ?_ fun i profile member => idle i profile (List.mem_cons_of_mem _ member)
      cases record with
      | sync row => exact same.trans (sync_identity_undisturbed args after row).toUntouched
      | remove i profile =>
        have hashless : Untouched after (after.setId i none) :=
          .setId (by rw [same.al, idle i profile List.mem_cons_self]; rfl)
        exact same.trans
          (hashless.trans (remove_identity_undisturbed after i profile).toUntouched)
  refine records args.records _ accounts fun i profile member => idle i ?_
  exact List.mem_filterMap.mpr ⟨_, member, rfl⟩

/-- A synchronization keeps the exclusive hold on every identity it does not remove. -/
theorem sync_xl (args : SyncArgs) (site : Site) {i : Hkey}
    (stays : i ∉ (SiteOp.sync args).removals) :
    identityXl (syncIdentities args site) i = identityXl site i := by
  have accounts := (Undisturbed.foldl (sync_account_undisturbed args) args.accounts site).xl i
  have records : ∀ (records : List SyncRecord) (after : Site),
      (∀ profile, .remove i profile ∉ records) →
      identityXl (records.foldl (syncRecord args) after) i = identityXl after i := by
    intro records
    induction records with
    | nil => exact fun after _ => rfl
    | cons record rest ih =>
      intro after stays
      refine (ih _ fun profile member => stays profile (List.mem_cons_of_mem _ member)).trans ?_
      cases record with
      | sync row => exact (sync_identity_undisturbed args after row).xl i
      | remove j profile =>
        refine ((remove_identity_undisturbed after j profile).xl i).trans ?_
        have other : i ≠ j := by
          rintro rfl
          exact stays profile List.mem_cons_self
        simp [identityXl, Site.setId, other]
  refine (records args.records _ fun profile member => stays ?_).trans accounts
  exact List.mem_filterMap.mpr ⟨_, member, rfl⟩

theorem sync_proxies_undisturbed (args : SyncProxiesArgs) (site : Site) :
    Undisturbed site (syncProxies args site) := by
  refine Undisturbed.foldl (fun site row => ?_) args.rows site
  have al : (syncedProxy args site row).al = proxyAl site row.p := by
    unfold syncedProxy proxyAl
    cases site.px row.p with
    | none => rfl
    | some proxy =>
      dsimp only
      split <;> rfl
  exact (Undisturbed.of_id (.setPx al) rfl rfl).trans (.of_eq rfl rfl rfl rfl rfl rfl rfl rfl)

end Spinneret.Runs
