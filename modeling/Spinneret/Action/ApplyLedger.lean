import Spinneret.Action.Apply
import Spinneret.Scheduler.Ledger

/-!
# Dispositions leave the ledger as it is

No operation of the apply script touches a lease hash, an expiry entry, a lease
counter or an exclusive hold, whatever it does to the lifecycle of its subject.
-/

namespace Spinneret.Action

open Spinneret.HotState Spinneret.Lib Spinneret.Scheduler

set_option autoImplicit false

theorem zrem_all_undisturbed (egs : List Hkey) (i : Hkey) (site : Site) :
    Undisturbed site (apZremAll egs i site) :=
  .of_only_ready (zrem_all_only_ready egs i site)

theorem rescored_undisturbed (egs : List Hkey) (i : Hkey) (site : Site) :
    Undisturbed site (egs.foldl (fun site eg => rescore site eg i) site) :=
  .of_only_ready (OnlyReady.foldl (fun site eg => rescore_only_ready site eg i) egs site)

theorem map_id_undisturbed (site : Site) (i : Hkey) (change : Identity → Identity)
    (kept : ∀ id, ((change id).al, (change id).xl) = (id.al, id.xl)) :
    Undisturbed site (mapId site i change) := by
  unfold mapId
  split
  · exact .refl site
  · next id present => exact .rewriteId present (kept id)

theorem reset_hs_undisturbed (op : Op) (i : Hkey) (now : Int) (fails health : Bool) (site : Site)
    (eg : Hkey) : Undisturbed site (apResetHs op i now fails health site eg) := by
  unfold apResetHs
  split
  · exact .refl site
  · exact .of_eq rfl rfl rfl rfl rfl rfl rfl rfl

theorem reset_identity_undisturbed (op : Op) (egs : List Hkey) (i : Hkey) (now : Int)
    (fails health : Bool) (site : Site) :
    Undisturbed site (apResetIdentity op egs i now fails health site) := by
  have entries := Undisturbed.foldl (reset_hs_undisturbed op i now fails health) egs site
  have streak : ∀ site, Undisturbed site (mapId site i clearStreak) :=
    fun site => map_id_undisturbed site i clearStreak fun _ => rfl
  have score : ∀ site, Undisturbed site ((mapId site i clearScore).markDirty (.global i)) :=
    fun site => (map_id_undisturbed site i clearScore fun _ => rfl).trans (.markDirty ..)
  unfold apResetIdentity
  dsimp only
  split_ifs
  · exact entries.trans ((streak _).trans (score _))
  · exact entries.trans (score _)
  · exact entries.trans (streak _)
  · exact entries
  · exact .refl site

theorem record_ban_undisturbed (i : Hkey) (now : Int) (site : Site) :
    Undisturbed site (apRecordBan i now site) :=
  .of_eq rfl rfl rfl rfl rfl rfl rfl rfl

theorem ban_identity_undisturbed (now : Int) (op : Op) (i : Hkey) (u : Int) (site : Site) :
    Undisturbed site (apBanIdentity now op i u site).site := by
  unfold apBanIdentity
  split
  · exact .refl site
  · next id present =>
    have banned : Undisturbed site
        (site.setId i (some { id with st := .banned, bu := u, qu := 0, sct := now })) :=
      .rewriteId present rfl
    split
    · exact .refl site
    · dsimp only
      split_ifs
      · exact (banned.trans (zrem_all_undisturbed ..)).trans (record_ban_undisturbed ..)
      · exact banned.trans (zrem_all_undisturbed ..)

theorem cooldown_endpoint_undisturbed (now : Int) (op : Op) (id : Identity) (site : Site) :
    Undisturbed site (cooldownEndpoint now op id site).1 := by
  have recorded (prev fails : Int) (site : Site) :
      Undisturbed site (recordCooldown now op prev fails site) :=
    .of_eq rfl rfl rfl rfl rfl rfl rfl rfl
  unfold cooldownEndpoint
  dsimp only
  split
  · exact .refl site
  · refine Undisturbed.trans ?_ (.marked ..)
    split
    · exact Undisturbed.trans (.setHs ..) (recorded ..)
    · exact .setHs ..

theorem cooldown_site_undisturbed (now : Int) (op : Op) {id : Identity} {site : Site}
    (present : site.id op.s = some id) : Undisturbed site (cooldownSite now op id site).1 := by
  have written : Undisturbed site (site.setId op.s (some { id with scd := op.u })) :=
    .rewriteId present rfl
  unfold cooldownSite
  dsimp only
  split
  · exact .refl site
  · refine (written.trans ?_).trans
      ((Undisturbed.of_only_ready (push_all_only_ready ..)).trans (.of_eq rfl rfl rfl rfl rfl rfl rfl rfl))
    split_ifs <;> exact .of_eq rfl rfl rfl rfl rfl rfl rfl rfl

theorem cooldown_account_undisturbed (op : Op) (account : Account) (site : Site) :
    Undisturbed site (cooldownAccount op account site).1 := by
  unfold cooldownAccount
  dsimp only
  split
  · exact .refl site
  · refine Undisturbed.trans (.setAcc ..) (Undisturbed.foldl ?_ _ _)
    intro site m
    exact .of_only_ready (push_all_only_ready ..)

theorem cooldown_proxy_undisturbed (op : Op) {proxy written : Proxy} (prev : Int) {site : Site}
    (present : site.px op.s = some proxy) (kept : written.al = proxy.al) :
    Undisturbed site (cooldownProxy op proxy prev written site).1 := by
  have stored : Undisturbed site (site.setPx op.s (some written)) := .rewritePx present kept
  unfold cooldownProxy
  dsimp only
  split
  · exact .refl site
  · exact stored.trans (.of_eq rfl rfl rfl rfl rfl rfl rfl rfl)

theorem cooldown_undisturbed (now : Int) (op : Op) (site : Site) :
    Undisturbed site (apCooldown now op site).1 := by
  unfold apCooldown
  split
  · exact .refl site
  · split
    · split
      · exact .refl site
      · exact cooldown_endpoint_undisturbed ..
    · split
      · exact .refl site
      · next present => exact cooldown_site_undisturbed now op present
    · split
      · exact .refl site
      · exact cooldown_account_undisturbed ..
    · split
      · exact .refl site
      · next present => exact cooldown_proxy_undisturbed op _ present rfl
    · split
      · exact .refl site
      · next present => exact cooldown_proxy_undisturbed op _ present rfl
    · exact .refl site

theorem ban_members_undisturbed (now : Int) (op : Op) (list : List Hkey) (site : Site) :
    Undisturbed site (banMembers now op list site).1 := by
  have fold : ∀ (list : List Hkey) (state : Site × List ActionMember),
      Undisturbed site state.1 → Undisturbed site (list.foldl (banMember now op) state).1 := by
    intro list
    induction list with
    | nil => exact fun _ same => same
    | cons m rest ih =>
      intro state same
      refine ih _ (same.trans ?_)
      have banned := ban_identity_undisturbed now op m op.u state.1
      unfold banMember
      dsimp only
      split <;> exact banned
  exact fold list _ (.refl site)

theorem ban_undisturbed (now : Int) (op : Op) (site : Site) :
    Undisturbed site (apBan now op site).1 := by
  unfold apBan
  split
  · exact .refl site
  · split
    · unfold banIdentityOp
      dsimp only
      split <;> exact ban_identity_undisturbed ..
    · split
      · exact .refl site
      · unfold banAccount
        split
        · exact .refl site
        · split
          · exact .refl site
          · exact Undisturbed.trans (.setAcc ..) (ban_members_undisturbed ..)
    · split
      · exact .refl site
      · next proxy present =>
        have stored : Undisturbed site (site.setPx op.s
            (some { proxy with st := .banned, bu := op.u, sct := now })) := .rewritePx present rfl
        unfold banProxy
        split
        · exact .refl site
        · split
          · exact .refl site
          · exact stored.trans (.of_eq rfl rfl rfl rfl rfl rfl rfl rfl)
    · exact .refl site

theorem expire_undisturbed (now : Int) (op : Op) (site : Site) :
    Undisturbed site (apExpire now op site).1 := by
  unfold apExpire
  split
  · exact .refl site
  · next id present =>
    have written : Undisturbed site
        (site.setId op.s (some { id with st := .expired, bu := 0, qu := 0, sct := now })) :=
      .rewriteId present rfl
    split
    · exact .refl site
    · exact written.trans (zrem_all_undisturbed ..)

theorem quarantine_undisturbed (now : Int) (op : Op) (site : Site) :
    Undisturbed site (apQuarantine now op site).1 := by
  unfold apQuarantine
  split
  · exact .refl site
  · split
    · split
      · exact .refl site
      · next id present =>
        have written : Undisturbed site (site.setId op.s
            (some { id with st := .quarantined, qu := op.u, bu := 0, sct := now })) :=
          .rewriteId present rfl
        unfold quarantineIdentity
        split
        · exact .refl site
        · exact written.trans (zrem_all_undisturbed ..)
    · split
      · exact .refl site
      · next proxy present =>
        have stored : Undisturbed site (site.setPx op.s
            (some { proxy with st := .quarantined, qu := op.u, sct := now })) :=
          .rewritePx present rfl
        unfold quarantineProxy
        split
        · exact .refl site
        · exact stored.trans (.of_eq rfl rfl rfl rfl rfl rfl rfl rfl)
    · exact .refl site

theorem activate_undisturbed (now : Int) (op : Op) (site : Site) :
    Undisturbed site (apActivate now op site).1 := by
  unfold apActivate
  split
  · exact .refl site
  · next id present =>
    have written : Undisturbed site
        (site.setId op.s (some { id with st := .active, act := now, sct := now })) :=
      .rewriteId present rfl
    split
    · exact written.trans (rescored_undisturbed ..)
    · exact .refl site

theorem ready_after_set_undisturbed (op : Op) (target : IdState) (site : Site) :
    Undisturbed site (readyAfterSet op target site) := by
  unfold readyAfterSet
  split
  · refine Undisturbed.trans (Undisturbed.foldl ?_ _ _) (zrem_all_undisturbed ..)
    intro site eg
    exact .of_eq rfl rfl rfl rfl rfl rfl rfl rfl
  · exact zrem_all_undisturbed ..

theorem set_identity_undisturbed (now : Int) (op : Op) (target : IdState) {id : Identity}
    {site : Site} (present : site.id op.s = some id) :
    Undisturbed site (setIdentity now op target id site).1 := by
  have stored : Undisturbed site (site.setId op.s (some (identitySet now op target id))) :=
    .rewriteId present rfl
  have ready := stored.trans ((reset_identity_undisturbed op op.egs op.s now
    (apHas op.f fResetFail) (apHas op.f fResetHealth) _).trans
      (ready_after_set_undisturbed op target _))
  unfold setIdentity
  dsimp only
  split
  · exact ready.trans (record_ban_undisturbed ..)
  · exact ready

theorem set_undisturbed (now : Int) (op : Op) (site : Site) :
    Undisturbed site (apSet now op site).1 := by
  unfold apSet
  split
  · unfold setAccount
    split
    · exact .refl site
    · split
      · exact .refl site
      · split
        · exact .refl site
        · exact .of_eq rfl rfl rfl rfl rfl rfl rfl rfl
  · split
    · exact .refl site
    · split
      · exact .refl site
      · next present =>
        split
        · exact .refl site
        · exact set_identity_undisturbed now op _ present

theorem clear_undisturbed (now : Int) (op : Op) (site : Site) :
    Undisturbed site (apClear now op site).1 := by
  unfold apClear
  split
  · exact .refl site
  · next id present =>
    have cleared : Undisturbed site (site.setId op.s (some { id with scd := 0 })) :=
      .rewriteId present rfl
    split
    · unfold clearEndpoint
      dsimp only
      split
      · exact .refl site
      · exact Undisturbed.trans (.setHs ..) (.marked ..)
    · unfold clearSite
      dsimp only
      split
      · exact .refl site
      · exact cleared.trans ((reset_identity_undisturbed ..).trans
          ((rescored_undisturbed ..).trans (.markDirty ..)))
    · exact .refl site

theorem reset_stats_undisturbed (now : Int) (op : Op) (site : Site) :
    Undisturbed site (apResetStats now op site).1 := by
  have entries := Undisturbed.foldl (reset_hs_undisturbed op op.s now true true) op.egs site
  unfold apResetStats
  split
  · exact .refl site
  · dsimp only
    split
    · exact entries.trans ((map_id_undisturbed _ op.s
        (fun id => clearScore (clearStreak id)) fun _ => rfl).trans
          ((Undisturbed.markDirty _ (.global op.s)).trans (.of_eq rfl rfl rfl rfl rfl rfl rfl rfl)))
    · exact entries

theorem apply_op_undisturbed (now : Int) (op : Op) (site : Site) :
    Undisturbed site (applyOp now op site).1 := by
  unfold applyOp
  split
  · exact cooldown_undisturbed now op site
  · exact ban_undisturbed now op site
  · exact expire_undisturbed now op site
  · exact quarantine_undisturbed now op site
  · exact activate_undisturbed now op site
  · exact set_undisturbed now op site
  · exact clear_undisturbed now op site
  · exact reset_stats_undisturbed now op site
  · exact .refl site

theorem apply_ops_undisturbed (now : Int) (ops : List Op) (site : Site) :
    Undisturbed site (applyOps now ops site).1 := by
  have fold : ∀ (ops : List Op) (state : Site × List ActionResult),
      Undisturbed site state.1 → Undisturbed site (ops.foldl
        (fun (state : Site × List ActionResult) op =>
          ((applyOp now op state.1).1, state.2 ++ [(applyOp now op state.1).2])) state).1 := by
    intro ops
    induction ops with
    | nil => exact fun _ same => same
    | cons op rest ih =>
      intro state same
      exact ih _ (same.trans (apply_op_undisturbed now op state.1))
  exact fold ops _ (.refl site)

theorem apply_undisturbed (now : Int) (token : Option String) (ops : List Op) (site : Site) :
    Undisturbed site (apply now token ops site).1 := by
  unfold apply
  split
  · exact apply_ops_undisturbed now ops site
  · split
    · exact .refl site
    · exact (apply_ops_undisturbed now ops site).trans (.of_eq rfl rfl rfl rfl rfl rfl rfl rfl)

theorem apply_untouched (now : Int) (token : Option String) (ops : List Op) (site : Site) :
    Untouched site (apply now token ops site).1 :=
  (apply_undisturbed now token ops site).toUntouched

end Spinneret.Action
