import Mathlib.Data.Prod.Lex
import Spinneret.Action.Apply
import Spinneret.Lib.Escalation

/-!
# Severity of automatic dispositions

The lifecycle of an identity is ordered by severity, and every non-forced
lifecycle operation is an escalation in that order: it takes effect exactly on
a state below its own severity. Cooldowns are escalations of their end. The
outcome of a list of automatic operations is therefore independent of its order.
-/

namespace Spinneret.Action

open Spinneret.HotState Spinneret.Lib

set_option autoImplicit false

structure Standing where
  st : IdState
  bu : Int
  qu : Int
  deriving DecidableEq

def standing (id : Identity) : Standing where
  st := id.st
  bu := id.bu
  qu := id.qu

abbrev Severity := Nat ×ₗ Int

/-- Pending, active, quarantined, expired, temporary ban, permanent ban, with a
longer end above a shorter one. Disabled and retired are above all of them. -/
def severity (standing : Standing) : Severity :=
  match standing.st with
  | .pending => toLex (0, 0)
  | .active => toLex (1, 0)
  | .quarantined => toLex (2, standing.qu)
  | .expired => toLex (3, 0)
  | .banned => if standing.bu = -1 then toLex (5, 0) else toLex (4, standing.bu)
  | .disabled => toLex (6, 0)
  | .retired => toLex (7, 0)

/-- What an automatic lifecycle operation asks for. -/
inductive Demand where
  | activate
  | quarantine (u : Int)
  | expire
  | ban (u : Int)

def Demand.severity : Demand → Severity
  | .activate => toLex (1, 0)
  | .quarantine u => toLex (2, u)
  | .expire => toLex (3, 0)
  | .ban u => if u = -1 then toLex (5, 0) else toLex (4, u)

/-- Activation keeps the ends that are stored; the others replace them. -/
def Demand.write : Demand → Standing → Standing
  | .activate, standing => { standing with st := .active }
  | .quarantine u, _ => { st := .quarantined, bu := 0, qu := u }
  | .expire, _ => { st := .expired, bu := 0, qu := 0 }
  | .ban u, _ => { st := .banned, bu := u, qu := 0 }

theorem severity_write (demand : Demand) (before : Standing) :
    severity (demand.write before) = demand.severity := by
  cases demand <;> rfl

theorem activate_least (demand : Demand) : Demand.activate.severity ≤ demand.severity := by
  cases demand with
  | activate => exact le_rfl
  | quarantine u => exact (Prod.Lex.left _ _ (by decide : 1 < 2))
  | expire => exact (Prod.Lex.left _ _ (by decide : 1 < 3))
  | ban u =>
    simp only [Demand.severity]
    split_ifs
    · exact (Prod.Lex.left _ _ (by decide : 1 < 5))
    · exact (Prod.Lex.left _ _ (by decide : 1 < 4))

theorem demand_severity_injective {first second : Demand}
    (same : first.severity = second.severity) : first = second := by
  cases first <;> cases second <;> simp only [Demand.severity] at same <;>
    (try split_ifs at same) <;> simp_all

def lifecycle : Escalation Standing Demand Severity where
  level := severity
  target := Demand.severity
  write := Demand.write
  raises := fun demand before _ => severity_write demand before
  hides := by
    intro low high before _ order
    cases high with
    | activate => exact absurd order (not_lt.mpr (activate_least low))
    | quarantine u => rfl
    | expire => rfl
    | ban u => rfl
  agrees := by
    intro first second before _ same
    rw [demand_severity_injective same]

def cooling : Escalation Int Int Int where
  level := id
  target := id
  write := fun u _ => u
  raises := fun _ _ _ => rfl
  hides := fun _ _ _ _ _ => rfl
  agrees := fun _ _ _ _ same => same

theorem cooling_step (cd u : Int) : cooling.step cd u = max cd u := cooling.level_step cd u

/-- A non-forced operation on identity `i`: a cooldown of the identity on a group
or on the site, a ban, an expiry, a quarantine or an activation. -/
def Automatic (i : Hkey) (op : Op) : Prop :=
  op.s = i ∧ op.force = false ∧
    match op.op with
    | .cd => (op.sc = .ie ∨ op.sc = .is) ∧ 0 < op.u
    | .ban => op.sc = .id ∧ (0 < op.u ∨ op.u = -1)
    | .exp => True
    | .qua => op.sc = .id ∧ 0 < op.u
    | .act => True
    | _ => False

def demandOf (op : Op) : Option Demand :=
  match op.op with
  | .ban => some (.ban op.u)
  | .exp => some .expire
  | .qua => some (.quarantine op.u)
  | .act => some .activate
  | _ => none

def siteCooldownOf (op : Op) : Option Int :=
  if op.op = .cd ∧ op.sc = .is then some op.u else none

def groupCooldownOf (eg : Hkey) (op : Op) : Option Int :=
  if op.op = .cd ∧ op.sc = .ie ∧ op.eg = eg then some op.u else none

def groupCooldown (site : Site) (eg i : Hkey) : Int := (hsCdRu (site.hs eg i)).1

/-- What automatic operations decide about an identity, seen from one group. -/
structure Disposition where
  standing : Standing
  siteCd : Int
  groupCd : Int

def dispositionOf (site : Site) (eg i : Hkey) : Option Disposition :=
  (site.id i).map fun id =>
    { standing := standing id, siteCd := id.scd, groupCd := groupCooldown site eg i }

def Disposition.step (eg : Hkey) (before : Disposition) (op : Op) : Disposition where
  standing := lifecycle.stepOption before.standing (demandOf op)
  siteCd := cooling.stepOption before.siteCd (siteCooldownOf op)
  groupCd := cooling.stepOption before.groupCd (groupCooldownOf eg op)

theorem disposition_step_right_comm (eg : Hkey) (before : Disposition) (first second : Op) :
    (before.step eg first).step eg second = (before.step eg second).step eg first := by
  simp only [Disposition.step, Escalation.stepOption_right_comm _ _ (demandOf first),
    Escalation.stepOption_right_comm _ _ (siteCooldownOf first),
    Escalation.stepOption_right_comm _ _ (groupCooldownOf eg first)]

/-- `after` has `written` at identity `i`, and the other identities and all health
entries of `before`. -/
structure Rewrites (before : Site) (i : Hkey) (written : Identity) (after : Site) : Prop where
  hash : after.id = Function.update before.id i (some written)
  health : after.hs = before.hs

theorem rewrites_of_only_ready {site after : Site} {i : Hkey} {written : Identity}
    (only : OnlyReady (site.setId i (some written)) after) : Rewrites site i written after where
  hash := only.id
  health := only.hs

theorem dispositionOf_rewritten {site after : Site} {eg i : Hkey} {written : Identity}
    (rewritten : Rewrites site i written after) :
    dispositionOf after eg i =
      some { standing := standing written, siteCd := written.scd
             groupCd := groupCooldown site eg i } := by
  simp [dispositionOf, rewritten.hash, groupCooldown, rewritten.health]

theorem dispositionOf_present {site : Site} {eg i : Hkey} {id : Identity}
    (present : site.id i = some id) :
    dispositionOf site eg i =
      some { standing := standing id, siteCd := id.scd, groupCd := groupCooldown site eg i } := by
  simp [dispositionOf, present]

private theorem severity_lt_iff (left right : Nat × Int) :
    toLex left < toLex right ↔ left.1 < right.1 ∨ left.1 = right.1 ∧ left.2 < right.2 :=
  Prod.Lex.toLex_lt_toLex

theorem ban_refused_iff (id : Identity) (u : Int) :
    banRefused id u = none ↔ severity (standing id) < (Demand.ban u).severity := by
  cases state : id.st <;>
    simp only [banRefused, severity, Demand.severity, standing, state] <;>
    split_ifs <;> simp_all [severity_lt_iff]

theorem expire_refused_iff (id : Identity) :
    expireRefused id = none ↔ severity (standing id) < Demand.expire.severity := by
  cases state : id.st <;>
    simp only [expireRefused, severity, Demand.severity, standing, state] <;>
    (try split_ifs) <;> simp [severity_lt_iff]

theorem quarantine_refused_iff (id : Identity) (u : Int) :
    quarantineRefused id u = none ↔ severity (standing id) < (Demand.quarantine u).severity := by
  cases state : id.st <;>
    simp only [quarantineRefused, severity, Demand.severity, standing, state] <;>
    (try split_ifs) <;> simp_all [severity_lt_iff]

theorem pending_iff (id : Identity) :
    id.st = .pending ↔ severity (standing id) < Demand.activate.severity := by
  cases state : id.st <;>
    simp only [severity, Demand.severity, standing, state] <;>
    (try split_ifs) <;> simp [severity_lt_iff]

/-- A handler that rewrites the lifecycle of a present hash exactly when the
demand is above its severity takes the escalation step. -/
private theorem dispositionOf_escalated {site after : Site} {eg : Hkey} {op : Op}
    {id : Identity} {demand : Demand} (written : Identity) (present : site.id op.s = some id)
    (demanded : demandOf op = some demand) (notCd : op.op ≠ .cd)
    (scd : written.scd = id.scd) (wrote : standing written = demand.write (standing id))
    (taken : severity (standing id) < demand.severity → Rewrites site op.s written after)
    (refused : ¬ severity (standing id) < demand.severity → after = site) :
    dispositionOf after eg op.s =
      (dispositionOf site eg op.s).map fun before => before.step eg op := by
  rw [dispositionOf_present present, Option.map_some]
  simp only [Disposition.step, siteCooldownOf, groupCooldownOf, notCd, demanded, false_and,
    if_false, Escalation.stepOption]
  by_cases below : severity (standing id) < demand.severity
  · rw [dispositionOf_rewritten (taken below),
      show lifecycle.step (standing id) demand = demand.write (standing id) from if_pos below,
      wrote, scd]
  · rw [refused below, dispositionOf_present present,
      show lifecycle.step (standing id) demand = standing id from if_neg below]

section Handlers

variable {now : Int} {op : Op} {site : Site} {eg : Hkey} {id : Identity}

private theorem dispositionOf_ban (present : site.id op.s = some id) (kind : op.op = .ban)
    (unforced : op.force = false) (scope : op.sc = .id) (given : 0 < op.u ∨ op.u = -1) :
    dispositionOf (applyOp now op site).1 eg op.s =
      (dispositionOf site eg op.s).map fun before => before.step eg op := by
  have runs : (applyOp now op site).1 = (apBanIdentity now op op.s op.u site).site := by
    have nonzero : op.u ≠ 0 := by omega
    simp only [applyOp, kind, apBan, if_neg nonzero, scope, banIdentityOp]
    split <;> rfl
  rw [runs]
  have demanded : demandOf op = some (.ban op.u) := by simp only [demandOf, kind]
  refine dispositionOf_escalated
    { id with st := .banned, bu := op.u, qu := 0, sct := now }
    present demanded (by simp [kind]) rfl rfl ?taken ?refused
  case taken =>
    intro below
    have allowed := (ban_refused_iff id op.u).mpr below
    have ready := zrem_all_only_ready op.egs op.s
      (site.setId op.s (some { id with st := .banned, bu := op.u, qu := 0, sct := now }))
    simp only [apBanIdentity, present, unforced, allowed, Bool.false_eq_true, if_false]
    split_ifs
    · exact ⟨ready.id, ready.hs⟩
    · exact rewrites_of_only_ready ready
  case refused =>
    intro above
    obtain ⟨reason, refusal⟩ := Option.ne_none_iff_exists'.mp
      (mt (ban_refused_iff id op.u).mp above)
    simp only [apBanIdentity, present, unforced, refusal, Bool.false_eq_true, if_false]

private theorem dispositionOf_expire (present : site.id op.s = some id) (kind : op.op = .exp)
    (unforced : op.force = false) :
    dispositionOf (applyOp now op site).1 eg op.s =
      (dispositionOf site eg op.s).map fun before => before.step eg op := by
  have demanded : demandOf op = some .expire := by simp only [demandOf, kind]
  refine dispositionOf_escalated
    { id with st := .expired, bu := 0, qu := 0, sct := now }
    present demanded (by simp [kind]) rfl rfl ?taken ?refused
  case taken =>
    intro below
    have allowed := (expire_refused_iff id).mpr below
    simp only [applyOp, kind, apExpire, present, unforced, allowed, Bool.false_eq_true, if_false]
    exact rewrites_of_only_ready (zrem_all_only_ready _ _ _)
  case refused =>
    intro above
    obtain ⟨reason, refusal⟩ := Option.ne_none_iff_exists'.mp (mt (expire_refused_iff id).mp above)
    simp only [applyOp, kind, apExpire, present, unforced, refusal, Bool.false_eq_true, if_false]

private theorem dispositionOf_quarantine (present : site.id op.s = some id)
    (kind : op.op = .qua) (unforced : op.force = false) (scope : op.sc = .id)
    (given : 0 < op.u) :
    dispositionOf (applyOp now op site).1 eg op.s =
      (dispositionOf site eg op.s).map fun before => before.step eg op := by
  have positive : ¬ op.u ≤ 0 := by omega
  have demanded : demandOf op = some (.quarantine op.u) := by simp only [demandOf, kind]
  refine dispositionOf_escalated
    { id with st := .quarantined, qu := op.u, bu := 0, sct := now }
    present demanded (by simp [kind]) rfl rfl ?taken ?refused
  case taken =>
    intro below
    have allowed := (quarantine_refused_iff id op.u).mpr below
    simp only [applyOp, kind, apQuarantine, if_neg positive, scope, quarantineIdentity, present,
      unforced, allowed, Bool.false_eq_true, if_false]
    exact rewrites_of_only_ready (zrem_all_only_ready _ _ _)
  case refused =>
    intro above
    obtain ⟨reason, refusal⟩ := Option.ne_none_iff_exists'.mp
      (mt (quarantine_refused_iff id op.u).mp above)
    simp only [applyOp, kind, apQuarantine, if_neg positive, scope, quarantineIdentity, present,
      unforced, refusal, Bool.false_eq_true, if_false]

private theorem dispositionOf_activate (present : site.id op.s = some id)
    (kind : op.op = .act) :
    dispositionOf (applyOp now op site).1 eg op.s =
      (dispositionOf site eg op.s).map fun before => before.step eg op := by
  have demanded : demandOf op = some .activate := by simp only [demandOf, kind]
  refine dispositionOf_escalated
    { id with st := .active, act := now, sct := now }
    present demanded (by simp [kind]) rfl rfl ?taken ?refused
  case taken =>
    intro below
    have pending := (pending_iff id).mpr below
    simp only [applyOp, kind, apActivate, present, if_pos pending]
    exact rewrites_of_only_ready
      (OnlyReady.foldl (fun site eg => rescore_only_ready site eg op.s) _ _)
  case refused =>
    intro above
    have settled := mt (pending_iff id).mp above
    simp only [applyOp, kind, apActivate, present, if_neg settled]

private theorem dispositionOf_cooldown_site (present : site.id op.s = some id)
    (kind : op.op = .cd) (unforced : op.force = false) (scope : op.sc = .is) (given : 0 < op.u) :
    dispositionOf (applyOp now op site).1 eg op.s =
      (dispositionOf site eg op.s).map fun before => before.step eg op := by
  have positive : ¬ op.u ≤ 0 := by omega
  have runs : (applyOp now op site).1 = (cooldownSite now op id site).1 := by
    simp only [applyOp, kind, apCooldown, if_neg positive, scope, present]
  have health := cooldown_site_hs now op id site
  have hash := cooldown_site_id now op id site
  rw [dispositionOf_present present, Option.map_some, runs]
  simp only [Disposition.step, demandOf, siteCooldownOf, groupCooldownOf, kind, scope, true_and,
    reduceCtorEq, false_and, if_true, if_false, Escalation.stepOption, cooling_step]
  by_cases cooled : op.u ≤ id.scd
  · rw [if_pos ⟨cooled, by simp [unforced]⟩] at hash
    rw [max_eq_left cooled, dispositionOf_present (by rw [hash, present])]
    simp only [groupCooldown, health]
  · rw [if_neg (fun both => cooled both.1)] at hash
    rw [max_eq_right (by omega), dispositionOf_rewritten ⟨hash, health⟩]
    rfl

private theorem dispositionOf_cooldown_group (present : site.id op.s = some id)
    (kind : op.op = .cd) (unforced : op.force = false) (scope : op.sc = .ie) (given : 0 < op.u) :
    dispositionOf (applyOp now op site).1 eg op.s =
      (dispositionOf site eg op.s).map fun before => before.step eg op := by
  have positive : ¬ op.u ≤ 0 := by omega
  have runs : (applyOp now op site).1 = (cooldownEndpoint now op id site).1 := by
    simp only [applyOp, kind, apCooldown, if_neg positive, scope, present]
  have kept : (cooldownEndpoint now op id site).1.id op.s = some id := by
    rw [cooldown_endpoint_id, present]
  have health := cooldown_endpoint_hs now op id site
  rw [cooldown_entry_cd] at health
  rw [dispositionOf_present present, Option.map_some, runs, dispositionOf_present kept]
  simp only [Disposition.step, demandOf, siteCooldownOf, groupCooldownOf, kind, scope, true_and,
    reduceCtorEq, and_false, if_false, Escalation.stepOption]
  congr 1
  simp only [groupCooldown, health, unforced, Bool.false_eq_true, not_false_eq_true, and_true]
  by_cases here : op.eg = eg
  · subst here
    simp only [if_true, cooling_step]
    split_ifs with cooled
    · rw [max_eq_left cooled]
    · rw [max_eq_right (by omega)]
      simp [Site.setHs, hsCdRu]
  · split_ifs <;> simp [Site.setHs, Function.update_of_ne (Ne.symm here)]

theorem apply_op_missing (automatic : Automatic op.s op) (missing : site.id op.s = none) :
    (applyOp now op site).1 = site := by
  obtain ⟨-, -, kind⟩ := automatic
  revert kind
  cases state : op.op <;> simp only [applyOp, state, IsEmpty.forall_iff, forall_const]
  case cd =>
    rintro ⟨scope | scope, given⟩ <;>
      simp only [apCooldown, if_neg (not_le.mpr given), scope, missing]
  case ban =>
    rintro ⟨scope, given⟩
    have nonzero : op.u ≠ 0 := by omega
    simp only [apBan, if_neg nonzero, scope, banIdentityOp, apBanIdentity, missing]
  case exp => simp only [apExpire, missing]
  case qua =>
    rintro ⟨scope, given⟩
    simp only [apQuarantine, if_neg (not_le.mpr given), scope, missing]
  case act => simp only [apActivate, missing]

/-- One automatic operation takes the escalation steps of its demand. -/
theorem dispositionOf_apply_op (automatic : Automatic op.s op) :
    dispositionOf (applyOp now op site).1 eg op.s =
      (dispositionOf site eg op.s).map fun before => before.step eg op := by
  cases present : site.id op.s with
  | none =>
    rw [apply_op_missing automatic present]
    simp only [dispositionOf, present, Option.map_none]
  | some id =>
    obtain ⟨-, unforced, kind⟩ := automatic
    cases state : op.op <;> simp only [state] at kind
    case cd =>
      obtain ⟨scope | scope, given⟩ := kind
      · exact dispositionOf_cooldown_group present state unforced scope given
      · exact dispositionOf_cooldown_site present state unforced scope given
    case ban => exact dispositionOf_ban present state unforced kind.1 kind.2
    case exp => exact dispositionOf_expire present state unforced
    case qua => exact dispositionOf_quarantine present state unforced kind.1 kind.2
    case act => exact dispositionOf_activate present state

end Handlers

def applyRun (ops : List (Int × Op)) (site : Site) : Site :=
  ops.foldl (fun site entry => (applyOp entry.1 entry.2 site).1) site

variable {i : Hkey} {ops other : List (Int × Op)}

theorem dispositionOf_run (site : Site) (eg : Hkey)
    (automatic : ∀ entry ∈ ops, Automatic i entry.2) :
    dispositionOf (applyRun ops site) eg i =
      ops.foldl (fun before entry => before.map fun d => d.step eg entry.2)
        (dispositionOf site eg i) := by
  refine foldl_view (dispositionOf · eg i) _ _ ops site ?_
  intro state entry member
  obtain rfl : entry.2.s = i := (automatic entry member).1
  exact dispositionOf_apply_op (automatic entry member)

theorem dispositionOf_run_perm (site : Site) (eg : Hkey) (perm : ops.Perm other)
    (automatic : ∀ entry ∈ ops, Automatic i entry.2) :
    dispositionOf (applyRun ops site) eg i = dispositionOf (applyRun other site) eg i := by
  have automaticOther : ∀ entry ∈ other, Automatic i entry.2 :=
    fun entry member => automatic entry (perm.mem_iff.mpr member)
  rw [dispositionOf_run site eg automatic, dispositionOf_run site eg automaticOther]
  refine perm.foldl_eq' ?_ _
  intro first _ second _ before
  cases before with
  | none => rfl
  | some before => exact congrArg some (disposition_step_right_comm eg before first.2 second.2)

theorem apply_run_missing {site : Site} (missing : site.id i = none)
    (automatic : ∀ entry ∈ ops, Automatic i entry.2) : applyRun ops site = site := by
  induction ops with
  | nil => rfl
  | cons entry rest ih =>
    have first := automatic entry List.mem_cons_self
    obtain rfl : entry.2.s = i := first.1
    rw [applyRun, List.foldl_cons, apply_op_missing first missing]
    exact ih fun later member => automatic later (List.mem_cons_of_mem _ member)

def Standing.absorbing (standing : Standing) : Prop :=
  standing.st = .disabled ∨ standing.st = .retired

theorem absorbing_step {before : Standing} (absorbs : before.absorbing) (demand : Option Demand) :
    lifecycle.stepOption before demand = before := by
  cases demand with
  | none => rfl
  | some demand =>
    have above : ¬ severity before < demand.severity := by
      rcases absorbs with state | state <;> cases demand <;>
        simp only [severity, state, Demand.severity] <;> (try split_ifs) <;>
        simp [severity_lt_iff]
    exact if_neg above

/-- A run keeps a present identity present, never lowers its severity and leaves
an absorbing standing as it is. The induction carries the disposition along. -/
theorem disposition_fold (eg : Hkey) (ops : List (Int × Op)) (before : Disposition) :
    ∃ after, ops.foldl (fun before entry => before.map fun d => d.step eg entry.2) (some before) =
        some after ∧
      severity before.standing ≤ severity after.standing ∧
      (before.standing.absorbing → after.standing = before.standing) := by
  induction ops generalizing before with
  | nil => exact ⟨before, rfl, le_rfl, fun _ => rfl⟩
  | cons entry rest ih =>
    obtain ⟨after, reached, grew, absorbed⟩ := ih (before.step eg entry.2)
    refine ⟨after, reached, ?_, ?_⟩
    · exact (lifecycle.level_le_stepOption before.standing (demandOf entry.2)).trans grew
    · intro absorbs
      have kept : (before.step eg entry.2).standing = before.standing :=
        absorbing_step absorbs (demandOf entry.2)
      rw [absorbed (kept ▸ absorbs), kept]

theorem severity_run_le {site : Site} {before : Identity} (present : site.id i = some before)
    (automatic : ∀ entry ∈ ops, Automatic i entry.2) :
    ∃ after, (applyRun ops site).id i = some after ∧
      severity (standing before) ≤ severity (standing after) ∧
      ((standing before).absorbing → standing after = standing before) := by
  have viewed := dispositionOf_run site 0 automatic
  rw [dispositionOf_present present] at viewed
  obtain ⟨last, reached, grew, absorbed⟩ := disposition_fold 0 ops
    { standing := standing before, siteCd := before.scd, groupCd := groupCooldown site 0 i }
  rw [reached, dispositionOf, Option.map_eq_some_iff] at viewed
  obtain ⟨after, found, rfl⟩ := viewed
  exact ⟨after, found, grew, absorbed⟩

/-- Automatic dispositions are order independent: every permutation of a list of
automatic operations leads to the same lifecycle fields, site cooldown and
group cooldowns. Between any two states of a run the severity does not
decrease, and a disabled or retired identity keeps its lifecycle fields. -/
theorem automatic_dispositions_order_independent (site : Site) (i : Hkey)
    (ops other : List (Int × Op)) (perm : ops.Perm other)
    (automatic : ∀ entry ∈ ops, Automatic i entry.2) :
    ((applyRun ops site).id i).map standing = ((applyRun other site).id i).map standing ∧
    ((applyRun ops site).id i).map Identity.scd = ((applyRun other site).id i).map Identity.scd ∧
    (∀ eg, groupCooldown (applyRun ops site) eg i = groupCooldown (applyRun other site) eg i) ∧
    ∀ earlier middle later, ops = earlier ++ middle ++ later →
      ∀ before, (applyRun earlier site).id i = some before →
        ∃ after, (applyRun (earlier ++ middle) site).id i = some after ∧
          severity (standing before) ≤ severity (standing after) ∧
          (before.st = .disabled ∨ before.st = .retired → standing after = standing before) := by
  have same := fun eg => dispositionOf_run_perm site eg perm automatic
  refine ⟨?lifecycle, ?siteCooldown, ?groups, ?severities⟩
  case lifecycle =>
    have view := congrArg (Option.map Disposition.standing) (same 0)
    simpa only [dispositionOf, Option.map_map, Function.comp_def] using view
  case siteCooldown =>
    have view := congrArg (Option.map Disposition.siteCd) (same 0)
    simpa only [dispositionOf, Option.map_map, Function.comp_def] using view
  case groups =>
    intro eg
    cases present : site.id i with
    | none =>
      rw [apply_run_missing present automatic, apply_run_missing present
        fun entry member => automatic entry (perm.mem_iff.mpr member)]
    | some before =>
      obtain ⟨after, reached, -⟩ := severity_run_le present automatic
      have view := congrArg (Option.map Disposition.groupCd) (same eg)
      simp only [dispositionOf, Option.map_map, reached, Option.map_some] at view
      obtain ⟨_, _, cooldown⟩ := Option.map_eq_some_iff.mp view.symm
      exact cooldown.symm
  case severities =>
    rintro earlier middle later rfl before present
    have middleAutomatic : ∀ entry ∈ middle, Automatic i entry.2 := by
      intro entry member
      exact automatic entry (by simp [member])
    have split : applyRun (earlier ++ middle) site = applyRun middle (applyRun earlier site) :=
      List.foldl_append
    rw [split]
    exact severity_run_le present middleAutomatic

/-- A ban and an expiry of a pending identity in either order. -/
theorem ban_and_expiry_commute :
    let site : Site := { id := Function.update (fun _ => none) 1 (plainIdentity "a" .pending) }
    let ban : Op := { op := .ban, sc := .id, s := 1, u := -1 }
    let expire : Op := { op := .exp, sc := .id, s := 1 }
    ((applyRun [(5, ban), (6, expire)] site).id 1).map standing =
      ((applyRun [(6, expire), (5, ban)] site).id 1).map standing :=
  (automatic_dispositions_order_independent _ 1 _ _ (List.Perm.swap _ _ [])
    (by
      intro entry member
      simp only [List.mem_cons, List.not_mem_nil, or_false] at member
      rcases member with rfl | rfl <;> simp [Automatic, Op.force, apHas])).1

end Spinneret.Action
