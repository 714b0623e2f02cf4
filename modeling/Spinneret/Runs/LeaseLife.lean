import Mathlib.Logic.Relation
import Spinneret.Runs.ScriptLedger

/-!
# The life of a lease hash

What the scripts can do to one lease hash, said once: acquire writes it, renew
moves its expiry, release and reap end it, reports are counted on it, retention
extends it and Redis drops it after its end. A step takes every hash through a
chain of such moves, so a property of lease hashes is preserved by every step if
every move preserves it.
-/

namespace Spinneret.Runs

open Spinneret.HotState Spinneret.Lib Spinneret.Scheduler Spinneret.Worker Spinneret.Action
open Spinneret.Breakers

set_option autoImplicit false

/-- The hash of a lease after its end, if it is kept at all. -/
def endedLease (lease : Lease) (state : LeaseState) (endMs now late : Int) : Option Lease :=
  if max late (lease.kx - now) ≤ 0 then none
  else some { lease with
    st := state, ended := endMs, expireAt := some (now + max late (lease.kx - now)) }

/-- One write to the hash of lease `lid` by a step that returned `replies`. -/
inductive LeaseMove (lid : LeaseId) : SiteOp → List LeaseReply → Option Lease → Option Lease → Prop
  where
  | issued {args : AcquireArgs} {mode : Mode} {c : Candidate} {proxy : Option ProxyPick}
      {old : Option Lease} {replies : List LeaseReply}
      (drawn : lid.lead ∈ args.prefixes) (replied : lid ∈ replies.map LeaseReply.lid) :
      LeaseMove lid (.acquire args) replies old (some (leaseOf args mode c proxy))
  | renewed {args : RenewArgs} {lease : Lease} {replies : List LeaseReply}
      (active : lease.st = .active) (running : args.now < lease.x) (short : lease.x < lease.cap) :
      LeaseMove lid (.renew args) replies (some lease)
        (some { lease with x := renewedExpiry args lease })
  | released {args : ReleaseArgs} {lease : Lease} {replies : List LeaseReply}
      (active : lease.st = .active) :
      LeaseMove lid (.release args) replies (some lease)
        (endedLease lease .released args.now args.now args.late)
  | reaped {args : ReapArgs} {lease : Lease} {replies : List LeaseReply}
      (active : lease.st = .active) :
      LeaseMove lid (.reap args) replies (some lease)
        (endedLease lease .expired lease.x args.now args.late)
  | counted {shard : Nat} {sid : StreamId} {full : Option ObserveArgs} {lease : Lease}
      {replies : List LeaseReply} :
      LeaseMove lid (.observe shard sid full) replies (some lease)
        (some { lease with rc := lease.rc + 1 })
  | retained {args : RetainArgs} {lease : Lease} {count : Int} {replies : List LeaseReply} :
      LeaseMove lid (.retain args) replies (some lease) (some (retained args lease count))
  | expired {lease : Lease} {replies : List LeaseReply} (lapses : lease.expireAt.isSome) :
      LeaseMove lid (.expire lid) replies (some lease) none

/-- Every lease hash goes through a chain of moves of the step. -/
def Moves (op : SiteOp) (replies : List LeaseReply) (before after : Site) : Prop :=
  ∀ lid, Relation.ReflTransGen (LeaseMove lid op replies)
    (before.ls.lookup lid) (after.ls.lookup lid)

namespace Moves

variable {op : SiteOp} {replies : List LeaseReply} {before middle after : Site} {lid : LeaseId}

theorem of_ls (same : after.ls = before.ls) : Moves op replies before after := by
  intro lid
  rw [same]

theorem refl (site : Site) : Moves op replies site site := of_ls rfl

theorem trans (first : Moves op replies before middle) (second : Moves op replies middle after) :
    Moves op replies before after :=
  fun lid => (first lid).trans (second lid)

theorem foldl {Item State : Type*} {f : State → Item → State} (site : State → Site)
    (one : ∀ state item, Moves op replies (site state) (site (f state item)))
    (items : List Item) (state : State) :
    Moves op replies (site state) (site (items.foldl f state)) := by
  induction items generalizing state with
  | nil => exact refl _
  | cons item rest ih => exact (one state item).trans (ih _)

theorem write {lease : Lease} (written : after.ls = before.ls.insert lid lease)
    (move : LeaseMove lid op replies (before.ls.lookup lid) (some lease)) :
    Moves op replies before after := by
  intro key
  rw [written]
  by_cases same : key = lid
  · subst same
    rw [AList.lookup_insert]
    exact .single move
  · rw [AList.lookup_insert_ne same]

theorem drop (dropped : after.ls = before.ls.erase lid)
    (move : LeaseMove lid op replies (before.ls.lookup lid) none) :
    Moves op replies before after := by
  intro key
  rw [dropped]
  by_cases same : key = lid
  · subst same
    rw [AList.lookup_erase]
    exact .single move
  · rw [AList.lookup_erase_ne same]

theorem reply (moves : Moves op replies before after) (more : List LeaseReply) :
    Moves op (replies ++ more) before after := by
  intro lid
  refine Relation.ReflTransGen.mono (fun old new move => ?_) _ _ (moves lid)
  cases move with
  | issued drawn replied =>
    refine .issued drawn ?_
    rw [List.map_append]
    exact List.mem_append_left _ replied
  | renewed active running short => exact .renewed active running short
  | released active => exact .released active
  | reaped active => exact .reaped active
  | counted => exact .counted
  | retained => exact .retained
  | expired lapses => exact .expired lapses

end Moves

/-! ## The scripts -/

section Scripts

variable {op : SiteOp} {replies : List LeaseReply} {site : Site}

theorem ls_end_moves {layout : Layout} {lid : LeaseId} {lease : Lease} {state : LeaseState}
    {endMs now late : Int} {windows : Option (List Int)}
    (move : LeaseMove lid op replies (site.ls.lookup lid) (endedLease lease state endMs now late)) :
    Moves op replies site (lsEnd site layout lid lease state endMs now late windows).site := by
  have hashes := (ls_end_frame site layout lid lease state endMs now late windows).1
  unfold endLeaseHash at hashes
  unfold endedLease at move
  dsimp only at hashes
  split_ifs at hashes move
  · exact .drop hashes move
  · exact .write hashes move

theorem release_moves (args : ReleaseArgs) (site : Site) :
    Moves (.release args) replies site (release args site).1.site := by
  unfold release
  split
  · exact .refl site
  · next lease found =>
    split
    · exact .refl site
    · split
      · next active => exact ls_end_moves (found ▸ .released active)
      · exact .refl site

theorem reap_moves (args : ReapArgs) (site : Site) :
    Moves (.reap args) replies site (reap args site).1.site := by
  refine Moves.foldl (fun state : Ended × List ReapedLease => state.1.site) ?_ _
    ({ site := site, clamped := false }, [])
  intro state lid
  unfold reapOne
  dsimp only
  split
  · exact .of_ls rfl
  · next lease found =>
    split
    · next active => exact ls_end_moves (found ▸ .reaped active)
    · exact .of_ls rfl

theorem renew_moves (args : RenewArgs) (site : Site) :
    Moves (.renew args) replies site (renew args site).1 := by
  rcases renew_cases args site with ⟨same, -⟩ | ⟨lease, found, active, running, short, renewed⟩
  · exact .of_ls (congrArg Site.ls same)
  · rw [renewed]
    exact .write (hold_renewed_untouched _ lease _).ls (found ▸ .renewed active running short)

theorem lease_report_moves {shard : Nat} {sid : StreamId} {full : Option ObserveArgs}
    (args : ObserveArgs) (site : Site) :
    Moves (.observe shard sid full) replies site (leaseReport args site).1 := by
  unfold leaseReport
  split
  · exact .refl site
  · next lease found =>
    have counted : Moves (.observe shard sid full) replies site
        { site with ls := site.ls.insert args.lid { lease with rc := lease.rc + 1 } } :=
      .write rfl (found ▸ .counted)
    dsimp only
    split
    · split_ifs
      · exact counted.trans (.of_ls (quota_report_undisturbed _ _ _).ls)
      · exact counted
    · exact counted

theorem observe_moves (shard : Nat) (sid : StreamId) (full : Option ObserveArgs) (site : Site) :
    Moves (.observe shard sid full) replies site (observe shard sid full site).1 := by
  unfold observe
  split
  · exact .refl site
  · split
    · exact .of_ls rfl
    · next args =>
      set marked : Site := { site with ckpt := Function.update site.ckpt shard (some sid) }
      have advanced : Moves (.observe shard sid (some args)) replies site marked := .of_ls rfl
      have probed : Moves (.observe shard sid (some args)) replies (leaseReport args marked).1
          (probeReport args (windowReport args (leaseReport args marked).1)
            (leaseReport args marked).2) :=
        .of_ls (window_report_undisturbed args (leaseReport args marked).1).ls
      exact (advanced.trans (lease_report_moves args marked)).trans
        (probed.trans (.of_ls (observe_full_undisturbed args marked).ls))

theorem retain_one_moves (args : RetainArgs) (site : Site) (report : LeaseId × Int) :
    Moves (.retain args) replies site (retainOne args site report) := by
  unfold retainOne
  split
  · exact .refl site
  · next lease found =>
    split
    · exact .write rfl (found ▸ .retained)
    · exact .refl site

theorem sync_moves (args : SyncArgs) (site : Site) :
    Moves (.sync args) replies site (syncIdentities args site) := by
  have accounts : Moves (.sync args) replies site (args.accounts.foldl (syncAccount args) site) :=
    .foldl id (fun site row => .of_ls (sync_account_undisturbed args site row).ls) args.accounts site
  refine accounts.trans (.foldl id ?_ args.records _)
  intro site record
  cases record with
  | sync row => exact .of_ls (sync_identity_undisturbed args site row).ls
  | remove i profile => exact .of_ls (remove_identity_undisturbed site i profile).ls

theorem expire_lease_moves {after : Site} {lid : LeaseId}
    (expired : expireLease site lid = some after) : Moves (.expire lid) replies site after := by
  obtain ⟨lease, found, lapses, rfl⟩ := expire_lease_writes expired
  exact .drop rfl (found ▸ .expired lapses)

theorem issue_moves_rule (args : AcquireArgs) (site : Site) (probe : Bool) :
    LeaseRule args (modeOf args probe) fun after out => Moves (.acquire args) out site after where
  quiet _ _ _ quiet moves := moves.trans (.of_ls quiet.ls)
  lease before out c proxy sticky moves room _ _ := by
    refine (moves.reply _).trans (.write (write_lease_ls ..) (.issued (lead_drawn room) ?_))
    rw [List.map_append]
    exact List.mem_append_right _ (List.mem_singleton_self _)

theorem acquire_moves (args : AcquireArgs) (site : Site) :
    Moves (.acquire args) (acquire args site).2.leases site (acquire args site).1 :=
  acquire_rule (.of_ls rfl) fun probe _ => issue_moves_rule args site probe

end Scripts

/-- Every step takes every lease hash through moves of its kind. -/
theorem perform_moves {op : SiteOp} {site : Site} {outcome : Outcome}
    (performed : perform op site = some outcome) : Moves op outcome.leases site outcome.site := by
  cases op with
  | acquire args =>
    cases performed
    exact acquire_moves args site
  | renew args =>
    cases performed
    exact renew_moves args site
  | release args =>
    cases performed
    exact release_moves args site
  | reap args =>
    cases performed
    exact reap_moves args site
  | observe shard sid full =>
    cases performed
    exact observe_moves shard sid full site
  | act now token ops =>
    cases performed
    exact .of_ls (apply_untouched now token ops site).ls
  | evalBreaker args =>
    cases performed
    exact .of_ls (breaker_eval_same_ledger args site).ls
  | setBreaker args =>
    cases performed
    exact .of_ls (breaker_set_same_ledger args site).ls
  | sync args =>
    cases performed
    exact sync_moves args site
  | syncProxies args =>
    cases performed
    exact .of_ls (sync_proxies_undisturbed args site).ls
  | retain args =>
    cases performed
    exact .foldl id (retain_one_moves args) args.reports site
  | expire lid =>
    obtain ⟨after, expired, rfl⟩ := Option.map_eq_some_iff.mp performed
    exact expire_lease_moves expired
  | forget key =>
    cases performed
    exact .of_ls (forget_untouched site key).ls

/-! ## What stays of a lease -/

/-- The part of a lease hash that its issue fixes. -/
def issuedPart (lease : Lease) : Lease :=
  { lease with
    x := 0, st := .active, rc := 0, kx := 0, rv := 0, ended := 0, expireAt := none }

/-- A later version of a lease hash: what the issue fixed stays, an ended lease stays
ended, and only a renewal moves the expiry. -/
structure Continues (op : SiteOp) (old lease : Lease) : Prop where
  fixed : issuedPart lease = issuedPart old
  active : lease.st = .active → old.st = .active
  expiry : (∀ args, op ≠ .renew args) → lease.x = old.x

namespace Continues

variable {op : SiteOp} {old lease : Lease}

theorem identity (continues : Continues op old lease) : lease.i = old.i := by
  have same := congrArg Lease.i continues.fixed
  exact same

theorem acquired (continues : Continues op old lease) : lease.a = old.a := by
  have same := congrArg Lease.a continues.fixed
  exact same

theorem cap (continues : Continues op old lease) : lease.cap = old.cap := by
  have same := congrArg Lease.cap continues.fixed
  exact same

theorem limit (continues : Continues op old lease) : lease.mc = old.mc := by
  have same := congrArg Lease.mc continues.fixed
  exact same

end Continues

theorem Continues.refl (op : SiteOp) (lease : Lease) : Continues op lease lease :=
  ⟨rfl, id, fun _ => rfl⟩

theorem Continues.trans {op : SiteOp} {first second third : Lease}
    (earlier : Continues op first second) (later : Continues op second third) :
    Continues op first third where
  fixed := later.fixed.trans earlier.fixed
  active := fun active => earlier.active (later.active active)
  expiry := fun other => (later.expiry other).trans (earlier.expiry other)

theorem ended_continues {op : SiteOp} {lease left : Lease} {state : LeaseState}
    {endMs now late : Int} (ends : state ≠ .active)
    (kept : endedLease lease state endMs now late = some left) : Continues op lease left := by
  unfold endedLease at kept
  split at kept
  · cases kept
  · cases kept
    exact ⟨rfl, fun active => absurd active ends, fun _ => rfl⟩

theorem retained_continues (op : SiteOp) (args : RetainArgs) (lease : Lease) (count : Int) :
    Continues op lease (retained args lease count) := by
  unfold retained
  dsimp only
  split_ifs <;> exact ⟨rfl, id, fun _ => rfl⟩

theorem LeaseMove.continues {lid : LeaseId} {op : SiteOp} {replies : List LeaseReply}
    {before after : Option Lease} (move : LeaseMove lid op replies before after)
    (other : ∀ args, op ≠ .acquire args) {lease : Lease} (left : after = some lease) :
    ∃ old, before = some old ∧ Continues op old lease := by
  cases move with
  | issued drawn replied => exact absurd rfl (other _)
  | renewed active running short =>
    cases left
    exact ⟨_, rfl, rfl, id, fun none => absurd rfl (none _)⟩
  | released active => exact ⟨_, rfl, ended_continues (by decide) left⟩
  | reaped active => exact ⟨_, rfl, ended_continues (by decide) left⟩
  | counted =>
    cases left
    exact ⟨_, rfl, rfl, id, fun _ => rfl⟩
  | retained =>
    cases left
    exact ⟨_, rfl, retained_continues ..⟩
  | expired lapses => cases left

theorem Moves.continues {op : SiteOp} {replies : List LeaseReply} {before after : Site}
    (moves : Moves op replies before after) (other : ∀ args, op ≠ .acquire args) {lid : LeaseId}
    {lease : Lease} (found : after.ls.lookup lid = some lease) :
    ∃ old, before.ls.lookup lid = some old ∧ Continues op old lease := by
  have chain := moves lid
  rw [found] at chain
  -- from the last move back, each of which found the hash it left
  generalize before.ls.lookup lid = start at chain ⊢
  induction chain using Relation.ReflTransGen.head_induction_on with
  | refl => exact ⟨lease, rfl, .refl op lease⟩
  | head move _ ih =>
    obtain ⟨between, rfl, later⟩ := ih
    obtain ⟨old, rfl, earlier⟩ := move.continues other rfl
    exact ⟨old, rfl, earlier.trans later⟩

end Spinneret.Runs
