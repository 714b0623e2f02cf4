import Spinneret.Scheduler.AcquireSteps
import Spinneret.Scheduler.QuotaBackoff

/-!
# What an acquire call leases

The lease writes of a call in order, with the state each one is written in. Filters
run on sampled candidates and a verdict may be cached while other leases of the batch
are written; a candidate is still fit when its lease is written, because only its own
lease would change the hashes it was read from.
-/

namespace Spinneret.Scheduler

open Spinneret.HotState Spinneret.Lib

set_option autoImplicit false

/-! ## Lease writes -/

/-- One lease write of a call with the state just before it. -/
structure Write where
  before : Site
  c : Candidate
  lead : String
  proxy : Option ProxyPick
  sticky : Bool

def Write.after (args : AcquireArgs) (mode : Mode) (write : Write) : Site :=
  writeLease args mode write.before write.c write.lead write.proxy

def Write.reply (args : AcquireArgs) (mode : Mode) (write : Write) : LeaseReply :=
  replyOf args mode write.c (leaseIdOf args write.lead write.c) write.proxy write.sticky

def Write.issue (args : AcquireArgs) (mode : Mode) (write : Write) : LeaseId × Lease :=
  (leaseIdOf args write.lead write.c, leaseOf args mode write.c write.proxy)

/-- A call leads from `start` to a state by the given lease writes, with quiet writes
before and after each of them. -/
inductive Wrote (args : AcquireArgs) (mode : Mode) (start : Site) : List Write → Site → Prop where
  | start : Wrote args mode start [] start
  | quiet {writes : List Write} {before after : Site} (wrote : Wrote args mode start writes before)
      (quiet : Quiet before after) : Wrote args mode start writes after
  | lease {writes : List Write} {write : Write}
      (wrote : Wrote args mode start writes write.before) :
      Wrote args mode start (writes ++ [write]) (write.after args mode)

/-- The `k`-th lease of a call goes to a candidate that fits, with a proxy that can
serve it. -/
structure Granted (args : AcquireArgs) (k : Nat) (write : Write) : Prop where
  fit : ∃ id, Fit args write.before k write.sticky write.c id
  carried : Carried args write.before write.c write.proxy
  lead : write.lead = args.prefixes.getD k ""

/-- A lease past the reuse interval goes to the identity of the session. -/
def InSession (args : AcquireArgs) (mode : Mode) (write : Write) : Prop :=
  write.sticky = true →
    mode.sticky = true ∧ write.before.stk args.eg args.session = some write.c.i

/-- The call has made the given lease writes, each for an identity of its own. -/
structure CallWrote (args : AcquireArgs) (mode : Mode) (start : Site) (call : Call)
    (writes : List Write) : Prop where
  wrote : Wrote args mode start writes call.site
  granted : ∀ k write, writes[k]? = some write → Granted args k write
  replies : call.out = writes.map (Write.reply args mode)
  counted : call.picked = writes.length
  bounded : call.picked ≤ mode.count
  taken : ∀ write ∈ writes, write.c.i ∈ call.skip
  distinct : (writes.map fun write => write.c.i).Nodup
  session : ∀ write ∈ writes, InSession args mode write

variable {sticky : Bool} {c : Candidate} {call : Call} {writes : List Write}

section Writes

variable {args : AcquireArgs} {mode : Mode} {start : Site}

theorem set_hs_other {site : Site} {eg i j : Hkey} {value : Option Health} (other : j ≠ i) :
    (site.setHs eg i value).hs eg j = site.hs eg j := by
  simp only [Site.setHs, Function.update_self]
  exact Function.update_of_ne other _ _

theorem quota_write_other (args : AcquireArgs) (site : Site) (c : Candidate) {j : Hkey}
    (other : j ≠ c.i) : (quotaWrite args site c).q args.eg j = site.q args.eg j := by
  unfold quotaWrite
  split
  · rfl
  · simp only [Site.setQ, Function.update_self]
    exact Function.update_of_ne other _ _

theorem Fit.write_lease {site : Site} {picked : Nat} {other : Candidate} {id : Identity}
    (fit : Fit args site picked sticky other id) (mode : Mode) (lead : String)
    (proxy : Option ProxyPick) (distinct : other.i ≠ c.i) :
    Fit args (writeLease args mode site c lead proxy) (picked + 1) sticky other id := by
  refine fit.transport ?_ ?_ ?_ (write_lease_acc ..) ?_ nofun
  · rw [write_lease_id, if_neg distinct]
  · rw [write_lease_hs, set_hs_other distinct]
  · rw [write_lease_q, quota_write_other args site c distinct]
  · rintro pick ⟨bound, kept, hash, found, active, cooled, limit⟩
    refine ⟨bound, kept, ?_⟩
    rw [write_lease_px]
    split
    · exact ⟨{ hash with al := hash.al + 1 }, by rw [found]; rfl, active, cooled, limit⟩
    · exact ⟨hash, found, active, cooled, limit⟩

theorem CallWrote.draw (before : CallWrote args mode start call writes) (ridx : Nat)
    (cursor : Option Int) :
    CallWrote args mode start { call with ridx := ridx, cursor := cursor } writes :=
  ⟨before.wrote, before.granted, before.replies, before.counted, before.bounded, before.taken,
    before.distinct, before.session⟩

theorem CallWrote.quiet {site : Site} (before : CallWrote args mode start call writes)
    (quiet : Quiet call.site site) : CallWrote args mode start { call with site := site } writes :=
  ⟨before.wrote.quiet quiet, before.granted, before.replies, before.counted, before.bounded,
    before.taken, before.distinct, before.session⟩

/-- A fit candidate is taken: the identity counts as taken whether or not a proxy was
found, and the other candidates stay fit. -/
theorem take_candidate_wrote {id : Identity} (sticky : Bool)
    (before : CallWrote args mode start call writes) (room : call.picked < mode.count)
    (fit : Fit args call.site call.picked sticky c id) (untaken : c.i ∉ call.skip)
    (session : sticky = true → mode.sticky = true ∧ call.site.stk args.eg args.session = some c.i) :
    (∃ writes, CallWrote args mode start (takeCandidate args mode call c sticky) writes) ∧
      (takeCandidate args mode call c sticky).skip = c.i :: call.skip ∧
      ∀ other otherId, other.i ≠ c.i → Fit args call.site call.picked false other otherId →
        Fit args (takeCandidate args mode call c sticky).site
          (takeCandidate args mode call c sticky).picked false other otherId := by
  let assigned := assignProxy args call.site call.ridx call.picked c
  let moved : Site := { call.site with pxrdy := assigned.pxrdy }
  have quiet : Quiet call.site moved := ⟨rfl, fun _ => rfl⟩
  have held := before.quiet quiet
  unfold takeCandidate
  dsimp only
  split
  · refine ⟨⟨writes, held.wrote, held.granted, held.replies, held.counted, held.bounded, ?_,
      held.distinct, held.session⟩, rfl, fun other otherId _ stored => stored.quiet quiet⟩
    exact fun write member => List.mem_cons_of_mem _ (held.taken write member)
  · next proxy chosen =>
    have carried := assign_proxy_carried fit chosen
    let write : Write :=
      { before := moved, c := c, lead := args.prefixes.getD call.picked "", proxy := proxy
        sticky := sticky }
    have grant : Granted args call.picked write := by
      refine ⟨⟨id, fit.quiet quiet⟩, ?_, rfl⟩
      cases carried with
      | unneeded mode => exact .unneeded mode
      | offered needed offer =>
        exact .offered needed ⟨offer.found, offer.active, offer.cooled, offer.room, offer.limit,
          offer.filtered⟩
      | bound px usable room => exact .bound px ⟨usable.bound, usable.kept, usable.usable⟩ room
    refine ⟨⟨writes ++ [write], ?_⟩, rfl, ?_⟩
    · refine ⟨@Wrote.lease _ _ _ _ write held.wrote, ?_, ?_, ?_, room, ?_, ?_, ?_⟩
      · intro k other found
        rcases Nat.lt_or_ge k writes.length with earlier | later
        · exact held.granted k other (by rwa [List.getElem?_append_left earlier] at found)
        · rw [List.getElem?_append_right later] at found
          obtain ⟨first, rfl⟩ := List.getElem?_eq_some_iff.mp found
          have here : k = call.picked := by
            rw [held.counted]
            simp only [List.length_singleton] at first
            omega
          subst here
          simpa using grant
      · simp only [Call.lease, List.map_append, List.map_singleton, before.replies]
        rfl
      · simp [Call.lease, before.counted]
      · intro other member
        rcases List.mem_append.mp member with old | new
        · exact List.mem_cons_of_mem _ (held.taken other old)
        · rw [List.mem_singleton.mp new]
          exact List.mem_cons_self
      · rw [List.map_append, List.nodup_append]
        refine ⟨held.distinct, List.nodup_singleton _, ?_⟩
        rintro i earlier j new rfl
        obtain ⟨other, member, rfl⟩ := List.mem_map.mp earlier
        rw [List.map_singleton, List.mem_singleton] at new
        exact untaken (new ▸ before.taken other member)
      · exact List.forall_mem_append.mpr ⟨held.session, List.forall_mem_singleton.mpr session⟩
    · intro other otherId apart stored
      exact (stored.quiet quiet).write_lease mode _ proxy apart

theorem lease_chosen_wrote {id : Identity} (before : CallWrote args mode start call writes)
    (room : call.picked < mode.count) (fit : Fit args call.site call.picked false c id)
    (untaken : c.i ∉ call.skip) :
    (∃ writes, CallWrote args mode start (leaseChosen args mode call c) writes) ∧
      (leaseChosen args mode call c).skip = c.i :: call.skip ∧
      ∀ other otherId, other.i ≠ c.i → Fit args call.site call.picked false other otherId →
        Fit args (leaseChosen args mode call c).site (leaseChosen args mode call c).picked false
          other otherId := by
  obtain ⟨⟨later, wrote⟩, skip, kept⟩ := take_candidate_wrote false before room fit untaken nofun
  unfold leaseChosen
  dsimp only
  split
  · exact ⟨⟨later, wrote.draw _ _⟩, skip, kept⟩
  · exact ⟨⟨later, wrote⟩, skip, kept⟩

/-! ## The loop -/

/-- No identity of the pool occurs twice or has been taken, and cached candidates fit. -/
structure PoolFit (args : AcquireArgs) (call : Call) (held : Pooled) : Prop where
  nodup : (held.map Prod.fst).Nodup
  untaken : ∀ entry ∈ held, entry.1 ∉ call.skip
  cached : ∀ entry ∈ held, ∀ c, entry.2 = some c →
    c.i = entry.1 ∧ ∃ id, Fit args call.site call.picked false c id

def LoopWrote (args : AcquireArgs) (mode : Mode) (start : Site) (call : Call) (held : Pooled) :
    Prop :=
  (∃ writes, CallWrote args mode start call writes) ∧ PoolFit args call held

theorem PoolFit.tail {entry : Hkey × Option Candidate} {rest : Pooled}
    (fit : PoolFit args call (entry :: rest)) :
    PoolFit args call rest ∧ ∀ other ∈ rest, other.1 ≠ entry.1 := by
  obtain ⟨first, later⟩ := List.nodup_cons.mp fit.nodup
  refine ⟨⟨later, fun other member => fit.untaken other (List.mem_cons_of_mem _ member),
    fun other member => fit.cached other (List.mem_cons_of_mem _ member)⟩, ?_⟩
  intro other member same
  exact first (same ▸ List.mem_map_of_mem member)

theorem lease_entry_wrote {i : Hkey} {cached : Option Candidate} {rest : Pooled} {id : Identity}
    (before : LoopWrote args mode start call ((i, cached) :: rest))
    (room : call.picked < mode.count) (same : c.i = i)
    (fit : Fit args call.site call.picked false c id) :
    LoopWrote args mode start (leaseChosen args mode call c) rest := by
  obtain ⟨⟨writes, wrote⟩, pool⟩ := before
  obtain ⟨left, distinct⟩ := pool.tail
  have untaken : c.i ∉ call.skip := same ▸ pool.untaken _ List.mem_cons_self
  obtain ⟨after, skip, kept⟩ := lease_chosen_wrote wrote room fit untaken
  refine ⟨after, left.nodup, ?_, ?_⟩
  · intro entry member taken
    rw [skip, List.mem_cons] at taken
    rcases taken with here | old
    · exact distinct entry member (here.trans same)
    · exact left.untaken entry member old
  · intro entry member other found
    obtain ⟨here, otherId, stored⟩ := left.cached entry member other found
    refine ⟨here, otherId, kept other otherId ?_ stored⟩
    rw [here, same]
    exact distinct entry member

theorem loop_wrote_rule : LoopRule args mode fun _ => LoopWrote args mode start where
  draw ridx cursor before := by
    obtain ⟨⟨writes, wrote⟩, pool⟩ := before
    exact ⟨⟨writes, wrote.draw ridx cursor⟩, pool.nodup, pool.untaken, pool.cached⟩
  order same before := by
    obtain ⟨wrote, pool⟩ := before
    exact ⟨wrote, (same.map Prod.fst).nodup_iff.mp pool.nodup,
      fun entry member => pool.untaken entry (same.mem_iff.mpr member),
      fun entry member => pool.cached entry (same.mem_iff.mpr member)⟩
  step := by
    intro past call next i cached judged rest after room _ before moved
    cases moved with
    | known =>
      obtain ⟨same, id, fit⟩ := before.2.cached _ List.mem_cons_self _ rfl
      exact lease_entry_wrote before room same fit
    | fresh passed =>
      obtain ⟨same, id, fit⟩ := evaluate_fits call.picked passed
      exact lease_entry_wrote before room same fit
    | @spared c passed =>
      obtain ⟨wrote, pool⟩ := before
      obtain ⟨left, -⟩ := pool.tail
      refine ⟨wrote, pool.nodup, ?_, ?_⟩
      · exact List.forall_mem_cons.mpr ⟨pool.untaken (i, none) List.mem_cons_self, left.untaken⟩
      · refine List.forall_mem_cons.mpr ⟨?_, left.cached⟩
        rintro other ⟨⟩
        exact evaluate_fits call.picked passed
    | @rejected verdict judged refused =>
      obtain ⟨⟨writes, wrote⟩, pool⟩ := before
      have quiet := reject_candidate_quiet args call.site i verdict
      obtain ⟨left, -⟩ := pool.tail
      refine ⟨⟨writes, wrote.quiet quiet⟩, left.nodup, left.untaken, ?_⟩
      intro entry member c found
      obtain ⟨same, id, fit⟩ := left.cached entry member c found
      exact ⟨same, id, fit.quiet quiet⟩

theorem new_pool_fit {ids : List Hkey} (limit : Nat) (call : Call) (nodup : ids.Nodup) :
    PoolFit args call ((newPool ids limit call.skip).entries.map PoolEntry.held) := by
  have fresh : (newPool ids limit call.skip).entries.map PoolEntry.held =
      ((ids.filter fun i => !call.skip.contains i).take limit).map fun i => (i, none) := by
    simp only [newPool, List.map_map]
    rfl
  rw [fresh]
  refine ⟨?_, ?_, ?_⟩
  · simp only [List.map_map, Function.comp_def, List.map_id']
    exact nodup.sublist ((List.take_sublist _ _).trans List.filter_sublist)
  · intro entry member
    obtain ⟨i, chosen, rfl⟩ := List.mem_map.mp member
    have kept := (List.mem_filter.mp ((List.take_sublist _ _).subset chosen)).2
    simpa using kept
  · intro entry member c found
    obtain ⟨i, -, rfl⟩ := List.mem_map.mp member
    cases found

/-! ## The call -/

theorem call_wrote_rule : CallRule args mode
    (fun call => ∃ writes, CallWrote args mode start call writes)
    fun _ => LoopWrote args mode start where
  loop := loop_wrote_rule
  enter want nodup before := ⟨before, new_pool_fit want _ nodup⟩
  leave kept := kept.1

theorem issue_wrote (asked : 0 < mode.count) :
    ∃ writes, CallWrote args mode start (issue args mode start) writes := by
  have nothing : CallWrote args mode start { site := start } [] :=
    ⟨.start, fun k write found => by simp at found, rfl, rfl, Nat.zero_le _,
      fun write member => absurd member List.not_mem_nil, List.nodup_nil,
      fun write member => absurd member List.not_mem_nil⟩
  refine issue_keeps call_wrote_rule ⟨_, nothing⟩ fun i c wanted bound passed => ?_
  obtain ⟨same, id, fit⟩ := evaluate_fits 0 passed
  exact (take_candidate_wrote true nothing asked fit List.not_mem_nil
    fun _ => ⟨wanted, same ▸ bound⟩).1

theorem finish_wrote (transition : Bool) (before : CallWrote args mode start call writes) :
    Wrote args mode start writes (finish args transition call).1 ∧
      (finish args transition call).2.leases = writes.map (Write.reply args mode) := by
  unfold finish
  split
  · refine ⟨before.wrote.quiet ?_, before.replies⟩
    dsimp only
    split <;> exact ⟨rfl, fun _ => rfl⟩
  · next none =>
    have nothing : writes = [] := List.length_eq_zero_iff.mp (by
      have counted := before.counted
      omega)
    subst nothing
    split <;> exact ⟨before.wrote, rfl⟩

end Writes

/-- What it takes to lease past the reuse interval: the call is no probe, names a session that
lasts and asks for one lease, and the session is bound to the identity. -/
structure StickyPick (args : AcquireArgs) (site : Site) (write : Write) : Prop where
  regular : (breakerGate args (site.brk args.eg)).verdict = .inr false
  session : args.session ≠ ""
  lasting : 0 < args.stickyTtl
  single : args.prefixes.length = 1
  bound : write.before.stk args.eg args.session = some write.c.i

theorem InSession.sticky_pick {args : AcquireArgs} {site : Site} {probe : Bool} {write : Write}
    (passed : (breakerGate args (site.brk args.eg)).verdict = .inr probe)
    (session : InSession args (modeOf args probe) write) (sticky : write.sticky = true) :
    StickyPick args site write := by
  obtain ⟨wanted, bound⟩ := session sticky
  cases probe with
  | true => simp [modeOf] at wanted
  | false =>
    obtain ⟨named, lasting, single⟩ : args.session ≠ "" ∧ 0 < args.stickyTtl ∧
        args.prefixes.length = 1 := by
      simpa [modeOf] using wanted
    exact ⟨passed, named, lasting, single, bound⟩

/-- The whole call: the state it leaves is reached by lease writes to candidates that fit,
each for an identity of its own, and the reply lists them. -/
theorem acquire_wrote (args : AcquireArgs) (site : Site) :
    ∃ probe writes,
      Wrote args (modeOf args probe)
        (site.setBrk args.eg (breakerGate args (site.brk args.eg)).breaker) writes
        (acquire args site).1 ∧
      (acquire args site).2.leases = writes.map (Write.reply args (modeOf args probe)) ∧
      (writes.map fun write => write.c.i).Nodup ∧
      (∀ write ∈ writes, write.sticky = true → StickyPick args site write) ∧
      writes.length ≤ (modeOf args probe).count ∧
      ∀ k write, writes[k]? = some write → Granted args k write := by
  unfold acquire
  dsimp only
  split
  · exact ⟨false, [], .start, rfl, List.nodup_nil,
      fun write member => absurd member List.not_mem_nil, Nat.zero_le _,
      fun k write found => by simp at found⟩
  · next probe passed =>
    obtain ⟨writes, issued⟩ := @issue_wrote args _
      (site.setBrk args.eg (breakerGate args (site.brk args.eg)).breaker)
      (mode_count_pos args probe)
    obtain ⟨wrote, replies⟩ := finish_wrote
      (breakerGate args (site.brk args.eg)).transition issued
    exact ⟨probe, writes, wrote, replies, issued.distinct,
      fun write member => (issued.session write member).sticky_pick passed,
      issued.counted ▸ issued.bounded, issued.granted⟩

theorem Wrote.rule {args : AcquireArgs} {mode : Mode} {start final : Site}
    {Holds : List Write → Site → Prop} (wrote : Wrote args mode start writes final)
    (granted : ∀ k write, writes[k]? = some write → Granted args k write) (initial : Holds [] start)
    (quiet : ∀ writes before after, Quiet before after → Holds writes before → Holds writes after)
    (lease : ∀ writes write, Granted args writes.length write → Holds writes write.before →
      Holds (writes ++ [write]) (write.after args mode)) :
    Holds writes final := by
  induction wrote with
  | start => exact initial
  | quiet _ silent ih => exact quiet _ _ _ silent (ih granted)
  | @lease earlier write _ ih =>
    refine lease earlier write (granted _ _ List.getElem?_concat_length) (ih ?_)
    intro k other found
    obtain ⟨inside, -⟩ := List.getElem?_eq_some_iff.mp found
    exact granted k other ((List.getElem?_append_left inside).trans found)

theorem Wrote.ls {args : AcquireArgs} {mode : Mode} {start final : Site}
    (wrote : Wrote args mode start writes final) :
    final.ls = Table.insertAll start.ls (writes.map (Write.issue args mode)) := by
  induction wrote with
  | start => rfl
  | quiet _ silent ih => rw [silent.ls, ih]
  | @lease earlier write _ ih =>
    rw [Write.after, write_lease_ls, ih]
    simp only [Table.insertAll, List.map_append, List.map_singleton, List.foldl_append,
      List.foldl_cons, List.foldl_nil]
    rfl

/-- The ids of the leases of a call start with the leads it was given, in order. -/
theorem issue_leads {args : AcquireArgs} {probe : Bool}
    (granted : ∀ k write, writes[k]? = some write → Granted args k write)
    (bounded : writes.length ≤ (modeOf args probe).count) :
    writes.map (fun write => (write.issue args (modeOf args probe)).1.lead) =
      args.prefixes.take writes.length := by
  apply List.ext_getElem?
  intro k
  rw [List.getElem?_map, List.getElem?_take]
  cases found : writes[k]? with
  | none =>
    rw [if_neg (List.getElem?_eq_none_iff.mp found).not_gt]
    rfl
  | some write =>
    obtain ⟨inside, -⟩ := List.getElem?_eq_some_iff.mp found
    have within : k < args.prefixes.length :=
      inside.trans_le (bounded.trans (mode_count_le args probe))
    rw [if_pos inside, List.getElem?_eq_getElem within, Option.map_some]
    simp only [Write.issue, leaseIdOf, (granted k write found).lead,
      List.getD_eq_getElem?_getD, List.getElem?_eq_getElem within, Option.getD_some]

/-- What the breaker gate, quiet writes and the lease writes to fit candidates keep, a call
keeps. -/
theorem acquire_grant_rule {Holds : Site → Prop} (args : AcquireArgs) {site : Site}
    (gated : Holds (site.setBrk args.eg (breakerGate args (site.brk args.eg)).breaker))
    (quiet : ∀ before after, Quiet before after → Holds before → Holds after)
    (lease : ∀ mode k write, Granted args k write → Holds write.before →
      Holds (write.after args mode)) :
    Holds (acquire args site).1 := by
  obtain ⟨probe, writes, wrote, -, -, -, -, granted⟩ := acquire_wrote args site
  exact @Wrote.rule _ _ _ _ _ (fun _ => Holds) wrote granted gated (fun _ => quiet)
    fun writes => lease (modeOf args probe) writes.length

/-- A call that issues one lease writes it between quiet writes. -/
theorem acquire_single {args : AcquireArgs} {site : Site} {reply : LeaseReply}
    (single : (acquire args site).2.leases = [reply]) :
    ∃ mode write,
      Quiet (site.setBrk args.eg (breakerGate args (site.brk args.eg)).breaker) write.before ∧
      Granted args 0 write ∧ Quiet (write.after args mode) (acquire args site).1 ∧
      reply = write.reply args mode := by
  obtain ⟨probe, writes, wrote, replies, -, -, -, granted⟩ := acquire_wrote args site
  set gated := site.setBrk args.eg (breakerGate args (site.brk args.eg)).breaker
  have shape := @Wrote.rule _ _ _ _ _ (fun writes after =>
    (writes = [] ∧ Quiet gated after) ∨
    (∃ write, writes = [write] ∧ Quiet gated write.before ∧ Granted args 0 write ∧
      Quiet (write.after args (modeOf args probe)) after) ∨ 2 ≤ writes.length)
    wrote granted (.inl ⟨rfl, .refl _⟩) (fun writes before after quiet held => by
      obtain ⟨none, calm⟩ | ⟨write, one, calm, grant, later⟩ | more := held
      · exact .inl ⟨none, calm.trans quiet⟩
      · exact .inr (.inl ⟨write, one, calm, grant, later.trans quiet⟩)
      · exact .inr (.inr more))
    (fun writes write grant held => by
      obtain ⟨rfl, calm⟩ | ⟨first, rfl, -⟩ | more := held
      · exact .inr (.inl ⟨write, rfl, calm, grant, .refl _⟩)
      · exact .inr (.inr (le_refl 2))
      · refine .inr (.inr (more.trans ?_))
        rw [List.length_append]
        exact Nat.le_add_right _ _)
  have counted := congrArg List.length replies
  rw [single, List.length_map, List.length_singleton] at counted
  obtain ⟨rfl, -⟩ | ⟨write, rfl, calm, grant, later⟩ | more := shape
  · cases counted
  · refine ⟨_, write, calm, grant, later, ?_⟩
    rw [single, List.map_singleton] at replies
    exact List.singleton_inj.mp replies
  · omega

/-! ## The filters at the time of the write -/

/-- How many leases an identity may hold at once. -/
def leaseLimit (args : AcquireArgs) (id : Identity) : Int :=
  if id.st = .pending then min args.mc args.probeMax else args.mc

/-- What the policy asks of an identity that is about to be leased. -/
structure Leasable (args : AcquireArgs) (site : Site) (sticky : Bool) (i : Hkey)
    (id : Identity) : Prop where
  stored : site.id i = some id
  usable : id.st = .active ∨ id.st = .pending
  cooled : (hsCdRu (site.hs args.eg i)).1 ≤ args.now
  siteCooled : id.scd ≤ args.now
  account : ∀ a account, id.acc = some a → site.acc a = some account →
    account.st = .active ∧ account.cd ≤ args.now
  reusable : sticky = false → (hsCdRu (site.hs args.eg i)).2 ≤ args.now ∧ id.sru ≤ args.now
  unheld : 0 < id.al → id.xl ≤ args.now
  room : id.al < leaseLimit args id
  quotas : ∀ quota ∈ args.quotas,
    slidingEstimate ((site.q args.eg i).cells quota.window) quota.window args.now + 1 ≤
      quotaLimit quota (quotaFactor args id.act)

/-- What the policy asks of the proxy of a lease. A proxy that the identity is bound to
already is not measured by the filters again. -/
structure Serves (args : AcquireArgs) (site : Site) (id : Identity) (pick : ProxyPick)
    (proxy : Proxy) : Prop where
  needed : args.pmode ≠ .none
  found : site.px pick.p = some proxy
  active : proxy.st = .active
  cooled : proxy.cd ≤ args.now ∧ proxy.gcd ≤ args.now
  room : proxy.al < proxy.mc
  filtered : proxyMatches args
      (if args.pregion ∨ args.pmode = .regionMatch then some id.rg else none) proxy = true ∨
    args.pmode = .bindIdentity ∧ pick.bind = false ∧ id.px = some pick.p

def ProxyServes (args : AcquireArgs) (site : Site) (id : Identity) : Option ProxyPick → Prop
  | none => args.pmode = .none
  | some pick => ∃ proxy, Serves args site id pick proxy

section Conditions

variable {args : AcquireArgs} {site : Site} {id : Identity}

theorem account_available {a : Hkey} {av : Int} {account : Account}
    (found : site.acc a = some account)
    (available : (accountAvail site args.now a av).2 ≤ args.now) :
    account.st = .active ∧ account.cd ≤ args.now := by
  unfold accountAvail at available
  rw [found] at available
  dsimp only at available
  cases state : account.st with
  | active =>
    rw [state] at available
    exact ⟨rfl, (le_max_right _ _).trans available⟩
  | banned =>
    simp only [state, longPush] at available
    split_ifs at available with permanent ended
    all_goals
      have pushed := (le_max_right _ _).trans available
      omega
  | disabled =>
    simp only [state, longPush] at available
    have pushed := (le_max_right _ _).trans available
    omega

theorem account_avail_ge (now : Int) (a : Hkey) (av : Int) :
    av ≤ (accountAvail site now a av).2 := by
  unfold accountAvail
  split
  · exact le_max_left _ _
  · next account found =>
    dsimp only
    split
    · split_ifs
      all_goals exact (le_max_left av account.cd).trans (le_max_left _ _)
    · exact (le_max_left av account.cd).trans (le_max_left _ _)
    · exact le_max_left _ _

/-- An available identity is past everything that availability takes together. -/
theorem available_parts {hs : Health}
    (available : (availability args site id hs sticky).2 ≤ args.now) :
    hs.cd ≤ args.now ∧ id.scd ≤ args.now ∧
      (sticky = false → hs.ru ≤ args.now ∧ id.sru ≤ args.now) ∧
      (0 < id.al → id.xl ≤ args.now) ∧
      ∀ a account, id.acc = some a → site.acc a = some account →
        account.st = .active ∧ account.cd ≤ args.now := by
  unfold availability at available
  dsimp only at available
  set cooled := max hs.cd id.scd with coolDef
  set reused := if sticky = true then cooled else max cooled (max hs.ru id.sru) with reuseDef
  set leased := if 0 < id.al then max reused id.xl else reused with leaseDef
  have own : leased ≤ args.now := by
    split at available
    · exact available
    · exact (account_avail_ge _ _ _).trans available
  have reuse : reused ≤ leased := by
    rw [leaseDef]
    split
    · exact le_max_left _ _
    · exact le_rfl
  have cool : cooled ≤ reused := by
    rw [reuseDef]
    split
    · exact le_rfl
    · exact le_max_left _ _
  refine ⟨?_, ?_, ?_, ?_, ?_⟩
  · have first : hs.cd ≤ cooled := le_max_left _ _
    omega
  · have second : id.scd ≤ cooled := le_max_right _ _
    omega
  · intro asked
    rw [asked] at reuseDef
    simp only [Bool.false_eq_true, if_false] at reuseDef
    omega
  · intro leases
    rw [if_pos leases] at leaseDef
    omega
  · intro a account linked found
    rw [linked] at available
    exact account_available found available

theorem hs_unpack_cd_ru (entry : Option Health) (baseline : ℚ) (now : Int) :
    (hsUnpack entry baseline now).cd = (hsCdRu entry).1 ∧
      (hsUnpack entry baseline now).ru = (hsCdRu entry).2 := by
  cases entry with
  | none => exact ⟨rfl, rfl⟩
  | some health => exact ⟨rfl, rfl⟩

theorem Fit.leasable {picked : Nat} (fit : Fit args site picked sticky c (unmarked id))
    (stored : site.id c.i = some id) : Leasable args site sticky c.i id := by
  obtain ⟨cooled, siteCooled, reusable, unheld, account⟩ := available_parts fit.available
  obtain ⟨cd, ru⟩ := hs_unpack_cd_ru (site.hs args.eg c.i) args.baseline args.now
  rw [fit.health, cd] at cooled
  refine ⟨stored, fit.usable, cooled, siteCooled, account, ?_, unheld, ?_, ?_⟩
  · intro asked
    obtain ⟨endpoint, whole⟩ := reusable asked
    rw [fit.health, ru] at endpoint
    exact ⟨endpoint, whole⟩
  · have room := fit.room
    rw [fit.al, fit.lim] at room
    exact room
  · intro quota member
    have reads : args.readsAll = true := by
      have some : args.quotas.isEmpty = false := List.isEmpty_eq_false_iff_exists_mem.mpr ⟨_, member⟩
      simp [AcquireArgs.readsAll, some]
    have passed := fit.quota
    rw [fit.cells, if_pos reads] at passed
    exact quota_push_none passed member

theorem Fit.serves {picked : Nat} {proxy : Option ProxyPick}
    (fit : Fit args site picked sticky c (unmarked id)) (carried : Carried args site c proxy) :
    ProxyServes args site id proxy := by
  have reads (needed : args.pmode ≠ .none) : args.readsAll = true := by
    simp [AcquireArgs.readsAll, needed]
  cases carried with
  | unneeded mode => exact mode
  | @offered pick proxy needed offer =>
    have region : c.rg = id.rg := by rw [fit.region, if_pos (reads needed)]; rfl
    refine ⟨proxy, needed, offer.found, offer.active, ?_, offer.room, Or.inl ?_⟩
    · exact ⟨(le_max_left _ _).trans offer.cooled, (le_max_right _ _).trans offer.cooled⟩
    · rw [← region]
      exact offer.filtered
  | @bound pick px usable room =>
    obtain ⟨proxy, found, active, cooled, limit⟩ := usable.usable
    have needed : args.pmode ≠ .none := by rw [usable.bound]; nofun
    rw [fit.px, if_pos (reads needed)] at px
    refine ⟨proxy, needed, found, active, ?_, ?_, Or.inr ⟨usable.bound, usable.kept, px⟩⟩
    · exact ⟨(le_max_left _ _).trans cooled, (le_max_right _ _).trans cooled⟩
    · simpa only [proxyAl, found, Option.map_some, Option.getD_some, limit] using room

theorem Granted.conditions {k : Nat} {write : Write} (granted : Granted args k write) :
    ∃ id, Leasable args write.before write.sticky write.c.i id ∧
      ProxyServes args write.before id write.proxy := by
  obtain ⟨view, fit⟩ := granted.fit
  obtain ⟨id, stored, rfl⟩ := Option.map_eq_some_iff.mp fit.stored
  exact ⟨id, fit.leasable stored, fit.serves granted.carried⟩

end Conditions

/-- Acquire soundness: the leases of a call are written one after the other, each for an
identity of its own that meets every filter in the state just before its lease is
written, with a proxy that can serve it. The reuse interval is passed over only for the
identity that the session of the call is bound to. -/
theorem acquire_leases_sound (args : AcquireArgs) (site : Site) :
    ∃ probe writes,
      Wrote args (modeOf args probe)
        (site.setBrk args.eg (breakerGate args (site.brk args.eg)).breaker) writes
        (acquire args site).1 ∧
      (acquire args site).2.leases = writes.map (Write.reply args (modeOf args probe)) ∧
      (writes.map fun write => write.c.i).Nodup ∧
      (∀ write ∈ writes, write.sticky = true → StickyPick args site write) ∧
      ∀ write ∈ writes, ∃ id, Leasable args write.before write.sticky write.c.i id ∧
        ProxyServes args write.before id write.proxy := by
  obtain ⟨probe, writes, wrote, replies, distinct, sticky, -, granted⟩ := acquire_wrote args site
  refine ⟨probe, writes, wrote, replies, distinct, sticky, fun write member => ?_⟩
  obtain ⟨k, found⟩ := List.mem_iff_getElem?.mp member
  exact (granted k write found).conditions

/-- A policy that asks for datacenter proxies and keeps the proxy of an identity. -/
def boundCall : AcquireArgs :=
  { plainAcquire 1 1000 "a" with pmode := .bindIdentity, kinds := ["datacenter"] }

/-- Identity 7 is ready and bound to the residential proxy 3. -/
def boundSite : Site where
  id := Function.update (fun _ => none) 7
    (some { plainIdentity "idt_7" .active with px := some 3 })
  px := Function.update (fun _ => none) 3
    (some { pid := "pxy_3", st := .active, kd := "residential", rg := "", pv := "", tg := [], mc := 1
            uv := "", gcd := 0, bu := 0, qu := 0, sct := 0 })
  rdy := Function.update (fun _ => ∅) 1 ((∅ : ZSet Hkey).add 0 7)

/-- The bound proxy is leased although the kinds of the policy leave it out. -/
theorem bound_proxy_escapes_filters :
    (acquire boundCall boundSite).2.leases.map LeaseReply.p = [some 3] ∧
      (boundSite.px 3).map (proxyMatches boundCall none) = some false := by
  decide +kernel

end Spinneret.Scheduler
