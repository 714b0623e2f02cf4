import Mathlib.Data.List.Perm.Basic
import Spinneret.Scheduler.AcquireVerified

/-!
# The rule of an acquire call

An acquire call alternates quiet writes with lease writes. A property of the hot
state and the leases issued so far that survives both survives the whole call.
This is where the loop of the script is reasoned about once: at every lease
write the candidate is verified, because a call leases an identity at most once
and so a candidate cached in the pool keeps its counter.
-/

namespace Spinneret.Scheduler

open Spinneret.HotState Spinneret.Lib

set_option autoImplicit false

/-! ## The lease write -/

/-- No key family that a lease counter, a breaker gate or a breaker window depends on differs. -/
structure Aside (before after : Site) : Prop where
  id : after.id = before.id
  px : after.px = before.px
  ls : after.ls = before.ls
  lsexp : after.lsexp = before.lsexp
  brk : after.brk = before.brk
  brko : after.brko = before.brko
  win : after.win = before.win

theorem Aside.trans {first second third : Site} (left : Aside first second)
    (right : Aside second third) : Aside first third where
  id := right.id.trans left.id
  px := right.px.trans left.px
  ls := right.ls.trans left.ls
  lsexp := right.lsexp.trans left.lsexp
  brk := right.brk.trans left.brk
  brko := right.brko.trans left.brko
  win := right.win.trans left.win

section LeaseWrite

variable (args : AcquireArgs) (mode : Mode) (site : Site) (c : Candidate) (lead : String)
  (proxy : Option ProxyPick)

private theorem quota_write_aside : Aside site (quotaWrite args site c) := by
  unfold quotaWrite
  split_ifs <;> exact ⟨rfl, rfl, rfl, rfl, rfl, rfl, rfl⟩

private theorem remember_session_aside (i : Hkey) :
    Aside site (rememberSession args mode site i) := by
  unfold rememberSession
  split_ifs <;> exact ⟨rfl, rfl, rfl, rfl, rfl, rfl, rfl⟩

theorem proxy_leased_frame :
    proxyLeased args site proxy = { site with
      px := (proxyLeased args site proxy).px, pxrdy := (proxyLeased args site proxy).pxrdy } := by
  unfold proxyLeased
  split
  · rfl
  · split
    · rfl
    · dsimp only
      split_ifs <;> rfl

theorem charge_probe_frame (eg : Hkey) (probe : Bool) :
    chargeProbe site eg probe = { site with brk := (chargeProbe site eg probe).brk } := by
  unfold chargeProbe
  split_ifs <;> rfl

theorem count_identity_frame :
    countIdentity args site c proxy =
      { site with id := (countIdentity args site c proxy).id } := by
  unfold countIdentity
  split <;> rfl

private theorem proxy_leased_px (p : Hkey) :
    (proxyLeased args site proxy).px p =
      if proxy.map ProxyPick.p = some p then
        (site.px p).map fun hash => { hash with al := hash.al + 1 }
      else site.px p := by
  unfold proxyLeased
  cases proxy with
  | none => rfl
  | some pick =>
    simp only [Option.map_some, Option.some.injEq]
    cases found : site.px pick.p with
    | none =>
      dsimp only
      split_ifs with same
      · rw [← same, found]
        rfl
      · rfl
    | some hash =>
      by_cases same : pick.p = p
      · subst same
        dsimp only
        rw [if_pos rfl]
        split_ifs <;> simp [Site.setPx, found]
      · dsimp only
        rw [if_neg same]
        split_ifs <;> simp [Site.setPx, Function.update_of_ne (Ne.symm same)]

private theorem count_identity_id (i : Hkey) :
    (countIdentity args site c proxy).id i =
      if i = c.i then (site.id i).map (identityLeased args c proxy) else site.id i := by
  unfold countIdentity
  by_cases here : i = c.i
  · subst here
    rw [if_pos rfl]
    cases found : site.id c.i with
    | none => exact found
    | some id => simp [Site.setId]
  · rw [if_neg here]
    split
    · rfl
    · simp [Site.setId, here]

/-- Between the writes that count a lease, the lease write only touches other
key families. -/
private theorem write_lease_steps :
    ∃ metered dressed,
      Aside (countIdentity args (storeLease args mode site c lead proxy) c proxy) metered ∧
      Aside (proxyLeased args metered proxy) dressed ∧
      writeLease args mode site c lead proxy = chargeProbe dressed args.eg mode.probe := by
  let counted := countIdentity args (storeLease args mode site c lead proxy) c proxy
  let healthy := hsSet counted args.eg c.i (healthLeased args c)
  have health : Aside counted healthy := ⟨rfl, rfl, rfl, rfl, rfl, rfl, rfl⟩
  let proxied := proxyLeased args (quotaWrite args healthy c) proxy
  let scored := proxied.setRdy args.eg ((proxied.rdy args.eg).move (readyAfterLease args c) c.i)
  have score : Aside proxied scored := ⟨rfl, rfl, rfl, rfl, rfl, rfl, rfl⟩
  have session := remember_session_aside args mode scored c.i
  let stuck := rememberSession args mode scored c.i
  let dressed := (stuck.markDirty (.endpoint args.eg c.i)).markDirty (.global c.i)
  have marked : Aside stuck dressed := ⟨rfl, rfl, rfl, rfl, rfl, rfl, rfl⟩
  exact ⟨quotaWrite args healthy c, dressed, health.trans (quota_write_aside args healthy c),
    (score.trans session).trans marked, rfl⟩

theorem write_lease_id (i : Hkey) :
    (writeLease args mode site c lead proxy).id i =
      if i = c.i then (site.id i).map (identityLeased args c proxy) else site.id i := by
  obtain ⟨metered, dressed, first, second, same⟩ :=
    write_lease_steps args mode site c lead proxy
  rw [same, charge_probe_frame]
  dsimp only
  rw [second.id, proxy_leased_frame]
  dsimp only
  rw [first.id, count_identity_id]
  rfl

theorem write_lease_px (p : Hkey) :
    (writeLease args mode site c lead proxy).px p =
      if proxy.map ProxyPick.p = some p then
        (site.px p).map fun hash => { hash with al := hash.al + 1 }
      else site.px p := by
  obtain ⟨metered, dressed, first, second, same⟩ :=
    write_lease_steps args mode site c lead proxy
  rw [same, charge_probe_frame]
  dsimp only
  rw [second.px, proxy_leased_px, first.px, count_identity_frame]
  rfl

private theorem write_lease_frame :
    let after := writeLease args mode site c lead proxy
    after.ls = site.ls.insert (leaseIdOf args lead c) (leaseOf args mode c proxy) ∧
      after.lsexp = site.lsexp.insert (leaseIdOf args lead c) (leaseExpiry args) ∧
      after.brko = site.brko ∧ after.win = site.win := by
  obtain ⟨metered, dressed, first, second, same⟩ :=
    write_lease_steps args mode site c lead proxy
  rw [same, charge_probe_frame]
  dsimp only
  rw [second.ls, second.lsexp, second.brko, second.win, proxy_leased_frame]
  dsimp only
  rw [first.ls, first.lsexp, first.brko, first.win, count_identity_frame]
  exact ⟨rfl, rfl, rfl, rfl⟩

theorem write_lease_ls :
    (writeLease args mode site c lead proxy).ls =
      site.ls.insert (leaseIdOf args lead c) (leaseOf args mode c proxy) :=
  (write_lease_frame args mode site c lead proxy).1

theorem write_lease_lsexp :
    (writeLease args mode site c lead proxy).lsexp =
      site.lsexp.insert (leaseIdOf args lead c) (leaseExpiry args) :=
  (write_lease_frame args mode site c lead proxy).2.1

theorem write_lease_brko : (writeLease args mode site c lead proxy).brko = site.brko :=
  (write_lease_frame args mode site c lead proxy).2.2.1

theorem write_lease_win : (writeLease args mode site c lead proxy).win = site.win :=
  (write_lease_frame args mode site c lead proxy).2.2.2

theorem write_lease_brk :
    (writeLease args mode site c lead proxy).brk = (chargeProbe site args.eg mode.probe).brk := by
  obtain ⟨metered, dressed, first, second, same⟩ :=
    write_lease_steps args mode site c lead proxy
  have kept : dressed.brk = site.brk := by
    rw [second.brk, proxy_leased_frame]
    dsimp only
    rw [first.brk, count_identity_frame]
    rfl
  rw [same]
  unfold chargeProbe
  split_ifs
  · simp only [Site.setBrk, kept]
  · exact kept

/-- The hashes a candidate is read from and the ready queues, the identities apart. -/
private structure Beside (before after : Site) : Prop where
  acc : after.acc = before.acc
  hs : after.hs = before.hs
  q : after.q = before.q
  rdy : after.rdy = before.rdy

private theorem count_identity_beside : Beside site (countIdentity args site c proxy) := by
  rw [count_identity_frame]
  exact ⟨rfl, rfl, rfl, rfl⟩

private theorem proxy_leased_beside : Beside site (proxyLeased args site proxy) := by
  rw [proxy_leased_frame]
  exact ⟨rfl, rfl, rfl, rfl⟩

private theorem remember_session_beside (i : Hkey) :
    Beside site (rememberSession args mode site i) := by
  unfold rememberSession
  split_ifs <;> exact ⟨rfl, rfl, rfl, rfl⟩

private theorem charge_probe_beside (eg : Hkey) (probe : Bool) :
    Beside site (chargeProbe site eg probe) := by
  rw [charge_probe_frame]
  exact ⟨rfl, rfl, rfl, rfl⟩

theorem quota_write_frame :
    quotaWrite args site c = { site with q := (quotaWrite args site c).q } := by
  unfold quotaWrite
  split_ifs <;> rfl

private theorem quota_write_q {other : Site} (same : other.q = site.q) :
    (quotaWrite args other c).q = (quotaWrite args site c).q := by
  unfold quotaWrite
  split_ifs
  · exact same
  · simp only [Site.setQ, same]

/-- Besides its counters, a lease write changes the health entry, the quota windows and
the ready score of the identity on the group. -/
private theorem write_lease_reads :
    (writeLease args mode site c lead proxy).acc = site.acc ∧
    (writeLease args mode site c lead proxy).hs =
      (site.setHs args.eg c.i (some (hsPack (healthLeased args c)))).hs ∧
    (writeLease args mode site c lead proxy).q = (quotaWrite args site c).q ∧
    (writeLease args mode site c lead proxy).rdy =
      (site.setRdy args.eg ((site.rdy args.eg).move (readyAfterLease args c) c.i)).rdy := by
  let counted := countIdentity args (storeLease args mode site c lead proxy) c proxy
  have count : Beside (storeLease args mode site c lead proxy) counted :=
    count_identity_beside args _ c proxy
  let healthy := hsSet counted args.eg c.i (healthLeased args c)
  let metered := quotaWrite args healthy c
  have meter : metered = { healthy with q := metered.q } := quota_write_frame args healthy c
  have windows : metered.q = (quotaWrite args site c).q := quota_write_q args site c count.q
  let proxied := proxyLeased args metered proxy
  have carried : Beside metered proxied := proxy_leased_beside args metered proxy
  let scored := proxied.setRdy args.eg ((proxied.rdy args.eg).move (readyAfterLease args c) c.i)
  have session := remember_session_beside args mode scored c.i
  let stuck := rememberSession args mode scored c.i
  have charged := charge_probe_beside
    ((stuck.markDirty (.endpoint args.eg c.i)).markDirty (.global c.i)) args.eg mode.probe
  have health : proxied.hs = (site.setHs args.eg c.i (some (hsPack (healthLeased args c)))).hs := by
    rw [carried.hs, meter]
    simp only [healthy, hsSet, Site.setHs, count.hs]
    rfl
  have ready : proxied.rdy = site.rdy := by
    rw [carried.rdy, meter]
    exact count.rdy
  refine ⟨?_, ?_, ?_, ?_⟩
  · calc (writeLease args mode site c lead proxy).acc
        = proxied.acc := charged.acc.trans session.acc
      _ = counted.acc := by rw [carried.acc, meter]; rfl
      _ = site.acc := count.acc
  · exact (charged.hs.trans session.hs).trans health
  · exact (charged.q.trans session.q).trans (carried.q.trans windows)
  · refine (charged.rdy.trans session.rdy).trans ?_
    simp only [scored, Site.setRdy, ready]

theorem write_lease_acc : (writeLease args mode site c lead proxy).acc = site.acc :=
  (write_lease_reads args mode site c lead proxy).1

theorem write_lease_hs :
    (writeLease args mode site c lead proxy).hs =
      (site.setHs args.eg c.i (some (hsPack (healthLeased args c)))).hs :=
  (write_lease_reads args mode site c lead proxy).2.1

theorem write_lease_q :
    (writeLease args mode site c lead proxy).q = (quotaWrite args site c).q :=
  (write_lease_reads args mode site c lead proxy).2.2.1

theorem write_lease_rdy :
    (writeLease args mode site c lead proxy).rdy =
      (site.setRdy args.eg ((site.rdy args.eg).move (readyAfterLease args c) c.i)).rdy :=
  (write_lease_reads args mode site c lead proxy).2.2.2

/-- A candidate of another identity stays verified. -/
theorem Verified.write_lease {other : Candidate} (verified : Verified args site other)
    (distinct : other.i ≠ c.i) : Verified args (writeLease args mode site c lead proxy) other where
  stored := by rw [write_lease_id, if_neg distinct, verified.stored]
  below := verified.below
  bound pick bound := by
    rw [write_lease_px]
    split_ifs
    · simpa using verified.bound pick bound
    · exact verified.bound pick bound

end LeaseWrite

/-! ## Pools -/

def PoolEntry.held (entry : PoolEntry) : Hkey × Option Candidate := (entry.i, entry.c)

/-- No identity occurs twice, and a cached candidate is a verified candidate of
its entry. -/
structure PoolVerified (args : AcquireArgs) (site : Site) (entries : List PoolEntry) : Prop where
  nodup : (entries.map PoolEntry.i).Nodup
  cached : ∀ entry ∈ entries, ∀ c, entry.c = some c → c.i = entry.i ∧ Verified args site c

variable {pool : Pool} {j : Nat} {entry : PoolEntry} {call : Call}

section Pools

variable {args : AcquireArgs} {site : Site}

theorem new_pool_verified {ids : List Hkey} (limit : Nat) (skip : List Hkey)
    (nodup : ids.Nodup) : PoolVerified args site (newPool ids limit skip).entries where
  nodup := by
    simp only [newPool, List.map_map, Function.comp_def, List.map_id']
    exact nodup.sublist ((List.take_sublist _ _).trans List.filter_sublist)
  cached entry member c found := by
    obtain ⟨i, -, rfl⟩ := List.mem_map.mp member
    cases found

theorem PoolVerified.perm {entries others : List PoolEntry}
    (verified : PoolVerified args site entries) (permuted : others.Perm entries) :
    PoolVerified args site others where
  nodup := (permuted.map PoolEntry.i).nodup_iff.mpr verified.nodup
  cached entry member := verified.cached entry (permuted.mem_iff.mp member)

theorem PoolVerified.rekey {entries others : List PoolEntry}
    (verified : PoolVerified args site entries)
    (same : others.map PoolEntry.held =
      entries.map PoolEntry.held) :
    PoolVerified args site others where
  nodup := by
    have ids := congrArg (List.map Prod.fst) same
    rw [List.map_map, List.map_map] at ids
    exact ids ▸ verified.nodup
  cached entry member c found := by
    have listed : entry.held ∈ entries.map PoolEntry.held := same ▸ List.mem_map_of_mem member
    obtain ⟨origin, present, pair⟩ := List.mem_map.mp listed
    obtain ⟨sameId, sameC⟩ := Prod.mk.inj pair
    rw [← sameId]
    exact verified.cached origin present c (sameC.trans found)

theorem remove_perm (found : pool.entries[j]? = some entry) :
    (entry :: (pool.remove j).entries).Perm pool.entries := by
  obtain ⟨inside, rfl⟩ := List.getElem?_eq_some_iff.mp found
  unfold Pool.remove
  split
  · next empty =>
    rw [List.getLast?_eq_none_iff.mp empty] at inside
    exact absurd inside (Nat.not_lt_zero j)
  · next last lastFound =>
    -- the chosen entry and the last one trade places before the last is cut off
    have moved : (pool.entries.set j last).getLast? = some last := by
      rw [List.getLast?_eq_getElem?] at lastFound ⊢
      rw [List.length_set, List.getElem?_set]
      split_ifs
      · rfl
      · exact lastFound
    have cut := List.dropLast_append_getLast? last moved
    have swapped : (last :: (pool.entries.set j last).dropLast).Perm
        (last :: pool.entries.eraseIdx j) := by
      refine (List.perm_append_singleton last _).symm.trans ?_
      rw [cut]
      exact List.set_perm_cons_eraseIdx inside last
    exact (swapped.cons_inv.cons _).trans (List.getElem_cons_eraseIdx_perm inside)

theorem weigh_same (found : pool.entries[j]? = some entry) :
    (pool.setEntry j (entry.weighed args site)).entries.map PoolEntry.held =
      pool.entries.map PoolEntry.held := by
  obtain ⟨inside, rfl⟩ := List.getElem?_eq_some_iff.mp found
  apply List.ext_getElem?
  intro k
  simp only [Pool.setEntry, List.getElem?_map, List.getElem?_set]
  split_ifs with same
  · subst same
    simp [inside, PoolEntry.weighed, PoolEntry.held]
  · rfl

theorem propose_same (args : AcquireArgs) (site : Site) (tries : Nat) (pool : Pool) (ridx : Nat) :
    (propose args site tries pool ridx).2.1.entries.map PoolEntry.held =
      pool.entries.map PoolEntry.held := by
  induction tries generalizing pool ridx with
  | zero => rfl
  | succ tries ih =>
    unfold propose
    dsimp only
    split
    · rfl
    · next entry found =>
      split
      · exact weigh_same found
      · rw [ih, weigh_same found]

/-- Choosing an entry leaves the entries as they are, up to their keys. -/
theorem pick_index_same (args : AcquireArgs) (site : Site) (strategy : Strategy) (pool : Pool)
    (ridx : Nat) (cursor : Option Int) :
    (pickIndex args site strategy pool ridx cursor).pool.entries.map
        PoolEntry.held =
      pool.entries.map PoolEntry.held := by
  cases strategy with
  | weightedRandom =>
    have proposed : (if pool.exact then (none, pool, ridx)
        else propose args site 8 pool ridx).2.1.entries.map PoolEntry.held =
          pool.entries.map PoolEntry.held := by
      split_ifs
      · rfl
      · exact propose_same args site 8 pool ridx
    simp only [pickIndex]
    split
    · next same => simpa only [same] using proposed
    · next same =>
      have unkeyed : PoolEntry.held ∘ PoolEntry.weighed args site = PoolEntry.held := rfl
      rw [List.map_map, unkeyed]
      simpa only [same] using proposed
  | roundRobin => rfl
  | leastRecentlyUsed => rfl
  | bestHealth => rfl

/-- Verification survives a change of state that keeps the other candidates verified. -/
theorem PoolVerified.transport {entries : List PoolEntry} {after : Site}
    (verified : PoolVerified args site entries)
    (kept : ∀ entry ∈ entries, ∀ c : Candidate, c.i = entry.i → Verified args site c →
      Verified args after c) :
    PoolVerified args after entries where
  nodup := verified.nodup
  cached entry member c found := by
    obtain ⟨same, stored⟩ := verified.cached entry member c found
    exact ⟨same, kept entry member c same stored⟩

theorem PoolVerified.quiet {entries : List PoolEntry} {after : Site}
    (verified : PoolVerified args site entries) (quiet : Quiet site after) :
    PoolVerified args after entries :=
  verified.transport fun _ _ _ _ stored => stored.quiet quiet

theorem PoolVerified.remove (verified : PoolVerified args site pool.entries)
    (found : pool.entries[j]? = some entry) :
    PoolVerified args site (pool.remove j).entries ∧
      ∀ other ∈ (pool.remove j).entries, other.i ≠ entry.i := by
  have whole := verified.perm (remove_perm found)
  have distinct := List.nodup_cons.mp whole.nodup
  refine ⟨⟨distinct.2, fun other member => whole.cached other (List.mem_cons_of_mem _ member)⟩, ?_⟩
  intro other member same
  exact distinct.1 (same ▸ List.mem_map_of_mem member)

theorem PoolVerified.cache {c : Candidate} (key : Option ℚ)
    (verified : PoolVerified args site pool.entries) (found : pool.entries[j]? = some entry)
    (same : c.i = entry.i) (stored : Verified args site c) :
    PoolVerified args site (pool.setEntry j { entry with c := some c, key := key }).entries := by
  have ids : (pool.setEntry j { entry with c := some c, key := key }).entries.map PoolEntry.i =
      pool.entries.map PoolEntry.i := by
    apply List.ext_getElem?
    intro k
    simp only [Pool.setEntry, List.getElem?_map, List.getElem?_set]
    split_ifs with here inside
    · subst here
      simp [found]
    · exact absurd (List.getElem?_eq_some_iff.mp found).1 inside
    · rfl
  refine ⟨ids ▸ verified.nodup, ?_⟩
  intro other member d cached
  rcases List.mem_or_eq_of_mem_set member with old | rfl
  · exact verified.cached other old d cached
  · cases cached
    exact ⟨same, stored⟩

end Pools

/-! ## The rule -/

/-- A property of the hot state and the leases issued so far that quiet writes
and lease writes of verified candidates preserve. -/
structure LeaseRule (args : AcquireArgs) (mode : Mode) (Holds : Site → List LeaseReply → Prop) :
    Prop where
  quiet : ∀ before after out, Quiet before after → Holds before out → Holds after out
  lease : ∀ site out c proxy sticky, Holds site out → out.length < mode.count →
    Verified args site c → (∀ pick, proxy = some pick → (site.px pick.p).isSome) →
    Holds (writeLease args mode site c (args.prefixes.getD out.length "") proxy)
      (out ++ [replyOf args mode c (leaseIdOf args (args.prefixes.getD out.length "") c) proxy
        sticky])

/-- The property holds of the call and the call counts its leases. -/
structure CallHolds (mode : Mode) (Holds : Site → List LeaseReply → Prop) (call : Call) : Prop where
  holds : Holds call.site call.out
  counted : call.picked = call.out.length
  bounded : call.picked ≤ mode.count

section Rule

variable {args : AcquireArgs} {mode : Mode} {Holds : Site → List LeaseReply → Prop}

theorem take_candidate_holds (rule : LeaseRule args mode Holds) {c : Candidate} (sticky : Bool)
    (before : CallHolds mode Holds call) (room : call.picked < mode.count)
    (verified : Verified args call.site c) :
    CallHolds mode Holds (takeCandidate args mode call c sticky) ∧
      ∀ other : Candidate, other.i ≠ c.i → Verified args call.site other →
        Verified args (takeCandidate args mode call c sticky).site other := by
  let assigned := assignProxy args call.site call.ridx call.picked c
  let moved : Site := { call.site with pxrdy := assigned.pxrdy }
  have quiet : Quiet call.site moved := ⟨rfl, fun _ => rfl⟩
  have held := rule.quiet _ _ _ quiet before.holds
  unfold takeCandidate
  dsimp only
  split
  · exact ⟨⟨held, before.counted, before.bounded⟩, fun other _ stored => stored.quiet quiet⟩
  · next proxy chosen =>
    have present : ∀ pick, proxy = some pick → (call.site.px pick.p).isSome := by
      rintro pick rfl
      exact assign_proxy_present verified chosen
    have leased := rule.lease moved call.out c proxy sticky held (before.counted ▸ room)
      (verified.quiet quiet) present
    rw [← before.counted] at leased
    refine ⟨⟨leased, ?_, room⟩, ?_⟩
    · simp [Call.lease, before.counted]
    · intro other distinct stored
      exact (stored.quiet quiet).write_lease args mode _ c _ proxy distinct

theorem lease_chosen_holds (rule : LeaseRule args mode Holds) {c : Candidate}
    (before : CallHolds mode Holds call) (room : call.picked < mode.count)
    (verified : Verified args call.site c) :
    CallHolds mode Holds (leaseChosen args mode call c) ∧
      ∀ other : Candidate, other.i ≠ c.i → Verified args call.site other →
        Verified args (leaseChosen args mode call c).site other := by
  obtain ⟨after, kept⟩ := take_candidate_holds rule false before room verified
  unfold leaseChosen
  dsimp only
  split
  · exact ⟨⟨after.holds, after.counted, after.bounded⟩, kept⟩
  · exact ⟨after, kept⟩

theorem Quiet.mark {site : Site} {i : Hkey} {id : Identity} (present : site.id i = some id)
    (mark : Option PushMark) : Quiet site (site.setId i (some { id with xg := mark })) where
  frame := rfl
  identities j := by
    by_cases here : j = i
    · subst here
      simp [Site.setId, present, unmarked]
    · simp [Site.setId, here]

theorem mark_pushed_quiet (site : Site) (eg i : Hkey) : Quiet site (markPushed site eg i) := by
  unfold markPushed
  split
  · exact .refl site
  · next id present =>
    split
    · exact .mark present _
    · exact .refl site
    · split
      · exact .refl site
      · exact .mark present _

theorem reject_candidate_quiet (args : AcquireArgs) (site : Site) (i : Hkey) (verdict : Verdict) :
    Quiet site (rejectCandidate args site i verdict) := by
  have moved (value : ZSet Hkey) : Quiet site (site.setRdy args.eg value) := ⟨rfl, fun _ => rfl⟩
  cases verdict with
  | ok _ => exact .refl site
  | rem => exact moved _
  | push score pushXl =>
    unfold rejectCandidate
    dsimp only
    split
    · exact (moved _).trans (mark_pushed_quiet _ _ _)
    · exact moved _

/-- What the selection loop keeps: the property of the call and a verified pool. -/
def LoopHolds (args : AcquireArgs) (mode : Mode) (Holds : Site → List LeaseReply → Prop)
    (state : Call × Pool) : Prop :=
  CallHolds mode Holds state.1 ∧ PoolVerified args state.1.site state.2.entries

theorem lease_entry_holds (rule : LeaseRule args mode Holds) {c : Candidate}
    (before : LoopHolds args mode Holds (call, pool)) (room : call.picked < mode.count)
    (found : pool.entries[j]? = some entry) (same : c.i = entry.i)
    (verified : Verified args call.site c) :
    LoopHolds args mode Holds (leaseChosen args mode call c, pool.remove j) := by
  obtain ⟨after, kept⟩ := lease_chosen_holds rule before.1 room verified
  obtain ⟨rest, distinct⟩ := before.2.remove found
  refine ⟨after, rest.transport ?_⟩
  intro other member d here stored
  exact kept d (by rw [here, same]; exact distinct other member) stored

theorem pool_step_holds (rule : LeaseRule args mode Holds)
    (before : LoopHolds args mode Holds (call, pool)) (room : call.picked < mode.count) :
    LoopHolds args mode Holds (poolStep args mode call pool) := by
  have picked := before.2.rekey
    (pick_index_same args call.site mode.strategy pool call.ridx call.cursor)
  unfold poolStep
  generalize pickIndex args call.site mode.strategy pool call.ridx call.cursor = choice at picked
  have start : LoopHolds args mode Holds
      ({ call with ridx := choice.ridx, cursor := choice.cursor }, choice.pool) :=
    ⟨⟨before.1.holds, before.1.counted, before.1.bounded⟩, picked⟩
  dsimp only
  split
  · exact start
  · next entry found =>
    split
    · next c cached =>
      obtain ⟨same, verified⟩ := picked.cached entry (List.mem_of_getElem? found) c cached
      exact lease_entry_holds rule start room found same verified
    · split
      · next c passed =>
        obtain ⟨same, verified⟩ := evaluate_verified passed
        split
        · have lowered := picked.cache (some (entry.weight args call.site * args.probeWf))
            found same verified
          split
          · exact lease_entry_holds rule
              ⟨⟨before.1.holds, before.1.counted, before.1.bounded⟩, lowered⟩ room
              (List.getElem?_set_self (List.getElem?_eq_some_iff.mp found).1) same verified
          · exact ⟨⟨before.1.holds, before.1.counted, before.1.bounded⟩, lowered⟩
        · exact lease_entry_holds rule start room found same verified
      · have quiet := reject_candidate_quiet args call.site entry.i
            (evaluate args call.site entry.i false)
        exact ⟨⟨rule.quiet _ _ _ quiet before.1.holds, before.1.counted, before.1.bounded⟩,
            (picked.remove found).1.quiet quiet⟩

theorem pool_loop_holds (rule : LeaseRule args mode Holds) (fuel : Nat)
    (before : LoopHolds args mode Holds (call, pool)) :
    CallHolds mode Holds (poolLoop args mode fuel call pool) := by
  induction fuel generalizing call pool with
  | zero => exact before.1
  | succ fuel ih =>
    unfold poolLoop
    split
    · next goesOn => exact ih (pool_step_holds rule before goesOn.1)
    · exact before.1

theorem sampling_rounds_holds (rule : LeaseRule args mode Holds) (rounds : Nat)
    (before : CallHolds mode Holds call) :
    CallHolds mode Holds (samplingRounds args mode rounds call) := by
  induction rounds generalizing call with
  | zero => exact before
  | succ rounds ih =>
    unfold samplingRounds
    dsimp only
    split
    · exact before
    · have sampled (ids : List Hkey) (want fuel : Nat) (nodup : ids.Nodup) :
          CallHolds mode Holds (poolLoop args mode fuel call (newPool ids want call.skip)) :=
        pool_loop_holds rule fuel ⟨before, new_pool_verified want call.skip nodup⟩
      split
      · exact sampled _ _ _ (ZSet.range_nodup hkeyLe _ _ _ _)
      · exact ih (sampled _ _ _ (ZSet.range_nodup hkeyLe _ _ _ _))

theorem sticky_reuse_holds (rule : LeaseRule args mode Holds) (before : CallHolds mode Holds call)
    (room : call.picked < mode.count) : CallHolds mode Holds (stickyReuse args mode call) := by
  unfold stickyReuse
  split
  · split
    · exact before
    · split
      · split
        · next c passed =>
          exact (take_candidate_holds rule true before room (evaluate_verified passed).2).1
        · exact before
      · exact before
  · exact before

theorem issue_holds (rule : LeaseRule args mode Holds) {site : Site} (start : Holds site [])
    (asked : 0 < mode.count) : CallHolds mode Holds (issue args mode site) := by
  have reused : CallHolds mode Holds (stickyReuse args mode { site := site }) :=
    sticky_reuse_holds rule ⟨start, rfl, Nat.zero_le _⟩ asked
  unfold issue
  dsimp only
  split
  · exact sampling_rounds_holds rule 3 reused
  · exact reused

theorem finish_holds (rule : LeaseRule args mode Holds) (transition : Bool)
    (before : CallHolds mode Holds call) :
    Holds (finish args transition call).1 (finish args transition call).2.leases ∧
      (finish args transition call).2.leases.length ≤ mode.count := by
  have counted := before.counted
  have bounded := before.bounded
  unfold finish
  split
  · refine ⟨rule.quiet call.site _ _ ?_ before.holds, by simp only [AcquireReply.leases]; omega⟩
    dsimp only
    split <;> exact ⟨rfl, fun _ => rfl⟩
  · have nothing : call.out = [] := List.length_eq_zero_iff.mp (by omega)
    have unchanged : Holds call.site [] := nothing ▸ before.holds
    split
    · exact ⟨unchanged, Nat.zero_le _⟩
    · exact ⟨unchanged, Nat.zero_le _⟩

end Rule

theorem mode_count_le (args : AcquireArgs) (probe : Bool) :
    (modeOf args probe).count ≤ args.prefixes.length := by
  have requested := List.length_pos_iff.mpr args.requested
  simp only [modeOf]
  split_ifs <;> omega

/-- A call never runs out of the leads it was given. -/
theorem lead_drawn {args : AcquireArgs} {probe : Bool} {out : List LeaseReply}
    (room : out.length < (modeOf args probe).count) :
    args.prefixes.getD out.length "" ∈ args.prefixes := by
  have within := room.trans_le (mode_count_le args probe)
  rw [List.getD_eq_getElem?_getD, List.getElem?_eq_getElem within]
  exact List.getElem_mem within

theorem mode_count_pos (args : AcquireArgs) (probe : Bool) : 0 < (modeOf args probe).count := by
  have asked := List.length_pos_iff.mpr args.requested
  simp only [modeOf]
  split_ifs <;> omega

/-- The rule of a whole call: a property that the gate's breaker write keeps and
that obeys the lease rule of the mode the gate chose holds after the call, with
the leases of the reply. -/
theorem acquire_rule {args : AcquireArgs} {site : Site} {Holds : Site → List LeaseReply → Prop}
    (gated : Holds (site.setBrk args.eg (breakerGate args (site.brk args.eg)).breaker) [])
    (rule : ∀ probe, (breakerGate args (site.brk args.eg)).verdict = .inr probe →
      LeaseRule args (modeOf args probe) Holds) :
    Holds (acquire args site).1 (acquire args site).2.leases := by
  unfold acquire
  dsimp only
  split
  · exact gated
  · next probe passed =>
    have issued := issue_holds (rule probe passed) gated (mode_count_pos args probe)
    exact (finish_holds (rule probe passed) _ issued).1

end Spinneret.Scheduler
