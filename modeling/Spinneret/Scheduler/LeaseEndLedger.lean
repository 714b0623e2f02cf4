import Spinneret.Scheduler.Ledger
import Spinneret.Scheduler.LeaseEnd

/-!
# Lease ends settle the ledger

Release, reap and renew on an accounted state: an active lease that ends finds
its counters at one or more, so the decrements never clamp, and the state stays
accounted.
-/

namespace Spinneret.Scheduler

open Spinneret.HotState Spinneret.Lib

set_option autoImplicit false

theorem pull_back_only_ready (site : Site) (groups : List Hkey) (eg i : Hkey)
    (endMs bound idlevel : Int) :
    OnlyReady site (pullBack site groups eg i endMs bound idlevel) := by
  refine OnlyReady.foldl ?_ groups site
  intro site g
  dsimp only
  split
  · exact OnlyReady.refl site
  · split
    · exact OnlyReady.refl site
    · split_ifs
      · exact OnlyReady.setRdy site g _
      · exact OnlyReady.refl site
      · exact OnlyReady.refl site

theorem refund_windows_untouched (site : Site) (lease : Lease) (windows : List Int) :
    Untouched site (windows.foldl (refundWindow lease) site) := by
  apply Untouched.foldl
  intro site w
  exact .of_eq rfl rfl rfl rfl rfl rfl rfl

/-- The refund of an aborted lease only moves quota windows and the probe count. -/
theorem refund_same_ledger (site : Site) (lease : Lease) (windows : Option (List Int)) :
    SameLedger site (refundAborted site lease windows) := by
  cases windows with
  | none => exact .refl site
  | some windows =>
    have refunded := (refund_windows_untouched site lease windows).toSameLedger
    unfold refundAborted abortAccounting
    dsimp only
    split_ifs
    · exact refunded.trans (.of_eq rfl rfl rfl rfl)
    · exact .of_eq rfl rfl rfl rfl
    · exact refunded
    · exact .refl site

theorem refund_breakers (site : Site) (lease : Lease) (windows : Option (List Int)) :
    (refundAborted site lease windows).brk =
        (if lease.pr ∧ windows.isSome then
          Function.update site.brk lease.e (probeRefund lease.a (site.brk lease.e))
        else site.brk) ∧
      (refundAborted site lease windows).brko = site.brko ∧
      (refundAborted site lease windows).win = site.win := by
  cases windows with
  | none => simp [refundAborted]
  | some windows =>
    have refunded := refund_windows_untouched site lease windows
    unfold refundAborted abortAccounting
    dsimp only
    split_ifs <;> simp_all [Site.setBrk, refunded.brk, refunded.brko, refunded.win]

theorem end_health_untouched (site : Site) (layout : Layout) (lease : Lease) (reuse : ReuseEnd)
    (endMs now : Int) : Untouched site (endHealth site layout lease reuse endMs now) := by
  unfold endHealth
  dsimp only
  split_ifs <;> exact .of_eq rfl rfl rfl rfl rfl rfl rfl

section Ends

variable {site : Site} {layout : Layout} {lid : LeaseId} {lease : Lease} {abort : Bool}
  {state : LeaseState} {endMs now late : Int} {windows : Option (List Int)}

theorem ready_after_end_only_ready (reuse : ReuseEnd) (id next : Identity) :
    OnlyReady site (readyAfterEnd site layout lease reuse endMs id next) := by
  unfold readyAfterEnd
  dsimp only
  have scored := fun score => OnlyReady.setRdy site lease.e
    ((site.rdy lease.e).move score lease.i)
  cases id.xg with
  | none =>
    dsimp only
    split_ifs
    · exact (scored _).trans (pull_back_only_ready ..)
    · exact scored _
  | some mark =>
    dsimp only
    split_ifs
    · exact ((scored _).trans (pull_back_only_ready ..)).trans (pull_back_only_ready ..)
    · exact (scored _).trans (pull_back_only_ready ..)
    · exact (scored _).trans (pull_back_only_ready ..)
    · exact scored _

/-! ## What a lease end writes -/

theorem refund_writes (site : Site) (lease : Lease) (windows : Option (List Int)) :
    refundAborted site lease windows =
      { site with
        q := (refundAborted site lease windows).q
        brk := (refundAborted site lease windows).brk } := by
  have metered (windows : List Int) (site : Site) :
      windows.foldl (refundWindow lease) site =
        { site with q := (windows.foldl (refundWindow lease) site).q } := by
    induction windows generalizing site with
    | nil => rfl
    | cons w rest ih => exact ih (refundWindow lease site w)
  cases windows with
  | none => rfl
  | some windows =>
    unfold refundAborted abortAccounting
    dsimp only
    split_ifs
    · rw [metered]
      rfl
    · rfl
    · rw [metered]
    · rfl

theorem end_identity_writes (site : Site) (layout : Layout) (lease : Lease) (abort : Bool)
    (endMs now : Int) :
    (endIdentity site layout lease abort endMs now).site =
      { site with
        id := (endIdentity site layout lease abort endMs now).site.id
        hs := (endIdentity site layout lease abort endMs now).site.hs
        rdy := (endIdentity site layout lease abort endMs now).site.rdy
        dirty := (endIdentity site layout lease abort endMs now).site.dirty } := by
  have counted (reuse : ReuseEnd) (id : Identity) :
      countEnd site lease reuse endMs id =
        { site with
          id := (countEnd site lease reuse endMs id).id
          dirty := (countEnd site lease reuse endMs id).dirty } := by
    unfold countEnd
    dsimp only
    split <;> rfl
  have healthy (site : Site) (reuse : ReuseEnd) :
      endHealth site layout lease reuse endMs now =
        { site with
          hs := (endHealth site layout lease reuse endMs now).hs
          dirty := (endHealth site layout lease reuse endMs now).dirty } := by
    unfold endHealth
    dsimp only
    split_ifs <;> rfl
  unfold endIdentity
  split
  · rfl
  · dsimp only
    rw [ready_after_end_only_ready, healthy, counted]

theorem end_proxy_writes (site : Site) (lease : Lease) (now : Int) :
    (endProxy site lease now).site =
      { site with
        px := (endProxy site lease now).site.px
        pxrdy := (endProxy site lease now).site.pxrdy } := by
  unfold endProxy
  split
  · rfl
  · split
    · rfl
    · dsimp only
      split
      · split_ifs <;> rfl
      · rfl

/-- Besides the write to the identity hash, the identity side of a lease end
leaves the ledger as it is. -/
theorem end_identity_untouched (layout : Layout) (abort : Bool) (endMs now : Int)
    {id : Identity} (present : site.id lease.i = some id) :
    Untouched
      (site.setId lease.i (some (identityEnded id lease (reuseEnd lease abort) endMs)))
      (endIdentity site layout lease abort endMs now).site := by
  simp only [endIdentity, present]
  have counted : Untouched
      (site.setId lease.i (some (identityEnded id lease (reuseEnd lease abort) endMs)))
      (countEnd site lease (reuseEnd lease abort) endMs id) := by
    unfold countEnd
    dsimp only
    split_ifs <;> exact .of_eq rfl rfl rfl rfl rfl rfl rfl
  exact counted.trans ((end_health_untouched ..).trans
    (.of_only_ready (ready_after_end_only_ready ..)))

theorem end_proxy_untouched {p : Hkey} {proxy : Proxy} (now : Int) (holds : lease.p = some p)
    (present : site.px p = some proxy) :
    Untouched (site.setPx p (some { proxy with al := (decrement proxy.al).1 }))
      (endProxy site lease now).site := by
  simp only [endProxy, holds, present]
  split
  · split_ifs <;> exact .of_eq rfl rfl rfl rfl rfl rfl rfl
  · exact .refl _

theorem decrement_counted {counter : Int} (counted : 1 ≤ counter) :
    decrement counter = (counter - 1, false) := if_neg (by omega)

private theorem present_of_counted {Value : Type} {stored : Option Value} {al : Value → Int}
    (counted : 1 ≤ (stored.map al).getD 0) : ∃ value, stored = some value ∧ 1 ≤ al value := by
  cases stored with
  | none => simp at counted
  | some value => exact ⟨value, rfl, counted⟩

theorem end_identity_counted (layout : Layout) (abort : Bool) (endMs now : Int) {id : Identity}
    (present : site.id lease.i = some id) (counted : 1 ≤ id.al) :
    (∀ i, identityAl (endIdentity site layout lease abort endMs now).site i =
      identityAl site i - if lease.i = i then 1 else 0) ∧
    (endIdentity site layout lease abort endMs now).clamped = false := by
  constructor
  · intro i
    rw [(end_identity_untouched layout abort endMs now present).al]
    by_cases here : lease.i = i
    · subst here
      simp [identityAl, Site.setId, identityEnded, present, decrement_counted counted]
    · simp [identityAl, Site.setId, here, Function.update_of_ne (Ne.symm here)]
  · simp [endIdentity, present, decrement_counted counted]

/-- The proxy side lowers the counter of the lease's proxy, if it holds one. -/
theorem end_proxy_counted (now : Int) (counted : ∀ p, lease.p = some p → 1 ≤ proxyAl site p) :
    (∀ p, proxyAl (endProxy site lease now).site p =
      proxyAl site p - if lease.p = some p then 1 else 0) ∧
    (endProxy site lease now).clamped = false := by
  cases holds : lease.p with
  | none => simp [endProxy, holds]
  | some p =>
    obtain ⟨proxy, present, atLeast⟩ := present_of_counted (counted p holds)
    constructor
    · intro q
      rw [(end_proxy_untouched now holds present).pal]
      by_cases here : p = q
      · subst here
        simp [proxyAl, Site.setPx, present, decrement_counted atLeast]
      · simp [proxyAl, Site.setPx, here, Function.update_of_ne (Ne.symm here)]
    · simp [endProxy, holds, present, decrement_counted atLeast]

theorem end_proxy_frame (site : Site) (lease : Lease) (now : Int) :
    (endProxy site lease now).site.id = site.id ∧
    (endProxy site lease now).site.ls = site.ls ∧
    (endProxy site lease now).site.lsexp = site.lsexp ∧
    (endProxy site lease now).site.brk = site.brk ∧
    (endProxy site lease now).site.brko = site.brko ∧
    (endProxy site lease now).site.win = site.win := by
  rw [end_proxy_writes]
  exact ⟨rfl, rfl, rfl, rfl, rfl, rfl⟩

/-- The counters apart, the identity and proxy side of a lease end touch neither
lease hashes nor breakers and their windows. -/
theorem ls_end_frame (site : Site) (layout : Layout) (lid : LeaseId) (lease : Lease)
    (state : LeaseState) (endMs now late : Int) (windows : Option (List Int)) :
    (lsEnd site layout lid lease state endMs now late windows).site.ls =
        (endLeaseHash site lid lease state endMs now late).ls ∧
      (lsEnd site layout lid lease state endMs now late windows).site.brk =
        (refundAborted site lease windows).brk ∧
      (lsEnd site layout lid lease state endMs now late windows).site.brko = site.brko ∧
      (lsEnd site layout lid lease state endMs now late windows).site.win = site.win := by
  obtain ⟨refundedBrk, refundedBrko, refundedWin⟩ :=
    refund_breakers (endLeaseHash site lid lease state endMs now late) lease windows
  have sameRefund := (refund_breakers site lease windows).1
  unfold lsEnd
  dsimp only
  rw [end_proxy_writes, end_identity_writes]
  exact ⟨(refund_same_ledger ..).ls, refundedBrk.trans sameRefund.symm, refundedBrko, refundedWin⟩

theorem ls_end_lookup_other {site : Site} {layout : Layout} {lid other : LeaseId} {lease : Lease}
    {state : LeaseState} {endMs now late : Int} {windows : Option (List Int)}
    (apart : other ≠ lid) :
    (lsEnd site layout lid lease state endMs now late windows).site.ls.lookup other =
      site.ls.lookup other := by
  rw [(ls_end_frame ..).1, endLeaseHash]
  dsimp only
  split
  · exact AList.lookup_erase_ne apart
  · exact AList.lookup_insert_ne apart

theorem release_ends {site : Site} {lease : Lease} {args : ReleaseArgs}
    (found : site.ls.lookup args.lid = some lease) (active : lease.st = .active)
    (ours : args.ns = none ∨ args.ns = some lease.ns) :
    (release args site).1 = lsEnd site args.layout args.lid lease .released args.now args.now
      args.late (if args.abort then some args.windows else none) := by
  have mine : ¬(args.ns.isSome ∧ args.ns ≠ some lease.ns) := by
    rintro ⟨some, other⟩
    obtain none | same := ours
    · simp [none] at some
    · exact other same
  rw [release, found]
  dsimp only
  rw [if_neg mine, if_pos active]

theorem ls_end_q (site : Site) (layout : Layout) (lid : LeaseId) (lease : Lease)
    (state : LeaseState) (endMs now late : Int) (windows : Option (List Int)) :
    (lsEnd site layout lid lease state endMs now late windows).site.q =
      (refundAborted (endLeaseHash site lid lease state endMs now late) lease windows).q := by
  unfold lsEnd
  dsimp only
  rw [end_proxy_writes, end_identity_writes]

/-- The refunds reach one hash; each window is refunded once for every mention. -/
theorem refund_windows_cells (site : Site) (lease : Lease) (windows : List Int) :
    (windows.foldl (refundWindow lease) site).q =
      Function.update site.q lease.e (Function.update (site.q lease.e) lease.i
        { site.q lease.e lease.i with
          cells := fun w => (Option.map (quotaRefund lease.a w))^[windows.count w]
            ((site.q lease.e lease.i).cells w) }) := by
  induction windows generalizing site with
  | nil => simp
  | cons first rest ih =>
    rw [List.foldl_cons, ih]
    simp only [refundWindow, Site.setQ, Function.update_self, Function.update_idem]
    congr 3
    funext w
    by_cases here : w = first
    · subst here
      rw [List.count_cons_self, Function.iterate_succ_apply, Function.update_self]
    · rw [List.count_cons_of_ne (Ne.symm here), Function.update_of_ne here]

/-- The end of an active lease of an accounted state: the counters go down by
one and no clamp is needed. -/
theorem ls_end_ends (accounted : Accounted site) (found : site.ls.lookup lid = some lease)
    (active : lease.st = .active) (inactive : state ≠ .active) :
    Ends site lid lease (lsEnd site layout lid lease state endMs now late windows).site ∧
      (lsEnd site layout lid lease state endMs now late windows).clamped = false := by
  set refunded := refundAborted (endLeaseHash site lid lease state endMs now late) lease windows
  have refund := refund_same_ledger (endLeaseHash site lid lease state endMs now late) lease windows
  have identityBefore : ∀ i, identityAl refunded i = identityAl site i := refund.al
  have proxyBefore : ∀ p, proxyAl refunded p = proxyAl site p := refund.pal
  obtain ⟨id, present, counted⟩ : ∃ id, refunded.id lease.i = some id ∧ 1 ≤ id.al := by
    apply present_of_counted
    exact (accounted.identity_counted found active).trans_eq (identityBefore lease.i).symm
  set identity := endIdentity refunded layout lease windows.isSome endMs now
  have identitySame := end_identity_untouched layout windows.isSome endMs now present
  obtain ⟨identityAfter, identityFree⟩ :=
    end_identity_counted layout windows.isSome endMs now present counted
  have proxyMiddle : ∀ p, proxyAl identity.site p = proxyAl site p :=
    fun p => (identitySame.pal p).trans (proxyBefore p)
  obtain ⟨proxyAfter, proxyFree⟩ := end_proxy_counted now
    fun p holds => (accounted.proxy_counted found active holds).trans_eq (proxyMiddle p).symm
  obtain ⟨idFrame, lsFrame, lsexpFrame, -⟩ := end_proxy_frame identity.site lease now
  refine ⟨⟨?identities, ?proxies, found, active, ?hashes, ?expiries⟩, ?clamped⟩
  case identities =>
    intro i
    rw [← identityBefore, ← identityAfter]
    exact congrArg (fun hash => ((hash i).map Identity.al).getD 0) idFrame
  case proxies =>
    intro p
    rw [← proxyMiddle]
    exact proxyAfter p
  case hashes =>
    rw [show (lsEnd site layout lid lease state endMs now late windows).site.ls =
      (endLeaseHash site lid lease state endMs now late).ls from
        lsFrame.trans (identitySame.ls.trans refund.ls)]
    unfold endLeaseHash
    dsimp only
    split_ifs
    · exact .inl rfl
    · exact .inr ⟨_, inactive, rfl⟩
  case expiries => exact lsexpFrame.trans (identitySame.lsexp.trans refund.lsexp)
  case clamped =>
    have free : (identity.clamped || (endProxy identity.site lease now).clamped) = false := by
      rw [identityFree, proxyFree, Bool.or_false]
    exact free

theorem ls_end_settles (accounted : Accounted site) (found : site.ls.lookup lid = some lease)
    (active : lease.st = .active) (inactive : state ≠ .active) :
    Settles site (lsEnd site layout lid lease state endMs now late windows).site ∧
      (lsEnd site layout lid lease state endMs now late windows).clamped = false :=
  have ended := ls_end_ends accounted found active inactive
  ⟨.ends ended.1, ended.2⟩

end Ends

theorem release_settles {site : Site} (args : ReleaseArgs) (accounted : Accounted site) :
    Settles site (release args site).1.site ∧ (release args site).1.clamped = false := by
  unfold release
  split
  · exact ⟨.refl site, rfl⟩
  · next lease found =>
    split
    · exact ⟨.refl site, rfl⟩
    · split
      · next active =>
        exact ls_end_settles accounted found active (by decide)
      · exact ⟨.refl site, rfl⟩

/-- An id that is not active is not in the expiry set of an accounted state. -/
theorem stale_untouched {site : Site} {lid : LeaseId} (accounted : Accounted site)
    (stale : ∀ lease, site.ls.lookup lid = some lease → lease.st ≠ .active) :
    Untouched site { site with lsexp := site.lsexp.erase lid } := by
  have absent : site.lsexp.lookup lid = none := by
    cases scored : site.lsexp.lookup lid with
    | none => rfl
    | some x =>
      obtain ⟨lease, found, active, -⟩ := (accounted.expiries lid x).mp scored
      exact absurd active (stale lease found)
  refine .of_eq rfl rfl rfl ?_ rfl rfl rfl
  apply AList.ext
  exact List.kerase_of_notMem_keys (AList.lookup_eq_none.mp absent)

theorem reap_one_settles (args : ReapArgs) {state : Ended × List ReapedLease} (lid : LeaseId)
    (accounted : Accounted state.1.site) (free : state.1.clamped = false) :
    Settles state.1.site (reapOne args state lid).1.site ∧
      (reapOne args state lid).1.clamped = false := by
  unfold reapOne
  dsimp only
  split
  · next missing =>
    refine ⟨.untouched (stale_untouched accounted ?_), free⟩
    intro lease found
    rw [missing] at found
    cases found
  · next lease found =>
    split
    · next active =>
      rw [free, Bool.false_or]
      exact ls_end_settles accounted found active (by decide)
    · next inactive =>
      refine ⟨.untouched (stale_untouched accounted ?_), free⟩
      intro other same
      rw [found, Option.some.injEq] at same
      exact same ▸ inactive

theorem reap_settles {site : Site} (args : ReapArgs) (accounted : Accounted site) :
    Settles site (reap args site).1.site ∧ (reap args site).1.clamped = false := by
  have fold : ∀ (ids : List LeaseId) (state : Ended × List ReapedLease),
      Settles site state.1.site → state.1.clamped = false →
      Settles site (ids.foldl (reapOne args) state).1.site ∧
        (ids.foldl (reapOne args) state).1.clamped = false := by
    intro ids
    induction ids with
    | nil => exact fun state settled free => ⟨settled, free⟩
    | cons lid rest ih =>
      intro state settled free
      have one := reap_one_settles args lid (settled.accounted accounted) free
      exact ih _ (settled.trans one.1) one.2
  exact fold _ _ (.refl site) rfl

theorem hold_renewed_untouched (site : Site) (lease : Lease) (nx : Int) :
    Untouched site (holdRenewed site lease nx) := by
  unfold holdRenewed
  split
  · next id present =>
    have raised : Untouched site (site.setId lease.i (some { id with xl := nx })) :=
      .rewriteId present rfl
    split_ifs
    · exact raised.trans (.of_eq rfl rfl rfl rfl rfl rfl rfl)
    · exact .of_eq rfl rfl rfl rfl rfl rfl rfl
    · exact .refl site
  · exact .refl site

theorem renew_rewrites {args : RenewArgs} {site : Site} {lease : Lease} (nx : Int)
    (found : site.ls.lookup args.lid = some lease) (active : lease.st = .active) :
    Rewrites site args.lid lease { lease with x := nx }
      { site with
        ls := site.ls.insert args.lid { lease with x := nx }
        lsexp := site.lsexp.add nx args.lid } where
  al _ := rfl
  pal _ := rfl
  found := found
  identity := rfl
  proxy := rfl
  state := rfl
  persistent _ := rfl
  ls := rfl
  expiry key := by
    by_cases same : key = args.lid
    · rw [ZSet.add, same, AList.lookup_insert, if_pos ⟨rfl, active⟩]
    · rw [ZSet.add, AList.lookup_insert_ne same, if_neg fun both => same both.1]

/-- The hot state between the write to the lease hash and the one to its identity. -/
def leaseExtended (args : RenewArgs) (lease : Lease) (site : Site) : Site :=
  { site with
    ls := site.ls.insert args.lid { lease with x := renewedExpiry args lease }
    lsexp := site.lsexp.add (renewedExpiry args lease) args.lid }

/-- A renewal either is refused and changes nothing, or finds an active lease that has
not reached its expiry and is below its lifetime cap. -/
theorem renew_cases (args : RenewArgs) (site : Site) :
    ((renew args site).1 = site ∧ ∀ nx lease, (renew args site).2 ≠ .ok nx lease) ∨
      ∃ lease, site.ls.lookup args.lid = some lease ∧ lease.st = .active ∧ args.now < lease.x ∧
        lease.x < lease.cap ∧
        renew args site = (holdRenewed (leaseExtended args lease site) lease
          (renewedExpiry args lease), .ok (renewedExpiry args lease) lease) := by
  generalize result : renew args site = outcome
  unfold renew at result
  split at result
  · exact .inl ⟨by rw [← result], by simp [← result]⟩
  · next lease found =>
    split at result
    · exact .inl ⟨by rw [← result], by simp [← result]⟩
    · split at result
      · exact .inl ⟨by rw [← result], by simp [← result]⟩
      · exact .inl ⟨by rw [← result], by simp [← result]⟩
      · next active =>
        split at result
        · exact .inl ⟨by rw [← result], by simp [← result]⟩
        · next running =>
          split at result
          · exact .inl ⟨by rw [← result], by simp [← result]⟩
          · next short =>
            exact .inr ⟨lease, found, active, not_le.mp running, not_le.mp short,
              result.symm⟩

theorem renew_settles (args : RenewArgs) (site : Site) : Settles site (renew args site).1 := by
  rcases renew_cases args site with ⟨same, -⟩ | ⟨lease, found, active, -, -, renewed⟩
  · rw [same]
    exact .refl site
  · rw [renewed]
    exact .trans (.rewrites (renew_rewrites _ found active))
      (.untouched (hold_renewed_untouched _ lease _))

end Spinneret.Scheduler
