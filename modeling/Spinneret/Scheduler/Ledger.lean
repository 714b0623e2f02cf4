import Spinneret.HotState.Prelude

/-!
# The lease ledger

The lease hashes with state `active` are the leases in force. The counters of
identities and proxies and the expiry set are derived data that several scripts
keep up to date. `Accounted` says that they agree with the lease hashes. Every
script changes the ledger by issuing, ending or rewriting single leases; all
other writes leave it as it is.
-/

namespace Spinneret.Scheduler

open Spinneret.HotState Spinneret.Lib

set_option autoImplicit false

def identityAl (site : Site) (i : Hkey) : Int := ((site.id i).map Identity.al).getD 0

/-- The end of the exclusive hold on an identity, 0 without one. -/
def identityXl (site : Site) (i : Hkey) : Int := ((site.id i).map Identity.xl).getD 0

def proxyAl (site : Site) (p : Hkey) : Int := ((site.px p).map Proxy.al).getD 0

def namesIdentity (i : Hkey) (_ : LeaseId) (lease : Lease) : Bool :=
  decide (lease.st = .active ∧ lease.i = i)

def holdsProxy (p : Hkey) (_ : LeaseId) (lease : Lease) : Bool :=
  decide (lease.st = .active ∧ lease.p = some p)

def leasesOf (site : Site) (i : Hkey) : Nat := Table.countWhere (namesIdentity i) site.ls

def leasesOn (site : Site) (p : Hkey) : Nat := Table.countWhere (holdsProxy p) site.ls

/-- The counters and the expiry set agree with the active lease hashes, which
have no expiry time of their own. -/
structure Accounted (site : Site) : Prop where
  identities : ∀ i, identityAl site i = leasesOf site i
  proxies : ∀ p, proxyAl site p = leasesOn site p
  expiries : ∀ lid x, site.lsexp.lookup lid = some x ↔
    ∃ lease, site.ls.lookup lid = some lease ∧ lease.st = .active ∧ lease.x = x
  persistent : ∀ lid lease, site.ls.lookup lid = some lease → lease.st = .active →
    lease.expireAt = none

/-- No lease hash, expiry entry or lease counter differs. -/
structure SameLedger (before after : Site) : Prop where
  al : ∀ i, identityAl after i = identityAl before i
  pal : ∀ p, proxyAl after p = proxyAl before p
  ls : after.ls = before.ls
  lsexp : after.lsexp = before.lsexp

namespace SameLedger

theorem refl (site : Site) : SameLedger site site := ⟨fun _ => rfl, fun _ => rfl, rfl, rfl⟩

theorem trans {first second third : Site} (left : SameLedger first second)
    (right : SameLedger second third) : SameLedger first third where
  al i := (right.al i).trans (left.al i)
  pal p := (right.pal p).trans (left.pal p)
  ls := right.ls.trans left.ls
  lsexp := right.lsexp.trans left.lsexp

/-- Writes to other key families. -/
theorem of_eq {before after : Site} (id : after.id = before.id) (px : after.px = before.px)
    (ls : after.ls = before.ls) (lsexp : after.lsexp = before.lsexp) :
    SameLedger before after where
  al i := by simp only [identityAl, id]
  pal p := by simp only [proxyAl, px]
  ls := ls
  lsexp := lsexp

theorem leasesOf {before after : Site} (same : SameLedger before after) (i : Hkey) :
    leasesOf after i = Scheduler.leasesOf before i := by
  simp only [Scheduler.leasesOf, same.ls]

theorem leasesOn {before after : Site} (same : SameLedger before after) (p : Hkey) :
    leasesOn after p = Scheduler.leasesOn before p := by
  simp only [Scheduler.leasesOn, same.ls]

end SameLedger

/-- Neither the ledger nor a breaker or its window differs. -/
structure Untouched (before after : Site) : Prop extends SameLedger before after where
  brk : after.brk = before.brk
  brko : after.brko = before.brko
  win : after.win = before.win

variable {site : Site} {i : Hkey}

namespace Untouched

theorem refl (site : Site) : Untouched site site := ⟨.refl site, rfl, rfl, rfl⟩

theorem trans {first second third : Site} (left : Untouched first second)
    (right : Untouched second third) : Untouched first third where
  toSameLedger := left.toSameLedger.trans right.toSameLedger
  brk := right.brk.trans left.brk
  brko := right.brko.trans left.brko
  win := right.win.trans left.win

theorem foldl {Item : Type*} {f : Site → Item → Site}
    (each : ∀ site item, Untouched site (f site item)) (items : List Item) (site : Site) :
    Untouched site (items.foldl f site) := by
  induction items generalizing site with
  | nil => exact refl site
  | cons item rest ih => exact (each site item).trans (ih _)

theorem of_eq {before after : Site} (id : after.id = before.id) (px : after.px = before.px)
    (ls : after.ls = before.ls) (lsexp : after.lsexp = before.lsexp)
    (brk : after.brk = before.brk) (brko : after.brko = before.brko)
    (win : after.win = before.win) : Untouched before after :=
  ⟨.of_eq id px ls lsexp, brk, brko, win⟩

theorem markDirty (site : Site) (key : Dirty) : Untouched site (site.markDirty key) :=
  of_eq rfl rfl rfl rfl rfl rfl rfl

theorem setAcc (site : Site) (a : Hkey) (account : Option Account) :
    Untouched site (site.setAcc a account) :=
  of_eq rfl rfl rfl rfl rfl rfl rfl

theorem of_only_ready {before after : Site} (only : OnlyReady before after) :
    Untouched before after := by
  rw [only]
  exact of_eq rfl rfl rfl rfl rfl rfl rfl

theorem setId {written : Option Identity}
    (same : (written.map Identity.al).getD 0 = identityAl site i) :
    Untouched site (site.setId i written) where
  al j := by
    by_cases here : j = i
    · subst here
      simpa [identityAl, Site.setId] using same
    · simp [identityAl, Site.setId, here]
  pal _ := rfl
  ls := rfl
  lsexp := rfl
  brk := rfl
  brko := rfl
  win := rfl

theorem rewriteId {id written : Identity} (present : site.id i = some id)
    (same : written.al = id.al) : Untouched site (site.setId i (some written)) :=
  setId (by simp [identityAl, present, same])

theorem setPx {p : Hkey} {written : Proxy} (same : written.al = proxyAl site p) :
    Untouched site (site.setPx p (some written)) where
  al _ := rfl
  pal q := by
    by_cases here : q = p
    · subst here
      simpa [proxyAl, Site.setPx] using same
    · simp [proxyAl, Site.setPx, here]
  ls := rfl
  lsexp := rfl
  brk := rfl
  brko := rfl
  win := rfl

end Untouched

/-- No window of a quota hash has a negative count. -/
def HashCounted (hash : QuotaHash) : Prop := ∀ w cell, hash.cells w = some cell → 0 ≤ cell.n

def QuotasCounted (site : Site) : Prop := ∀ eg i, HashCounted (site.q eg i)

theorem HashCounted.empty : HashCounted {} := fun _ _ none => by cases none

theorem quota_counted_nonneg {cell : Option QuotaCell} (now w : Int)
    (counted : ∀ stored, cell = some stored → 0 ≤ stored.n) :
    0 ≤ (quotaCounted now w cell).n := by
  unfold quotaCounted
  dsimp only
  split
  · cases cell with
    | none => decide
    | some stored => exact (counted stored rfl).trans (Int.le_add_one (le_refl _))
  · exact Int.one_nonneg

theorem QuotasCounted.setQ {eg i : Hkey} {hash : QuotaHash} (counted : QuotasCounted site)
    (written : HashCounted hash) : QuotasCounted (site.setQ eg i hash) := by
  intro eg' i'
  simp only [Site.setQ]
  by_cases group : eg' = eg
  · subst group
    by_cases here : i' = i
    · subst here
      rw [Function.update_self, Function.update_self]
      exact written
    · rw [Function.update_self, Function.update_of_ne here]
      exact counted _ _
  · rw [Function.update_of_ne group]
    exact counted _ _

/-- Exclusive holds are as they were, too, and no quota count becomes negative. -/
structure Undisturbed (before after : Site) : Prop extends Untouched before after where
  xl : ∀ i, identityXl after i = identityXl before i
  quotas : QuotasCounted before → QuotasCounted after

namespace Undisturbed

theorem of_id {before after : Site} (same : Untouched before after) (id : after.id = before.id)
    (q : after.q = before.q) : Undisturbed before after where
  toUntouched := same
  xl i := by simp only [identityXl, id]
  quotas counted := by
    unfold QuotasCounted
    rw [q]
    exact counted

theorem refl (site : Site) : Undisturbed site site := of_id (.refl site) rfl rfl

theorem trans {first second third : Site} (left : Undisturbed first second)
    (right : Undisturbed second third) : Undisturbed first third where
  toUntouched := left.toUntouched.trans right.toUntouched
  xl i := (right.xl i).trans (left.xl i)
  quotas counted := right.quotas (left.quotas counted)

theorem foldl {Item : Type*} {f : Site → Item → Site}
    (each : ∀ site item, Undisturbed site (f site item)) (items : List Item) (site : Site) :
    Undisturbed site (items.foldl f site) := by
  induction items generalizing site with
  | nil => exact refl site
  | cons item rest ih => exact (each site item).trans (ih _)

theorem of_eq {before after : Site} (id : after.id = before.id) (px : after.px = before.px)
    (ls : after.ls = before.ls) (lsexp : after.lsexp = before.lsexp)
    (brk : after.brk = before.brk) (brko : after.brko = before.brko)
    (win : after.win = before.win) (q : after.q = before.q) :
    Undisturbed before after :=
  of_id (.of_eq id px ls lsexp brk brko win) id q

theorem of_only_ready {before after : Site} (only : OnlyReady before after) :
    Undisturbed before after :=
  of_id (.of_only_ready only) only.id (by rw [only])

theorem setId {written : Option Identity}
    (al : (written.map Identity.al).getD 0 = identityAl site i)
    (xl : (written.map Identity.xl).getD 0 = identityXl site i) :
    Undisturbed site (site.setId i written) where
  toUntouched := .setId al
  xl j := by
    by_cases here : j = i
    · subst here
      simpa [identityXl, Site.setId] using xl
    · simp [identityXl, Site.setId, here]
  quotas counted := counted

theorem rewriteId {id written : Identity} (present : site.id i = some id)
    (same : (written.al, written.xl) = (id.al, id.xl)) :
    Undisturbed site (site.setId i (some written)) := by
  obtain ⟨al, xl⟩ := Prod.mk.inj same
  exact setId (by simp [identityAl, present, al]) (by simp [identityXl, present, xl])

theorem rewritePx {p : Hkey} {proxy written : Proxy} (present : site.px p = some proxy)
    (same : written.al = proxy.al) : Undisturbed site (site.setPx p (some written)) :=
  of_id (.setPx (by simp [proxyAl, present, same])) rfl rfl

theorem markDirty (site : Site) (key : Dirty) : Undisturbed site (site.markDirty key) :=
  of_id (.markDirty site key) rfl rfl

theorem setAcc (site : Site) (a : Hkey) (account : Option Account) :
    Undisturbed site (site.setAcc a account) :=
  of_id (.setAcc site a account) rfl rfl

theorem setHs (site : Site) (eg i : Hkey) (entry : Option Health) :
    Undisturbed site (site.setHs eg i entry) := of_eq rfl rfl rfl rfl rfl rfl rfl rfl

theorem setRdy (site : Site) (eg : Hkey) (ready : ZSet Hkey) :
    Undisturbed site (site.setRdy eg ready) := of_eq rfl rfl rfl rfl rfl rfl rfl rfl

theorem marked (site : Site) (eg : Hkey) (ready : ZSet Hkey) (key : Dirty) :
    Undisturbed site ((site.setRdy eg ready).markDirty key) :=
  (setRdy site eg ready).trans (markDirty _ key)

end Undisturbed

theorem Accounted.same_ledger {before after : Site} (accounted : Accounted before)
    (same : SameLedger before after) : Accounted after where
  identities i := by rw [same.al, same.leasesOf, accounted.identities]
  proxies p := by rw [same.pal, same.leasesOn, accounted.proxies]
  expiries lid x := by rw [same.lsexp, same.ls, accounted.expiries]
  persistent lid lease found := accounted.persistent lid lease (same.ls ▸ found)

/-- Lease `lid` is new and its identity and proxy count one more. -/
structure Issues (before : Site) (lid : LeaseId) (lease : Lease) (after : Site) : Prop where
  al : ∀ i, identityAl after i = identityAl before i + if lease.i = i then 1 else 0
  pal : ∀ p, proxyAl after p = proxyAl before p + if lease.p = some p then 1 else 0
  active : lease.st = .active
  persistent : lease.expireAt = none
  unused : ∀ old, before.ls.lookup lid = some old → old.st ≠ .active
  ls : after.ls = before.ls.insert lid lease
  lsexp : after.lsexp = before.lsexp.insert lid lease.x

/-- Lease `lid` is rewritten without a change of identity, proxy or state, and
its expiry entry follows while it is active. -/
structure Rewrites (before : Site) (lid : LeaseId) (old lease : Lease) (after : Site) : Prop where
  al : ∀ i, identityAl after i = identityAl before i
  pal : ∀ p, proxyAl after p = proxyAl before p
  found : before.ls.lookup lid = some old
  identity : lease.i = old.i
  proxy : lease.p = old.p
  state : lease.st = old.st
  persistent : lease.st = .active → lease.expireAt = old.expireAt
  ls : after.ls = before.ls.insert lid lease
  expiry : ∀ key, after.lsexp.lookup key =
    if key = lid ∧ old.st = .active then some lease.x else before.lsexp.lookup key

/-- The active lease `lid` ends: its hash is deleted or no longer active, and its
identity and proxy count one less. -/
structure Ends (before : Site) (lid : LeaseId) (lease : Lease) (after : Site) : Prop where
  al : ∀ i, identityAl after i = identityAl before i - if lease.i = i then 1 else 0
  pal : ∀ p, proxyAl after p = proxyAl before p - if lease.p = some p then 1 else 0
  found : before.ls.lookup lid = some lease
  active : lease.st = .active
  ls : after.ls = before.ls.erase lid ∨
    ∃ ended, ended.st ≠ .active ∧ after.ls = before.ls.insert lid ended
  lsexp : after.lsexp = before.lsexp.erase lid

section Counts

variable {before after : Site} {lid : LeaseId} {lease old : Lease}

/-- The count of a predicate that only active leases meet. -/
private theorem count_issued {holds : LeaseId → Lease → Bool} {hit : Prop} [Decidable hit]
    (issues : Issues before lid lease after)
    (dead : ∀ key value, value.st ≠ .active → holds key value = false)
    (meets : holds lid lease = decide hit) :
    (Table.countWhere holds after.ls : Int) =
      Table.countWhere holds before.ls + if hit then 1 else 0 := by
  have counted := Table.count_insert holds lid lease before.ls
  have unused : Table.weight holds lid (before.ls.lookup lid) = 0 := by
    cases found : before.ls.lookup lid with
    | none => rfl
    | some old => simp [dead lid old (issues.unused old found)]
  rw [issues.ls]
  simp only [Table.weight_some, meets, decide_eq_true_eq] at counted
  split_ifs at counted ⊢ <;> omega

private theorem count_ended {holds : LeaseId → Lease → Bool} {hit : Prop} [Decidable hit]
    (ends : Ends before lid lease after)
    (dead : ∀ key value, value.st ≠ .active → holds key value = false)
    (meets : holds lid lease = decide hit) :
    (Table.countWhere holds after.ls : Int) =
      Table.countWhere holds before.ls - if hit then 1 else 0 := by
  have weighed : Table.weight holds lid (before.ls.lookup lid) = if hit then 1 else 0 := by
    simp [ends.found, meets]
  rcases ends.ls with erased | ⟨ended, inactive, inserted⟩
  · have counted := Table.count_erase holds lid before.ls
    rw [erased]
    split_ifs at weighed ⊢ <;> omega
  · have counted := Table.count_insert holds lid ended before.ls
    rw [inserted]
    simp only [Table.weight_some, dead lid ended inactive, Bool.false_eq_true, if_false] at counted
    split_ifs at weighed ⊢ <;> omega

private theorem count_rewritten {holds : LeaseId → Lease → Bool}
    (rewrites : Rewrites before lid old lease after) (alike : holds lid lease = holds lid old) :
    Table.countWhere holds after.ls = Table.countWhere holds before.ls := by
  have counted := Table.count_insert holds lid lease before.ls
  rw [rewrites.found, Table.weight_some, Table.weight_some, alike] at counted
  rw [rewrites.ls]
  omega

private theorem names_dead (i : Hkey) (key : LeaseId) (value : Lease)
    (inactive : value.st ≠ .active) : namesIdentity i key value = false := by
  simp [namesIdentity, inactive]

private theorem holds_dead (p : Hkey) (key : LeaseId) (value : Lease)
    (inactive : value.st ≠ .active) : holdsProxy p key value = false := by
  simp [holdsProxy, inactive]

theorem leases_of_issued (issues : Issues before lid lease after) (i : Hkey) :
    (leasesOf after i : Int) = leasesOf before i + if lease.i = i then 1 else 0 :=
  count_issued issues (names_dead i) (by simp [namesIdentity, issues.active])

theorem leases_of_ended (ends : Ends before lid lease after) (i : Hkey) :
    (leasesOf after i : Int) = leasesOf before i - if lease.i = i then 1 else 0 :=
  count_ended ends (names_dead i) (by simp [namesIdentity, ends.active])

theorem leases_on_issued (issues : Issues before lid lease after) (p : Hkey) :
    (leasesOn after p : Int) = leasesOn before p + if lease.p = some p then 1 else 0 :=
  count_issued issues (holds_dead p) (by simp [holdsProxy, issues.active])

theorem leases_on_ended (ends : Ends before lid lease after) (p : Hkey) :
    (leasesOn after p : Int) = leasesOn before p - if lease.p = some p then 1 else 0 :=
  count_ended ends (holds_dead p) (by simp [holdsProxy, ends.active])

theorem leases_on_rewritten (rewrites : Rewrites before lid old lease after) (p : Hkey) :
    leasesOn after p = leasesOn before p :=
  count_rewritten rewrites (by simp [holdsProxy, rewrites.state, rewrites.proxy])

theorem leases_of_rewritten (rewrites : Rewrites before lid old lease after) (i : Hkey) :
    leasesOf after i = leasesOf before i :=
  count_rewritten rewrites (by simp [namesIdentity, rewrites.state, rewrites.identity])

theorem Accounted.issue (accounted : Accounted before) (issues : Issues before lid lease after) :
    Accounted after where
  identities i := by rw [issues.al, leases_of_issued issues, accounted.identities]
  proxies p := by rw [issues.pal, leases_on_issued issues, accounted.proxies]
  expiries key x := by
    rw [issues.lsexp, issues.ls]
    by_cases same : key = lid
    · subst same
      simp [issues.active]
    · rw [AList.lookup_insert_ne same, AList.lookup_insert_ne same]
      exact accounted.expiries key x
  persistent key value found active := by
    rw [issues.ls] at found
    by_cases same : key = lid
    · subst same
      rw [AList.lookup_insert, Option.some.injEq] at found
      exact found ▸ issues.persistent
    · rw [AList.lookup_insert_ne same] at found
      exact accounted.persistent key value found active

theorem Accounted.finish (accounted : Accounted before) (ends : Ends before lid lease after) :
    Accounted after where
  identities i := by rw [ends.al, leases_of_ended ends, accounted.identities]
  proxies p := by rw [ends.pal, leases_on_ended ends, accounted.proxies]
  expiries key x := by
    rw [ends.lsexp]
    by_cases same : key = lid
    · subst same
      rcases ends.ls with erased | ⟨ended, inactive, inserted⟩
      · simp [erased]
      · simp [inserted, inactive]
    · rw [AList.lookup_erase_ne same, accounted.expiries]
      rcases ends.ls with erased | ⟨ended, inactive, inserted⟩
      · rw [erased, AList.lookup_erase_ne same]
      · rw [inserted, AList.lookup_insert_ne same]
  persistent key value found active := by
    by_cases same : key = lid
    · subst same
      rcases ends.ls with erased | ⟨ended, inactive, inserted⟩
      · simp [erased] at found
      · rw [inserted, AList.lookup_insert, Option.some.injEq] at found
        exact absurd active (found ▸ inactive)
    · refine accounted.persistent key value ?_ active
      rcases ends.ls with erased | ⟨ended, inactive, inserted⟩
      · rwa [erased, AList.lookup_erase_ne same] at found
      · rwa [inserted, AList.lookup_insert_ne same] at found

theorem Accounted.rewrite (accounted : Accounted before)
    (rewrites : Rewrites before lid old lease after) : Accounted after where
  identities i := by rw [rewrites.al, leases_of_rewritten rewrites, accounted.identities]
  proxies p := by rw [rewrites.pal, leases_on_rewritten rewrites, accounted.proxies]
  expiries key x := by
    rw [rewrites.expiry, rewrites.ls]
    by_cases same : key = lid
    · subst same
      rw [AList.lookup_insert]
      by_cases active : old.st = .active
      · simp [active, rewrites.state]
      · have absent := accounted.expiries key x
        simp [rewrites.found, active, rewrites.state] at absent ⊢
        exact absent
    · rw [AList.lookup_insert_ne same]
      simpa [same] using accounted.expiries key x
  persistent key value found active := by
    rw [rewrites.ls] at found
    by_cases same : key = lid
    · subst same
      rw [AList.lookup_insert, Option.some.injEq] at found
      subst found
      rw [rewrites.persistent active]
      exact accounted.persistent key old rewrites.found (rewrites.state ▸ active)
    · rw [AList.lookup_insert_ne same] at found
      exact accounted.persistent key value found active

/-- An active lease of an accounted state finds its counters at one or more. -/
theorem Accounted.identity_counted (accounted : Accounted before)
    (found : before.ls.lookup lid = some lease) (active : lease.st = .active) :
    1 ≤ identityAl before lease.i := by
  have weighed := Table.weight_le_count (namesIdentity lease.i) lid before.ls
  rw [accounted.identities, leasesOf]
  simp only [found, Table.weight_some, namesIdentity, active, and_self, decide_true,
    if_true] at weighed
  omega

theorem Accounted.identity_present (accounted : Accounted before)
    (found : before.ls.lookup lid = some lease) (active : lease.st = .active) :
    ∃ id, before.id lease.i = some id := by
  have counted := accounted.identity_counted found active
  cases present : before.id lease.i with
  | none => simp [identityAl, present] at counted
  | some id => exact ⟨id, rfl⟩

theorem Accounted.proxy_counted (accounted : Accounted before) {p : Hkey}
    (found : before.ls.lookup lid = some lease) (active : lease.st = .active)
    (holds : lease.p = some p) : 1 ≤ proxyAl before p := by
  have weighed := Table.weight_le_count (holdsProxy p) lid before.ls
  rw [accounted.proxies, leasesOn]
  simp only [found, Table.weight_some, holdsProxy, active, holds, and_self, decide_true,
    if_true] at weighed
  omega

theorem leases_of_dropped (i : Hkey) (found : before.ls.lookup lid = some lease)
    (inactive : lease.st ≠ .active) :
    leasesOf { before with ls := before.ls.erase lid } i = leasesOf before i := by
  have counted := Table.count_erase (namesIdentity i) lid before.ls
  rw [found, Table.weight_some, names_dead i lid lease inactive] at counted
  simpa [leasesOf] using counted.symm

theorem leases_on_dropped (p : Hkey) (found : before.ls.lookup lid = some lease)
    (inactive : lease.st ≠ .active) :
    leasesOn { before with ls := before.ls.erase lid } p = leasesOn before p := by
  have counted := Table.count_erase (holdsProxy p) lid before.ls
  rw [found, Table.weight_some, holds_dead p lid lease inactive] at counted
  simpa [leasesOn] using counted.symm

theorem Accounted.drop (accounted : Accounted before) (found : before.ls.lookup lid = some lease)
    (inactive : lease.st ≠ .active) : Accounted { before with ls := before.ls.erase lid } where
  identities i := by
    rw [leases_of_dropped i found inactive]
    exact accounted.identities i
  proxies p := by
    rw [leases_on_dropped p found inactive]
    exact accounted.proxies p
  expiries key x := by
    rw [accounted.expiries]
    by_cases same : key = lid
    · subst same
      simp [found, inactive]
    · rw [AList.lookup_erase_ne same]
  persistent key value stored := by
    by_cases same : key = lid
    · subst same
      simp at stored
    · rw [AList.lookup_erase_ne same] at stored
      exact accounted.persistent key value stored

end Counts

/-- What every script but acquire does to the ledger: leases end, are rewritten
or dropped after their end, and none is issued. -/
inductive Settles : Site → Site → Prop where
  | same {before after : Site} (same : SameLedger before after) : Settles before after
  | ends {before after : Site} {lid : LeaseId} {lease : Lease}
      (ends : Ends before lid lease after) : Settles before after
  | rewrites {before after : Site} {lid : LeaseId} {old lease : Lease}
      (rewrites : Rewrites before lid old lease after) : Settles before after
  | drops {before : Site} {lid : LeaseId} {lease : Lease}
      (found : before.ls.lookup lid = some lease) (inactive : lease.st ≠ .active) :
      Settles before { before with ls := before.ls.erase lid }
  | trans {first second third : Site} (left : Settles first second)
      (right : Settles second third) : Settles first third

namespace Settles

variable {before after : Site}

theorem untouched (same : Untouched before after) : Settles before after :=
  .same same.toSameLedger

theorem refl (site : Site) : Settles site site := .same (.refl site)

theorem accounted (settles : Settles before after) (start : Accounted before) :
    Accounted after := by
  induction settles with
  | same same => exact start.same_ledger same
  | ends ends => exact start.finish ends
  | rewrites rewrites => exact start.rewrite rewrites
  | drops found inactive => exact start.drop found inactive
  | trans _ _ left right => exact right (left start)

theorem known (settles : Settles before after) (lid : LeaseId) (found : lid ∈ after.ls) :
    lid ∈ before.ls := by
  induction settles with
  | same same => rwa [same.ls] at found
  | ends ends =>
    have present := AList.lookup_isSome.mp (Option.isSome_of_mem ends.found)
    rcases ends.ls with erased | ⟨_, _, inserted⟩
    · rw [erased, AList.mem_erase] at found
      exact found.2
    · rw [inserted, AList.mem_insert] at found
      exact found.elim (fun same => same ▸ present) id
  | rewrites rewrites =>
    have present := AList.lookup_isSome.mp (Option.isSome_of_mem rewrites.found)
    rw [rewrites.ls, AList.mem_insert] at found
    exact found.elim (fun same => same ▸ present) id
  | drops _ _ => exact (AList.mem_erase.mp found).2
  | trans _ _ left right => exact left (right found)

theorem leases_of_le (settles : Settles before after) (i : Hkey) :
    leasesOf after i ≤ leasesOf before i := by
  induction settles with
  | same same => rw [same.leasesOf]
  | ends ends =>
    have counted := leases_of_ended ends i
    split_ifs at counted <;> omega
  | rewrites rewrites => rw [leases_of_rewritten rewrites]
  | drops found inactive => rw [leases_of_dropped i found inactive]
  | trans _ _ left right => exact right.trans left

end Settles

end Spinneret.Scheduler
