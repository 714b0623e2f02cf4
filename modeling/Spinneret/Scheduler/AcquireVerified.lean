import Spinneret.Scheduler.AcquireMain

/-!
# Verified candidates

A candidate that passes the filters of `evaluate` carries the values stored of its
identity and meets every filter: it is available, below its limit and within its
quotas, and the proxy a call assigns to it can serve a lease. Writes that only move
ready queues, push marks, cursors and activity keep a candidate verified.
-/

namespace Spinneret.Scheduler

open Spinneret.HotState Spinneret.Lib

set_option autoImplicit false

def unmarked (id : Identity) : Identity := { id with xg := none }

/-- The states differ in ready queues, push marks, cursors and activity at most. -/
structure Quiet (before after : Site) : Prop where
  frame : after = { before with
    id := after.id, rdy := after.rdy, pxrdy := after.pxrdy, rr := after.rr, aeg := after.aeg }
  identities : ∀ i, (after.id i).map unmarked = (before.id i).map unmarked

variable {before after : Site} {c : Candidate} {sticky : Bool} {id : Identity} {pick : ProxyPick}

namespace Quiet

theorem refl (site : Site) : Quiet site site := ⟨rfl, fun _ => rfl⟩

theorem trans {first second third : Site} (left : Quiet first second)
    (right : Quiet second third) : Quiet first third where
  frame := by
    rw [right.frame, left.frame]
  identities i := (right.identities i).trans (left.identities i)

theorem al (quiet : Quiet before after) (i : Hkey) :
    (after.id i).map Identity.al = (before.id i).map Identity.al := by
  have same := congrArg (Option.map Identity.al) (quiet.identities i)
  simpa only [Option.map_map, Function.comp_def, unmarked] using same

theorem px (quiet : Quiet before after) : after.px = before.px := by
  rw [quiet.frame]

theorem ls (quiet : Quiet before after) : after.ls = before.ls := by
  rw [quiet.frame]

theorem lsexp (quiet : Quiet before after) : after.lsexp = before.lsexp := by
  rw [quiet.frame]

theorem brk (quiet : Quiet before after) : after.brk = before.brk := by
  rw [quiet.frame]

theorem brko (quiet : Quiet before after) : after.brko = before.brko := by
  rw [quiet.frame]

theorem win (quiet : Quiet before after) : after.win = before.win := by
  rw [quiet.frame]

theorem hs (quiet : Quiet before after) : after.hs = before.hs := by
  rw [quiet.frame]

theorem q (quiet : Quiet before after) : after.q = before.q := by
  rw [quiet.frame]

theorem acc (quiet : Quiet before after) : after.acc = before.acc := by
  rw [quiet.frame]

theorem same_ledger (quiet : Quiet before after) :
    SameLedger before after where
  al i := by simp only [identityAl, quiet.al]
  pal p := by simp only [proxyAl, quiet.px]
  ls := quiet.ls
  lsexp := quiet.lsexp

end Quiet

/-- The candidate's counter is the stored one and below the limit, and a proxy it
is bound to is present. -/
structure Verified (args : AcquireArgs) (site : Site) (c : Candidate) : Prop where
  stored : (site.id c.i).map Identity.al = some c.al
  below : c.al < args.mc
  bound : ∀ pick, c.bound = some pick → (site.px pick.p).isSome

theorem Verified.quiet {args : AcquireArgs} (verified : Verified args before c)
    (quiet : Quiet before after) : Verified args after c where
  stored := (quiet.al c.i).trans verified.stored
  below := verified.below
  bound pick bound := by
    rw [quiet.px]
    exact verified.bound pick bound

/-! ## Candidates that pass -/

/-- A bound proxy that could serve a lease, its capacity apart. -/
structure BoundUsable (args : AcquireArgs) (site : Site) (pick : ProxyPick) : Prop where
  bound : args.pmode = .bindIdentity
  kept : pick.bind = false
  usable : ∃ proxy, site.px pick.p = some proxy ∧ proxy.st = .active ∧
    max proxy.cd proxy.gcd ≤ args.now ∧ pick.mc = proxy.mc

/-- The candidate holds what is stored of its identity and passes the filters of
`evaluate`. The capacity of a bound proxy is as it was read while nothing is leased. -/
structure Fit (args : AcquireArgs) (site : Site) (picked : Nat) (sticky : Bool) (c : Candidate)
    (id : Identity) : Prop where
  stored : (site.id c.i).map unmarked = some id
  usable : id.st = .active ∨ id.st = .pending
  st : c.st = id.st
  al : c.al = id.al
  xl : c.xl = id.xl
  scd : c.scd = id.scd
  sru : c.sru = id.sru
  acd : c.acd = accountCd site id.acc
  health : c.hs = hsUnpack (site.hs args.eg c.i) args.baseline args.now
  region : c.rg = if args.readsAll then id.rg else ""
  px : c.px = if args.readsAll then id.px else none
  lim : c.lim = if id.st = .pending then min args.mc args.probeMax else args.mc
  cells : c.q = (site.q args.eg c.i).cells
  available : (availability args site id c.hs sticky).2 ≤ args.now
  room : c.al < c.lim
  quota : quotaPush args c.q (if args.readsAll then id.act else 0) = none
  bound : ∀ pick, c.bound = some pick → c.px = some pick.p ∧ BoundUsable args site pick
  spare : picked = 0 → ∀ pick, c.bound = some pick → proxyAl site pick.p < pick.mc

section Passing

variable {args : AcquireArgs} {site : Site}

theorem bind_check_fits {c next : Candidate} (checked : bindCheck args site c = .inr next)
    (mode : args.pmode = .bindIdentity) (unbound : c.bound = none) :
    next = { c with bound := next.bound, oldPx := next.oldPx } ∧
      ∀ pick, next.bound = some pick →
        (c.px = some pick.p ∧ BoundUsable args site pick) ∧ proxyAl site pick.p < pick.mc := by
  unfold bindCheck at checked
  split at checked
  · cases checked
    exact ⟨rfl, fun pick bound => by simp [unbound] at bound⟩
  · next p px =>
    dsimp only at checked
    split at checked
    · split_ifs at checked <;> cases checked <;>
        exact ⟨rfl, fun pick bound => by simp [unbound] at bound⟩
    · next proxy found =>
      split_ifs at checked with active cool full
      all_goals cases checked
      · refine ⟨rfl, ?_⟩
        rintro pick ⟨⟩
        refine ⟨⟨px, mode, rfl, proxy, found, active, cool, rfl⟩, ?_⟩
        simp only [proxyAl, found, Option.map_some, Option.getD_some]
        omega
      all_goals exact ⟨rfl, fun pick bound => by simp [unbound] at bound⟩

theorem admit_candidate_fits {c next : Candidate}
    (admitted : admitCandidate args site c = .ok next) (unbound : c.bound = none) :
    c.al < c.lim ∧ quotaPush args c.q c.act = none ∧
      next = { c with bound := next.bound, oldPx := next.oldPx } ∧
      ∀ pick, next.bound = some pick →
        (c.px = some pick.p ∧ BoundUsable args site pick) ∧ proxyAl site pick.p < pick.mc := by
  unfold admitCandidate at admitted
  split at admitted
  · cases admitted
  · next room =>
    refine ⟨not_le.mp room, ?_⟩
    split at admitted
    · cases admitted
    · next fits =>
      refine ⟨fits, ?_⟩
      split at admitted
      · next mode =>
        split at admitted
        · cases admitted
        · next checked =>
          cases admitted
          exact bind_check_fits checked mode unbound
      · cases admitted
        exact ⟨rfl, fun pick bound => by simp [unbound] at bound⟩

theorem availability_account (args : AcquireArgs) (site : Site) (id : Identity) (hs : Health)
    (sticky : Bool) : (availability args site id hs sticky).1 = accountCd site id.acc := by
  unfold availability accountCd accountAvail
  dsimp only
  cases id.acc with
  | none => rfl
  | some a =>
    dsimp only
    cases site.acc a with
    | none => rfl
    | some account => rfl

theorem evaluate_fits {i : Hkey} (picked : Nat) (passed : evaluate args site i sticky = .ok c) :
    c.i = i ∧ ∃ id, Fit args site picked sticky c id := by
  unfold evaluate at passed
  split at passed
  · cases passed
  · next id present =>
    split at passed
    · next usable =>
      dsimp only at passed
      split at passed
      · cases passed
      · next available =>
        obtain ⟨room, fits, frame, bound⟩ := admit_candidate_fits passed rfl
        rw [frame]
        refine ⟨rfl, unmarked id, ?_⟩
        constructor
        case stored => simp [candidateOf, present]
        case usable => exact usable
        case acd => exact availability_account ..
        case available => exact not_lt.mp available
        case room => exact room
        case quota => exact fits
        case bound => exact fun pick chosen => (bound pick chosen).1
        case spare => exact fun _ pick chosen => (bound pick chosen).2
        all_goals rfl
    · cases passed

theorem Fit.verified {picked : Nat} (fit : Fit args site picked sticky c id) :
    Verified args site c where
  stored := by
    have counted := congrArg (Option.map Identity.al) fit.stored
    rw [fit.al]
    simpa only [Option.map_map, Function.comp_def, unmarked, Option.map_some] using counted
  below := by
    have room := fit.room
    rw [fit.lim] at room
    split at room
    · exact room.trans_le (min_le_left _ _)
    · exact room
  bound pick chosen := by
    obtain ⟨proxy, found, -⟩ := (fit.bound pick chosen).2.usable
    rw [found]
    rfl

theorem evaluate_verified {i : Hkey} (passed : evaluate args site i sticky = .ok c) :
    c.i = i ∧ Verified args site c := by
  obtain ⟨here, id, fit⟩ := evaluate_fits 0 passed
  exact ⟨here, fit.verified⟩

/-- Writes that keep the hashes a candidate was read from keep it fit. -/
theorem Fit.transport {after : Site} {picked later : Nat} (fit : Fit args site picked sticky c id)
    (stored : (after.id c.i).map unmarked = (site.id c.i).map unmarked)
    (hs : after.hs args.eg c.i = site.hs args.eg c.i) (q : after.q args.eg c.i = site.q args.eg c.i)
    (acc : after.acc = site.acc)
    (bound : ∀ pick, BoundUsable args site pick → BoundUsable args after pick)
    (spare : later = 0 → picked = 0 ∧ after.px = site.px) : Fit args after later sticky c id := by
  have account : accountCd after id.acc = accountCd site id.acc := by
    unfold accountCd
    rw [acc]
  have availability : availability args after id c.hs sticky =
      availability args site id c.hs sticky := by
    unfold availability accountAvail
    rw [acc]
  constructor
  case stored => exact stored.trans fit.stored
  case acd => rw [account, fit.acd]
  case health => rw [hs, ← fit.health]
  case cells => rw [q, ← fit.cells]
  case available => rw [availability]; exact fit.available
  case bound =>
    intro pick chosen
    obtain ⟨px, usable⟩ := fit.bound pick chosen
    exact ⟨px, bound pick usable⟩
  case spare =>
    intro untouched pick chosen
    obtain ⟨before, px⟩ := spare untouched
    rw [proxyAl, px]
    exact fit.spare before pick chosen
  case usable => exact fit.usable
  case st => exact fit.st
  case al => exact fit.al
  case xl => exact fit.xl
  case scd => exact fit.scd
  case sru => exact fit.sru
  case region => exact fit.region
  case px => exact fit.px
  case lim => exact fit.lim
  case room => exact fit.room
  case quota => exact fit.quota

theorem Fit.quiet {after : Site} {picked : Nat} (fit : Fit args site picked sticky c id)
    (quiet : Quiet site after) : Fit args after picked sticky c id :=
  fit.transport (quiet.identities c.i) (by rw [quiet.hs]) (by rw [quiet.q]) quiet.acc
    (fun _ bound => ⟨bound.bound, bound.kept, by rw [quiet.px]; exact bound.usable⟩)
    fun untouched => ⟨untouched, quiet.px⟩

end Passing

/-! ## Proxy assignment -/

/-- A proxy that can serve a lease now and passes the filters of the policy. -/
structure Offered (args : AcquireArgs) (site : Site) (region : Option String) (pick : ProxyPick)
    (proxy : Proxy) : Prop where
  found : site.px pick.p = some proxy
  active : proxy.st = .active
  cooled : max proxy.cd proxy.gcd ≤ args.now
  room : proxy.al < proxy.mc
  limit : pick.mc = proxy.mc
  filtered : proxyMatches args region proxy = true

section ProxyAssignment

variable {args : AcquireArgs} {site : Site} {region : Option String} {exclude : Option Hkey}

/-- Every usable proxy of a scan can serve a lease. -/
def ScanOffers (args : AcquireArgs) (site : Site) (region : Option String)
    (scan : ProxyScan) : Prop :=
  ∀ weighted ∈ scan.cands, ∃ proxy, Offered args site region weighted.pick proxy

theorem scan_proxy_offers {scan : ProxyScan} (p : Hkey)
    (usable : ScanOffers args site region scan) :
    ScanOffers args site region (scanProxy args site region exclude scan p) := by
  unfold scanProxy
  split
  · exact usable
  · dsimp only
    split
    · exact usable
    · next proxy found =>
      split_ifs with active cooling full matching
      · exact usable
      · exact usable
      · exact usable
      · intro weighted member
        rcases List.mem_append.mp member with old | new
        · exact usable weighted old
        · obtain rfl := List.mem_singleton.mp new
          exact ⟨proxy, found, not_not.mp active, not_lt.mp cooling, not_le.mp full, rfl,
            matching⟩
      · exact usable

theorem scan_fold_offers (ids : List Hkey) {scan : ProxyScan}
    (usable : ScanOffers args site region scan) :
    ScanOffers args site region (ids.foldl (scanProxy args site region exclude) scan) := by
  induction ids generalizing scan with
  | nil => exact usable
  | cons p rest ih => exact ih (scan_proxy_offers p usable)

theorem scan_rounds_offers (total : Nat) (rounds : List Nat) {scan : ProxyScan}
    (usable : ScanOffers args site region scan) :
    ScanOffers args site region (scanRounds args site region exclude total rounds scan) := by
  induction rounds generalizing scan with
  | nil => exact usable
  | cons round rest ih =>
    unfold scanRounds
    dsimp only
    split
    · exact usable
    · split_ifs
      all_goals first
        | exact ih (scan_fold_offers _ usable)
        | exact scan_fold_offers _ usable

theorem draw_proxy_mem {target acc : ℚ} {cands : List WeightedProxy}
    (drawn : drawProxy target acc cands = some pick) :
    ∃ weighted ∈ cands, weighted.pick = pick := by
  induction cands generalizing acc with
  | nil => cases drawn
  | cons first rest ih =>
    cases rest with
    | nil =>
      cases drawn
      exact ⟨first, List.mem_cons_self, rfl⟩
    | cons second more =>
      simp only [drawProxy] at drawn
      split at drawn
      · cases drawn
        exact ⟨first, List.mem_cons_self, rfl⟩
      · obtain ⟨weighted, member, same⟩ := ih drawn
        exact ⟨weighted, List.mem_cons_of_mem _ member, same⟩

theorem select_proxy_offered {ridx : Nat}
    (selected : (selectProxy args site ridx region exclude).1 = some pick) :
    ∃ proxy, Offered args site region pick proxy := by
  unfold selectProxy at selected
  dsimp only at selected
  split at selected
  · cases selected
  · split at selected
    · cases selected
    · obtain ⟨weighted, member, rfl⟩ := draw_proxy_mem selected
      exact scan_rounds_offers _ _ (fun _ none => absurd none List.not_mem_nil) weighted member

def regionOf (args : AcquireArgs) (c : Candidate) : Option String :=
  if args.pregion ∨ args.pmode = .regionMatch then some c.rg else none

/-- The proxy of a lease can serve it; a proxy the identity was bound to before is not
measured by the filters of the policy. -/
inductive Carried (args : AcquireArgs) (site : Site) (c : Candidate) : Option ProxyPick → Prop where
  | unneeded (mode : args.pmode = .none) : Carried args site c none
  | offered {pick : ProxyPick} {proxy : Proxy} (needed : args.pmode ≠ .none)
      (offer : Offered args site (regionOf args c) pick proxy) : Carried args site c (some pick)
  | bound {pick : ProxyPick} (px : c.px = some pick.p) (usable : BoundUsable args site pick)
      (room : proxyAl site pick.p < pick.mc) : Carried args site c (some pick)

/-- The proxy assigned to a candidate that fits can serve its lease. -/
theorem assign_proxy_carried {ridx picked : Nat} {proxy : Option ProxyPick}
    (fit : Fit args site picked sticky c id)
    (assigned : (assignProxy args site ridx picked c).proxy = some proxy) :
    Carried args site c proxy := by
  unfold assignProxy at assigned
  dsimp only at assigned
  split at assigned
  · next mode =>
    cases assigned
    exact .unneeded mode
  · next mode =>
    split at assigned
    · next bound found =>
      split at assigned
      · cases assigned
      · next room =>
        cases assigned
        obtain ⟨px, usable⟩ := fit.bound bound found
        refine .bound px usable ?_
        by_cases untouched : picked = 0
        · exact fit.spare untouched bound found
        · omega
    · obtain ⟨chosen, selected, same⟩ := Option.map_eq_some_iff.mp assigned
      cases same
      obtain ⟨proxy, offer⟩ := select_proxy_offered selected
      exact .offered (by rw [mode]; nofun) ⟨offer.found, offer.active, offer.cooled, offer.room,
        offer.limit, offer.filtered⟩
  · next unbound mode =>
    obtain ⟨chosen, selected, same⟩ := Option.map_eq_some_iff.mp assigned
    cases same
    obtain ⟨proxy, offer⟩ := select_proxy_offered selected
    exact .offered unbound offer

theorem Carried.present (carried : Carried args site c (some pick)) : (site.px pick.p).isSome := by
  cases carried with
  | offered _ offer =>
    rw [offer.found]
    rfl
  | bound _ usable =>
    obtain ⟨proxy, found, -⟩ := usable.usable
    rw [found]
    rfl

theorem assign_proxy_present {ridx picked : Nat} (verified : Verified args site c)
    (assigned : (assignProxy args site ridx picked c).proxy = some (some pick)) :
    (site.px pick.p).isSome := by
  unfold assignProxy at assigned
  dsimp only at assigned
  split at assigned
  · cases assigned
  · split at assigned
    · next bound found =>
      split at assigned
      · cases assigned
      · cases assigned
        exact verified.bound pick found
    · obtain ⟨chosen, selected, same⟩ := Option.map_eq_some_iff.mp assigned
      cases same
      obtain ⟨proxy, offer⟩ := select_proxy_offered selected
      have present : (site.px chosen.p).isSome := by rw [offer.found]; rfl
      exact present
  · obtain ⟨chosen, selected, same⟩ := Option.map_eq_some_iff.mp assigned
    cases same
    obtain ⟨proxy, offer⟩ := select_proxy_offered selected
    rw [offer.found]
    rfl

end ProxyAssignment

end Spinneret.Scheduler
