import Spinneret.Worker.Process

/-!
# Reports blamed on the proxy

A failed report whose final blame is the proxy alone moves no score of the
identity and plans no rule for it or its account. Two marks of the identity are
still set by the outcomes that always count as failures, whoever is blamed: the
failure streaks go up, and scores that are already low plan their health actions.
For every other outcome nothing of the identity changes, and the plan does not
depend on its health.
-/

namespace Spinneret.Worker

open Spinneret.HotState Spinneret.Policy Spinneret.Breakers

set_option autoImplicit false

/-! ## Stages that do not look at health -/

/-- The stage neither reads nor writes the identity hashes and health entries. -/
def Blind {Out : Type} (stage : Site → Site × Out) : Prop :=
  ∀ (site : Site) (id : Hkey → Option Identity) (hs : Hkey → Hkey → Option Health)
    (dirty : Finset Dirty), ∃ marked,
      stage { site with id := id, hs := hs, dirty := dirty } =
        ({ (stage site).1 with id := id, hs := hs, dirty := marked }, (stage site).2)

namespace Blind

variable {Out Next : Type}

theorem id {stage : Site → Site × Out} (blind : Blind stage) (site : Site) :
    (stage site).1.id = site.id := by
  obtain ⟨marked, same⟩ := blind site site.id site.hs site.dirty
  exact congrArg (fun result => result.1.id) same

theorem hs {stage : Site → Site × Out} (blind : Blind stage) (site : Site) :
    (stage site).1.hs = site.hs := by
  obtain ⟨marked, same⟩ := blind site site.id site.hs site.dirty
  exact congrArg (fun result => result.1.hs) same

end Blind

section Stages

variable (args : ObserveArgs)

theorem quota_report_blind (i : Hkey) : Blind fun site => (quotaReport args site i, ()) := by
  intro site id hs dirty
  unfold quotaReport
  dsimp only
  split_ifs <;> exact ⟨dirty, rfl⟩

theorem lease_report_blind : Blind (leaseReport args) := by
  intro site id hs dirty
  unfold leaseReport
  cases site.ls.lookup args.lid with
  | none => exact ⟨dirty, rfl⟩
  | some lease =>
    cases args.ident with
    | none => exact ⟨dirty, rfl⟩
    | some i =>
      have counted := quota_report_blind args i
        { site with ls := site.ls.insert args.lid { lease with rc := lease.rc + 1 } } id hs dirty
      obtain ⟨marked, same⟩ := counted
      dsimp only at same ⊢
      split_ifs
      · exact ⟨marked, congrArg (fun result => (result.1, lease.pr)) same⟩
      · exact ⟨dirty, rfl⟩

theorem window_report_blind : Blind fun site => (windowReport args site, ()) := by
  intro site id hs dirty
  unfold windowReport
  cases args.winBucket <;> exact ⟨dirty, rfl⟩

theorem cross_attribute_blind : Blind (crossAttribute args) := by
  intro site id hs dirty
  unfold crossAttribute
  cases args.proxy with
  | none => exact ⟨dirty, rfl⟩
  | some p =>
    cases args.ident with
    | none => exact ⟨dirty, rfl⟩
    | some i =>
      dsimp only
      split_ifs <;> exact ⟨dirty, rfl⟩

theorem proxy_report_blind (blame : Blame) : Blind fun site => proxyReport args site blame := by
  intro site id hs dirty
  unfold proxyReport
  dsimp only
  cases (args.proxy.bind fun p => (site.px p).map fun proxy => (p, proxy)) with
  | none => exact ⟨dirty, rfl⟩
  | some entry =>
    dsimp only
    split_ifs <;> exact ⟨_, rfl⟩

theorem counter_report_blind (i : Hkey) (acc : Option Hkey) : Blind (counterReport args i acc) := by
  have request : ∀ (kind : SubjectKind × Int),
      ∀ (site : Site) (id : Hkey → Option Identity) (hs : Hkey → Hkey → Option Health)
        (dirty : Finset Dirty) (known : List (CounterKey × Int) × List Int),
      countRequest args i acc ({ site with id := id, hs := hs, dirty := dirty }, known) kind =
        ({ (countRequest args i acc (site, known) kind).1 with id := id, hs := hs, dirty := dirty },
          (countRequest args i acc (site, known) kind).2) := by
    intro kind site id hs dirty known
    unfold countRequest
    cases counterSubject args i acc kind.1 with
    | none => rfl
    | some subject =>
      dsimp only
      split_ifs
      · cases known.1.lookup { subject := subject, outcome := args.outcome, window := kind.2 } <;>
          rfl
      · rfl
  have fold : ∀ (requests : List (SubjectKind × Int)) (site : Site) (id : Hkey → Option Identity)
      (hs : Hkey → Hkey → Option Health) (dirty : Finset Dirty)
      (known : List (CounterKey × Int) × List Int),
      requests.foldl (countRequest args i acc)
          ({ site with id := id, hs := hs, dirty := dirty }, known) =
        ({ (requests.foldl (countRequest args i acc) (site, known)).1 with
            id := id, hs := hs, dirty := dirty },
          (requests.foldl (countRequest args i acc) (site, known)).2) := by
    intro requests
    induction requests with
    | nil => exact fun site id hs dirty known => rfl
    | cons kind rest ih =>
      intro site id hs dirty known
      rw [List.foldl_cons, request, ih]
      rfl
  intro site id hs dirty
  refine ⟨dirty, ?_⟩
  unfold counterReport
  rw [fold]

/-- What the script learns before it turns to the identity. -/
structure Attribution where
  probe : Bool
  suppressed : Bool
  brkState : BreakerState
  blame : Blame

/-- The part of a full call up to the final blame. -/
def attributeBlame (site : Site) : Site × Attribution :=
  let leased := leaseReport args site
  let windowed := windowReport args leased.1
  let breaker := windowed.brk args.eg
  let probed := probeReport args windowed leased.2
  let crossed := crossAttribute args probed
  (crossed.1,
    { probe := leased.2
      suppressed := effectivelyOpen args.now breaker && !leased.2
      brkState := breaker.st
      blame := crossed.2 })

theorem attribute_blame_blind : Blind (attributeBlame args) := by
  intro site id hs dirty
  let windowed := windowReport args (leaseReport args site).1
  let probed := probeReport args windowed (leaseReport args site).2
  obtain ⟨first, leased⟩ := lease_report_blind args site id hs dirty
  obtain ⟨second, reported⟩ := window_report_blind args (leaseReport args site).1 id hs first
  obtain ⟨third, crossed⟩ := cross_attribute_blind args probed id hs second
  have windows : windowReport args
      { (leaseReport args site).1 with id := id, hs := hs, dirty := first } =
        { windowed with id := id, hs := hs, dirty := second } := congrArg Prod.fst reported
  have blames : crossAttribute args (probeReport args
      { windowed with id := id, hs := hs, dirty := second } (leaseReport args site).2) =
        ({ (crossAttribute args probed).1 with id := id, hs := hs, dirty := third },
          (crossAttribute args probed).2) := crossed
  refine ⟨third, ?_⟩
  simp only [attributeBlame, leased, windows, blames]
  rfl

end Stages

/-! ## Reports of an identity -/

section Reports

variable (args : ObserveArgs)

def baseReply (crossed : Site × Attribution) : ObserveReply :=
  replyBase args crossed.2.blame crossed.2.suppressed crossed.2.probe
    (args.ident.bind crossed.1.id) crossed.2.brkState

/-- The rest of a full call for an identity that is there. -/
def identityReport (crossed : Site × Attribution) (i : Hkey) (identity : Identity) :
    Site × ObserveReply :=
  let endpoint := endpointReport args crossed.1 i crossed.2.blame
  let global := globalReport args endpoint.site i identity crossed.2.blame
  let proxied := proxyReport args global.site crossed.2.blame
  let counted := counterReport args i identity.acc proxied.1
  (counted.1, { baseReply args crossed with
    endpointStreak := endpoint.streak
    globalStreak := global.streak
    proxyStreak := proxied.2
    endpointScore := fourDecimals endpoint.score
    endpointSamples := endpoint.samples
    globalScore := fourDecimals global.score
    globalSamples := global.samples
    endpointCd := endpoint.cd
    counts := counted.2
    bans := banCounts args counted.1 i })

/-- The rest of a full call after the attribution. -/
def attributedReport (crossed : Site × Attribution) : Site × ObserveReply :=
  match args.ident, args.ident.bind crossed.1.id with
  | some i, some identity =>
    if crossed.2.suppressed ∨ args.late then (crossed.1, baseReply args crossed)
    else identityReport args crossed i identity
  | _, _ => (crossed.1, baseReply args crossed)

theorem observe_full_attributed (site : Site) :
    observeFull args site = attributedReport args (attributeBlame args site) := rfl

/-- The entry a missing health entry is read as. -/
def freshHealth : Health := hsPack (hsUnpack none args.baseline args.now)

/-- Besides the failure streaks, and these only after a failure outcome, the health of every
identity is as it was. -/
structure ScoresKept (before after : Site) : Prop where
  endpoint : ∀ eg i, after.hs eg i = before.hs eg i ∨ args.failure = true ∧
    ∃ nfail, after.hs eg i = some
      { (before.hs eg i).getD (freshHealth args) with nfail := nfail, lastfail := args.now }
  global : ∀ i, after.id i = before.id i ∨ args.failure = true ∧ ∃ id gnf,
    before.id i = some id ∧ after.id i = some { id with gnf := gnf, glf := args.now }

variable {args}

theorem endpoint_report_proxy {site : Site} (failed : args.success = false) (i : Hkey) :
    (endpointReport args site i .proxy).site =
      if args.failure = true then
        (site.setHs args.eg i (some
          { (site.hs args.eg i).getD (freshHealth args) with
            nfail := (endpointReport args site i .proxy).streak
            lastfail := args.now })).markDirty (.endpoint args.eg i)
      else site := by
  cases fails : args.failure <;>
    simp [endpointReport, affects, failsIdentity, Blame.hasIdentity, failed, fails, freshHealth]

theorem global_report_proxy {site : Site} (failed : args.success = false) (i : Hkey)
    (id : Identity) :
    (globalReport args site i id .proxy).site =
      if args.failure = true then
        (site.setId i (some
          { id with gnf := (globalReport args site i id .proxy).streak, glf := args.now })).markDirty
            (.global i)
      else site := by
  cases fails : args.failure <;>
    simp [globalReport, affects, failsIdentity, Blame.hasIdentity, failed, fails]

theorem identity_report_proxy {crossed : Site × Attribution} {i : Hkey} {identity : Identity}
    (failed : args.success = false) (blamed : crossed.2.blame = .proxy)
    (present : crossed.1.id i = some identity) :
    ScoresKept args crossed.1 (identityReport args crossed i identity).1 := by
  have counted := counter_report_blind args i identity.acc
  have proxied := proxy_report_blind args .proxy
  let endpoint := endpointReport args crossed.1 i .proxy
  let global := globalReport args endpoint.site i identity .proxy
  have id : (identityReport args crossed i identity).1.id = global.site.id := by
    simp only [identityReport, blamed]
    exact (counted.id _).trans (proxied.id _)
  have hs : (identityReport args crossed i identity).1.hs = global.site.hs := by
    simp only [identityReport, blamed]
    exact (counted.hs _).trans (proxied.hs _)
  have endpoints : endpoint.site = _ := endpoint_report_proxy failed i
  have globals : global.site = _ := global_report_proxy failed i identity
  cases fails : args.failure with
  | false =>
    have same : global.site = crossed.1 := by
      rw [globals, fails, if_neg Bool.false_ne_true, endpoints, fails, if_neg Bool.false_ne_true]
    exact ⟨fun eg j => .inl (by rw [hs, same]), fun j => .inl (by rw [id, same])⟩
  | true =>
    rw [if_pos fails] at endpoints globals
    refine ⟨fun eg j => ?_, fun j => ?_⟩
    · have written : global.site.hs eg j = _ := congrFun (congrFun (congrArg Site.hs globals) eg) j
      have entry : endpoint.site.hs eg j = _ :=
        congrFun (congrFun (congrArg Site.hs endpoints) eg) j
      rw [hs]
      by_cases here : eg = args.eg ∧ j = i
      · obtain ⟨rfl, rfl⟩ := here
        refine .inr ⟨fails, endpoint.streak, written.trans (entry.trans ?_)⟩
        simp [Site.setHs, Site.markDirty, endpoint]
      · refine .inl (written.trans (entry.trans ?_))
        simp only [Site.setHs, Site.markDirty]
        by_cases group : eg = args.eg
        · subst group
          rw [Function.update_self, Function.update_of_ne fun same => here ⟨rfl, same⟩]
        · rw [Function.update_of_ne group]
    · have written : global.site.id j = _ := congrFun (congrArg Site.id globals) j
      have kept : endpoint.site.id = crossed.1.id := by
        rw [endpoints]
        rfl
      rw [id]
      by_cases here : j = i
      · subst here
        refine .inr ⟨fails, identity, global.streak, present, written.trans ?_⟩
        simp [Site.setId, Site.markDirty, global]
      · refine .inl (written.trans ?_)
        simp only [Site.setId, Site.markDirty]
        rw [Function.update_of_ne here, kept]

theorem ScoresKept.of_same {before after : Site} (id : after.id = before.id)
    (hs : after.hs = before.hs) : ScoresKept args before after where
  endpoint eg i := .inl (by rw [hs])
  global i := .inl (by rw [id])

theorem observe_full_proxy {site : Site} (failed : args.success = false)
    (blamed : (observeFull args site).2.blame = .proxy) :
    ScoresKept args site (observeFull args site).1 := by
  have id := (attribute_blame_blind args).id site
  have hs := (attribute_blame_blind args).hs site
  rw [observe_full_attributed] at blamed ⊢
  unfold attributedReport at blamed ⊢
  split at blamed
  · next i identity given found =>
    split at blamed
    · next skipped => exact .of_same (by rw [if_pos skipped, id]) (by rw [if_pos skipped, hs])
    · next counted =>
      rw [if_neg counted]
      rw [given, Option.bind_some] at found
      have kept := identity_report_proxy failed blamed found
      exact ⟨hs ▸ kept.endpoint, id ▸ kept.global⟩
  · exact .of_same id hs

/-- The endpoint score of the identity before the report, decayed to its time, with its samples. -/
def priorEndpoint (args : ObserveArgs) (site : Site) (i : Hkey) : ℚ × Int :=
  let health := (site.hs args.eg i).getD (freshHealth args)
  (fourDecimals (decay args.exp health.score health.sts args.now args.baseline args.tau),
    health.samples)

/-- The global score of the identity before the report, decayed to its time, with its samples. -/
def priorGlobal (args : ObserveArgs) (id : Identity) : ℚ × Int :=
  (fourDecimals (decay args.exp (id.gs.getD args.baseline) (id.gts.getD args.now) args.now
    args.baseline args.tau), id.gn)

/-- The reply to a failed report blamed on the proxy alone carries the scores as they were. -/
theorem observe_full_prior {site : Site} {i : Hkey} (failed : args.success = false)
    (given : args.ident = some i) (inTime : args.late = false)
    (blamed : (observeFull args site).2.blame = .proxy)
    (counted : (observeFull args site).2.suppressed = false)
    (known : (observeFull args site).2.idState.isSome = true) :
    let reply := (observeFull args site).2
    ∃ id, site.id i = some id ∧
      (reply.endpointScore, reply.endpointSamples) = priorEndpoint args site i ∧
      (reply.globalScore, reply.globalSamples) = priorGlobal args id := by
  have ids := (attribute_blame_blind args).id site
  have hs := (attribute_blame_blind args).hs site
  rw [observe_full_attributed] at blamed counted known ⊢
  unfold attributedReport at blamed counted known ⊢
  rw [given, Option.bind_some] at blamed counted known ⊢
  cases present : (attributeBlame args site).1.id i with
  | none =>
    rw [present] at known
    simp [baseReply, replyBase, given, present] at known
  | some identity =>
    rw [present] at blamed counted
    dsimp only at blamed counted ⊢
    split_ifs at blamed counted ⊢ with skipped
    · have suppressed : (attributeBlame args site).2.suppressed = false := counted
      simp [suppressed, inTime] at skipped
    · have onProxy : (attributeBlame args site).2.blame = .proxy := blamed
      refine ⟨identity, ids ▸ present, ?_, ?_⟩
      · simp [identityReport, onProxy, endpointReport, affects, Blame.hasIdentity, failed,
          priorEndpoint, freshHealth, hs]
      · simp [identityReport, onProxy, globalReport, affects, Blame.hasIdentity, failed,
          priorGlobal]

end Reports

/-! ## Two runs -/

/-- An identity hash without the global score and streak. -/
def healthless (id : Identity) : Identity :=
  { id with gs := none, gts := none, gn := 0, gnf := 0, glf := 0 }

/-- The same hot state but for the health of identities. -/
structure HealthApart (first second : Site) : Prop where
  frame : second = { first with id := second.id, hs := second.hs, dirty := second.dirty }
  identities : ∀ i, (second.id i).map healthless = (first.id i).map healthless

/-- The replies agree on all that does not come from the health of the identity. -/
structure ReplyAlike (first second : ObserveReply) : Prop where
  blame : second.blame = first.blame
  suppressed : second.suppressed = first.suppressed
  idState : second.idState = first.idState
  account : second.account = first.account
  proxyStreak : second.proxyStreak = first.proxyStreak
  counts : second.counts = first.counts
  bans : second.bans = first.bans

section Apart

variable (args : ObserveArgs)

theorem endpoint_report_frame (site : Site) (i : Hkey) (blame : Blame) :
    (endpointReport args site i blame).site =
      { site with
        hs := (endpointReport args site i blame).site.hs
        dirty := (endpointReport args site i blame).site.dirty } := by
  unfold endpointReport
  dsimp only
  split_ifs <;> rfl

theorem global_report_frame (site : Site) (i : Hkey) (identity : Identity) (blame : Blame) :
    (globalReport args site i identity blame).site =
      { site with
        id := (globalReport args site i identity blame).site.id
        dirty := (globalReport args site i identity blame).site.dirty } := by
  unfold globalReport
  dsimp only
  split_ifs <;> rfl

/-- The values of the reply that come from the proxy, the counters and the bans. -/
def otherValues (args : ObserveArgs) (site : Site) (blame : Blame) (i : Hkey) (acc : Option Hkey) :
    Int × List Int × List Nat :=
  let proxied := proxyReport args site blame
  let counted := counterReport args i acc proxied.1
  (proxied.2, counted.2, banCounts args counted.1 i)

theorem other_values_apart (site : Site) (blame : Blame) (i : Hkey) (acc : Option Hkey)
    (id : Hkey → Option Identity) (hs : Hkey → Hkey → Option Health) (dirty : Finset Dirty) :
    otherValues args { site with id := id, hs := hs, dirty := dirty } blame i acc =
      otherValues args site blame i acc := by
  obtain ⟨first, proxied⟩ := proxy_report_blind args blame site id hs dirty
  obtain ⟨second, counted⟩ :=
    counter_report_blind args i acc (proxyReport args site blame).1 id hs first
  simp only at proxied
  simp only [otherValues, proxied, counted]
  rfl

theorem identity_report_values (crossed : Site × Attribution) (i : Hkey) (identity : Identity) :
    let reply := (identityReport args crossed i identity).2
    (reply.proxyStreak, reply.counts, reply.bans) =
      otherValues args crossed.1 crossed.2.blame i identity.acc := by
  let endpoint := endpointReport args crossed.1 i crossed.2.blame
  let global := globalReport args endpoint.site i identity crossed.2.blame
  have frame : global.site = { crossed.1 with
      id := global.site.id, hs := endpoint.site.hs, dirty := global.site.dirty } := by
    have first : endpoint.site = _ := endpoint_report_frame args crossed.1 i crossed.2.blame
    have second : global.site = _ := global_report_frame args endpoint.site i identity crossed.2.blame
    rw [second, first]
  have values : otherValues args global.site crossed.2.blame i identity.acc =
      otherValues args crossed.1 crossed.2.blame i identity.acc := by
    rw [frame]
    exact other_values_apart args crossed.1 crossed.2.blame i identity.acc _ _ _
  exact values

/-- Full calls on states that differ in the health of identities give like replies. -/
theorem observe_full_alike {first second : Site} (apart : HealthApart first second) :
    ReplyAlike (observeFull args first).2 (observeFull args second).2 := by
  obtain ⟨marked, crossed⟩ :=
    attribute_blame_blind args first second.id second.hs second.dirty
  rw [← apart.frame] at crossed
  have attribution : (attributeBlame args second).2 = (attributeBlame args first).2 := by
    rw [crossed]
  have read : ∀ i, ((attributeBlame args second).1.id i).map healthless =
      ((attributeBlame args first).1.id i).map healthless := by
    intro i
    rw [(attribute_blame_blind args).id, (attribute_blame_blind args).id, apart.identities]
  have base : ReplyAlike (baseReply args (attributeBlame args first))
      (baseReply args (attributeBlame args second)) := by
    have known : (args.ident.bind (attributeBlame args second).1.id).map healthless =
        (args.ident.bind (attributeBlame args first).1.id).map healthless := by
      cases args.ident with
      | none => rfl
      | some i => exact read i
    have states : (args.ident.bind (attributeBlame args second).1.id).map Identity.st =
        (args.ident.bind (attributeBlame args first).1.id).map Identity.st := by
      have same := congrArg (Option.map Identity.st) known
      rwa [Option.map_map, Option.map_map] at same
    have accounts : (args.ident.bind (attributeBlame args second).1.id).bind Identity.acc =
        (args.ident.bind (attributeBlame args first).1.id).bind Identity.acc := by
      have same := congrArg (fun id => Option.bind id Identity.acc) known
      rwa [Option.bind_map, Option.bind_map] at same
    constructor <;> simp [baseReply, replyBase, attribution, states, accounts]
  rw [observe_full_attributed, observe_full_attributed]
  unfold attributedReport
  cases ident : args.ident with
  | none => exact base
  | some i =>
    rw [attribution]
    simp only [Option.bind_some]
    have same := read i
    cases one : (attributeBlame args first).1.id i with
    | none =>
      rw [one, Option.map_none, Option.map_eq_none_iff] at same
      rw [same]
      exact base
    | some old =>
      rw [one, Option.map_some] at same
      obtain ⟨new, two, alike⟩ := Option.map_eq_some_iff.mp same
      have account : new.acc = old.acc := by
        have accounts := congrArg Identity.acc alike
        exact accounts
      rw [two]
      dsimp only
      split_ifs
      · exact base
      · have values := identity_report_values args (attributeBlame args second) i new
        have others : otherValues args (attributeBlame args second).1
            (attributeBlame args second).2.blame i new.acc =
            otherValues args (attributeBlame args first).1
              (attributeBlame args first).2.blame i old.acc := by
          rw [crossed, account]
          exact other_values_apart args ..
        have before := identity_report_values args (attributeBlame args first) i old
        obtain ⟨streak, rest⟩ := Prod.mk.inj (values.trans (others.trans before.symm))
        obtain ⟨counts, bans⟩ := Prod.mk.inj rest
        exact ⟨base.blame, base.suppressed, base.idState, base.account, streak, counts, bans⟩

end Apart

/-! ## Plans -/

/-- Inputs that agree on all that a plan against the proxy alone can use. -/
structure InputAlike (first second : EvalInput) : Prop where
  outcome : second.outcome = first.outcome
  hasProxy : second.hasProxy = first.hasProxy
  counts : second.counts = first.counts
  proxyStreak : second.proxyStreak = first.proxyStreak
  jitter : second.jitter = first.jitter

def onProxy (a : PlannedAction) : Bool := decide (a.scope.subject = some .proxy)

section Plans

variable {c : CompiledAction} {first second input : EvalInput}

open CompiledAction

theorem planned_scope_proxy {m : ActionMatcher} {scope : ActionScope}
    (planned : plannedScope m input .proxy = some scope) :
    scope = m.scope ∧ m.scope.subject = some .proxy := by
  unfold plannedScope at planned
  split at planned
  · cases planned
  · cases planned
  · next subject =>
    split_ifs at planned
    exact ⟨(Option.some.inj planned).symm, subject⟩
  · cases planned

theorem planned_scope_alike (alike : InputAlike first second) (m : ActionMatcher) :
    plannedScope m second .proxy = plannedScope m first .proxy := by
  unfold plannedScope
  rw [alike.hasProxy]
  split <;> rfl

theorem streak_for_proxy (alike : InputAlike first second) {scope : ActionScope}
    (subject : scope.subject = some .proxy) : streakFor scope second = streakFor scope first := by
  cases scope with
  | proxySite => exact alike.proxyStreak
  | proxy => exact alike.proxyStreak
  | _ => cases subject

/-- A rule plans against the proxy from the streak of the proxy and the rule alone. -/
theorem plan_rule_alike (alike : InputAlike first second) (m : ActionMatcher) (factor : ℚ) :
    c.planRule m second .proxy factor = c.planRule m first .proxy factor := by
  unfold planRule
  rw [planned_scope_alike alike]
  cases planned : plannedScope m first .proxy with
  | none => rw [Option.map_none, Option.map_none]
  | some scope =>
    obtain ⟨rfl, subject⟩ := planned_scope_proxy planned
    have gate : ¬m.scope.subject ≠ some SubjectKind.proxy := fun other => other subject
    have streaks := streak_for_proxy alike subject
    rw [Option.map_some, Option.map_some]
    cases m.action with
    | cooldown => rw [streaks]
    | ban => simp only [if_neg gate]
    | _ => rfl

theorem plan_rule_subject {m : ActionMatcher} {factor : ℚ} {pa : PlannedAction}
    (planned : c.planRule m input .proxy factor = some pa) : pa.scope.subject = some .proxy := by
  obtain ⟨scope, passed, rfl⟩ := Option.map_eq_some_iff.mp planned
  obtain ⟨rfl, subject⟩ := planned_scope_proxy passed
  dsimp only
  split
  · exact subject
  · simp only [subject, ne_eq, not_true, if_false]
    split_ifs <;> exact subject
  · exact subject
  · exact subject

theorem rule_step_alike (alike : InputAlike first second) :
    c.ruleStep second .proxy = c.ruleStep first .proxy := by
  funext state m
  have matched : ruleMatches m second = ruleMatches m first := by
    simp only [ruleMatches, alike.outcome, alike.counts]
  simp only [ruleStep, matched, alike.jitter, plan_rule_alike alike]

theorem rules_plan_proxy (rules : List ActionMatcher) {state : List PlannedAction × Nat}
    (before : ∀ pa ∈ state.1, pa.scope.subject = some .proxy) :
    ∀ pa ∈ (rules.foldl (c.ruleStep input .proxy) state).1, pa.scope.subject = some .proxy := by
  induction rules generalizing state with
  | nil => exact before
  | cons m rest ih =>
    refine ih ?_
    unfold ruleStep
    split
    · cases planned : c.planRule m input .proxy (jitterFactor input.jitter state.2) with
      | none => exact before
      | some pa =>
        intro action member
        rcases List.mem_append.mp member with old | new
        · exact before action old
        · obtain rfl := List.mem_singleton.mp new
          exact plan_rule_subject planned
    · exact before

/-- The score test behind the health actions of a scope, on scores with their samples. -/
def LowScore (c : CompiledAction) (endpoint global : ℚ × Int) : ActionScope → Prop
  | .identityEndpoint =>
    c.health.endpointLowMinSamples ≤ endpoint.2 ∧ endpoint.1 < c.health.endpointLowScore
  | .identity => c.health.quarantineMinSamples ≤ global.2 ∧ global.1 < c.health.quarantineScore
  | _ => False

theorem health_actions_proxy {pa : PlannedAction} (member : pa ∈ c.healthActions input .proxy) :
    isFailureOutcome input.outcome = true ∧ pa.source = .health ∧
      pa.scope.subject = some .identity ∧
      LowScore c (input.endpointScore, input.endpointSamples)
        (input.globalScore, input.globalSamples) pa.scope := by
  unfold healthActions at member
  split at member
  · cases member
  · next fails =>
    have failure : isFailureOutcome input.outcome = true := by
      simpa [Blame.hasIdentity] using fails
    rcases List.mem_append.mp member with low | quarantine
    · split_ifs at low with test
      · obtain rfl := List.mem_singleton.mp low
        exact ⟨failure, rfl, rfl, test.1, test.2.1⟩
      · cases low
    · split_ifs at quarantine with test
      · obtain rfl := List.mem_singleton.mp quarantine
        exact ⟨failure, rfl, rfl, test⟩
      · cases quarantine

theorem evaluate_proxy (failed : input.outcome ≠ .success) (blamed : input.blame = some .proxy) :
    c.evaluate input =
      mostSevere ((c.rules.foldl (c.ruleStep input .proxy) ([], 0)).1 ++
        c.healthActions input .proxy) := by
  have inactive : ¬(input.identityState = some .pending ∧ input.outcome = .success) :=
    fun both => failed both.2
  simp only [evaluate, blamed, effectiveBlame, Option.getD_some, if_neg inactive]

theorem evaluate_proxy_subjects (failed : input.outcome ≠ .success)
    (blamed : input.blame = some .proxy) {a : PlannedAction} (member : a ∈ c.evaluate input) :
    a.scope.subject = some .proxy ∨
      isFailureOutcome input.outcome = true ∧ a.source = .health ∧
        LowScore c (input.endpointScore, input.endpointSamples)
          (input.globalScore, input.globalSamples) a.scope := by
  rw [evaluate_proxy failed blamed] at member
  obtain ⟨pa, listed, rfl⟩ := mem_most_severe member
  rcases List.mem_append.mp listed with ruled | health
  · exact .inl (rules_plan_proxy c.rules (fun _ none => absurd none List.not_mem_nil) pa ruled)
  · obtain ⟨failure, source, -, low⟩ := health_actions_proxy health
    exact .inr ⟨failure, source, low⟩

/-- Like inputs plan the same for the proxy, and the same at all unless the outcome is a failure. -/
theorem evaluate_proxy_alike (alike : InputAlike first second) (failed : first.outcome ≠ .success)
    (blamed : first.blame = some .proxy) (blamedToo : second.blame = some .proxy) :
    (c.evaluate second).filter onProxy = (c.evaluate first).filter onProxy ∧
      (isFailureOutcome first.outcome = false → c.evaluate second = c.evaluate first) := by
  have failedToo : second.outcome ≠ .success := alike.outcome ▸ failed
  have apart : ∀ (input : EvalInput), ∀ a ∈ c.healthActions input .proxy,
      a.scope.subject ≠ some .proxy := by
    intro input a member same
    rw [(health_actions_proxy member).2.2.1] at same
    cases same
  have none : ∀ input : EvalInput, isFailureOutcome input.outcome = false →
      c.healthActions input .proxy = [] := by
    intro input harmless
    simp [healthActions, Blame.hasIdentity, harmless]
  rw [evaluate_proxy failedToo blamedToo, evaluate_proxy failed blamed, rule_step_alike alike]
  refine ⟨?_, fun harmless => ?_⟩
  · have proxies := most_severe_proxy
    unfold onProxy
    rw [proxies, proxies, winner_append_other (apart second), winner_append_other (apart first)]
  · rw [none first harmless, none second (alike.outcome ▸ harmless)]

end Plans

/-! ## Processed reports -/

section Processed

variable {p : ReportParams} {exp : ℚ → ℚ} {jitter : Option (Nat → ℚ)} {site other : Site}
  {obs : ObserveReply}

/-- An applied report ran the full script on the state with the checkpoint advanced. -/
theorem observe_applied
    (applied : (observe p.shard p.streamId (some (observeArgs p exp)) site).2 = .applied obs) :
    let advanced := { site with
      ckpt := Function.update site.ckpt p.shard (some p.streamId) }
    ((site.ckpt p.shard).any fun prev => duplicate prev p.streamId) = false ∧
      (observe p.shard p.streamId (some (observeArgs p exp)) site).1 =
        (observeFull (observeArgs p exp) advanced).1 ∧
      obs = (observeFull (observeArgs p exp) advanced).2 := by
  by_cases seen : ((site.ckpt p.shard).any fun prev => duplicate prev p.streamId) = true
  · rw [observe, if_pos seen] at applied
    cases applied
  · rw [observe, if_neg seen] at applied
    refine ⟨Bool.eq_false_iff.mpr seen, by rw [observe, if_neg seen], ?_⟩
    exact (Observed.applied.inj applied).symm

/-- The same report on a state that differs in the health of identities is applied as well, with a
like reply. -/
theorem observe_applied_apart (apart : HealthApart site other)
    (applied : (observe p.shard p.streamId (some (observeArgs p exp)) site).2 = .applied obs) :
    ∃ reply, (observe p.shard p.streamId (some (observeArgs p exp)) other).2 = .applied reply ∧
      ReplyAlike obs reply := by
  obtain ⟨fresh, -, rfl⟩ := observe_applied applied
  have checkpoints : other.ckpt = site.ckpt := by rw [apart.frame]
  have unseen : ¬((other.ckpt p.shard).any fun prev => duplicate prev p.streamId) = true := by
    rw [checkpoints, fresh]
    exact Bool.false_ne_true
  have advanced : HealthApart
      { site with ckpt := Function.update site.ckpt p.shard (some p.streamId) }
      { other with ckpt := Function.update other.ckpt p.shard (some p.streamId) } := by
    refine ⟨?_, apart.identities⟩
    rw [checkpoints]
    exact congrArg (fun base : Site =>
      { base with ckpt := Function.update site.ckpt p.shard (some p.streamId) }) apart.frame
  refine ⟨_, ?_, observe_full_alike (observeArgs p exp) advanced⟩
  rw [observe, if_neg unseen]

theorem planned_alike {reply : ObserveReply} (alike : ReplyAlike obs reply)
    (failed : p.outcome ≠ .success) (blamed : obs.blame = .proxy) :
    (plannedActions p reply jitter).filter onProxy = (plannedActions p obs jitter).filter onProxy ∧
      (isFailureOutcome p.outcome = false →
        plannedActions p reply jitter = plannedActions p obs jitter) := by
  have inputs : InputAlike (evalInput p obs jitter) (evalInput p reply jitter) :=
    { outcome := rfl
      hasProxy := rfl
      counts := by simp only [evalInput, alike.counts]
      proxyStreak := alike.proxyStreak
      jitter := rfl }
  have blamedToo : (evalInput p reply jitter).blame = some .proxy := by
    simp only [evalInput, alike.blame, blamed]
  have blamedFirst : (evalInput p obs jitter).blame = some .proxy := by
    simp only [evalInput, blamed]
  unfold plannedActions
  rw [alike.suppressed, alike.idState]
  split
  · exact evaluate_proxy_alike inputs failed blamedFirst blamedToo
  · exact ⟨rfl, fun _ => rfl⟩

/-- A failed report whose final blame is the proxy alone: no score of an identity moves and
streaks move after failure outcomes only; what is planned besides the proxy are the health actions
of a failure outcome, for a score that is low before the report; and the health of identities
decides nothing of the plan for the proxy, nor, unless the outcome is a failure, of the plan at
all. -/
theorem proxy_blame_spares_identity
    (applied : (observe p.shard p.streamId (some (observeArgs p exp)) site).2 = .applied obs)
    (failed : p.outcome ≠ .success) (blamed : obs.blame = .proxy) :
    let after := (processLeased p exp jitter site).1
    let planned := (processLeased p exp jitter site).2
    ScoresKept (observeArgs p exp) site after ∧
    (isFailureOutcome p.outcome = false → after.hs = site.hs ∧ after.id = site.id) ∧
    (∀ action ∈ planned, action.scope.subject = some .proxy ∨
      isFailureOutcome p.outcome = true ∧ action.source = .health ∧
        ∃ id, site.id p.identityKey = some id ∧
          LowScore p.action (priorEndpoint (observeArgs p exp) site p.identityKey)
            (priorGlobal (observeArgs p exp) id) action.scope) ∧
    ∀ other, HealthApart site other →
      (processLeased p exp jitter other).2.filter onProxy = planned.filter onProxy ∧
      (isFailureOutcome p.outcome = false → (processLeased p exp jitter other).2 = planned) := by
  intro after planned
  obtain ⟨-, moved, reply⟩ := observe_applied applied
  have unsuccessful : (observeArgs p exp).success = false := decide_eq_false failed
  have kept : ScoresKept (observeArgs p exp) site after := by
    have full := observe_full_proxy unsuccessful (reply ▸ blamed)
    rw [← moved] at full
    exact ⟨full.endpoint, full.global⟩
  have plan : planned = plannedActions p obs jitter := by
    simp only [planned, processLeased, applied]
  refine ⟨kept, fun harmless => ?_, fun action member => ?_, fun other apart => ?_⟩
  · have still : ¬(observeArgs p exp).failure = true := by
      rw [Bool.not_eq_true]
      exact harmless
    refine ⟨funext fun eg => funext fun i => ?_, funext fun i => ?_⟩
    · exact (kept.endpoint eg i).resolve_right fun fails => still fails.1
    · exact (kept.global i).resolve_right fun fails => still fails.1
  · rw [plan] at member
    unfold plannedActions at member
    split at member
    · next acted =>
      refine (evaluate_proxy_subjects failed (by simp only [evalInput, blamed]) member).imp_right
        fun health => ⟨health.1, health.2.1, ?_⟩
      obtain ⟨counted, inTime, known⟩ := acted
      rw [reply] at blamed counted known
      obtain ⟨id, present, endpoint, global⟩ :=
        observe_full_prior unsuccessful rfl inTime blamed counted known
      refine ⟨id, present, ?_⟩
      have low := health.2.2
      dsimp only [evalInput] at low
      rw [reply, endpoint, global] at low
      exact low
    · cases member
  · obtain ⟨again, appliedToo, alike⟩ := observe_applied_apart apart applied
    have planToo : (processLeased p exp jitter other).2 = plannedActions p again jitter := by
      simp only [processLeased, appliedToo]
    rw [plan, planToo]
    exact planned_alike alike failed blamed

end Processed

/-! ## Reports on concrete states -/

/-- The built-in health settings, with one rule that cools a proxy down on a proxy error. -/
def proxyPolicy : CompiledAction where
  health :=
    { alpha := 1 / 10, baseline := 70, tau := .scaled 21600 .second
      endpointLowScore := 15, endpointLowMinSamples := 10, endpointLowCooldown := 21600000000000
      quarantineScore := 20, quarantineMinSamples := 10, quarantineDuration := 86400000000000 }
  crossAttribution :=
    { enabled := false, window := .scaled 600 .second
      proxyDistinctIdentities := 3, identityDistinctProxies := 3 }
  rules :=
    [{ index := 0, name := "proxy", outcomes := {.proxyError}, hasCount := false, countGte := 0
       countWindow := 0, subject := .proxy, action := .cooldown, scope := .proxySite
       base := 60000000000, maxDur := 0, multiplier := 1, maxExponent := 10, duration := 0
       permanent := false }]
  escalation := []
  counters := fun _ => []
  escalationWindows := []
  observations := fun outcome => if outcome = .rateLimited then some 30 else none
  failureResetAfter := 3600000000000

/-- A report of identity 7 through proxy 3 that classification blames on the proxy. -/
def proxyBlamed (outcome : Outcome) : ReportParams where
  shard := 0
  streamId := { ms := 1, seq := 0 }
  now := 1000
  leaseId := { lead := "a", shard := 0 }
  group := 1
  breaker := none
  quotas := []
  action := proxyPolicy
  identityKey := 7
  proxyKey := some 3
  outcome := outcome
  blame := .proxy
  late := false

def ratedSite (health : Option Health) : Site where
  id := Function.update (fun _ => none) 7 (some (plainIdentity "idt_7" .active))
  hs := Function.update (fun _ _ => none) 1 (Function.update (fun _ => none) 7 health)

def wornHealth : Health := { score := 10, sts := 1000, samples := 20 }

theorem rated_sites_apart (first second : Option Health) :
    HealthApart (ratedSite first) (ratedSite second) := ⟨rfl, fun _ => rfl⟩

/-- A proxy error leaves a worn and an unrated identity alike, with the same plan. -/
theorem proxy_error_spares_identity :
    (processLeased (proxyBlamed .proxyError) id none (ratedSite (some wornHealth))).1.hs =
        (ratedSite (some wornHealth)).hs ∧
      (processLeased (proxyBlamed .proxyError) id none (ratedSite none)).2 =
        (processLeased (proxyBlamed .proxyError) id none (ratedSite (some wornHealth))).2 ∧
      (processLeased (proxyBlamed .proxyError) id none (ratedSite none)).2.map
        PlannedAction.scope = [.proxySite] := by
  obtain ⟨-, still, -, runs⟩ :=
    @proxy_blame_spares_identity (proxyBlamed .proxyError) id none (ratedSite (some wornHealth))
      _ rfl (by decide) rfl
  exact ⟨(still rfl).1, (runs _ (rated_sites_apart _ none)).2 rfl, by decide +kernel⟩

/-- A rate limit blamed on the proxy alone raises the streak of the identity, and cools the
identity down when its score is low. -/
theorem rate_limited_proxy_charges_identity :
    (∃ obs, (observe 0 { ms := 1, seq := 0 } (some (observeArgs (proxyBlamed .rateLimited) id))
        (ratedSite (some wornHealth))).2 = .applied obs ∧ obs.blame = .proxy) ∧
      ((ratedSite (some wornHealth)).hs 1 7).map Health.nfail = some 0 ∧
      ((processLeased (proxyBlamed .rateLimited) id none
        (ratedSite (some wornHealth))).1.hs 1 7).map Health.nfail = some 1 ∧
      (processLeased (proxyBlamed .rateLimited) id none (ratedSite (some wornHealth))).2.map
        (fun action => (action.action, action.scope)) = [(.cooldown, .identityEndpoint)] ∧
      HealthApart (ratedSite (some wornHealth)) (ratedSite none) ∧
      (processLeased (proxyBlamed .rateLimited) id none (ratedSite none)).2 = [] :=
  ⟨⟨_, rfl, rfl⟩, by decide +kernel, by decide +kernel, by decide +kernel, rated_sites_apart _ _,
    by decide +kernel⟩

end Spinneret.Worker
