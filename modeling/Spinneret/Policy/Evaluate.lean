import Mathlib.Algebra.Order.Round
import Mathlib.Data.Rat.Floor
import Mathlib.Data.Finset.Basic
import Spinneret.Policy.Breaker
import Spinneret.Worker.Observe

/-!
# Evaluation of action policies

A classified report is turned into planned actions: rules that match the outcome
plan an action for their subject when the blame includes it, low scores plan a
cooldown or a quarantine, and at most one action per subject remains. Durations
are nanoseconds, random values are drawn one per planned cooldown rule.
-/

namespace Spinneret.Policy

open Spinneret.HotState Spinneret.Worker

set_option autoImplicit false

/-! ## Outcomes and blame -/

def isRiskOutcome : Outcome → Bool
  | .rateLimited | .captcha | .forbidden | .banned => true
  | _ => false

/-- Outcomes that always count for the failure streak of the identity. -/
def isFailureOutcome : Outcome → Bool
  | .empty | .rateLimited | .captcha | .authInvalid | .forbidden | .banned => true
  | _ => false

def defaultBlame : Outcome → Blame
  | .empty | .captcha | .authInvalid | .forbidden | .banned => .identity
  | .rateLimited => .both
  | .proxyError | .networkError => .proxy
  | _ => .none

def effectiveBlame (outcome : Outcome) (blame : Option Blame) : Blame :=
  blame.getD (defaultBlame outcome)

/-! ## Actions -/

inductive ActionKind where
  | cooldown | expire | quarantine | ban | activate
  | other (text : String)
  deriving DecidableEq, Repr

inductive ActionScope where
  | identityEndpoint | identitySite | identity | account | proxySite | proxy
  | other (text : String)
  deriving DecidableEq, Repr

def ActionScope.subject : ActionScope → Option SubjectKind
  | .identityEndpoint | .identitySite | .identity => some .identity
  | .account => some .account
  | .proxySite | .proxy => some .proxy
  | .other _ => none

inductive ActionSource where
  | rule | health | lifecycle | escalation
  deriving DecidableEq, Repr

structure PlannedAction where
  action : ActionKind
  scope : ActionScope
  duration : Int := 0
  permanent : Bool := false
  severity : Int := 0
  ruleIndex : Int
  ruleName : String
  source : ActionSource
  deriving DecidableEq, Repr

/-- Severity levels; the stored severity is ignored. -/
def severityOf (a : PlannedAction) : Int :=
  match a.action with
  | .activate => 0
  | .cooldown => 1
  | .quarantine => 2
  | .expire => 3
  | .ban => if a.permanent then 5 else 4
  | .other _ => -1

def maxInt64 : Int := 2 ^ 63 - 1

def effectiveDuration (a : PlannedAction) : Int := if a.permanent then maxInt64 else a.duration

def scopeBreadth : ActionScope → Int
  | .identityEndpoint | .proxySite => 0
  | .identitySite | .proxy | .account => 1
  | .identity => 2
  | .other _ => -1

def moreSevere (a b : PlannedAction) : Bool :=
  if severityOf a ≠ severityOf b then decide (severityOf b < severityOf a)
  else if effectiveDuration a ≠ effectiveDuration b then
    decide (effectiveDuration b < effectiveDuration a)
  else if scopeBreadth a.scope ≠ scopeBreadth b.scope then
    decide (scopeBreadth b.scope < scopeBreadth a.scope)
  else decide (a.ruleIndex < b.ruleIndex)

/-- The winner per subject so far; `none` collects unknown scopes. -/
abbrev Winners := Option SubjectKind → Option PlannedAction

def contend (best : Winners) (a : PlannedAction) : Winners :=
  let group := a.scope.subject
  match best group with
  | none => Function.update best group (some a)
  | some b => if moreSevere a b then Function.update best group (some a) else best

def mostSevere (actions : List PlannedAction) : List PlannedAction :=
  let best := actions.foldl contend fun _ => none
  ([some .identity, some .account, some .proxy, none].filterMap best).map fun a =>
    { a with severity := severityOf a }

theorem contend_other {best : Winners} {a : PlannedAction} {group : Option SubjectKind}
    (other : a.scope.subject ≠ group) : contend best a group = best group := by
  unfold contend
  cases best a.scope.subject with
  | none => exact Function.update_of_ne (Ne.symm other) _ _
  | some b =>
    dsimp only
    split_ifs
    · exact Function.update_of_ne (Ne.symm other) _ _
    · rfl

theorem contend_cases (best : Winners) (a : PlannedAction) :
    contend best a a.scope.subject = some a ∨
      contend best a a.scope.subject = best a.scope.subject := by
  unfold contend
  cases standing : best a.scope.subject with
  | none => exact .inl (Function.update_self ..)
  | some b =>
    dsimp only
    split_ifs
    · exact .inl (Function.update_self ..)
    · exact .inr standing

theorem winner_mem {actions : List PlannedAction} {best : Winners} {group : Option SubjectKind}
    {a : PlannedAction} (won : actions.foldl contend best group = some a) :
    best group = some a ∨ a ∈ actions ∧ a.scope.subject = group := by
  induction actions generalizing best with
  | nil => exact .inl won
  | cons action rest ih =>
    rcases ih won with earlier | ⟨member, subject⟩
    · by_cases here : action.scope.subject = group
      · subst here
        rcases contend_cases best action with taken | kept
        · rw [taken] at earlier
          obtain rfl := Option.some.inj earlier
          exact .inr ⟨List.mem_cons_self, rfl⟩
        · exact .inl (kept ▸ earlier)
      · rw [contend_other here] at earlier
        exact .inl earlier
    · exact .inr ⟨List.mem_cons_of_mem _ member, subject⟩

/-- Actions of other subjects do not decide a winner. -/
theorem winner_append_other {actions others : List PlannedAction} {best : Winners}
    {group : Option SubjectKind} (apart : ∀ a ∈ others, a.scope.subject ≠ group) :
    (actions ++ others).foldl contend best group = actions.foldl contend best group := by
  rw [List.foldl_append]
  generalize actions.foldl contend best = reached
  induction others generalizing reached with
  | nil => rfl
  | cons action rest ih =>
    rw [List.foldl_cons, ih fun a member => apart a (List.mem_cons_of_mem _ member),
      contend_other (apart action List.mem_cons_self)]

theorem mem_most_severe {actions : List PlannedAction} {a : PlannedAction}
    (kept : a ∈ mostSevere actions) :
    ∃ b ∈ actions, a = { b with severity := severityOf b } := by
  simp only [mostSevere, List.mem_map, List.mem_filterMap] at kept
  obtain ⟨b, ⟨group, -, won⟩, rfl⟩ := kept
  rcases winner_mem won with none | ⟨member, -⟩
  · cases none
  · exact ⟨b, member, rfl⟩

theorem most_severe_proxy (actions : List PlannedAction) :
    (mostSevere actions).filter (fun a => decide (a.scope.subject = some .proxy)) =
      (actions.foldl contend (fun _ => none) (some .proxy)).toList.map fun a =>
        { a with severity := severityOf a } := by
  have subjects : ∀ group a, actions.foldl contend (fun _ => none) group = some a →
      a.scope.subject = group := by
    intro group a won
    rcases winner_mem won with none | ⟨-, subject⟩
    · cases none
    · exact subject
  have identity := subjects (some .identity)
  have account := subjects (some .account)
  have proxy := subjects (some .proxy)
  have unknown := subjects none
  unfold mostSevere
  dsimp only
  cases first : actions.foldl contend (fun _ => none) (some .identity) <;>
    cases second : actions.foldl contend (fun _ => none) (some .account) <;>
    cases third : actions.foldl contend (fun _ => none) (some .proxy) <;>
    cases fourth : actions.foldl contend (fun _ => none) none <;>
    simp_all

/-! ## Cooldowns -/

/-- Exponential backoff with a cap and jitter, in whole milliseconds. -/
def cooldownDuration (base maxDur : Int) (multiplier : ℚ) (maxExponent streak : Int)
    (jitter : ℚ) : Int :=
  if base ≤ 0 then 0
  else
    let factor := if 1 ≤ multiplier then multiplier else 1
    let spread := if jitter < 8 / 10 then 8 / 10 else if 12 / 10 < jitter then 12 / 10 else jitter
    let exponent := min (max streak 1 - 1) (max maxExponent 0)
    let raised : ℚ := base * factor ^ exponent.toNat
    let capped : ℚ := if 0 < maxDur ∧ (maxDur : ℚ) < raised then maxDur else raised
    let d := capped * spread
    if 2 ^ 63 ≤ d then maxInt64
    else
      let ms := max (round (d / 1000000)) 1
      if 2 ^ 63 ≤ ms * 1000000 then maxInt64 else ms * 1000000

/-- The factor of the `k`-th draw; without a source there is no jitter. -/
def jitterFactor (jitter : Option (Nat → ℚ)) (k : Nat) : ℚ :=
  match jitter with
  | none => 1
  | some draw =>
    let j := if draw k < 0 then 0 else if 1 < draw k then 1 else draw k
    8 / 10 + 4 / 10 * j

/-! ## Compiled policies -/

structure CounterRequest where
  subject : SubjectKind
  outcome : Outcome
  window : Int
  deriving DecidableEq

structure ActionMatcher where
  index : Int
  name : String
  outcomes : Finset Outcome
  hasCount : Bool
  countGte : Int
  countWindow : Int
  subject : SubjectKind
  action : ActionKind
  scope : ActionScope
  base : Int
  maxDur : Int
  multiplier : ℚ
  maxExponent : Int
  duration : Int
  permanent : Bool

structure EscalationStep where
  gte : Int
  window : Int
  duration : Int
  permanent : Bool

structure HealthSpec where
  alpha : ℚ
  baseline : ℚ
  tau : Duration
  endpointLowScore : ℚ
  endpointLowMinSamples : Int
  endpointLowCooldown : Int
  quarantineScore : ℚ
  quarantineMinSamples : Int
  quarantineDuration : Int

structure CrossAttributionSpec where
  enabled : Bool
  window : Duration
  proxyDistinctIdentities : Int
  identityDistinctProxies : Int

/-- A compiled rule chain; an outcome without an observation does not move scores. -/
structure CompiledAction where
  health : HealthSpec
  crossAttribution : CrossAttributionSpec
  rules : List ActionMatcher
  escalation : List EscalationStep
  counters : Outcome → List CounterRequest
  escalationWindows : List Int
  observations : Outcome → Option ℚ
  failureResetAfter : Int

/-- Counts are `int64` in the code; ban counts are below `2 ^ 63 - 1`, where the one that is
added would wrap. -/
structure EvalInput where
  outcome : Outcome
  blame : Option Blame
  identityState : Option IdState
  hasAccount : Bool
  hasProxy : Bool
  counts : CounterRequest → Int
  banCounts : Int → Int
  endpointStreak : Int
  siteStreak : Int
  proxyStreak : Int
  endpointScore : ℚ
  endpointSamples : Int
  globalScore : ℚ
  globalSamples : Int
  endpointCooldownRemaining : Int
  jitter : Option (Nat → ℚ)

namespace CompiledAction

variable (c : CompiledAction)

def observation (outcome : Outcome) (blame : Option Blame) : ℚ × Bool :=
  match c.observations outcome with
  | none => (0, false)
  | some value =>
    if outcome = .success then (value, true)
    else (value, (effectiveBlame outcome blame).hasIdentity)

def proxyObservation (outcome : Outcome) (blame : Option Blame) : ℚ × Bool :=
  let blame := effectiveBlame outcome blame
  match outcome with
  | .success => (100, true)
  | .proxyError => (0, blame.hasProxy)
  | .networkError => (40, blame.hasProxy)
  | .rateLimited => (30, blame.hasProxy)
  | _ => (0, false)

def stepLonger (a b : EscalationStep) : Bool :=
  if a.permanent ≠ b.permanent then a.permanent else decide (b.duration < a.duration)

/-- The step with the highest threshold that the bans reach. -/
def bestStep (input : EvalInput) : Option EscalationStep :=
  c.escalation.foldl
    (fun best st =>
      if input.banCounts st.window + 1 < st.gte then best
      else
        match best with
        | none => some st
        | some b => if b.gte < st.gte ∨ (st.gte = b.gte ∧ stepLonger st b) then some st else some b)
    none

def escalate (pa : PlannedAction) (input : EvalInput) : PlannedAction :=
  match c.bestStep input with
  | none => pa
  | some st =>
    if st.permanent then { pa with permanent := true, duration := 0, source := .escalation }
    else if pa.duration < st.duration then
      { pa with duration := st.duration, source := .escalation }
    else pa

def streakFor (scope : ActionScope) (input : EvalInput) : Int :=
  match scope with
  | .identityEndpoint => input.endpointStreak
  | .proxySite | .proxy => input.proxyStreak
  | _ => input.siteStreak

/-- The scope a matching rule acts on, if the blame and the subjects at hand allow it. -/
def plannedScope (m : ActionMatcher) (input : EvalInput) (blame : Blame) : Option ActionScope :=
  match m.scope.subject with
  | some .identity => if blame.hasIdentity then some m.scope else none
  | some .account =>
    if blame.hasIdentity then
      if input.hasAccount then some m.scope
      else if m.action = .cooldown then some .identitySite else some .identity
    else none
  | some .proxy => if blame.hasProxy ∧ input.hasProxy then some m.scope else none
  | none => none

def planRule (m : ActionMatcher) (input : EvalInput) (blame : Blame) (factor : ℚ) :
    Option PlannedAction :=
  (plannedScope m input blame).map fun scope =>
    let pa : PlannedAction :=
      { action := m.action, scope := scope, ruleIndex := m.index, ruleName := m.name
        source := .rule }
    let planned := match m.action with
      | .cooldown =>
        { pa with
          duration := cooldownDuration m.base m.maxDur m.multiplier m.maxExponent
            (streakFor scope input) factor }
      | .ban =>
        if m.permanent then { pa with permanent := true }
        else
          let timed := { pa with duration := m.duration }
          if scope.subject ≠ some SubjectKind.proxy then c.escalate timed input else timed
      | .quarantine => { pa with duration := m.duration }
      | _ => pa
    { planned with severity := severityOf planned }

/-- Whether a rule lists the outcome and its counter reached the threshold. -/
def ruleMatches (m : ActionMatcher) (input : EvalInput) : Bool :=
  decide (input.outcome ∈ m.outcomes) && !(m.hasCount &&
    decide (input.counts { subject := m.subject, outcome := input.outcome, window := m.countWindow } <
      m.countGte))

/-- One rule: the actions planned so far and the number of random values drawn. -/
def ruleStep (input : EvalInput) (blame : Blame) (state : List PlannedAction × Nat)
    (m : ActionMatcher) : List PlannedAction × Nat :=
  if ruleMatches m input then
    match c.planRule m input blame (jitterFactor input.jitter state.2) with
    | none => state
    | some pa => (state.1 ++ [pa], if m.action = .cooldown then state.2 + 1 else state.2)
  else state

def activation : PlannedAction where
  action := .activate
  scope := .identity
  ruleIndex := -1
  ruleName := "lifecycle.activate"
  source := .lifecycle

def healthAction (action : ActionKind) (scope : ActionScope) (duration : Int) (name : String) :
    PlannedAction :=
  let pa : PlannedAction :=
    { action := action, scope := scope, duration := duration, ruleIndex := -1, ruleName := name
      source := .health }
  { pa with severity := severityOf pa }

/-- The actions of low scores, for a report that is blamed on the identity or a failure. -/
def healthActions (input : EvalInput) (blame : Blame) : List PlannedAction :=
  if !blame.hasIdentity && !isFailureOutcome input.outcome then []
  else
    (if c.health.endpointLowMinSamples ≤ input.endpointSamples ∧
        input.endpointScore < c.health.endpointLowScore ∧
        input.endpointCooldownRemaining < c.health.endpointLowCooldown then
      [healthAction .cooldown .identityEndpoint c.health.endpointLowCooldown "health.endpoint_low"]
    else []) ++
    (if c.health.quarantineMinSamples ≤ input.globalSamples ∧
        input.globalScore < c.health.quarantineScore then
      [healthAction .quarantine .identity c.health.quarantineDuration "health.quarantine"]
    else [])

/-- The actions planned for one report, at most one per subject. -/
def evaluate (input : EvalInput) : List PlannedAction :=
  let blame := effectiveBlame input.outcome input.blame
  let lifecycle :=
    if input.identityState = some .pending ∧ input.outcome = .success then [activation] else []
  let ruled := (c.rules.foldl (c.ruleStep input blame) (lifecycle, 0)).1
  mostSevere (ruled ++ c.healthActions input blame)

end CompiledAction

end Spinneret.Policy
