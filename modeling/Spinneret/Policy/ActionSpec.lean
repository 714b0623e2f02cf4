import Spinneret.Policy.Evaluate

/-!
# Action policies

An action policy as it is written, its validation with every problem it reports, and the
compilation of a chain of policies from the root to the leaf. Problems are located by the path
of their field; the texts of durations, numbers and quoted strings inside a message are given
by a rendering.
-/

namespace Spinneret.Policy

open Spinneret.HotState Spinneret.Worker

set_option autoImplicit false

/-! ## Problems -/

structure Problem where
  path : String
  message : String
  deriving DecidableEq, Repr

/-- How `%s`, `%v` and `%q` print a duration, a number and a string. -/
structure Rendering where
  duration : Duration → String
  number : ℚ → String
  quoted : String → String

def field (parent child : String) : String := if parent = "" then child else parent ++ "." ++ child

def item (parent : String) (i : Nat) : String := parent ++ "[" ++ toString i ++ "]"

def Duration.isPermanent (d : Duration) : Bool := decide (d = permanent)

def complain (wrong : Bool) (path message : String) : List Problem :=
  if wrong then [⟨path, message⟩] else []

section Checks

variable (r : Rendering)

/-- At least `minD` and, for a positive `maxD`, at most `maxD`; never permanent. -/
def checkDuration (path : String) (d : Duration) (minD maxD : Int) : List Problem :=
  if d.isPermanent then [⟨path, "must not be permanent"⟩]
  else if d.ns < minD then
    if minD = 0 then [⟨path, "must not be negative"⟩]
    else [⟨path, "must be at least " ++ r.duration ⟨minD⟩ ++ " (got " ++ r.duration d ++ ")"⟩]
  else
    complain (decide (0 < maxD ∧ maxD < d.ns)) path
      ("must be at most " ++ r.duration ⟨maxD⟩ ++ " (got " ++ r.duration d ++ ")")

def checkIntRange (path : String) (n lo hi : Int) : List Problem :=
  complain (decide (n < lo ∨ hi < n)) path
    ("must be between " ++ toString lo ++ " and " ++ toString hi ++ " (got " ++ toString n ++ ")")

def checkMinInt (path : String) (n lo : Int) : List Problem :=
  complain (decide (n < lo)) path
    ("must be at least " ++ toString lo ++ " (got " ++ toString n ++ ")")

def checkRatio (path : String) (f : ℚ) (openLow : Bool) : List Problem :=
  if openLow then
    complain (!decide (0 < f ∧ f ≤ 1)) path
      ("must be greater than 0 and at most 1 (got " ++ r.number f ++ ")")
  else
    complain (!decide (0 ≤ f ∧ f ≤ 1)) path
      ("must be between 0 and 1 (got " ++ r.number f ++ ")")

def checkScore (path : String) (f : ℚ) : List Problem :=
  complain (!decide (0 ≤ f ∧ f ≤ 100)) path
    ("must be between 0 and 100 (got " ++ r.number f ++ ")")

def checkEnum (path value : String) (allowed : List String) : List Problem :=
  complain (!allowed.contains value) path
    ("must be one of " ++ "|".intercalate allowed ++ " (got " ++ r.quoted value ++ ")")

end Checks

/-! ## Names -/

def isNameStart (c : Char) : Bool := c.isLower || c.isDigit

def isNameChar (c : Char) : Bool := isNameStart c || c == '.' || c == '_' || c == '-'

/-- `^[a-z0-9][a-z0-9._-]\x7b0,63\x7d$`; every accepted character is one byte. -/
def validName (s : String) : Bool :=
  match s.toList with
  | [] => false
  | first :: rest => isNameStart first && rest.all isNameChar && decide (rest.length ≤ 63)

def namePattern : String := "must match ^[a-z0-9][a-z0-9._-]\x7b0,63\x7d$"

structure Binding where
  site : String
  client : String
  endpointGroup : String

def maxBindingFieldLength : Nat := 128

def validateCommon (r : Rendering) (name description : String) (bind : Option Binding) :
    List Problem :=
  (if name = "" then [⟨"name", "is required"⟩]
    else complain (!validName name) "name" (namePattern ++ " (got " ++ r.quoted name ++ ")")) ++
  complain (decide (1024 < description.utf8ByteSize)) "description"
    "must be at most 1024 characters" ++
  match bind with
  | none => []
  | some b =>
    complain (decide (b.site = "")) "bind.site" "is required when bind is set" ++
    [("bind.site", b.site), ("bind.client", b.client),
      ("bind.endpoint_group", b.endpointGroup)].flatMap fun (path, value) =>
      complain (decide (maxBindingFieldLength < value.utf8ByteSize)) path
        ("must be at most " ++ toString maxBindingFieldLength ++ " characters")

def validateExtends (r : Rendering) (name ext : String) : List Problem :=
  if ext = "" then []
  else if validName ext then
    complain (decide (ext = name)) "extends" "a policy cannot extend itself"
  else [⟨"extends", namePattern ++ " (got " ++ r.quoted ext ++ ")"⟩]

/-! ## Specifications -/

structure CountCondition where
  gte : Int
  within : Duration

structure ActionRule where
  name : String
  outcome : List String
  count : Option CountCondition
  action : ActionKind
  scope : ActionScope
  base : Duration
  multiplier : ℚ
  max : Duration
  maxExponent : Int
  duration : Duration
  failureResetAfter : Duration

/-- A step of the escalation ladder as it is written. -/
structure EscalationRule where
  bans : CountCondition
  duration : Duration

/-- The health block; the observations are the entries of the map in the order of their keys. -/
structure HealthBlock where
  alpha : ℚ
  baseline : ℚ
  tau : Duration
  observations : List (String × ℚ)
  endpointLowScore : ℚ
  endpointLowMinSamples : Int
  endpointLowCooldown : Duration
  quarantineScore : ℚ
  quarantineMinSamples : Int
  quarantineDuration : Duration

structure ActionSpec where
  name : String
  description : String
  bind : Option Binding
  ext : String
  mode : String
  rules : List ActionRule
  escalation : List EscalationRule
  health : HealthBlock
  banExpiryState : String
  crossAttribution : CrossAttributionSpec

/-! ## Outcomes, actions and scopes by name -/

def outcomes : List (String × Outcome) :=
  [("success", .success), ("empty", .empty), ("rate_limited", .rateLimited),
    ("captcha", .captcha), ("auth_invalid", .authInvalid), ("forbidden", .forbidden),
    ("banned", .banned), ("proxy_error", .proxyError), ("network_error", .networkError),
    ("target_error", .targetError), ("client_error", .clientError), ("unknown", .unknown)]

def outcomeOf (name : String) : Option Outcome := outcomes.lookup name

def validOutcome (name : String) : Bool := (outcomeOf name).isSome

def ActionKind.text : ActionKind → String
  | .cooldown => "cooldown"
  | .expire => "expire"
  | .quarantine => "quarantine"
  | .ban => "ban"
  | .activate => "activate"
  | .other text => text

def ActionScope.text : ActionScope → String
  | .identityEndpoint => "identity_endpoint"
  | .identitySite => "identity_site"
  | .identity => "identity"
  | .account => "account"
  | .proxySite => "proxy_site"
  | .proxy => "proxy"
  | .other text => text

def scopeAllowed (action : ActionKind) (scope : ActionScope) : Bool :=
  match action with
  | .cooldown => scope.subject.isSome
  | .ban => decide (scope = .identity ∨ scope = .account ∨ scope = .proxy)
  | .expire => decide (scope = .identity)
  | .quarantine => decide (scope = .identity ∨ scope = .proxy)
  | _ => false

def allowedScopes : ActionKind → String
  | .cooldown => "identity_endpoint|identity_site|identity|account|proxy_site|proxy"
  | .ban => "identity|account|proxy"
  | .expire => "identity"
  | .quarantine => "identity|proxy"
  | _ => ""

/-! ## Validation -/

def secondNs : Int := 1000000000

def maxBanHistoryWindow : Int := 30 * 24 * 3600 * secondNs

section Validation

variable (r : Rendering)

def validateCooldown (rule : ActionRule) (path : String) : List Problem :=
  (if rule.base = ⟨0⟩ then [⟨field path "base", "is required for cooldown"⟩]
    else checkDuration r (field path "base") rule.base 1000000 0) ++
  complain (!decide (1 ≤ rule.multiplier)) (field path "multiplier")
    ("must be a finite number of at least 1 (got " ++ r.number rule.multiplier ++ ")") ++
  checkDuration r (field path "max") rule.max 0 0 ++
  complain (!rule.max.isPermanent && !rule.base.isPermanent &&
      decide (0 < rule.base.ns ∧ rule.max.ns < rule.base.ns))
    (field path "max") ("must be at least base (" ++ r.duration rule.base ++ ")") ++
  checkIntRange (field path "max_exponent") rule.maxExponent 0 64 ++
  checkDuration r (field path "failure_reset_after") rule.failureResetAfter secondNs 0 ++
  complain (decide (rule.duration ≠ ⟨0⟩)) (field path "duration")
    "is not supported for cooldown (use base/multiplier/max)"

def rejectCooldownFields (rule : ActionRule) (path : String) : List Problem :=
  [("base", decide (rule.base ≠ ⟨0⟩)), ("multiplier", decide (rule.multiplier ≠ 0)),
    ("max", decide (rule.max ≠ ⟨0⟩)), ("max_exponent", decide (rule.maxExponent ≠ 0)),
    ("failure_reset_after", decide (rule.failureResetAfter ≠ ⟨0⟩))].flatMap fun (name, set) =>
    complain set (field path name) "is only supported for cooldown"

def validateOutcomes (path : String) (seen : List String) : Nat → List String → List Problem
  | _, [] => []
  | i, o :: rest =>
    if validOutcome o then
      complain (seen.contains o) (item path i) ("duplicate outcome " ++ r.quoted o) ++
        validateOutcomes path (o :: seen) (i + 1) rest
    else
      ⟨item path i, "must be one of " ++ "|".intercalate (outcomes.map Prod.fst) ++ " (got " ++
          r.quoted o ++ ")"⟩ ::
        validateOutcomes path seen (i + 1) rest

def ActionRule.validate (rule : ActionRule) (path : String) : List Problem :=
  let outcomePath := field path "when.outcome"
  let conditions :=
    complain rule.outcome.isEmpty outcomePath "is required" ++
    validateOutcomes r outcomePath [] 0 rule.outcome ++
    (match rule.count with
      | none => []
      | some c =>
        checkMinInt (field path "when.count.gte") c.gte 1 ++
        checkDuration r (field path "when.count.within") c.within secondNs 0) ++
    complain rule.scope.subject.isNone (field path "scope")
      ("must be one of identity_endpoint|identity_site|identity|account|proxy_site|proxy (got " ++
        r.quoted rule.scope.text ++ ")")
  let scopeProblems :=
    complain (rule.scope.subject.isSome && !scopeAllowed rule.action rule.scope)
      (field path "scope")
      (rule.action.text ++ " does not support scope " ++ rule.scope.text ++ " (allowed: " ++
        allowedScopes rule.action ++ ")")
  match rule.action with
  | .cooldown => conditions ++ validateCooldown r rule path ++ scopeProblems
  | .ban =>
    conditions ++ rejectCooldownFields rule path ++
    (if rule.duration = ⟨0⟩ then
      [⟨field path "duration", "is required for ban (a duration or permanent)"⟩]
    else if rule.duration.isPermanent then []
    else checkDuration r (field path "duration") rule.duration secondNs 0) ++ scopeProblems
  | .quarantine =>
    conditions ++ rejectCooldownFields rule path ++
    (if rule.duration = ⟨0⟩ then [⟨field path "duration", "is required for quarantine"⟩]
    else checkDuration r (field path "duration") rule.duration secondNs 0) ++ scopeProblems
  | .expire =>
    conditions ++ rejectCooldownFields rule path ++
    complain (decide (rule.duration ≠ ⟨0⟩)) (field path "duration")
      "is not supported for expire" ++ scopeProblems
  | _ =>
    conditions ++
    [⟨field path "action", "must be one of cooldown|expire|quarantine|ban (got " ++
      r.quoted rule.action.text ++ ")"⟩]

def validateStep (path : String) (st : EscalationRule) : List Problem :=
  checkMinInt (field path "when.bans.gte") st.bans.gte 1 ++
  checkDuration r (field path "when.bans.within") st.bans.within secondNs maxBanHistoryWindow ++
  if st.duration = ⟨0⟩ then
    [⟨field path "duration", "is required (a duration or permanent)"⟩]
  else if st.duration.isPermanent then []
  else checkDuration r (field path "duration") st.duration secondNs 0

/-- The `i`-th step against the one before it. -/
def validateOrder (i : Nat) (prev st : EscalationRule) : List Problem :=
  let path := item "escalation" i
  complain (decide (st.bans.gte ≤ prev.bans.gte)) (field path "when.bans.gte")
    ("must be greater than " ++ item "escalation" (i - 1) ++ ".when.bans.gte (" ++
      toString prev.bans.gte ++ ")") ++
  complain
    ((prev.duration.isPermanent && !st.duration.isPermanent) ||
      (!prev.duration.isPermanent && !st.duration.isPermanent &&
        decide (st.duration.ns < prev.duration.ns)))
    (field path "duration")
    ("must not be shorter than " ++ item "escalation" (i - 1) ++ ".duration (" ++
      r.duration prev.duration ++ ")")

/-- Steps have strictly increasing thresholds and durations that do not decrease. -/
def validateEscalation : Option EscalationRule → Nat → List EscalationRule → List Problem
  | _, _, [] => []
  | prev, i, st :: rest =>
    validateStep r (item "escalation" i) st ++
    (match prev with
      | none => []
      | some before => validateOrder r i before st) ++
    validateEscalation (some st) (i + 1) rest

def HealthBlock.validate (h : HealthBlock) (path : String) : List Problem :=
  checkRatio r (field path "alpha") h.alpha true ++
  checkScore r (field path "baseline") h.baseline ++
  checkDuration r (field path "tau") h.tau secondNs 0 ++
  (h.observations.flatMap fun (outcome, value) =>
    let p := field (field path "observations") outcome
    if validOutcome outcome then checkScore r p value
    else [⟨p, "unknown outcome " ++ r.quoted outcome⟩]) ++
  checkScore r (field path "endpoint_low_score") h.endpointLowScore ++
  checkMinInt (field path "endpoint_low_min_samples") h.endpointLowMinSamples 1 ++
  checkDuration r (field path "endpoint_low_cooldown") h.endpointLowCooldown secondNs 0 ++
  checkScore r (field path "quarantine_score") h.quarantineScore ++
  checkMinInt (field path "quarantine_min_samples") h.quarantineMinSamples 1 ++
  checkDuration r (field path "quarantine_duration") h.quarantineDuration secondNs 0

def validateRuleName (path name : String) (seen : List (String × Nat)) : List Problem :=
  if name = "" then []
  else if validName name then
    match seen.lookup name with
    | none => []
    | some prev =>
      [⟨field path "name", "duplicates the name of rules[" ++ toString prev ++ "] (" ++
        r.quoted name ++ ")"⟩]
  else [⟨field path "name", namePattern ++ " (got " ++ r.quoted name ++ ")"⟩]

def reservedActionRuleName (name : String) : Bool :=
  ["lifecycle.activate", "health.endpoint_low", "health.quarantine"].contains name

/-- The rules from the `i`-th on; `seen` has the valid names before them. -/
def validateRules (seen : List (String × Nat)) : Nat → List ActionRule → List Problem
  | _, [] => []
  | i, rule :: rest =>
    let path := item "rules" i
    let seen' :=
      if validName rule.name && (seen.lookup rule.name).isNone then (rule.name, i) :: seen
      else seen
    validateRuleName r path rule.name seen ++
    complain (reservedActionRuleName rule.name) (field path "name")
      (r.quoted rule.name ++ " is reserved for built-in health and lifecycle actions") ++
    rule.validate r path ++
    validateRules seen' (i + 1) rest

/-- Every problem of a policy; an accepted policy has none. -/
def ActionSpec.validate (s : ActionSpec) : List Problem :=
  validateCommon r s.name s.description s.bind ++
  validateExtends r s.name s.ext ++
  checkEnum r "mode" s.mode ["enforce", "shadow"] ++
  validateRules r [] 0 s.rules ++
  validateEscalation r none 0 s.escalation ++
  s.health.validate r "health" ++
  checkEnum r "ban_expiry_state" s.banExpiryState ["pending", "active"] ++
  checkDuration r "cross_attribution.window" s.crossAttribution.window secondNs 0 ++
  checkMinInt "cross_attribution.proxy_distinct_identities"
    s.crossAttribution.proxyDistinctIdentities 1 ++
  checkMinInt "cross_attribution.identity_distinct_proxies"
    s.crossAttribution.identityDistinctProxies 1

end Validation

/-! ## Compilation -/

inductive CompileError where
  | emptyChain
  | nilElement (index : Nat)
  | invalid (name : String) (problems : List Problem)
  deriving DecidableEq, Repr

/-- The elements of a chain from the `i`-th on, or the first one that is refused. -/
def checkChain (r : Rendering) :
    Nat → List (Option ActionSpec) → Except CompileError (List ActionSpec)
  | _, [] => .ok []
  | i, none :: _ => .error (.nilElement i)
  | i, some s :: rest =>
    match s.validate r with
    | [] => (checkChain r (i + 1) rest).map (s :: ·)
    | problems => .error (.invalid s.name problems)

def ruleLabel (policyName : String) (i : Nat) (name : String) : String :=
  if name = "" then policyName ++ ".rules[" ++ toString i ++ "]" else name

/-- The matcher of the `i`-th rule of a policy; a validated scope has a subject. -/
def compileRule (policyName : String) (i : Nat) (rule : ActionRule) (index : Nat) :
    ActionMatcher where
  index := index
  name := ruleLabel policyName i rule.name
  outcomes := (rule.outcome.filterMap outcomeOf).toFinset
  hasCount := rule.count.isSome
  countGte := (rule.count.map CountCondition.gte).getD 0
  countWindow := (rule.count.map fun c => c.within.ns).getD 0
  subject := rule.scope.subject.getD .identity
  action := rule.action
  scope := if rule.action = .cooldown ∧ rule.scope = .identity then .identitySite else rule.scope
  base := rule.base.ns
  maxDur := rule.max.ns
  multiplier := rule.multiplier
  maxExponent := rule.maxExponent
  duration := if rule.duration.isPermanent then 0 else rule.duration.ns
  permanent := rule.duration.isPermanent

/-- The rules of all policies from the root on, each with its policy and place. -/
def chainRules (chain : List ActionSpec) : List (String × Nat × ActionRule) :=
  chain.flatMap fun s => s.rules.zipIdx.map fun (rule, i) => (s.name, i, rule)

def compileRules (chain : List ActionSpec) : List ActionMatcher :=
  (chainRules chain).zipIdx.map fun ((policyName, i, rule), index) =>
    compileRule policyName i rule index

def defaultFailureResetAfter : Int := 3600 * secondNs

/-- The longest reset period of the cooldown rules. -/
def compileResetAfter (chain : List ActionSpec) : Int :=
  let periods := (chainRules chain).filterMap fun (_, _, rule) =>
    if rule.action = .cooldown then some rule.failureResetAfter.ns else none
  match periods with
  | [] => defaultFailureResetAfter
  | first :: rest => rest.foldl (fun longest d => if longest < d then d else longest) first

def compileCounters (rules : List ActionMatcher) (outcome : Outcome) : List CounterRequest :=
  rules.foldl
    (fun reqs m =>
      if m.hasCount ∧ outcome ∈ m.outcomes then
        let req : CounterRequest := ⟨m.subject, outcome, m.countWindow⟩
        if req ∈ reqs then reqs else reqs ++ [req]
      else reqs)
    []

def compileStep (st : EscalationRule) : EscalationStep where
  gte := st.bans.gte
  window := st.bans.within.ns
  duration := if st.duration.isPermanent then 0 else st.duration.ns
  permanent := st.duration.isPermanent

/-- The ladder of the first policy that has one, from the leaf on. -/
def compileEscalation : List ActionSpec → List EscalationStep
  | [] => []
  | s :: towardsRoot =>
    if s.escalation.isEmpty then compileEscalation towardsRoot else s.escalation.map compileStep

def compileWindows (steps : List EscalationStep) : List Int :=
  steps.foldl (fun windows st => if st.window ∈ windows then windows else windows ++ [st.window]) []

def defaultObservations : Outcome → Option ℚ
  | .success => some 100
  | .empty => some 60
  | .networkError => some 50
  | .rateLimited => some 30
  | .forbidden => some 10
  | .captcha => some 0
  | _ => none

def compileObservations (overrides : List (String × ℚ)) (outcome : Outcome) : Option ℚ :=
  match overrides.find? fun (name, _) => outcomeOf name == some outcome with
  | none => defaultObservations outcome
  | some (_, value) => some value

def HealthBlock.compile (h : HealthBlock) : HealthSpec where
  alpha := h.alpha
  baseline := h.baseline
  tau := h.tau
  endpointLowScore := h.endpointLowScore
  endpointLowMinSamples := h.endpointLowMinSamples
  endpointLowCooldown := h.endpointLowCooldown.ns
  quarantineScore := h.quarantineScore
  quarantineMinSamples := h.quarantineMinSamples
  quarantineDuration := h.quarantineDuration.ns

/-- The policy compiled from a validated chain with a leaf. -/
def compiled (chain : List ActionSpec) (leaf : ActionSpec) : CompiledAction :=
  let rules := compileRules chain
  let steps := compileEscalation chain.reverse
  { health := leaf.health.compile
    crossAttribution := leaf.crossAttribution
    rules := rules
    escalation := steps
    counters := compileCounters rules
    escalationWindows := compileWindows steps
    observations := compileObservations leaf.health.observations
    failureResetAfter := compileResetAfter chain }

def compileAction (r : Rendering) (chain : List (Option ActionSpec)) :
    Except CompileError CompiledAction :=
  match checkChain r 0 chain with
  | .error e => .error e
  | .ok specs =>
    match specs.getLast? with
    | none => .error .emptyChain
    | some leaf => .ok (compiled specs leaf)

end Spinneret.Policy
