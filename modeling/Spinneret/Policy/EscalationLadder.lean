import Mathlib
import Spinneret.Policy.ActionSpec

/-!
# Escalated bans

A temporary ban of an identity or an account is replaced by the step with the highest threshold
that the bans reach. Validation orders the thresholds of a ladder strictly and its durations
weakly, so that step is also the longest one the bans reach. Ban counts are integers; a count at
the largest 64-bit value, where the addition in the code wraps, is outside the model.
-/

namespace Spinneret.Policy

open Spinneret.HotState Spinneret.Worker

set_option autoImplicit false

/-! ## Lengths -/

/-- The length of a ban or a step; permanent is the longest. -/
def banLength (permanent : Bool) (duration : Int) : WithTop ℤ :=
  if permanent then ⊤ else (duration : WithTop ℤ)

def PlannedAction.length (a : PlannedAction) : WithTop ℤ := banLength a.permanent a.duration

def EscalationStep.length (st : EscalationStep) : WithTop ℤ := banLength st.permanent st.duration

def Duration.length (d : Duration) : WithTop ℤ := banLength d.isPermanent d.ns

theorem compile_step_length (st : EscalationRule) :
    (compileStep st).length = st.duration.length := by
  unfold EscalationStep.length Duration.length compileStep banLength
  cases st.duration.isPermanent <;> rfl

/-- The longest of a ban and of all steps of a list. -/
def longest (own : WithTop ℤ) (lengths : List (WithTop ℤ)) : WithTop ℤ := lengths.foldl max own

theorem longest_append (own : WithTop ℤ) (lengths : List (WithTop ℤ)) (last : WithTop ℤ) :
    longest own (lengths ++ [last]) = max (longest own lengths) last := by
  rw [longest, List.foldl_append]
  rfl

theorem own_le_longest (own : WithTop ℤ) (lengths : List (WithTop ℤ)) :
    own ≤ longest own lengths := by
  induction lengths using List.reverseRecOn with
  | nil => exact le_rfl
  | append_singleton rest last ih =>
    rw [longest_append]
    exact ih.trans (le_max_left _ _)

theorem longest_le {own bound : WithTop ℤ} {lengths : List (WithTop ℤ)} (first : own ≤ bound)
    (each : ∀ d ∈ lengths, d ≤ bound) : longest own lengths ≤ bound := by
  induction lengths using List.reverseRecOn with
  | nil => exact first
  | append_singleton rest last ih =>
    rw [longest_append]
    exact max_le (ih fun d member => each d (List.mem_append_left _ member))
      (each last (List.mem_append_right _ List.mem_cons_self))

theorem le_longest {own d : WithTop ℤ} {lengths : List (WithTop ℤ)} (member : d ∈ lengths) :
    d ≤ longest own lengths := by
  induction lengths using List.reverseRecOn with
  | nil => cases member
  | append_singleton rest last ih =>
    rw [longest_append]
    rcases List.mem_append.mp member with earlier | here
    · exact (ih earlier).trans (le_max_left _ _)
    · rw [List.mem_singleton.mp here]
      exact le_max_right _ _

/-! ## Ladders that validation accepts -/

/-- A later step has a greater threshold and is at least as long. -/
def Climbs (a b : EscalationStep) : Prop := a.gte < b.gte ∧ a.length ≤ b.length

theorem Climbs.trans {a b c : EscalationStep} (first : Climbs a b) (second : Climbs b c) :
    Climbs a c :=
  ⟨first.1.trans second.1, first.2.trans second.2⟩

theorem complain_eq_nil {wrong : Bool} {path message : String} :
    complain wrong path message = [] ↔ wrong = false := by
  cases wrong <;> simp [complain]

variable {r : Rendering} {specs : List ActionSpec} {input : EvalInput} {m : ActionMatcher}

theorem validate_order_climbs {i : Nat} {prev st : EscalationRule}
    (valid : validateOrder r i prev st = []) : Climbs (compileStep prev) (compileStep st) := by
  obtain ⟨thresholds, durations⟩ := List.append_eq_nil_iff.mp valid
  have above := of_decide_eq_false (complain_eq_nil.mp thresholds)
  refine ⟨not_le.mp above, ?_⟩
  have kept := complain_eq_nil.mp durations
  rw [compile_step_length, compile_step_length]
  unfold Duration.length banLength
  cases before : prev.duration.isPermanent <;> cases after : st.duration.isPermanent <;>
    simp_all

theorem validate_escalation_chain {steps : List EscalationRule} {i : Nat} {prev : EscalationRule}
    (valid : validateEscalation r (some prev) i steps = []) :
    List.IsChain Climbs ((prev :: steps).map compileStep) := by
  induction steps generalizing prev i with
  | nil => exact .singleton _
  | cons st rest ih =>
    rw [validateEscalation, List.append_eq_nil_iff, List.append_eq_nil_iff] at valid
    obtain ⟨⟨-, order⟩, later⟩ := valid
    exact .cons_cons (validate_order_climbs order) (ih later)

theorem validate_escalation_pairwise {steps : List EscalationRule}
    (valid : validateEscalation r none 0 steps = []) : (steps.map compileStep).Pairwise Climbs := by
  have transitive : IsTrans EscalationStep Climbs := ⟨fun _ _ _ => Climbs.trans⟩
  refine List.isChain_iff_pairwise.mp ?_
  cases steps with
  | nil => exact .nil
  | cons st rest =>
    rw [validateEscalation, List.append_eq_nil_iff] at valid
    exact validate_escalation_chain valid.2

theorem validate_spec_escalation {s : ActionSpec} (valid : s.validate r = []) :
    validateEscalation r none 0 s.escalation = [] := by
  simp only [ActionSpec.validate, List.append_eq_nil_iff] at valid
  exact valid.1.1.1.1.1.2

/-! ## Chains -/

theorem check_chain_ok {i : Nat} {chain : List (Option ActionSpec)}
    (checked : checkChain r i chain = .ok specs) :
    chain = specs.map some ∧ ∀ s ∈ specs, s.validate r = [] := by
  induction chain generalizing i specs with
  | nil =>
    cases checked
    exact ⟨rfl, fun s member => absurd member List.not_mem_nil⟩
  | cons first rest ih =>
    cases first with
    | none => cases checked
    | some s =>
      rw [checkChain] at checked
      cases problems : s.validate r with
      | cons p more =>
        rw [problems] at checked
        cases checked
      | nil =>
        rw [problems] at checked
        cases later : checkChain r (i + 1) rest with
        | error e =>
          rw [later] at checked
          cases checked
        | ok others =>
          rw [later] at checked
          cases checked
          obtain ⟨same, valid⟩ := ih later
          refine ⟨congrArg (some s :: ·) same, fun t member => ?_⟩
          rcases List.mem_cons.mp member with rfl | behind
          · exact problems
          · exact valid t behind

theorem compile_action_ok {chain : List (Option ActionSpec)} {c : CompiledAction}
    (accepted : compileAction r chain = .ok c) :
    ∃ specs leaf, chain = specs.map some ∧ (∀ s ∈ specs, s.validate r = []) ∧
      c = compiled specs leaf := by
  unfold compileAction at accepted
  cases checked : checkChain r 0 chain with
  | error e =>
    rw [checked] at accepted
    cases accepted
  | ok specs =>
    rw [checked] at accepted
    cases last : specs.getLast? with
    | none => simp [last] at accepted
    | some leaf =>
      simp only [last, Except.ok.injEq] at accepted
      obtain ⟨same, valid⟩ := check_chain_ok checked
      exact ⟨specs, leaf, same, valid, accepted.symm⟩

/-- The leaf-most ladder of a chain that is not empty; without one, the empty ladder. -/
inductive EffectiveLadder (chain : List (Option ActionSpec)) : List EscalationRule → Prop
  | of (before after : List (Option ActionSpec)) (s : ActionSpec)
      (split : chain = before ++ some s :: after) (own : s.escalation ≠ [])
      (last : ∀ t, some t ∈ after → t.escalation = []) : EffectiveLadder chain s.escalation
  | none (empty : ∀ t, some t ∈ chain → t.escalation = []) : EffectiveLadder chain []

theorem compile_escalation_skip {first rest : List ActionSpec}
    (empty : ∀ s ∈ first, s.escalation = []) :
    compileEscalation (first ++ rest) = compileEscalation rest := by
  induction first with
  | nil => rfl
  | cons s more ih =>
    rw [List.cons_append, compileEscalation, empty s List.mem_cons_self, List.isEmpty_nil,
      if_pos rfl, ih fun t member => empty t (List.mem_cons_of_mem _ member)]

theorem compile_escalation_effective {ladder : List EscalationRule}
    (effective : EffectiveLadder (specs.map some) ladder) :
    compileEscalation specs.reverse = ladder.map compileStep := by
  cases effective with
  | of before after s split own last =>
    obtain ⟨front, others, rfl, -, tail⟩ := List.map_eq_append_iff.mp split
    obtain ⟨t, back, rfl, same, rfl⟩ := List.map_eq_cons_iff.mp tail
    obtain rfl := Option.some.inj same
    have empty : ∀ u ∈ back.reverse, u.escalation = [] := fun u member =>
      last u (List.mem_map_of_mem (List.mem_reverse.mp member))
    have reversed : (front ++ t :: back).reverse = back.reverse ++ (t :: front.reverse) := by simp
    rw [reversed, compile_escalation_skip empty, compileEscalation,
      if_neg (by simpa using own)]
  | none empty =>
    have nothing : ∀ u ∈ specs.reverse, u.escalation = [] := fun u member =>
      empty u (List.mem_map_of_mem (List.mem_reverse.mp member))
    have skipped := @compile_escalation_skip _ [] nothing
    rwa [List.append_nil] at skipped

theorem compile_escalation_pairwise (valid : ∀ s ∈ specs, s.validate r = []) :
    (compileEscalation specs).Pairwise Climbs := by
  induction specs with
  | nil => exact .nil
  | cons s rest ih =>
    rw [compileEscalation]
    split_ifs
    · exact ih fun t member => valid t (List.mem_cons_of_mem _ member)
    · exact validate_escalation_pairwise (validate_spec_escalation (valid s List.mem_cons_self))

/-! ## The step that applies -/

/-- Whether the bans in the window of a step and the planned one reach its threshold. -/
def reached (counts : Int → Int) (st : EscalationStep) : Bool :=
  decide (st.gte ≤ counts st.window + 1)

namespace CompiledAction

variable {c : CompiledAction}

/-- On a climbing ladder the search ends at the last step that is reached. -/
theorem best_step_last (climbs : c.escalation.Pairwise Climbs) (input : EvalInput) :
    c.bestStep input = (c.escalation.filter (reached input.banCounts)).getLast? := by
  unfold bestStep
  generalize c.escalation = steps at climbs ⊢
  induction steps using List.reverseRecOn with
  | nil => rfl
  | append_singleton rest last ih =>
    obtain ⟨front, -, above⟩ := List.pairwise_append.mp climbs
    rw [List.foldl_append, List.foldl_cons, List.foldl_nil, ih front, List.filter_append]
    by_cases short : input.banCounts last.window + 1 < last.gte
    · have dropped : [last].filter (reached input.banCounts) = [] := by
        simp [reached, not_le.mpr short]
      rw [if_pos short, dropped, List.append_nil]
    · have kept : [last].filter (reached input.banCounts) = [last] := by
        simp [reached, not_lt.mp short]
      rw [if_neg short, kept, List.getLast?_concat]
      cases best : (rest.filter (reached input.banCounts)).getLast? with
      | none => rfl
      | some b =>
        have member := (List.mem_filter.mp (List.mem_of_getLast? best)).1
        have higher := (above b member last List.mem_cons_self).1
        simp only [higher, true_or, if_true]

theorem longest_climbing {steps : List EscalationStep} (climbs : steps.Pairwise Climbs)
    (own : WithTop ℤ) :
    longest own (steps.map EscalationStep.length) =
      match steps.getLast? with
      | none => own
      | some st => max own st.length := by
  cases steps using List.reverseRecOn with
  | nil => rfl
  | append_singleton rest last =>
    obtain ⟨-, -, above⟩ := List.pairwise_append.mp climbs
    rw [List.getLast?_concat, List.map_append, List.map_singleton, longest_append]
    dsimp only
    refine le_antisymm (max_le (longest_le (le_max_left _ _) fun d member => ?_)
      (le_max_right _ _)) (max_le_max (own_le_longest _ _) le_rfl)
    obtain ⟨st, here, rfl⟩ := List.mem_map.mp member
    exact (above st here last List.mem_cons_self).2.trans (le_max_right _ _)

theorem escalate_length {pa : PlannedAction} (timed : pa.permanent = false) :
    (c.escalate pa input).length =
      match c.bestStep input with
      | none => pa.length
      | some st => max pa.length st.length := by
  unfold escalate
  cases c.bestStep input with
  | none => rfl
  | some st =>
    dsimp only
    unfold PlannedAction.length EscalationStep.length banLength
    by_cases forever : st.permanent = true
    · simp [forever]
    · rw [if_neg forever, if_neg forever]
      by_cases longer : pa.duration < st.duration
      · simp [longer, timed, longer.le]
      · simp [longer, timed, not_lt.mp longer]

theorem escalate_longest (climbs : c.escalation.Pairwise Climbs) {pa : PlannedAction}
    (timed : pa.permanent = false) :
    (c.escalate pa input).length =
      longest pa.length
        ((c.escalation.filter (reached input.banCounts)).map EscalationStep.length) := by
  rw [escalate_length timed, best_step_last climbs, longest_climbing (climbs.filter _)]

theorem escalate_scope (pa : PlannedAction) (input : EvalInput) :
    (c.escalate pa input).scope = pa.scope := by
  unfold escalate
  cases c.bestStep input with
  | none => rfl
  | some st =>
    dsimp only
    split_ifs <;> rfl

theorem plan_rule_ban {blame : Blame} {factor : ℚ} (ban : m.action = .ban)
    (temporary : m.permanent = false) :
    c.planRule m input blame factor = (plannedScope m input blame).map fun scope =>
      let timed : PlannedAction :=
        { action := .ban, scope := scope, duration := m.duration, ruleIndex := m.index
          ruleName := m.name, source := .rule }
      let planned := if scope.subject ≠ some .proxy then c.escalate timed input else timed
      { planned with severity := severityOf planned } := by
  unfold planRule
  rw [ban, temporary]
  rfl

theorem plan_rule_length (climbs : c.escalation.Pairwise Climbs) {blame : Blame} {factor : ℚ}
    {scope : ActionScope} (ban : m.action = .ban) (temporary : m.permanent = false)
    (planned : plannedScope m input blame = some scope) (subject : scope.subject ≠ some .proxy) :
    ∃ pa, c.planRule m input blame factor = some pa ∧ pa.scope = scope ∧
      pa.length = longest (m.duration : WithTop ℤ)
        ((c.escalation.filter (reached input.banCounts)).map EscalationStep.length) := by
  rw [plan_rule_ban ban temporary, planned, Option.map_some]
  dsimp only
  rw [if_pos subject]
  refine ⟨_, rfl, escalate_scope _ _, ?_⟩
  exact @escalate_longest input c climbs
    { action := .ban, scope := scope, duration := m.duration, ruleIndex := m.index
      ruleName := m.name, source := .rule } rfl

theorem plan_rule_scope {blame : Blame} {factor : ℚ} {pa : PlannedAction} (ban : m.action = .ban)
    (temporary : m.permanent = false) (planned : c.planRule m input blame factor = some pa) :
    plannedScope m input blame = some pa.scope := by
  rw [plan_rule_ban ban temporary] at planned
  obtain ⟨scope, here, rfl⟩ := Option.map_eq_some_iff.mp planned
  dsimp only
  split_ifs
  · rw [escalate_scope, here]
  · exact here

end CompiledAction

theorem longest_reached_mono {counts more : Int → Int} (grown : ∀ w, counts w ≤ more w)
    (own : WithTop ℤ) (steps : List EscalationStep) :
    longest own ((steps.filter (reached counts)).map EscalationStep.length) ≤
      longest own ((steps.filter (reached more)).map EscalationStep.length) := by
  refine longest_le (own_le_longest _ _) fun d member => ?_
  obtain ⟨st, here, rfl⟩ := List.mem_map.mp member
  obtain ⟨listed, matched⟩ := List.mem_filter.mp here
  have still : reached more st = true := by
    have before := of_decide_eq_true matched
    have larger := grown st.window
    exact decide_eq_true (by omega)
  exact le_longest (List.mem_map_of_mem (List.mem_filter.mpr ⟨listed, still⟩))

/-! ## The rule of a matcher -/

def ruleCount (chain : List (Option ActionSpec)) : Nat :=
  (chain.map fun s => (s.map fun t => t.rules.length).getD 0).sum

/-- The matcher stands for this rule: it has the place of the rule in the whole chain. -/
def CompiledFrom (chain : List (Option ActionSpec)) (m : ActionMatcher) (rule : ActionRule) :
    Prop :=
  ∃ before s after i, chain = before ++ some s :: after ∧ s.rules[i]? = some rule ∧
    m = compileRule s.name i rule (ruleCount before + i)

theorem chain_rules_place {k i : Nat} {name : String} {rule : ActionRule}
    (placed : (chainRules specs)[k]? = some (name, i, rule)) :
    ∃ before s after, specs = before ++ s :: after ∧ s.rules[i]? = some rule ∧ name = s.name ∧
      k = ruleCount (before.map some) + i := by
  induction specs generalizing k with
  | nil => cases placed
  | cons s rest ih =>
    rw [chainRules, List.flatMap_cons, List.getElem?_append] at placed
    split_ifs at placed with inside
    · rw [List.getElem?_map, List.getElem?_zipIdx, Option.map_map] at placed
      obtain ⟨found, here, same⟩ := Option.map_eq_some_iff.mp placed
      simp only [Function.comp_apply, zero_add, Prod.mk.injEq] at same
      obtain ⟨rfl, rfl, rfl⟩ := same
      exact ⟨[], s, rest, rfl, here, rfl, by simp [ruleCount]⟩
    · obtain ⟨before, t, after, rfl, here, named, place⟩ := ih placed
      refine ⟨s :: before, t, after, rfl, here, named, ?_⟩
      simp only [List.length_map, List.length_zipIdx] at place inside
      simp only [ruleCount, List.map_cons, List.sum_cons, Option.map_some,
        Option.getD_some] at place ⊢
      omega

theorem compiled_rule_from (member : m ∈ compileRules specs) :
    ∃ rule, CompiledFrom (specs.map some) m rule := by
  obtain ⟨⟨⟨name, i, rule⟩, k⟩, listed, rfl⟩ := List.mem_map.mp member
  have placed := List.mem_zipIdx_iff_getElem?.mp listed
  obtain ⟨before, s, after, rfl, here, rfl, rfl⟩ := chain_rules_place placed
  exact ⟨rule, before.map some, s, after.map some, i, by simp, here, rfl⟩

theorem effective_ladder_exists (specs : List ActionSpec) :
    ∃ ladder, EffectiveLadder (specs.map some) ladder := by
  induction specs using List.reverseRecOn with
  | nil => exact ⟨[], .none fun t member => absurd member List.not_mem_nil⟩
  | append_singleton rest leaf ih =>
    by_cases own : leaf.escalation = []
    · obtain ⟨ladder, effective⟩ := ih
      have still {t : ActionSpec} {list : List (Option ActionSpec)}
          (earlier : ∀ u, some u ∈ list → u.escalation = [])
          (member : some t ∈ list ++ [some leaf]) : t.escalation = [] := by
        rcases List.mem_append.mp member with before | here
        · exact earlier t before
        · rw [Option.some.inj (List.mem_singleton.mp here), own]
      cases effective with
      | of before after s split nonempty last =>
        refine ⟨_, .of before (after ++ [some leaf]) s ?_ nonempty fun t => still last⟩
        rw [List.map_append, split, List.map_singleton, List.append_assoc, List.cons_append]
      | none empty =>
        refine ⟨_, .none fun t member => still empty ?_⟩
        rwa [List.map_append, List.map_singleton] at member
    · exact ⟨_, .of (rest.map some) [] leaf (by simp) own
        fun t member => absurd member List.not_mem_nil⟩

/-! ## The longest step -/

def stepReached (counts : Int → Int) (st : EscalationRule) : Bool :=
  decide (st.bans.gte ≤ counts st.bans.within.ns + 1)

theorem reached_lengths (counts : Int → Int) (ladder : List EscalationRule) :
    ((ladder.map compileStep).filter (reached counts)).map EscalationStep.length =
      (ladder.filter (stepReached counts)).map fun st => st.duration.length := by
  rw [List.filter_map, List.map_map]
  exact List.map_congr_left fun st _ => compile_step_length st

/-- A temporary ban of an identity or an account is as long as the longest of the rule's own
duration and of the steps of the effective ladder that the bans reach, and more bans never make
it shorter. -/
theorem escalation_longest_step {r : Rendering} {chain : List (Option ActionSpec)}
    {c : CompiledAction} (accepted : compileAction r chain = .ok c) {m : ActionMatcher}
    (member : m ∈ c.rules) (ban : m.action = .ban) (temporary : m.permanent = false)
    {input : EvalInput} {blame : Blame} {factor : ℚ} {pa : PlannedAction}
    (planned : c.planRule m input blame factor = some pa)
    (subject : pa.scope.subject ≠ some .proxy) :
    (∃ rule ladder, CompiledFrom chain m rule ∧ EffectiveLadder chain ladder ∧
      pa.length = longest rule.duration.length
        ((ladder.filter (stepReached input.banCounts)).map fun st => st.duration.length)) ∧
      ∀ counts, (∀ w, input.banCounts w ≤ counts w) →
        ∃ later, c.planRule m { input with banCounts := counts } blame factor = some later ∧
          later.scope = pa.scope ∧ pa.length ≤ later.length := by
  obtain ⟨specs, leaf, rfl, valid, rfl⟩ := compile_action_ok accepted
  have climbs : (compiled specs leaf).escalation.Pairwise Climbs :=
    compile_escalation_pairwise fun s here => valid s (List.mem_reverse.mp here)
  have placed := CompiledAction.plan_rule_scope ban temporary planned
  obtain ⟨same, plan, -, length⟩ :=
    @CompiledAction.plan_rule_length _ _ _ climbs _ factor _ ban temporary placed subject
  obtain rfl := Option.some.inj (planned.symm.trans plan)
  refine ⟨?_, fun counts grown => ?_⟩
  · obtain ⟨rule, origin⟩ := compiled_rule_from member
    obtain ⟨ladder, effective⟩ := effective_ladder_exists specs
    refine ⟨rule, ladder, origin, effective, ?_⟩
    have own : (m.duration : WithTop ℤ) = rule.duration.length := by
      obtain ⟨before, s, after, i, -, -, made⟩ := origin
      rw [made] at temporary ⊢
      have timed : rule.duration.isPermanent = false := temporary
      simp [compileRule, Duration.length, banLength, timed]
    have steps : (compiled specs leaf).escalation = ladder.map compileStep :=
      compile_escalation_effective effective
    rw [length, own, steps, reached_lengths]
  · obtain ⟨later, plan', place, length'⟩ :=
      @CompiledAction.plan_rule_length { input with banCounts := counts } m _ climbs blame factor
        _ ban temporary placed subject
    refine ⟨later, plan', place, ?_⟩
    rw [length, length']
    exact longest_reached_mono grown _ _

/-! ## A chain with an inherited ladder -/

def plainRendering : Rendering where
  duration d := toString d.ns
  number q := toString q.num
  quoted s := s

def hours (n : Int) : Duration := ⟨n * 3600 * secondNs⟩

def policyWith (name : String) (rules : List ActionRule) (escalation : List EscalationRule) :
    ActionSpec where
  name := name
  description := ""
  bind := none
  ext := ""
  mode := "enforce"
  rules := rules
  escalation := escalation
  health :=
    { alpha := 1 / 10, baseline := 70, tau := hours 6, observations := []
      endpointLowScore := 15, endpointLowMinSamples := 10, endpointLowCooldown := hours 6
      quarantineScore := 20, quarantineMinSamples := 10, quarantineDuration := hours 24 }
  banExpiryState := "pending"
  crossAttribution :=
    { enabled := true, window := ⟨600 * secondNs⟩, proxyDistinctIdentities := 3
      identityDistinctProxies := 3 }

def ladderRoot : ActionSpec :=
  policyWith "base" []
    [⟨⟨2, hours 24⟩, hours 24⟩, ⟨⟨3, hours 720⟩, .permanent⟩]

def banRule : ActionRule where
  name := "blocked"
  outcome := ["banned"]
  count := none
  action := .ban
  scope := .identity
  base := ⟨0⟩
  multiplier := 0
  max := ⟨0⟩
  maxExponent := 0
  duration := hours 1
  failureResetAfter := ⟨0⟩

def banLeaf : ActionSpec := policyWith "leaf" [banRule] []

def bannedInput (counts : Int → Int) : EvalInput where
  outcome := .banned
  blame := none
  identityState := none
  hasAccount := false
  hasProxy := false
  counts _ := 0
  banCounts := counts
  endpointStreak := 0
  siteStreak := 0
  proxyStreak := 0
  endpointScore := 70
  endpointSamples := 0
  globalScore := 70
  globalSamples := 0
  endpointCooldownRemaining := 0
  jitter := none

theorem ladder_chain_accepted :
    compileAction plainRendering [some ladderRoot, some banLeaf] =
      .ok (compiled [ladderRoot, banLeaf] banLeaf) := by
  have root : ladderRoot.validate plainRendering = [] := by decide +kernel
  have leaf : banLeaf.validate plainRendering = [] := by decide +kernel
  simp [compileAction, checkChain, root, leaf, Except.map]

/-- One ban within a day: the hour of the rule becomes the day of the inherited step, and the
plan gets no shorter with more bans. -/
theorem second_ban_lasts_a_day :
    ∃ m ∈ (compiled [ladderRoot, banLeaf] banLeaf).rules, ∃ pa,
      (compiled [ladderRoot, banLeaf] banLeaf).planRule m (bannedInput fun _ => 1) .identity 1 =
        some pa ∧
      pa.duration = (hours 24).ns ∧
      ∀ counts, (∀ w, 1 ≤ counts w) →
        ∃ later, (compiled [ladderRoot, banLeaf] banLeaf).planRule m (bannedInput counts)
            .identity 1 = some later ∧ later.scope = pa.scope ∧ pa.length ≤ later.length := by
  have member : compileRule "leaf" 0 banRule 0 ∈ (compiled [ladderRoot, banLeaf] banLeaf).rules :=
    List.mem_cons_self
  have plan : ((compiled [ladderRoot, banLeaf] banLeaf).planRule (compileRule "leaf" 0 banRule 0)
      (bannedInput fun _ => 1) .identity 1).map (fun pa => (pa.scope, pa.duration)) =
        some (.identity, (hours 24).ns) := by decide +kernel
  obtain ⟨pa, planned, same⟩ := Option.map_eq_some_iff.mp plan
  simp only [Prod.mk.injEq] at same
  have shown := escalation_longest_step ladder_chain_accepted member rfl (by decide) planned
    (by rw [same.1]; decide)
  exact ⟨_, member, pa, planned, same.2, shown.2⟩

end Spinneret.Policy
