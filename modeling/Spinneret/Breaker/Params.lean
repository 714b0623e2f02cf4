import Spinneret.Breaker.Script
import Spinneret.Policy.Breaker

/-!
# The windows derived from breaker policies

The worker that counts reports and the evaluator that sums them derive window and
bucket length on their own, each with its own fallbacks for missing or unusable
fields. The counts line up only as long as both arrive at the same lengths.
-/

namespace Spinneret.Breakers

open Spinneret.HotState Spinneret.Policy

set_option autoImplicit false

/-! ## The worker -/

def maxBreakerBuckets : Int := 60

/-- Window and bucket length of the report writer. -/
def breakerWindow (spec : Option BreakerSpec) : Int × Int :=
  let fallback := defaultBreakerWindow.milliseconds
  let windowMs := match spec with
    | none => fallback
    | some spec => if 0 < spec.window.milliseconds then spec.window.milliseconds else fallback
  let buckets := match spec with
    | none => defaultBreakerBuckets
    | some spec =>
      if 0 < spec.buckets ∧ spec.buckets ≤ maxBreakerBuckets then spec.buckets
      else defaultBreakerBuckets
  (windowMs, max (windowMs.tdiv buckets) 1)

/-- The bucket a report is counted in and the TTL of its key. -/
def winSuffix (spec : Option BreakerSpec) (nowMs : Int) : Option Int × Int :=
  let (windowMs, bucketMs) := breakerWindow spec
  if 0 < windowMs ∧ 0 < bucketMs then (some (nowMs.tdiv bucketMs), 2 * windowMs) else (none, 0)

/-! ## The evaluator -/

structure EvalParams where
  bucketMs : Int
  buckets : Int
  minRequests : Int
  riskRatioGte : ℚ
  captchaGte : Int
  successRatioLte : ℚ
  openMs : Int
  maxOpenMs : Int
  resetAfterMs : Int
  closeMinSamples : Int
  closeSuccessRatioGte : ℚ
  enabled : Bool
  windowMs : Int
  revert : RevertMode

def defaultSpec : BreakerSpec := newBreakerBase

def positiveMs (v fallback : Int) : Int := if 0 < v then v else fallback

def paramsFor (spec : Option BreakerSpec) : EvalParams :=
  let base := defaultSpec
  let spec := spec.getD base
  let openMs := positiveMs spec.openDuration.milliseconds base.openDuration.milliseconds
  let maxOpenMs := positiveMs spec.maxOpenDuration.milliseconds base.maxOpenDuration.milliseconds
  let windowMs := positiveMs spec.window.milliseconds base.window.milliseconds
  let buckets := if spec.buckets ≤ 0 ∨ 60 < spec.buckets then base.buckets else spec.buckets
  let bucketMs := windowMs.tdiv buckets
  { buckets := buckets
    bucketMs := if bucketMs ≤ 0 then 1 else bucketMs
    minRequests := if spec.minRequests ≤ 0 then base.minRequests else spec.minRequests
    riskRatioGte := spec.trip.riskRatioGte
    captchaGte := spec.trip.distinctCaptchaIdentitiesGte
    successRatioLte := spec.trip.successRatioLte
    openMs := openMs
    maxOpenMs := if maxOpenMs < openMs then openMs else maxOpenMs
    resetAfterMs :=
      positiveMs spec.resetOpenCountAfter.milliseconds base.resetOpenCountAfter.milliseconds
    closeMinSamples :=
      if spec.halfOpen.closeMinSamples ≤ 0 then base.halfOpen.closeMinSamples
      else spec.halfOpen.closeMinSamples
    closeSuccessRatioGte :=
      if spec.halfOpen.closeSuccessRatioGte ≤ 0 then base.halfOpen.closeSuccessRatioGte
      else spec.halfOpen.closeSuccessRatioGte
    enabled := spec.enabled
    windowMs := windowMs
    revert :=
      if validRevertMode spec.revertRecentCooldowns then spec.revertRecentCooldowns
      else .endpoint }

/-- The script call of an evaluation; `captcha` is the reply of its PFCOUNT. -/
def evalExec (eg : Hkey) (now : Int) (p : EvalParams) (mode : EvalMode) (captcha : Nat) :
    EvalArgs where
  eg := eg
  now := now
  bucketMs := p.bucketMs
  buckets := p.buckets
  minRequests := p.minRequests
  riskGte := p.riskRatioGte
  captchaGte := p.captchaGte
  successLte := p.successRatioLte
  openMs := p.openMs
  maxOpenMs := p.maxOpenMs
  resetAfterMs := p.resetAfterMs
  closeMin := p.closeMinSamples
  closeRatio := p.closeSuccessRatioGte
  mode := mode
  enabled := p.enabled
  captcha := captcha

/-! ## Agreement -/

section Agreement

variable (spec : Option BreakerSpec)

theorem default_window_ms : defaultSpec.window.milliseconds = 60000 := by decide

theorem default_buckets : defaultSpec.buckets = 12 := by decide

theorem params_window_pos : 0 < (paramsFor spec).windowMs := by
  simp only [paramsFor, positiveMs, default_window_ms]
  split_ifs <;> omega

theorem params_buckets_range : 1 ≤ (paramsFor spec).buckets ∧ (paramsFor spec).buckets ≤ 60 := by
  simp only [paramsFor, default_buckets]
  split_ifs <;> omega

theorem params_bucket_ms :
    (paramsFor spec).bucketMs = max ((paramsFor spec).windowMs / (paramsFor spec).buckets) 1 := by
  have divided : (paramsFor spec).windowMs.tdiv (paramsFor spec).buckets =
      (paramsFor spec).windowMs / (paramsFor spec).buckets :=
    Int.tdiv_eq_ediv_of_nonneg (params_window_pos spec).le
  rw [← divided]
  simp only [paramsFor]
  split_ifs <;> omega

theorem params_bucket_pos : 0 < (paramsFor spec).bucketMs := by
  rw [params_bucket_ms]
  omega

/-- Writer and evaluator derive the same window and the same bucket length. -/
theorem breaker_window_params :
    breakerWindow spec = ((paramsFor spec).windowMs, (paramsFor spec).bucketMs) := by
  have window : defaultBreakerWindow.milliseconds = 60000 := by decide
  cases spec with
  | none => rfl
  | some spec =>
    have buckets : (if 0 < spec.buckets ∧ spec.buckets ≤ maxBreakerBuckets then spec.buckets
          else defaultBreakerBuckets) =
        if spec.buckets ≤ 0 ∨ 60 < spec.buckets then defaultSpec.buckets else spec.buckets := by
      simp only [maxBreakerBuckets, defaultBreakerBuckets, default_buckets]
      split_ifs <;> omega
    simp only [breakerWindow, paramsFor, Option.getD_some, positiveMs, buckets, window,
      default_window_ms, Prod.mk.injEq, true_and]
    split_ifs <;> omega

/-- Every report gets a bucket, and its key lives for two windows. -/
theorem win_suffix_params (nowMs : Int) :
    winSuffix spec nowMs =
      (some (nowMs.tdiv (paramsFor spec).bucketMs), 2 * (paramsFor spec).windowMs) := by
  have lengths : 0 < (paramsFor spec).windowMs ∧ 0 < (paramsFor spec).bucketMs :=
    ⟨params_window_pos spec, params_bucket_pos spec⟩
  simp only [winSuffix, breaker_window_params, if_pos lengths]

/-- The script's own bounds leave the derived lengths as they are. -/
theorem eval_exec_lengths (eg : Hkey) (now : Int) (mode : EvalMode) (captcha : Nat) :
    (evalExec eg now (paramsFor spec) mode captcha).bucket = (paramsFor spec).bucketMs ∧
      (evalExec eg now (paramsFor spec) mode captcha).bucketCount = (paramsFor spec).buckets := by
  have positive := params_bucket_pos spec
  have range := params_buckets_range spec
  simp only [EvalArgs.bucket, EvalArgs.bucketCount, evalExec]
  omega

/-- Unless buckets were stretched to a millisecond, the summed buckets cover at most a window. -/
theorem buckets_span (roomy : (paramsFor spec).buckets ≤ 2 * (paramsFor spec).windowMs + 1) :
    (paramsFor spec).buckets * (paramsFor spec).bucketMs ≤ 2 * (paramsFor spec).windowMs + 1 := by
  have window := params_window_pos spec
  have covered := Int.mul_ediv_self_le (x := (paramsFor spec).windowMs)
    (k := (paramsFor spec).buckets) (by have := params_buckets_range spec; omega)
  rw [params_bucket_ms]
  rcases max_choice ((paramsFor spec).windowMs / (paramsFor spec).buckets) 1 with wide | stretched
  · rw [wide]
    omega
  · rw [stretched]
    omega

end Agreement

end Spinneret.Breakers
