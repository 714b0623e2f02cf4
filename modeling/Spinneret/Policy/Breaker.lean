import Mathlib.Data.Rat.Defs

/-!
# Breaker policies

Durations of policies and the breaker policy of an endpoint group with its
defaults. Zero stands for an unset field; the trip thresholds accept zero and are
only defaulted in the built-in policy.
-/

namespace Spinneret.Policy

set_option autoImplicit false

structure Duration where
  ns : Int
  deriving DecidableEq, Repr

namespace Duration

def permanent : Duration := ⟨-1⟩

def second : Duration := ⟨1000000000⟩

def scaled (n : Int) (d : Duration) : Duration := ⟨n * d.ns⟩

def milliseconds (d : Duration) : Int :=
  if d = permanent then -1 else d.ns.tdiv 1000000

end Duration

/-- A text that is no mode is kept as it is. -/
inductive RevertMode where
  | none | endpoint | all
  | other (text : String)
  deriving DecidableEq, Repr

def validRevertMode : RevertMode → Bool
  | .other _ => false
  | _ => true

structure TripSpec where
  riskRatioGte : ℚ
  distinctCaptchaIdentitiesGte : Int
  successRatioLte : ℚ

structure HalfOpenSpec where
  probeLeasesPer10s : Int := 0
  closeMinSamples : Int := 0
  closeSuccessRatioGte : ℚ := 0

structure BreakerSpec where
  enabled : Bool
  window : Duration := ⟨0⟩
  buckets : Int := 0
  minRequests : Int := 0
  trip : TripSpec
  openDuration : Duration := ⟨0⟩
  maxOpenDuration : Duration := ⟨0⟩
  resetOpenCountAfter : Duration := ⟨0⟩
  halfOpen : HalfOpenSpec := {}
  revertRecentCooldowns : RevertMode := .other ""

def defaultBreakerWindow : Duration := .scaled 60 .second

def defaultBreakerBuckets : Int := 12

def setInt (value fallback : Int) : Int := if value = 0 then fallback else value

def setDuration (value fallback : Duration) : Duration := if value = ⟨0⟩ then fallback else value

def BreakerSpec.applyDefaults (s : BreakerSpec) : BreakerSpec :=
  { s with
    window := setDuration s.window defaultBreakerWindow
    buckets := setInt s.buckets defaultBreakerBuckets
    minRequests := setInt s.minRequests 50
    openDuration := setDuration s.openDuration (.scaled 120 .second)
    maxOpenDuration := setDuration s.maxOpenDuration (.scaled 3600 .second)
    resetOpenCountAfter := setDuration s.resetOpenCountAfter (.scaled 1800 .second)
    halfOpen :=
      { probeLeasesPer10s := setInt s.halfOpen.probeLeasesPer10s 5
        closeMinSamples := setInt s.halfOpen.closeMinSamples 5
        closeSuccessRatioGte :=
          if s.halfOpen.closeSuccessRatioGte = 0 then 8 / 10 else s.halfOpen.closeSuccessRatioGte }
    revertRecentCooldowns :=
      if s.revertRecentCooldowns = .other "" then .endpoint else s.revertRecentCooldowns }

def newBreakerBase : BreakerSpec :=
  BreakerSpec.applyDefaults
    { enabled := true
      trip :=
        { riskRatioGte := 4 / 10
          distinctCaptchaIdentitiesGte := 10
          successRatioLte := 2 / 10 } }

end Spinneret.Policy
