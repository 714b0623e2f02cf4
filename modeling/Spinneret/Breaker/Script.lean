import Spinneret.HotState.Prelude

/-!
# The breaker scripts

`breaker_eval` sums the sliding window of a group and runs the automatic state
machine; `breaker_set` opens or closes a breaker by hand. Both report a
half-open step that an acquire took silently, recognised by an open end that
was left in place.
-/

namespace Spinneret.Breakers

open Spinneret.HotState Spinneret.Lib

set_option autoImplicit false

inductive EvalMode where
  | eval | read
  deriving DecidableEq, Repr

inductive Trigger where
  | none | auto | probe
  deriving DecidableEq, Repr

/-- Arguments of breaker_eval. `captcha` is the PFCOUNT reply over the captcha
sets of the window, whose estimate is not determined by the hot state. -/
structure EvalArgs where
  eg : Hkey
  now : Int
  bucketMs : Int
  buckets : Int
  minRequests : Int
  riskGte : ℚ
  captchaGte : Int
  successLte : ℚ
  openMs : Int
  maxOpenMs : Int
  resetAfterMs : Int
  closeMin : Int
  closeRatio : ℚ
  mode : EvalMode
  enabled : Bool
  captcha : Nat

namespace EvalArgs

def bucket (args : EvalArgs) : Int := max args.bucketMs 1

def bucketCount (args : EvalArgs) : Int := min (max args.buckets 1) 60

def requests (args : EvalArgs) : Int := max args.minRequests 1

def closeSamples (args : EvalArgs) : Int := max args.closeMin 1

def openFirst (args : EvalArgs) : Int := max args.openMs 1

def openMost (args : EvalArgs) : Int := max args.maxOpenMs args.openFirst

end EvalArgs

/-- Sum of the buckets of the window that started after the last close. -/
def windowSum (args : EvalArgs) (site : Site) (lc : Int) : WindowBucket :=
  let last := args.now / args.bucket
  let opened := last - args.bucketCount + 1
  let first := if 0 < lc then max opened (-((-lc) / args.bucket)) else opened
  (List.range (last - first + 1).toNat).foldl
    (fun (sum : WindowBucket) k =>
      let bucket := site.win args.eg (first + k)
      { t := sum.t + bucket.t, s := sum.s + bucket.s, r := sum.r + bucket.r })
    {}

/-- The doubling loop of `open_for`, with the iterations left. -/
def doubled (most : Int) : Nat → Int → Int
  | 0, d => d
  | steps + 1, d => if d < most then doubled most steps (d * 2) else d

def openFor (args : EvalArgs) (n : Int) : Int :=
  min (doubled args.openMost (n - 1).toNat args.openFirst) args.openMost

def ratioStr (value : ℚ) : String :=
  let cents := round (value * 100)
  let digits := cents.natAbs % 100
  (if cents < 0 then "-" else "") ++ toString (cents.natAbs / 100) ++ "." ++
    (if digits < 10 then "0" else "") ++ toString digits

def tripReasons (args : EvalArgs) (sum : WindowBucket) : List String :=
  let rr : ℚ := sum.r / sum.t
  let sr : ℚ := sum.s / sum.t
  (if 0 < args.riskGte ∧ args.riskGte ≤ rr then
    ["risk_ratio " ++ ratioStr rr ++ " >= " ++ ratioStr args.riskGte] else []) ++
  (if 0 < args.captchaGte ∧ args.captchaGte ≤ args.captcha then
    ["captcha_identities " ++ toString args.captcha ++ " >= " ++ toString args.captchaGte]
    else []) ++
  (if 0 < args.successLte ∧ sr ≤ args.successLte then
    ["success_ratio " ++ ratioStr sr ++ " <= " ++ ratioStr args.successLte] else [])

/-- A breaker after an evaluation and the transition it took, if any. -/
structure Evaluated where
  breaker : Breaker
  target : Option BreakerState := none
  trigger : Trigger := .none

def goClosed (args : EvalArgs) (breaker : Breaker) (reason : String) (trigger : Trigger) :
    Evaluated where
  breaker := { breaker with
    st := .closed, ou := 0, man := 0, lc := args.now, hw := 0, hc := 0, ps := 0, pk := 0
    rsn := reason, v := breaker.v + 1 }
  target := some .closed
  trigger := trigger

def goOpen (args : EvalArgs) (breaker : Breaker) (reason : String) (trigger : Trigger)
    (nextOc : Int) : Evaluated where
  breaker := { breaker with
    oc := nextOc, st := .opened, man := 0, lo := args.now
    ou := args.now + openFor args nextOc
    hw := 0, hc := 0, ps := 0, pk := 0, rsn := reason, v := breaker.v + 1 }
  target := some .opened
  trigger := trigger

def goHalfOpen (args : EvalArgs) (breaker : Breaker) : Evaluated where
  breaker := { breaker with
    st := .halfOpen, ou := 0, hw := args.now, hc := 0, ps := 0, pk := 0, v := breaker.v + 1 }
  target := some .halfOpen
  trigger := .auto

def evalDisabled (args : EvalArgs) (breaker : Breaker) : Evaluated :=
  if breaker.st = .halfOpen ∨ (breaker.st = .opened ∧ breaker.man ≠ 1) then
    goClosed args breaker "breaker disabled by policy" .auto
  else if breaker.st = .opened ∧ 0 < breaker.ou ∧ breaker.ou ≤ args.now then
    goClosed args breaker "manual open expired (breaker disabled by policy)" .auto
  else { breaker := breaker }

def evalClosed (args : EvalArgs) (sum : WindowBucket) (breaker : Breaker) : Evaluated :=
  if args.requests ≤ sum.t ∧ 0 < sum.t then
    let reasons := tripReasons args sum
    if reasons = [] then { breaker := breaker }
    else goOpen args breaker ("; ".intercalate reasons) .auto
      (if 0 < breaker.lc ∧ args.resetAfterMs ≤ args.now - breaker.lc then 1 else breaker.oc + 1)
  else { breaker := breaker }

/-- An automatic open without an end counts as expired. -/
def evalOpen (args : EvalArgs) (breaker : Breaker) : Evaluated :=
  if (0 < breaker.ou ∧ breaker.ou ≤ args.now) ∨ (breaker.man ≠ 1 ∧ breaker.ou ≤ 0) then
    goHalfOpen args breaker
  else { breaker := breaker }

def evalHalfOpen (args : EvalArgs) (breaker : Breaker) : Evaluated :=
  if args.closeSamples ≤ breaker.ps then
    let pr : ℚ := breaker.pk / breaker.ps
    if args.closeRatio ≤ pr then
      goClosed args breaker
        ("probe success_ratio " ++ ratioStr pr ++ " >= " ++ ratioStr args.closeRatio) .probe
    else
      goOpen args breaker
        ("probe success_ratio " ++ ratioStr pr ++ " < " ++ ratioStr args.closeRatio) .probe
        (breaker.oc + 1)
  else { breaker := breaker }

/-- A half-open breaker whose open end is still in place was half-opened by an
acquire that nothing has recorded. -/
def lazyPending (breaker : Breaker) : Bool :=
  decide (breaker.st = .halfOpen ∧ 0 < breaker.ou)

def lazyAt (now : Int) (breaker : Breaker) : Int :=
  if breaker.hw ≤ 0 then now else breaker.hw

def evalBreaker (args : EvalArgs) (sum : WindowBucket) (breaker : Breaker) : Evaluated :=
  if lazyPending breaker then { breaker := { breaker with ou := 0 } }
  else if args.enabled then
    match breaker.st with
    | .closed => evalClosed args sum breaker
    | .opened => evalOpen args breaker
    | .halfOpen => evalHalfOpen args breaker
  else evalDisabled args breaker

structure EvalReply where
  fromState : BreakerState
  target : Option BreakerState
  trigger : Trigger
  sum : WindowBucket
  captcha : Nat
  breaker : Breaker
  psBefore : Int
  pkBefore : Int
  lazyAt : Option Int

/-- The `brko` set after a script left group `eg` in state `st`. -/
def trackOpen (brko : Finset Hkey) (eg : Hkey) (st : BreakerState) : Finset Hkey :=
  if st = .closed then brko.erase eg else insert eg brko

def breakerEval (args : EvalArgs) (site : Site) : Site × EvalReply :=
  let breaker := site.brk args.eg
  let sum := windowSum args site breaker.lc
  match args.mode with
  | .read => (site,
      { fromState := breaker.st, target := none, trigger := .none, sum := sum
        captcha := args.captcha, breaker := breaker, psBefore := breaker.ps
        pkBefore := breaker.pk, lazyAt := none })
  | .eval =>
    let result := evalBreaker args sum breaker
    let written := site.setBrk args.eg result.breaker
    ({ written with brko := trackOpen written.brko args.eg result.breaker.st },
      { fromState := breaker.st, target := result.target, trigger := result.trigger, sum := sum
        captcha := args.captcha, breaker := result.breaker, psBefore := breaker.ps
        pkBefore := breaker.pk
        lazyAt := if lazyPending breaker then some (lazyAt args.now breaker) else none })

inductive SetOp where
  | openIt | closeIt
  deriving DecidableEq, Repr

structure SetArgs where
  eg : Hkey
  now : Int
  op : SetOp
  duration : Int
  reason : String

structure SetReply where
  fromState : BreakerState
  changed : Bool
  breaker : Breaker
  lazyAt : Option Int
  rsnBefore : String
  manBefore : Int

def setOpened (args : SetArgs) (breaker : Breaker) : Breaker :=
  { breaker with
    st := .opened, man := 1, lo := args.now
    ou := if 0 < args.duration then args.now + args.duration else 0
    hw := 0, hc := 0, ps := 0, pk := 0, rsn := args.reason, v := breaker.v + 1 }

def setClosed (args : SetArgs) (breaker : Breaker) : Breaker :=
  { breaker with
    st := .closed, man := 0, ou := 0, lc := args.now
    hw := 0, hc := 0, ps := 0, pk := 0, rsn := args.reason, v := breaker.v + 1 }

/-- Opening always takes effect; closing a closed breaker changes nothing. -/
def setBreaker (args : SetArgs) (breaker : Breaker) : Option Breaker :=
  match args.op with
  | .openIt => some (setOpened args breaker)
  | .closeIt => if breaker.st = .closed then none else some (setClosed args breaker)

def breakerSet (args : SetArgs) (site : Site) : Site × SetReply :=
  let breaker := site.brk args.eg
  let reply (changed : Bool) (after : Breaker) : SetReply :=
    { fromState := breaker.st
      changed := changed
      breaker := after
      lazyAt := if lazyPending breaker then some (lazyAt args.now breaker) else none
      rsnBefore := breaker.rsn
      manBefore := breaker.man }
  match setBreaker args breaker with
  | none => (site, reply false breaker)
  | some after =>
    let written := site.setBrk args.eg after
    ({ written with brko := trackOpen written.brko args.eg after.st }, reply true after)

end Spinneret.Breakers
