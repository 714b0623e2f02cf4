import Mathlib.Data.Rat.Floor
import Mathlib.Data.Finset.Basic
import Spinneret.Lib.Table

/-!
# The hot state of one site

The Redis keys under one site base `P:T:`, one field per key family, as the Lua
scripts read and write them. Hash fields whose absence the scripts read as a
default carry that default; a field whose presence is itself tested is an
`Option`. Timestamps and scores are Unix milliseconds. Health scores are exact
rationals where the scripts compute with doubles, and a stored score has two
decimals.
-/

namespace Spinneret.HotState

open Spinneret.Lib

set_option autoImplicit false

/-- Identity, account, proxy and endpoint group keys are decimal numerals. -/
abbrev Hkey := Nat

/-- Sorted-set members of equal score are ordered byte-wise, so `10` precedes `9`. -/
def hkeyLe (left right : Hkey) : Bool := decide (toString left ≤ toString right)

/-- A lease id is a Go-supplied lead followed by the two-digit report shard. -/
structure LeaseId where
  lead : String
  shard : Nat
  deriving DecidableEq, Repr

def hexDigits (value : Nat) : String :=
  let digits := String.ofList (Nat.toDigits 16 value)
  if value < 16 then "0" ++ digits else digits

def LeaseId.text (lid : LeaseId) : String := lid.lead ++ hexDigits lid.shard

def leaseIdLe (left right : LeaseId) : Bool := decide (left.text ≤ right.text)

inductive IdState where
  | pending | active | expired | banned | quarantined | disabled | retired
  deriving DecidableEq, Repr

inductive AccState where
  | active | banned | disabled
  deriving DecidableEq, Repr

inductive ProxyState where
  | active | disabled | dead | banned | quarantined | retired
  deriving DecidableEq, Repr

inductive LeaseState where
  | active | released | expired
  deriving DecidableEq, Repr

inductive BreakerState where
  | closed | opened | halfOpen
  deriving DecidableEq, Repr

inductive ReuseAnchor where
  | acquired | released
  deriving DecidableEq, Repr

inductive ReuseScope where
  | endpoint | site
  deriving DecidableEq, Repr

/-- The groups that pushed an identity to the expiry of an exclusive lease;
`every` is the bare `"1"` an older release wrote. -/
inductive PushMark where
  | every
  | groups (list : List Hkey)
  deriving DecidableEq, Repr

/-- Hash `id:<i>`. -/
structure Identity where
  iid : String
  st : IdState
  ty : String
  tv : String
  pv : String
  acc : Option Hkey
  rg : String
  bu : Int
  qu : Int
  act : Int
  px : Option Hkey
  sct : Int
  al : Int := 0
  xl : Int := 0
  scd : Int := 0
  sru : Int := 0
  lu : Int := 0
  gs : Option ℚ := none
  gts : Option Int := none
  gn : Int := 0
  gnf : Int := 0
  glf : Int := 0
  rbd : String := ""
  rbn : Int := 0
  xg : Option PushMark := none
  deriving DecidableEq

def plainIdentity (iid : String) (st : IdState) : Identity :=
  { iid := iid, st := st, ty := "", tv := "", pv := "", acc := none, rg := "", bu := 0, qu := 0
    act := 0, px := none, sct := 0 }

/-- Hash `px:<p>`. -/
structure Proxy where
  pid : String
  st : ProxyState
  kd : String
  rg : String
  pv : String
  tg : List String
  mc : Int
  uv : String
  gcd : Int
  bu : Int
  qu : Int
  sct : Int
  al : Int := 0
  cd : Int := 0
  sc : Option ℚ := none
  sts : Option Int := none
  sn : Int := 0
  nf : Int := 0
  lf : Int := 0
  deriving DecidableEq

/-- Hash `acc:<a>`. -/
structure Account where
  st : AccState
  bu : Int
  cd : Int
  sct : Int
  deriving DecidableEq

/-- Hash `ls:<lid>`. `expireAt` is the key's expiry time: an active lease hash
has none, ending the lease sets one. -/
structure Lease where
  i : Hkey
  iid : String
  e : Hkey
  p : Option Hkey
  pid : String
  n : String
  tk : String
  ns : String
  sk : String
  a : Int
  x : Int
  cap : Int
  ttl : Int
  st : LeaseState
  pr : Bool
  mc : Int
  ri : Int
  ra : ReuseAnchor
  rs : ReuseScope
  rc : Int := 0
  pru : Option Int := none
  kx : Int := 0
  rv : Int := 0
  ended : Int := 0
  expireAt : Option Int := none
  deriving DecidableEq

/-- One packed entry of `hs:<eg>`: `score|sts|samples|nfail|lastfail|cd|ru|lu`. -/
structure Health where
  score : ℚ
  sts : Int
  samples : Int := 0
  nfail : Int := 0
  lastfail : Int := 0
  cd : Int := 0
  ru : Int := 0
  lu : Int := 0
  deriving DecidableEq

/-- Hash `brk:<eg>`; a missing hash reads as a closed breaker of version 0. -/
structure Breaker where
  st : BreakerState := .closed
  ou : Int := 0
  oc : Int := 0
  lo : Int := 0
  lc : Int := 0
  man : Int := 0
  hw : Int := 0
  hc : Int := 0
  ps : Int := 0
  pk : Int := 0
  rsn : String := ""
  v : Int := 0
  deriving DecidableEq, Inhabited

/-- The fields `<w>:c`, `<w>:n`, `<w>:p` of one quota window. -/
structure QuotaCell where
  c : Int
  n : Int
  p : Int
  deriving DecidableEq

/-- Hash `q:<eg>:<i>`, keyed by the window length in milliseconds. -/
structure QuotaHash where
  cells : Int → Option QuotaCell := fun _ => none
  expireAt : Option Int := none

/-- One bucket hash `win:<eg>:<bucket>`. -/
structure WindowBucket where
  t : Int := 0
  s : Int := 0
  r : Int := 0
  deriving DecidableEq

inductive Outcome where
  | success | empty | rateLimited | captcha | authInvalid | forbidden | banned | proxyError
  | networkError | targetError | clientError | unknown
  deriving DecidableEq, Repr

/-- Subject of an outcome counter `cnt:<subject>:<outcome>:<window>`. -/
inductive CounterSubject where
  | identity (i : Hkey)
  | account (a : Hkey)
  | proxy (p : Hkey)
  deriving DecidableEq, Repr

structure CounterKey where
  subject : CounterSubject
  outcome : Outcome
  window : Int
  deriving DecidableEq, Repr

/-- Members of the `dirty` set, which the snapshot writer drains. -/
inductive Dirty where
  | endpoint (eg i : Hkey)
  | global (i : Hkey)
  | proxy (p : Hkey)
  deriving DecidableEq, Repr

/-- A state name as the apply script reports it. -/
inductive SubjectState where
  | identity (st : IdState)
  | account (st : AccState)
  | proxy (st : ProxyState)
  deriving DecidableEq, Repr

inductive ActionReason where
  | none | missing | alreadyCooling | alreadyBanned | moreSevere | alreadyExpired
  | alreadyQuarantined | notApplicable | notPending | notCooling | newerState | invalid
  deriving DecidableEq, Repr

/-- A member identity that an account operation changed: `hkey|iid|from|to`. -/
structure ActionMember where
  hkey : Hkey
  iid : String
  fromState : IdState
  toState : IdState
  deriving DecidableEq, Repr

/-- One result entry of the apply script; an empty state name is `none`. -/
structure ActionResult where
  applied : Bool
  reason : ActionReason
  fromState : Option SubjectState
  toState : Option SubjectState
  untilMs : Int
  members : List ActionMember := []
  deriving DecidableEq, Repr

/-- A report stream entry id `<ms>-<seq>`. -/
structure StreamId where
  ms : Nat
  seq : Nat
  deriving DecidableEq, Repr

structure Site where
  id : Hkey → Option Identity := fun _ => none
  px : Hkey → Option Proxy := fun _ => none
  acc : Hkey → Option Account := fun _ => none
  accm : Hkey → Finset Hkey := fun _ => ∅
  ls : Table LeaseId Lease := ∅
  lsexp : ZSet LeaseId := ∅
  rdy : Hkey → ZSet Hkey := fun _ => ∅
  pxrdy : ZSet Hkey := ∅
  hs : Hkey → Hkey → Option Health := fun _ _ => none
  q : Hkey → Hkey → QuotaHash := fun _ _ => {}
  brk : Hkey → Breaker := fun _ => {}
  brko : Finset Hkey := ∅
  aeg : ZSet Hkey := ∅
  dirty : Finset Dirty := ∅
  stk : Hkey → String → Option Hkey := fun _ _ => none
  rr : Hkey → Int := fun _ => 0
  win : Hkey → Int → WindowBucket := fun _ _ => {}
  cnt : CounterKey → Table Int Int := fun _ => ∅
  bans : Hkey → ZSet Int := fun _ => ∅
  xaProxy : Hkey → ZSet Hkey := fun _ => ∅
  xaIdentity : Hkey → ZSet Hkey := fun _ => ∅
  rcd : Hkey → ZSet (Hkey × Int × Int) := fun _ => ∅
  rcds : ZSet (Hkey × Int) := ∅
  ckpt : Nat → Option StreamId := fun _ => none
  axr : String → Option (List ActionResult) := fun _ => none

namespace Site

def setId (site : Site) (i : Hkey) (value : Option Identity) : Site :=
  { site with id := Function.update site.id i value }

def setPx (site : Site) (p : Hkey) (value : Option Proxy) : Site :=
  { site with px := Function.update site.px p value }

def setAcc (site : Site) (a : Hkey) (value : Option Account) : Site :=
  { site with acc := Function.update site.acc a value }

def setBrk (site : Site) (eg : Hkey) (value : Breaker) : Site :=
  { site with brk := Function.update site.brk eg value }

def setRdy (site : Site) (eg : Hkey) (value : ZSet Hkey) : Site :=
  { site with rdy := Function.update site.rdy eg value }

def setHs (site : Site) (eg i : Hkey) (value : Option Health) : Site :=
  { site with hs := Function.update site.hs eg (Function.update (site.hs eg) i value) }

def setQ (site : Site) (eg i : Hkey) (value : QuotaHash) : Site :=
  { site with q := Function.update site.q eg (Function.update (site.q eg) i value) }

def markDirty (site : Site) (key : Dirty) : Site :=
  { site with dirty := insert key site.dirty }

end Site

end Spinneret.HotState
