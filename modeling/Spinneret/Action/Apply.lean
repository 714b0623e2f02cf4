import Mathlib.Data.Finset.Sort
import Spinneret.HotState.Prelude

/-!
# Apply: dispositions and lifecycle changes

One call of the apply script runs a list of operations on the hot state of a
site. A non-forced operation respects the severity of the present state; a
recorded token returns the results of its first call without a second effect.
-/

namespace Spinneret.Action

open Spinneret.HotState Spinneret.Lib

set_option autoImplicit false

inductive OpKind where
  | cd | ban | exp | qua | act | set | clr | rst | unknown
  deriving DecidableEq, Repr

/-- The scopes `ie`, `is`, `ac`, `ps`, `pg`, `id` and `px`. -/
inductive Scope where
  | ie | is | ac | ps | pg | id | px
  deriving DecidableEq, Repr

structure Op where
  op : OpKind
  sc : Scope
  s : Hkey
  eg : Hkey := 0
  u : Int := 0
  f : Nat := 0
  egs : List Hkey := []
  add : List Hkey := []
  target : Option IdState := none
  trim : Option Int := none
  pn : Int := 0
  bl : Option ℚ := none
  bls : Hkey → Option ℚ := fun _ => none
  cnt : List CounterKey := []
  gl : Bool := false

def banHistoryMs : Int := 2592000000

def siteCdTrimMs : Int := 600000

def defaultBaseline : ℚ := 70

def fAuto : Nat := 1
def fForce : Nat := 2
def fResetFail : Nat := 4
def fResetHealth : Nat := 8
def fBans : Nat := 16

def apHas (flags bit : Nat) : Bool := decide (flags / bit % 2 = 1)

def Op.force (op : Op) : Bool := apHas op.f fForce

def skipped (reason : ActionReason) (state : Option SubjectState) (u : Int) : ActionResult where
  applied := false
  reason := reason
  fromState := state
  toState := state
  untilMs := u

def changed (fromState toState : SubjectState) (u : Int) : ActionResult where
  applied := true
  reason := .none
  fromState := some fromState
  toState := some toState
  untilMs := u

def apBaseline (op : Op) (eg : Hkey) : ℚ :=
  (op.bls eg).getD (op.bl.getD defaultBaseline)

/-- `ap_avail`: the availability of an identity whose hash is in hand. -/
def apAvail (site : Site) (id : Identity) (cd ru : Int) : Int :=
  max (max cd ru) (identityAvail site id.scd id.sru id.al id.xl id.acc)

def apZremAll (egs : List Hkey) (i : Hkey) (site : Site) : Site :=
  egs.foldl (fun site eg => site.setRdy eg ((site.rdy eg).erase i)) site

theorem zrem_all_only_ready (egs : List Hkey) (i : Hkey) (site : Site) :
    OnlyReady site (apZremAll egs i site) :=
  OnlyReady.foldl (fun site eg => OnlyReady.setRdy site eg _) egs site

def resetHealth (op : Op) (eg : Hkey) (now : Int) (fails health : Bool) (entry : Health) : Health :=
  let failed : Health := if fails then { entry with nfail := 0, lastfail := 0 } else entry
  if health then { failed with score := apBaseline op eg, sts := now, samples := 0 } else failed

/-- `ap_reset_hs`: only an entry that is present is reset. -/
def apResetHs (op : Op) (i : Hkey) (now : Int) (fails health : Bool) (site : Site) (eg : Hkey) :
    Site :=
  match site.hs eg i with
  | none => site
  | some entry =>
    (hsSet site eg i (resetHealth op eg now fails health entry)).markDirty (.endpoint eg i)

def clearStreak (id : Identity) : Identity := { id with gnf := 0, glf := 0 }

def clearScore (id : Identity) : Identity := { id with gs := none, gts := none, gn := 0 }

def mapId (site : Site) (i : Hkey) (change : Identity → Identity) : Site :=
  match site.id i with
  | none => site
  | some id => site.setId i (some (change id))

def apResetIdentity (op : Op) (egs : List Hkey) (i : Hkey) (now : Int) (fails health : Bool)
    (site : Site) : Site :=
  if fails ∨ health then
    let entries := egs.foldl (apResetHs op i now fails health) site
    let streak := if fails then mapId entries i clearStreak else entries
    if health then (mapId streak i clearScore).markDirty (.global i) else streak
  else site

def apRecordBan (i : Hkey) (now : Int) (site : Site) : Site :=
  { site with
    bans := Function.update site.bans i
      (ZSet.trim ((site.bans i).add now now) (now - banHistoryMs)) }

/-- The severity rule of a ban against the state it meets. -/
def banRefused (id : Identity) (u : Int) : Option ActionReason :=
  if id.st = .retired ∨ id.st = .disabled then some .notApplicable
  else if id.st = .banned ∧ (id.bu = -1 ∨ (u ≠ -1 ∧ u ≤ id.bu)) then some .alreadyBanned
  else none

structure BanOutcome where
  site : Site
  refused : Option ActionReason
  fromState : Option IdState

/-- `ap_ban_identity`, shared by identity and account bans. -/
def apBanIdentity (now : Int) (op : Op) (i : Hkey) (u : Int) (site : Site) : BanOutcome :=
  match site.id i with
  | none => { site := site, refused := some .missing, fromState := none }
  | some id =>
    match if op.force then none else banRefused id u with
    | some reason => { site := site, refused := some reason, fromState := some id.st }
    | none =>
      let banned := apZremAll op.egs i
        (site.setId i (some { id with st := .banned, bu := u, qu := 0, sct := now }))
      { site := if apHas op.f fBans then apRecordBan i now banned else banned
        refused := none
        fromState := some id.st }

/-- Automatic cooldowns of an identity on a group are kept for a revert. A
retention that is not positive expires the key at once. -/
def recordCooldown (now : Int) (op : Op) (prevCd prevNfail : Int) (site : Site) : Site :=
  let trim := op.trim.getD siteCdTrimMs
  let recorded := ZSet.trim ((site.rcd op.eg).add now (op.s, prevCd, prevNfail)) (now - trim)
  { site with
    rcd := Function.update site.rcd op.eg (if 0 < trim then recorded else ∅) }

def recordSiteCooldown (now : Int) (op : Op) (prev : Int) (site : Site) : Site :=
  { site with rcds := ZSet.trim (site.rcds.add now (op.s, prev)) (now - siteCdTrimMs) }

def cooldownEntry (now : Int) (op : Op) (site : Site) : Health :=
  (site.hs op.eg op.s).getD (hsPack (hsUnpack none (apBaseline op op.eg) now))

/-- Scope `ie` of a cooldown: only `cd` of the entry changes. -/
def cooldownEndpoint (now : Int) (op : Op) (id : Identity) (site : Site) : Site × ActionResult :=
  let entry := cooldownEntry now op site
  if op.u ≤ entry.cd ∧ ¬ op.force then
    (site, skipped .alreadyCooling (some (.identity id.st)) entry.cd)
  else
    let written := site.setHs op.eg op.s (some { entry with cd := op.u })
    let recorded := if apHas op.f fAuto then
      recordCooldown now op entry.cd (max 0 (entry.nfail - op.pn)) written else written
    let scored := recorded.setRdy op.eg
      ((recorded.rdy op.eg).move (apAvail recorded id op.u entry.ru) op.s)
    (scored.markDirty (.endpoint op.eg op.s),
      changed (.identity id.st) (.identity id.st) op.u)

theorem cooldown_endpoint_id (now : Int) (op : Op) (id : Identity) (site : Site) :
    (cooldownEndpoint now op id site).1.id = site.id := by
  unfold cooldownEndpoint
  dsimp only
  split_ifs <;> rfl

theorem cooldown_entry_cd (now : Int) (op : Op) (site : Site) :
    (cooldownEntry now op site).cd = (hsCdRu (site.hs op.eg op.s)).1 := by
  unfold cooldownEntry
  cases site.hs op.eg op.s <;> rfl

theorem cooldown_endpoint_hs (now : Int) (op : Op) (id : Identity) (site : Site) :
    (cooldownEndpoint now op id site).1.hs =
      if op.u ≤ (cooldownEntry now op site).cd ∧ ¬ op.force then site.hs
      else (site.setHs op.eg op.s (some { cooldownEntry now op site with cd := op.u })).hs := by
  unfold cooldownEndpoint
  dsimp only
  split_ifs <;> rfl

def cooldownSite (now : Int) (op : Op) (id : Identity) (site : Site) : Site × ActionResult :=
  if op.u ≤ id.scd ∧ ¬ op.force then
    (site, skipped .alreadyCooling (some (.identity id.st)) id.scd)
  else
    let written := site.setId op.s (some { id with scd := op.u })
    let recorded := if apHas op.f fAuto then recordSiteCooldown now op id.scd written else written
    ((pushAll recorded op.egs op.s op.u).markDirty (.global op.s),
      changed (.identity id.st) (.identity id.st) op.u)

theorem cooldown_site_hs (now : Int) (op : Op) (id : Identity) (site : Site) :
    (cooldownSite now op id site).1.hs = site.hs := by
  unfold cooldownSite
  split
  · rfl
  · refine (push_all_only_ready _ _ _ _).hs.trans ?_
    split_ifs <;> rfl

theorem cooldown_site_id (now : Int) (op : Op) (id : Identity) (site : Site) :
    (cooldownSite now op id site).1.id =
      if op.u ≤ id.scd ∧ ¬ op.force then site.id
      else Function.update site.id op.s (some { id with scd := op.u }) := by
  unfold cooldownSite
  split
  · rfl
  · refine (push_all_only_ready _ _ _ _).id.trans ?_
    split_ifs <;> rfl

def members (site : Site) (a : Hkey) : List Hkey := (site.accm a).sort (· ≤ ·)

def cooldownAccount (op : Op) (account : Account) (site : Site) : Site × ActionResult :=
  if op.u ≤ account.cd ∧ ¬ op.force then
    (site, skipped .alreadyCooling (some (.account account.st)) account.cd)
  else
    let written := site.setAcc op.s (some { account with cd := op.u })
    ((members written op.s).foldl (fun site m => pushAll site op.egs m op.u) written,
      changed (.account account.st) (.account account.st) op.u)

/-- Scopes `ps` and `pg`: the cooldown fields `cd` and `gcd` of a proxy. -/
def cooldownProxy (op : Op) (proxy : Proxy) (prev : Int) (written : Proxy) (site : Site) :
    Site × ActionResult :=
  if op.u ≤ prev ∧ ¬ op.force then
    (site, skipped .alreadyCooling (some (.proxy proxy.st)) prev)
  else
    let stored := site.setPx op.s (some written)
    (({ stored with pxrdy := stored.pxrdy.raise op.u op.s }).markDirty (.proxy op.s),
      changed (.proxy proxy.st) (.proxy proxy.st) op.u)

def apCooldown (now : Int) (op : Op) (site : Site) : Site × ActionResult :=
  if op.u ≤ 0 then (site, skipped .invalid none 0)
  else match op.sc with
    | .ie => match site.id op.s with
        | none => (site, skipped .missing none 0)
        | some id => cooldownEndpoint now op id site
    | .is => match site.id op.s with
        | none => (site, skipped .missing none 0)
        | some id => cooldownSite now op id site
    | .ac => match site.acc op.s with
        | none => (site, skipped .missing none 0)
        | some account => cooldownAccount op account site
    | .ps => match site.px op.s with
        | none => (site, skipped .missing none 0)
        | some proxy => cooldownProxy op proxy proxy.cd { proxy with cd := op.u } site
    | .pg => match site.px op.s with
        | none => (site, skipped .missing none 0)
        | some proxy => cooldownProxy op proxy proxy.gcd { proxy with gcd := op.u } site
    | _ => (site, skipped .invalid none 0)

def banIdentityOp (now : Int) (op : Op) (site : Site) : Site × ActionResult :=
  let outcome := apBanIdentity now op op.s op.u site
  match outcome.refused with
  | some reason => (outcome.site, skipped reason (outcome.fromState.map .identity) 0)
  | none => (outcome.site,
      { applied := true
        reason := .none
        fromState := outcome.fromState.map .identity
        toState := some (.identity .banned)
        untilMs := op.u })

/-- Ban one member of an account and note it if it changed. -/
def banMember (now : Int) (op : Op) (state : Site × List ActionMember) (m : Hkey) :
    Site × List ActionMember :=
  let iid := ((state.1.id m).map Identity.iid).getD ""
  let outcome := apBanIdentity now op m op.u state.1
  match outcome.refused, outcome.fromState with
  | none, some st => (outcome.site,
      state.2 ++ [{ hkey := m, iid := iid, fromState := st, toState := .banned }])
  | _, _ => (outcome.site, state.2)

def banMembers (now : Int) (op : Op) (list : List Hkey) (site : Site) :
    Site × List ActionMember :=
  list.foldl (banMember now op) (site, [])

def banAccount (now : Int) (op : Op) (account : Account) (site : Site) : Site × ActionResult :=
  if ¬ op.force ∧ account.st = .disabled then
    (site, skipped .notApplicable (some (.account account.st)) 0)
  else if ¬ op.force ∧ account.st = .banned ∧
      (account.bu = -1 ∨ (op.u ≠ -1 ∧ op.u ≤ account.bu)) then
    (site, skipped .alreadyBanned (some (.account account.st)) account.bu)
  else
    let stored := site.setAcc op.s
      (some { account with st := .banned, bu := op.u, sct := now })
    let result := banMembers now op (members stored op.s) stored
    (result.1, { changed (.account account.st) (.account .banned) op.u with members := result.2 })

/-- A banned proxy without an end counts as banned for good, unlike an identity. -/
def banProxy (now : Int) (op : Op) (proxy : Proxy) (site : Site) : Site × ActionResult :=
  if ¬ op.force ∧ (proxy.st = .retired ∨ proxy.st = .disabled) then
    (site, skipped .notApplicable (some (.proxy proxy.st)) 0)
  else if ¬ op.force ∧ proxy.st = .banned ∧
      (proxy.bu = -1 ∨ (op.u ≠ -1 ∧ (proxy.bu = 0 ∨ op.u ≤ proxy.bu))) then
    (site, skipped .alreadyBanned (some (.proxy proxy.st)) proxy.bu)
  else
    let stored := site.setPx op.s (some { proxy with st := .banned, bu := op.u, sct := now })
    ({ stored with pxrdy := stored.pxrdy.erase op.s },
      changed (.proxy proxy.st) (.proxy .banned) op.u)

def apBan (now : Int) (op : Op) (site : Site) : Site × ActionResult :=
  if op.u = 0 then (site, skipped .invalid none 0)
  else match op.sc with
    | .id => banIdentityOp now op site
    | .ac => match site.acc op.s with
        | none => (site, skipped .missing none 0)
        | some account => banAccount now op account site
    | .px => match site.px op.s with
        | none => (site, skipped .missing none 0)
        | some proxy => banProxy now op proxy site
    | _ => (site, skipped .invalid none 0)

def expireRefused (id : Identity) : Option ActionReason :=
  match id.st with
  | .banned => some .moreSevere
  | .expired => some .alreadyExpired
  | .retired | .disabled => some .notApplicable
  | _ => none

def apExpire (now : Int) (op : Op) (site : Site) : Site × ActionResult :=
  match site.id op.s with
  | none => (site, skipped .missing none 0)
  | some id =>
    match if op.force then none else expireRefused id with
    | some reason => (site, skipped reason (some (.identity id.st)) 0)
    | none =>
      (apZremAll op.egs op.s
        (site.setId op.s (some { id with st := .expired, bu := 0, qu := 0, sct := now })),
        changed (.identity id.st) (.identity .expired) 0)

/-- The refusal of a quarantine and the until its result carries. -/
def quarantineRefused (id : Identity) (u : Int) : Option (ActionReason × Int) :=
  match id.st with
  | .banned | .expired => some (.moreSevere, 0)
  | .retired | .disabled => some (.notApplicable, 0)
  | .quarantined => if u ≤ id.qu then some (.alreadyQuarantined, id.qu) else none
  | _ => none

def quarantineIdentity (now : Int) (op : Op) (id : Identity) (site : Site) :
    Site × ActionResult :=
  match if op.force then none else quarantineRefused id op.u with
  | some (reason, u) => (site, skipped reason (some (.identity id.st)) u)
  | none =>
    (apZremAll op.egs op.s
      (site.setId op.s (some { id with st := .quarantined, qu := op.u, bu := 0, sct := now })),
      changed (.identity id.st) (.identity .quarantined) op.u)

def quarantineProxyRefused (proxy : Proxy) (u : Int) : Option (ActionReason × Int) :=
  match proxy.st with
  | .banned => some (.moreSevere, 0)
  | .retired | .disabled => some (.notApplicable, 0)
  | .quarantined => if u ≤ proxy.qu then some (.alreadyQuarantined, proxy.qu) else none
  | _ => none

def quarantineProxy (now : Int) (op : Op) (proxy : Proxy) (site : Site) : Site × ActionResult :=
  match if op.force then none else quarantineProxyRefused proxy op.u with
  | some (reason, u) => (site, skipped reason (some (.proxy proxy.st)) u)
  | none =>
    let stored := site.setPx op.s
      (some { proxy with st := .quarantined, qu := op.u, sct := now })
    ({ stored with pxrdy := stored.pxrdy.erase op.s },
      changed (.proxy proxy.st) (.proxy .quarantined) op.u)

def apQuarantine (now : Int) (op : Op) (site : Site) : Site × ActionResult :=
  if op.u ≤ 0 then (site, skipped .invalid none 0)
  else match op.sc with
    | .id => match site.id op.s with
        | none => (site, skipped .missing none 0)
        | some id => quarantineIdentity now op id site
    | .px => match site.px op.s with
        | none => (site, skipped .missing none 0)
        | some proxy => quarantineProxy now op proxy site
    | _ => (site, skipped .invalid none 0)

/-- Activation has no force flag and keeps `bu` and `qu`. -/
def apActivate (now : Int) (op : Op) (site : Site) : Site × ActionResult :=
  match site.id op.s with
  | none => (site, skipped .missing none 0)
  | some id =>
    if id.st = .pending then
      (op.egs.foldl (fun site eg => rescore site eg op.s)
        (site.setId op.s (some { id with st := .active, act := now, sct := now })),
        changed (.identity .pending) (.identity .active) 0)
    else (site, skipped .notPending (some (.identity id.st)) 0)

def accountTarget : Option IdState → Option AccState
  | some .active => some .active
  | some .banned => some .banned
  | some .disabled => some .disabled
  | _ => none

def setAccount (now : Int) (op : Op) (site : Site) : Site × ActionResult :=
  match site.acc op.s with
  | none => (site, skipped .missing none 0)
  | some account =>
    match accountTarget op.target with
    | none => (site, skipped .invalid (some (.account account.st)) 0)
    | some target =>
      if now < account.sct then
        (site, skipped .newerState (some (.account account.st)) 0)
      else
        let u := if target = .banned then op.u else 0
        (site.setAcc op.s (some { account with st := target, bu := u, sct := now }),
          changed (.account account.st) (.account target) u)

/-- Ready sets after a manual state: a schedulable identity joins `add` at its
availability and leaves the other groups, any other state leaves them all. -/
def readyAfterSet (op : Op) (target : IdState) (site : Site) : Site :=
  if target = .active ∨ target = .pending then
    let added := op.add.foldl
      (fun site eg => site.setRdy eg ((site.rdy eg).add (avail site eg op.s) op.s)) site
    apZremAll (op.egs.filter fun eg => !op.add.contains eg) op.s added
  else apZremAll op.egs op.s site

def identitySet (now : Int) (op : Op) (target : IdState) (id : Identity) : Identity :=
  { id with
    st := target
    bu := if target = .banned then op.u else 0
    qu := if target = .quarantined then op.u else 0
    sct := now
    act := if target = .active ∧ id.st ≠ .active then now else id.act }

def setIdentity (now : Int) (op : Op) (target : IdState) (id : Identity) (site : Site) :
    Site × ActionResult :=
  let next := identitySet now op target id
  let reset := apResetIdentity op op.egs op.s now (apHas op.f fResetFail)
    (apHas op.f fResetHealth) (site.setId op.s (some next))
  let ready := readyAfterSet op target reset
  (if target = .banned ∧ apHas op.f fBans then apRecordBan op.s now ready else ready,
    changed (.identity id.st) (.identity target) (if target = .quarantined then next.qu else next.bu))

def apSet (now : Int) (op : Op) (site : Site) : Site × ActionResult :=
  match op.sc with
  | .ac => setAccount now op site
  | _ => match op.target with
      | none => (site, skipped .invalid none 0)
      | some target => match site.id op.s with
          | none => (site, skipped .missing none 0)
          | some id =>
            if now < id.sct then (site, skipped .newerState (some (.identity id.st)) 0)
            else setIdentity now op target id site

/-- A cooldown that has passed, or ends after the limit, is not cleared. -/
def notCooling (now limit cd : Int) : Bool := decide (cd ≤ now ∨ (0 < limit ∧ limit < cd))

def clearEndpoint (now : Int) (op : Op) (id : Identity) (site : Site) : Site × ActionResult :=
  let entry := hsUnpack (site.hs op.eg op.s) (apBaseline op op.eg) now
  if notCooling now op.u entry.cd then
    (site, skipped .notCooling (some (.identity id.st)) entry.cd)
  else
    let reset := resetHealth op op.eg now (apHas op.f fResetFail) (apHas op.f fResetHealth)
      { entry with cd := 0 }
    let stored := hsSet site op.eg op.s reset
    let scored := stored.setRdy op.eg
      ((stored.rdy op.eg).move (apAvail stored id 0 entry.ru) op.s)
    (scored.markDirty (.endpoint op.eg op.s),
      changed (.identity id.st) (.identity id.st) entry.cd)

def clearSite (now : Int) (op : Op) (id : Identity) (site : Site) : Site × ActionResult :=
  if notCooling now op.u id.scd then
    (site, skipped .notCooling (some (.identity id.st)) id.scd)
  else
    let reset := apResetIdentity op op.egs op.s now (apHas op.f fResetFail)
      (apHas op.f fResetHealth) (site.setId op.s (some { id with scd := 0 }))
    ((op.egs.foldl (fun site eg => rescore site eg op.s) reset).markDirty (.global op.s),
      changed (.identity id.st) (.identity id.st) id.scd)

def apClear (now : Int) (op : Op) (site : Site) : Site × ActionResult :=
  match site.id op.s with
  | none => (site, skipped .missing none 0)
  | some id => match op.sc with
      | .ie => clearEndpoint now op id site
      | .is => clearSite now op id site
      | _ => (site, skipped .invalid (some (.identity id.st)) 0)

def dropCounters (keys : List CounterKey) (site : Site) : Site :=
  { site with cnt := keys.foldl (fun cnt key => Function.update cnt key ∅) site.cnt }

def apResetStats (now : Int) (op : Op) (site : Site) : Site × ActionResult :=
  match site.id op.s with
  | none => (site, skipped .missing none 0)
  | some id =>
    let entries := op.egs.foldl (apResetHs op op.s now true true) site
    let cleared := if op.gl then
        dropCounters op.cnt
          ((mapId entries op.s fun id => clearScore (clearStreak id)).markDirty (.global op.s))
      else entries
    (cleared, changed (.identity id.st) (.identity id.st) 0)

def applyOp (now : Int) (op : Op) (site : Site) : Site × ActionResult :=
  match op.op with
  | .cd => apCooldown now op site
  | .ban => apBan now op site
  | .exp => apExpire now op site
  | .qua => apQuarantine now op site
  | .act => apActivate now op site
  | .set => apSet now op site
  | .clr => apClear now op site
  | .rst => apResetStats now op site
  | .unknown => (site, skipped .invalid none 0)

def applyOps (now : Int) (ops : List Op) (site : Site) : Site × List ActionResult :=
  ops.foldl
    (fun (state : Site × List ActionResult) op =>
      let result := applyOp now op state.1
      (result.1, state.2 ++ [result.2]))
    (site, [])

/-- apply.lua; an empty token is `none`. -/
def apply (now : Int) (token : Option String) (ops : List Op) (site : Site) :
    Site × List ActionResult :=
  match token with
  | none => applyOps now ops site
  | some key =>
    match site.axr key with
    | some recorded => (site, recorded)
    | none =>
      let result := applyOps now ops site
      ({ result.1 with axr := Function.update result.1.axr key (some result.2) }, result.2)

end Spinneret.Action
