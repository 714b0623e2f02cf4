import Mathlib.Data.Finset.Dedup
import Spinneret.Lib.Counted
import Spinneret.Lib.Double
import Spinneret.Site.Path

/-!
# The argument vector of an acquire call

`acquireArgs` writes a call, its group and its rotation policy as one vector of texts:
thirty fixed positions, then counted lists, the lease prefixes and the random values.
`decode` is the head of the script that reads them back. Lua numbers are doubles, so an
integer arrives as the double nearest to it.
-/

namespace Spinneret.Scheduler

open Spinneret.Lib
open Spinneret.Site (asciiBytes)

set_option autoImplicit false

/-! ## Encoder -/

/-- What the encoder and the script do with floating point numbers: `ppm`, `ftoa` and
`tonumber` on what `ftoa` writes. -/
structure FloatTexts (Number : Type) where
  ppm : Number → Int64
  ftoa : Number → Text
  tonumber : Text → Option Number
  defaultBaseline : Number
  read : ∀ value, tonumber (ftoa value) = some value

def itoa (value : Int64) : Text := decimal value.toInt

/-- `Duration.Milliseconds`; `-1` is the permanent duration. -/
def milliseconds (duration : Int64) : Int :=
  if duration = -1 then -1 else duration.toInt.tdiv 1000000

/-- `Milliseconds` of a standard duration, which has no permanent value. -/
def stdMilliseconds (duration : Int64) : Int := duration.toInt.tdiv 1000000

structure QuotaSpec where
  limit : Int64
  window : Int64
  deriving DecidableEq

structure RotationParams (Number : Type) where
  strategy : String
  candidateSample : Int64
  leaseTTL : Int64
  maxLeaseLifetime : Int64
  maxConcurrentLeases : Int64
  reuseInterval : Int64
  reuseAnchor : String
  reuseScope : String
  quota : List QuotaSpec
  stickyEnabled : Bool
  stickyTTL : Int64
  warmupDuration : Int64
  warmupQuotaFactor : Number
  probeWeightFactor : Number
  probeMaxLeases : Int64

structure ProxySpec where
  mode : String
  kinds : List Text
  tags : List Text
  providers : List Text
  regions : List Text
  regionMatch : Bool
  rebindTolerance : Int64
  maxRebindsPerDay : Int64

/-- The parts of an endpoint group the encoder reads: its key, the baseline and decay
constant of its action policy and the probe leases of its breaker policy. -/
structure GroupConfig (Number : Type) where
  key : Int64
  health : Option (Number × Int64)
  probeLeasesPer10s : Option Int64

structure ServiceConfig where
  lateReportWindow : Int64
  reportShards : Int64

structure AcquireCall (Number : Type) where
  now : Int64
  count : Int64
  session : Text
  node : Text
  tokenID : Text
  prefixes : List Text
  randoms : List Number

def defaultHealthTau : Int64 := 21600000000000

def defaultProbeLeasesPer10s : Int64 := 5

def strategyCode (strategy : String) : Text :=
  if strategy = "least_recently_used" then asciiBytes "l"
  else if strategy = "round_robin" then asciiBytes "r"
  else if strategy = "best_health" then asciiBytes "b"
  else asciiBytes "w"

def proxyModeCode (mode : String) : Text :=
  if mode = "pool" then asciiBytes "p"
  else if mode = "bind_identity" then asciiBytes "b"
  else if mode = "region_match" then asciiBytes "r"
  else asciiBytes "n"

def anchorCode (anchor : String) : Text :=
  if anchor = "acquired" then asciiBytes "a" else asciiBytes "r"

def scopeCode (scope : String) : Text := if scope = "site" then asciiBytes "s" else asciiBytes "e"

def boolArg (value : Bool) : Text := if value then asciiBytes "1" else asciiBytes "0"

def probeLimitOf {Number : Type} (group : GroupConfig Number) : Int64 :=
  match group.probeLeasesPer10s with
  | some leases => if 0 < leases then leases else defaultProbeLeasesPer10s
  | none => defaultProbeLeasesPer10s

variable {Number : Type} (floats : FloatTexts Number) (day : Int64 → Text)

def healthOf (group : GroupConfig Number) : Number × Int64 :=
  group.health.getD (floats.defaultBaseline, defaultHealthTau)

def stickyTTL (params : RotationParams Number) (call : AcquireCall Number) : Int :=
  if params.stickyEnabled ∧ call.session ≠ [] then milliseconds params.stickyTTL else 0

def fixedArgs (config : ServiceConfig) (nsID : Text) (group : GroupConfig Number)
    (params : RotationParams Number) (proxy : ProxySpec) (call : AcquireCall Number) :
    List Text :=
  [itoa call.now, itoa call.count, itoa group.key, strategyCode params.strategy,
    itoa params.candidateSample, decimal (milliseconds params.leaseTTL),
    decimal (milliseconds params.maxLeaseLifetime), itoa params.maxConcurrentLeases,
    decimal (milliseconds params.reuseInterval), anchorCode params.reuseAnchor,
    scopeCode params.reuseScope, itoa (floats.ppm params.probeWeightFactor),
    itoa params.probeMaxLeases, decimal (milliseconds params.warmupDuration),
    itoa (floats.ppm params.warmupQuotaFactor), floats.ftoa (healthOf floats group).1,
    decimal (stdMilliseconds (healthOf floats group).2), itoa (probeLimitOf group), call.session,
    decimal (stickyTTL params call), decimal (stdMilliseconds config.lateReportWindow),
    itoa config.reportShards, call.node, call.tokenID, nsID, proxyModeCode proxy.mode,
    boolArg proxy.regionMatch, decimal (milliseconds proxy.rebindTolerance),
    itoa proxy.maxRebindsPerDay, day call.now]

def appendList (items : List Text) : List Text := decimal items.length :: items

def quotaArgs (quota : QuotaSpec) : List Text :=
  [itoa quota.limit, decimal (milliseconds quota.window)]

def acquireArgs (config : ServiceConfig) (nsID : Text) (group : GroupConfig Number)
    (params : RotationParams Number) (proxy : ProxySpec) (call : AcquireCall Number) :
    List Text :=
  fixedArgs floats day config nsID group params proxy call ++
    (appendList proxy.kinds ++ (appendList proxy.providers ++ (appendList proxy.regions ++
      (appendList proxy.tags ++ (decimal params.quota.length :: (params.quota.flatMap quotaArgs ++
        (call.prefixes ++ call.randoms.map fun value => itoa (floats.ppm value))))))))

/-! ## Decoder -/

/-- `sp_dnum` on an integer numeral. -/
def dnumDouble (text : Text) : Option Int :=
  if 9 < text.length ∧ text.length < 16 ∧ text.all isDigit = true then do
    let high ← readDouble (text.take (text.length - 9))
    let low ← readDouble (text.drop (text.length - 9))
    return high * 1000000000 + low
  else readDouble text

structure FixedValues (Number : Type) where
  now : Int
  count : Int
  eg : Text
  strategy : Text
  ksample : Int
  ttl : Int
  lifetime : Int
  mc : Int
  ri : Int
  ra : Text
  rs : Text
  probeWf : ℚ
  probeMax : Int
  warmup : Int
  warmupFactor : ℚ
  baseline : Number
  tau : Int
  probeLimit : Int
  session : Text
  stickyTtl : Int
  shards : Int
  node : Text
  token : Text
  ns : Text
  pmode : Text
  pregion : Bool
  tolerance : Int
  maxRebinds : Int
  today : Text

def argAt (argv : List Text) (place : Nat) : Option Text := argv[place - 1]?

def numberAt (argv : List Text) (place : Nat) : Option Int := (argAt argv place).bind readDouble

/-- The fixed positions. A numeric argument that is missing or no number ends the decoding;
the script fails where it first computes with it. -/
def decodeFixed (argv : List Text) : Option (FixedValues Number) := do
  let now ← (argAt argv 1).bind dnumDouble
  let eg ← argAt argv 3
  let count ← numberAt argv 2
  let strategy ← argAt argv 4
  let ksample ← numberAt argv 5
  let ttl ← numberAt argv 6
  let lifetime ← numberAt argv 7
  let mc ← numberAt argv 8
  let ri ← numberAt argv 9
  let ra ← argAt argv 10
  let rs ← argAt argv 11
  let probeParts ← numberAt argv 12
  let probeMax ← numberAt argv 13
  let warmup ← numberAt argv 14
  let warmupParts ← numberAt argv 15
  let baseline ← (argAt argv 16).bind floats.tonumber
  let tau ← numberAt argv 17
  let probeLimit ← numberAt argv 18
  let session ← argAt argv 19
  let stickyTtl ← numberAt argv 20
  let shards ← numberAt argv 22
  let node ← argAt argv 23
  let token ← argAt argv 24
  let ns ← argAt argv 25
  let pmode ← argAt argv 26
  let pregion ← argAt argv 27
  let tolerance ← numberAt argv 28
  let maxRebinds ← numberAt argv 29
  let today ← argAt argv 30
  return {
    now := now, count := count, eg := eg, strategy := strategy, ksample := ksample, ttl := ttl
    lifetime := lifetime, mc := mc, ri := ri, ra := ra, rs := rs
    probeWf := (probeParts : ℚ) / 1000000, probeMax := probeMax, warmup := warmup
    warmupFactor := (warmupParts : ℚ) / 1000000, baseline := baseline, tau := tau
    probeLimit := probeLimit, session := session, stickyTtl := stickyTtl, shards := shards
    node := node, token := token, ns := ns, pmode := pmode
    pregion := decide (pregion = asciiBytes "1"), tolerance := tolerance
    maxRebinds := maxRebinds, today := today }

def readCount (args : List Text) : Option (Int × List Text) := do
  let (text, args) ← nextItem args
  let count ← readDouble text
  return (count, args)

/-- `read_set`: no set for an empty list. -/
def readSet (args : List Text) : Option (Option (Finset Text) × List Text) := do
  let (count, args) ← readCount args
  if count = 0 then return (none, args)
  else
    let (items, args) ← readTimes nextItem count.toNat args
    return (some items.toFinset, args)

/-- The tags, each between commas. -/
def readTags (args : List Text) : Option (Option (List Text) × List Text) := do
  let (count, args) ← readCount args
  if 0 < count then
    let (items, args) ← readTimes nextItem count.toNat args
    return (some (items.map fun tag => asciiBytes "," ++ tag ++ asciiBytes ","), args)
  else return (none, args)

structure QuotaRow where
  limit : Int
  window : Int
  windowText : Text
  deriving DecidableEq

def readQuota (args : List Text) : Option (QuotaRow × List Text) := do
  let (limit, args) ← readCount args
  let (windowText, args) ← nextItem args
  let window ← readDouble windowText
  return ({ limit := limit, window := window, windowText := windowText }, args)

def readQuotas (args : List Text) : Option (Option (List QuotaRow) × List Text) := do
  let (count, args) ← readCount args
  if 0 < count then
    let (rows, args) ← readTimes readQuota count.toNat args
    return (some rows, args)
  else return (none, args)

def QuotaRow.fields (row : QuotaRow) : List Text :=
  [row.windowText ++ asciiBytes ":c", row.windowText ++ asciiBytes ":n",
    row.windowText ++ asciiBytes ":p"]

def maxWindow (rows : List QuotaRow) : Int :=
  rows.foldl (fun longest row => if longest < row.window then row.window else longest) 0

structure AcquireValues (Number : Type) where
  fixed : FixedValues Number
  kinds : Option (Finset Text)
  providers : Option (Finset Text)
  regions : Option (Finset Text)
  tags : Option (List Text)
  quotas : Option (List QuotaRow)
  qfields : List Text
  qmax : Int
  prefixes : List Text
  randoms : List Int

/-- The random values are the rest of the vector, read when they are used. -/
def decode (argv : List Text) : Option (AcquireValues Number) := do
  let fixed ← decodeFixed floats argv
  let (kinds, args) ← readSet (argv.drop 30)
  let (providers, args) ← readSet args
  let (regions, args) ← readSet args
  let (tags, args) ← readTags args
  let (quotas, args) ← readQuotas args
  let (prefixes, args) ← readTimes nextItem fixed.count.toNat args
  return {
    fixed := fixed, kinds := kinds, providers := providers, regions := regions, tags := tags
    quotas := quotas, qfields := (quotas.getD []).flatMap QuotaRow.fields
    qmax := maxWindow (quotas.getD []), prefixes := prefixes
    randoms := args.map fun text => (readDouble text).getD 500000 }

/-! ## Numbers -/

theorem dnum_double_eq (text : Text) : dnumDouble text = readDouble text := by
  unfold dnumDouble
  split_ifs with long
  · obtain ⟨low, high, digits⟩ := long
    have cutAt := digits_cut digits (by decide) low
    have whole := digits_value_lt digits
    have power : 10 ^ text.length ≤ 10 ^ 15 := Nat.pow_le_pow_right (by decide) (by omega)
    have value := cutAt.value
    have read : ∀ {part : Text}, part ≠ [] → part.all isDigit = true →
        digitsValue part ≤ digitsValue text → readDouble part = some (digitsValue part : Int) := by
      intro part nonempty partDigits below
      rw [readDouble, read_int_digits nonempty partDigits, Option.map_some,
        round_double_exact (by omega)]
    rw [read cutAt.headNonempty cutAt.headDigits (by omega),
      read cutAt.lastNonempty cutAt.lastDigits (by omega),
      read (List.ne_nil_of_length_pos (by omega)) digits le_rfl, value]
    rfl
  · rfl

theorem std_milliseconds_small (duration : Int64) :
    (stdMilliseconds duration).natAbs ≤ 2 ^ 53 := by
  have low := duration.le_toInt
  have high := duration.toInt_lt
  have quotient : (stdMilliseconds duration).natAbs = duration.toInt.natAbs / 1000000 :=
    Int.natAbs_tdiv _ _
  omega

theorem milliseconds_small (duration : Int64) : (milliseconds duration).natAbs ≤ 2 ^ 53 := by
  unfold milliseconds
  split_ifs
  · decide
  · exact std_milliseconds_small duration

theorem sticky_ttl_small (params : RotationParams Number) (call : AcquireCall Number) :
    (stickyTTL params call).natAbs ≤ 2 ^ 53 := by
  unfold stickyTTL
  split_ifs
  · exact milliseconds_small _
  · decide

/-! ## Fixed positions -/

/-- The values the script gets: durations exactly, other integers as doubles. -/
def fixedValues (config : ServiceConfig) (nsID : Text) (group : GroupConfig Number)
    (params : RotationParams Number) (proxy : ProxySpec) (call : AcquireCall Number) :
    FixedValues Number where
  now := roundDouble call.now.toInt
  count := roundDouble call.count.toInt
  eg := itoa group.key
  strategy := strategyCode params.strategy
  ksample := roundDouble params.candidateSample.toInt
  ttl := milliseconds params.leaseTTL
  lifetime := milliseconds params.maxLeaseLifetime
  mc := roundDouble params.maxConcurrentLeases.toInt
  ri := milliseconds params.reuseInterval
  ra := anchorCode params.reuseAnchor
  rs := scopeCode params.reuseScope
  probeWf := (roundDouble (floats.ppm params.probeWeightFactor).toInt : ℚ) / 1000000
  probeMax := roundDouble params.probeMaxLeases.toInt
  warmup := milliseconds params.warmupDuration
  warmupFactor := (roundDouble (floats.ppm params.warmupQuotaFactor).toInt : ℚ) / 1000000
  baseline := (healthOf floats group).1
  tau := stdMilliseconds (healthOf floats group).2
  probeLimit := roundDouble (probeLimitOf group).toInt
  session := call.session
  stickyTtl := stickyTTL params call
  shards := roundDouble config.reportShards.toInt
  node := call.node
  token := call.tokenID
  ns := nsID
  pmode := proxyModeCode proxy.mode
  pregion := proxy.regionMatch
  tolerance := milliseconds proxy.rebindTolerance
  maxRebinds := roundDouble proxy.maxRebindsPerDay.toInt
  today := day call.now

theorem bool_arg_read (value : Bool) : decide (boolArg value = asciiBytes "1") = value := by
  cases value <;> decide

theorem decode_fixed (config : ServiceConfig) (nsID : Text) (group : GroupConfig Number)
    (params : RotationParams Number) (proxy : ProxySpec) (call : AcquireCall Number)
    (rest : List Text) :
    decodeFixed floats (fixedArgs floats day config nsID group params proxy call ++ rest) =
      some (fixedValues floats day config nsID group params proxy call) := by
  have duration := fun value => read_double_exact (milliseconds_small value)
  have std := fun value => read_double_exact (std_milliseconds_small value)
  have sticky := read_double_exact (sticky_ttl_small params call)
  simp [decodeFixed, numberAt, argAt, fixedArgs, itoa, dnum_double_eq, duration, std, sticky,
    floats.read, bool_arg_read, fixedValues]

/-! ## Lists -/

theorem read_count_decimal {count : Nat} (small : count ≤ 2 ^ 53) (rest : List Text) :
    readCount (decimal count :: rest) = some ((count : Int), rest) := by
  simp [readCount, nextItem, read_double_exact (show (count : Int).natAbs ≤ 2 ^ 53 by omega)]

def setOf (items : List Text) : Option (Finset Text) :=
  if items = [] then none else some items.toFinset

theorem read_set_list {items : List Text} (small : items.length ≤ 2 ^ 53) (rest : List Text) :
    readSet (appendList items ++ rest) = some (setOf items, rest) := by
  rw [appendList, List.cons_append, readSet, read_count_decimal small]
  cases items with
  | nil => rfl
  | cons item items =>
    have taken := read_times_items (item :: items) rest
    have counted : ((item :: items).length : Int) ≠ 0 := by
      rw [List.length_cons]
      omega
    simp only [counted, if_false, taken, setOf, Int.toNat_natCast, Option.bind_eq_bind,
      Option.bind_some, reduceCtorEq]
    rfl

def tagsOf (items : List Text) : Option (List Text) :=
  if items = [] then none
  else some (items.map fun tag => asciiBytes "," ++ tag ++ asciiBytes ",")

theorem read_tags_list {items : List Text} (small : items.length ≤ 2 ^ 53) (rest : List Text) :
    readTags (appendList items ++ rest) = some (tagsOf items, rest) := by
  rw [appendList, List.cons_append, readTags, read_count_decimal small]
  cases items with
  | nil => rfl
  | cons item items =>
    have taken := read_times_items (item :: items) rest
    have counted : (0 : Int) < (item :: items).length := by simp
    simp only [counted, if_true, taken, tagsOf, Int.toNat_natCast, Option.bind_eq_bind,
      Option.bind_some, reduceCtorEq, if_false]
    rfl

def quotaRow (quota : QuotaSpec) : QuotaRow where
  limit := roundDouble quota.limit.toInt
  window := milliseconds quota.window
  windowText := decimal (milliseconds quota.window)

theorem read_quota_args (quota : QuotaSpec) (rest : List Text) :
    readQuota (quotaArgs quota ++ rest) = some (quotaRow quota, rest) := by
  simp [readQuota, readCount, nextItem, quotaArgs, quotaRow, itoa,
    read_double_exact (milliseconds_small quota.window)]

def rowsOf (quotas : List QuotaSpec) : Option (List QuotaRow) :=
  if quotas = [] then none else some (quotas.map quotaRow)

theorem read_quotas_list {quotas : List QuotaSpec} (small : quotas.length ≤ 2 ^ 53)
    (rest : List Text) :
    readQuotas (decimal quotas.length :: (quotas.flatMap quotaArgs ++ rest)) =
      some (rowsOf quotas, rest) := by
  rw [readQuotas, read_count_decimal small]
  cases quotas with
  | nil => rfl
  | cons quota quotas =>
    have taken := read_times_written (quota :: quotas)
      (fun quota _ rest => read_quota_args quota rest) rest
    have counted : (0 : Int) < (quota :: quotas).length := by simp
    simp only [counted, if_true, taken, rowsOf, Int.toNat_natCast, Option.bind_eq_bind,
      Option.bind_some, reduceCtorEq, if_false]
    rfl

/-! ## The round trip -/

def acquireValues (config : ServiceConfig) (nsID : Text) (group : GroupConfig Number)
    (params : RotationParams Number) (proxy : ProxySpec) (call : AcquireCall Number) :
    AcquireValues Number where
  fixed := fixedValues floats day config nsID group params proxy call
  kinds := setOf proxy.kinds
  providers := setOf proxy.providers
  regions := setOf proxy.regions
  tags := tagsOf proxy.tags
  quotas := rowsOf params.quota
  qfields := (params.quota.map quotaRow).flatMap QuotaRow.fields
  qmax := maxWindow (params.quota.map quotaRow)
  prefixes := call.prefixes
  randoms := call.randoms.map fun value => roundDouble (floats.ppm value).toInt

theorem rows_of_getD (quotas : List QuotaSpec) :
    (rowsOf quotas).getD [] = quotas.map quotaRow := by
  cases quotas <;> rfl

/-- The decoder recovers every text and every list of a call with one prefix per lease,
whatever the texts contain; durations are exact and so is every other integer of magnitude
at most `2 ^ 53`. -/
theorem acquire_args_decoded (config : ServiceConfig) (nsID : Text) (group : GroupConfig Number)
    (params : RotationParams Number) (proxy : ProxySpec) (call : AcquireCall Number)
    (prefixed : call.count.toInt = call.prefixes.length)
    (fits : (acquireArgs floats day config nsID group params proxy call).length ≤ 2 ^ 53) :
    decode floats (acquireArgs floats day config nsID group params proxy call) =
        some (acquireValues floats day config nsID group params proxy call) ∧
      ∀ value : Int, value.natAbs ≤ 2 ^ 53 → roundDouble value = value := by
  refine ⟨?_, fun value small => round_double_exact small⟩
  have sizes : proxy.kinds.length ≤ 2 ^ 53 ∧ proxy.providers.length ≤ 2 ^ 53 ∧
      proxy.regions.length ≤ 2 ^ 53 ∧ proxy.tags.length ≤ 2 ^ 53 ∧
      call.prefixes.length ≤ 2 ^ 53 := by
    simp only [acquireArgs, appendList, List.length_append, List.length_cons] at fits
    omega
  have quotaSize : params.quota.length ≤ 2 ^ 53 := by
    have pairs : (params.quota.flatMap quotaArgs).length = 2 * params.quota.length := by
      induction params.quota with
      | nil => rfl
      | cons quota quotas ih =>
        rw [List.flatMap_cons, List.length_append, ih, List.length_cons]
        change 2 + 2 * quotas.length = _
        omega
    simp only [acquireArgs, appendList, List.length_append, List.length_cons, pairs] at fits
    omega
  obtain ⟨kinds, providers, regions, tags, prefixes⟩ := sizes
  have lists : ∀ rest, (fixedArgs floats day config nsID group params proxy call ++ rest).drop 30 =
      rest := fun rest => rfl
  have counted : (fixedValues floats day config nsID group params proxy call).count.toNat =
      call.prefixes.length := by
    change (roundDouble call.count.toInt).toNat = _
    rw [prefixed, round_double_exact (by omega), Int.toNat_natCast]
  have leads := read_times_items call.prefixes
    (call.randoms.map fun value => itoa (floats.ppm value))
  have randoms : (call.randoms.map fun value => itoa (floats.ppm value)).map
      (fun text => (readDouble text).getD 500000) =
      call.randoms.map fun value => roundDouble (floats.ppm value).toInt := by
    rw [List.map_map]
    refine List.map_congr_left fun value _ => ?_
    simp [itoa]
  rw [acquireArgs, decode, decode_fixed, lists]
  simp only [Option.bind_eq_bind, Option.bind_some, read_set_list kinds, read_set_list providers,
    read_set_list regions, read_tags_list tags, read_quotas_list quotaSize, counted, leads,
    rows_of_getD, randoms]
  rfl

def wholeFloats : FloatTexts Int64 where
  ppm value := value
  ftoa := itoa
  tonumber text := (readInt text).map Int64.ofInt
  defaultBaseline := 70
  read value := by rw [itoa, read_int_decimal, Option.map_some, Int64.ofInt_toInt]

def oneQuota (limit : Int64) : RotationParams Int64 where
  strategy := "round_robin"
  candidateSample := 32
  leaseTTL := 60000000000
  maxLeaseLifetime := -1
  maxConcurrentLeases := 1
  reuseInterval := 0
  reuseAnchor := "acquired"
  reuseScope := "site"
  quota := [{ limit := limit, window := 3600000000000 }]
  stickyEnabled := false
  stickyTTL := 0
  warmupDuration := 0
  warmupQuotaFactor := 500000
  probeWeightFactor := 250000
  probeMaxLeases := 1

def taggedPool : ProxySpec where
  mode := "pool"
  kinds := []
  tags := [asciiBytes "2", asciiBytes ",x"]
  providers := [asciiBytes "b", asciiBytes "a", asciiBytes "b"]
  regions := []
  regionMatch := true
  rebindTolerance := 0
  maxRebindsPerDay := 3

def twoLeases : AcquireCall Int64 where
  now := 1758011411962
  count := 2
  session := asciiBytes "31"
  node := asciiBytes "n1"
  tokenID := []
  prefixes := [asciiBytes "p1", asciiBytes "0"]
  randoms := [999999, 0]

def twoLeaseArgs (limit : Int64) : List Text :=
  acquireArgs wholeFloats (fun _ => asciiBytes "20250916")
    { lateReportWindow := 0, reportShards := 4 } (asciiBytes "ns")
    { key := 7, health := none, probeLeasesPer10s := none } (oneQuota limit) taggedPool twoLeases

theorem two_leases_decoded :
    (decode wholeFloats (twoLeaseArgs 100)).map (fun values => (values.tags, values.prefixes)) =
      some (some [asciiBytes ",2,", asciiBytes ",,x,"], [asciiBytes "p1", asciiBytes "0"]) := by
  obtain ⟨decoded, -⟩ := acquire_args_decoded wholeFloats (fun _ => asciiBytes "20250916")
    { lateReportWindow := 0, reportShards := 4 } (asciiBytes "ns")
    { key := 7, health := none, probeLeasesPer10s := none } (oneQuota 100) taggedPool twoLeases
    (by decide +kernel) (by decide +kernel)
  rw [twoLeaseArgs, decoded]
  decide +kernel

/-- A limit above `2 ^ 53` reaches the script as the nearest double. -/
theorem long_limit_rounded :
    (decode wholeFloats (twoLeaseArgs 9007199254740993)).map (fun values =>
        (values.quotas.getD []).map QuotaRow.limit) = some [9007199254740992] := by
  decide +kernel

end Spinneret.Scheduler
