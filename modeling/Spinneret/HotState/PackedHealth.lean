import Spinneret.HotState.Prelude
import Spinneret.Lib.Decimal
import Spinneret.Site.Path

/-!
# Packed health entries

The text "score|sts|samples|nfail|lastfail|cd|ru|lu" of a health entry and the functions
that read or write it in the scripts and on the Go side. The conversions between texts and
floating point numbers are those of the two runtimes: a parameter with the laws that the
correctly rounded conversions of doubles have.
-/

namespace Spinneret.HotState

open Spinneret.Lib
open Spinneret.Site (asciiBytes)

set_option autoImplicit false

def pipe : Fin 256 := 124

inductive LuaNumber where
  | finite (value : ℚ)
  | infinite (negative : Bool)
  | nan
  deriving DecidableEq

/-- A small negative score is written as zero. -/
def normalScore (text : Text) : Text :=
  if text = asciiBytes "-0.00" then asciiBytes "0.00" else text

/-- The number conversions of the Lua host (`tonumber`, `%.2f`) and of Go's `strconv`;
`IsDouble` holds for the values of finite doubles. -/
structure Numbers where
  tonumber : Text → Option LuaNumber
  twoPlaces : ℚ → Text
  parseFloat : Text → Option LuaNumber
  formatFloat : ℚ → Text
  IsDouble : ℚ → Prop
  double_read : ∀ {text value}, tonumber text = some (.finite value) → IsDouble value
  double_floor : ∀ {value}, IsDouble value → IsDouble ⌊value⌋
  double_int : ∀ {value : Int}, value.natAbs ≤ 2 ^ 53 → IsDouble value
  read_digits : ∀ {text : Text}, text ≠ [] → text.length < 16 → text.all isDigit = true →
    tonumber text = some (.finite (digitsValue text))
  read_int : ∀ {value : Int}, IsDouble value → tonumber (decimal value) = some (.finite value)
  places_plain : ∀ value, pipe ∉ twoPlaces value ∧ twoPlaces value ≠ []
  read_score : ∀ {value}, IsDouble value → ∃ rounded,
    tonumber (normalScore (twoPlaces value)) = some (.finite rounded) ∧
      normalScore (twoPlaces rounded) = normalScore (twoPlaces value)
  format_float : ∀ {value}, IsDouble value → formatFloat value = twoPlaces value
  parse_float : ∀ {value}, IsDouble value →
    parseFloat (normalScore (twoPlaces value)) = tonumber (normalScore (twoPlaces value))

variable (numbers : Numbers)

/-- `%.2f` with the negative zero normalized. -/
def Numbers.scoreText (value : ℚ) : Text := normalScore (numbers.twoPlaces value)

/-! ## Readers and writers of the scripts -/

/-- `sp_dnum`: ten to fifteen digits are read in two halves. -/
def Numbers.dnum (text : Text) : Option LuaNumber :=
  if 9 < text.length ∧ text.length < 16 ∧ text.all isDigit = true then
    match numbers.tonumber (text.take (text.length - 9)),
        numbers.tonumber (text.drop (text.length - 9)) with
    | some (.finite high), some (.finite low) => some (.finite (high * 1000000000 + low))
    | _, _ => none
  else numbers.tonumber text

def Numbers.num (value : Option Text) (fallback : ℚ) : ℚ :=
  match value with
  | none => fallback
  | some text =>
    if text = [] then fallback
    else
      match numbers.dnum text with
      | some (.finite value) => value
      | _ => fallback

structure HealthTable where
  score : ℚ
  sts : ℚ
  samples : ℚ
  nfail : ℚ
  lastfail : ℚ
  cd : ℚ
  ru : ℚ
  lu : ℚ
  deriving DecidableEq

structure RawHealth where
  score : Text
  sts : Text
  samples : Text
  nfail : Text
  lastfail : Text
  cd : Text
  ru : Text
  lu : Text
  deriving DecidableEq

def RawHealth.fields (raw : RawHealth) : List Text :=
  [raw.score, raw.sts, raw.samples, raw.nfail, raw.lastfail, raw.cd, raw.ru, raw.lu]

def RawHealth.text (raw : RawHealth) : Text := [pipe].intercalate raw.fields

/-- The pattern of eight captures without a separator in them. -/
def matchEight (text : Text) : Option RawHealth :=
  match text.splitOn pipe with
  | [score, sts, samples, nfail, lastfail, cd, ru, lu] =>
    some ⟨score, sts, samples, nfail, lastfail, cd, ru, lu⟩
  | _ => none

def spSplit (text : Text) : List Text := if text = [] then [] else text.splitOn pipe

def readTable (parts : List Text) (baseline now : ℚ) : HealthTable where
  score := numbers.num parts[0]? baseline
  sts := numbers.num parts[1]? now
  samples := numbers.num parts[2]? 0
  nfail := numbers.num parts[3]? 0
  lastfail := numbers.num parts[4]? 0
  cd := numbers.num parts[5]? 0
  ru := numbers.num parts[6]? 0
  lu := numbers.num parts[7]? 0

def missingTable (baseline now : ℚ) : HealthTable :=
  { score := baseline, sts := now, samples := 0, nfail := 0, lastfail := 0, cd := 0, ru := 0,
    lu := 0 }

def hsUnpackText (entry : Option Text) (baseline now : ℚ) : HealthTable :=
  match entry with
  | none => missingTable baseline now
  | some text =>
    if text = [] then missingTable baseline now
    else
      match matchEight text with
      | some raw => readTable numbers raw.fields baseline now
      | none => readTable numbers (spSplit text) baseline now

def packFields (table : HealthTable) : RawHealth where
  score := numbers.scoreText table.score
  sts := decimal ⌊table.sts⌋
  samples := decimal ⌊table.samples⌋
  nfail := decimal ⌊table.nfail⌋
  lastfail := decimal ⌊table.lastfail⌋
  cd := decimal ⌊table.cd⌋
  ru := decimal ⌊table.ru⌋
  lu := decimal ⌊table.lu⌋

def hsPackText (table : HealthTable) : Text := (packFields numbers table).text

def hsRaw (entry : Option Text) : Option RawHealth :=
  match entry with
  | none => none
  | some text => if text = [] then none else matchEight text

def hsCdRuText (entry : Option Text) : ℚ × ℚ :=
  match entry with
  | none => (0, 0)
  | some text =>
    if text = [] then (0, 0)
    else
      match matchEight text with
      | some raw => (numbers.num (some raw.cd) 0, numbers.num (some raw.ru) 0)
      | none =>
        let table := hsUnpackText numbers (some text) 0 0
        (table.cd, table.ru)

def cut : Text → Option (Text × Text)
  | [] => none
  | first :: rest =>
    if first = pipe then some ([], rest)
    else (cut rest).map fun parts => (first :: parts.1, parts.2)

def afterCuts : Nat → Text → Option Text
  | 0, text => some text
  | count + 1, text => (cut text).bind fun parts => afterCuts count parts.2

/-- The decay of `hs_score`. Minus infinity is before every time; infinity and what is not a
number are not. -/
def scoreSince (exp : ℚ → ℚ) (score sts : LuaNumber) (baseline now tau : ℚ) : LuaNumber :=
  match sts, score with
  | .finite sts, .finite value =>
    if sts < now then .finite (baseline + (value - baseline) * exp ((sts - now) / tau))
    else .finite value
  | .finite sts, score =>
    -- infinity times zero is not a number
    if sts < now ∧ exp ((sts - now) / tau) = 0 then .nan else score
  | .infinite true, .finite _ => .finite baseline
  | .infinite true, _ => .nan
  | .infinite false, score => score
  | .nan, score => score

def hsScore (exp : ℚ → ℚ) (entry : Option Text) (baseline now tau : ℚ) : LuaNumber :=
  match entry.bind cut with
  | none => .finite baseline
  | some (first, rest) =>
    let score := (numbers.dnum first).getD (.finite baseline)
    if 0 < tau then
      let second := match cut rest with
        | some (second, _) => second
        | none => rest
      match numbers.dnum second with
      | none => score
      | some sts => scoreSince exp score sts baseline now tau
    else score

def hsLastUsed (entry : Option Text) : LuaNumber :=
  match entry.bind (afterCuts 7) with
  | none => .finite 0
  | some last => (numbers.dnum last).getD (.finite 0)

/-! ## The Go codec -/

def minInt64 : Int := -(2 ^ 63)

def maxInt64 : Int := 2 ^ 63 - 1

def plusByte : Fin 256 := 43

/-- `strconv.ParseInt` in base ten with 64 bits. -/
def parseInt64 (text : Text) : Option Int :=
  let read := match text with
    | [] => none
    | first :: rest =>
      if first = plusByte then (readNat rest).map fun (value : Nat) => (value : Int)
      else readInt (first :: rest)
  read.filter fun value => decide (minInt64 ≤ value ∧ value ≤ maxInt64)

/-- `int64(f)`: towards zero; a value out of range becomes the least integer. -/
def toInt64 (value : ℚ) : Int :=
  let whole := if 0 ≤ value then ⌊value⌋ else ⌈value⌉
  if minInt64 ≤ whole ∧ whole ≤ maxInt64 then whole else minInt64

def parseIntField (text : Text) (fallback : Int) : Int :=
  if text = [] then fallback
  else
    match parseInt64 text with
    | some value => value
    | none =>
      match numbers.parseFloat text with
      | some (.finite value) => toInt64 value
      | _ => fallback

def parseFloatField (text : Text) (fallback : ℚ) : ℚ :=
  if text = [] then fallback
  else
    match numbers.parseFloat text with
    | some (.finite value) => value
    | _ => fallback

def parseHealth (packed : Text) (baseline : ℚ) (nowMs : Int) : Health :=
  let field := fun place => (packed.splitOn pipe).getD place []
  { score := parseFloatField numbers (field 0) baseline
    sts := parseIntField numbers (field 1) nowMs
    samples := parseIntField numbers (field 2) 0
    nfail := parseIntField numbers (field 3) 0
    lastfail := parseIntField numbers (field 4) 0
    cd := parseIntField numbers (field 5) 0
    ru := parseIntField numbers (field 6) 0
    lu := parseIntField numbers (field 7) 0 }

def Health.integers (health : Health) : List Int :=
  [health.sts, health.samples, health.nfail, health.lastfail, health.cd, health.ru, health.lu]

def packHealth (health : Health) : Text :=
  normalScore (numbers.formatFloat health.score) ++
    health.integers.flatMap fun value => pipe :: decimal value

/-! ## Canonical entries -/

/-- The score is the value of its own numeral and the integers are exact as doubles. -/
structure Canonical (health : Health) : Prop where
  score : numbers.tonumber (numbers.scoreText health.score) = some (.finite health.score)
  integers : ∀ value ∈ health.integers, value.natAbs ≤ 2 ^ 53

def Health.raw (health : Health) : RawHealth where
  score := numbers.scoreText health.score
  sts := decimal health.sts
  samples := decimal health.samples
  nfail := decimal health.nfail
  lastfail := decimal health.lastfail
  cd := decimal health.cd
  ru := decimal health.ru
  lu := decimal health.lu

def Health.text (health : Health) : Text := (health.raw numbers).text

def Health.table (health : Health) : HealthTable where
  score := health.score
  sts := health.sts
  samples := health.samples
  nfail := health.nfail
  lastfail := health.lastfail
  cd := health.cd
  ru := health.ru
  lu := health.lu

section Laws

variable {numbers}

theorem dnum_eq_tonumber (text : Text) : numbers.dnum text = numbers.tonumber text := by
  unfold Numbers.dnum
  split_ifs with long
  · obtain ⟨low, high, digits⟩ := long
    have cutAt := digits_cut digits (by decide) low
    have lengths := cutAt.headLength
    rw [numbers.read_digits cutAt.headNonempty (by omega) cutAt.headDigits,
      numbers.read_digits cutAt.lastNonempty (by rw [cutAt.lastLength]; decide) cutAt.lastDigits,
      numbers.read_digits (List.ne_nil_of_length_pos (by omega)) high digits, cutAt.value]
    push_cast
    norm_num
  · rfl

theorem num_of_read {text : Text} {value : ℚ} (nonempty : text ≠ [])
    (read : numbers.tonumber text = some (.finite value)) (fallback : ℚ) :
    numbers.num (some text) fallback = value := by
  rw [Numbers.num, if_neg nonempty, dnum_eq_tonumber, read]

theorem num_double (entry : Option Text) {fallback : ℚ} (double : numbers.IsDouble fallback) :
    numbers.IsDouble (numbers.num entry fallback) := by
  unfold Numbers.num
  split
  · exact double
  · split_ifs
    · exact double
    · rw [dnum_eq_tonumber]
      split
      · next read => exact numbers.double_read read
      · exact double

theorem num_decimal {value : Int} (double : numbers.IsDouble value) (fallback : ℚ) :
    numbers.num (some (decimal value)) fallback = value :=
  num_of_read (decimal_ne_nil value) (numbers.read_int double) fallback

theorem pipe_not_mem_decimal (value : Int) : pipe ∉ decimal value :=
  not_mem_decimal (by decide) (by decide) value

theorem score_text_plain (value : ℚ) :
    pipe ∉ numbers.scoreText value ∧ numbers.scoreText value ≠ [] := by
  unfold Numbers.scoreText normalScore
  split_ifs
  · decide
  · exact numbers.places_plain value

def RawHealth.Plain (raw : RawHealth) : Prop := ∀ field ∈ raw.fields, pipe ∉ field

theorem pack_fields_plain (table : HealthTable) : (packFields numbers table).Plain := by
  intro field listed
  simp only [RawHealth.fields, packFields, List.mem_cons, List.not_mem_nil, or_false] at listed
  rcases listed with rfl | rfl | rfl | rfl | rfl | rfl | rfl | rfl
  · exact (score_text_plain _).1
  all_goals exact pipe_not_mem_decimal _

theorem split_text {raw : RawHealth} (plain : raw.Plain) : raw.text.splitOn pipe = raw.fields :=
  List.splitOn_intercalate pipe plain (by simp [RawHealth.fields])

theorem match_text {raw : RawHealth} (plain : raw.Plain) : matchEight raw.text = some raw := by
  rw [matchEight, split_text plain]
  rfl

theorem text_ne_nil {raw : RawHealth} (plain : raw.Plain) : raw.text ≠ [] := by
  intro empty
  have found := match_text plain
  rw [empty] at found
  cases found

theorem hs_raw_text {raw : RawHealth} (plain : raw.Plain) : hsRaw (some raw.text) = some raw := by
  rw [hsRaw, if_neg (text_ne_nil plain), match_text plain]

theorem unpack_raw {raw : RawHealth} (plain : raw.Plain) (baseline now : ℚ) :
    hsUnpackText numbers (some raw.text) baseline now =
      readTable numbers raw.fields baseline now := by
  rw [hsUnpackText, if_neg (text_ne_nil plain), match_text plain]

theorem cut_append {field : Text} (plain : pipe ∉ field) (rest : Text) :
    cut (field ++ pipe :: rest) = some (field, rest) := by
  induction field with
  | nil => rw [List.nil_append, cut, if_pos rfl]
  | cons first field ih =>
    obtain ⟨apart, plainRest⟩ := List.ne_and_not_mem_of_not_mem_cons plain
    rw [List.cons_append, cut, if_neg (Ne.symm apart), ih plainRest]
    rfl

theorem after_cuts_fields {fields : List Text} (plain : ∀ field ∈ fields, pipe ∉ field)
    {count : Nat} (enough : count < fields.length) :
    afterCuts count ([pipe].intercalate fields) = some ([pipe].intercalate (fields.drop count)) := by
  induction count generalizing fields with
  | zero => rfl
  | succ count ih =>
    match fields, plain, enough with
    | first :: second :: rest, plain, enough =>
      have later := @ih (second :: rest)
        (fun field listed => plain field (List.mem_cons_of_mem _ listed))
        (Nat.lt_of_succ_lt_succ enough)
      rw [List.intercalate_cons_cons, List.append_assoc, List.singleton_append, afterCuts,
        cut_append (plain first List.mem_cons_self)]
      exact later

/-! ## Reading canonical entries -/

theorem health_raw_plain (health : Health) : (health.raw numbers).Plain := by
  intro field listed
  simp only [RawHealth.fields, Health.raw, List.mem_cons, List.not_mem_nil, or_false] at listed
  rcases listed with rfl | rfl | rfl | rfl | rfl | rfl | rfl | rfl
  · exact (score_text_plain _).1
  all_goals exact pipe_not_mem_decimal _

theorem health_text_ne_nil (health : Health) : health.text numbers ≠ [] :=
  text_ne_nil (health_raw_plain health)

variable {health : Health}

theorem Canonical.double (canonical : Canonical numbers health) {value : Int}
    (listed : value ∈ health.integers) : numbers.IsDouble value :=
  numbers.double_int (canonical.integers value listed)

theorem Canonical.num (canonical : Canonical numbers health) {value : Int}
    (listed : value ∈ health.integers) (fallback : ℚ) :
    numbers.num (some (decimal value)) fallback = value :=
  num_decimal (canonical.double listed) fallback

theorem Canonical.num_score (canonical : Canonical numbers health) (fallback : ℚ) :
    numbers.num (some (numbers.scoreText health.score)) fallback = health.score :=
  num_of_read (score_text_plain _).2 canonical.score fallback

theorem Canonical.read_table (canonical : Canonical numbers health) (baseline now : ℚ) :
    readTable numbers (health.raw numbers).fields baseline now = health.table := by
  have integer := fun {value : Int} (listed : value ∈ health.integers) (fallback : ℚ) =>
    canonical.num listed fallback
  simp only [Health.integers] at integer
  simp [readTable, RawHealth.fields, Health.raw, Health.table, canonical.num_score, integer]

theorem Canonical.unpack (canonical : Canonical numbers health) (baseline now : ℚ) :
    hsUnpackText numbers (some (health.text numbers)) baseline now = health.table := by
  rw [Health.text, unpack_raw (health_raw_plain health), canonical.read_table]

theorem pack_table (health : Health) : hsPackText numbers health.table = health.text numbers := by
  simp [hsPackText, packFields, Health.table, Health.text, Health.raw]

theorem pack_health_text (double : numbers.IsDouble health.score) :
    packHealth numbers health = health.text numbers := by
  rw [packHealth, numbers.format_float double]
  simp [Health.integers, Health.text, RawHealth.text, RawHealth.fields, Health.raw,
    List.intercalate_cons_cons, Numbers.scoreText]

theorem parse_int64_decimal {value : Int} (low : minInt64 ≤ value) (high : value ≤ maxInt64) :
    parseInt64 (decimal value) = some value := by
  have nonempty := decimal_ne_nil value
  have read := read_int_decimal value
  have plain : plusByte ∉ decimal value := not_mem_decimal (by decide) (by decide) value
  unfold parseInt64
  generalize decimal value = text at nonempty read plain
  cases text with
  | nil => exact absurd rfl nonempty
  | cons first rest =>
    have apart : first ≠ plusByte := fun same => plain (same ▸ List.mem_cons_self)
    dsimp only
    rw [if_neg apart, read]
    simp [low, high]

theorem Canonical.parse_int (canonical : Canonical numbers health) {value : Int}
    (listed : value ∈ health.integers) (fallback : Int) :
    parseIntField numbers (decimal value) fallback = value := by
  have bounded := canonical.integers value listed
  have read : parseInt64 (decimal value) = some value :=
    parse_int64_decimal (by unfold minInt64; omega) (by unfold maxInt64; omega)
  rw [parseIntField, if_neg (decimal_ne_nil value), read]

theorem Canonical.parse_score (canonical : Canonical numbers health) (fallback : ℚ) :
    parseFloatField numbers (numbers.scoreText health.score) fallback = health.score := by
  have parsed : numbers.parseFloat (numbers.scoreText health.score) = some (.finite health.score) :=
    (numbers.parse_float (numbers.double_read canonical.score)).trans canonical.score
  rw [parseFloatField, if_neg (score_text_plain _).2, parsed]

theorem Canonical.parse_health (canonical : Canonical numbers health) (baseline : ℚ)
    (nowMs : Int) : parseHealth numbers (health.text numbers) baseline nowMs = health := by
  have fields : (health.text numbers).splitOn pipe = (health.raw numbers).fields :=
    split_text (health_raw_plain health)
  have integer := fun {value : Int} (listed : value ∈ health.integers) (fallback : Int) =>
    canonical.parse_int listed fallback
  simp only [Health.integers] at integer
  simp [parseHealth, fields, RawHealth.fields, Health.raw, canonical.parse_score, integer]

theorem Canonical.cd_ru (canonical : Canonical numbers health) :
    hsCdRuText numbers (some (health.text numbers)) = ((health.cd : ℚ), (health.ru : ℚ)) := by
  have found : matchEight (health.text numbers) = some (health.raw numbers) :=
    match_text (health_raw_plain health)
  rw [hsCdRuText, if_neg (health_text_ne_nil health), found]
  exact Prod.ext (canonical.num (by simp [Health.integers]) 0)
    (canonical.num (by simp [Health.integers]) 0)

theorem Canonical.last_used (canonical : Canonical numbers health) :
    hsLastUsed numbers (some (health.text numbers)) = .finite health.lu := by
  have last : afterCuts 7 (health.text numbers) = some (decimal health.lu) :=
    (after_cuts_fields (health_raw_plain health) (by simp [RawHealth.fields])).trans
      (congrArg some (List.intercalate_singleton))
  rw [hsLastUsed, Option.bind_some, last]
  dsimp only
  rw [dnum_eq_tonumber, numbers.read_int (canonical.double (by simp [Health.integers]))]
  rfl

theorem Canonical.decayed_score (canonical : Canonical numbers health) (exp : ℚ → ℚ)
    (baseline : ℚ) (now tau : Int) :
    hsScore numbers exp (some (health.text numbers)) baseline now tau =
      .finite (decay exp health.score health.sts now baseline tau) := by
  have first : cut (health.text numbers) = some (numbers.scoreText health.score,
      [pipe].intercalate (health.raw numbers).fields.tail) := by
    have split : health.text numbers = numbers.scoreText health.score ++
        pipe :: [pipe].intercalate (health.raw numbers).fields.tail := by
      simp [Health.text, RawHealth.text, RawHealth.fields, Health.raw,
        List.intercalate_cons_cons]
    rw [split, cut_append (score_text_plain _).1]
  have second : ∃ rest, cut ([pipe].intercalate (health.raw numbers).fields.tail) =
      some (decimal health.sts, rest) := by
    have split : [pipe].intercalate (health.raw numbers).fields.tail = decimal health.sts ++
        pipe :: [pipe].intercalate ((health.raw numbers).fields.drop 2) := by
      simp [RawHealth.fields, Health.raw, List.intercalate_cons_cons]
    rw [split, cut_append (pipe_not_mem_decimal _)]
    exact ⟨_, rfl⟩
  obtain ⟨rest, second⟩ := second
  rw [hsScore, Option.bind_some, first]
  dsimp only
  rw [second, dnum_eq_tonumber, dnum_eq_tonumber, canonical.score,
    numbers.read_int (canonical.double (by simp [Health.integers]))]
  dsimp only [Option.getD_some, scoreSince]
  have quotient : ((health.sts : ℚ) - now) / tau = -((now - health.sts : Int) : ℚ) / tau := by
    push_cast
    ring
  rw [quotient, decay]
  simp only [Int.cast_pos, Int.cast_lt]
  by_cases still : tau ≤ 0
  · rw [if_neg (by omega), if_pos (.inl still)]
  · by_cases past : health.sts < now
    · rw [if_pos (by omega), if_pos past, if_neg (by omega)]
    · rw [if_pos (by omega), if_neg past, if_pos (.inr (by omega))]

/-! ## Writing normalizes -/

theorem unpack_double (entry : Option Text) {baseline now : ℚ} (base : numbers.IsDouble baseline)
    (clock : numbers.IsDouble now) :
    let table := hsUnpackText numbers entry baseline now
    numbers.IsDouble table.score ∧ ∀ value ∈ [table.sts, table.samples, table.nfail,
      table.lastfail, table.cd, table.ru, table.lu], numbers.IsDouble value := by
  have zero : numbers.IsDouble 0 := by
    have := @Numbers.double_int numbers 0 (by decide)
    simpa using this
  have read : ∀ parts : List Text,
      let table := readTable numbers parts baseline now
      numbers.IsDouble table.score ∧ ∀ value ∈ [table.sts, table.samples, table.nfail,
        table.lastfail, table.cd, table.ru, table.lu], numbers.IsDouble value := by
    intro parts
    simp [readTable, num_double, base, clock, zero]
  unfold hsUnpackText
  split
  · simp [missingTable, base, clock, zero]
  · split_ifs
    · simp [missingTable, base, clock, zero]
    · split
      · exact read _
      · exact read _

theorem pack_unpack_pack {table : HealthTable} (score : numbers.IsDouble table.score)
    (others : ∀ value ∈ [table.sts, table.samples, table.nfail, table.lastfail, table.cd,
      table.ru, table.lu], numbers.IsDouble value) (baseline now : ℚ) :
    hsPackText numbers (hsUnpackText numbers (some (hsPackText numbers table)) baseline now) =
      hsPackText numbers table := by
  obtain ⟨rounded, read, same⟩ := numbers.read_score score
  have scoreAgain : ∀ fallback,
      numbers.scoreText (numbers.num (some (numbers.scoreText table.score)) fallback) =
        numbers.scoreText table.score := by
    intro fallback
    rw [num_of_read (score_text_plain _).2 read]
    exact same
  have again : ∀ value ∈ [table.sts, table.samples, table.nfail, table.lastfail, table.cd,
      table.ru, table.lu], ∀ fallback : ℚ,
      ⌊numbers.num (some (decimal ⌊value⌋)) fallback⌋ = ⌊value⌋ := by
    intro value listed fallback
    rw [num_decimal (numbers.double_floor (others value listed)), Int.floor_intCast]
  have unpacked := @unpack_raw numbers (packFields numbers table) (pack_fields_plain table)
    baseline now
  have fields : packFields numbers (readTable numbers (packFields numbers table).fields baseline
      now) = packFields numbers table := by
    simp only [List.mem_cons, List.not_mem_nil, or_false, forall_eq_or_imp, forall_eq] at again
    simp [packFields, readTable, RawHealth.fields, scoreAgain, again]
  rw [hsPackText, hsPackText, unpacked, fields]

end Laws

end Spinneret.HotState
