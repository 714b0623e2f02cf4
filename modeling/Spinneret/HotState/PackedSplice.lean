import Spinneret.HotState.PackedHealth

/-!
# Splicing packed health entries

A cooldown and a report rewrite some fields of a packed entry and put the others back as
the texts they were. Numbers spliced in are written by string concatenation, which leaves
the plain form at fifteen digits; below that a splice writes what decoding the entry,
changing the fields and encoding it would write.
-/

namespace Spinneret.HotState

open Spinneret.Lib
open Spinneret.Site (asciiBytes)

set_option autoImplicit false

/-! ## Numbers in a concatenation -/

/-- The first fourteen digits, rounded half to even, and the power of ten of the first. -/
def fourteenDigits (value : Nat) : Nat × Nat :=
  let power := (numeral value).length - 1
  let unit := 10 ^ (power - 13)
  let cutOff := value / unit
  let rest := value % unit
  let rounded := if unit < 2 * rest ∨ (unit = 2 * rest ∧ cutOff % 2 = 1) then cutOff + 1 else cutOff
  if rounded = 10 ^ 14 then (10 ^ 13, power + 1) else (rounded, power)

/-- `%.14g` for an integer: plain up to fourteen digits, then with an exponent. -/
def conciseText (value : Int) : Text :=
  if value.natAbs < 10 ^ 14 then decimal value
  else
    let (digits, power) := fourteenDigits value.natAbs
    let kept := ((numeral digits).reverse.dropWhile fun digit => digit == 0).reverse
    (if value < 0 then [minusByte] else []) ++ (kept.take 1).map digitByte ++
      (if kept.length = 1 then [] else asciiBytes "." ++ (kept.drop 1).map digitByte) ++
      asciiBytes "e+" ++ decimalNat power

theorem concise_small {value : Int} (small : value.natAbs < 10 ^ 14) :
    conciseText value = decimal value := if_pos small

variable (numbers : Numbers)

/-! ## Cooldowns -/

structure CooldownRewrite where
  prevCd : ℚ
  nfail : ℚ
  ru : ℚ
  text : Text
  deriving DecidableEq

/-- The entry of a cooldown until `u` and the values `ap_cooldown` reads from the old one. -/
def cooldownRewrite (entry : Option Text) (baseline now : ℚ) (u : Int) : Option CooldownRewrite :=
  let found := match hsRaw entry with
    | some raw => some raw
    | none => hsRaw (some (hsPackText numbers (hsUnpackText numbers entry baseline now)))
  found.map fun raw =>
    { prevCd := numbers.num (some raw.cd) 0
      nfail := numbers.num (some raw.nfail) 0
      ru := numbers.num (some raw.ru) 0
      text := { raw with cd := conciseText u }.text }

/-! ## Reports -/

structure HealthInput where
  now : Int
  baseline : ℚ
  alpha : ℚ
  tau : ℚ
  resetAfter : ℚ
  exp : ℚ → ℚ
  obs : ℚ
  affects : Bool
  fails : Bool
  success : Bool

def HealthInput.decayed (input : HealthInput) (score sts : ℚ) : ℚ :=
  let dt := input.now - sts
  if 0 < input.tau ∧ 0 < dt then
    input.baseline + (score - input.baseline) * input.exp (-dt / input.tau)
  else score

def HealthInput.scored (input : HealthInput) (score sts : ℚ) : ℚ :=
  if input.affects then
    input.alpha * input.obs + (1 - input.alpha) * input.decayed score sts
  else input.decayed score sts

def HealthInput.streak (input : HealthInput) (nfail : Int) (lastfail : ℚ) : Int :=
  if input.fails then (if input.resetAfter < input.now - lastfail then 0 else nfail) + 1
  else if input.success ∧ 0 < nfail then nfail / 2
  else nfail

/-- The streak is written: it was extended or halved. -/
def HealthInput.writesStreak (input : HealthInput) (nfail : Int) : Bool :=
  input.fails || (input.success && decide (0 < nfail))

structure ObserveRewrite where
  written : Option Text
  score : ℚ
  samples : Int
  nfail : Int
  cd : Text
  deriving DecidableEq

/-- The fields `observe.lua` starts from: those of an eight-field entry as they are, those
of any other entry decoded and formatted. -/
def observeFields (entry : Option Text) (baseline now : ℚ) : RawHealth :=
  match hsRaw entry with
  | some raw => raw
  | none => packFields numbers (hsUnpackText numbers entry baseline now)

def observeRewrite (input : HealthInput) (entry : Option Text) : ObserveRewrite :=
  let raw := observeFields numbers entry input.baseline input.now
  let score := numbers.num (some raw.score) input.baseline
  let sts := numbers.num (some raw.sts) input.now
  let samples := ⌊numbers.num (some raw.samples) 0⌋
  let nfail := ⌊numbers.num (some raw.nfail) 0⌋
  let lastfail := numbers.num (some raw.lastfail) 0
  let newScore := input.scored score sts
  let newSamples := if input.affects then samples + 1 else samples
  let newStreak := input.streak nfail lastfail
  { written :=
      if input.affects || input.writesStreak nfail then
        some { raw with
          score := if input.affects then numbers.scoreText newScore else raw.score
          sts := if input.affects then decimal input.now else raw.sts
          samples := if input.affects then conciseText newSamples else raw.samples
          nfail := if input.writesStreak nfail then conciseText newStreak else raw.nfail
          lastfail := if input.fails then decimal input.now else raw.lastfail }.text
      else none
    score := newScore
    samples := newSamples
    nfail := newStreak
    cd := if raw.cd ≠ [] ∧ raw.cd.all isDigit = true then raw.cd
      else decimal ⌊numbers.num (some raw.cd) 0⌋ }

def HealthInput.change (input : HealthInput) (health : Health) : HealthTable :=
  { health.table with
    score := if input.affects then input.scored health.score health.sts else health.score
    sts := if input.affects then input.now else health.sts
    samples := if input.affects then health.samples + 1 else health.samples
    nfail := input.streak health.nfail health.lastfail
    lastfail := if input.fails then input.now else health.lastfail }

section Splices

variable {numbers} {health : Health}

theorem Canonical.cooldown (canonical : Canonical numbers health) (baseline now : ℚ) {u : Int}
    (small : u.natAbs < 10 ^ 14) :
    cooldownRewrite numbers (some (health.text numbers)) baseline now u =
      some { prevCd := health.cd, nfail := health.nfail, ru := health.ru
             text := hsPackText numbers { health.table with cd := u } } := by
  have raw : hsRaw (some (health.text numbers)) = some (health.raw numbers) :=
    hs_raw_text (health_raw_plain health)
  have read := fun {value : Int} (listed : value ∈ health.integers) => canonical.num listed 0
  simp only [Health.integers] at read
  rw [cooldownRewrite, raw]
  dsimp only [Option.map_some]
  rw [concise_small small]
  simp [Health.raw, read, hsPackText, packFields, Health.table]

/-- The streak stays where concatenation writes plain digits. -/
theorem streak_small (input : HealthInput) {nfail : Int} (lastfail : ℚ)
    (small : nfail.natAbs + 1 < 10 ^ 14) : (input.streak nfail lastfail).natAbs < 10 ^ 14 := by
  unfold HealthInput.streak
  split_ifs <;> omega

theorem streak_unwritten {input : HealthInput} {nfail : Int} {lastfail : ℚ}
    (unwritten : input.writesStreak nfail = false) : input.streak nfail lastfail = nfail := by
  rw [HealthInput.writesStreak, Bool.or_eq_false_iff] at unwritten
  obtain ⟨passes, keeps⟩ := unwritten
  rw [HealthInput.streak, if_neg (by simp [passes]), if_neg]
  simpa using keeps

theorem cd_digits (value : Int) :
    (if decimal value ≠ [] ∧ (decimal value).all isDigit = true then decimal value
      else decimal value) = decimal value := ite_self _

theorem Canonical.observe (canonical : Canonical numbers health) (input : HealthInput)
    (samples : health.samples.natAbs + 1 < 10 ^ 14) (nfail : health.nfail.natAbs + 1 < 10 ^ 14) :
    observeRewrite numbers input (some (health.text numbers)) =
      { written :=
          if input.affects || input.writesStreak health.nfail then
            some (hsPackText numbers (input.change health))
          else none
        score := input.scored health.score health.sts
        samples := if input.affects then health.samples + 1 else health.samples
        nfail := input.streak health.nfail health.lastfail
        cd := decimal health.cd } := by
  have raw : observeFields numbers (some (health.text numbers)) input.baseline input.now =
      health.raw numbers := by
    rw [observeFields, Health.text, hs_raw_text (health_raw_plain health)]
  have read := fun {value : Int} (listed : value ∈ health.integers) (fallback : ℚ) =>
    canonical.num listed fallback
  simp only [Health.integers] at read
  have streakText : (if input.writesStreak health.nfail then
      conciseText (input.streak health.nfail health.lastfail) else decimal health.nfail) =
      decimal (input.streak health.nfail health.lastfail) := by
    split_ifs with writes
    · exact concise_small (streak_small input _ nfail)
    · rw [streak_unwritten (by simpa using writes)]
  have sampleText : (if input.affects then conciseText (health.samples + 1)
      else decimal health.samples) =
      decimal (if input.affects then health.samples + 1 else health.samples) := by
    split_ifs
    · exact concise_small (by omega)
    · rfl
  unfold observeRewrite
  rw [raw]
  simp only [Health.raw, canonical.num_score, read, List.mem_cons, true_or, or_true,
    Int.floor_intCast, streakText, cd_digits, ObserveRewrite.mk.injEq, and_true]
  split_ifs with changed affected failed <;>
    simp_all [hsPackText, packFields, HealthInput.change, Health.table]

end Splices

/-! ## One meaning -/

/-- All readers of a canonical entry return the values of the full decoder, the encoders
write the entry back, a splice is decoding, changing and encoding, and encoding what was
decoded from any text is idempotent. -/
theorem packed_health_one_meaning (numbers : Numbers) {health : Health}
    (canonical : Canonical numbers health) :
    let text := health.text numbers
    (∀ baseline now : ℚ, hsUnpackText numbers (some text) baseline now = health.table) ∧
    (hsRaw (some text) = some (health.raw numbers) ∧ ∀ baseline now : ℚ,
      readTable numbers (health.raw numbers).fields baseline now = health.table) ∧
    hsCdRuText numbers (some text) = ((health.cd : ℚ), (health.ru : ℚ)) ∧
    hsLastUsed numbers (some text) = .finite health.lu ∧
    (∀ (exp : ℚ → ℚ) (baseline : ℚ) (now tau : Int),
      hsScore numbers exp (some text) baseline now tau =
        .finite (decay exp health.score health.sts now baseline tau)) ∧
    (∀ (baseline : ℚ) (nowMs : Int), parseHealth numbers text baseline nowMs = health) ∧
    packHealth numbers health = text ∧
    hsPackText numbers health.table = text ∧
    (∀ (baseline now : ℚ) (u : Int), u.natAbs < 10 ^ 14 →
      cooldownRewrite numbers (some text) baseline now u =
        some { prevCd := health.cd, nfail := health.nfail, ru := health.ru
               text := hsPackText numbers { health.table with cd := u } }) ∧
    (∀ input : HealthInput, health.samples.natAbs + 1 < 10 ^ 14 →
      health.nfail.natAbs + 1 < 10 ^ 14 →
      observeRewrite numbers input (some text) =
        { written :=
            if input.affects || input.writesStreak health.nfail then
              some (hsPackText numbers (input.change health))
            else none
          score := input.scored health.score health.sts
          samples := if input.affects then health.samples + 1 else health.samples
          nfail := input.streak health.nfail health.lastfail
          cd := decimal health.cd }) ∧
    (∀ (entry : Option Text) (baseline now later laterNow : ℚ), numbers.IsDouble baseline →
      numbers.IsDouble now →
      let packed := hsPackText numbers (hsUnpackText numbers entry baseline now)
      hsPackText numbers (hsUnpackText numbers (some packed) later laterNow) = packed) := by
  refine ⟨canonical.unpack, ⟨hs_raw_text (health_raw_plain health), canonical.read_table⟩,
    canonical.cd_ru, canonical.last_used, canonical.decayed_score, canonical.parse_health,
    pack_health_text (numbers.double_read canonical.score), pack_table health,
    fun baseline now u => canonical.cooldown baseline now, canonical.observe, ?_⟩
  intro entry baseline now later laterNow base clock
  obtain ⟨score, others⟩ := unpack_double entry base clock
  exact pack_unpack_pack score others later laterNow

/-! ## Exact decimal numbers

Conversions that satisfy the laws: every number is kept exactly. -/

def pointByte : Fin 256 := 46

def placesText (hundredths : Int) : Text :=
  (if hundredths < 0 then [minusByte] else []) ++ decimalNat (hundredths.natAbs / 100) ++
    [pointByte, digitByte (hundredths.natAbs / 10 % 10), digitByte (hundredths.natAbs % 10)]

def readUnsignedPlaces (text : Text) : Option Nat :=
  match text.drop (text.length - 3) with
  | [point, tenth, hundredth] =>
    if point = pointByte then readNat (text.take (text.length - 3) ++ [tenth, hundredth])
    else none
  | _ => none

def readPlaces : Text → Option Int
  | [] => none
  | first :: rest =>
    if first = minusByte then (readUnsignedPlaces rest).map fun (value : Nat) => -(value : Int)
    else (readUnsignedPlaces (first :: rest)).map fun (value : Nat) => (value : Int)

def readExact (text : Text) : Option LuaNumber :=
  match readInt text with
  | some value => some (.finite value)
  | none => (readPlaces text).map fun (hundredths : Int) => .finite ((hundredths : ℚ) / 100)

theorem read_unsigned_places (value : Nat) :
    readUnsignedPlaces (decimalNat (value / 100) ++
      [pointByte, digitByte (value / 10 % 10), digitByte (value % 10)]) = some value := by
  have digits : (decimalNat (value / 100) ++
      [digitByte (value / 10 % 10), digitByte (value % 10)]).all isDigit = true := by
    rw [List.all_append, Bool.and_eq_true]
    refine ⟨List.all_eq_true.mpr (decimal_nat_digits _), ?_⟩
    simp [digit_byte_is_digit (Nat.mod_lt _ (by decide : 0 < 10))]
  have total : digitsValue (decimalNat (value / 100) ++
      [digitByte (value / 10 % 10), digitByte (value % 10)]) = value := by
    rw [digits_value_append, digits_value_decimal]
    simp only [digitsValue, numeralValue, List.map_cons, List.map_nil, List.length_cons,
      List.length_nil, List.reverse_cons, List.reverse_nil, List.nil_append, List.cons_append,
      Nat.ofDigits_cons, Nat.ofDigits_nil, digit_byte_val (Nat.mod_lt _ (by decide : 0 < 10))]
    omega
  simp only [readUnsignedPlaces, List.length_append, List.length_cons, List.length_nil,
    Nat.zero_add, Nat.reduceAdd, Nat.add_sub_cancel, List.drop_left, List.take_left, if_true]
  rw [readNat, if_pos ⟨by simp, digits⟩, total]

theorem places_text_read (hundredths : Int) :
    readExact (placesText hundredths) = some (.finite (hundredths / 100)) := by
  have unsigned := read_unsigned_places hundredths.natAbs
  have digits := decimal_nat_digits (hundredths.natAbs / 100)
  have nonempty := decimal_nat_ne_nil (hundredths.natAbs / 100)
  have notInt : ∀ front : Text, readNat (front ++ [pointByte,
      digitByte (hundredths.natAbs / 10 % 10), digitByte (hundredths.natAbs % 10)]) = none := by
    intro front
    rw [readNat, if_neg]
    rintro ⟨-, allDigits⟩
    have point := List.all_eq_true.mp allDigits pointByte (by simp)
    exact absurd point (by decide)
  unfold readExact placesText
  split_ifs with negative
  · rw [List.append_assoc, List.singleton_append, readInt, if_pos rfl, notInt, readPlaces,
      if_pos rfl, unsigned]
    simp only [Option.map_none, Option.map_some]
    have sign : -((hundredths.natAbs : Nat) : Int) = hundredths := by omega
    rw [sign]
  · rw [List.nil_append]
    generalize decimalNat (hundredths.natAbs / 100) = front at unsigned digits nonempty
    cases front with
    | nil => exact absurd rfl nonempty
    | cons first rest =>
      have apart : first ≠ minusByte := by
        rintro rfl
        exact absurd (digits minusByte List.mem_cons_self) (by decide)
      rw [List.cons_append, readInt, if_neg apart, ← List.cons_append, notInt]
      rw [List.cons_append, readPlaces, if_neg apart, ← List.cons_append, unsigned]
      simp only [Option.map_none, Option.map_some]
      have sign : ((hundredths.natAbs : Nat) : Int) = hundredths := by omega
      rw [sign]

theorem places_text_plain (hundredths : Int) :
    pipe ∉ placesText hundredths ∧ placesText hundredths ≠ [] := by
  have digit : ∀ value : Nat, pipe ≠ digitByte (value % 10) := by
    intro value same
    have isOne := digit_byte_is_digit (Nat.mod_lt value (by decide : 0 < 10))
    rw [← same] at isOne
    exact absurd isOne (by decide)
  have whole : pipe ∉ decimalNat (hundredths.natAbs / 100) := by
    intro listed
    exact absurd (decimal_nat_digits _ _ listed) (by decide)
  have sign : pipe ∉ (if hundredths < 0 then [minusByte] else []) := by
    split_ifs <;> decide
  refine ⟨?_, by simp [placesText]⟩
  simp only [placesText, List.mem_append, List.mem_cons, List.not_mem_nil, or_false, not_or]
  exact ⟨⟨sign, whole⟩, by decide, digit _, digit _⟩

theorem read_exact_digits {text : Text} (nonempty : text ≠ []) (digits : text.all isDigit = true) :
    readExact text = some (.finite (digitsValue text)) := by
  rw [readExact, read_int_digits nonempty digits]
  rfl

def exactNumbers : Numbers where
  tonumber := readExact
  twoPlaces value := placesText (round (value * 100))
  parseFloat := readExact
  formatFloat value := placesText (round (value * 100))
  IsDouble _ := True
  double_read _ := trivial
  double_floor _ := trivial
  double_int _ := trivial
  read_digits nonempty _ digits := read_exact_digits nonempty digits
  read_int {value} _ := by rw [readExact, read_int_decimal]
  places_plain value := places_text_plain _
  read_score {value} _ := by
    unfold normalScore
    split_ifs with negativeZero
    · exact ⟨0, by decide +kernel, by decide +kernel⟩
    · refine ⟨round (value * 100) / 100, places_text_read _, ?_⟩
      have same : round ((round (value * 100) / 100 : ℚ) * 100) = round (value * 100) := by
        rw [div_mul_cancel₀ _ (by norm_num), round_intCast]
      rw [same, if_neg negativeZero]
  format_float _ := rfl
  parse_float _ := rfl

def usedHealth : Health :=
  { score := 87, sts := 1758011411962, samples := 12, nfail := 3, lastfail := 1758011000000
    cd := 0, ru := 1758011420000, lu := 1758011411000 }

theorem used_canonical : Canonical exactNumbers usedHealth :=
  ⟨by decide +kernel, by decide⟩

theorem used_health_spliced :
    usedHealth.text exactNumbers =
        asciiBytes "87.00|1758011411962|12|3|1758011000000|0|1758011420000|1758011411000" ∧
      (cooldownRewrite exactNumbers (some (usedHealth.text exactNumbers)) 80 0
        1758012000000).map CooldownRewrite.text =
        some (hsPackText exactNumbers { usedHealth.table with cd := 1758012000000 }) := by
  obtain ⟨-, -, -, -, -, -, -, -, cooled, -⟩ :=
    packed_health_one_meaning exactNumbers used_canonical
  have spliced := cooled 80 0 1758012000000 (by decide)
  refine ⟨by decide +kernel, ?_⟩
  rw [spliced]
  rfl

/-- A cooldown end of fifteen digits is spliced in with an exponent. -/
theorem long_cooldown_exponent :
    Canonical exactNumbers usedHealth ∧
      (cooldownRewrite exactNumbers (some (usedHealth.text exactNumbers)) 80 0
        253402300799999).map CooldownRewrite.text =
        some (asciiBytes ("87.00|1758011411962|12|3|1758011000000|2.534023008e+14|" ++
          "1758011420000|1758011411000")) ∧
      hsPackText exactNumbers { usedHealth.table with cd := 253402300799999 } =
        asciiBytes ("87.00|1758011411962|12|3|1758011000000|253402300799999|" ++
          "1758011420000|1758011411000") :=
  ⟨used_canonical, by decide +kernel, by decide +kernel⟩

end Spinneret.HotState
