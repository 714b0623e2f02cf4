import Spinneret.Netx.Blanks
import Spinneret.Pkg.Idgen
import Spinneret.Site.Normalize

/-!
# Duration texts

`durationx` adds days and the word `permanent` to the syntax of `time.Duration`. A printed
duration is a chain of numbers with units, which reading takes apart from the left: first the
days, with a check that they fit, then the rest by the `time` package. What the package
functions do is taken from their documentation.
-/

namespace Spinneret.Durationx

open Spinneret.Site Spinneret.Idgen Spinneret.Netx
open Spinneret.Lib (digitByte minusByte formatUint isDigit digit_byte_is_digit)

set_option autoImplicit false

/-! ## The `time` package -/

def nanosecond : Nat := 1

def microsecond : Nat := 1000

def millisecond : Nat := 1000000

def second : Nat := 1000000000

def minute : Nat := 60000000000

def hour : Nat := 3600000000000

/-- The units, the micro sign and the Greek letter among them. -/
def unitMap : List (Bytes × Nat) :=
  [(asciiBytes "ns", nanosecond), (asciiBytes "us", microsecond),
    ([0xC2, 0xB5, 0x73], microsecond), ([0xCE, 0xBC, 0x73], microsecond),
    (asciiBytes "ms", millisecond), (asciiBytes "s", second), (asciiBytes "m", minute),
    (asciiBytes "h", hour)]

def point : Byte := 0x2E

def inUnit (byte : Byte) : Bool := !(byte == point || isDigit byte)

def decimal (digits : Bytes) : Nat := (parseUint digits 10).getD 0

/-- The first number with its unit, in nanoseconds, and the text after it. -/
def parseTerm (text : Bytes) : Option (Nat × Bytes) :=
  let whole := text.takeWhile isDigit
  let rest := text.dropWhile isDigit
  let pointed := rest.head? = some point
  let fraction := if pointed then rest.tail.takeWhile isDigit else []
  let rest := if pointed then rest.tail.dropWhile isDigit else rest
  if whole = [] ∧ fraction = [] then none
  else
    (unitMap.lookup (rest.takeWhile inUnit)).bind fun unit =>
      let value := decimal whole * unit + decimal fraction * unit / 10 ^ fraction.length
      if value ≤ 2 ^ 63 then some (value, rest.dropWhile inUnit) else none

/-- The loop of `time.ParseDuration`; every number takes at least one byte. -/
def parseTerms : Nat → Nat → Bytes → Option Nat
  | _, total, [] => some total
  | 0, _, _ => none
  | fuel + 1, total, text =>
    (parseTerm text).bind fun (value, rest) =>
      if total + value ≤ 2 ^ 63 then parseTerms fuel (total + value) rest else none

/-- `time.ParseDuration`, with the exact value of a fraction where the package multiplies and
truncates in `float64`. -/
def parseDuration (text : Bytes) : Option Int :=
  let signed := text.head? = some minusByte ∨ text.head? = some plus
  let rest := if signed then text.tail else text
  if rest = asciiBytes "0" then some 0
  else if rest = [] then none
  else
    (parseTerms rest.length 0 rest).bind fun total =>
      if text.head? = some minusByte then some (-(total : Int))
      else if total < 2 ^ 63 then some (total : Int)
      else none

/-- The lowest digits of a value, the last one first. -/
def lowDigits : Nat → Nat → List Nat
  | 0, _ => []
  | count + 1, value => value % 10 :: lowDigits count (value / 10)

/-- The digits after the point without trailing zeros. -/
def fractionDigits (prec value : Nat) : List Nat :=
  ((lowDigits prec value).dropWhile fun digit => digit == 0).reverse

def formatFraction (prec value : Nat) : Bytes :=
  let digits := fractionDigits prec value
  if digits = [] then [] else point :: digits.map digitByte

def formatScaled (prec value : Nat) : Bytes :=
  formatUint (value / 10 ^ prec) 10 ++ formatFraction prec value

/-- `time.Duration.String`. -/
def stdString (d : Int) : Bytes :=
  let u := d.natAbs
  let sign := if d < 0 then [minusByte] else []
  if u < second then
    if u = 0 then asciiBytes "0s"
    else if u < microsecond then sign ++ formatScaled 0 u ++ asciiBytes "ns"
    else if u < millisecond then sign ++ formatScaled 3 u ++ [0xC2, 0xB5, 0x73]
    else sign ++ formatScaled 6 u ++ asciiBytes "ms"
  else
    let seconds := formatUint (u / second % 60) 10 ++ formatFraction 9 u ++ asciiBytes "s"
    let minutes := if minute ≤ u then formatUint (u / minute % 60) 10 ++ asciiBytes "m" else []
    let hours := if hour ≤ u then formatUint (u / hour) 10 ++ asciiBytes "h" else []
    sign ++ hours ++ minutes ++ seconds

/-! ## The package -/

def day : Nat := 24 * hour

def maxDuration : Int := 2 ^ 63 - 1

def permanent : Int := -1

/-- A signed word of 64 bits. -/
def wrap (value : Int) : Int := (value + 2 ^ 63) % 2 ^ 64 - 2 ^ 63

inductive ParseError where
  | negative (text : Bytes)
  | overflows (text : Bytes)
  | invalid (text : Bytes)
  deriving DecidableEq, Repr

/-- The part of `Parse` after the days. -/
def parseRest (s : Bytes) (total : Int) (rest : Bytes) : Except ParseError Int :=
  if rest = [] then .ok total
  else
    match parseDuration rest with
    | none => .error (.invalid s)
    | some d =>
      if d < 0 then .error (.negative s)
      else if wrap (maxDuration - d) < total then .error (.overflows s)
      else .ok (wrap (total + d))

def letterD : Byte := 0x64

/-- The number before the first `d`, if one is there. -/
def leadingDays (s : Bytes) : Option (Int × Bytes) :=
  let i := s.findIdx (fun byte => byte == letterD)
  if 0 < i ∧ i < s.length then
    (parseInt (s.take i) 10 64).map fun n => (n, s.drop (i + 1))
  else none

/-- No character beside the ASCII letters has a lower case in the two words, so that bytes are
lower-cased. -/
def parse (s : Bytes) : Except ParseError Int :=
  let s := trimSpace s
  let lower := s.map lowerASCII
  if lower = [] ∨ lower = asciiBytes "0" then .ok 0
  else if lower = asciiBytes "permanent" then .ok permanent
  else if s.head? = some minusByte then .error (.negative s)
  else
    match leadingDays s with
    | some (n, rest) =>
      if maxDuration / day < n then .error (.overflows s) else parseRest s (wrap (n * day)) rest
    | none => parseRest s 0 s

def part (value : Nat) (name : String) : Bytes :=
  if 0 < value then formatUint value 10 ++ asciiBytes name else []

def subsecond (td : Nat) : Bytes :=
  if 0 < td then
    if td % millisecond = 0 then formatUint (td / millisecond) 10 ++ asciiBytes "ms"
    else stdString td
  else []

def string (d : Int) : Bytes :=
  if d = permanent then asciiBytes "permanent"
  else if d = 0 then asciiBytes "0s"
  else if d < 0 then stdString d
  else
    let td := d.toNat
    let days := td / day
    let td := td - days * day
    let h := td / hour
    let td := td - h * hour
    let m := td / minute
    let td := td - m * minute
    let s := td / second
    let td := td - s * second
    part days "d" ++ part h "h" ++ part m "m" ++ part s "s" ++ subsecond td

/-! ## Numbers -/

theorem digit_bytes_are_digits {digits : List Nat} (bounded : ∀ digit ∈ digits, digit < 10) :
    ∀ byte ∈ digits.map digitByte, isDigit byte = true := by
  intro byte listed
  obtain ⟨digit, member, rfl⟩ := List.mem_map.mp listed
  exact digit_byte_is_digit (bounded digit member)

theorem decimal_digits {digits : List Nat} (bounded : ∀ digit ∈ digits, digit < 10) :
    decimal (digits.map digitByte) = Nat.ofDigits 10 digits.reverse := by
  cases digits with
  | nil => rfl
  | cons digit rest =>
    rw [decimal, parse_uint_digits (by decide) (List.cons_ne_nil _ _) bounded, Option.getD_some]

theorem format_uint_digits (value : Nat) :
    ∃ digits : List Nat, formatUint value 10 = digits.map digitByte ∧ digits ≠ [] ∧
      (∀ digit ∈ digits, digit < 10) ∧ Nat.ofDigits 10 digits.reverse = value := by
  by_cases zero : value = 0
  · exact ⟨[0], by rw [formatUint, if_pos zero]; rfl, List.cons_ne_nil _ _, by decide, zero.symm⟩
  · refine ⟨(Nat.digits 10 value).reverse, if_neg zero, ?_, digits_reversed_lt (by decide) value, ?_⟩
    · simpa using Nat.digits_ne_nil_iff_ne_zero.mpr zero
    · rw [List.reverse_reverse, Nat.ofDigits_digits]

theorem parse_formatted {value : Nat} (fits : value < 2 ^ 63) :
    parseInt (formatUint value 10) 10 64 = some (value : Int) := by
  obtain ⟨digits, text, some_, bounded, read⟩ := format_uint_digits value
  rw [text, parse_int_digits (by decide) some_ bounded (by rw [read]; exact fits), read]

theorem low_digits_length (count value : Nat) : (lowDigits count value).length = count := by
  induction count generalizing value with
  | zero => rfl
  | succ count ih => rw [lowDigits, List.length_cons, ih]

theorem low_digits_bounded (count value : Nat) : ∀ digit ∈ lowDigits count value, digit < 10 := by
  induction count generalizing value with
  | zero => exact fun _ listed => absurd listed List.not_mem_nil
  | succ count ih =>
    intro digit listed
    rcases List.mem_cons.mp listed with rfl | later
    · exact Nat.mod_lt _ (by decide)
    · exact ih _ digit later

theorem of_low_digits (count value : Nat) :
    Nat.ofDigits 10 (lowDigits count value) = value % 10 ^ count := by
  induction count generalizing value with
  | zero => rw [pow_zero, Nat.mod_one]; rfl
  | succ count ih => rw [lowDigits, Nat.ofDigits_cons, ih, pow_succ', Nat.mod_mul]

/-- Zeros at the low end only scale a number. -/
theorem of_digits_drop_zeros (digits : List Nat) :
    ∃ zeros, zeros + (digits.dropWhile fun digit => digit == 0).length = digits.length ∧
      Nat.ofDigits 10 digits =
        Nat.ofDigits 10 (digits.dropWhile fun digit => digit == 0) * 10 ^ zeros := by
  induction digits with
  | nil => exact ⟨0, rfl, rfl⟩
  | cons digit rest ih =>
    obtain ⟨zeros, length, value⟩ := ih
    by_cases zero : digit = 0
    · subst zero
      refine ⟨zeros + 1, ?_, ?_⟩
      · rw [List.dropWhile_cons_of_pos rfl, List.length_cons, ← length]
        omega
      · rw [List.dropWhile_cons_of_pos rfl, Nat.ofDigits_cons, value]
        ring
    · have kept : (digit == 0) = false := beq_eq_false_iff_ne.mpr zero
      rw [List.dropWhile_cons_of_neg (by rw [kept]; exact Bool.false_ne_true)]
      exact ⟨0, Nat.zero_add _, by rw [pow_zero, Nat.mul_one]⟩

theorem fraction_digits_bounded (prec value : Nat) :
    ∀ digit ∈ fractionDigits prec value, digit < 10 := by
  intro digit listed
  apply low_digits_bounded prec value
  exact (List.dropWhile_sublist _).subset (List.mem_reverse.mp listed)

theorem fraction_value (prec value : Nat) :
    decimal ((fractionDigits prec value).map digitByte) * 10 ^ prec /
      10 ^ ((fractionDigits prec value).map digitByte).length = value % 10 ^ prec := by
  obtain ⟨zeros, length, read⟩ := of_digits_drop_zeros (lowDigits prec value)
  have scaled (digits count : Nat) (whole : zeros + count = prec) :
      digits * 10 ^ prec / 10 ^ count = digits * 10 ^ zeros := by
    rw [← whole, pow_add, ← Nat.mul_assoc]
    exact Nat.mul_div_cancel _ (Nat.pow_pos (by decide))
  rw [low_digits_length] at length
  rw [decimal_digits (fraction_digits_bounded prec value), List.length_map, fractionDigits,
    List.reverse_reverse, List.length_reverse, scaled _ _ length, ← read, of_low_digits]

/-! ## Terms -/

/-- A number with a unit, as it is written. -/
structure Term where
  whole : Bytes
  fraction : Bytes
  name : Bytes
  unit : Nat
  wholeSome : whole ≠ []
  wholeDigits : ∀ byte ∈ whole, isDigit byte = true
  fractionDigits : ∀ byte ∈ fraction, isDigit byte = true
  known : (name, unit) ∈ unitMap

def Term.text (term : Term) : Bytes :=
  term.whole ++ ((if term.fraction = [] then [] else point :: term.fraction) ++ term.name)

def Term.value (term : Term) : Nat :=
  decimal term.whole * term.unit +
    decimal term.fraction * term.unit / 10 ^ term.fraction.length

/-- The names of units are found again, hold neither digits nor a `d`, and end in a letter. -/
theorem unit_names : ∀ entry ∈ unitMap,
    unitMap.lookup entry.1 = some entry.2 ∧ entry.1 ≠ [] ∧ entry.1.all inUnit = true ∧
      letterD ∉ entry.1 ∧
      (entry.1.getLast?.any fun byte => decide (97 ≤ byte.val ∧ byte.val < 128)) = true := by
  decide

theorem takeWhile_stop {α : Type} {p : α → Bool} {front back : List α}
    (inside : ∀ item ∈ front, p item = true) (stop : ∀ item, back.head? = some item → p item = false) :
    (front ++ back).takeWhile p = front ∧ (front ++ back).dropWhile p = back := by
  rw [List.takeWhile_append_of_pos inside, List.dropWhile_append_of_pos inside]
  cases back with
  | nil => exact ⟨List.append_nil _, rfl⟩
  | cons item rest =>
    have outside : ¬ p item = true := Bool.eq_false_iff.mp (stop item rfl)
    rw [List.takeWhile_cons_of_neg outside, List.dropWhile_cons_of_neg outside]
    exact ⟨List.append_nil _, rfl⟩

theorem in_unit_iff (byte : Byte) : inUnit byte = true ↔ byte ≠ point ∧ isDigit byte = false := by
  rw [inUnit, Bool.not_eq_true', Bool.or_eq_false_iff, beq_eq_false_iff_ne]

theorem Term.name_starts (term : Term) (rest : Bytes) {byte : Byte}
    (starts : (term.name ++ rest).head? = some byte) : byte ≠ point ∧ isDigit byte = false := by
  obtain ⟨-, some_, letters, -⟩ := unit_names _ term.known
  cases name : term.name with
  | nil => exact absurd name some_
  | cons first later =>
    simp only [name] at starts letters
    cases starts
    exact (in_unit_iff byte).mp (List.all_eq_true.mp letters byte List.mem_cons_self)

theorem parse_term_text (term : Term) {rest : Bytes}
    (boundary : ∀ byte, rest.head? = some byte → isDigit byte = true)
    (fits : term.value ≤ 2 ^ 63) : parseTerm (term.text ++ rest) = some (term.value, rest) := by
  obtain ⟨found, -, letters, -⟩ := unit_names _ term.known
  have named : (term.name ++ rest).takeWhile inUnit = term.name ∧
      (term.name ++ rest).dropWhile inUnit = rest := by
    apply takeWhile_stop (List.all_eq_true.mp letters)
    intro byte starts
    rw [inUnit, boundary byte starts, Bool.or_true, Bool.not_true]
  have unsigned : (term.name ++ rest).head? ≠ some point := fun starts =>
    (term.name_starts rest starts).1 rfl
  have plain (byte : Byte) (starts : (term.name ++ rest).head? = some byte) :
      isDigit byte = false := (term.name_starts rest starts).2
  by_cases empty : term.fraction = []
  · obtain ⟨taken, dropped⟩ := takeWhile_stop term.wholeDigits plain
    have text : term.text ++ rest = term.whole ++ (term.name ++ rest) := by
      rw [Term.text, if_pos empty, List.nil_append, List.append_assoc]
    rw [Term.value, empty] at fits ⊢
    simp only [parseTerm, text, taken, dropped, unsigned, if_false, term.wholeSome, false_and,
      named, found, Option.bind_some]
    exact if_pos fits
  · have pointed (byte : Byte)
        (starts : (point :: (term.fraction ++ (term.name ++ rest))).head? = some byte) :
        isDigit byte = false := by
      cases starts
      decide
    obtain ⟨taken, dropped⟩ := takeWhile_stop term.wholeDigits pointed
    obtain ⟨taken', dropped'⟩ := takeWhile_stop term.fractionDigits plain
    have text : term.text ++ rest =
        term.whole ++ point :: (term.fraction ++ (term.name ++ rest)) := by
      simp only [Term.text, if_neg empty, List.append_assoc, List.cons_append]
    simp only [parseTerm, text, taken, dropped, List.head?_cons, if_true, List.tail_cons, taken',
      dropped', term.wholeSome, false_and, if_false, named, found, Option.bind_some]
    exact if_pos fits

/-- The texts that are chains of terms, with their values. -/
def Written (text : Bytes) (value : Nat) : Prop :=
  ∃ terms : List Term, text = terms.flatMap Term.text ∧ value = (terms.map Term.value).sum

theorem Term.text_starts (term : Term) (rest : Bytes) :
    ∃ first later, term.text ++ rest = first :: later ∧ isDigit first = true ∧ later ≠ [] := by
  obtain ⟨-, some_, -⟩ := unit_names _ term.known
  have digits := term.wholeDigits
  unfold Term.text
  cases whole : term.whole with
  | nil => exact absurd whole term.wholeSome
  | cons first later =>
    rw [whole] at digits
    refine ⟨first, later ++ ((if term.fraction = [] then [] else point :: term.fraction) ++
      term.name ++ rest), ?_, digits first List.mem_cons_self, ?_⟩
    · simp only [List.cons_append, List.append_assoc]
    · intro empty
      simp only [List.append_eq_nil_iff] at empty
      exact some_ empty.2.1.2

theorem terms_start (terms : List Term) {byte : Byte}
    (starts : (terms.flatMap Term.text).head? = some byte) : isDigit byte = true := by
  cases terms with
  | nil => cases starts
  | cons term rest =>
    obtain ⟨first, later, text, digit, -⟩ := term.text_starts (rest.flatMap Term.text)
    rw [List.flatMap_cons, text] at starts
    cases starts
    exact digit

theorem parse_terms_text (terms : List Term) {fuel total : Nat}
    (enough : (terms.flatMap Term.text).length ≤ fuel)
    (fits : total + (terms.map Term.value).sum ≤ 2 ^ 63) :
    parseTerms fuel total (terms.flatMap Term.text) =
      some (total + (terms.map Term.value).sum) := by
  induction terms generalizing fuel total with
  | nil => cases fuel <;> rfl
  | cons term rest ih =>
    obtain ⟨first, later, text, -, -⟩ := term.text_starts (rest.flatMap Term.text)
    rw [List.map_cons, List.sum_cons] at fits ⊢
    rw [List.flatMap_cons] at enough ⊢
    have positive : 0 < term.text.length := by
      have own := term.text_starts []
      rw [List.append_nil] at own
      obtain ⟨_, _, own, -⟩ := own
      rw [own]
      exact Nat.succ_pos _
    rw [List.length_append] at enough
    cases fuel with
    | zero => omega
    | succ fuel =>
      have read := parse_term_text term (fun _ => terms_start rest) (by omega)
      rw [text] at read ⊢
      rw [parseTerms, read, Option.bind_some]
      · simp only [if_pos (show total + term.value ≤ 2 ^ 63 by omega)]
        rw [ih (by omega) (by omega), Nat.add_assoc]
      · intro empty
        cases empty

theorem Written.parse_duration {text : Bytes} {value : Nat} (written : Written text value)
    (some_ : text ≠ []) (fits : value < 2 ^ 63) : parseDuration text = some (value : Int) := by
  obtain ⟨terms, rfl, rfl⟩ := written
  cases terms with
  | nil => exact absurd rfl some_
  | cons term rest =>
    have read := @parse_terms_text (term :: rest) _ 0 le_rfl
      (by rw [Nat.zero_add]; exact fits.le)
    obtain ⟨first, later, text, digit, more⟩ := term.text_starts (rest.flatMap Term.text)
    rw [List.flatMap_cons, text] at read ⊢
    have positive : (first :: later).head? ≠ some minusByte := by
      rintro ⟨⟩
      cases digit
    have unsigned : ¬ ((first :: later).head? = some minusByte ∨
        (first :: later).head? = some plus) := by
      rintro (signed | signed)
      · exact positive signed
      · cases signed
        cases digit
    have longer : first :: later ≠ asciiBytes "0" := by
      intro zero
      exact more (List.cons.inj zero).2
    simp only [parseDuration, if_neg unsigned, if_neg longer, List.cons_ne_nil, if_false, read,
      Option.bind_some, if_neg positive, Nat.zero_add, if_pos fits]

/-! ## Printed durations -/

theorem Written.nil : Written [] 0 := ⟨[], rfl, rfl⟩

theorem Written.append {front back : Bytes} {value value' : Nat} (first : Written front value)
    (second : Written back value') : Written (front ++ back) (value + value') := by
  obtain ⟨terms, rfl, rfl⟩ := first
  obtain ⟨terms', rfl, rfl⟩ := second
  exact ⟨terms ++ terms', List.flatMap_append.symm, by rw [List.map_append, List.sum_append]⟩

/-- A value printed in a unit of a power of ten. -/
theorem Written.scaled (value : Nat) {name : Bytes} {prec : Nat}
    (known : (name, 10 ^ prec) ∈ unitMap) : Written (formatScaled prec value ++ name) value := by
  obtain ⟨digits, text, some_, bounded, read⟩ := format_uint_digits (value / 10 ^ prec)
  have number : decimal (digits.map digitByte) = value / 10 ^ prec := by
    rw [decimal_digits bounded, read]
  refine ⟨[⟨digits.map digitByte, (fractionDigits prec value).map digitByte, name, 10 ^ prec, ?_,
    digit_bytes_are_digits bounded,
    digit_bytes_are_digits (fraction_digits_bounded prec value), known⟩], ?_, ?_⟩
  · simpa using some_
  · simp only [List.flatMap_cons, List.flatMap_nil, List.append_nil, Term.text, formatScaled,
      formatFraction, text, List.map_eq_nil_iff, List.append_assoc]
  · rw [List.map_singleton, List.sum_singleton, Term.value, number, fraction_value, Nat.mul_comm]
    exact (Nat.div_add_mod value (10 ^ prec)).symm

theorem Written.whole (value : Nat) {name : Bytes} {unit : Nat} (known : (name, unit) ∈ unitMap) :
    Written (formatUint value 10 ++ name) (value * unit) := by
  obtain ⟨digits, text, some_, bounded, read⟩ := format_uint_digits value
  refine ⟨[⟨digits.map digitByte, [], name, unit, ?_, digit_bytes_are_digits bounded,
    fun _ listed => absurd listed List.not_mem_nil, known⟩], ?_, ?_⟩
  · simpa using some_
  · simp only [List.flatMap_cons, List.flatMap_nil, List.append_nil, Term.text, text, if_true,
      List.nil_append]
  · rw [List.map_singleton, List.sum_singleton, Term.value, decimal_digits bounded, read]
    simp only [decimal, parseUint, if_true, Option.getD_none, Nat.zero_mul, Nat.zero_div,
      Nat.add_zero]

theorem Written.part (value : Nat) {name : String} {unit : Nat}
    (known : (asciiBytes name, unit) ∈ unitMap) : Written (part value name) (value * unit) := by
  unfold Durationx.part
  split
  · exact Written.whole value known
  · next zero =>
    rw [Nat.eq_zero_of_not_pos zero, Nat.zero_mul]
    exact Written.nil

theorem Written.subsecond {td : Nat} (short : td < second) : Written (subsecond td) td := by
  unfold Durationx.subsecond
  split
  · next positive =>
    split
    · next whole =>
      have printed := Written.whole (td / millisecond)
        (show (asciiBytes "ms", millisecond) ∈ unitMap by decide)
      rwa [Nat.div_mul_cancel (Nat.dvd_of_mod_eq_zero whole)] at printed
    · have nonneg : ¬ (td : Int) < 0 := by omega
      have nonzero : ¬ td = 0 := by omega
      simp only [stdString, Int.natAbs_natCast, if_pos short, if_neg nonneg, if_neg nonzero,
        List.nil_append]
      split_ifs
      · exact Written.scaled td (by decide)
      · exact Written.scaled td (by decide)
      · exact Written.scaled td (by decide)
  · next zero =>
    rw [Nat.eq_zero_of_not_pos zero]
    exact Written.nil

/-- Texts that start with a digit and end in a letter. -/
def Spelled (text : Bytes) : Prop :=
  ∃ first last : Byte, text.head? = some first ∧ isDigit first = true ∧
    text.getLast? = some last ∧ 97 ≤ last.val ∧ last.val < 128

theorem Written.ends {text : Bytes} {value : Nat} (written : Written text value)
    (some_ : text ≠ []) : ∃ last, text.getLast? = some last ∧ 97 ≤ last.val ∧ last.val < 128 := by
  obtain ⟨terms, rfl, -⟩ := written
  induction terms using List.reverseRecOn with
  | nil => exact absurd rfl some_
  | append_singleton terms term _ =>
    obtain ⟨-, -, -, -, letter⟩ := unit_names _ term.known
    obtain ⟨last, ends, range⟩ := (Option.any_eq_true _ _).mp letter
    refine ⟨last, ?_, of_decide_eq_true range⟩
    simp only [List.flatMap_append, List.flatMap_singleton, Term.text, List.getLast?_append, ends,
      Option.some_or]

theorem Written.starts {text : Bytes} {value : Nat} (written : Written text value)
    (some_ : text ≠ []) : ∃ first, text.head? = some first ∧ isDigit first = true := by
  obtain ⟨terms, rfl, -⟩ := written
  cases text : terms.flatMap Term.text with
  | nil => exact absurd text some_
  | cons first later => exact ⟨first, rfl, terms_start terms (by rw [text]; rfl)⟩

theorem Written.spelled {text : Bytes} {value : Nat} (written : Written text value)
    (some_ : text ≠ []) : Spelled text := by
  obtain ⟨first, starts, digit⟩ := written.starts some_
  obtain ⟨last, ends, letter⟩ := written.ends some_
  exact ⟨first, last, starts, digit, ends, letter⟩

theorem Written.value_eq_zero {value : Nat} (written : Written [] value) : value = 0 := by
  obtain ⟨terms, text, rfl⟩ := written
  cases terms with
  | nil => rfl
  | cons term rest =>
    obtain ⟨first, later, own, -⟩ := term.text_starts (rest.flatMap Term.text)
    rw [List.flatMap_cons, own] at text
    cases text

theorem digit_ne_letter {byte : Byte} (digit : isDigit byte = true) : byte ≠ letterD := by
  rintro rfl
  cases digit

theorem Term.without_days (term : Term) : letterD ∉ term.text := by
  obtain ⟨-, -, -, without, -⟩ := unit_names _ term.known
  intro listed
  rcases List.mem_append.mp listed with whole | later
  · exact digit_ne_letter (term.wholeDigits _ whole) rfl
  · rcases List.mem_append.mp later with fraction | name
    · split at fraction
      · cases fraction
      · rcases List.mem_cons.mp fraction with sign | fraction
        · cases sign
        · exact digit_ne_letter (term.fractionDigits _ fraction) rfl
    · exact without name

theorem Written.without_days {text : Bytes} {value : Nat} (written : Written text value) :
    letterD ∉ text := by
  obtain ⟨terms, rfl, -⟩ := written
  intro listed
  obtain ⟨term, -, own⟩ := List.mem_flatMap.mp listed
  exact term.without_days own

/-! ## Reading printed durations -/

theorem solid_of_range {byte : Byte} (least : 48 ≤ byte.val) (most : byte.val < 128) :
    Solid byte :=
  ⟨most, decide_eq_false (by omega)⟩

theorem lower_digit {byte : Byte} (digit : isDigit byte = true) : lowerASCII byte = byte := by
  have range := of_decide_eq_true digit
  exact if_neg (by omega)

/-- A text that starts with a digit and ends in a letter is no word that `Parse` knows. -/
theorem parse_spelled {text : Bytes} (spelled : Spelled text) :
    parse text = match leadingDays text with
      | some (n, rest) =>
        if maxDuration / day < n then .error (.overflows text)
        else parseRest text (wrap (n * day)) rest
      | none => parseRest text 0 text := by
  obtain ⟨first, last, starts, digit, ends, least, most⟩ := spelled
  have range := of_decide_eq_true digit
  have kept := trim_space_kept starts ends (solid_of_range range.1 (by omega))
    (solid_of_range (by omega) most)
  have lowered : (text.map lowerASCII).head? = some first := by
    rw [List.head?_map, starts, Option.map_some, lower_digit digit]
  have lowered' : (text.map lowerASCII).getLast? = some last := by
    rw [List.getLast?_map, ends, Option.map_some]
    exact congrArg some (if_neg (by omega))
  have nonzero : ¬ (text.map lowerASCII = [] ∨ text.map lowerASCII = asciiBytes "0") := by
    rintro (empty | zero)
    · rw [empty] at lowered
      cases lowered
    · rw [zero] at lowered'
      cases lowered'
      revert least
      decide
  have limited : text.map lowerASCII ≠ asciiBytes "permanent" := by
    intro word
    rw [word] at lowered
    cases lowered
    cases digit
  have positive : text.head? ≠ some minusByte := by
    intro sign
    rw [starts] at sign
    cases sign
    cases digit
  simp only [parse, kept, if_neg nonzero, if_neg limited, if_neg positive]

theorem wrap_of_fits {value : Int} (least : -2 ^ 63 ≤ value) (most : value < 2 ^ 63) :
    wrap value = value := by
  unfold wrap
  omega

theorem Written.parse_rest {rest : Bytes} {value : Nat} (written : Written rest value) (s : Bytes)
    {total : Int} (nonneg : 0 ≤ total) (fits : total + value < 2 ^ 63) :
    parseRest s total rest = .ok (total + value) := by
  unfold parseRest
  split
  · next empty =>
    subst empty
    rw [written.value_eq_zero, Nat.cast_zero, Int.add_zero]
  · next some_ =>
    have room : ¬ wrap (maxDuration - value) < total := by
      rw [wrap_of_fits] <;> unfold maxDuration <;> omega
    rw [written.parse_duration some_ (by omega)]
    simp only [if_neg (show ¬ (value : Int) < 0 by omega), if_neg room,
      wrap_of_fits (show -2 ^ 63 ≤ total + (value : Int) by omega) fits]

theorem leading_days_none {text : Bytes} (without : letterD ∉ text) : leadingDays text = none := by
  have absent : text.findIdx (fun byte => byte == letterD) = text.length := by
    apply List.findIdx_eq_length.mpr
    intro byte listed
    rw [beq_eq_false_iff_ne]
    rintro rfl
    exact without listed
  simp only [leadingDays, absent, lt_irrefl, and_false, if_false]

theorem Written.parse {text : Bytes} {value : Nat} (written : Written text value)
    (some_ : text ≠ []) (fits : value < 2 ^ 63) : parse text = .ok (value : Int) := by
  rw [parse_spelled (written.spelled some_), leading_days_none written.without_days]
  have read := @Written.parse_rest text value written text 0 le_rfl (by omega)
  rwa [Int.zero_add] at read

theorem leading_days_some {days : Nat} (fits : days < 2 ^ 63) (rest : Bytes) :
    leadingDays (formatUint days 10 ++ letterD :: rest) = some ((days : Int), rest) := by
  obtain ⟨digits, text, some_, bounded, -⟩ := format_uint_digits days
  have before : ∀ byte ∈ formatUint days 10, (byte == letterD) = false := by
    intro byte listed
    rw [text] at listed
    exact beq_eq_false_iff_ne.mpr (digit_ne_letter (digit_bytes_are_digits bounded byte listed))
  have found : (formatUint days 10 ++ letterD :: rest).findIdx (fun byte => byte == letterD) =
      (formatUint days 10).length := by
    rw [List.findIdx_append, List.findIdx_eq_length.mpr before, if_neg (lt_irrefl _),
      List.findIdx_cons, beq_self_eq_true, cond_true, Nat.zero_add]
  have positive : 0 < (formatUint days 10).length := by
    rw [text, List.length_map]
    exact List.length_pos_of_ne_nil some_
  have inside : (formatUint days 10).length < (formatUint days 10 ++ letterD :: rest).length := by
    rw [List.length_append, List.length_cons]
    omega
  rw [leadingDays, found]
  simp only [if_pos (And.intro positive inside), List.take_left, parse_formatted fits,
    Option.map_some, List.drop_length_add_append, List.drop_one, List.tail_cons]

theorem parse_days {days value : Nat} {rest : Bytes} (written : Written rest value)
    (some_ : 0 < days) (fits : days * day + value < 2 ^ 63) :
    parse (part days "d" ++ rest) = .ok ((days * day + value : Nat) : Int) := by
  have text : part days "d" ++ rest = formatUint days 10 ++ letterD :: rest := by
    rw [part, if_pos some_, List.append_assoc]
    rfl
  have spelled : Spelled (formatUint days 10 ++ letterD :: rest) := by
    obtain ⟨digits, printed, nonempty, bounded, -⟩ := format_uint_digits days
    have ends : ∃ last, (formatUint days 10 ++ letterD :: rest).getLast? = some last ∧
        97 ≤ last.val ∧ last.val < 128 := by
      rw [List.getLast?_append]
      by_cases empty : rest = []
      · exact ⟨letterD, by rw [empty]; rfl, by decide⟩
      · obtain ⟨last, ends, range⟩ := written.ends empty
        exact ⟨last, by rw [List.getLast?_cons, ends]; rfl, range⟩
    obtain ⟨last, ends, range⟩ := ends
    cases digits with
    | nil => exact absurd rfl nonempty
    | cons digit later =>
      refine ⟨digitByte digit, last, ?_, ?_, ends, range⟩
      · rw [printed]
        rfl
      · exact digit_byte_is_digit (bounded digit List.mem_cons_self)
  have small : days * day < 2 ^ 63 := by omega
  have bounded : ¬ maxDuration / day < (days : Int) := by
    unfold maxDuration
    unfold day hour at small ⊢
    omega
  have exact_ : wrap (days * day) = days * day := by
    apply wrap_of_fits <;> omega
  rw [text, parse_spelled spelled, leading_days_some (by unfold day hour at small; omega)]
  simp only [if_neg bounded, exact_]
  rw [written.parse_rest _ (by omega) (by omega), Nat.cast_add, Nat.cast_mul]

theorem Written.clock (td : Nat) {h m s minutes seconds below : Nat} (hours : h = td / hour)
    (first : minutes = td - h * hour) (whole : m = minutes / minute)
    (second_ : seconds = minutes - m * minute) (whole' : s = seconds / second)
    (third : below = seconds - s * second) :
    Written (Durationx.part h "h" ++ (Durationx.part m "m" ++
      (Durationx.part s "s" ++ Durationx.subsecond below))) td := by
  have short : below < second := by
    rw [third, whole']
    unfold second
    omega
  have total : h * hour + (m * minute + (s * second + below)) = td := by
    subst hours first whole second_ whole' third
    unfold hour minute second
    omega
  rw [← total]
  apply Written.append (Written.part h (by decide))
  apply Written.append (Written.part m (by decide))
  exact Written.append (Written.part s (by decide)) (Written.subsecond short)

theorem parse_string {d : Int} (nonneg : 0 ≤ d) (fits : d < 2 ^ 63) :
    parse (string d) = .ok d := by
  have limited : d ≠ permanent := by
    unfold permanent
    omega
  by_cases zero : d = 0
  · have text : string d = formatUint 0 10 ++ asciiBytes "s" := by
      rw [string, if_neg limited, if_pos zero]
      decide
    have written := Written.whole 0 (show (asciiBytes "s", second) ∈ unitMap by decide)
    rw [text, written.parse (by decide) (by decide), zero]
    rfl
  · simp only [string, if_neg limited, if_neg zero, if_neg (show ¬ d < 0 by omega),
      List.append_assoc]
    have written := Written.clock (d.toNat - d.toNat / day * day) rfl rfl rfl rfl rfl rfl
    have least := Nat.div_mul_le_self d.toNat day
    have value : ((d.toNat : Nat) : Int) = d := by omega
    by_cases days : 0 < d.toNat / day
    · rw [parse_days written days (by omega), Nat.add_sub_cancel' least, value]
    · have none_ : d.toNat / day = 0 := Nat.eq_zero_of_not_pos days
      have empty : part (d.toNat / day) "d" = [] := if_neg days
      rw [empty, List.nil_append, written.parse]
      · rw [none_, Nat.zero_mul, Nat.sub_zero, value]
      · intro blank
        rw [blank] at written
        have absent := written.value_eq_zero
        rw [none_, Nat.zero_mul, Nat.sub_zero] at absent
        omega
      · omega

/-! ## What is read -/

/-- The exact meaning of a text, with no machine words. -/
def Denotes (text : Bytes) (value : Int) : Prop :=
  (text = [] ∧ value = 0) ∨
    ∃ (days : Int) (rest : Bytes) (d : Int), value = days * day + d ∧ 0 ≤ days ∧ 0 ≤ d ∧
      ((days = 0 ∧ text = rest) ∨
        ∃ number, text = number ++ letterD :: rest ∧ parseInt number 10 64 = some days) ∧
      ((rest = [] ∧ d = 0) ∨ parseDuration rest = some d)

theorem parse_int_nonneg {text : Bytes} {base bitSize : Nat} {n : Int}
    (unsigned : text.head? ≠ some minusByte) (read : parseInt text base bitSize = some n) : 0 ≤ n := by
  simp only [parseInt, if_neg unsigned] at read
  obtain ⟨un, -, read⟩ := Option.bind_eq_some_iff.mp read
  split at read
  · cases read
    exact Int.natCast_nonneg un
  · cases read

theorem parse_duration_lt {text : Bytes} {d : Int} (read : parseDuration text = some d) :
    d < 2 ^ 63 := by
  simp only [parseDuration] at read
  generalize (if text.head? = some minusByte ∨ text.head? = some plus then text.tail else text) = rest
    at read
  split at read
  · cases read
    decide
  · split at read
    · cases read
    · obtain ⟨total, -, read⟩ := Option.bind_eq_some_iff.mp read
      split_ifs at read with sign fits
      · cases read
        omega
      · cases read
        exact_mod_cast fits

theorem parse_rest_exact {s rest : Bytes} {total v : Int} (nonneg : 0 ≤ total)
    (small : total < 2 ^ 63) (read : parseRest s total rest = .ok v) :
    ∃ d, v = total + d ∧ 0 ≤ d ∧ total + d < 2 ^ 63 ∧
      ((rest = [] ∧ d = 0) ∨ parseDuration rest = some d) := by
  unfold parseRest at read
  split at read
  · next empty =>
    cases read
    exact ⟨0, by omega, le_rfl, by omega, .inl ⟨empty, rfl⟩⟩
  · split at read
    · cases read
    · next d duration =>
      have most := parse_duration_lt duration
      split_ifs at read with negative more
      rw [wrap_of_fits (by unfold maxDuration; omega) (by unfold maxDuration; omega)] at more
      unfold maxDuration at more
      rw [wrap_of_fits (by omega) (by omega)] at read
      cases read
      exact ⟨d, rfl, by omega, by omega, .inr duration⟩

theorem leading_days_split {s rest : Bytes} {n : Int} (unsigned : s.head? ≠ some minusByte)
    (leading : leadingDays s = some (n, rest)) :
    0 ≤ n ∧ ∃ number, s = number ++ letterD :: rest ∧ parseInt number 10 64 = some n := by
  simp only [leadingDays] at leading
  split at leading
  · next inside =>
    obtain ⟨n, read, pair⟩ := Option.map_eq_some_iff.mp leading
    cases pair
    have found := eq_of_beq (@List.findIdx_getElem _ _ _ inside.2)
    refine ⟨parse_int_nonneg ?_ read, _, ?_, read⟩
    · rwa [List.head?_take, if_neg (by omega)]
    · conv_lhs => rw [← List.take_append_drop (s.findIdx fun byte => byte == letterD) s,
        List.drop_eq_getElem_cons inside.2, found]
  · cases leading

theorem lower_zero {byte : Byte} (lower : lowerASCII byte = 0x30) : byte = 0x30 := by
  unfold lowerASCII at lower
  split at lower
  · have value := congrArg Fin.val lower
    rw [Fin.val_add] at value
    change (byte.val + 32) % 256 = 48 at value
    omega
  · exact lower

theorem denotes_zero {text : Bytes}
    (zero : text.map lowerASCII = [] ∨ text.map lowerASCII = asciiBytes "0") : Denotes text 0 := by
  rcases zero with empty | digit
  · exact .inl ⟨List.map_eq_nil_iff.mp empty, rfl⟩
  · obtain ⟨byte, rfl, lower⟩ := List.map_eq_singleton_iff.mp digit
    cases lower_zero lower
    exact .inr ⟨0, _, 0, rfl, le_rfl, le_rfl, .inl ⟨rfl, rfl⟩, .inr rfl⟩

theorem parse_exact {s : Bytes} {v : Int} (read : parse s = .ok v) :
    (v = permanent ∧ (trimSpace s).map lowerASCII = asciiBytes "permanent") ∨
      (0 ≤ v ∧ v < 2 ^ 63 ∧ Denotes (trimSpace s) v) := by
  simp only [parse] at read
  generalize trimSpace s = text at read ⊢
  split at read
  · next zero =>
    cases read
    exact .inr ⟨le_rfl, by decide, denotes_zero zero⟩
  · split at read
    · next word =>
      cases read
      exact .inl ⟨rfl, word⟩
    · split at read
      · cases read
      · next unsigned =>
        right
        split at read
        · next n rest leading =>
          obtain ⟨nonneg, number, text, parsed⟩ := leading_days_split unsigned leading
          split_ifs at read with more
          have small : n * day < 2 ^ 63 := by
            unfold maxDuration day hour at more
            unfold day hour
            omega
          have positive : 0 ≤ n * (day : Int) := by positivity
          rw [wrap_of_fits (by omega) small] at read
          obtain ⟨d, rfl, least, most, remaining⟩ := parse_rest_exact positive small read
          exact ⟨by omega, most,
            .inr ⟨n, rest, d, rfl, nonneg, least, .inr ⟨number, text, parsed⟩, remaining⟩⟩
        · obtain ⟨d, rfl, least, most, remaining⟩ := parse_rest_exact le_rfl (by decide) read
          exact ⟨by omega, most,
            .inr ⟨0, text, d, by omega, le_rfl, least, .inl ⟨rfl, rfl⟩, remaining⟩⟩

/-- A duration is read back from its text, and no text is read as another negative value or
as a sum that does not fit. -/
theorem duration_round_trip :
    (∀ d : Int, d = permanent ∨ (0 ≤ d ∧ d < 2 ^ 63) → parse (string d) = .ok d) ∧
      ∀ (s : Bytes) (v : Int), parse s = .ok v →
        (v = permanent ∧ (trimSpace s).map lowerASCII = asciiBytes "permanent") ∨
          (0 ≤ v ∧ v < 2 ^ 63 ∧ Denotes (trimSpace s) v) := by
  constructor
  · rintro d (rfl | ⟨nonneg, fits⟩)
    · decide
    · exact parse_string nonneg fits
  · intro s v read
    exact parse_exact read

theorem duration_round_trip_day :
    parse (string 86400000000001) = .ok 86400000000001 ∧
      string 86400000000001 = asciiBytes "1d1ns" :=
  ⟨duration_round_trip.1 _ (by decide), by decide⟩

end Spinneret.Durationx
