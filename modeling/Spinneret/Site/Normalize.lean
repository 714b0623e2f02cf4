import Spinneret.Site.Path

/-!
# Path normalization

`NormalizePath` cuts a URI down to its path. One scan, with its own delimiters and limit,
reads the authority of an absolute URL and the path; it stops at the first delimiter, so
nothing after the path is ever looked at, and a path that was accepted is read the same
way again.
-/

namespace Spinneret.Site

set_option autoImplicit false

inductive UriError where
  | empty
  | notPathOrUrl
  | hostTooLong
  | hostEmpty
  | pathTooLong
  | badCharacter
  | notUtf8
  deriving DecidableEq, Repr

def UriError.message : UriError → String
  | .empty => "uri is empty"
  | .notPathOrUrl => "uri must be a path starting with \"/\" or an absolute http(s) URL"
  | .hostTooLong => "uri host is too long"
  | .hostEmpty => "uri host is empty"
  | .pathTooLong => "uri path exceeds 2048 bytes"
  | .badCharacter => "uri contains a control or whitespace character"
  | .notUtf8 => "uri is not valid UTF-8"

def maxAuthorityLength : Nat := 1024

def isBadASCII (c : Byte) : Bool := decide (c.val ≤ 0x20 ∨ c.val = 0x7F)

/-! ## Scans -/

/-- The loop of a scan from index `i`: the index of the delimiter, or the length, and
whether there was a byte above ASCII. -/
def scanFrom (ends : Byte → Bool) (limit : Nat) (tooLong : UriError) :
    Nat → Bool → Bytes → Except UriError (Nat × Bool)
  | i, nonASCII, [] => .ok (i, nonASCII)
  | i, nonASCII, c :: rest =>
    if ends c then .ok (i, nonASCII)
    else if i = limit then .error tooLong
    else if 0x80 ≤ c.val then scanFrom ends limit tooLong (i + 1) true rest
    else if isBadASCII c then .error .badCharacter
    else scanFrom ends limit tooLong (i + 1) nonASCII rest

/-- `checkRunes` of what was scanned, when it has a byte above ASCII. -/
def checkScanned (s : Bytes) (n : Nat) (nonASCII : Bool) : Except UriError Nat :=
  if nonASCII then
    match checkRunes (s.take n) with
    | none => .ok n
    | some .notUtf8 => .error .notUtf8
    | some _ => .error .badCharacter
  else .ok n

def endsPath (c : Byte) : Bool := c == 0x3F || c == 0x23

def endsAuthority (c : Byte) : Bool := c == slash || endsPath c

def scanAuthority (s : Bytes) : Except UriError Nat :=
  match scanFrom endsAuthority maxAuthorityLength .hostTooLong 0 false s with
  | .error error => .error error
  | .ok (n, nonASCII) => if n = 0 then .error .hostEmpty else checkScanned s n nonASCII

def scanPath (s : Bytes) : Except UriError Nat :=
  match scanFrom endsPath maxPathLength .pathTooLong 0 false s with
  | .error error => .error error
  | .ok (n, nonASCII) => checkScanned s n nonASCII

/-! ## Normalization -/

def lowerASCII (c : Byte) : Byte :=
  if 0x41 ≤ c.val ∧ c.val ≤ 0x5A then c + 0x20 else c

def httpScheme : Bytes := [0x68, 0x74, 0x74, 0x70, 0x3A, 0x2F, 0x2F]

def httpsScheme : Bytes := [0x68, 0x74, 0x74, 0x70, 0x73, 0x3A, 0x2F, 0x2F]

/-- `EqualFold` of a string of the length of the scheme. A string of as many bytes that
folds to ASCII has only ASCII runes, so the bytes are folded. -/
def hasScheme (scheme s : Bytes) : Bool :=
  decide (scheme.length ≤ s.length) && (s.take scheme.length).map lowerASCII == scheme

def cutHTTPScheme (s : Bytes) : Option Bytes :=
  if hasScheme httpsScheme s then some (s.drop httpsScheme.length)
  else if hasScheme httpScheme s then some (s.drop httpScheme.length)
  else none

/-- The path of `rest`, which starts with a slash. -/
def cutPath (rest : Bytes) : Except UriError Bytes :=
  (scanPath rest).map fun n => rest.take n

/-- What `NormalizePath` makes of what follows a scheme. -/
def normalizeAuthority (s : Bytes) : Except UriError Bytes :=
  match scanAuthority s with
  | .error error => .error error
  | .ok n => if (s.drop n).head? = some slash then cutPath (s.drop n) else .ok [slash]

def normalizePath (uri : Bytes) : Except UriError Bytes :=
  if uri = [] then .error .empty
  else if uri.head? = some slash then cutPath uri
  else
    match cutHTTPScheme uri with
    | none => .error .notPathOrUrl
    | some s => normalizeAuthority s

/-! ## Scans stop at their delimiter -/

section Scan

variable {ends : Byte → Bool} {limit : Nat} {tooLong : UriError}

theorem scan_from_append {body tail : Bytes} (plain : ∀ c ∈ body, ends c = false)
    (closed : ∀ c ∈ tail.head?, ends c = true) (i : Nat) (nonASCII : Bool) :
    scanFrom ends limit tooLong i nonASCII (body ++ tail) =
      scanFrom ends limit tooLong i nonASCII body := by
  induction body generalizing i nonASCII with
  | nil =>
    cases tail with
    | nil => rfl
    | cons c rest => simp [scanFrom, closed c rfl]
  | cons c body ih =>
    have later := ih fun other listed => plain other (List.mem_cons_of_mem _ listed)
    simp only [List.cons_append, scanFrom, later]

theorem scan_from_length {body : Bytes} (plain : ∀ c ∈ body, ends c = false) {i n : Nat}
    {before after : Bool}
    (scanned : scanFrom ends limit tooLong i before body = .ok (n, after)) :
    n = i + body.length := by
  induction body generalizing i before with
  | nil =>
    obtain ⟨rfl, -⟩ := Prod.mk.inj (Except.ok.inj scanned)
    rfl
  | cons c body ih =>
    have later := @ih fun other listed => plain other (List.mem_cons_of_mem _ listed)
    rw [scanFrom, if_neg (by rw [plain c List.mem_cons_self]; nofun)] at scanned
    rw [List.length_cons]
    split_ifs at scanned
    · have length := later scanned
      omega
    · have length := later scanned
      omega

end Scan

theorem check_scanned_take (s t : Bytes) {n : Nat} (nonASCII : Bool)
    (same : s.take n = t.take n) : checkScanned s n nonASCII = checkScanned t n nonASCII := by
  unfold checkScanned
  rw [same]

theorem check_scanned_ok {s : Bytes} {n m : Nat} {nonASCII : Bool}
    (checked : checkScanned s n nonASCII = .ok m) : m = n := by
  unfold checkScanned at checked
  split at checked
  · split at checked
    · exact (Except.ok.inj checked).symm
    · cases checked
    · cases checked
  · exact (Except.ok.inj checked).symm

theorem take_body {body tail : Bytes} : (body ++ tail).take body.length = body.take body.length := by
  rw [List.take_left', List.take_length]
  rfl

/-- A scan of a body up to a delimiter is a scan of the body. -/
theorem scan_path_append {body tail : Bytes} (plain : ∀ c ∈ body, endsPath c = false)
    (closed : ∀ c ∈ tail.head?, endsPath c = true) :
    scanPath (body ++ tail) = scanPath body := by
  unfold scanPath
  rw [scan_from_append plain closed]
  split
  · rfl
  · next n nonASCII scanned =>
    have length := scan_from_length plain scanned
    rw [Nat.zero_add] at length
    subst length
    exact check_scanned_take _ _ nonASCII take_body

theorem scan_authority_append {body tail : Bytes} (plain : ∀ c ∈ body, endsAuthority c = false)
    (closed : ∀ c ∈ tail.head?, endsAuthority c = true) :
    scanAuthority (body ++ tail) = scanAuthority body := by
  unfold scanAuthority
  rw [scan_from_append plain closed]
  split
  · rfl
  · next n nonASCII scanned =>
    have length := scan_from_length plain scanned
    rw [Nat.zero_add] at length
    subst length
    rw [check_scanned_take (body ++ tail) body nonASCII take_body]

theorem scan_path_length {body : Bytes} (plain : ∀ c ∈ body, endsPath c = false) {n : Nat}
    (scanned : scanPath body = .ok n) : n = body.length := by
  unfold scanPath at scanned
  split at scanned
  · cases scanned
  · next m nonASCII inner =>
    rw [check_scanned_ok scanned, scan_from_length plain inner, Nat.zero_add]

theorem scan_authority_length {body : Bytes} (plain : ∀ c ∈ body, endsAuthority c = false)
    {n : Nat} (scanned : scanAuthority body = .ok n) : n = body.length := by
  unfold scanAuthority at scanned
  split at scanned
  · cases scanned
  · next m nonASCII inner =>
    split_ifs at scanned
    rw [check_scanned_ok scanned, scan_from_length plain inner, Nat.zero_add]

/-! ## Without query and fragment -/

theorem delimiter_split (ends : Byte → Bool) (s : Bytes) :
    ∃ tail, s = (s.takeWhile fun c => !ends c) ++ tail ∧
      (∀ c ∈ s.takeWhile fun c => !ends c, ends c = false) ∧
      ∀ c ∈ tail.head?, ends c = true := by
  induction s with
  | nil => exact ⟨[], rfl, by simp, by simp⟩
  | cons first rest ih =>
    by_cases stop : ends first = true
    · refine ⟨first :: rest, by simp [stop], by simp [stop], fun c head => ?_⟩
      rw [← Option.some.inj head]
      exact stop
    · obtain ⟨tail, split, plain, closed⟩ := ih
      rw [Bool.not_eq_true] at stop
      have kept : (first :: rest).takeWhile (fun c => !ends c) =
          first :: rest.takeWhile fun c => !ends c := by
        simp [stop]
      refine ⟨tail, by rw [kept, List.cons_append, ← split], fun c listed => ?_, closed⟩
      rw [kept] at listed
      rcases List.mem_cons.mp listed with rfl | later
      · exact stop
      · exact plain c later

/-- What comes before the query and the fragment. -/
def withoutQuery (uri : Bytes) : Bytes := uri.takeWhile fun c => !endsPath c

theorem without_query_split (uri : Bytes) :
    ∃ tail, uri = withoutQuery uri ++ tail ∧ (∀ c ∈ withoutQuery uri, endsPath c = false) ∧
      ∀ c ∈ tail.head?, endsPath c = true :=
  delimiter_split endsPath uri

theorem without_query_append {body tail : Bytes} (plain : ∀ c ∈ body, endsPath c = false) :
    withoutQuery (body ++ tail) = body ++ withoutQuery tail :=
  List.takeWhile_append_of_pos fun c listed => by rw [plain c listed]; rfl

theorem without_query_closed {tail : Bytes} (closed : ∀ c ∈ tail.head?, endsPath c = true) :
    withoutQuery tail = [] := by
  cases tail with
  | nil => rfl
  | cons c rest => simp [withoutQuery, closed c rfl]

theorem cut_path_without_query (rest : Bytes) : cutPath rest = cutPath (withoutQuery rest) := by
  obtain ⟨tail, split, plain, closed⟩ := without_query_split rest
  unfold cutPath
  conv_lhs => rw [split, scan_path_append plain closed]
  cases scanned : scanPath (withoutQuery rest) with
  | error error => rfl
  | ok n =>
    obtain rfl := scan_path_length plain scanned
    exact congrArg Except.ok take_body

theorem cut_path_ok {rest path : Bytes} (cut : cutPath rest = .ok path) :
    path = withoutQuery rest := by
  rw [cut_path_without_query] at cut
  obtain ⟨tail, -, plain, -⟩ := without_query_split rest
  unfold cutPath at cut
  cases scanned : scanPath (withoutQuery rest) with
  | error error =>
    rw [scanned] at cut
    cases cut
  | ok n =>
    rw [scanned] at cut
    obtain rfl := scan_path_length plain scanned
    exact (Except.ok.inj cut).symm.trans List.take_length

theorem head_slash_iff (rest : Bytes) :
    rest.head? = some slash ↔ (withoutQuery rest).head? = some slash := by
  cases rest with
  | nil => rfl
  | cons c later =>
    by_cases stop : endsPath c = true
    · have apart : c ≠ slash := fun same => absurd stop (by rw [same]; decide)
      simp [withoutQuery, stop, apart]
    · rw [Bool.not_eq_true] at stop
      simp [withoutQuery, stop]

/-! ## Absolute URLs -/

/-- What follows the authority decides about the path. -/
def pathAfter (rest : Bytes) : Except UriError Bytes :=
  if rest.head? = some slash then cutPath rest else .ok [slash]

theorem path_after_without_query (rest : Bytes) : pathAfter rest = pathAfter (withoutQuery rest) := by
  unfold pathAfter
  rw [← cut_path_without_query]
  exact if_congr (head_slash_iff rest) rfl rfl

theorem normalize_authority_append {auth rest : Bytes}
    (plain : ∀ c ∈ auth, endsAuthority c = false)
    (closed : ∀ c ∈ rest.head?, endsAuthority c = true) :
    normalizeAuthority (auth ++ rest) =
      match scanAuthority auth with
      | .error error => .error error
      | .ok _ => pathAfter rest := by
  unfold normalizeAuthority
  rw [scan_authority_append plain closed]
  cases scanned : scanAuthority auth with
  | error error => rfl
  | ok n =>
    obtain rfl := scan_authority_length plain scanned
    dsimp only
    rw [List.drop_left']
    · rfl
    · rfl

theorem plain_path_of_authority {c : Byte} (plain : endsAuthority c = false) :
    endsPath c = false := by
  unfold endsAuthority at plain
  exact (Bool.or_eq_false_iff.mp plain).2

theorem normalize_authority_without_query (s : Bytes) :
    normalizeAuthority s = normalizeAuthority (withoutQuery s) := by
  obtain ⟨rest, split, plain, closed⟩ := delimiter_split endsAuthority s
  generalize auth_eq : (s.takeWhile fun c => !endsAuthority c) = auth at split plain
  have shorter : withoutQuery s = auth ++ withoutQuery rest := by
    rw [split]
    exact without_query_append fun c listed => plain_path_of_authority (plain c listed)
  have still : ∀ c ∈ (withoutQuery rest).head?, endsAuthority c = true := by
    intro c first
    cases rest with
    | nil => cases first
    | cons d later =>
      by_cases stop : endsPath d = true
      · simp [withoutQuery, stop] at first
      · rw [Bool.not_eq_true] at stop
        simp only [withoutQuery, List.takeWhile_cons, stop, Bool.not_false, if_true,
          List.head?_cons, Option.mem_some_iff] at first
        subst first
        exact closed d rfl
  rw [shorter, split, normalize_authority_append plain closed,
    normalize_authority_append plain still, path_after_without_query rest]

theorem has_scheme_append {scheme body tail : Bytes}
    (clean : ∀ c ∈ scheme, endsPath c = false)
    (closed : ∀ c ∈ tail.head?, endsPath c = true) :
    hasScheme scheme (body ++ tail) = hasScheme scheme body := by
  by_cases long : scheme.length ≤ body.length
  · have longer : scheme.length ≤ (body ++ tail).length := by
      rw [List.length_append]
      omega
    unfold hasScheme
    rw [List.take_append_of_le_length long, decide_eq_true long, decide_eq_true longer]
  · have short : hasScheme scheme body = false := by
      unfold hasScheme
      rw [decide_eq_false long, Bool.false_and]
    rw [short, ← Bool.not_eq_true]
    intro has
    unfold hasScheme at has
    rw [Bool.and_eq_true, decide_eq_true_eq, beq_iff_eq] at has
    obtain ⟨enough, folded⟩ := has
    cases tail with
    | nil =>
      rw [List.append_nil] at enough
      exact long enough
    | cons c later =>
      -- the delimiter would have to stand in the scheme
      have inside : c ∈ (body ++ c :: later).take scheme.length := by
        rw [List.take_append]
        obtain ⟨extra, more⟩ : ∃ extra, scheme.length - body.length = extra + 1 :=
          ⟨scheme.length - body.length - 1, by omega⟩
        rw [more, List.take_succ_cons]
        exact List.mem_append_right _ List.mem_cons_self
      have listed : lowerASCII c ∈ scheme := by
        rw [← folded]
        exact List.mem_map_of_mem inside
      have stops := closed c rfl
      have same : lowerASCII c = c := by
        unfold endsPath at stops
        rw [Bool.or_eq_true, beq_iff_eq, beq_iff_eq] at stops
        rcases stops with rfl | rfl <;> decide
      rw [same] at listed
      exact absurd (clean c listed) (by rw [stops]; nofun)

theorem cut_scheme_append {body tail : Bytes} (closed : ∀ c ∈ tail.head?, endsPath c = true) :
    cutHTTPScheme (body ++ tail) = (cutHTTPScheme body).map fun s => s ++ tail := by
  have drop {scheme : Bytes} (has : hasScheme scheme body = true) :
      (body ++ tail).drop scheme.length = body.drop scheme.length ++ tail := by
    unfold hasScheme at has
    rw [Bool.and_eq_true, decide_eq_true_eq] at has
    exact List.drop_append_of_le_length has.1
  unfold cutHTTPScheme
  rw [has_scheme_append (by decide +kernel) closed, has_scheme_append (by decide +kernel) closed]
  split_ifs with https http
  · rw [drop https, Option.map_some]
  · rw [drop http, Option.map_some]
  · rfl

theorem cut_scheme_plain {body s : Bytes} (plain : ∀ c ∈ body, endsPath c = false)
    (cut : cutHTTPScheme body = some s) : ∀ c ∈ s, endsPath c = false := by
  unfold cutHTTPScheme at cut
  split_ifs at cut
  · rw [← Option.some.inj cut]
    exact fun c listed => plain c (List.mem_of_mem_drop listed)
  · rw [← Option.some.inj cut]
    exact fun c listed => plain c (List.mem_of_mem_drop listed)

/-- Query and fragment do not count, unless there is nothing else. -/
theorem normalize_without_query {uri : Bytes} (some_path : withoutQuery uri ≠ []) :
    normalizePath uri = normalizePath (withoutQuery uri) := by
  obtain ⟨tail, split, plain, closed⟩ := without_query_split uri
  have filled : uri ≠ [] := fun empty => some_path (by rw [empty]; rfl)
  unfold normalizePath
  rw [if_neg filled, if_neg some_path, cut_path_without_query uri]
  refine if_congr (head_slash_iff uri) rfl ?_
  have cut : cutHTTPScheme uri =
      (cutHTTPScheme (withoutQuery uri)).map fun s => s ++ tail := by
    conv_lhs => rw [split]
    exact cut_scheme_append closed
  rw [cut]
  cases short : cutHTTPScheme (withoutQuery uri) with
  | none => rfl
  | some s =>
    have clean := cut_scheme_plain plain short
    rw [Option.map_some]
    dsimp only
    rw [normalize_authority_without_query (s ++ tail), without_query_append clean,
      without_query_closed closed, List.append_nil]

/-- A query or fragment alone is not a path. -/
theorem query_only_refused {uri : Bytes} (filled : uri ≠ []) (none : withoutQuery uri = []) :
    normalizePath uri = .error .notPathOrUrl := by
  obtain ⟨tail, split, -, closed⟩ := without_query_split uri
  rw [none, List.nil_append] at split
  have uncut : cutHTTPScheme uri = Option.none := by
    have cut := @cut_scheme_append [] uri (by rw [split]; exact closed)
    rw [List.nil_append] at cut
    rw [cut]
    rfl
  have bare : uri.head? ≠ some slash := by
    rw [Ne, head_slash_iff, none]
    nofun
  unfold normalizePath
  rw [if_neg filled, if_neg bare, uncut]

/-! ## Accepted paths -/

theorem path_after_ok {rest path : Bytes} (cut : pathAfter rest = .ok path) :
    path.head? = some slash ∧ (∀ c ∈ path, endsPath c = false) ∧ cutPath path = .ok path := by
  unfold pathAfter at cut
  split_ifs at cut with slashed
  · have same := cut_path_ok cut
    obtain ⟨tail, -, plain, -⟩ := without_query_split rest
    rw [cut_path_without_query, ← same] at cut
    rw [head_slash_iff, ← same] at slashed
    refine ⟨slashed, fun c listed => plain c ?_, cut⟩
    rw [same] at listed
    exact listed
  · rw [← Except.ok.inj cut]
    exact ⟨rfl, by decide +kernel, by decide +kernel⟩

theorem normalize_ok {uri path : Bytes} (accepted : normalizePath uri = .ok path) :
    ∃ rest, pathAfter rest = .ok path := by
  unfold normalizePath at accepted
  split_ifs at accepted with empty slashed
  · exact ⟨uri, by rw [pathAfter, if_pos slashed]; exact accepted⟩
  · split at accepted
    · cases accepted
    · unfold normalizeAuthority at accepted
      split at accepted
      · cases accepted
      · exact ⟨_, accepted⟩

/-- A URL with its scheme, a valid authority and what follows it. -/
structure Absolute (uri : Bytes) (scheme auth rest : Bytes) : Prop where
  whole : uri = scheme ++ auth ++ rest
  scheme : scheme.map lowerASCII = httpScheme ∨ scheme.map lowerASCII = httpsScheme
  plain : ∀ c ∈ auth, endsAuthority c = false
  valid : scanAuthority auth = .ok auth.length
  closed : ∀ c ∈ rest.head?, endsAuthority c = true

theorem has_scheme_own {scheme name : Bytes} (folded : scheme.map lowerASCII = name)
    (later : Bytes) : hasScheme name (scheme ++ later) = true := by
  have length : name.length = scheme.length := by rw [← folded, List.length_map]
  unfold hasScheme
  rw [Bool.and_eq_true, decide_eq_true_eq, beq_iff_eq, length, List.take_left' rfl, folded]
  exact ⟨by rw [List.length_append]; omega, rfl⟩

theorem http_not_https {scheme : Bytes} (http : scheme.map lowerASCII = httpScheme)
    (later : Bytes) : hasScheme httpsScheme (scheme ++ later) = false := by
  rw [← Bool.not_eq_true]
  intro has
  unfold hasScheme at has
  rw [Bool.and_eq_true, beq_iff_eq] at has
  have length : scheme.length = 7 := by
    have mapped := congrArg List.length http
    rw [List.length_map] at mapped
    exact mapped
  have fifth := congrArg (List.take 5) has.2
  rw [← List.map_take, List.take_take, List.take_append_of_le_length (by rw [length]; decide),
    List.map_take, http] at fifth
  exact absurd fifth (by decide)

theorem scheme_head {scheme : Bytes}
    (named : scheme.map lowerASCII = httpScheme ∨ scheme.map lowerASCII = httpsScheme) :
    ∃ c rest, scheme = c :: rest ∧ c ≠ slash := by
  cases scheme with
  | nil => rcases named with named | named <;> cases named
  | cons c rest =>
    refine ⟨c, rest, rfl, fun same => ?_⟩
    rw [same] at named
    rcases named with named | named
    · exact absurd (List.cons.inj named).1 (by decide)
    · exact absurd (List.cons.inj named).1 (by decide)

theorem absolute_normalized {uri scheme auth rest : Bytes}
    (absolute : Absolute uri scheme auth rest) : normalizePath uri = pathAfter rest := by
  have cut : cutHTTPScheme uri = some (auth ++ rest) := by
    rw [absolute.whole, List.append_assoc]
    unfold cutHTTPScheme
    rcases absolute.scheme with http | https
    · have length : httpScheme.length = scheme.length := by rw [← http, List.length_map]
      rw [http_not_https http, has_scheme_own http, length, List.drop_left' rfl]
      rfl
    · have length : httpsScheme.length = scheme.length := by rw [← https, List.length_map]
      rw [has_scheme_own https, length, List.drop_left' rfl]
      rfl
  obtain ⟨c, others, same, apart⟩ := scheme_head absolute.scheme
  have starts : uri = c :: (others ++ auth ++ rest) := by
    rw [absolute.whole, same]
    rfl
  have filled : uri ≠ [] := by
    rw [starts]
    exact List.cons_ne_nil _ _
  have head : uri.head? ≠ some slash := by
    rw [starts]
    exact fun first => apart (Option.some.inj first)
  unfold normalizePath
  rw [if_neg filled, if_neg head, cut]
  dsimp only
  rw [normalize_authority_append absolute.plain absolute.closed, absolute.valid]

/-- Normalization is idempotent and yields a plain path; query and fragment of a string that is
not empty do not count, nor do the scheme and the authority of a URL. -/
theorem normalize_path_canonical :
    (∀ uri path, normalizePath uri = .ok path →
      normalizePath path = .ok path ∧ path.head? = some slash ∧
        ∀ c ∈ path, endsPath c = false) ∧
    (∀ first second, first ≠ [] → second ≠ [] → withoutQuery first = withoutQuery second →
      normalizePath first = normalizePath second) ∧
    (normalizePath [] = .error .empty ∧
      ∀ uri, uri ≠ [] → withoutQuery uri = [] → normalizePath uri = .error .notPathOrUrl) ∧
    ∀ first second schemeFirst authFirst restFirst schemeSecond authSecond restSecond,
      Absolute first schemeFirst authFirst restFirst →
      Absolute second schemeSecond authSecond restSecond →
      withoutQuery restFirst = withoutQuery restSecond →
      normalizePath first = normalizePath second := by
  refine ⟨fun uri path accepted => ?_, fun first second filled filledToo same => ?_,
    ⟨rfl, fun uri filled none => query_only_refused filled none⟩, ?_⟩
  · obtain ⟨rest, cut⟩ := normalize_ok accepted
    obtain ⟨slashed, plain, again⟩ := path_after_ok cut
    refine ⟨?_, slashed, plain⟩
    have filled : path ≠ [] := fun empty => by
      rw [empty] at slashed
      cases slashed
    unfold normalizePath
    rw [if_neg filled, if_pos slashed]
    exact again
  · by_cases none : withoutQuery first = []
    · rw [query_only_refused filled none, query_only_refused filledToo (same.symm.trans none)]
    · rw [normalize_without_query none, same]
      exact (normalize_without_query (same ▸ none)).symm
  · intro first second schemeFirst authFirst restFirst schemeSecond authSecond restSecond
      absoluteFirst absoluteSecond same
    rw [absolute_normalized absoluteFirst, absolute_normalized absoluteSecond,
      path_after_without_query restFirst, same, ← path_after_without_query restSecond]

theorem same_path_of_two_urls :
    normalizePath (asciiBytes "HTTPS://user@host:8443/a%2Fb?x=1#y") =
        normalizePath (asciiBytes "http://h/a%2Fb") ∧
      normalizePath (asciiBytes "/a%2Fb") = .ok (asciiBytes "/a%2Fb") := by
  have first : Absolute (asciiBytes "HTTPS://user@host:8443/a%2Fb?x=1#y") (asciiBytes "HTTPS://")
      (asciiBytes "user@host:8443") (asciiBytes "/a%2Fb?x=1#y") :=
    ⟨by decide +kernel, by decide +kernel, by decide +kernel, by decide +kernel,
      by decide +kernel⟩
  have second : Absolute (asciiBytes "http://h/a%2Fb") (asciiBytes "http://") (asciiBytes "h")
      (asciiBytes "/a%2Fb") :=
    ⟨by decide +kernel, by decide +kernel, by decide +kernel, by decide +kernel,
      by decide +kernel⟩
  exact ⟨normalize_path_canonical.2.2.2 _ _ _ _ _ _ _ _ first second (by decide +kernel),
    (normalize_path_canonical.1 (asciiBytes "http://h/a%2Fb") _ (by decide +kernel)).1⟩

/-- The empty string and a query alone are refused with different messages. -/
theorem empty_uri_other_error :
    withoutQuery (asciiBytes "") = withoutQuery (asciiBytes "?") ∧
      normalizePath (asciiBytes "") = .error .empty ∧
      normalizePath (asciiBytes "?") = .error .notPathOrUrl ∧
      UriError.empty.message ≠ UriError.notPathOrUrl.message := by
  decide +kernel

end Spinneret.Site
