import Mathlib.Logic.Relation
import Spinneret.Lib.LuaText
import Spinneret.Netx.Blanks

/-!
# Script preludes

`NewScript` puts before a script the helpers of the common library that the script needs. The
library is cut into sections at marker lines. A section needs the helpers that its code names
outside comments, and so does a script; names are looked for in the text with its comments
blanked. Texts are suffixes here where the source has positions in one text.
-/

namespace Spinneret.Store

open Spinneret.Site Spinneret.Netx Spinneret.LuaText

set_option autoImplicit false

/-! ## Comments -/

def space : Byte := 0x20

/-- `strings.Index`. -/
def index (sub : Bytes) : Bytes → Option Nat
  | [] => if sub = [] then some 0 else none
  | c :: rest => if sub <+: c :: rest then some 0 else (index sub rest).map fun i => i + 1

def longBracket : Bytes → Option Nat
  | [] => none
  | c :: rest =>
    let lvl := (rest.takeWhile fun d => d == equalSign).length
    if c = leftBracket ∧ (rest.drop lvl).head? = some leftBracket then some lvl else none

/-- The size of what is left of a long bracket, its end included. -/
def longBracketEnd (lvl : Nat) (text : Bytes) : Nat :=
  match index (closing lvl) text with
  | some idx => idx + (closing lvl).length
  | none => text.length

/-- The size of what is left of a quoted literal. -/
def shortStringEnd (quote : Byte) : Bytes → Nat
  | [] => 0
  | c :: rest =>
    if c = backslash then
      match rest with
      | [] => 1
      | _ :: rest => shortStringEnd quote rest + 2
    else if c = quote then 1
    else if c = lineFeed then 0
    else shortStringEnd quote rest + 1

def blank (text : Bytes) : Bytes := text.map fun c => if c = lineFeed then c else space

/-- The size of the comment, the literal or the byte of code that a text starts with, and
whether it is a comment. -/
def leading (text : Bytes) : Nat × Bool :=
  if [dash, dash] <+: text then
    match longBracket (text.drop 2) with
    | some lvl => (lvl + 4 + longBracketEnd lvl (text.drop (lvl + 4)), true)
    | none => ((text.takeWhile fun c => c != lineFeed).length, true)
  else if text.head? = some singleQuote ∨ text.head? = some doubleQuote then
    (shortStringEnd (text.headD 0) text.tail + 1, false)
  else
    match longBracket text with
    | some lvl => (lvl + 2 + longBracketEnd lvl (text.drop (lvl + 2)), false)
    | none => (1, false)

/-- The loop of `stripLuaComments`; every round takes at least one byte. -/
def stripFrom : Nat → Bytes → Bytes
  | _, [] => []
  | 0, text => text
  | fuel + 1, text =>
    let (size, comment) := leading text
    let taken := text.take size
    (if comment then blank taken else taken) ++ stripFrom fuel (text.drop size)

def stripLuaComments (src : Bytes) : Bytes := stripFrom src.length src

/-! ## Names -/

def isWord (c : Byte) : Bool :=
  decide (48 ≤ c.val ∧ c.val ≤ 57) || decide (65 ≤ c.val ∧ c.val ≤ 90) ||
    decide (97 ≤ c.val ∧ c.val ≤ 122) || decide (c.val = 95)

def inName (c : Byte) : Bool :=
  decide (48 ≤ c.val ∧ c.val ≤ 57) || decide (97 ≤ c.val ∧ c.val ≤ 122) || decide (c.val = 95)

def sp : Bytes := asciiBytes "sp_"

/-- The match of `sp_[a-z0-9_]+` at the start of a text. -/
def nameAt (text : Bytes) : Option Bytes :=
  let run := (text.drop sp.length).takeWhile inName
  if sp <+: text ∧ run ≠ [] then some (sp ++ run) else none

/-- All matches of `\bsp_[a-z0-9_]+`, after a byte that is in a word or not. No match starts
within another one, whose bytes are all in words. -/
def findNames : Bool → Bytes → List Bytes
  | _, [] => []
  | inWord, c :: rest =>
    (if inWord then [] else (nameAt (c :: rest)).toList) ++ findNames (isWord c) rest

/-! ## The library -/

def bytesLe : Bytes → Bytes → Bool
  | [], _ => true
  | _ :: _, [] => false
  | c :: rest, d :: rest' => decide (c.val < d.val) || (decide (c = d) && bytesLe rest rest')

def declaredDeps (self src : Bytes) : List Bytes :=
  (((findNames false (stripLuaComments src)).filter fun name => name != self).eraseDups).mergeSort
    bytesLe

structure Section where
  name : Bytes
  src : Bytes
  deps : List Bytes
  declared : deps = declaredDeps name src

inductive Panic where
  | unnamedMarker
  | noSection
  | undeclared (name : Bytes)

def marker : Bytes := asciiBytes "--@sp "

def markerName (line : Bytes) : Except Panic (Option Bytes) :=
  let t := trimSpace line
  if marker <+: t then
    let name := trimSpace (t.drop marker.length)
    if name = [] then .error .unnamedMarker else .ok (some name)
  else .ok none

/-- What `parsePrelude` has read: the header, the finished sections, and the name and the body
of the one it is in. -/
structure Parsing where
  header : Bytes
  sections : List Section
  current : Option (Bytes × Bytes)

def Parsing.flush (parsing : Parsing) : List Section :=
  match parsing.current with
  | none => parsing.sections
  | some (name, body) => parsing.sections ++ [⟨name, body, declaredDeps name body, rfl⟩]

def readLine (parsing : Parsing) (line : Bytes) : Except Panic Parsing :=
  match markerName line with
  | .error panic => .error panic
  | .ok (some name) => .ok { parsing with sections := parsing.flush, current := some (name, []) }
  | .ok none =>
    match parsing.current with
    | none => .ok { parsing with header := parsing.header ++ line ++ [lineFeed] }
    | some (name, body) => .ok { parsing with current := some (name, body ++ line ++ [lineFeed]) }

structure Library where
  header : Bytes
  sections : List Section

def Section.declares (section_ : Section) : Bool :=
  (index (asciiBytes "local function " ++ section_.name ++ asciiBytes "(") section_.src).isSome

def parsePrelude (src : Bytes) : Except Panic Library :=
  match (src.splitOn lineFeed).foldlM readLine ⟨[], [], none⟩ with
  | .error panic => .error panic
  | .ok parsing =>
    if parsing.flush.isEmpty then .error .noSection
    else
      match parsing.flush.find? fun section_ => !section_.declares with
      | some section_ => .error (.undeclared section_.name)
      | none => .ok ⟨parsing.header, parsing.flush⟩

/-- `preludeByName`: a later section takes the place of an earlier one. -/
def Library.byName (library : Library) (name : Bytes) : Option Nat :=
  (library.sections.zipIdx.reverse.find? fun entry => entry.1.name == name).map Prod.snd

/-- `mark` of `preludeFor`; a round within a round is for another section. -/
def Library.mark (library : Library) : Nat → (Nat → Bool) → Bytes → Nat → Bool
  | 0, need, _ => need
  | fuel + 1, need, name =>
    match library.byName name with
    | none => need
    | some idx =>
      if need idx then need
      else
        match library.sections[idx]? with
        | none => need
        | some section_ =>
          section_.deps.foldl (library.mark fuel) fun other => other == idx || need other

def Library.need (library : Library) (body : Bytes) : Nat → Bool :=
  (findNames false (stripLuaComments body)).foldl (library.mark (library.sections.length + 1))
    fun _ => false

def Library.preludeFor (library : Library) (body : Bytes) : Bytes :=
  library.header ++
    (library.sections.zipIdx.filter fun entry => library.need body entry.2).flatMap fun entry =>
      entry.1.src

/-! ## Lexemes -/

theorem index_first {sub body rest : Bytes}
    (first : ∀ i < body.length, ¬ sub <+: (body ++ (sub ++ rest)).drop i) (some_ : sub ≠ []) :
    index sub (body ++ (sub ++ rest)) = some body.length := by
  induction body with
  | nil =>
    have here : sub <+: sub ++ rest := List.prefix_append sub rest
    rw [List.nil_append]
    cases text : sub ++ rest with
    | nil => exact absurd (List.append_eq_nil_iff.mp text).1 some_
    | cons c later =>
      rw [text] at here
      exact if_pos here
  | cons c body ih =>
    have later := ih fun i before => by
      have next := first (i + 1) (Nat.succ_lt_succ before)
      rwa [List.cons_append, List.drop_succ_cons] at next
    have here : ¬ sub <+: c :: (body ++ (sub ++ rest)) := first 0 (Nat.succ_pos _)
    rw [List.cons_append, index, if_neg here, later]
    rfl

theorem long_bracket_opening (level : Nat) (rest : Bytes) :
    longBracket (opening level ++ rest) = some level := by
  have signs : ∀ d ∈ List.replicate level equalSign, (d == equalSign) = true := by
    intro d listed
    rw [List.eq_of_mem_replicate listed]
    rfl
  have taken : ((List.replicate level equalSign ++ (leftBracket :: rest)).takeWhile fun d =>
      d == equalSign) = List.replicate level equalSign := by
    rw [List.takeWhile_append_of_pos signs, List.takeWhile_cons_of_neg (by decide), List.append_nil]
  have dropped : (List.replicate level equalSign ++ (leftBracket :: rest)).drop level =
      leftBracket :: rest := by
    apply List.drop_left'
    exact List.length_replicate
  simp only [opening, List.cons_append, List.append_assoc, List.nil_append, longBracket, taken,
    List.length_replicate, dropped, List.head?_cons, and_self, if_true]

variable {text : Bytes} {lexemes : List Lexeme} {c : Byte}

theorem long_bracket_none (short : ¬ Opens text) : longBracket text = none := by
  cases text with
  | nil => rfl
  | cons c rest =>
    apply if_neg
    rintro ⟨rfl, next⟩
    apply short
    refine ⟨(rest.takeWhile fun d => d == equalSign).length, ?_⟩
    have signs : rest.takeWhile (fun d => d == equalSign) =
        List.replicate (rest.takeWhile fun d => d == equalSign).length equalSign := by
      apply List.eq_replicate_of_mem
      intro d listed
      exact eq_of_beq (List.all_eq_true.mp List.all_takeWhile d listed)
    obtain ⟨later, dropped⟩ := List.head?_eq_some_iff.mp next
    refine ⟨later, ?_⟩
    rw [opening, ← signs, List.cons_append, List.append_assoc, List.singleton_append, ← dropped]
    exact congrArg _ (List.prefix_iff_eq_append.mp (List.takeWhile_prefix _))

theorem long_bracket_end {level : Nat} {body : Bytes} (inside : Enclosed level body)
    (rest : Bytes) :
    longBracketEnd level (body ++ (closing level ++ rest)) = (body ++ closing level).length := by
  have found := index_first (fun i before => inside.first rest before) (List.cons_ne_nil _ _)
  simp only [longBracketEnd, found, List.length_append]

theorem short_string_end {quote : Byte} (isQuote : IsQuote quote) {body : Bytes}
    (inside : StringBody quote body) (rest : Bytes) :
    shortStringEnd quote (body ++ quote :: rest) = body.length + 1 := by
  have unescaped : quote ≠ backslash := by
    rcases isQuote with rfl | rfl <;> decide
  induction inside with
  | nil =>
    rw [List.nil_append, shortStringEnd.eq_def]
    simp only [if_neg unescaped, if_true, List.length_nil]
  | plain other plain sameLine _ ih =>
    rw [List.cons_append, shortStringEnd.eq_def]
    simp only [if_neg plain, if_neg other, if_neg fun newline => sameLine (.inl newline), ih,
      List.length_cons]
  | escape _ ih =>
    rw [List.cons_append, List.cons_append, shortStringEnd.eq_def]
    simp only [if_true, ih, List.length_cons]

theorem opening_length (level : Nat) : (opening level).length = level + 2 := by
  rw [opening, List.length_cons, List.length_append, List.length_replicate]
  rfl

theorem drop_opening (level : Nat) (rest : Bytes) :
    (opening level ++ rest).drop (level + 2) = rest := by
  rw [← opening_length level]
  exact List.drop_left

theorem line_comment_taken {body rest : Bytes} (sameLine : ∀ c ∈ body, ¬ IsNewline c)
    (ends : ∀ c, rest.head? = some c → IsNewline c) (feeds : carriageReturn ∉ rest) :
    (body ++ rest).takeWhile (fun c => c != lineFeed) = body := by
  have inside : ∀ c ∈ body, (c != lineFeed) = true := fun c listed =>
    bne_iff_ne.mpr fun newline => sameLine c listed (.inl newline)
  rw [List.takeWhile_append_of_pos inside]
  cases rest with
  | nil => exact List.append_nil body
  | cons c later =>
    rcases ends c rfl with rfl | rfl
    · rw [List.takeWhile_cons_of_neg (by decide), List.append_nil]
    · exact absurd List.mem_cons_self feeds

/-- The round of the loop at a lexeme takes it whole. -/
theorem leading_token {lexeme : Lexeme} {rest : Bytes} (token : Token lexeme rest)
    (feeds : carriageReturn ∉ rest) :
    leading (lexeme.text ++ rest) = (lexeme.text.length, lexeme.isComment) := by
  cases token with
  | @code c _ unquoted uncommented short =>
    have plain : ¬ (some c = some singleQuote ∨ some c = some doubleQuote) := by
      rintro (⟨⟨⟩⟩ | ⟨⟨⟩⟩)
      · exact unquoted (.inr rfl)
      · exact unquoted (.inl rfl)
    simp only [Lexeme.text, List.singleton_append, leading, if_neg uncommented, List.head?_cons,
      if_neg plain, long_bracket_none short, Lexeme.isComment, List.length_singleton]
  | @quoted quote body _ isQuote inside =>
    have uncommented : ¬ [dash, dash] <+: quote :: (body ++ quote :: rest) := by
      intro comment
      rcases isQuote with rfl | rfl <;> cases (List.cons_prefix_cons.mp comment).1
    have quoted : some quote = some singleQuote ∨ some quote = some doubleQuote := by
      rcases isQuote with rfl | rfl
      · exact .inr rfl
      · exact .inl rfl
    simp only [Lexeme.text, List.cons_append, List.append_assoc, List.nil_append, leading,
      if_neg uncommented, List.head?_cons, if_pos quoted, List.headD_cons, List.tail_cons,
      short_string_end isQuote inside, Lexeme.isComment, List.length_cons, List.length_append,
      List.length_nil]
  | @long level body _ inside =>
    have text : (Lexeme.string (opening level ++ (body ++ closing level))).text ++ rest =
        opening level ++ (body ++ (closing level ++ rest)) := by
      simp only [Lexeme.text, List.append_assoc]
    have starts : (opening level ++ (body ++ (closing level ++ rest))).head? =
        some leftBracket := rfl
    have uncommented : ¬ [dash, dash] <+: opening level ++ (body ++ (closing level ++ rest)) := by
      intro comment
      cases (List.cons_prefix_cons.mp comment).1
    rw [text, leading, if_neg uncommented, starts, if_neg (by decide), long_bracket_opening,
      Lexeme.text, List.length_append, opening_length]
    simp only [drop_opening, long_bracket_end inside, Lexeme.isComment]
  | @lineComment body _ sameLine short ends =>
    have taken : (dash :: dash :: (body ++ rest)).takeWhile (fun c => c != lineFeed) =
        dash :: dash :: body := by
      rw [List.takeWhile_cons_of_pos (by decide), List.takeWhile_cons_of_pos (by decide),
        line_comment_taken sameLine ends feeds]
    have comment : [dash, dash] <+: dash :: dash :: (body ++ rest) := ⟨_, rfl⟩
    simp only [Lexeme.text, List.cons_append, leading, if_pos comment, List.drop_succ_cons,
      List.drop_zero, long_bracket_none short, taken, Lexeme.isComment]
  | @longComment level body _ inside =>
    have text : (Lexeme.comment (dash :: dash :: (opening level ++ (body ++ closing level)))).text
        ++ rest = dash :: dash :: (opening level ++ (body ++ (closing level ++ rest))) := by
      simp only [Lexeme.text, List.append_assoc, List.cons_append]
    have comment : [dash, dash] <+:
        dash :: dash :: (opening level ++ (body ++ (closing level ++ rest))) := ⟨_, rfl⟩
    rw [text, leading, if_pos comment]
    simp only [List.drop_succ_cons, List.drop_zero, long_bracket_opening, drop_opening,
      long_bracket_end inside, Lexeme.isComment, Lexeme.text, List.length_cons,
      List.length_append, opening_length]
    congr 1
    omega

theorem Token.text_ne_nil {lexeme : Lexeme} {rest : Bytes} (token : Token lexeme rest) :
    lexeme.text ≠ [] := by
  cases token <;> exact List.cons_ne_nil _ _

theorem strip_lexed (lexed : Lexed lexemes text) (feeds : carriageReturn ∉ text) {fuel : Nat}
    (enough : text.length ≤ fuel) :
    stripFrom fuel text = lexemes.flatMap (Lexeme.blanked space) := by
  induction lexed generalizing fuel with
  | nil => cases fuel <;> rfl
  | @cons lexeme lexemes rest first _ ih =>
    have later : carriageReturn ∉ rest := fun listed => feeds (List.mem_append_right _ listed)
    have positive := List.length_pos_of_ne_nil (Token.text_ne_nil first)
    rw [List.length_append] at enough
    cases fuel with
    | zero => omega
    | succ fuel =>
      have read := leading_token first later
      have nonempty : lexeme.text ++ rest ≠ [] := fun empty =>
        Token.text_ne_nil first (List.append_eq_nil_iff.mp empty).1
      rw [stripFrom, read, List.flatMap_cons]
      · simp only [List.take_left, List.drop_left, ih later (show rest.length ≤ fuel by omega)]
        cases lexeme <;> rfl
      · exact nonempty

theorem strip_lua_comments_eq (lexed : Lexed lexemes text) (feeds : carriageReturn ∉ text) :
    stripLuaComments text = lexemes.flatMap (Lexeme.blanked space) :=
  strip_lexed lexed feeds le_rfl

/-! ## Names outside comments -/

/-- A name before a text: `sp_` with as many lower-case letters, digits and underscores as there
are, at least one. -/
structure IsName (name after : Bytes) : Prop where
  spelled : ∃ run, name = sp ++ run ∧ run ≠ [] ∧ ∀ c ∈ run, inName c = true
  maximal : ∀ c, after.head? = some c → inName c = false

/-- A name occurs in a text with no word right before it. -/
def Occurs (name : Bytes) (inWord : Bool) (text : Bytes) : Prop :=
  ∃ before after, text = before ++ (name ++ after) ∧ IsName name after ∧
    (before.getLast?.map isWord).getD inWord = false

theorem name_at_iff (text name : Bytes) :
    nameAt text = some name ↔ ∃ after, text = name ++ after ∧ IsName name after := by
  constructor
  · intro found
    simp only [nameAt] at found
    split at found
    · next both =>
      cases found
      obtain ⟨⟨later, rfl⟩, some_⟩ := both
      rw [List.drop_left] at some_ ⊢
      refine ⟨later.dropWhile inName, ?_, ⟨_, rfl, some_, ?_⟩, ?_⟩
      · rw [List.append_assoc, List.takeWhile_append_dropWhile]
      · exact List.all_eq_true.mp List.all_takeWhile
      · intro c first
        have stopped := List.head?_dropWhile_not inName later
        rw [first] at stopped
        exact stopped
    · cases found
  · rintro ⟨after, rfl, ⟨run, rfl, some_, inside⟩, stop⟩
    have taken : (run ++ after).takeWhile inName = run := by
      rw [List.takeWhile_append_of_pos inside]
      cases after with
      | nil => exact List.append_nil run
      | cons c later =>
        rw [List.takeWhile_cons_of_neg (Bool.eq_false_iff.mp (stop c rfl)), List.append_nil]
    rw [nameAt, List.append_assoc, List.drop_left, taken]
    exact if_pos ⟨List.prefix_append _ _, some_⟩

theorem last_word_cons (c : Byte) (before : Bytes) (inWord : Bool) :
    ((c :: before).getLast?.map isWord).getD inWord =
      (before.getLast?.map isWord).getD (isWord c) := by
  rw [List.getLast?_cons]
  cases before.getLast? <;> rfl

theorem mem_find_names_iff (name : Bytes) (inWord : Bool) (text : Bytes) :
    name ∈ findNames inWord text ↔ Occurs name inWord text := by
  induction text generalizing inWord with
  | nil =>
    constructor
    · intro listed
      cases listed
    · rintro ⟨before, after, text, ⟨⟨run, rfl, -⟩, -⟩, -⟩
      cases (List.append_eq_nil_iff.mp (List.append_eq_nil_iff.mp text.symm).2).1
  | cons c rest ih =>
    rw [findNames, List.mem_append, ih]
    constructor
    · rintro (here | ⟨before, after, rfl, own, start⟩)
      · cases inWord with
        | true => cases here
        | false =>
          obtain ⟨after, text, own⟩ := (name_at_iff _ _).mp (Option.mem_toList.mp here)
          exact ⟨[], after, text, own, rfl⟩
      · exact ⟨c :: before, after, rfl, own, by rw [last_word_cons]; exact start⟩
    · rintro ⟨before, after, text, own, start⟩
      cases before with
      | nil =>
        left
        cases start
        exact Option.mem_toList.mpr ((name_at_iff _ _).mpr ⟨after, text, own⟩)
      | cons d before =>
        right
        rw [last_word_cons] at start
        cases text
        exact ⟨before, after, rfl, own, start⟩

theorem prefix_break {front rest word : Bytes} (absent : c ∉ word)
    (starts : word <+: front ++ c :: rest) : word <+: front := by
  induction front generalizing word with
  | nil =>
    cases word with
    | nil => exact List.nil_prefix
    | cons d later =>
      rw [(List.cons_prefix_cons.mp starts).1] at absent
      exact absurd List.mem_cons_self absent
  | cons d front ih =>
    cases word with
    | nil => exact List.nil_prefix
    | cons e later =>
      obtain ⟨same, next⟩ := List.cons_prefix_cons.mp starts
      apply List.cons_prefix_cons.mpr
      exact ⟨same, ih (fun listed => absent (List.mem_cons_of_mem _ listed)) next⟩

theorem takeWhile_break {front rest : Bytes} {p : Byte → Bool} (stop : p c = false) :
    (front ++ c :: rest).takeWhile p = front.takeWhile p := by
  induction front with
  | nil => exact List.takeWhile_cons_of_neg (Bool.eq_false_iff.mp stop)
  | cons d front ih => rw [List.cons_append, List.takeWhile_cons, List.takeWhile_cons, ih]

theorem in_name_of_not_word (apart : isWord c = false) : inName c = false := by
  simp only [isWord, Bool.or_eq_false_iff] at apart
  simp only [inName, apart, Bool.or_self]

theorem name_at_break {front rest : Bytes} (apart : isWord c = false) :
    nameAt (front ++ c :: rest) = nameAt front := by
  have words : ∀ d ∈ sp, isWord d = true := List.all_eq_true.mp (by decide)
  have absent : c ∉ sp := fun listed => Bool.eq_false_iff.mp apart (words c listed)
  by_cases starts : sp <+: front
  · obtain ⟨later, rfl⟩ := starts
    simp only [nameAt, List.append_assoc, List.drop_left,
      takeWhile_break (in_name_of_not_word apart), List.prefix_append, true_and]
  · have elsewhere : ¬ sp <+: front ++ c :: rest := fun found => starts (prefix_break absent found)
    simp only [nameAt, starts, elsewhere, false_and, if_false]

/-- A byte that is in no word keeps the names before it from those after it. -/
theorem find_names_break (inWord : Bool) (front : Bytes) {rest : Bytes} (apart : isWord c = false) :
    findNames inWord (front ++ c :: rest) = findNames inWord front ++ findNames false rest := by
  induction front generalizing inWord with
  | nil =>
    have here : nameAt (c :: rest) = none := @name_at_break c [] rest apart
    simp only [List.nil_append, findNames, here, apart, Option.toList_none, ite_self]
  | cons d front ih =>
    have here : nameAt (d :: (front ++ c :: rest)) = nameAt (d :: front) :=
      @name_at_break c (d :: front) rest apart
    rw [List.cons_append, findNames, findNames, ih, here, List.append_assoc]

theorem find_names_blanked (blanks : Bytes) (apart : ∀ c ∈ blanks, isWord c = false)
    (some_ : blanks ≠ []) (inWord : Bool) (front rest : Bytes) :
    findNames inWord (front ++ (blanks ++ rest)) =
      findNames inWord front ++ findNames false rest := by
  induction blanks generalizing inWord front with
  | nil => exact absurd rfl some_
  | cons c blanks ih =>
    rw [List.cons_append, find_names_break inWord front (apart c List.mem_cons_self)]
    cases blanks with
    | nil => rw [List.nil_append]
    | cons d blanks =>
      have later := ih (fun e listed => apart e (List.mem_cons_of_mem _ listed))
        (List.cons_ne_nil _ _) false []
      rw [List.nil_append] at later
      rw [later]
      rfl

theorem comment_blanked (text : Bytes) :
    ∀ c ∈ (Lexeme.comment text).blanked space, isWord c = false := by
  intro c listed
  obtain ⟨d, -, rfl⟩ := List.mem_map.mp listed
  split
  · next newline =>
    rw [newline]
    decide
  · decide

/-- The names found in a text with blanked comments are those between the comments. -/
theorem find_names_outside (lexed : Lexed lexemes text) (inWord : Bool) (front : Bytes) :
    ∃ first rest, lexemes.splitOnP Lexeme.isComment = first :: rest ∧
      findNames inWord (front ++ lexemes.flatMap (Lexeme.blanked space)) =
        findNames inWord (front ++ first.flatMap Lexeme.text) ++
          rest.flatMap fun run => findNames false (run.flatMap Lexeme.text) := by
  induction lexed generalizing inWord front with
  | nil => exact ⟨[], [], rfl, (List.append_nil _).symm⟩
  | @cons lexeme lexemes rest token _ ih =>
    cases kind : lexeme.isComment with
    | true =>
      obtain ⟨first, runs, split, names⟩ := ih false []
      have some_ : lexeme.blanked space ≠ [] := by
        have nonempty := Token.text_ne_nil token
        cases lexeme with
        | comment text => exact List.map_eq_nil_iff.not.mpr nonempty
        | code c => exact nonempty
        | string text => exact nonempty
      have apart : ∀ c ∈ lexeme.blanked space, isWord c = false := by
        cases lexeme with
        | comment text => exact comment_blanked text
        | code c => cases kind
        | string text => cases kind
      refine ⟨[], first :: runs, ?_, ?_⟩
      · rw [List.splitOnP_cons_eq_if_modifyHead, if_pos kind, split]
      · rw [List.nil_append] at names
        rw [List.flatMap_cons, find_names_blanked _ apart some_, names, List.flatMap_nil,
          List.append_nil, List.nil_append, List.flatMap_cons]
    | false =>
      obtain ⟨first, runs, split, names⟩ := ih inWord (front ++ lexeme.text)
      have kept : lexeme.blanked space = lexeme.text := by
        cases lexeme with
        | comment text => cases kind
        | code c => rfl
        | string text => rfl
      refine ⟨lexeme :: first, runs, ?_, ?_⟩
      · rw [List.splitOnP_cons_eq_if_modifyHead, if_neg (Bool.eq_false_iff.mp kind), split]
        rfl
      · rw [List.flatMap_cons, List.flatMap_cons, kept, ← List.append_assoc, names,
          List.append_assoc]

/-- A name stands outside the comments of a text. -/
def NamedIn (text name : Bytes) : Prop :=
  ∃ lexemes, Lexed lexemes text ∧ ∃ piece ∈ outside lexemes, Occurs name false piece

/-- Texts that are lexically valid, with line feeds as newlines. -/
def Valid (text : Bytes) : Prop := carriageReturn ∉ text ∧ ∃ lexemes, Lexed lexemes text

theorem mem_outside_iff (lexed : Lexed lexemes text) (feeds : carriageReturn ∉ text)
    (name : Bytes) :
    name ∈ findNames false (stripLuaComments text) ↔
      ∃ piece ∈ outside lexemes, Occurs name false piece := by
  obtain ⟨first, runs, split, names⟩ := find_names_outside lexed false []
  rw [List.nil_append, List.nil_append] at names
  rw [strip_lua_comments_eq lexed feeds, names, outside, split, List.mem_append, mem_find_names_iff,
    List.mem_flatMap]
  simp only [mem_find_names_iff, List.map_cons, List.mem_cons, exists_eq_or_imp, List.mem_map,
    exists_exists_and_eq_and]

theorem named_in_iff (valid : Valid text) (name : Bytes) :
    NamedIn text name ↔ name ∈ findNames false (stripLuaComments text) := by
  obtain ⟨feeds, lexemes, lexed⟩ := valid
  constructor
  · rintro ⟨others, lexed, found⟩
    exact (mem_outside_iff lexed feeds name).mpr found
  · intro found
    exact ⟨lexemes, lexed, (mem_outside_iff lexed feeds name).mp found⟩

/-! ## Needed sections -/

namespace Library

variable (library : Library)

/-- One helper names another one outside its comments. -/
def Calls (i j : Nat) : Prop :=
  ∃ caller callee, library.sections[i]? = some caller ∧ library.sections[j]? = some callee ∧
    callee.name ≠ caller.name ∧ NamedIn caller.src callee.name

/-- Helpers with distinct names and lexically valid texts, each of which names only earlier ones
outside its comments. -/
structure Layered : Prop where
  distinct : (library.sections.map Section.name).Nodup
  valid : ∀ helper ∈ library.sections, Valid helper.src
  earlier : ∀ i j, library.Calls i j → j < i

variable {library}

theorem by_name_iff (distinct : (library.sections.map Section.name).Nodup) (name : Bytes)
    (i : Nat) : library.byName name = some i ↔
      ∃ helper, library.sections[i]? = some helper ∧ helper.name = name := by
  have sound {j : Nat} (found : library.byName name = some j) :
      ∃ helper, library.sections[j]? = some helper ∧ helper.name = name := by
    obtain ⟨⟨helper, _⟩, search, rfl⟩ := Option.map_eq_some_iff.mp found
    have listed := List.mem_reverse.mp (List.mem_of_find?_eq_some search)
    have same := List.find?_some search
    exact ⟨helper, List.mem_zipIdx_iff_getElem?.mp listed, eq_of_beq same⟩
  constructor
  · exact sound
  · rintro ⟨helper, at_, rfl⟩
    cases found : library.byName helper.name with
    | none =>
      have missed := List.find?_eq_none.mp (Option.map_eq_none_iff.mp found) (helper, i)
        (List.mem_reverse.mpr (List.mem_zipIdx_iff_getElem?.mpr at_))
      exact absurd (beq_self_eq_true _) missed
    | some j =>
      obtain ⟨other, elsewhere, same⟩ := sound found
      have bound : i < (library.sections.map Section.name).length := by
        rw [List.length_map]
        exact (List.getElem?_eq_some_iff.mp at_).1
      apply congrArg some
      apply Eq.symm
      apply (List.getElem?_inj bound distinct).mp
      rw [List.getElem?_map, List.getElem?_map, at_, elsewhere, Option.map_some, Option.map_some,
        same]

theorem mem_declared_deps (dep self src : Bytes) :
    dep ∈ declaredDeps self src ↔
      dep ∈ findNames false (stripLuaComments src) ∧ dep ≠ self := by
  rw [declaredDeps, List.mem_mergeSort, List.mem_eraseDups, List.mem_filter, bne_iff_ne]

theorem calls_iff (layered : library.Layered) {i j : Nat} {helper : Section}
    (at_ : library.sections[i]? = some helper) :
    library.Calls i j ↔ ∃ dep ∈ helper.deps, library.byName dep = some j := by
  have valid := layered.valid helper (List.mem_of_getElem? at_)
  rw [helper.declared]
  constructor
  · rintro ⟨caller, callee, own, other, apart, named⟩
    cases Option.some.inj (own.symm.trans at_)
    refine ⟨callee.name, (mem_declared_deps _ _ _).mpr ⟨?_, apart⟩, ?_⟩
    · exact (named_in_iff valid _).mp named
    · exact (by_name_iff layered.distinct _ _).mpr ⟨callee, other, rfl⟩
  · rintro ⟨dep, listed, found⟩
    obtain ⟨named, apart⟩ := (mem_declared_deps _ _ _).mp listed
    obtain ⟨callee, other, rfl⟩ := (by_name_iff layered.distinct _ _).mp found
    exact ⟨helper, callee, at_, other, apart, (named_in_iff valid _).mpr named⟩

/-- The sections marked so far take along what they call, those from a bound on excepted. -/
def Closed (library : Library) (bound : Nat) (need : Nat → Bool) : Prop :=
  ∀ i < bound, need i = true → ∀ j, library.Calls i j → need j = true

/-- A section with all it calls, directly or not. -/
def Reaches (library : Library) : Nat → Nat → Prop := Relation.ReflTransGen library.Calls

theorem reaches_le (layered : library.Layered) {i k : Nat} (reaches : library.Reaches i k) :
    k ≤ i := by
  induction reaches with
  | refl => exact le_rfl
  | tail _ calls ih => exact (layered.earlier _ _ calls).le.trans ih

theorem Closed.reached (layered : library.Layered) {bound i k : Nat} {need : Nat → Bool}
    (closed : library.Closed bound need) (below : i < bound) (marked : need i = true)
    (reaches : library.Reaches i k) : need k = true := by
  induction reaches with
  | refl => exact marked
  | tail before calls ih =>
    exact closed _ ((reaches_le layered before).trans_lt below) ih _ calls

/-- Marking adds to the closed marks what a section reaches. -/
def Marks (library : Library) (mark : (Nat → Bool) → Bytes → Nat → Bool) (bound : Nat) : Prop :=
  ∀ need name, library.Closed bound need →
    (∀ i, library.byName name = some i → i < bound) →
    ∀ k, mark need name k = true ↔
      need k = true ∨ ∃ i, library.byName name = some i ∧ library.Reaches i k

theorem Marks.foldl {mark : (Nat → Bool) → Bytes → Nat → Bool} {bound : Nat}
    (marks : library.Marks mark bound) (names : List Bytes) {need : Nat → Bool}
    (closed : library.Closed bound need)
    (below : ∀ name ∈ names, ∀ i, library.byName name = some i → i < bound) (k : Nat) :
    names.foldl mark need k = true ↔
      need k = true ∨ ∃ name ∈ names, ∃ i, library.byName name = some i ∧ library.Reaches i k := by
  induction names generalizing need with
  | nil => simp only [List.foldl_nil, List.not_mem_nil, false_and, exists_false, or_false]
  | cons name names ih =>
    have step := marks need name closed (below name List.mem_cons_self)
    have closed' : library.Closed bound (mark need name) := by
      intro i inside marked j calls
      rw [step] at marked ⊢
      rcases marked with before | ⟨start, found, reaches⟩
      · exact .inl (closed i inside before j calls)
      · exact .inr ⟨start, found, reaches.tail calls⟩
    rw [List.foldl_cons, ih closed' fun other listed => below other (List.mem_cons_of_mem _ listed),
      step]
    simp only [List.mem_cons, exists_eq_or_imp, or_assoc]

theorem mark_marks (layered : library.Layered) {fuel bound : Nat} (enough : bound ≤ fuel) :
    library.Marks (library.mark fuel) bound := by
  induction fuel generalizing bound with
  | zero =>
    intro need name _ below k
    have unknown : ¬ ∃ i, library.byName name = some i ∧ library.Reaches i k := by
      rintro ⟨i, found, -⟩
      exact Nat.not_lt_zero i ((below i found).trans_le enough)
    simp only [mark, unknown, or_false]
  | succ fuel ih =>
    intro need name closed below k
    rw [mark]
    cases found : library.byName name with
    | none => simp only [reduceCtorEq, false_and, exists_false, or_false]
    | some idx =>
      obtain ⟨helper, at_, -⟩ := (by_name_iff layered.distinct name idx).mp found
      have inside := below idx found
      simp only [Option.some.injEq, exists_eq_left']
      by_cases marked : need idx = true
      · rw [if_pos marked]
        constructor
        · exact .inl
        · rintro (before | reaches)
          · exact before
          · exact closed.reached layered inside marked reaches
      · rw [if_neg marked, at_]
        have marks := ih (show idx ≤ fuel by omega)
        have closed' : library.Closed idx fun other => other == idx || need other := by
          intro i earlier before j calls
          rcases (Bool.or_eq_true _ _).mp before with own | before
          · exact absurd (eq_of_beq own) earlier.ne
          · exact (Bool.or_eq_true _ _).mpr
              (.inr (closed i (earlier.trans inside) before j calls))
        have calls (dep : Bytes) (listed : dep ∈ helper.deps) (i : Nat)
            (known : library.byName dep = some i) : i < idx :=
          layered.earlier _ _ ((calls_iff layered at_).mpr ⟨dep, listed, known⟩)
        have folded := marks.foldl helper.deps closed' calls k
        rw [folded, Bool.or_eq_true, beq_iff_eq]
        have head : library.Reaches idx k ↔ k = idx ∨
            ∃ dep ∈ helper.deps, ∃ i, library.byName dep = some i ∧ library.Reaches i k := by
          rw [Reaches, Relation.ReflTransGen.cases_head_iff, eq_comm]
          apply or_congr_right
          constructor
          · rintro ⟨i, direct, reaches⟩
            obtain ⟨dep, listed, known⟩ := (calls_iff layered at_).mp direct
            exact ⟨dep, listed, i, known, reaches⟩
          · rintro ⟨dep, listed, i, known, reaches⟩
            exact ⟨i, (calls_iff layered at_).mpr ⟨dep, listed, known⟩, reaches⟩
        rw [head, or_comm (a := k = idx), or_assoc]

/-- What is marked for a text: the helpers it names outside its comments, with all they call. -/
theorem need_iff (layered : library.Layered) {body : Bytes} (lexed : Lexed lexemes body)
    (feeds : carriageReturn ∉ body) (k : Nat) :
    library.need body k = true ↔
      ∃ i helper, library.sections[i]? = some helper ∧
        (∃ piece ∈ outside lexemes, Occurs helper.name false piece) ∧ library.Reaches i k := by
  have marks := mark_marks layered (show library.sections.length ≤ library.sections.length + 1 by
    omega)
  have closed : library.Closed library.sections.length fun _ => false :=
    fun _ _ marked => nomatch marked
  have below (name : Bytes) (_ : name ∈ findNames false (stripLuaComments body)) (i : Nat)
      (found : library.byName name = some i) : i < library.sections.length := by
    obtain ⟨helper, at_, -⟩ := (by_name_iff layered.distinct name i).mp found
    exact (List.getElem?_eq_some_iff.mp at_).1
  rw [need, marks.foldl _ closed below k]
  constructor
  · rintro (⟨⟨⟩⟩ | ⟨name, listed, i, found, reaches⟩)
    obtain ⟨helper, at_, rfl⟩ := (by_name_iff layered.distinct name i).mp found
    exact ⟨i, helper, at_, (mem_outside_iff lexed feeds _).mp listed, reaches⟩
  · rintro ⟨i, helper, at_, named, reaches⟩
    right
    exact ⟨helper.name, (mem_outside_iff lexed feeds _).mpr named, i,
      (by_name_iff layered.distinct _ _).mpr ⟨helper, at_, rfl⟩, reaches⟩

/-! ## The file of the library -/

/-- A marker line with the lines up to the next one. -/
structure Block where
  line : Bytes
  name : Bytes
  lines : List Bytes

def terminated (lines : List Bytes) : Bytes := lines.flatMap fun line => line ++ [lineFeed]

def Block.helper (block : Block) : Section := ⟨block.name, terminated block.lines, _, rfl⟩

/-- The lines of a file are the leading ones and those of the blocks, cut at every marker. -/
structure Blocks (lines lead : List Bytes) (blocks : List Block) : Prop where
  lines : lines = lead ++ blocks.flatMap fun block => block.line :: block.lines
  leading : ∀ line ∈ lead, markerName line = .ok none
  marked : ∀ block ∈ blocks, markerName block.line = .ok (some block.name) ∧
    ∀ line ∈ block.lines, markerName line = .ok none

/-- What the parser holds after the blocks. -/
def parsed (lead : List Bytes) (blocks : List Block) : Parsing where
  header := terminated lead
  sections := blocks.dropLast.map Block.helper
  current := blocks.getLast?.map fun block => (block.name, terminated block.lines)

theorem parsed_flush (lead : List Bytes) (blocks : List Block) :
    (parsed lead blocks).flush = blocks.map Block.helper := by
  rcases List.eq_nil_or_concat' blocks with rfl | ⟨front, last, rfl⟩
  · rfl
  · simp [parsed, Parsing.flush, Block.helper]

theorem terminated_snoc (lines : List Bytes) (line : Bytes) :
    terminated (lines ++ [line]) = terminated lines ++ line ++ [lineFeed] := by
  simp [terminated]

theorem read_line_blocks {lines lead : List Bytes} {blocks : List Block} {line : Bytes}
    {next : Parsing} (cut : Blocks lines lead blocks)
    (read : readLine (parsed lead blocks) line = .ok next) :
    ∃ lead blocks, Blocks (lines ++ [line]) lead blocks ∧ next = parsed lead blocks := by
  obtain ⟨rfl, leading, marked⟩ := cut
  unfold readLine at read
  split at read
  · cases read
  · next name named =>
    cases read
    refine ⟨lead, blocks ++ [⟨line, name, []⟩], ⟨by simp, leading, ?_⟩, ?_⟩
    · exact List.forall_mem_append.mpr
        ⟨marked, List.forall_mem_singleton.mpr ⟨named, fun _ none => absurd none List.not_mem_nil⟩⟩
    · rw [parsed_flush]
      simp [parsed, terminated]
  · next plain =>
    rcases List.eq_nil_or_concat' blocks with rfl | ⟨front, last, rfl⟩
    · cases read
      refine ⟨lead ++ [line], [], ⟨by simp, ?_, marked⟩, ?_⟩
      · exact List.forall_mem_append.mpr ⟨leading, List.forall_mem_singleton.mpr plain⟩
      · simp [parsed, terminated_snoc]
    · simp only [parsed, List.getLast?_concat, Option.map_some, Except.ok.injEq] at read
      subst read
      refine ⟨lead, front ++ [{ last with lines := last.lines ++ [line] }],
        ⟨by simp, leading, ?_⟩, by simp [parsed, terminated_snoc]⟩
      intro block member
      rcases List.mem_append.mp member with old | new
      · exact marked block (List.mem_append_left _ old)
      · obtain ⟨named, inside⟩ := marked last (List.mem_append_right _ List.mem_cons_self)
        rw [List.mem_singleton.mp new]
        refine ⟨named, fun other among => ?_⟩
        rcases List.mem_append.mp among with old | here
        · exact inside other old
        · rw [List.mem_singleton.mp here]
          exact plain

theorem read_lines_blocks {lines : List Bytes} {parsing : Parsing}
    (read : lines.foldlM readLine ⟨[], [], none⟩ = .ok parsing) :
    ∃ lead blocks, Blocks lines lead blocks ∧ parsing = parsed lead blocks := by
  induction lines using List.reverseRecOn generalizing parsing with
  | nil =>
    cases read
    exact ⟨[], [], ⟨rfl, nofun, nofun⟩, rfl⟩
  | append_singleton lines line ih =>
    rw [List.foldlM_append] at read
    cases before : lines.foldlM readLine ⟨[], [], none⟩ with
    | error panic =>
      rw [before] at read
      cases read
    | ok middle =>
      obtain ⟨lead, blocks, cut, rfl⟩ := ih before
      rw [before] at read
      have last : [line].foldlM readLine (parsed lead blocks) = .ok parsing := read
      simp only [List.foldlM_cons, List.foldlM_nil, bind_pure] at last
      exact read_line_blocks cut last

/-- The sections of a library are the blocks of its file, in file order. -/
def InFile (library : Library) (src : Bytes) : Prop :=
  ∃ lead blocks, Blocks (src.splitOn lineFeed) lead blocks ∧
    library.header = terminated lead ∧ library.sections = blocks.map Block.helper

/-- A library that the parser accepts is in its file and declares its helpers. -/
theorem accepted_in_file {src : Bytes} (accepted : parsePrelude src = .ok library) :
    library.InFile src ∧ ∀ helper ∈ library.sections, helper.declares = true := by
  unfold parsePrelude at accepted
  split at accepted
  · cases accepted
  · next parsing read =>
    obtain ⟨lead, blocks, cut, rfl⟩ := read_lines_blocks read
    split at accepted
    · cases accepted
    · split at accepted
      · cases accepted
      · next missing =>
        cases accepted
        refine ⟨⟨lead, blocks, cut, rfl, parsed_flush lead blocks⟩, fun helper listed => ?_⟩
        have checked := List.find?_eq_none.mp missing helper listed
        rwa [Bool.not_eq_true, Bool.not_eq_false'] at checked

theorem emitted_ordered (library : Library) (body : Bytes) :
    (library.sections.zipIdx.filter fun entry => library.need body entry.2).Pairwise
      fun entry other => entry.2 < other.2 := by
  have numbered : (library.sections.zipIdx.map Prod.snd).Pairwise (· < ·) := by
    rw [List.zipIdx_map_snd]
    exact List.pairwise_lt_range'
  exact (List.pairwise_map.mp numbered).filter _

/-- Preludes are complete and minimal. Stripping a lexically valid script blanks its comments
and nothing else. The prelude is the header and a part of the helpers, in the order of the
file: those that the script names outside its comments, with all they call, so that a helper
comes after those it calls. -/
theorem prelude_exact {src : Bytes} (accepted : parsePrelude src = .ok library)
    (layered : library.Layered) {body : Bytes} {lexemes : List Lexeme}
    (lexed : Lexed lexemes body) (feeds : carriageReturn ∉ body) :
    stripLuaComments body = lexemes.flatMap (Lexeme.blanked space) ∧ library.InFile src ∧
      ∃ emitted : List (Section × Nat), emitted.Sublist library.sections.zipIdx ∧
        library.preludeFor body = library.header ++ emitted.flatMap (fun entry => entry.1.src) ∧
        (∀ entry ∈ emitted, entry.1.declares = true) ∧
        (∀ helper k, library.sections[k]? = some helper →
          ((helper, k) ∈ emitted ↔ ∃ i named, library.sections[i]? = some named ∧
            (∃ piece ∈ outside lexemes, Occurs named.name false piece) ∧ library.Reaches i k)) ∧
        ∀ front entry rest, emitted = front ++ entry :: rest → ∀ j, library.Calls entry.2 j →
          j ∈ front.map Prod.snd := by
  obtain ⟨inFile, declared⟩ := accepted_in_file accepted
  refine ⟨strip_lua_comments_eq lexed feeds, inFile,
    library.sections.zipIdx.filter fun entry => library.need body entry.2, List.filter_sublist, rfl,
    ?_, ?_, ?_⟩
  · intro entry listed
    have at_ := List.mem_zipIdx_iff_getElem?.mp (List.mem_filter.mp listed).1
    exact declared _ (List.mem_of_getElem? at_)
  · intro helper k at_
    rw [List.mem_filter, List.mem_zipIdx_iff_getElem?, need_iff layered lexed feeds]
    exact and_iff_right at_
  · intro front entry rest split j calls
    have ordered := emitted_ordered library body
    have own : entry ∈ front ++ entry :: rest := List.mem_append_right _ List.mem_cons_self
    rw [← split, List.mem_filter] at own
    obtain ⟨i, named, at_, outside_, reaches⟩ := (need_iff layered lexed feeds _).mp own.2
    have before := layered.earlier _ _ calls
    have needed := (need_iff layered lexed feeds j).mpr
      ⟨i, named, at_, outside_, reaches.tail calls⟩
    obtain ⟨-, callee, -, other, -⟩ := calls
    have listed : (callee, j) ∈ front ++ entry :: rest := by
      rw [← split, List.mem_filter]
      exact ⟨List.mem_zipIdx_iff_getElem?.mpr other, needed⟩
    rw [split] at ordered
    rcases List.mem_append.mp listed with earlier | later
    · exact List.mem_map_of_mem earlier
    · rcases List.mem_cons.mp later with same | later
      · rw [← same] at before
        exact absurd before (lt_irrefl _)
      · have after := (List.pairwise_cons.mp (List.pairwise_append.mp ordered).2.1).1 _ later
        exact absurd before (lt_asymm after)

theorem earlier_of_found (valid : ∀ helper ∈ library.sections, Valid helper.src)
    (found : ∀ caller ∈ library.sections.zipIdx, ∀ callee ∈ library.sections.zipIdx,
      callee.1.name ∈ findNames false (stripLuaComments caller.1.src) →
      callee.1.name = caller.1.name ∨ callee.2 < caller.2) :
    ∀ i j, library.Calls i j → j < i := by
  rintro i j ⟨caller, callee, own, other, apart, named⟩
  have listed := (named_in_iff (valid caller (List.mem_of_getElem? own)) _).mp named
  have ordered := found (caller, i) (List.mem_zipIdx_iff_getElem?.mpr own) (callee, j)
    (List.mem_zipIdx_iff_getElem?.mpr other) listed
  exact ordered.resolve_left apart

def fileOf (lines : List String) : Bytes := [lineFeed].intercalate (lines.map asciiBytes)

def helperOf (name : String) (lines : List String) : Section :=
  ⟨asciiBytes name, terminated (lines.map asciiBytes), _, rfl⟩

/-- A helper that calls an earlier one and mentions a later one in a comment. -/
def chain : Library where
  header := terminated [asciiBytes "-- common"]
  sections := [helperOf "sp_a" ["local function sp_a()end"],
    helperOf "sp_b" ["-- sp_c", "local function sp_b()return sp_a()end"],
    helperOf "sp_c" ["local function sp_c()end"]]

/-- A line comment that mentions the third helper, and a text without comments. -/
theorem mention_lexed (plain : text.all isPlain = true) :
    ∃ lexemes, Lexed lexemes (asciiBytes "-- sp_c" ++ lineFeed :: text) := by
  have spelled : asciiBytes "-- sp_c" = dash :: dash :: asciiBytes " sp_c" := by decide
  rw [spelled]
  refine ⟨_, Lexed.comment_line (by decide) (by decide) (by decide) (.inl rfl) (.plain ?_)⟩
  rw [List.all_cons, plain]
  decide

theorem chain_layered : chain.Layered := by
  have valid : ∀ helper ∈ chain.sections, Valid helper.src := by
    simp only [chain, List.forall_mem_cons]
    refine ⟨⟨by decide, _, .plain (by decide)⟩, ⟨by decide, ?_⟩,
      ⟨by decide, _, .plain (by decide)⟩, fun _ none => absurd none List.not_mem_nil⟩
    exact @mention_lexed (terminated [asciiBytes "local function sp_b()return sp_a()end"])
      (by decide)
  exact ⟨by decide, valid, earlier_of_found valid (by decide +kernel)⟩

theorem prelude_exact_chain :
    let src := fileOf ["-- common", "--@sp sp_a", "local function sp_a()end", "--@sp sp_b",
      "-- sp_c", "local function sp_b()return sp_a()end", "--@sp sp_c", "local function sp_c()end"]
    let body := fileOf ["-- sp_c", "return sp_b()"]
    chain.InFile src ∧
      (∃ emitted : List (Section × Nat), emitted.Sublist chain.sections.zipIdx ∧
        chain.preludeFor body = chain.header ++ emitted.flatMap fun entry => entry.1.src) ∧
      chain.preludeFor body = terminated (["-- common", "local function sp_a()end", "-- sp_c",
        "local function sp_b()return sp_a()end"].map asciiBytes) := by
  intro src body
  have accepted : parsePrelude src = .ok chain := rfl
  obtain ⟨lexemes, lexed⟩ := @mention_lexed (asciiBytes "return sp_b()") (by decide)
  obtain ⟨-, inFile, emitted, listed, text, -⟩ :=
    prelude_exact accepted chain_layered lexed (by decide)
  exact ⟨inFile, ⟨emitted, listed, text⟩, by decide +kernel⟩

/-- The second helper calls the first after a comment that a carriage return ends. -/
def returned : Library where
  header := []
  sections := [helperOf "sp_a" ["local function sp_a()end"],
    ⟨asciiBytes "sp_b", asciiBytes "local function sp_b()end" ++ (asciiBytes "-- x" ++
      carriageReturn :: asciiBytes "sp_a()" ++ [lineFeed]), _, rfl⟩]

/-- The comment is taken to go on to the line feed, so that the prelude misses a helper. -/
theorem carriage_return_hides_call :
    parsePrelude (fileOf ["--@sp sp_a", "local function sp_a()end", "--@sp sp_b"] ++ lineFeed ::
        (asciiBytes "local function sp_b()end-- x" ++ carriageReturn :: asciiBytes "sp_a()")) =
          .ok returned ∧
      (returned.sections.map Section.name).Nodup ∧ (∀ i j, returned.Calls i j → j < i) ∧
      Valid (asciiBytes "sp_b()") ∧ NamedIn (asciiBytes "sp_b()") (asciiBytes "sp_b") ∧
      returned.Calls 1 0 ∧ returned.need (asciiBytes "sp_b()") 0 = false := by
  have script : Valid (asciiBytes "sp_b()") := ⟨by decide, _, .plain (by decide)⟩
  have first : Valid (terminated [asciiBytes "local function sp_a()end"]) :=
    ⟨by decide, _, .plain (by decide)⟩
  have called : NamedIn (asciiBytes "local function sp_b()end" ++ (asciiBytes "-- x" ++
      carriageReturn :: asciiBytes "sp_a()" ++ [lineFeed])) (asciiBytes "sp_a") := by
    have later : Lexed _ (carriageReturn :: (asciiBytes "sp_a()" ++ [lineFeed])) :=
      .plain (by decide)
    have comment := @Lexed.comment_line (asciiBytes " x") _ _ _ (by decide) (by decide) (by decide)
      (.inr rfl) later
    refine ⟨_, Lexed.plain_append (by decide) comment,
      carriageReturn :: (asciiBytes "sp_a()" ++ [lineFeed]), by decide +kernel, ?_⟩
    exact (mem_find_names_iff _ _ _).mp (by decide +kernel)
  refine ⟨rfl, by decide, ?_, script, (named_in_iff script _).mpr (by decide +kernel),
    ⟨_, _, rfl, rfl, by decide, called⟩, by decide +kernel⟩
  rintro i j ⟨caller, callee, own, other, apart, named⟩
  have inside : i < 2 := (List.getElem?_eq_some_iff.mp own).1
  have within : j < 2 := (List.getElem?_eq_some_iff.mp other).1
  obtain rfl | rfl : i = 0 ∨ i = 1 := by omega
  · cases own
    obtain rfl | rfl : j = 0 ∨ j = 1 := by omega
    · cases other
      exact absurd rfl apart
    · cases other
      exact absurd ((named_in_iff first _).mp named) (by decide +kernel)
  · obtain rfl | rfl : j = 0 ∨ j = 1 := by omega
    · exact Nat.one_pos
    · cases own
      cases other
      exact absurd rfl apart

end Library

end Spinneret.Store
