import Spinneret.Lib.Wildcard
import Spinneret.Site.Path

/-!
# Globs of token scopes

`Match` walks the pattern and the name byte by byte with one place to go back to, the last
star seen. A string is the sequence of its runes, where a byte that is not part of a valid
rune stands for itself; `characters` lists their bytes.
-/

namespace Spinneret.Glob

open Spinneret.Site Spinneret.Lib.Wildcard

set_option autoImplicit false

def star : Byte := 0x2A

def questionMark : Byte := 0x3F

def runeSize (bytes : Bytes) : Nat := (decodeRune bytes).2

/-- A decoded rune takes at least one of the bytes that are there. -/
def Sized (length : Nat) (decoded : Nat × Nat) : Prop := 0 < decoded.2 ∧ decoded.2 ≤ length

theorem Sized.ite {length : Nat} {c : Prop} [Decidable c] {yes no : Nat × Nat}
    (first : Sized length yes) (second : Sized length no) :
    Sized length (if c then yes else no) := by
  split
  · exact first
  · exact second

variable {bytes : Bytes} {pattern s rest after : Bytes}

theorem decode_rune_sized (full : bytes ≠ []) : Sized bytes.length (decodeRune bytes) := by
  have sized {length size : Nat} (some_ : 0 < size) (within : size ≤ length) (rune : Nat) :
      Sized length (rune, size) := ⟨some_, within⟩
  cases bytes with
  | nil => exact absurd rfl full
  | cons first rest =>
    have one := @sized (rest.length + 1) 1 (by decide) (by omega)
    rcases rest with _ | ⟨b1, rest⟩
    · exact .ite (one _) (.ite (one _) (one _))
    have two := @sized (rest.length + 2) 2 (by decide) (by omega)
    rcases rest with _ | ⟨b2, rest⟩
    · exact .ite (one _) (.ite (one _) (.ite (one _) (.ite (two _) (one _))))
    have three := @sized (rest.length + 3) 3 (by decide) (by omega)
    rcases rest with _ | ⟨b3, rest⟩
    · exact .ite (one _) (.ite (one _) (.ite (one _) (.ite (two _)
        (.ite (one _) (.ite (three _) (one _))))))
    · have four := @sized (rest.length + 4) 4 (by decide) (by omega)
      exact .ite (one _) (.ite (one _) (.ite (one _) (.ite (two _)
        (.ite (one _) (.ite (three _) (.ite (one _) (four _)))))))

theorem rune_size_bounds (full : bytes ≠ []) :
    0 < runeSize bytes ∧ runeSize bytes ≤ bytes.length := decode_rune_sized full

theorem rune_size_ascii {first : Byte} (rest : Bytes) (ascii : first.val < 0x80) :
    runeSize (first :: rest) = 1 := by
  rw [runeSize, decodeRune, if_pos ascii]

theorem drop_rune_lt (full : bytes ≠ []) : (bytes.drop (runeSize bytes)).length < bytes.length := by
  have bounds := rune_size_bounds full
  rw [List.length_drop]
  omega

/-! ## Match -/

/-- What the switch on the next pattern byte does: it passes a star, it takes one rune of
each string, or it is stuck. -/
inductive Round where
  | star (rest : Bytes)
  | step (rest after : Bytes)
  | stuck

def round (pattern s : Bytes) : Round :=
  match pattern with
  | [] => .stuck
  | c :: rest =>
    if c = star then .star rest
    else if c = questionMark then .step rest (s.drop (runeSize s))
    else
      let pw := runeSize pattern
      let sw := runeSize s
      if pw = sw ∧ pattern.take pw = s.take sw then .step (pattern.drop pw) (s.drop sw)
      else .stuck

theorem round_star {pattern s rest : Bytes} (next : round pattern s = .star rest) :
    pattern = star :: rest := by
  unfold round at next
  split at next
  · cases next
  · next c tail =>
    dsimp only at next
    split_ifs at next with starred
    cases next
    rw [starred]

/-- A step takes one rune of each string, and one that the pattern allows. -/
theorem round_step (next : round pattern s = .step rest after) :
    pattern ≠ [] ∧ pattern.head? ≠ some star ∧ rest = pattern.drop (runeSize pattern) ∧
      after = s.drop (runeSize s) ∧
      (pattern.head? = some questionMark ∨
        pattern.take (runeSize pattern) = s.take (runeSize s)) := by
  unfold round at next
  split at next
  · cases next
  · next c tail =>
    dsimp only at next
    split_ifs at next with starred question same
    · cases next
      have ascii : runeSize (c :: rest) = 1 := rune_size_ascii rest (by rw [question]; decide)
      refine ⟨List.cons_ne_nil c rest, ?_, ?_, rfl, .inl ?_⟩
      · simpa using starred
      · rw [ascii, List.drop_one, List.tail_cons]
      · rw [List.head?_cons, question]
    · cases next
      exact ⟨List.cons_ne_nil c tail, by simpa using starred, rfl, rfl, .inr same.2⟩

/-- `starPI` and `starSI`: the pattern behind the last star, and the name from where its
text ends so far. The walk has come at least as far as that. -/
structure Star (s : Bytes) where
  pattern : Bytes
  held : Bytes
  within : s.length ≤ held.length

def Star.from {s after : Bytes} (star : Star s) (shorter : after.length ≤ s.length) :
    Star after :=
  ⟨star.pattern, star.held, shorter.trans star.within⟩

def Star.more {s : Bytes} (star : Star s) : Star (star.held.drop (runeSize star.held)) :=
  ⟨star.pattern, star.held.drop (runeSize star.held), le_rfl⟩

/-- How often the loop can still go back. -/
def retries {s : Bytes} : Option (Star s) → Nat
  | none => s.length + 1
  | some star => star.held.length

theorem step_shorter (next : round pattern s = .step rest after) : after.length ≤ s.length := by
  obtain ⟨-, -, -, rfl, -⟩ := round_step next
  simp

/-- The loop of `Match` on what is left of the pattern and of the name. -/
def matchFrom (pattern s : Bytes) (last : Option (Star s)) : Bool :=
  if s = [] then pattern.all fun c => c == star
  else
    match next : round pattern s with
    | .star rest => matchFrom rest s (some ⟨rest, s, le_rfl⟩)
    | .step rest after => matchFrom rest after (last.map fun star => star.from (step_shorter next))
    | .stuck =>
      match last with
      | none => false
      | some star =>
        matchFrom star.pattern (star.held.drop (runeSize star.held)) (some star.more)
termination_by (retries last, pattern.length + s.length)
decreasing_by
  · -- a new star: nothing is retried that the old one would not retry
    apply Prod.Lex.right'
    · cases last with
      | none => exact Nat.le_succ _
      | some star => exact star.within
    · rw [round_star next, List.length_cons]
      omega
  · apply Prod.Lex.right'
    · cases last with
      | none => exact Nat.succ_le_succ (step_shorter next)
      | some star => exact le_rfl
    · obtain ⟨full, -, rfl, rfl, -⟩ := round_step next
      exact Nat.add_lt_add (drop_rune_lt full) (drop_rune_lt ‹_›)
  · apply Prod.Lex.left
    apply drop_rune_lt
    apply List.ne_nil_of_length_pos
    exact (List.length_pos_iff.mpr ‹_›).trans_le star.within

def globMatch (pattern s : Bytes) : Bool := matchFrom pattern s none

/-! ## Characters -/

/-- The bytes of each rune. -/
def characters (bytes : Bytes) : List Bytes :=
  if bytes = [] then []
  else bytes.take (runeSize bytes) :: characters (bytes.drop (runeSize bytes))
termination_by bytes.length
decreasing_by exact drop_rune_lt ‹_›

theorem characters_nil : characters [] = [] := by
  rw [characters, if_pos rfl]

theorem characters_cut (full : bytes ≠ []) :
    characters bytes =
      bytes.take (runeSize bytes) :: characters (bytes.drop (runeSize bytes)) := by
  rw [characters, if_neg full]

theorem characters_flatten (bytes : Bytes) : (characters bytes).flatten = bytes := by
  induction bytes using characters.induct with
  | case1 => rw [characters_nil, List.flatten_nil]
  | case2 bytes full ih =>
    rw [characters_cut full, List.flatten_cons, ih, List.take_append_drop]

def item (character : Bytes) : Item Bytes :=
  if character = [star] then .many
  else if character = [questionMark] then .one
  else .literal character

def items (pattern : Bytes) : List (Item Bytes) := (characters pattern).map item

theorem items_cut {pattern : Bytes} (full : pattern ≠ []) :
    items pattern =
      item (pattern.take (runeSize pattern)) :: items (pattern.drop (runeSize pattern)) := by
  rw [items, characters_cut full, List.map_cons, items]

theorem items_star (rest : Bytes) : items (star :: rest) = .many :: items rest := by
  have ascii : runeSize (star :: rest) = 1 := rune_size_ascii rest (by decide)
  rw [items_cut (List.cons_ne_nil star rest), ascii]
  rfl

theorem take_rune_ascii (full : bytes ≠ []) {c : Byte} (ascii : c.val < 0x80) :
    bytes.take (runeSize bytes) = [c] ↔ bytes.head? = some c := by
  cases bytes with
  | nil => exact absurd rfl full
  | cons first rest =>
    have bounds := rune_size_bounds full
    constructor
    · intro taken
      have head := congrArg List.head? taken
      rwa [List.head?_take, if_neg (by omega)] at head
    · intro head
      rw [Option.some.inj head, rune_size_ascii rest ascii]
      rfl

theorem item_cut {pattern : Bytes} (full : pattern ≠ []) :
    item (pattern.take (runeSize pattern)) =
      if pattern.head? = some star then .many
      else if pattern.head? = some questionMark then .one
      else .literal (pattern.take (runeSize pattern)) := by
  have stars := take_rune_ascii full (show star.val < 0x80 by decide)
  have questions := take_rune_ascii full (show questionMark.val < 0x80 by decide)
  simp only [item, stars, questions]

/-- A step takes the characters of an item that stands for one character. -/
theorem step_item (next : round pattern s = .step rest after) :
    ∃ single : Item Bytes, single ≠ .many ∧ items pattern = single :: items rest ∧
      single.Takes [s.take (runeSize s)] := by
  obtain ⟨full, starless, rfl, -, takes⟩ := round_step next
  refine ⟨_, ?_, items_cut full, ?_⟩
  · rw [item_cut full, if_neg starless]
    split_ifs <;> exact nofun
  · rw [item_cut full, if_neg starless]
    split_ifs with question
    · exact ⟨_, rfl⟩
    · rw [takes.resolve_left question]
      rfl

theorem stuck_not_matches {pattern s : Bytes} (full : s ≠ []) (next : round pattern s = .stuck) :
    ¬ Matches (items pattern) (characters s) := by
  unfold round at next
  split at next
  · intro matched
    rw [items, characters_nil, List.map_nil, matches_nil, characters_cut full] at matched
    cases matched
  · next c rest =>
    dsimp only at next
    split_ifs at next with starred question apart
    have present := List.cons_ne_nil c rest
    have literal : item ((c :: rest).take (runeSize (c :: rest))) =
        .literal ((c :: rest).take (runeSize (c :: rest))) := by
      rw [item_cut present, List.head?_cons, if_neg (by simpa using starred),
        if_neg (by simpa using question)]
    intro matched
    rw [items_cut present, characters_cut full, literal] at matched
    have single : Item.literal ((c :: rest).take (runeSize (c :: rest))) ≠ .many := nofun
    obtain ⟨same, -⟩ := (matches_single single).mp matched
    have taken : s.take (runeSize s) = (c :: rest).take (runeSize (c :: rest)) :=
      List.singleton_inj.mp same
    have sizes := congrArg List.length taken
    rw [List.length_take, List.length_take, min_eq_left (rune_size_bounds full).2,
      min_eq_left (rune_size_bounds present).2] at sizes
    exact apart ⟨sizes.symm, taken.symm⟩

/-! ## The walk -/

/-- Between the last star and the place the walk has come to, each pattern character took
one character of the name. -/
def Aligned (pattern s : Bytes) (star : Star s) : Prop :=
  ∃ passed before, .many ∉ passed ∧ before.length = passed.length ∧
    items star.pattern = passed ++ items pattern ∧ characters star.held = before ++ characters s

/-- The star matches with more characters than it holds. -/
def Retry {s : Bytes} (star : Star s) : Prop :=
  Matches (.many :: items star.pattern) (characters star.held).tail

theorem Retry.exhausted {pattern : Bytes} {star : Star []} (aligned : Aligned pattern [] star)
    (retry : Retry star) : Matches (items pattern) [] := by
  obtain ⟨passed, before, single, length, shape, held⟩ := aligned
  obtain ⟨later, suffix, matched⟩ := matches_many.mp retry
  rw [held, characters_nil, List.append_nil] at suffix
  rw [shape] at matched
  obtain ⟨taken, rest, rfl, took, found⟩ := matched.passed single
  have bound := suffix.length_le
  rw [List.length_append, List.length_tail] at bound
  rw [List.eq_nil_of_length_eq_zero (show rest.length = 0 by omega)] at found
  exact found

/-- A new star makes up for the one before. -/
theorem Retry.covered {rest s : Bytes} {old : Star s} (aligned : Aligned (star :: rest) s old)
    (retry : Retry old) : Matches (.many :: items rest) (characters s) := by
  obtain ⟨passed, before, single, length, shape, held⟩ := aligned
  unfold Retry at retry
  rw [shape, items_star] at retry
  apply Matches.later_star single length _ retry
  rw [← held]
  exact List.tail_suffix _

theorem all_stars_iff (pattern : Bytes) :
    (pattern.all fun c => c == star) = true ↔ Matches (items pattern) [] := by
  induction pattern with
  | nil => simp [items, characters_nil, matches_nil]
  | cons c rest ih =>
    rw [List.all_cons, Bool.and_eq_true, beq_iff_eq, ih]
    by_cases starred : c = star
    · rw [starred, items_star, matches_many]
      simp
    · have present := List.cons_ne_nil c rest
      have single : item ((c :: rest).take (runeSize (c :: rest))) ≠ .many := by
        rw [item_cut present, if_neg (by simpa using starred)]
        split_ifs <;> exact nofun
      rw [items_cut present]
      exact ⟨fun both => absurd both.1 starred,
        fun matched => absurd matched (not_matches_single single)⟩

/-- The star matches with one character more, or with even more. -/
theorem retry_iff {s : Bytes} (star : Star s) (full : s ≠ []) :
    Retry star ↔ Matches (items star.pattern) (characters star.more.held) ∨ Retry star.more := by
  have held : star.held ≠ [] :=
    List.ne_nil_of_length_pos ((List.length_pos_iff.mpr full).trans_le star.within)
  have tail : (characters star.held).tail = characters star.more.held := by
    rw [characters_cut held, List.tail_cons, Star.more]
  rw [Retry, tail, matches_many_tail]
  rfl

/-- After a step the characters taken since the star are one more. -/
theorem Aligned.step (full : s ≠ []) (next : round pattern s = .step rest after) {star : Star s}
    (aligned : Aligned pattern s star) : Aligned rest after (star.from (step_shorter next)) := by
  obtain ⟨passed, before, single, length, shape, held⟩ := aligned
  obtain ⟨own, ownSingle, cut, -⟩ := step_item next
  obtain ⟨-, -, -, rfl, -⟩ := round_step next
  refine ⟨passed ++ [own], before ++ [s.take (runeSize s)], ?_, ?_, ?_, ?_⟩
  · rw [List.mem_append, List.mem_singleton]
    rintro (earlier | same)
    · exact single earlier
    · exact ownSingle same.symm
  · rw [List.length_append, List.length_append, length]
    rfl
  · rw [Star.from, shape, cut, List.append_assoc, List.singleton_append]
  · rw [Star.from, held, characters_cut full, List.append_assoc, List.singleton_append]

theorem match_from_iff (pattern s : Bytes) (last : Option (Star s))
    (aligned : ∀ star ∈ last, Aligned pattern s star) :
    matchFrom pattern s last = true ↔
      Matches (items pattern) (characters s) ∨ ∃ star ∈ last, Retry star := by
  fun_induction matchFrom pattern s last with
  | case1 pattern last =>
    rw [all_stars_iff, characters_nil]
    constructor
    · exact .inl
    · rintro (matched | ⟨star, member, retry⟩)
      · exact matched
      · exact retry.exhausted (aligned star member)
  | case2 pattern s last full rest next ih =>
    have fresh : ∀ star ∈ some (⟨rest, s, le_rfl⟩ : Star s), Aligned rest s star := by
      rintro _ ⟨⟩
      exact ⟨[], [], nofun, rfl, rfl, rfl⟩
    rw [round_star next] at aligned
    rw [ih fresh, round_star next, items_star]
    constructor
    · rintro (matched | ⟨_, ⟨⟩, retry⟩)
      · exact .inl (matches_many_tail.mpr (.inl matched))
      · exact .inl (matches_many_tail.mpr (.inr retry))
    · intro found
      have matched : Matches (.many :: items rest) (characters s) := by
        rcases found with matched | ⟨old, member, retry⟩
        · exact matched
        · exact retry.covered (aligned old member)
      rcases matches_many_tail.mp matched with here | more
      · exact .inl here
      · exact .inr ⟨_, rfl, more⟩
  | case3 pattern s last full rest after next ih =>
    obtain ⟨own, single, cut, takes⟩ := step_item next
    have taken : Matches (items pattern) (characters s) ↔
        Matches (items rest) (characters after) := by
      obtain ⟨-, -, -, rfl, -⟩ := round_step next
      rw [cut, characters_cut full, matches_single single]
      exact and_iff_right takes
    rw [taken]
    cases last with
    | none =>
      rw [Option.map_none] at ih ⊢
      rw [ih nofun]
      simp
    | some star =>
      have kept : ∀ again ∈ some (star.from (step_shorter next)), Aligned rest after again := by
        rintro _ ⟨⟩
        exact (aligned star rfl).step full next
      rw [Option.map_some] at ih ⊢
      rw [ih kept]
      simp [Retry, Star.from]
  | case4 pattern s full next =>
    simp [stuck_not_matches full next]
  | case5 pattern s full next star ih =>
    have fresh : ∀ again ∈ some star.more, Aligned star.pattern _ again := by
      rintro _ ⟨⟩
      exact ⟨[], [], nofun, rfl, rfl, rfl⟩
    have stuck := stuck_not_matches full next
    rw [ih fresh]
    simp [retry_iff star full, stuck, Star.more]

/-- `Match` reports exactly the names whose characters split as the pattern says: literals
match themselves, `?` one character and `*` any sequence of them. The characters of a string
are all of it. -/
theorem glob_match_iff (pattern name : Bytes) :
    (globMatch pattern name = true ↔ Matches (items pattern) (characters name)) ∧
      (characters pattern).flatten = pattern ∧ (characters name).flatten = name := by
  refine ⟨?_, characters_flatten pattern, characters_flatten name⟩
  rw [globMatch, match_from_iff pattern name none nofun]
  simp

end Spinneret.Glob
