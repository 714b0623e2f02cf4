import Spinneret.Auth.Allowlist
import Spinneret.Netx.Blanks

/-!
# Client addresses behind trusted proxies

`ClientIP` walks the X-Forwarded-For header from the right, line by line and hop by hop,
past the proxies it trusts. The lines together are one list of hops, and the walk never
looks to the left of the hop that stops it, so a client that can only write further left
cannot change the address found. Reading addresses belongs to a library.
-/

namespace Spinneret.Netx

open Spinneret.Auth Spinneret.Site

set_option autoImplicit false

/-! ## Addresses -/

/-- What `net/netip` reads: an address, and the address of an address with a port. -/
structure AddrReader where
  parseAddr : Bytes → Option Addr
  parseAddrPort : Bytes → Option Addr

def Addr.is4 : Addr → Bool
  | .v4 _ => true
  | .v6 _ _ => false

def comma : Byte := 0x2C

def quote : Byte := 0x22

def openBracket : Byte := 0x5B

def closeBracket : Byte := 0x5D

def maxHopLen : Nat := 128

variable (reader : AddrReader)

/-- `parseHostAddr`: an address, perhaps with a port, in brackets or in quotes. -/
def parseHostAddr (v : Bytes) : Option Addr :=
  let v := trimSpace v
  let v := if 2 ≤ v.length ∧ v.head? = some quote ∧ v.getLast? = some quote then
    v.tail.dropLast else v
  if v = [] ∨ maxHopLen < v.length then none
  else if v.head? = some openBracket then
    let inside := v.takeWhile fun byte => byte ≠ closeBracket
    if inside.length = v.length then none
    else
      let tail := v.drop (inside.length + 1)
      if tail ≠ [] ∧ reader.parseAddrPort v = none then none
      else
        match reader.parseAddr inside.tail with
        | none => none
        | some addr => if Addr.is4 addr then none else some (normalize addr)
  else
    match reader.parseAddr v with
    | some addr => some (normalize addr)
    | none =>
      match reader.parseAddrPort v with
      | none => none
      | some addr => if Addr.is4 addr then some (normalize addr) else none

/-! ## The walk -/

def cutLastComma : Bytes → Option (Bytes × Bytes)
  | [] => none
  | byte :: rest =>
    match cutLastComma rest with
    | some (before, after) => some (byte :: before, after)
    | none => if byte = comma then some ([], rest) else none

/-- A walk that has ended with its answer, or goes on with the last trusted hop. -/
inductive Walk where
  | stopped (answer : Option Addr)
  | onward (last : Option Addr)
  deriving DecidableEq

variable (trusted : List Network)

def visit (last : Option Addr) (hop : Bytes) : Walk :=
  match parseHostAddr reader hop with
  | none => .stopped last
  | some addr => if containsAny trusted addr then .onward (some addr) else .stopped (some addr)

/-- The inner loop of `fromForwardedFor`; every round but the last cuts a comma off. -/
def walkLine : Nat → Option Addr → Bytes → Walk
  | 0, last, _ => .onward last
  | fuel + 1, last, rest =>
    let (hop, before) := match cutLastComma rest with
      | some (before, after) => (trimSpace after, some before)
      | none => (trimSpace rest, none)
    let visited := if hop ≠ [] ∨ before.isSome then visit reader trusted last hop
      else .onward last
    match visited, before with
    | .onward last, some before => walkLine fuel last before
    | visited, _ => visited

def walkLines (last : Option Addr) : List Bytes → Walk
  | [] => .onward last
  | line :: above =>
    match walkLine reader trusted (line.length + 1) last line with
    | .stopped answer => .stopped answer
    | .onward last => walkLines last above

def Walk.answer : Walk → Option Addr
  | .stopped answer => answer
  | .onward last => last

def fromForwardedFor (lines : List Bytes) : Option Addr :=
  (walkLines reader trusted none lines.reverse).answer

structure Request where
  remoteAddr : Bytes
  forwardedFor : List Bytes
  realIP : List Bytes

/-- `ClientIP`; no address stands for the zero one. -/
def clientIP : Option Request → Option Addr
  | none => none
  | some r =>
    match parseHostAddr reader r.remoteAddr with
    | none => none
    | some peer =>
      if !containsAny trusted peer then some peer
      else
        match fromForwardedFor reader trusted r.forwardedFor with
        | some addr => some addr
        | none =>
          match r.realIP with
          | [value] => (parseHostAddr reader value).or (some peer)
          | _ => some peer

/-! ## Hops -/

/-- The hops of a line: its elements between commas, where an empty element before the
first comma, or an empty line, is no hop. -/
def hopsOf (line : Bytes) : List Bytes :=
  match (line.splitOn comma).map trimSpace with
  | [] :: later => later
  | hops => hops

def hops (lines : List Bytes) : List Bytes := lines.flatMap hopsOf

def walkHops (last : Option Addr) : List Bytes → Walk
  | [] => .onward last
  | hop :: left =>
    match visit reader trusted last hop with
    | .stopped answer => .stopped answer
    | .onward last => walkHops last left

variable {reader trusted}

theorem walk_hops_append (last : Option Addr) (near far : List Bytes) :
    walkHops reader trusted last (near ++ far) =
      match walkHops reader trusted last near with
      | .stopped answer => .stopped answer
      | .onward last => walkHops reader trusted last far := by
  induction near generalizing last with
  | nil => rfl
  | cons hop near ih =>
    simp only [List.cons_append, walkHops]
    cases visit reader trusted last hop with
    | stopped answer => rfl
    | onward last => exact ih last

theorem cut_last_comma_none {rest : Bytes} (uncut : cutLastComma rest = none) :
    comma ∉ rest := by
  induction rest with
  | nil => exact List.not_mem_nil
  | cons byte rest ih =>
    unfold cutLastComma at uncut
    split at uncut
    · cases uncut
    · next later =>
      split_ifs at uncut with here
      exact List.not_mem_cons_of_ne_of_not_mem (Ne.symm here) (ih later)

theorem cut_last_comma_some {rest before after : Bytes}
    (cut : cutLastComma rest = some (before, after)) :
    rest = before ++ comma :: after ∧ comma ∉ after := by
  induction rest generalizing before with
  | nil => cases cut
  | cons byte rest ih =>
    unfold cutLastComma at cut
    split at cut
    · next found =>
      obtain ⟨rfl, rfl⟩ := Prod.mk.inj (Option.some.inj cut)
      obtain ⟨same, plain⟩ := ih found
      exact ⟨by rw [List.cons_append, ← same], plain⟩
    · next later =>
      split_ifs at cut with here
      obtain ⟨rfl, rfl⟩ := Prod.mk.inj (Option.some.inj cut)
      exact ⟨by rw [here]; rfl, cut_last_comma_none later⟩

theorem hops_of_plain {line : Bytes} (plain : comma ∉ line) :
    hopsOf line = if trimSpace line = [] then [] else [trimSpace line] := by
  unfold hopsOf
  rw [List.splitOn_eq_singleton plain, List.map_singleton]
  cases trimSpace line <;> rfl

theorem hops_of_snoc (before : Bytes) {after : Bytes} (plain : comma ∉ after) :
    hopsOf (before ++ comma :: after) = hopsOf before ++ [trimSpace after] := by
  unfold hopsOf
  rw [List.splitOn_append_cons_self, List.splitOn_eq_singleton plain, List.map_append,
    List.map_singleton]
  cases parts : before.splitOn comma with
  | nil => exact absurd parts (List.splitOn_ne_nil _ _)
  | cons first others =>
    rw [List.map_cons]
    cases trimSpace first <;> rfl

theorem walk_line_hops {fuel : Nat} {rest : Bytes} (last : Option Addr)
    (enough : rest.length < fuel) :
    walkLine reader trusted fuel last rest =
      walkHops reader trusted last (hopsOf rest).reverse := by
  induction fuel generalizing rest last with
  | zero => exact absurd enough (Nat.not_lt_zero _)
  | succ fuel ih =>
    unfold walkLine
    cases cut : cutLastComma rest with
    | none =>
      rw [hops_of_plain (cut_last_comma_none cut)]
      by_cases empty : trimSpace rest = []
      · simp [empty, walkHops]
      · simp only [empty, Option.isSome_none, not_false_eq_true, ne_eq, true_or, if_true,
          if_false, List.reverse_singleton, walkHops]
        cases visit reader trusted last (trimSpace rest) <;> rfl
    | some parts =>
      obtain ⟨before, after⟩ := parts
      obtain ⟨same, plain⟩ := cut_last_comma_some cut
      have shorter : before.length < fuel := by
        rw [same, List.length_append, List.length_cons] at enough
        omega
      rw [same, hops_of_snoc before plain, List.reverse_append, List.reverse_singleton,
        List.singleton_append]
      simp only [Option.isSome_some, or_true, if_true, walkHops]
      cases visit reader trusted last (trimSpace after) with
      | stopped answer => rfl
      | onward last => exact ih last shorter

theorem walk_lines_hops (last : Option Addr) (lines : List Bytes) :
    walkLines reader trusted last lines.reverse =
      walkHops reader trusted last (hops lines).reverse := by
  induction lines using List.reverseRecOn generalizing last with
  | nil => rfl
  | append_singleton above line ih =>
    have split : hops (above ++ [line]) = hops above ++ hopsOf line := by
      simp [hops]
    rw [split, List.reverse_append, List.reverse_append, List.reverse_singleton,
      List.singleton_append, walk_hops_append, walkLines, walk_line_hops last (Nat.lt_succ_self _)]
    cases walkHops reader trusted last (hopsOf line).reverse with
    | stopped answer => rfl
    | onward last => exact ih last

/-! ## What the hop that stops the walk decides -/

def Passed (reader : AddrReader) (trusted : List Network) (hop : Bytes) : Prop :=
  ∃ addr, parseHostAddr reader hop = some addr ∧ containsAny trusted addr = true

/-- The hop is malformed, or an address that is not trusted. -/
def Stops (reader : AddrReader) (trusted : List Network) (hop : Bytes) : Prop :=
  ∀ addr, parseHostAddr reader hop = some addr → containsAny trusted addr = false

theorem walk_passed {passed : List Bytes} (each : ∀ hop ∈ passed, Passed reader trusted hop)
    (last : Option Addr) :
    ∃ next, walkHops reader trusted last passed = .onward next ∧
      (passed = [] → next = last) ∧ (passed ≠ [] → next.isSome) := by
  induction passed generalizing last with
  | nil => exact ⟨last, rfl, fun _ => rfl, fun some => absurd rfl some⟩
  | cons hop passed ih =>
    obtain ⟨addr, read, held⟩ := each hop List.mem_cons_self
    have visited : visit reader trusted last hop = .onward (some addr) := by
      unfold visit
      rw [read]
      exact if_pos held
    obtain ⟨next, walked, none, found⟩ :=
      ih (fun other listed => each other (List.mem_cons_of_mem _ listed)) (some addr)
    refine ⟨next, ?_, fun empty => absurd empty (List.cons_ne_nil _ _), fun _ => ?_⟩
    · rw [walkHops, visited]
      exact walked
    · by_cases rest : passed = []
      · rw [none rest]
        rfl
      · exact found rest

theorem forwarded_for_stopped {lines : List Bytes} {left right : List Bytes} {stop : Bytes}
    (split : hops lines = left ++ stop :: right)
    (passed : ∀ hop ∈ right, Passed reader trusted hop) (stops : Stops reader trusted stop) :
    fromForwardedFor reader trusted lines =
      (walkHops reader trusted none (right.reverse ++ [stop])).answer := by
  obtain ⟨last, walked, -, -⟩ := @walk_passed reader trusted right.reverse
    (fun hop listed => passed hop (List.mem_reverse.mp listed)) none
  have halted : ∃ answer, visit reader trusted last stop = .stopped answer := by
    unfold visit
    cases read : parseHostAddr reader stop with
    | none => exact ⟨last, rfl⟩
    | some addr =>
      refine ⟨some addr, ?_⟩
      dsimp only
      rw [stops addr read]
      rfl
  obtain ⟨answer, halted⟩ := halted
  unfold fromForwardedFor
  rw [walk_lines_hops, split, List.reverse_append, List.reverse_cons, List.append_assoc,
    walk_hops_append, walk_hops_append, walked]
  simp only [List.singleton_append, walkHops, halted]

theorem forwarded_for_found {right : List Bytes} {stop : Bytes}
    (passed : ∀ hop ∈ right, Passed reader trusted hop) (stops : Stops reader trusted stop)
    (valid : parseHostAddr reader stop = none → right ≠ []) :
    (walkHops reader trusted none (right.reverse ++ [stop])).answer.isSome = true := by
  obtain ⟨last, walked, -, found⟩ := @walk_passed reader trusted right.reverse
    (fun hop listed => passed hop (List.mem_reverse.mp listed)) none
  rw [walk_hops_append, walked]
  simp only [walkHops, visit]
  cases read : parseHostAddr reader stop with
  | none =>
    have some := found fun empty => valid read (List.reverse_eq_nil_iff.mp empty)
    exact some
  | some addr =>
    dsimp only
    rw [stops addr read]
    rfl

/-- Behind an untrusted peer the headers do not count; behind a trusted one, the address
found does not depend on what is to the left of the hop that stops the walk. -/
theorem client_ip_not_spoofed (reader : AddrReader) (trusted : List Network)
    (first second : Request) (peer : Addr)
    (peerFirst : parseHostAddr reader first.remoteAddr = some peer)
    (peerSecond : parseHostAddr reader second.remoteAddr = some peer) :
    (containsAny trusted peer = false → clientIP reader trusted (some first) = some peer ∧
      clientIP reader trusted (some second) = some peer) ∧
    (containsAny trusted peer = true →
      ∀ (leftFirst leftSecond right : List Bytes) (stop : Bytes),
        hops first.forwardedFor = leftFirst ++ stop :: right →
        hops second.forwardedFor = leftSecond ++ stop :: right →
        (∀ hop ∈ right, Passed reader trusted hop) → Stops reader trusted stop →
        (parseHostAddr reader stop = none → right ≠ []) →
        clientIP reader trusted (some first) = clientIP reader trusted (some second)) := by
  refine ⟨fun untrusted => ?_, ?_⟩
  · simp only [clientIP, peerFirst, peerSecond, untrusted, Bool.not_false, if_true, and_self]
  · intro held leftFirst leftSecond right stop splitFirst splitSecond passed stops valid
    obtain ⟨answer, found⟩ := Option.isSome_iff_exists.mp
      (forwarded_for_found passed stops valid)
    have answerFirst := forwarded_for_stopped splitFirst passed stops
    have answerSecond := forwarded_for_stopped splitSecond passed stops
    rw [found] at answerFirst answerSecond
    simp only [clientIP, peerFirst, peerSecond, held, answerFirst, answerSecond]

/-! ## Two requests through one proxy -/

/-- Reads three dotted addresses, as they stand. -/
def dottedReader : AddrReader where
  parseAddr text :=
    if text = asciiBytes "10.0.0.1" then some (.v4 0x0A000001)
    else if text = asciiBytes "10.0.0.2" then some (.v4 0x0A000002)
    else if text = asciiBytes "6.6.6.6" then some (.v4 0x06060606)
    else none
  parseAddrPort _ := none

def tenNetwork : Network := { v6 := false, addr := 0x0A000000, bits := 8 }

def plainRequest : Request where
  remoteAddr := asciiBytes "10.0.0.1"
  forwardedFor := [asciiBytes "6.6.6.6, 10.0.0.2"]
  realIP := []

def forgedRequest : Request where
  remoteAddr := asciiBytes "10.0.0.1"
  forwardedFor := [asciiBytes "10.0.0.2,", asciiBytes "nobody, 6.6.6.6", asciiBytes "10.0.0.2"]
  realIP := [asciiBytes "10.0.0.2"]

theorem forged_left_ignored :
    clientIP dottedReader [tenNetwork] (some forgedRequest) =
        clientIP dottedReader [tenNetwork] (some plainRequest) ∧
      clientIP dottedReader [tenNetwork] (some plainRequest) = some (.v4 0x06060606) := by
  refine ⟨?_, by decide +kernel⟩
  refine (client_ip_not_spoofed dottedReader [tenNetwork] forgedRequest plainRequest
    (.v4 0x0A000001) (by decide +kernel) (by decide +kernel)).2 (by decide +kernel)
    [asciiBytes "10.0.0.2", [], asciiBytes "nobody"] [] [asciiBytes "10.0.0.2"] (asciiBytes "6.6.6.6")
    (by decide +kernel) (by decide +kernel) ?_ ?_ (fun _ => List.cons_ne_nil _ _)
  · intro hop listed
    obtain rfl := List.mem_singleton.mp listed
    exact ⟨.v4 0x0A000002, by decide +kernel, by decide +kernel⟩
  · intro addr read
    have six : parseHostAddr dottedReader (asciiBytes "6.6.6.6") = some (.v4 0x06060606) := by
      decide +kernel
    obtain rfl := Option.some.inj (six.symm.trans read)
    decide +kernel

end Spinneret.Netx
