import Spinneret.Site.Path

/-!
# Snapshot files of the SDK

The file of a config item lies below the root under its host, namespace, group and key, each
encoded as one path component. The encoding can be undone and no component is special to the
path library, so cleaning a path leaves it alone and no two items share a file.
-/

namespace Spinneret.Sdk.Snapshot

open Spinneret.Site

set_option autoImplicit false

def dot : Byte := 0x2E

def percent : Byte := 0x25

/-! ## The path library -/

/-- One element of a path, onto the elements before it, the last one first. -/
def cleanElement (rooted : Bool) (out : List Bytes) (element : Bytes) : List Bytes :=
  if element = [] ∨ element = [dot] then out
  else if element = [dot, dot] then
    match out with
    | [] => if rooted then [] else [element]
    | last :: before => if last = [dot, dot] then element :: out else before
  else element :: out

def clean (path : Bytes) : Bytes :=
  let rooted := path.head? == some slash
  let out := ((path.splitOn slash).foldl (cleanElement rooted) []).reverse
  let joined := (if rooted then [slash] else []) ++ [slash].intercalate out
  if joined = [] then [dot] else joined

def joinElement (buf element : Bytes) : Bytes :=
  if buf ≠ [] then buf ++ [slash] ++ element else element

def join (elements : List Bytes) : Bytes :=
  if elements.all fun element => element.isEmpty then []
  else clean (elements.foldl joinElement [])

/-! ## Components -/

def hexDigit (value : Nat) : Byte := Fin.ofNat 256 (if value < 10 then 48 + value else 55 + value)

def unreserved (c : Byte) : Bool :=
  decide (97 ≤ c.val ∧ c.val ≤ 122) || decide (65 ≤ c.val ∧ c.val ≤ 90) ||
    decide (48 ≤ c.val ∧ c.val ≤ 57) || decide (c.val ∈ [0x5F, 0x2E, 0x2D, 0x7E])

def encodeByte (i : Nat) (c : Byte) : Bytes :=
  if unreserved c && (c != dot || decide (0 < i)) then [c]
  else [percent, hexDigit (c.val / 16), hexDigit (c.val % 16)]

def encodeFrom : Nat → Bytes → Bytes
  | _, [] => []
  | i, c :: rest => encodeByte i c ++ encodeFrom (i + 1) rest

def snapshotComponent (name : Bytes) : Bytes :=
  if encodeFrom 0 name = [] then asciiBytes "%00" else encodeFrom 0 name

def snapshotTokenNamespaceDir : Bytes := asciiBytes "_token_namespace"

/-- The directory of a store: `newSnapshotStore`. -/
def storeDir (host namespace_ : Bytes) : Bytes :=
  let namespace_ := if namespace_ = [] then snapshotTokenNamespaceDir else namespace_
  join [snapshotComponent host, snapshotComponent namespace_]

def relPath (dir group key : Bytes) : Bytes :=
  join [dir, snapshotComponent group, snapshotComponent key ++ asciiBytes ".json"]

/-- What a snapshot is kept for. -/
structure Item where
  host : Bytes
  namespace_ : Bytes
  group : Bytes
  key : Bytes
  hostNonempty : host ≠ []
  namespaceNonempty : namespace_ ≠ []
  groupNonempty : group ≠ []
  keyNonempty : key ≠ []

def Item.path (item : Item) : Bytes :=
  relPath (storeDir item.host item.namespace_) item.group item.key

/-! ## The encoding -/

theorem hex_digit_injective {high high' : Nat} (small : high < 16) (small' : high' < 16)
    (same : hexDigit high = hexDigit high') : high = high' := by
  have all : ∀ a < 16, ∀ b < 16, hexDigit a = hexDigit b → a = b := by decide
  exact all high small high' small' same

theorem encode_byte_injective (i : Nat) {c d : Byte} {rest rest' : Bytes}
    (same : encodeByte i c ++ rest = encodeByte i d ++ rest') : c = d ∧ rest = rest' := by
  have reserved : unreserved percent = false := by decide
  unfold encodeByte at same
  split_ifs at same with first second second
  · exact List.cons.inj same
  · obtain ⟨rfl, -⟩ := List.cons.inj same
    rw [reserved, Bool.false_and] at first
    cases first
  · obtain ⟨rfl, -⟩ := List.cons.inj same.symm
    rw [reserved, Bool.false_and] at second
    cases second
  · simp only [List.cons_append, List.nil_append, List.cons.injEq, true_and] at same
    obtain ⟨high, low, later⟩ := same
    have highs := hex_digit_injective (by omega) (by omega) high
    have lows := hex_digit_injective (by omega) (by omega) low
    exact ⟨Fin.ext (by omega), later⟩

theorem encode_byte_ne_nil (i : Nat) (c : Byte) : encodeByte i c ≠ [] := by
  unfold encodeByte
  split <;> exact List.cons_ne_nil _ _

theorem encode_from_injective (i : Nat) {name name' : Bytes}
    (same : encodeFrom i name = encodeFrom i name') : name = name' := by
  induction name generalizing i name' with
  | nil =>
    cases name' with
    | nil => rfl
    | cons d rest' =>
      exact absurd (List.append_eq_nil_iff.mp same.symm).1 (encode_byte_ne_nil i d)
  | cons c rest ih =>
    cases name' with
    | nil => exact absurd (List.append_eq_nil_iff.mp same).1 (encode_byte_ne_nil i c)
    | cons d rest' =>
      obtain ⟨rfl, later⟩ := encode_byte_injective i same
      rw [ih (i + 1) later]

theorem snapshot_component_eq {name : Bytes} (some_ : name ≠ []) :
    snapshotComponent name = encodeFrom 0 name := by
  apply if_neg
  intro empty
  exact some_ (encode_from_injective 0 empty)

/-- Elements that the path library leaves as they are. -/
structure Plain (element : Bytes) : Prop where
  nonempty : element ≠ []
  undotted : element.head? ≠ some dot
  unbroken : slash ∉ element

theorem encode_from_unbroken (i : Nat) (name : Bytes) : slash ∉ encodeFrom i name := by
  have digits : ∀ value < 16, hexDigit value ≠ slash := by decide
  have reserved : unreserved slash = false := by decide
  induction name generalizing i with
  | nil => exact List.not_mem_nil
  | cons c rest ih =>
    intro listed
    rcases List.mem_append.mp listed with own | later
    · unfold encodeByte at own
      split at own
      · next plain =>
        rw [List.mem_singleton] at own
        rw [← own, reserved, Bool.false_and] at plain
        cases plain
      · simp only [List.mem_cons, List.not_mem_nil, or_false] at own
        rcases own with sign | high | low
        · revert sign
          decide
        · exact digits _ (by omega) high.symm
        · exact digits _ (by omega) low.symm
    · exact ih (i + 1) later

theorem encode_first_undotted (c : Byte) (rest : Bytes) :
    (encodeFrom 0 (c :: rest)).head? ≠ some dot := by
  unfold encodeFrom encodeByte
  split
  · next plain =>
    intro dotted
    rw [List.singleton_append, List.head?_cons, Option.some.injEq] at dotted
    rw [dotted] at plain
    revert plain
    decide
  · simp only [List.cons_append, List.head?_cons, ne_eq, Option.some.injEq]
    decide

theorem Plain.component {name : Bytes} (some_ : name ≠ []) : Plain (snapshotComponent name) := by
  rw [snapshot_component_eq some_]
  cases name with
  | nil => exact absurd rfl some_
  | cons c rest =>
    refine ⟨?_, encode_first_undotted c rest, encode_from_unbroken 0 _⟩
    intro empty
    exact encode_byte_ne_nil 0 c (List.append_eq_nil_iff.mp empty).1

theorem Plain.append {element tail : Bytes} (plain : Plain element) (unbroken : slash ∉ tail) :
    Plain (element ++ tail) where
  nonempty := by
    intro empty
    exact plain.nonempty (List.append_eq_nil_iff.mp empty).1
  undotted := by
    cases element with
    | nil => exact absurd rfl plain.nonempty
    | cons c rest => exact plain.undotted
  unbroken := by
    intro listed
    exact (List.mem_append.mp listed).elim plain.unbroken unbroken

/-! ## Paths -/

theorem clean_element_plain (rooted : Bool) (out : List Bytes) {element : Bytes}
    (plain : Plain element) : cleanElement rooted out element = element :: out := by
  unfold cleanElement
  rw [if_neg, if_neg]
  · rintro rfl
    exact plain.undotted rfl
  · rintro (rfl | rfl)
    · exact plain.nonempty rfl
    · exact plain.undotted rfl

theorem clean_elements_plain (rooted : Bool) (out : List Bytes) {elements : List Bytes}
    (plain : ∀ element ∈ elements, Plain element) :
    elements.foldl (cleanElement rooted) out = elements.reverse ++ out := by
  induction elements generalizing out with
  | nil => rfl
  | cons element rest ih =>
    rw [List.foldl_cons, clean_element_plain rooted out (plain element List.mem_cons_self),
      ih _ fun other later => plain other (List.mem_cons_of_mem _ later),
      List.reverse_cons, List.append_assoc, List.singleton_append]

theorem intercalate_starts (first : Bytes) (rest : List Bytes) :
    ∃ tail, [slash].intercalate (first :: rest) = first ++ tail := by
  cases rest with
  | nil => exact ⟨[], by rw [List.intercalate_singleton, List.append_nil]⟩
  | cons second later =>
    exact ⟨_, by rw [List.intercalate_cons_cons, List.append_assoc]⟩

theorem clean_plain (first : Bytes) (rest : List Bytes)
    (plain : ∀ element ∈ first :: rest, Plain element) :
    clean ([slash].intercalate (first :: rest)) = [slash].intercalate (first :: rest) := by
  have own := plain first List.mem_cons_self
  have split : ([slash].intercalate (first :: rest)).splitOn slash = first :: rest := by
    apply List.splitOn_intercalate
    · intro element listed
      exact (plain element listed).unbroken
    · exact List.cons_ne_nil _ _
  have relative : (([slash].intercalate (first :: rest)).head? == some slash) = false := by
    obtain ⟨tail, starts⟩ := intercalate_starts first rest
    rw [starts, beq_eq_false_iff_ne]
    cases first with
    | nil => exact absurd rfl own.nonempty
    | cons c later =>
      rw [List.cons_append, List.head?_cons]
      intro rooted
      cases Option.some.inj rooted
      exact own.unbroken List.mem_cons_self
  have some_ : [slash].intercalate (first :: rest) ≠ [] := by
    obtain ⟨tail, starts⟩ := intercalate_starts first rest
    rw [starts]
    intro empty
    exact own.nonempty (List.append_eq_nil_iff.mp empty).1
  unfold clean
  simp only [relative, split, Bool.false_eq_true, if_false, List.nil_append,
    clean_elements_plain false [] plain, List.append_nil, List.reverse_reverse]
  exact if_neg some_

theorem join_elements {buf : Bytes} (some_ : buf ≠ []) (elements : List Bytes) :
    elements.foldl joinElement buf = [slash].intercalate (buf :: elements) := by
  induction elements generalizing buf with
  | nil => exact List.intercalate_singleton.symm
  | cons element rest ih =>
    have longer : buf ++ [slash] ++ element ≠ [] := by
      intro empty
      exact some_ (List.append_eq_nil_iff.mp (List.append_eq_nil_iff.mp empty).1).1
    rw [List.foldl_cons, joinElement, if_pos some_, ih longer]
    cases rest with
    | nil => rw [List.intercalate_singleton, List.intercalate_cons_cons,
        List.intercalate_singleton]
    | cons next later =>
      simp only [List.intercalate_cons_cons, List.append_assoc]

theorem join_eq {first : Bytes} (some_ : first ≠ []) (rest : List Bytes) :
    join (first :: rest) = clean ([slash].intercalate (first :: rest)) := by
  have kept : ((first :: rest).all fun element => element.isEmpty) = false := by
    rw [List.all_cons, List.isEmpty_eq_false_iff.mpr some_, Bool.false_and]
  have start : joinElement [] first = first := if_neg (not_not_intro rfl)
  rw [join, kept, if_neg Bool.false_ne_true, List.foldl_cons, start, join_elements some_]

def Item.components (item : Item) : List Bytes :=
  [snapshotComponent item.host, snapshotComponent item.namespace_, snapshotComponent item.group,
    snapshotComponent item.key ++ asciiBytes ".json"]

theorem Item.components_plain (item : Item) : ∀ component ∈ item.components, Plain component := by
  have suffix : slash ∉ asciiBytes ".json" := by decide
  intro component listed
  simp only [Item.components, List.mem_cons, List.not_mem_nil, or_false] at listed
  rcases listed with rfl | rfl | rfl | rfl
  · exact Plain.component item.hostNonempty
  · exact Plain.component item.namespaceNonempty
  · exact Plain.component item.groupNonempty
  · exact (Plain.component item.keyNonempty).append suffix

theorem Item.path_eq (item : Item) : item.path = [slash].intercalate item.components := by
  have host := Plain.component item.hostNonempty
  have space := Plain.component item.namespaceNonempty
  have dir : storeDir item.host item.namespace_ =
      [slash].intercalate [snapshotComponent item.host, snapshotComponent item.namespace_] := by
    unfold storeDir
    rw [if_neg item.namespaceNonempty, join_eq host.nonempty]
    apply clean_plain
    intro element listed
    simp only [List.mem_cons, List.not_mem_nil, or_false] at listed
    rcases listed with rfl | rfl
    · exact host
    · exact space
  have some_ : storeDir item.host item.namespace_ ≠ [] := by
    rw [dir, List.intercalate_cons_cons]
    intro empty
    exact host.nonempty
      (List.append_eq_nil_iff.mp (List.append_eq_nil_iff.mp empty).1).1
  have joined : [slash].intercalate [storeDir item.host item.namespace_,
      snapshotComponent item.group, snapshotComponent item.key ++ asciiBytes ".json"] =
      [slash].intercalate item.components := by
    simp only [dir, Item.components, List.intercalate_cons_cons, List.intercalate_singleton,
      List.append_assoc]
  rw [Item.path, relPath, join_eq some_, joined]
  exact clean_plain _ _ item.components_plain

theorem Item.split_path (item : Item) : item.path.splitOn slash = item.components := by
  rw [item.path_eq]
  apply List.splitOn_intercalate
  · intro component listed
    exact (item.components_plain component listed).unbroken
  · exact List.cons_ne_nil _ _

theorem snapshot_component_injective {name name' : Bytes} (some_ : name ≠ [])
    (some_' : name' ≠ []) (same : snapshotComponent name = snapshotComponent name') :
    name = name' := by
  rw [snapshot_component_eq some_, snapshot_component_eq some_'] at same
  exact encode_from_injective 0 same

theorem Item.eq_of_components {one other : Item} (same : one.components = other.components) :
    one = other := by
  simp only [Item.components, List.cons.injEq, List.append_cancel_right_eq, and_true] at same
  obtain ⟨hosts, spaces, groups, keys⟩ := same
  cases one with
  | mk _ _ _ _ hostSome spaceSome groupSome keySome =>
    cases other with
    | mk _ _ _ _ hostSome' spaceSome' groupSome' keySome' =>
      cases snapshot_component_injective hostSome hostSome' hosts
      cases snapshot_component_injective spaceSome spaceSome' spaces
      cases snapshot_component_injective groupSome groupSome' groups
      cases snapshot_component_injective keySome keySome' keys
      rfl

/-- Snapshot files are separate and confined: the path of an item is that of no other item, and
it has four components below the root, which are nonempty, hold no separator and are neither
one dot nor two, so that cleaning the path changes nothing. -/
theorem snapshot_paths (one other : Item) :
    (one.path = other.path ↔ one = other) ∧
      ∃ components : List Bytes, components.length = 4 ∧
        one.path = [slash].intercalate components ∧ one.path.splitOn slash = components ∧
        (∀ component ∈ components, component ≠ [] ∧ component ≠ [dot] ∧
          component ≠ [dot, dot] ∧ slash ∉ component) ∧
        clean one.path = one.path := by
  constructor
  · constructor
    · intro same
      apply Item.eq_of_components
      rw [← one.split_path, ← other.split_path, same]
    · rintro rfl
      rfl
  · refine ⟨one.components, rfl, one.path_eq, one.split_path, ?_, ?_⟩
    · intro component listed
      have plain := one.components_plain component listed
      refine ⟨plain.nonempty, ?_, ?_, plain.unbroken⟩
      · rintro rfl
        exact plain.undotted rfl
      · rintro rfl
        exact plain.undotted rfl
    · rw [one.path_eq]
      exact clean_plain _ _ one.components_plain

def rulesItem : Item where
  host := asciiBytes "cp:8080"
  namespace_ := asciiBytes "prod"
  group := asciiBytes "crawler"
  key := asciiBytes "../rules"
  hostNonempty := by decide
  namespaceNonempty := by decide
  groupNonempty := by decide
  keyNonempty := by decide

example : rulesItem.path = asciiBytes "cp%3A8080/prod/crawler/%2E.%2Frules.json" := by
  decide +kernel

end Spinneret.Sdk.Snapshot
