import CatalogGraph.Proofs.SegmentSpellings
import CatalogGraph.Proofs.SelectedLocations
import CatalogGraph.Source.Node

/-!
Rows of arrays: an iterator that selects arrays makes rows of all their items, null among them. The
iterator that goes on to the items with a star makes rows of the same items in the same order, but
not of null.
-/
namespace CatalogGraph

namespace JsonPath
open Text

/-- The text of a path that goes on to all members and items: a star in brackets stands behind the
text, and no white space is left at the end. -/
def starred (text : String) : String := String.ofList (trimEndChars text.toList) ++ "[*]"

example : starred "$.items" = "$.items[*]" ∧ starred "@ " = "@[*]" := by decide +kernel

section Starred
variable {c : Char} {cs more rest : List Char} {segment : Segment} {path later : Path}

/-- Where a span of characters ends in a text, it ends whatever stands behind the text. -/
theorem span_append {p : Char → Bool}
    (ends : cs.dropWhile p = [] → ∀ c ∈ more.head?, p c = false) :
    (cs ++ more).takeWhile p = cs.takeWhile p ∧
      (cs ++ more).dropWhile p = cs.dropWhile p ++ more := by
  induction cs with
  | nil =>
    cases more with
    | nil => exact ⟨rfl, rfl⟩
    | cons d more => simp [ends rfl d rfl]
  | cons c cs ih =>
    cases within : p c with
    | false => simp [within]
    | true =>
      have last : cs.dropWhile p = [] → ∀ c ∈ more.head?, p c = false :=
        fun none => ends (by rw [List.dropWhile_cons, if_pos within, none])
      obtain ⟨taken, dropped⟩ := ih last
      simp [within, taken, dropped]

theorem span_key_append (cs : List Char) (opens : Opens more) :
    (cs ++ more).takeWhile (! endsKey ·) = cs.takeWhile (! endsKey ·) ∧
      (cs ++ more).dropWhile (! endsKey ·) = cs.dropWhile (! endsKey ·) ++ more :=
  span_append fun _ c first => by simp [opens c first]

/-- A segment is taken from a text whatever stands behind the text, as long as no key goes on. -/
theorem nextSegment_append (opens : Opens more) (found : nextSegment c cs = .ok (segment, rest)) :
    nextSegment c (cs ++ more) = .ok (segment, rest ++ more) := by
  unfold nextSegment at found ⊢
  simp only at found ⊢
  split at found
  next dot =>
    rw [if_pos dot]
    split at found
    next key =>
      obtain ⟨taken, dropped⟩ := span_key_append key opens
      split at found
      next => cases found
      next filled =>
        cases found
        simp only [List.cons_append, taken, dropped]
        rw [if_neg filled]
    next single =>
      obtain ⟨taken, dropped⟩ := span_key_append cs opens
      split at found
      next => cases found
      next filled =>
        cases found
        split
        next behind twice =>
          -- a key is not empty, so that the second dot would stand in the text itself
          cases cs with
          | nil => exact absurd rfl filled
          | cons d key => exact absurd (by rw [(List.cons.inj twice).1]) (single key)
        next =>
          simp only [taken, dropped]
          rw [if_neg filled]
  next noDot =>
    rw [if_neg noDot]
    split at found
    next bracket =>
      rw [if_pos bracket]
      split at found
      next d left closes =>
        have ends : cs.dropWhile (· ≠ ']') = [] → ∀ c ∈ more.head?, decide (c ≠ ']') = false :=
          fun none => absurd none (by rw [closes]; exact List.cons_ne_nil d left)
        obtain ⟨taken, dropped⟩ := span_append ends
        rw [taken, dropped, closes]
        cases inside : bracketSegment (cs.takeWhile (· ≠ ']')) with
        | error fault =>
          rw [inside] at found
          cases found
        | ok segment =>
          rw [inside] at found
          cases found
          rfl
      next => cases found
    next => cases found

theorem segmentsOf_of_nextSegment (found : nextSegment c cs = .ok (segment, rest)) :
    segmentsOf (c :: cs) = (segmentsOf rest).map (segment :: ·) := by
  rw [segmentsOf]
  split
  next found' =>
    rw [found] at found'
    cases found'
    rfl
  next found' =>
    rw [found] at found'
    cases found'

/-- Behind a text of segments another one may stand. -/
theorem segmentsOf_append (opens : Opens more) (first : segmentsOf cs = .ok path)
    (second : segmentsOf more = .ok later) : segmentsOf (cs ++ more) = .ok (path ++ later) := by
  induction cs using segmentsOf.induct generalizing path with
  | case1 =>
    rw [segmentsOf] at first
    cases first
    exact second
  | case2 c cs segment rest found ih =>
    rw [segmentsOf_of_nextSegment found] at first
    rw [List.cons_append, segmentsOf_of_nextSegment (nextSegment_append opens found)]
    cases onward : segmentsOf rest with
    | error fault =>
      rw [onward] at first
      cases first
    | ok path =>
      rw [onward] at first
      cases first
      rw [ih onward]
      rfl
  | case3 c cs fault failed =>
    rw [segmentsOf] at first
    split at first
    next found =>
      rw [failed] at found
      cases found
    next => cases first

theorem dropRoot_append_star (cs : List Char) :
    dropRoot (cs ++ "[*]".toList) = dropRoot cs ++ "[*]".toList := by
  cases cs with
  | nil => rfl
  | cons c cs =>
    rw [List.cons_append]
    unfold dropRoot
    split <;> simp_all

/-- A text without the white space at its end has white space only in front of what remains of the
trimmed text. -/
theorem exists_before_trimChars (cs : List Char) :
    ∃ before, IsBlanks before ∧ trimEndChars cs = before ++ trimChars cs := by
  obtain ⟨behind, blank, whole, last⟩ := exists_trimEndChars cs
  obtain ⟨trimmed, before, rest, front, back, parts⟩ := exists_trimChars (trimEndChars cs)
  have none : rest = [] := by
    by_contra filled
    obtain ⟨others, c, rfl⟩ := (List.eq_nil_or_concat rest).resolve_left filled
    have shown := last c (by rw [parts]; simp [← List.append_assoc])
    rw [back c (by simp)] at shown
    cases shown
  rw [none, List.append_nil] at parts
  refine ⟨before, front, parts.trans ?_⟩
  have same : trimChars cs = trimChars (trimEndChars cs) := by
    conv_lhs => rw [whole, parts, List.append_assoc, trimmed.trimChars_within front blank]
  rw [same]

/-- The star stands behind all that remains of a trimmed text. -/
theorem trimChars_starred (text : String) :
    trimChars (starred text).toList = trimChars text.toList ++ "[*]".toList := by
  have start : (starred text).toList = trimEndChars text.toList ++ "[*]".toList := by
    rw [starred, String.toList_append, String.toList_ofList]
  obtain ⟨before, front, parts⟩ := exists_before_trimChars text.toList
  obtain ⟨trimmed, -⟩ := exists_trimChars text.toList
  have closed : IsTrimmed (trimChars text.toList ++ "[*]".toList) := by
    refine ⟨fun c first => ?_, not_blank_last_append trimmed.last (by simp [isBlank])⟩
    rw [List.head?_append, Option.mem_def, Option.or_eq_some_iff] at first
    rcases first with first | ⟨-, first⟩
    · exact trimmed.first c first
    · cases first
      rfl
  rw [start, parts, List.append_assoc, trimChars_append_of_blanks front, closed.trimChars_eq]

/-- A path goes on with a star. -/
theorem compile_starred {text : String} (compiled : compile text = .ok path) :
    compile (starred text) = .ok (path ++ [.wildcard]) := by
  have opens : Opens "[*]".toList := by simp [Opens, endsKey]
  have star : segmentsOf "[*]".toList = .ok [.wildcard] := by decide +kernel
  unfold compile at compiled ⊢
  rw [trimChars_starred, dropRoot_append_star]
  split at compiled
  next none =>
    cases compiled
    rw [none]
    exact star
  next c rest start =>
    rw [start, List.cons_append]
    split at compiled
    next ends =>
      dsimp only
      rw [if_pos ends]
      exact segmentsOf_append opens compiled star
    next single =>
      obtain ⟨taken, dropped⟩ := span_key_append rest opens
      dsimp only
      rw [if_neg single, taken, dropped]
      cases onward : segmentsOf (rest.dropWhile (! endsKey ·)) with
      | error fault =>
        rw [onward] at compiled
        cases compiled
      | ok path =>
        rw [onward] at compiled
        cases compiled
        rw [segmentsOf_append opens onward star]
        rfl

end Starred

end JsonPath

/-- An array without arrays among its items. -/
def Json.IsFlatArray (v : Json) : Prop :=
  ∃ items, v = .array items ∧ ∀ item ∈ items, ∀ inner, item ≠ .array inner

namespace Node
open JsonPath (Path starred)

section Rows
variable {namespaces : Entries String} {iterator : String} {path : Path} {document : Json}
  {items : List Json}

theorem iterate_json (namespaces : Entries String) (document : Json)
    (compiled : JsonPath.compile iterator = .ok path) :
    iterate namespaces (some iterator) (.json document) =
      .ok (((path.select document).flatMap jsonRows).map .json) := by
  simp only [iterate, compileJsonPath, compiled]
  rfl

/-- Items that are no arrays are rows themselves, but for null. -/
theorem flatMap_jsonRows (flat : ∀ item ∈ items, ∀ inner, item ≠ .array inner) :
    items.flatMap jsonRows = items.filter (! ·.isNull) := by
  induction items with
  | nil => rfl
  | cons item rest ih =>
    obtain ⟨first, flat⟩ := List.forall_mem_cons.mp flat
    rw [List.flatMap_cons, ih flat]
    cases item with
    | array inner => exact absurd rfl (first inner)
    | _ => rfl

/-- The star drops null from the rows of flat arrays. -/
theorem rows_star (flat : ∀ v ∈ path.select document, v.IsFlatArray) :
    (Path.select (path ++ [.wildcard]) document).flatMap jsonRows =
      ((path.select document).flatMap jsonRows).filter (! ·.isNull) := by
  rw [JsonPath.select_append, List.flatMap_assoc, List.filter_flatMap]
  refine List.flatMap_congr fun v selected => ?_
  obtain ⟨items, rfl, plain⟩ := flat v selected
  rw [JsonPath.select_single]
  exact flatMap_jsonRows plain

theorem null_mem_rows_iff (flat : ∀ v ∈ path.select document, v.IsFlatArray) :
    .null ∈ (path.select document).flatMap jsonRows ↔
      ∃ items, .array items ∈ path.select document ∧ .null ∈ items := by
  rw [List.mem_flatMap]
  constructor
  · rintro ⟨v, selected, inside⟩
    obtain ⟨items, rfl, -⟩ := flat v selected
    exact ⟨items, selected, inside⟩
  · rintro ⟨items, selected, inside⟩
    exact ⟨.array items, selected, inside⟩

theorem filter_isNull_eq_iff (rows : List Json) :
    rows.filter (! ·.isNull) = rows ↔ .null ∉ rows := by
  rw [List.filter_eq_self]
  constructor
  · intro none inside
    simpa [Json.isNull] using none _ inside
  · intro none v inside
    cases v with
    | null => exact absurd inside none
    | _ => rfl

theorem map_json_inj {rows rows' : List Json} :
    rows.map Node.json = rows'.map Node.json ↔ rows = rows' :=
  List.map_inj_right fun _ _ => Node.json.inj

end Rows

/-- Where an iterator selects arrays that hold no arrays, the iterator with a star behind it makes
the same rows in the same order, but none of null. So both make the same rows exactly if no array
that is selected holds null, and otherwise null is a row of the one without a star. -/
theorem rows_same_iff_no_null_item (namespaces : Entries String) (document : Json)
    {iterator : String} {path : Path} (compiled : JsonPath.compile iterator = .ok path)
    (flat : ∀ v ∈ path.select document, v.IsFlatArray) :
    (∃ rows : List Json,
      iterate namespaces (some iterator) (.json document) = .ok (rows.map .json) ∧
      iterate namespaces (some (starred iterator)) (.json document) =
        .ok ((rows.filter (! ·.isNull)).map .json) ∧
      (.null ∈ rows ↔ ∃ items, .array items ∈ path.select document ∧ .null ∈ items)) ∧
    (iterate namespaces (some iterator) (.json document) =
        iterate namespaces (some (starred iterator)) (.json document) ↔
      ∀ items, .array items ∈ path.select document → .null ∉ items) := by
  have plain := iterate_json namespaces document compiled
  have onward := iterate_json namespaces document (JsonPath.compile_starred compiled)
  rw [rows_star flat] at onward
  have null := null_mem_rows_iff flat
  refine ⟨⟨_, plain, onward, null⟩, ?_⟩
  rw [plain, onward, Except.ok.injEq, map_json_inj, eq_comm, filter_isNull_eq_iff, null]
  simp only [not_exists, not_and]

/-- A list of works and a shelf with items of its own. -/
def shelves : Json :=
  .object [("items", .array [.string "a", .object []]),
    ("shelf", .object [("items", .array [.object [("t", .string "b")]])])]

theorem shelves_rows_same :
    JsonPath.compile "$..items " = .ok [.descendant "items"] ∧
    (∀ v ∈ Path.select [.descendant "items"] shelves, v.IsFlatArray) ∧
    iterate [] (some "$..items ") (.json shelves) =
      iterate [] (some "$..items[*]") (.json shelves) := by
  have compiled : JsonPath.compile "$..items " = .ok [.descendant "items"] := by decide +kernel
  have selected : Path.select [.descendant "items"] shelves =
      [.array [.string "a", .object []], .array [.object [("t", .string "b")]]] := rfl
  have flat : ∀ v ∈ Path.select [.descendant "items"] shelves, v.IsFlatArray := by
    rw [selected]
    simp [Json.IsFlatArray]
  have star : starred "$..items " = "$..items[*]" := by decide +kernel
  have same := (rows_same_iff_no_null_item [] shelves compiled flat).2
  rw [selected, star] at same
  exact ⟨compiled, flat, same.mpr (by simp)⟩

/-- Items of which the first one is null. -/
def itemsWithNull : Json :=
  .object [("items", .array [.null, .object [("t", .string "a")]])]

/-- Null among the items is a row unless a star stands behind the iterator. -/
theorem null_item_row_without_star :
    JsonPath.compile "$.items" = .ok [.key "items"] ∧
    (∀ v ∈ Path.select [.key "items"] itemsWithNull, v.IsFlatArray) ∧
    iterate [] (some "$.items") (.json itemsWithNull) =
      .ok [.json .null, .json (.object [("t", .string "a")])] ∧
    iterate [] (some "$.items[*]") (.json itemsWithNull) =
      .ok [.json (.object [("t", .string "a")])] ∧
    iterate [] (some "$.items") (.json itemsWithNull) ≠
      iterate [] (some "$.items[*]") (.json itemsWithNull) := by
  have compiled : JsonPath.compile "$.items" = .ok [.key "items"] := by decide +kernel
  have compiled' : JsonPath.compile "$.items[*]" = .ok [.key "items", .wildcard] := by
    decide +kernel
  have plain : iterate [] (some "$.items") (.json itemsWithNull) =
      .ok [.json .null, .json (.object [("t", .string "a")])] := iterate_json _ _ compiled
  have onward : iterate [] (some "$.items[*]") (.json itemsWithNull) =
      .ok [.json (.object [("t", .string "a")])] := iterate_json _ _ compiled'
  refine ⟨compiled, ?_, plain, onward, ?_⟩
  · rw [show Path.select [.key "items"] itemsWithNull =
      [.array [.null, .object [("t", .string "a")]]] from rfl]
    simp [Json.IsFlatArray]
  · rw [plain, onward]
    simp

end Node
end CatalogGraph
