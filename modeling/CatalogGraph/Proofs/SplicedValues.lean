import CatalogGraph.Proofs.GraphGrowth

/-!
Spliced values: a template writes what its context names as it is, and the values of a row escaped
unless the map makes literals only. So a literal that merely does not look like a name is escaped
too, which shows exactly if a value holds a character that the segment of a path does not.
-/
namespace CatalogGraph

namespace Text

theorem percentChar_of_isSegmentChar {c : Char} (plain : isSegmentChar c = true) :
    percentChar c = [c] := by
  rw [percentChar, if_pos plain]

/-- An escape is longer than what it stands for. -/
theorem one_lt_length_percentChar {c : Char} (special : isSegmentChar c = false) :
    1 < (percentChar c).length := by
  have filled := c.utf8Size_pos
  have digits : (percentChar c).length = c.utf8Size * 3 := by
    simp [percentChar, special, List.length_flatMap, percentByte, List.map_const']
  omega

/-- Escaping keeps or lengthens a text, and keeps it only if there is nothing to escape. -/
theorem length_flatMap_percentChar (cs : List Char) :
    cs.length ≤ (cs.flatMap percentChar).length ∧
      ((cs.flatMap percentChar).length = cs.length → ∀ c ∈ cs, isSegmentChar c = true) := by
  induction cs with
  | nil => simp
  | cons c rest ih =>
    obtain ⟨longer, plain⟩ := ih
    rw [List.flatMap_cons, List.length_append, List.length_cons]
    cases special : isSegmentChar c with
    | false =>
      have := one_lt_length_percentChar special
      refine ⟨by omega, fun same => ?_⟩
      omega
    | true =>
      rw [percentChar_of_isSegmentChar special, List.length_singleton]
      refine ⟨by omega, fun same => ?_⟩
      rw [List.forall_mem_cons]
      exact ⟨special, plain (by omega)⟩

theorem flatMap_percentChar_of_plain {cs : List Char}
    (plain : ∀ c ∈ cs, isSegmentChar c = true) : cs.flatMap percentChar = cs := by
  induction cs with
  | nil => rfl
  | cons c rest ih =>
    rw [List.forall_mem_cons] at plain
    rw [List.flatMap_cons, percentChar_of_isSegmentChar plain.1, ih plain.2]
    rfl

theorem percentEscape_of_plain {value : String}
    (plain : ∀ c ∈ value.toList, isSegmentChar c = true) : percentEscape value = value := by
  rw [percentEscape, flatMap_percentChar_of_plain plain, String.ofList_toList]

end Text

namespace Engine
open Template Text
variable {σ : Type} {config : Config} {node : Node} {ctx : Context} {write : String → String}
  {parts : List Part} {cs : List Char}

/-- A text is a template with its holes filled: names of the context with what they stand for, and
others with the value of the row, as it is written. -/
inductive Spliced (config : Config) (node : Node) (ctx : Context) (write : String → String) :
    Draws → List Part → List Char → Prop
  | nil {draws} : Spliced config node ctx write draws [] []
  | char {draws rest cs} (c : Char) (later : Spliced config node ctx write draws rest cs) :
      Spliced config node ctx write draws (.char c :: rest) (c :: cs)
  | named {draws name value rest cs} (named : Entries.get? name ctx = some value)
      (later : Spliced config node ctx write (value.resolve draws).2 rest cs) :
      Spliced config node ctx write draws (.hole name :: rest)
        ((value.resolve draws).1.toList ++ cs)
  | row {draws name value rest cs} (unnamed : Entries.get? name ctx = none)
      (found : node.first? config.namespaces name = .ok (some value))
      (later : Spliced config node ctx write draws rest cs) :
      Spliced config node ctx write draws (.hole name :: rest) ((write value).toList ++ cs)

/-- The values that a row gives to the holes of a template need no escape. -/
def PlainValues (config : Config) (node : Node) (ctx : Context) (parts : List Part) : Prop :=
  ∀ name, .hole name ∈ parts → Entries.get? name ctx = none →
    ∀ value, node.first? config.namespaces name = .ok (some value) →
      ∀ c ∈ value.toList, isSegmentChar c = true

/-- How a hole is filled. -/
theorem resolveHole_eq_some {escape : Bool} {name value : String} {s t : RunState σ}
    (filled : outcome (resolveHole config node ctx escape name) s = (.ok (some value), t)) :
    (∃ v, Entries.get? name ctx = some v ∧ value = (v.resolve s.draws).1 ∧
      t.draws = (v.resolve s.draws).2) ∨
    (Entries.get? name ctx = none ∧ t.draws = s.draws ∧
      ∃ v, node.first? config.namespaces name = .ok (some v) ∧
        value = if escape then percentEscape v else v) := by
  obtain ⟨r, u, named, rest⟩ := exists_of_outcome_bind filled
  cases known : Entries.get? name ctx with
  | some v =>
    simp only [resolveNamed, outcome_modifyGet, Context.resolve, known] at named
    cases named
    cases rest
    exact .inl ⟨v, rfl, rfl, rfl⟩
  | none =>
    simp only [resolveNamed, outcome_modifyGet, Context.resolve, known] at named
    cases named
    obtain ⟨v?, u, found, rest⟩ := exists_of_outcome_bind rest
    rw [outcome_lift] at found
    cases v? with
    | none => cases rest
    | some v =>
      cases rest
      obtain ⟨found, after⟩ := Prod.ext_iff.mp found
      exact .inr ⟨rfl, (congrArg RunState.draws after).symm, v, found, rfl⟩

theorem spliced_of_fill {escape : Bool} {s t : RunState σ}
    (filled : outcome (fill (resolveHole config node ctx escape) parts) s = (.ok (.ok cs), t)) :
    Spliced config node ctx (fun v => if escape then percentEscape v else v) s.draws parts cs := by
  induction parts generalizing s cs with
  | nil =>
    cases filled
    exact .nil
  | cons part rest ih =>
    cases part with
    | char c =>
      obtain ⟨r, u, later, rest⟩ := exists_of_outcome_bind filled
      cases r with
      | error name => cases rest
      | ok cs =>
        cases rest
        exact .char c (ih later)
    | hole name =>
      obtain ⟨value?, u, hole, rest⟩ := exists_of_outcome_bind filled
      cases value? with
      | none => cases rest
      | some value =>
        obtain ⟨r, u', later, rest⟩ := exists_of_outcome_bind rest
        cases r with
        | error name => cases rest
        | ok cs =>
          cases rest
          have spliced := ih later
          rcases resolveHole_eq_some hole with
            ⟨v, named, rfl, draws⟩ | ⟨unnamed, draws, v, found, rfl⟩
          · rw [draws] at spliced
            exact .named named spliced
          · rw [draws] at spliced
            exact .row unnamed found spliced

theorem PlainValues.tail {part : Part} (plain : PlainValues config node ctx (part :: parts)) :
    PlainValues config node ctx parts :=
  fun name hole => plain name (List.mem_cons_of_mem _ hole)

theorem Spliced.verbatim {draws : Draws}
    (spliced : Spliced config node ctx percentEscape draws parts cs)
    (plain : PlainValues config node ctx parts) : Spliced config node ctx id draws parts cs := by
  induction spliced with
  | nil => exact .nil
  | char c _ ih => exact .char c (ih plain.tail)
  | named named _ ih => exact .named named (ih plain.tail)
  | row unnamed found _ ih =>
    rw [percentEscape_of_plain (plain _ (by simp) unnamed _ found)]
    exact .row unnamed found (ih plain.tail)

/-- The text with escaped values is the longer one, and as long only if no value needs an escape. -/
theorem Spliced.length_le {draws : Draws} {ds : List Char}
    (escaped : Spliced config node ctx percentEscape draws parts cs)
    (verbatim : Spliced config node ctx id draws parts ds) :
    ds.length ≤ cs.length ∧ (cs.length = ds.length → PlainValues config node ctx parts) := by
  -- both fill a hole from the same value, so the lengths are compared hole by hole
  induction escaped generalizing ds with
  | nil =>
    cases verbatim
    exact ⟨Nat.le_refl _, fun _ name hole => by simp at hole⟩
  | char c _ ih =>
    obtain - | ⟨-, later⟩ := verbatim
    obtain ⟨longer, plain⟩ := ih later
    simp only [List.length_cons]
    refine ⟨by omega, fun same name hole => ?_⟩
    exact plain (by omega) name (by simpa using hole)
  | named named _ ih =>
    cases verbatim with
    | row unnamed => simp [unnamed] at named
    | named named' later =>
      obtain rfl := Option.some.inj (named.symm.trans named')
      obtain ⟨longer, plain⟩ := ih later
      simp only [List.length_append]
      refine ⟨by omega, fun same name hole unnamed => ?_⟩
      refine plain (by omega) name ?_ unnamed
      rcases List.mem_cons.mp hole with first | hole
      · cases first
        simp [unnamed] at named
      · exact hole
  | @row _ first value _ _ unnamed found _ ih =>
    cases verbatim with
    | named named' => simp [unnamed] at named'
    | row _ found' later =>
      rw [found] at found'
      cases found'
      obtain ⟨longer, plain⟩ := ih later
      obtain ⟨more, kept⟩ := length_flatMap_percentChar value.toList
      have written : (percentEscape value).toList = value.toList.flatMap percentChar := by
        simp [percentEscape]
      simp only [List.length_append, written, id]
      refine ⟨by omega, fun same name hole unnamed' value' found' => ?_⟩
      rcases List.mem_cons.mp hole with first | hole
      · cases first
        rw [found] at found'
        cases found'
        exact kept (by omega)
      · exact plain (by omega) name hole unnamed' value' found'

theorem Spliced.verbatim_iff {draws : Draws}
    (escaped : Spliced config node ctx percentEscape draws parts cs) :
    Spliced config node ctx id draws parts cs ↔ PlainValues config node ctx parts :=
  ⟨fun verbatim => (escaped.length_le verbatim).2 rfl, escaped.verbatim⟩

/-- A map with a template that is not cut at delimiters makes one object, of the text of the
template. -/
theorem objectTerms_of_template {pom : PredicateObjectMap} {text : String} {s t : RunState σ}
    {terms : List Term} (tidy : Tidy s) (object : pom.object = .template text)
    (uncut : pom.delimiters = [])
    (made : outcome (objectTerms config pom node ctx) s = (.ok (some terms), t)) :
    ∃ value, ∃ u : RunState σ, Tidy u ∧ terms = [(pom.termOf value u.blanks).1] ∧
      Spliced config node ctx (fun v => if !pom.isLiteralOnly then percentEscape v else v)
        s.draws (Template.parts text) value.toList := by
  simp only [objectTerms, objectValues, object] at made
  obtain ⟨values?, u, values, rest⟩ := exists_of_outcome_bind made
  obtain ⟨r, u', expanded, value⟩ := exists_of_outcome_bind values
  have moved := (within_expand (fun name =>
    allows_sane.resolveHole config node ctx (!pom.isLiteralOnly) name) text s).1 tidy
  rw [expanded] at moved
  obtain ⟨r', u'', filled, written⟩ := exists_of_outcome_bind expanded
  cases r' with
  | error name =>
    cases written
    cases value
    cases rest
  | ok cs =>
    cases written
    cases value
    simp only [outcome_modifyGet, uncut, splitTokens] at rest
    cases rest
    refine ⟨String.ofList cs, u, moved.2, rfl, ?_⟩
    rw [String.toList_ofList]
    exact spliced_of_fill filled

/-- The term of a value is a name only if the map does not make literals only, and a literal has
the value as its text. -/
theorem kind_of_termOf (pom : PredicateObjectMap) (value : String) {s : RunState σ}
    (tidy : Tidy s) :
    (∀ iri, (pom.termOf value s.blanks).1 = .iri iri → value = iri ∧ pom.isLiteralOnly = false) ∧
      ∀ l, (pom.termOf value s.blanks).1 = .literal l → l.value = value := by
  have literal : (∀ iri, pom.literalOf value ≠ .iri iri) ∧
      ∀ l, pom.literalOf value = .literal l → l.value = value := by
    unfold PredicateObjectMap.literalOf
    split
    all_goals
      refine ⟨fun _ => nofun, ?_⟩
      rintro _ ⟨⟩
      rfl
  have other : (∀ iri, pom.literalOf value = .iri iri → value = iri ∧ pom.isLiteralOnly = false) ∧
      ∀ l, pom.literalOf value = .literal l → l.value = value :=
    ⟨fun iri name => absurd name (literal.1 iri), literal.2⟩
  unfold PredicateObjectMap.termOf
  split
  next type =>
    refine ⟨?_, fun _ => nofun⟩
    rintro _ ⟨⟩
    exact ⟨rfl, by simp [PredicateObjectMap.isLiteralOnly, type]⟩
  next =>
    have blank := (tidy_forValue tidy value).2
    exact ⟨fun iri name => by simp [name, Term.isBlank] at blank,
      fun l name => by simp [name, Term.isBlank] at blank⟩
  next => exact other
  next type =>
    split
    next => exact other
    next plain =>
      split
      next =>
        refine ⟨?_, fun _ => nofun⟩
        rintro _ ⟨⟩
        exact ⟨rfl, by simpa [PredicateObjectMap.isLiteralOnly, type] using plain⟩
      next =>
        refine ⟨fun _ => nofun, ?_⟩
        rintro _ ⟨⟩
        rfl

/-- The object of a template is one term. If it is a name, then all values of the row are escaped;
if it is a literal, then they are verbatim exactly if the map makes literals only, or no value needs
an escape. What the context names is verbatim anyhow. -/
theorem literal_verbatim_iff {pom : PredicateObjectMap} {text : String} {s t : RunState σ}
    {terms : List Term} (tidy : Tidy s) (object : pom.object = .template text)
    (uncut : pom.delimiters = [])
    (made : outcome (objectTerms config pom node ctx) s = (.ok (some terms), t)) :
    ∃ term, terms = [term] ∧
      (∀ iri, term = .iri iri →
        Spliced config node ctx percentEscape s.draws (Template.parts text) iri.toList) ∧
      ∀ l, term = .literal l →
        (pom.isLiteralOnly = false →
          Spliced config node ctx percentEscape s.draws (Template.parts text) l.value.toList) ∧
        (Spliced config node ctx id s.draws (Template.parts text) l.value.toList ↔
          pom.isLiteralOnly = true ∨ PlainValues config node ctx (Template.parts text)) := by
  obtain ⟨value, u, tidy, rfl, spliced⟩ := objectTerms_of_template tidy object uncut made
  obtain ⟨iris, literals⟩ := kind_of_termOf pom value tidy
  refine ⟨_, rfl, fun iri name => ?_, fun l literal => ?_⟩
  · obtain ⟨rfl, open_⟩ := iris iri name
    simpa [open_] using spliced
  · rw [literals l literal]
    cases only : pom.isLiteralOnly with
    | false =>
      have escaped : Spliced config node ctx percentEscape s.draws (Template.parts text)
          value.toList := by simpa [only] using spliced
      simpa [escaped] using escaped.verbatim_iff
    | true =>
      have verbatim : Spliced config node ctx id s.draws (Template.parts text) value.toList := by
        rw [only] at spliced
        exact spliced
      simp [verbatim]

/-- Titles by a template, in a language or in none. -/
def titleBy (language : Option String) : PredicateObjectMap where
  predicate := "title"
  object := .template "\x7btitle\x7d"
  language := language

def mobyDick : Node := .binding [("title", .literal "Moby Dick")]

theorem title_in_language_verbatim :
    (outcome (objectTerms {} (titleBy (some "en")) mobyDick .empty) (start {} ())).1 =
      .ok (some [.tagged "Moby Dick" "en"]) ∧
    Spliced {} mobyDick .empty id [] (Template.parts "\x7btitle\x7d") "Moby Dick".toList := by
  have made : outcome (objectTerms {} (titleBy (some "en")) mobyDick .empty) (start {} ()) =
      (.ok (some [.tagged "Moby Dick" "en"]), start {} ()) := by with_unfolding_all rfl
  have tidy : Tidy (start {} ()) := fun _ _ none => by cases none
  obtain ⟨term, same, -, literal⟩ := literal_verbatim_iff tidy rfl rfl made
  obtain rfl := (List.singleton_inj.mp same).symm
  exact ⟨congrArg Prod.fst made, (literal _ rfl).2.mpr (.inl rfl)⟩

/-- The same title in no language is a literal too, but escaped as if it were part of a name. -/
theorem title_in_no_language_escaped :
    (outcome (objectTerms {} (titleBy none) mobyDick .empty) (start {} ())).1 =
      .ok (some [.string "Moby%20Dick"]) ∧
    ¬ Spliced {} mobyDick .empty id [] (Template.parts "\x7btitle\x7d") "Moby%20Dick".toList := by
  refine ⟨by decide +kernel, fun spliced => ?_⟩
  have hole : Template.parts "\x7btitle\x7d" = [.hole "title"] := by decide +kernel
  have title : mobyDick.first? ({} : Config).namespaces "title" = .ok (some "Moby Dick") := by
    decide +kernel
  rw [hole] at spliced
  generalize text : "Moby%20Dick".toList = cs at spliced
  cases spliced with
  | named named => cases named
  | row _ found later =>
    cases later
    obtain rfl := Option.some.inj (Except.ok.inj (title.symm.trans found))
    exact absurd text (by decide)

end Engine
end CatalogGraph
