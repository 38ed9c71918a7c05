import CatalogGraph.Proofs.PercentCodes
import CatalogGraph.Proofs.TwinRuns

/-!
Injective subjects: escaped values hold no slash, so where a template has one between the holes that
are left to the row, the text that is made of it tells which values the row gave.
-/
namespace CatalogGraph.Engine
open Template Text
variable {σ : Type} {config : Config} {node node' : Node} {ctx : Context}
  {write : String → String} {parts : List Part} {cs cs' : List Char} {draws draws' : Draws}

/-- Between a hole that is left to the row and the next such hole stands a slash of the template.
Holes that the context names may stand between the two as well. -/
def SlashesBetween (ctx : Context) (parts : List Part) : Prop :=
  ∀ before name between next after,
    parts = before ++ .hole name :: (between ++ .hole next :: after) →
    Entries.get? name ctx = none → Entries.get? next ctx = none →
    (∀ named, .hole named ∈ between → Entries.get? named ctx ≠ none) → .char '/' ∈ between

/-- The context draws nothing for a hole. -/
def Undrawn (ctx : Context) (parts : List Part) : Prop :=
  ∀ name, .hole name ∈ parts → ¬ ctx.Draws name

/-- A row has a value for each hole that is left to it. -/
def HasValues (config : Config) (node : Node) (ctx : Context) (parts : List Part) : Prop :=
  ∀ name, .hole name ∈ parts → Entries.get? name ctx = none →
    ∃ value, node.first? config.namespaces name = .ok (some value)

/-- Two rows have the same first value for each hole that is left to them. -/
def SameValues (config : Config) (node node' : Node) (ctx : Context) (parts : List Part) : Prop :=
  ∀ name, .hole name ∈ parts → Entries.get? name ctx = none →
    node.first? config.namespaces name = node'.first? config.namespaces name

theorem SlashesBetween.tail {part : Part} (slashes : SlashesBetween ctx (part :: parts)) :
    SlashesBetween ctx parts := by
  rintro before name between next after rfl
  exact slashes (part :: before) name between next after rfl

theorem Undrawn.tail {part : Part} (undrawn : Undrawn ctx (part :: parts)) : Undrawn ctx parts :=
  fun name mem => undrawn name (List.mem_cons_of_mem _ mem)

theorem HasValues.tail {part : Part} (has : HasValues config node ctx (part :: parts)) :
    HasValues config node ctx parts :=
  fun name mem => has name (List.mem_cons_of_mem _ mem)

/-! ### What a template makes of a row -/

theorem text_of_undrawn {name : String} {value : ContextValue} (undrawn : ¬ ctx.Draws name)
    (named : Entries.get? name ctx = some value) : ∃ text, value = .text text := by
  cases value with
  | text text => exact ⟨text, rfl⟩
  | generator g => exact absurd ⟨g, named⟩ undrawn

/-- A hole that draws nothing is filled if the context names it or the row has a value for it. -/
theorem exists_resolveHole {name : String} (undrawn : ¬ ctx.Draws name)
    (has : Entries.get? name ctx = none →
      ∃ value, node.first? config.namespaces name = .ok (some value)) (s : RunState σ) :
    ∃ value, outcome (resolveHole config node ctx true name) s = (.ok (some value), s) := by
  cases named : Entries.get? name ctx with
  | some value =>
    obtain ⟨text, rfl⟩ := text_of_undrawn undrawn named
    refine ⟨text, ?_⟩
    simp [resolveHole, resolveNamed, outcome_bind, Context.resolve, named, ContextValue.resolve]
  | none =>
    obtain ⟨value, found⟩ := has named
    refine ⟨percentEscape value, ?_⟩
    simp [resolveHole, resolveNamed, outcome_bind, Context.resolve, named, found]
    rfl

theorem exists_fill (undrawn : Undrawn ctx parts)
    (has : HasValues config node ctx parts) (s : RunState σ) :
    ∃ cs, outcome (fill (resolveHole config node ctx true) parts) s = (.ok (.ok cs), s) := by
  induction parts with
  | nil => exact ⟨[], rfl⟩
  | cons part rest ih =>
    obtain ⟨cs, later⟩ := ih undrawn.tail has.tail
    cases part with
    | char c => exact ⟨c :: cs, by rw [fill, outcome_bind_ok later]; rfl⟩
    | hole name =>
      obtain ⟨value, first⟩ := exists_resolveHole (undrawn name List.mem_cons_self)
        (has name List.mem_cons_self) s
      refine ⟨value.toList ++ cs, ?_⟩
      rw [fill, outcome_bind_ok first]
      dsimp only
      rw [outcome_bind_ok later]
      rfl

/-- A map with a template makes a name of the text with the values of the row in it. -/
theorem exists_mintSubject {m : TriplesMap} {subject : SubjectMap} {text : String}
    (maps : m.subjectMap = some subject) (template : subject.term = some (.template text))
    (named : subject.termType ≠ .blank)
    (undrawn : Undrawn ctx (Template.parts text))
    (has : HasValues config node ctx (Template.parts text)) (s : RunState σ) :
    ∃ iri, outcome (mintSubject config m node ctx) s = (.ok (some (.iri iri)), s) ∧
      Spliced config node ctx percentEscape s.draws (Template.parts text) iri.toList := by
  obtain ⟨cs, filled⟩ := exists_fill undrawn has s
  have expanded : outcome (expand (resolveHole config node ctx true) text) s =
      (.ok (.ok (String.ofList cs)), s) := by
    rw [expand, outcome_bind_ok filled]
    rfl
  refine ⟨String.ofList cs, ?_, ?_⟩
  · simp only [mintSubject, maps, template]
    rw [outcome_bind_ok expanded]
    simp only [subjectOf_eq_pure named, pure_bind, outcome_pure]
  · rw [String.toList_ofList]
    exact spliced_of_fill filled

/-! ### What the text tells of the row -/

theorem append_inj_of_notMem {c : Char} {xs ys : List Char} (free : c ∉ cs) (free' : c ∉ cs')
    (same : cs ++ c :: xs = cs' ++ c :: ys) : cs = cs' ∧ xs = ys := by
  have front {ds : List Char} (free : c ∉ ds) (rest : List Char) :
      (ds ++ c :: rest).takeWhile (· ≠ c) = ds := by
    have others : ∀ d ∈ ds, decide (d ≠ c) = true :=
      fun d mem => decide_eq_true (ne_of_mem_of_not_mem mem free)
    rw [List.takeWhile_append_of_pos others]
    simp
  have fronts := congrArg (List.takeWhile (· ≠ c)) same
  rw [front free, front free'] at fronts
  subst fronts
  exact ⟨rfl, (List.cons.inj (List.append_cancel_left same)).2⟩

/-- What two rows make of a template begins in the same way, up to the first hole that is left to
the row. -/
theorem Spliced.common_start (undrawn : Undrawn ctx parts)
    (spliced : Spliced config node ctx write draws parts cs)
    (spliced' : Spliced config node' ctx write draws' parts cs') :
    ∃ start rest rest', cs = start ++ rest ∧ cs' = start ++ rest' ∧
      (rest = rest' ∨ ∃ between next after, parts = between ++ .hole next :: after ∧
        Entries.get? next ctx = none ∧
        (∀ named, .hole named ∈ between → Entries.get? named ctx ≠ none) ∧
        ∀ c, .char c ∈ between → c ∈ start) := by
  induction spliced generalizing draws' cs' with
  | nil =>
    cases spliced'
    exact ⟨[], [], [], rfl, rfl, .inl rfl⟩
  | @char _ _ _ c _ ih =>
    obtain _ | ⟨_, later⟩ := spliced'
    obtain ⟨start, rest, rest', rfl, rfl, parted⟩ :=
      ih undrawn.tail later
    refine ⟨c :: start, rest, rest', rfl, rfl, parted.imp_right ?_⟩
    rintro ⟨between, next, after, rfl, unnamed, names, chars⟩
    refine ⟨.char c :: between, next, after, rfl, unnamed, ?_, ?_⟩
    · simpa using names
    · simpa using fun d mem => .inr (chars d mem)
  | @named _ name value _ _ named _ ih =>
    obtain ⟨text, rfl⟩ := text_of_undrawn (undrawn name List.mem_cons_self) named
    rcases spliced' with _ | _ | ⟨named', later⟩ | ⟨unnamed, _, _⟩
    · obtain rfl := Option.some.inj (named.symm.trans named')
      obtain ⟨start, rest, rest', same, same', parted⟩ :=
        ih undrawn.tail later
      refine ⟨text.toList ++ start, rest, rest', by simp [same, ContextValue.resolve],
        by simp [same', ContextValue.resolve], parted.imp_right ?_⟩
      rintro ⟨between, next, after, rfl, unnamed, names, chars⟩
      refine ⟨.hole name :: between, next, after, rfl, unnamed, ?_, ?_⟩
      · simpa [named] using names
      · simpa using fun d mem => .inr (chars d mem)
    · simp [unnamed] at named
  | @row _ name _ _ _ unnamed =>
    exact ⟨[], _, _, rfl, rfl, .inr ⟨[], name, _, rfl, unnamed, by simp, by simp⟩⟩

/-- A value is told from what is behind it, if a slash is before the next one. -/
theorem Spliced.value_inj {name value value' : String}
    (undrawn : Undrawn ctx parts)
    (slashes : SlashesBetween ctx (.hole name :: parts)) (unnamed : Entries.get? name ctx = none)
    (spliced : Spliced config node ctx write draws parts cs)
    (spliced' : Spliced config node' ctx write draws' parts cs')
    (same : (percentEscape value).toList ++ cs = (percentEscape value').toList ++ cs') :
    value = value' ∧ cs = cs' := by
  obtain ⟨start, rest, rest', rfl, rfl, parted⟩ := spliced.common_start undrawn spliced'
  have values : (percentEscape value).toList = (percentEscape value').toList := by
    rcases parted with rfl | ⟨between, next, after, whole, unnamed', names, chars⟩
    · exact List.append_cancel_right same
    · -- the slash is in the part of the text that both rows share
      have slash := slashes [] name between next after (by rw [whole]; rfl) unnamed unnamed' names
      obtain ⟨early, late, rfl, free⟩ := List.eq_append_cons_of_mem (chars '/' slash)
      have before (value : String) : '/' ∉ (percentEscape value).toList ++ early := by
        rw [List.mem_append, not_or]
        exact ⟨(isSegment_percentEscape value).slash_notMem, free⟩
      have fronts := append_inj_of_notMem (before value) (before value') (by simpa using same)
      exact List.append_cancel_right fronts.1
  rw [values] at same
  exact ⟨percentEscape_inj.mp (String.toList_inj.mp values), List.append_cancel_left same⟩

theorem sameValues_cons {part : Part} :
    SameValues config node node' ctx (part :: parts) ↔
      (∀ name, part = .hole name → Entries.get? name ctx = none →
        node.first? config.namespaces name = node'.first? config.namespaces name) ∧
      SameValues config node node' ctx parts := by
  simp only [SameValues, List.mem_cons, or_imp, forall_and, eq_comm]

/-- Of what a template makes of two rows it can be told whether they have the same values. -/
theorem Spliced.eq_iff_sameValues (undrawn : Undrawn ctx parts)
    (slashes : SlashesBetween ctx parts)
    (spliced : Spliced config node ctx percentEscape draws parts cs)
    (spliced' : Spliced config node' ctx percentEscape draws' parts cs') :
    cs = cs' ↔ SameValues config node node' ctx parts := by
  induction spliced generalizing draws' cs' with
  | nil =>
    cases spliced'
    exact ⟨fun _ _ none => by simp at none, fun _ => rfl⟩
  | char c _ ih =>
    obtain _ | ⟨_, later⟩ := spliced'
    have rest := ih undrawn.tail slashes.tail later
    rw [List.cons_inj_right, rest, sameValues_cons]
    simp
  | @named _ name value _ _ named _ ih =>
    obtain ⟨text, rfl⟩ := text_of_undrawn (undrawn name List.mem_cons_self) named
    rcases spliced' with _ | _ | ⟨named', later⟩ | ⟨unnamed, _, _⟩
    · obtain rfl := Option.some.inj (named.symm.trans named')
      have rest := ih undrawn.tail slashes.tail later
      simp only [ContextValue.resolve, List.append_cancel_left_eq, rest, sameValues_cons]
      simp [named]
    · simp [unnamed] at named
  | @row _ name value _ _ unnamed found later ih =>
    rcases spliced' with _ | _ | ⟨named, _⟩ | ⟨_, found', later'⟩
    · simp [unnamed] at named
    · have rest := ih undrawn.tail slashes.tail later'
      rw [sameValues_cons]
      constructor
      · intro same
        obtain ⟨rfl, rest'⟩ := later.value_inj undrawn.tail slashes unnamed later' same
        refine ⟨?_, rest.mp rest'⟩
        rintro _ ⟨⟩ -
        rw [found, found']
      · rintro ⟨first, others⟩
        have values := first name rfl unnamed
        rw [found, found'] at values
        rw [rest.mpr others, Option.some.inj (Except.ok.inj values)]

/-- Escaped texts are read back, and are segments. So a template that has a slash between the holes
that are left to the row makes one name of two rows exactly if they have the same values for these
holes, where the context draws nothing. -/
theorem subjects_equal_iff_sameValues :
    (∀ value, percentDecode? (percentEscape value) = some value ∧
      IsSegment (percentEscape value).toList) ∧
    ∀ (config : Config) (m : TriplesMap) (subject : SubjectMap) (text : String) (ctx : Context)
      (node node' : Node) (s s' : RunState σ),
      m.subjectMap = some subject → subject.term = some (.template text) →
      subject.termType ≠ .blank → SlashesBetween ctx (Template.parts text) →
      Undrawn ctx (Template.parts text) →
      HasValues config node ctx (Template.parts text) →
      HasValues config node' ctx (Template.parts text) →
      ∃ iri iri', outcome (mintSubject config m node ctx) s = (.ok (some (.iri iri)), s) ∧
        outcome (mintSubject config m node' ctx) s' = (.ok (some (.iri iri')), s') ∧
        (iri = iri' ↔ SameValues config node node' ctx (Template.parts text)) := by
  refine ⟨fun value => ⟨percentDecode?_percentEscape value, isSegment_percentEscape value⟩, ?_⟩
  intro config m subject text ctx node node' s s' maps template named slashes undrawn has has'
  obtain ⟨iri, made, spliced⟩ := exists_mintSubject maps template named undrawn has s
  obtain ⟨iri', made', spliced'⟩ := exists_mintSubject maps template named undrawn has' s'
  refine ⟨iri, iri', made, made', ?_⟩
  rw [← spliced.eq_iff_sameValues undrawn slashes spliced', String.toList_inj]

/-- Names by a shelf and a place on it, behind a base that the context names. -/
def placeTemplate : String := "\x7bbase\x7d/\x7bshelf\x7d/\x7bplace\x7d"

def placeMap : TriplesMap where
  iri := "places"
  subjectMap := some { term := some (.template placeTemplate) }

def placeContext : Context := Context.empty.set "base" "http://library.org"

def atPlace (shelf place : String) : Node :=
  .binding [("place", .literal place), ("shelf", .literal shelf)]

/-- Slashes in the values are escaped, so that they are not taken for the one between them. -/
theorem places_told_apart :
    (outcome (mintSubject {} placeMap (atPlace "a/b" "c") placeContext) (start {} ())).1 =
      .ok (some (.iri "http://library.org/a%2Fb/c")) ∧
    (outcome (mintSubject {} placeMap (atPlace "a" "b/c") placeContext) (start {} ())).1 =
      .ok (some (.iri "http://library.org/a/b%2Fc")) ∧
    ¬ SameValues {} (atPlace "a/b" "c") (atPlace "a" "b/c") placeContext
      (Template.parts placeTemplate) := by
  have first : (outcome (mintSubject {} placeMap (atPlace "a/b" "c") placeContext)
      (start {} ())).1 = .ok (some (.iri "http://library.org/a%2Fb/c")) := by decide +kernel
  have second : (outcome (mintSubject {} placeMap (atPlace "a" "b/c") placeContext)
      (start {} ())).1 = .ok (some (.iri "http://library.org/a/b%2Fc")) := by decide +kernel
  have parts : Template.parts placeTemplate =
      [.hole "base", .char '/', .hole "shelf", .char '/', .hole "place"] := by decide +kernel
  have base : Entries.get? "base" placeContext = some (.text "http://library.org") := rfl
  have slashes : SlashesBetween placeContext (Template.parts placeTemplate) := by
    rw [parts]
    intro before name between next after whole unnamed _ _
    rcases before with _ | ⟨_, _ | ⟨_, _ | ⟨_, _ | ⟨_, _ | ⟨_, before⟩⟩⟩⟩⟩
    · obtain ⟨rfl, -⟩ : "base" = name ∧ _ := by simpa using whole
      simp [base] at unnamed
    · simp at whole
    · rcases between with _ | ⟨part, between⟩
      · simp at whole
      · obtain ⟨-, -, -, rfl, -⟩ : _ ∧ _ ∧ _ ∧ .char '/' = part ∧ _ := by simpa using whole
        exact List.mem_cons_self
    all_goals simp at whole
  have undrawn : Undrawn placeContext (Template.parts placeTemplate) := by
    rw [parts]
    rintro name mem ⟨g, found⟩
    obtain rfl | rfl | rfl : name = "base" ∨ name = "shelf" ∨ name = "place" := by simpa using mem
    all_goals cases found
  have has (node : Node) (shelf : ∃ v, node.first? ({} : Config).namespaces "shelf" = .ok (some v))
      (place : ∃ v, node.first? ({} : Config).namespaces "place" = .ok (some v)) :
      HasValues {} node placeContext (Template.parts placeTemplate) := by
    rw [parts]
    intro name mem unnamed
    obtain rfl | rfl | rfl : name = "base" ∨ name = "shelf" ∨ name = "place" := by simpa using mem
    · simp [base] at unnamed
    · exact shelf
    · exact place
  obtain ⟨iri, iri', made, made', same_iff⟩ := subjects_equal_iff_sameValues.2 {} placeMap _ _
    placeContext _ _ (start {} ()) (start {} ()) rfl rfl nofun slashes undrawn
    (has (atPlace "a/b" "c") ⟨"a/b", by decide +kernel⟩ ⟨"c", by decide +kernel⟩)
    (has (atPlace "a" "b/c") ⟨"a", by decide +kernel⟩ ⟨"b/c", by decide +kernel⟩)
  refine ⟨first, second, fun values => ?_⟩
  rw [made] at first
  rw [made'] at second
  cases first
  cases second
  exact absurd (same_iff.mpr values) (by decide)

end CatalogGraph.Engine
