import CatalogGraph.Identity.Resolve
import Mathlib.Data.List.Nodup

/-!
Decided names: putting names in place of transient entities one after another is the same as
putting all of them in place at once, since no name is transient.
-/
namespace CatalogGraph.Identity

/-- What stands in a graph in place of a term once identities are asserted. -/
def replacement (assertions : List Assertion) (term : Term) : Term :=
  ((assertions.find? (·.transient == term)).map (·.canonical)).getD term

/-- The choice of a name for an entity with a label. -/
structure Decision where
  entity : Term
  label : String
  choice : Choice
deriving DecidableEq, Repr

namespace Decision

def assertion (d : Decision) : Assertion :=
  { transient := d.entity, canonical := d.choice.canonical, label := d.label,
    resolution := d.choice.resolution }

/-- The statement that gives the chosen name the label, if the choice asks for one. -/
def text? (d : Decision) : Option Triple :=
  (d.choice.labelPredicate? d.label).map fun predicate =>
    ⟨d.choice.canonical, .iri predicate, .string d.label⟩

theorem text?_eq_some_iff {d : Decision} {t : Triple} : d.text? = some t ↔
    (d.assertion.resolution = .minted ∧
      t = ⟨d.assertion.canonical, .iri Vocabulary.rdfsLabel, .string d.label⟩) ∨
    ∃ candidate, d.choice = .known candidate ∧ candidate.label ≠ d.label ∧
      t = ⟨.iri candidate.iri, .iri Vocabulary.altLabel, .string d.label⟩ := by
  rcases d with ⟨entity, label, candidate | iri⟩
  · by_cases same : candidate.label = label
    · simp [text?, assertion, Choice.labelPredicate?, Choice.resolution, same]
    · simp [text?, assertion, Choice.labelPredicate?, Choice.resolution, Choice.canonical, same,
        Ne.symm same, eq_comm]
  · simp [text?, assertion, Choice.labelPredicate?, Choice.resolution, Choice.canonical, eq_comm]

theorem text?_subject {d : Decision} {t : Triple} (text : d.text? = some t) :
    t.subject = d.assertion.canonical ∧ ∃ content, t.object = .literal content := by
  obtain ⟨predicate, _, rfl⟩ := Option.map_eq_some_iff.mp text
  exact ⟨rfl, _, rfl⟩

end Decision

theorem mem_addText {g : Graph} {subject : Term} {predicate value : String} {t : Triple} :
    t ∈ (addText g subject predicate value).triples ↔
      t ∈ g.triples ∨ t = ⟨subject, .iri predicate, .string value⟩ := by
  unfold addText
  split
  next known =>
    have known : (⟨subject, .iri predicate, .string value⟩ : Triple) ∈ g.triples := by
      simpa [Graph.contains] using known
    constructor
    · exact .inl
    · rintro (ht | rfl)
      · exact ht
      · exact known
  next => simp [Graph.add]

/-- After a decision the graph has the name in place of the entity, and the name has its label. -/
theorem mem_adopt {g : Graph} {d : Decision} {t : Triple} :
    t ∈ (adopt g d.entity d.label d.choice).triples ↔
      (∃ u ∈ g.triples, t = u.mapNodes (Graph.substitute d.entity d.choice.canonical)) ∨
        d.text? = some t := by
  unfold adopt Decision.text?
  cases d.choice.labelPredicate? d.label with
  | none => simp [Graph.replaceTerm, eq_comm]
  | some predicate => simp [mem_addText, Graph.replaceTerm, eq_comm]

theorem isSome_find?_iff {assertions : List Assertion} {term : Term} :
    (assertions.find? (·.transient == term)).isSome ↔ term ∈ assertions.map (·.transient) := by
  simp [List.find?_isSome]

theorem replacement_of_mem {assertions : List Assertion} {term : Term}
    (asserted : term ∈ assertions.map (·.transient)) :
    ∃ a ∈ assertions, replacement assertions term = a.canonical := by
  obtain ⟨a, found⟩ := Option.isSome_iff_exists.mp (isSome_find?_iff.mpr asserted)
  exact ⟨a, List.mem_of_find?_eq_some found, by simp [replacement, found]⟩

theorem replacement_of_not_mem {assertions : List Assertion} {term : Term}
    (other : term ∉ assertions.map (·.transient)) : replacement assertions term = term := by
  rw [← isSome_find?_iff, Option.not_isSome_iff_eq_none] at other
  simp [replacement, other]

/-- A further replacement after those before is one more replacement at once. -/
theorem substitute_replacement {assertions : List Assertion} {a : Assertion}
    (apart : ∀ b ∈ assertions, b.canonical ≠ a.transient)
    (fresh : a.transient ∉ assertions.map (·.transient)) (term : Term) :
    Graph.substitute a.transient a.canonical (replacement assertions term) =
      replacement (assertions ++ [a]) term := by
  by_cases asserted : term ∈ assertions.map (·.transient)
  -- A term that is replaced before has become a name, which the further replacement leaves.
  · obtain ⟨b, hb, same⟩ := replacement_of_mem asserted
    have kept : replacement (assertions ++ [a]) term = replacement assertions term := by
      obtain ⟨first, found⟩ := Option.isSome_iff_exists.mp (isSome_find?_iff.mpr asserted)
      simp [replacement, List.find?_append, found]
    rw [kept, same, Graph.substitute, if_neg (apart b hb)]
  · rw [replacement_of_not_mem asserted, Graph.substitute]
    by_cases same : term = a.transient
    · subst same
      rw [← isSome_find?_iff, Option.not_isSome_iff_eq_none] at fresh
      simp [replacement, List.find?_append, fresh]
    · rw [if_neg same, replacement_of_not_mem]
      simpa [same] using asserted

variable {settings : Settings}

/-- The entities decided on are transient, each is decided on once, and their names are not
transient. -/
structure Decided (settings : Settings) (decisions : List Decision) : Prop where
  transient : ∀ d ∈ decisions, settings.isTransient d.entity
  named : ∀ d ∈ decisions, settings.isTransient d.choice.canonical = false
  distinct : (decisions.map (·.entity)).Nodup

/-- The statements `after` are those before with the decided names in place of the entities, and
those that give the names their labels. -/
def Renamed (before : List Triple) (decisions : List Decision) (after : List Triple) : Prop :=
  ∀ t, t ∈ after ↔
    (∃ u ∈ before, t = u.mapNodes (replacement (decisions.map (·.assertion)))) ∨
      ∃ d ∈ decisions, d.text? = some t

theorem Settings.ne_of_isTransient {a b : Term} (transient : settings.isTransient a)
    (other : settings.isTransient b = false) : b ≠ a := by
  rintro rfl
  simp [transient] at other

theorem map_transient (decisions : List Decision) :
    (decisions.map (·.assertion)).map (·.transient) = decisions.map (·.entity) := by
  simp [Decision.assertion, Function.comp_def]

theorem Decided.concat {decisions : List Decision} (decided : Decided settings decisions)
    {d : Decision} (transient : settings.isTransient d.entity)
    (named : settings.isTransient d.choice.canonical = false)
    (fresh : d.entity ∉ decisions.map (·.entity)) : Decided settings (decisions ++ [d]) := by
  refine ⟨?_, ?_, ?_⟩
  · intro e he
    rcases List.mem_append.mp he with he | he
    · exact decided.transient e he
    · obtain rfl : e = d := by simpa using he
      exact transient
  · intro e he
    rcases List.mem_append.mp he with he | he
    · exact decided.named e he
    · obtain rfl : e = d := by simpa using he
      exact named
  · rw [List.map_append, List.nodup_append]
    refine ⟨decided.distinct, by simp, ?_⟩
    intro a ha b hb same
    obtain rfl : b = d.entity := by simpa using hb
    exact fresh (same ▸ ha)

/-- A text about a name stays as it is when a transient entity gets its name. -/
theorem Decided.text_kept {decisions : List Decision} (decided : Decided settings decisions)
    {entity canonical : Term} (transient : settings.isTransient entity) {d : Decision}
    (hd : d ∈ decisions) {t : Triple} (text : d.text? = some t) :
    t.mapNodes (Graph.substitute entity canonical) = t := by
  obtain ⟨subject, content, object⟩ := Decision.text?_subject text
  have apart : t.subject ≠ entity :=
    subject ▸ Settings.ne_of_isTransient transient (decided.named d hd)
  have apart' : t.object ≠ entity :=
    object ▸ Settings.ne_of_isTransient transient rfl
  simp [Triple.mapNodes, Graph.substitute, apart, apart']

theorem Renamed.adopt {before : List Triple} {decisions : List Decision} {g : Graph}
    (decided : Decided settings decisions) (renamed : Renamed before decisions g.triples)
    {d : Decision} (transient : settings.isTransient d.entity)
    (fresh : d.entity ∉ decisions.map (·.entity)) :
    Renamed before (decisions ++ [d]) (adopt g d.entity d.label d.choice).triples := by
  have apart : ∀ b ∈ decisions.map (·.assertion), b.canonical ≠ d.assertion.transient := by
    intro b hb
    obtain ⟨e, he, rfl⟩ := List.mem_map.mp hb
    exact Settings.ne_of_isTransient transient (decided.named e he)
  have once (u : Triple) :
      (u.mapNodes (replacement (decisions.map (·.assertion)))).mapNodes
        (Graph.substitute d.entity d.choice.canonical) =
      u.mapNodes (replacement ((decisions ++ [d]).map (·.assertion))) := by
    have step := substitute_replacement apart (by rw [map_transient]; exact fresh)
    simp only [Triple.mapNodes, List.map_append, List.map_cons, List.map_nil, ← step]
    rfl
  intro t
  rw [mem_adopt]
  constructor
  · rintro (⟨u, hu, rfl⟩ | text)
    · rcases (renamed u).mp hu with ⟨v, hv, rfl⟩ | ⟨e, he, text⟩
      · exact .inl ⟨v, hv, once v⟩
      · rw [decided.text_kept transient he text]
        exact .inr ⟨e, by simp [he], text⟩
    · exact .inr ⟨d, by simp, text⟩
  · rintro (⟨v, hv, rfl⟩ | ⟨e, he, text⟩)
    · exact .inl ⟨_, (renamed _).mpr (.inl ⟨v, hv, rfl⟩), (once v).symm⟩
    · rcases List.mem_append.mp he with he | he
      · refine .inl ⟨t, (renamed t).mpr (.inr ⟨e, he, text⟩), ?_⟩
        exact (decided.text_kept transient he text).symm
      · obtain rfl : e = d := by simpa using he
        exact .inr text

/-- No entity that was decided on is left. -/
theorem Renamed.gone {before after : List Triple} {decisions : List Decision}
    (decided : Decided settings decisions) (renamed : Renamed before decisions after)
    {t : Triple} (ht : t ∈ after) {d : Decision} (hd : d ∈ decisions) :
    t.subject ≠ d.entity ∧ t.object ≠ d.entity := by
  have replaced (term : Term) : replacement (decisions.map (·.assertion)) term ≠ d.entity := by
    by_cases asserted : term ∈ (decisions.map (·.assertion)).map (·.transient)
    · obtain ⟨a, ha, same⟩ := replacement_of_mem asserted
      obtain ⟨e, he, rfl⟩ := List.mem_map.mp ha
      rw [same]
      exact Settings.ne_of_isTransient (decided.transient d hd) (decided.named e he)
    · rw [replacement_of_not_mem asserted]
      rintro rfl
      rw [map_transient] at asserted
      exact asserted (List.mem_map_of_mem hd)
  rcases (renamed t).mp ht with ⟨u, _, rfl⟩ | ⟨e, he, text⟩
  · exact ⟨replaced u.subject, replaced u.object⟩
  · obtain ⟨subject, content, object⟩ := Decision.text?_subject text
    rw [subject, object]
    exact ⟨Settings.ne_of_isTransient (decided.transient d hd) (decided.named e he),
      Settings.ne_of_isTransient (decided.transient d hd) rfl⟩

end CatalogGraph.Identity
