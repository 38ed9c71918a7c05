import CatalogGraph.Proofs.DecidedNames
import CatalogGraph.Proofs.GraphStatements

/-!
Passes over a graph: the names that a pass decides on are put in place of the entities in turn, and
the graph that comes out has all of them in place at once.
-/
namespace CatalogGraph.Identity
variable {σ : Type}

/-- The name that an entity gets, unless there is an error. -/
def decision? (settings : Settings) (source : CandidateSource σ) (cls : String) (entity : Term)
    (label : String) (s : State σ) : Option Decision :=
  match (choose settings source cls entity label s).1 with
  | .ok choice => some { entity, label, choice }
  | .error _ => none

/-- The names that entities of a class get in turn. -/
def eachDecision (settings : Settings) (source : CandidateSource σ) (cls : String) :
    List (Term × String) → State σ → List Decision
  | [], _ => []
  | (entity, label) :: rest, s =>
    (decision? settings source cls entity label s).toList ++
      eachDecision settings source cls rest (resolveOrMint settings source cls entity label s).2

/-- The names that the entities of each class get in turn. -/
def passDecisions (settings : Settings) (source : CandidateSource σ) :
    List String → State σ → List Decision
  | [], _ => []
  | cls :: rest, s =>
    eachDecision settings source cls (labelledEntities settings s.graph cls) s ++
      passDecisions settings source rest (resolveClass settings source {} s cls).2

section Entities
variable {settings : Settings} {source : CandidateSource σ} {cls : String} {s : State σ}

theorem mem_labelledEntities {g : Graph} {entity : Term × String}
    (he : entity ∈ labelledEntities settings g cls) :
    entity.1 ∈ g.subjectsWithType cls ∧ settings.isTransient entity.1 := by
  rw [labelledEntities, List.mem_mergeSort, List.mem_filterMap] at he
  obtain ⟨term, ht, found⟩ := he
  obtain ⟨label, _, rfl⟩ := Option.map_eq_some_iff.mp found
  exact List.mem_filter.mp ht

theorem nodup_labelledEntities (settings : Settings) (g : Graph) (cls : String) :
    ((labelledEntities settings g cls).map (·.1)).Nodup := by
  have sorted := (List.mergeSort_perm ((transientEntities settings g cls).filterMap fun entity =>
    (usableLabel? settings g entity).map fun label => (entity, label)) comesBefore).map (·.1)
  refine sorted.nodup_iff.mpr ?_
  have kept : (((transientEntities settings g cls).filterMap fun entity =>
      (usableLabel? settings g entity).map fun label => (entity, label)).map (·.1)).Sublist
        (transientEntities settings g cls) := by
    generalize transientEntities settings g cls = entities
    induction entities with
    | nil => simp
    | cons entity rest ih =>
      rw [List.filterMap_cons]
      cases usableLabel? settings g entity with
      | none => exact ih.cons entity
      | some label => exact ih.cons_cons entity
  exact kept.nodup ((Graph.nodup_firstOccurrences _).filter _)

theorem record_assertions (report : Report) (entity : Term)
    (outcome : Except IdentityError Assertion) :
    (report.record entity outcome).assertions = report.assertions ++ outcome.toOption.toList := by
  rcases outcome with e | ⟨_, _, _, _ | _⟩
  · simp [Report.record, Except.toOption]
  · rfl
  · rfl

theorem resolveOrMint_fst (entity : Term) (label : String) :
    (resolveOrMint settings source cls entity label s).1.toOption =
      (decision? settings source cls entity label s).map (·.assertion) := by
  unfold resolveOrMint decision?
  rcases choose settings source cls entity label s with ⟨_ | choice, index, _⟩ <;> rfl

/-- Where there is an error the graph stays, and otherwise it has the name that was chosen. -/
theorem resolveOrMint_graph (entity : Term) (label : String) :
    (resolveOrMint settings source cls entity label s).2.graph =
      match decision? settings source cls entity label s with
      | none => s.graph
      | some d => adopt s.graph d.entity d.label d.choice := by
  unfold resolveOrMint decision?
  rcases choose settings source cls entity label s with ⟨_ | choice, index, _⟩ <;> rfl

theorem decision?_entity {entity : Term} {label : String} {d : Decision}
    (decided : decision? settings source cls entity label s = some d) : d.entity = entity := by
  unfold decision? at decided
  split at decided
  next => cases decided; rfl
  next => cases decided

theorem resolveEach_assertions (entities : List (Term × String)) (report : Report) (s : State σ) :
    (resolveEach settings source cls entities report s).1.assertions =
      report.assertions ++ (eachDecision settings source cls entities s).map (·.assertion) := by
  induction entities generalizing report s with
  | nil => simp [resolveEach, eachDecision]
  | cons pair rest ih =>
    obtain ⟨entity, label⟩ := pair
    simp only [resolveEach, eachDecision, ih, record_assertions, resolveOrMint_fst]
    cases decision? settings source cls entity label s <;> simp

theorem resolveEach_state (entities : List (Term × String)) (report report' : Report)
    (s : State σ) : (resolveEach settings source cls entities report s).2 =
      (resolveEach settings source cls entities report' s).2 := by
  induction entities generalizing report report' s with
  | nil => rfl
  | cons pair rest ih => exact ih _ _ _

/-- The turn of a class leaves the same state whatever is reported before. -/
theorem resolveClass_state (report report' : Report) (s : State σ) (cls : String) :
    (resolveClass settings source report s cls).2 =
      (resolveClass settings source report' s cls).2 :=
  resolveEach_state _ _ _ s

/-- In turn the entities of a list get their names in a graph in which none of them has one. -/
theorem renamed_resolveEach {before : List Triple} {entities : List (Term × String)}
    (distinct : (entities.map (·.1)).Nodup)
    (transient : ∀ entity ∈ entities, settings.isTransient entity.1) (report : Report)
    {decisions : List Decision} (decided : Decided settings decisions)
    (renamed : Renamed before decisions s.graph.triples)
    (fresh : ∀ entity ∈ entities, entity.1 ∉ decisions.map (·.entity))
    (named : ∀ d ∈ eachDecision settings source cls entities s,
      settings.isTransient d.choice.canonical = false) :
    Decided settings (decisions ++ eachDecision settings source cls entities s) ∧
    Renamed before (decisions ++ eachDecision settings source cls entities s)
      (resolveEach settings source cls entities report s).2.graph.triples := by
  -- The list was made before any of its entities got a name, so what keeps it fresh is not the
  -- graph but that its entities differ from each other and from those decided on before.
  induction entities generalizing decisions report s with
  | nil => simpa [eachDecision, resolveEach] using ⟨decided, renamed⟩
  | cons pair rest ih =>
    obtain ⟨entity, label⟩ := pair
    obtain ⟨apart, distinct⟩ := List.nodup_cons.mp distinct
    have transient' : ∀ pair ∈ rest, settings.isTransient pair.1 :=
      fun pair hm => transient pair (by simp [hm])
    have graph : (resolveOrMint settings source cls entity label s).2.graph = _ :=
      resolveOrMint_graph entity label
    simp only [eachDecision, resolveEach]
    rw [eachDecision] at named
    cases hd : decision? settings source cls entity label s with
    | none =>
      rw [hd] at graph named
      exact ih distinct transient' _ decided (graph ▸ renamed)
        (fun pair hm => fresh pair (by simp [hm])) (by simpa using named)
    | some d =>
      have same := decision?_entity hd
      have fresh' : d.entity ∉ decisions.map (·.entity) := same ▸ fresh (entity, label) (by simp)
      have transient'' : settings.isTransient d.entity := same ▸ transient (entity, label) (by simp)
      rw [hd] at graph named
      have decided' := decided.concat transient'' (named d (by simp)) fresh'
      have renamed' : Renamed before (decisions ++ [d])
          (resolveOrMint settings source cls entity label s).2.graph.triples := by
        rw [graph]
        exact renamed.adopt decided transient'' fresh'
      have later := ih distinct transient' (report.record entity
        (resolveOrMint settings source cls entity label s).1) decided' renamed' ?_ ?_
      · simpa using later
      · intro pair hm
        simp only [List.map_append, List.mem_append, not_or]
        refine ⟨fresh pair (by simp [hm]), ?_⟩
        intro again
        have again : pair.1 = d.entity := by simpa using again
        exact apart (List.mem_map.mpr ⟨pair, hm, again.trans same⟩)
      · exact fun e he => named e (by simp [he])

/-- No entity that has a name is left in the graph, so that the next class begins afresh. -/
theorem renamed_resolveClass {before : List Triple} (report : Report) {decisions : List Decision}
    (decided : Decided settings decisions) (renamed : Renamed before decisions s.graph.triples)
    (named : ∀ d ∈ eachDecision settings source cls (labelledEntities settings s.graph cls) s,
      settings.isTransient d.choice.canonical = false) :
    Decided settings (decisions ++
      eachDecision settings source cls (labelledEntities settings s.graph cls) s) ∧
    Renamed before (decisions ++
      eachDecision settings source cls (labelledEntities settings s.graph cls) s)
      (resolveClass settings source report s cls).2.graph.triples := by
  apply renamed_resolveEach (nodup_labelledEntities settings s.graph cls) _ _ decided renamed _
    named
  · exact fun entity he => (mem_labelledEntities he).2
  · intro entity he again
    obtain ⟨d, hd, same⟩ := List.mem_map.mp again
    have typed := Graph.mem_subjectsWithType.mp (mem_labelledEntities he).1
    exact (renamed.gone decided typed hd).1 same.symm

theorem pass_assertions (classes : List String) (report : Report) (s : State σ) :
    (classes.foldl (fun (report, s) cls => resolveClass settings source report s cls)
      (report, s)).1.assertions =
        report.assertions ++ (passDecisions settings source classes s).map (·.assertion) := by
  induction classes generalizing report s with
  | nil => simp [passDecisions]
  | cons cls rest ih =>
    have first : (resolveClass settings source report s cls).1.assertions = report.assertions ++
        (eachDecision settings source cls (labelledEntities settings s.graph cls) s).map
          (·.assertion) := resolveEach_assertions _ _ s
    rw [List.foldl_cons, passDecisions, resolveClass_state {} report, List.map_append, ← List.append_assoc, ← first]
    exact ih (resolveClass settings source report s cls).1 _

/-- The classes of a pass in turn. -/
theorem renamed_pass {before : List Triple} {classes : List String} (report : Report)
    {decisions : List Decision} (decided : Decided settings decisions)
    (renamed : Renamed before decisions s.graph.triples)
    (named : ∀ d ∈ passDecisions settings source classes s,
      settings.isTransient d.choice.canonical = false) :
    let pass := classes.foldl (fun (report, s) cls => resolveClass settings source report s cls)
      (report, s)
    Decided settings (decisions ++ passDecisions settings source classes s) ∧
    Renamed before (decisions ++ passDecisions settings source classes s) pass.2.graph.triples ∧
    pass.1.assertions =
      report.assertions ++ (passDecisions settings source classes s).map (·.assertion) := by
  rw [← and_assoc]
  refine ⟨?_, pass_assertions classes report s⟩
  induction classes generalizing decisions report s with
  | nil => simpa [passDecisions] using ⟨decided, renamed⟩
  | cons cls rest ih =>
    rw [passDecisions] at named
    obtain ⟨decided', renamed'⟩ := renamed_resolveClass report decided renamed
      fun d hd => named d (List.mem_append_left _ hd)
    rw [resolveClass_state {} report] at named
    have later := ih (resolveClass settings source report s cls).1 decided' renamed'
      fun d hd => named d (List.mem_append_right _ hd)
    rw [passDecisions, resolveClass_state {} report, List.foldl_cons]
    simpa [List.append_assoc] using later

end Entities

/-- A pass asserts an identity for each entity at most once, and in the graph that it gives no such
entity is left: its statements are those of the graph before with the names in place of the entities
all at once, and those that give a new name its label or a candidate another one, each once. -/
theorem deduplicate_replaces_at_once {settings : Settings} {source : CandidateSource σ}
    {classes : List String} {s : State σ} (valid : ∀ cls ∈ classes, isClassName cls)
    (named : ∀ d ∈ passDecisions settings source classes s,
      settings.isTransient d.choice.canonical = false) :
    ∃ report t, deduplicate settings source classes s = (.ok report, t) ∧
      report.assertions = (passDecisions settings source classes s).map (·.assertion) ∧
      (report.assertions.map (·.transient)).Nodup ∧
      (∀ u ∈ t.graph.triples, ∀ a ∈ report.assertions,
        u.subject ≠ a.transient ∧ u.object ≠ a.transient) ∧
      (∀ u, u ∈ t.graph.triples ↔
        (∃ v ∈ s.graph.triples, u = v.mapNodes (replacement report.assertions)) ∨
        (∃ a ∈ report.assertions, a.resolution = .minted ∧
          u = ⟨a.canonical, .iri Vocabulary.rdfsLabel, .string a.label⟩) ∨
        ∃ d ∈ passDecisions settings source classes s, ∃ candidate,
          d.choice = .known candidate ∧ candidate.label ≠ d.label ∧
          u = ⟨.iri candidate.iri, .iri Vocabulary.altLabel, .string d.label⟩) ∧
      t.graph.triples.Nodup := by
  have known : classes.find? (fun cls => !isClassName cls) = none := by
    simpa [List.find?_eq_none] using valid
  have none : Decided settings [] := ⟨by simp, by simp, by simp⟩
  have before : Renamed s.graph.triples [] s.graph.triples := by
    simp [Renamed, replacement, Triple.mapNodes]
  obtain ⟨decided, renamed, assertions⟩ := renamed_pass {} none before named
  rw [deduplicate, known]
  generalize classes.foldl _ _ = pass at renamed assertions
  obtain ⟨report, t⟩ := pass
  simp only [List.nil_append] at decided renamed assertions
  refine ⟨report, _, rfl, assertions, ?_, ?_, ?_, Graph.nodup_retainUnique _⟩
  · rw [assertions, map_transient]
    exact decided.distinct
  · intro u hu a ha
    rw [assertions] at ha
    obtain ⟨d, hd, rfl⟩ := List.mem_map.mp ha
    exact renamed.gone decided (Graph.mem_retainUnique.mp hu) hd
  · intro u
    rw [Graph.mem_retainUnique, renamed u, assertions]
    simp only [Decision.text?_eq_some_iff]
    refine or_congr_right ?_
    constructor
    · rintro ⟨d, hd, ⟨minted, rfl⟩ | text⟩
      · exact .inl ⟨d.assertion, List.mem_map_of_mem hd, minted, rfl⟩
      · exact .inr ⟨d, hd, text⟩
    · rintro (⟨a, ha, minted, rfl⟩ | ⟨d, hd, text⟩)
      · obtain ⟨d, hd, rfl⟩ := List.mem_map.mp ha
        exact ⟨d, hd, .inl ⟨minted, rfl⟩⟩
      · exact ⟨d, hd, .inr text⟩

/-- A service that knows one author. -/
def authors : CandidateSource Unit where
  isCacheable := true
  lookup _ _ s := (.ok [⟨"http://names.org/melville", "Herman Melville (1819-1891)"⟩], s)

/-- A work by two authors, one of whom is known to the service. -/
def authored : State Unit where
  graph := .ofTriples [
    ⟨.iri "work", .iri "by", .blank "a"⟩,
    ⟨.blank "a", .iri Vocabulary.rdfType, .iri "ex:Author"⟩,
    ⟨.blank "a", .iri Vocabulary.rdfsLabel, .string "Herman Melville"⟩,
    ⟨.iri "work", .iri "by", .blank "b"⟩,
    ⟨.blank "b", .iri Vocabulary.rdfType, .iri "ex:Author"⟩,
    ⟨.blank "b", .iri Vocabulary.rdfsLabel, .string "Hawthorne"⟩]
  source := ()

theorem labelledEntities_authored : labelledEntities {} authored.graph "ex:Author" =
    [(.blank "a", "Herman Melville"), (.blank "b", "Hawthorne")] := by
  have found : ((transientEntities {} authored.graph "ex:Author").filterMap fun entity =>
      (usableLabel? {} authored.graph entity).map fun label => (entity, label)) =
        [(.blank "a", "Herman Melville"), (.blank "b", "Hawthorne")] := rfl
  rw [labelledEntities, found]
  exact List.mergeSort_of_pairwise (by decide)

theorem passDecisions_authored : passDecisions {} authors ["ex:Author"] authored =
    [⟨.blank "a", "Herman Melville",
      .known ⟨"http://names.org/melville", "Herman Melville (1819-1891)"⟩⟩,
    ⟨.blank "b", "Hawthorne", .fresh "http://example.org/ex-author/hawthorne"⟩] := by
  rw [passDecisions, labelledEntities_authored]
  rfl

theorem authored_replaces_at_once :
    (∀ cls ∈ ["ex:Author"], isClassName cls) ∧
    (∀ d ∈ passDecisions {} authors ["ex:Author"] authored,
      ({} : Settings).isTransient d.choice.canonical = false) ∧
    ∃ report t, deduplicate {} authors ["ex:Author"] authored = (.ok report, t) ∧
      (report.assertions.map (·.transient)).Nodup ∧ t.graph.triples.Nodup ∧
      ⟨.iri "http://names.org/melville", .iri Vocabulary.altLabel, .string "Herman Melville"⟩ ∈
        t.graph.triples := by
  have valid : ∀ cls ∈ ["ex:Author"], isClassName cls := by decide +kernel
  have named : ∀ d ∈ passDecisions {} authors ["ex:Author"] authored,
      ({} : Settings).isTransient d.choice.canonical = false := by
    rw [passDecisions_authored]
    decide +kernel
  obtain ⟨report, t, result, _, once, _, same, nodup⟩ := deduplicate_replaces_at_once valid named
  refine ⟨valid, named, report, t, result, once, nodup, (same _).mpr (.inr (.inr ?_))⟩
  rw [passDecisions_authored]
  exact ⟨_, List.mem_cons_self, _, rfl, by decide, rfl⟩

end CatalogGraph.Identity
