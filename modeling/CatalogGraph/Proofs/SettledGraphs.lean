import CatalogGraph.Proofs.IdentityPasses

/-!
Settled graphs: once a pass is over, no transient entity of its classes has a label from which a
name could be made, so that a further pass over the same classes finds nothing to do.
-/
namespace CatalogGraph.Identity
variable {σ τ : Type}

/-- A transient entity of a class has a label from which a name can be made. -/
def Awaits (settings : Settings) (g : Graph) (cls : String) (entity : Term) : Prop :=
  entity ∈ transientEntities settings g cls ∧ (usableLabel? settings g entity).isSome

/-- No entity of the class waits for a name. -/
def Settled (settings : Settings) (g : Graph) (cls : String) : Prop :=
  ∀ entity, ¬ Awaits settings g cls entity

section Adoption
variable {settings : Settings} {g : Graph} {entity other : Term} {label cls : String}
  {choice : Choice}

theorem mem_transientEntities :
    other ∈ transientEntities settings g cls ↔
      ⟨other, .iri Vocabulary.rdfType, .iri cls⟩ ∈ g.triples ∧ settings.isTransient other := by
  rw [transientEntities, List.mem_filter, Graph.mem_subjectsWithType]

theorem not_literal_of_transient {term : Term} (transient : settings.isTransient term) :
    term.isLiteral = false := by
  cases term with
  | iri => rfl
  | blank => rfl
  | literal => cases transient

theorem Choice.isLiteral_canonical (choice : Choice) : choice.canonical.isLiteral = false := by
  cases choice <;> rfl

/-- A name in place of an entity keeps what is stated about others, where the name is not the
subject. -/
theorem objects_replaceTerm {canonical : Term} (differ : canonical ≠ other)
    (apart : other ≠ entity) (predicate : Term) :
    (g.replaceTerm entity canonical).objects other predicate =
      (g.objects other predicate).map (Graph.substitute entity canonical) := by
  have subject (t : Term) : (Graph.substitute entity canonical t == other) = (t == other) := by
    rw [Graph.substitute]
    split
    next same =>
      subst same
      rw [beq_false_of_ne differ, beq_false_of_ne (Ne.symm apart)]
    next => rfl
  simp only [Graph.objects, Graph.replaceTerm, List.filter_map, List.map_map]
  congr 1
  refine List.filter_congr fun t _ => ?_
  simp [Triple.mapNodes, subject]

theorem objects_addText {subject : Term} (differ : subject ≠ other)
    (predicate : Term) (p value : String) :
    (addText g subject p value).objects other predicate = g.objects other predicate := by
  unfold addText
  split
  next => rfl
  next => simp [Graph.objects, Graph.add, List.filter_append, differ]

/-- Statements about another entity keep their subjects, as the new name is none of a transient
entity. -/
theorem objects_adopt (transient : settings.isTransient other)
    (named : settings.isTransient choice.canonical = false) (apart : other ≠ entity)
    (predicate : Term) : (adopt g entity label choice).objects other predicate =
      (g.objects other predicate).map (Graph.substitute entity choice.canonical) := by
  have differ : choice.canonical ≠ other := Settings.ne_of_isTransient transient named
  unfold adopt
  cases choice.labelPredicate? label with
  | none => exact objects_replaceTerm differ apart predicate
  | some p =>
    refine Eq.trans ?_ (objects_replaceTerm differ apart predicate)
    exact objects_addText differ predicate p label

/-- Among terms of which only some that are no literals change, the first literal stays. -/
theorem find?_literal_map_substitute {canonical : Term} (source : entity.isLiteral = false)
    (target : canonical.isLiteral = false) (terms : List Term) :
    (terms.map (Graph.substitute entity canonical)).find? (·.isLiteral) =
      terms.find? (·.isLiteral) := by
  induction terms with
  | nil => rfl
  | cons term rest ih =>
    rw [List.map_cons, List.find?_cons, List.find?_cons, ih]
    by_cases same : term = entity
    · subst same
      simp [Graph.substitute, source, target]
    · simp [Graph.substitute, same]

/-- Other transient entities keep their labels. -/
theorem usableLabel?_adopt (transient : settings.isTransient entity)
    (transient' : settings.isTransient other)
    (named : settings.isTransient choice.canonical = false) (apart : other ≠ entity) :
    usableLabel? settings (adopt g entity label choice) other = usableLabel? settings g other := by
  have under (predicate : String) : Settings.labelUnder? (adopt g entity label choice) other
      predicate = Settings.labelUnder? g other predicate := by
    rw [Settings.labelUnder?, Settings.labelUnder?, objects_adopt transient' named apart,
      find?_literal_map_substitute (not_literal_of_transient transient)
        choice.isLiteral_canonical]
  simp only [usableLabel?, Settings.labelOf?, funext under]

/-- No entity begins to wait for a name when another gets one, which no longer waits. -/
theorem awaits_adopt {d : Decision} (transient : settings.isTransient d.entity)
    (named : settings.isTransient d.choice.canonical = false)
    (classless : d.choice.canonical ≠ .iri cls)
    (waits : Awaits settings (adopt g d.entity d.label d.choice) cls other) :
    Awaits settings g cls other ∧ other ≠ d.entity := by
  obtain ⟨member, labelled⟩ := waits
  obtain ⟨stated, transient'⟩ := mem_transientEntities.mp member
  rcases mem_adopt.mp stated with ⟨⟨subject, predicate, object⟩, hm, same⟩ | text
  · simp only [Triple.mapNodes, Triple.mk.injEq] at same
    obtain ⟨hs, rfl, ho⟩ := same
    have subject_ne : subject ≠ d.entity := by
      rintro rfl
      rw [Graph.substitute, if_pos rfl] at hs
      exact Settings.ne_of_isTransient transient' named hs.symm
    have object_ne : object ≠ d.entity := by
      rintro rfl
      rw [Graph.substitute, if_pos rfl] at ho
      exact classless ho.symm
    rw [Graph.substitute, if_neg subject_ne] at hs
    rw [Graph.substitute, if_neg object_ne] at ho
    subst hs ho
    refine ⟨⟨mem_transientEntities.mpr ⟨hm, transient'⟩, ?_⟩, subject_ne⟩
    rwa [usableLabel?_adopt transient transient' named subject_ne] at labelled
  · obtain ⟨subject, -⟩ := Decision.text?_subject text
    exact absurd subject.symm (Settings.ne_of_isTransient transient' named)

end Adoption

/-- A source whose lookups succeed, whatever they are for. -/
def CandidateSource.Answers (source : CandidateSource σ) : Prop :=
  ∀ key label s, ∃ found t, source.lookup key label s = (.ok found, t)

section Passes
variable {settings : Settings} {source : CandidateSource σ} {cls other : String} {s : State σ}

theorem candidates_of_answers (answers : source.Answers) (key : CandidateKey) (label : String)
    (index : Index) (s : σ) :
    ∃ found later t, index.candidates source key label s = (.ok found, later, t) := by
  obtain ⟨found, t, looked⟩ := answers key label s
  unfold Index.candidates Index.answer
  cases source.isCacheable with
  | false => simp [looked]
  | true => cases index.loaded.lookup key <;> simp [looked]

/-- An entity of a proper class with a label of usable characters gets a name. -/
theorem exists_decision (valid : isClassName cls) (answers : source.Answers) {label : String}
    (usable : slug label ≠ "") (entity : Term) :
    ∃ d, decision? settings source cls entity label s = some d ∧ d.entity = entity := by
  obtain ⟨found, later, t, asked⟩ :=
    candidates_of_answers answers (keyFor s.graph cls entity) label s.index s.source
  have chosen : ∃ choice, (choose settings source cls entity label s).1 = .ok choice := by
    simp only [choose, valid, usable, asked, Bool.not_true, Bool.false_eq_true, if_false]
    cases found.find? fun c => settings.policy.accepts c.label label with
    | none => exact ⟨_, rfl⟩
    | some candidate => exact ⟨_, rfl⟩
  obtain ⟨choice, chosen⟩ := chosen
  exact ⟨⟨entity, label, choice⟩, by simp [decision?, chosen], rfl⟩

/-- When the entities of a list have got their names, nothing waits that did not wait before, and
none of them waits. -/
theorem awaits_resolveEach (valid : isClassName cls) (answers : source.Answers)
    {entities : List (Term × String)}
    (fit : ∀ pair ∈ entities, settings.isTransient pair.1 ∧ slug pair.2 ≠ "") {report : Report}
    (named : ∀ d ∈ eachDecision settings source cls entities s,
      settings.isTransient d.choice.canonical = false ∧ d.choice.canonical ≠ .iri other)
    {term : Term}
    (waits : Awaits settings (resolveEach settings source cls entities report s).2.graph other
      term) :
    Awaits settings s.graph other term ∧ term ∉ entities.map (·.1) := by
  induction entities generalizing report s with
  | nil => exact ⟨waits, by simp⟩
  | cons pair rest ih =>
    obtain ⟨entity, label⟩ := pair
    obtain ⟨transient, usable⟩ := fit (entity, label) (by simp)
    obtain ⟨d, decided, same⟩ : ∃ d, decision? settings source cls entity label s = some d ∧
        d.entity = entity := exists_decision valid answers usable entity
    have graph : (resolveOrMint settings source cls entity label s).2.graph = _ :=
      resolveOrMint_graph entity label
    rw [decided] at graph
    rw [eachDecision, decided] at named
    obtain ⟨waits, apart⟩ := ih (fun pair hm => fit pair (by simp [hm]))
      (fun e he => named e (List.mem_append_right _ he)) waits
    rw [graph] at waits
    obtain ⟨named, classless⟩ := named d (by simp)
    obtain ⟨waits, differ⟩ := awaits_adopt (same ▸ transient) named classless waits
    refine ⟨waits, ?_⟩
    rw [List.map_cons, List.mem_cons, not_or]
    exact ⟨same ▸ differ, apart⟩

theorem slug_of_mem_labelledEntities {g : Graph} {pair : Term × String}
    (member : pair ∈ labelledEntities settings g cls) : slug pair.2 ≠ "" := by
  rw [labelledEntities, List.mem_mergeSort, List.mem_filterMap] at member
  obtain ⟨term, _, found⟩ := member
  obtain ⟨label, usable, rfl⟩ := Option.map_eq_some_iff.mp found
  obtain ⟨_, usable⟩ := Option.filter_eq_some_iff.mp usable
  simpa using usable

theorem awaits_iff_mem_labelledEntities {g : Graph} {term : Term} :
    Awaits settings g cls term ↔ term ∈ (labelledEntities settings g cls).map (·.1) := by
  unfold Awaits labelledEntities
  simp only [List.mem_map, List.mem_mergeSort, List.mem_filterMap, Option.map_eq_some_iff,
    Option.isSome_iff_exists]
  constructor
  · rintro ⟨member, label, usable⟩
    exact ⟨(term, label), ⟨term, member, label, usable, rfl⟩, rfl⟩
  · rintro ⟨_, ⟨_, member, label, usable, rfl⟩, rfl⟩
    exact ⟨member, label, usable⟩

/-- The turn of a class leaves nothing of it waiting, and lets nothing of another class begin to. -/
theorem awaits_resolveClass (valid : isClassName cls) (answers : source.Answers) {report : Report}
    (named : ∀ d ∈ eachDecision settings source cls (labelledEntities settings s.graph cls) s,
      settings.isTransient d.choice.canonical = false ∧ d.choice.canonical ≠ .iri other)
    {term : Term}
    (waits : Awaits settings (resolveClass settings source report s cls).2.graph other term) :
    Awaits settings s.graph other term ∧ other ≠ cls := by
  have fit : ∀ pair ∈ labelledEntities settings s.graph cls,
      settings.isTransient pair.1 ∧ slug pair.2 ≠ "" :=
    fun pair hm => ⟨(mem_labelledEntities hm).2, slug_of_mem_labelledEntities hm⟩
  obtain ⟨waited, apart⟩ := awaits_resolveEach valid answers fit named waits
  refine ⟨waited, ?_⟩
  rintro rfl
  exact apart (awaits_iff_mem_labelledEntities.mp waited)

/-- After the turns of several classes nothing of them waits. -/
theorem settled_pass {classes : List String} (valid : ∀ cls ∈ classes, isClassName cls)
    (answers : source.Answers) {report : Report}
    (named : ∀ d ∈ passDecisions settings source classes s,
      settings.isTransient d.choice.canonical = false ∧ d.choice.canonical ≠ .iri other)
    {term : Term}
    (waits : Awaits settings (classes.foldl (fun (report, s) cls =>
      resolveClass settings source report s cls) (report, s)).2.graph other term) :
    Awaits settings s.graph other term ∧ other ∉ classes := by
  induction classes generalizing report s with
  | nil => exact ⟨waits, by simp⟩
  | cons cls rest ih =>
    rw [passDecisions, resolveClass_state {} report] at named
    obtain ⟨waits, later⟩ := ih (fun cls hm => valid cls (by simp [hm]))
      (fun d hd => named d (List.mem_append_right _ hd)) waits
    obtain ⟨waits, differ⟩ := awaits_resolveClass (valid cls (by simp)) answers
      (fun d hd => named d (List.mem_append_left _ hd)) waits
    exact ⟨waits, by simp [differ, later]⟩

theorem labelledEntities_eq_nil (settled : Settled settings s.graph cls) :
    labelledEntities settings s.graph cls = [] := by
  rw [← List.map_eq_nil_iff (f := (·.1)), List.eq_nil_iff_forall_not_mem]
  intro term member
  exact settled term (awaits_iff_mem_labelledEntities.mpr member)

/-- The turns of settled classes only count the entities that have no usable label. -/
theorem pass_of_settled {classes : List String}
    (settled : ∀ cls ∈ classes, Settled settings s.graph cls) (n : Nat) :
    ∃ m, classes.foldl (fun (report, s) cls => resolveClass settings source report s cls)
      ({ examined := n, skipped := n }, s) = ({ examined := m, skipped := m }, s) := by
  induction classes generalizing n with
  | nil => exact ⟨n, rfl⟩
  | cons cls rest ih =>
    have turn : resolveClass settings source { examined := n, skipped := n } s cls =
        ({ examined := n + (transientEntities settings s.graph cls).length,
           skipped := n + (transientEntities settings s.graph cls).length }, s) := by
      simp [resolveClass, labelledEntities_eq_nil (settled cls (by simp)), resolveEach]
    simp only [List.foldl_cons, turn]
    exact ih (fun cls hm => settled cls (by simp [hm])) _

end Passes

section Repeats
variable {settings : Settings} {g : Graph} {cls : String}

theorem find?_eraseDups {α : Type} [BEq α] [LawfulBEq α] (p : α → Bool) (xs : List α) :
    xs.eraseDups.find? p = xs.find? p := by
  induction xs using List.reverseRecOn with
  | nil => rfl
  | append_singleton xs x ih =>
    rw [eraseDups_concat]
    split
    next known =>
      rw [ih, List.find?_append]
      cases found : xs.find? p with
      | some y => rfl
      | none => simp [List.find?_eq_none.mp found x known]
    next => rw [List.find?_append, List.find?_append, ih]

theorem labelUnder?_retainUnique (entity : Term) (predicate : String) :
    Settings.labelUnder? g.retainUnique entity predicate =
      Settings.labelUnder? g entity predicate := by
  simp only [Settings.labelUnder?, Graph.objects, Graph.retainUnique, List.find?_map,
    ← eraseDups_filter, find?_eraseDups]

/-- What waits does not depend on how often a statement is made. -/
theorem settled_retainUnique_iff :
    Settled settings g.retainUnique cls ↔ Settled settings g cls := by
  unfold Settled Awaits
  simp only [mem_transientEntities, Graph.mem_retainUnique, usableLabel?, Settings.labelOf?,
    funext (labelUnder?_retainUnique _)]

end Repeats

/-- A further pass over the graph that a pass gives, whether with the same service and what is
known by then or with others, finds no entity to give a name to and leaves everything as it is. -/
theorem second_pass_changes_nothing {settings : Settings} {source : CandidateSource σ}
    {classes : List String} {s : State σ} (valid : ∀ cls ∈ classes, isClassName cls)
    (answers : source.Answers)
    (named : ∀ d ∈ passDecisions settings source classes s,
      settings.isTransient d.choice.canonical = false ∧
      ∀ cls ∈ classes, d.choice.canonical ≠ .iri cls) :
    ∃ report t, deduplicate settings source classes s = (.ok report, t) ∧
      ∀ {τ : Type} (later : CandidateSource τ) (u : State τ), u.graph = t.graph →
        ∃ n, deduplicate settings later classes u = (.ok { examined := n, skipped := n }, u) := by
  have known : classes.find? (fun cls => !isClassName cls) = none := by
    simpa [List.find?_eq_none] using valid
  have settled (cls : String) (member : cls ∈ classes) : Settled settings
      (classes.foldl (fun (report, s) cls => resolveClass settings source report s cls)
        (({} : Report), s)).2.graph cls := by
    intro term waits
    refine (settled_pass valid answers (fun d hd => ?_) waits).2 member
    exact ⟨(named d hd).1, (named d hd).2 cls member⟩
  rw [deduplicate, known]
  generalize classes.foldl _ _ = pass at settled
  obtain ⟨report, t⟩ := pass
  refine ⟨report, _, rfl, ?_⟩
  intro τ later u same
  have settled' : ∀ cls ∈ classes, Settled settings u.graph cls := by
    intro cls member
    rw [same]
    exact settled_retainUnique_iff.mpr (settled cls member)
  obtain ⟨n, pass⟩ : ∃ n, classes.foldl (fun (report, s) cls =>
      resolveClass settings later report s cls) ({}, u) = ({ examined := n, skipped := n }, u) :=
    pass_of_settled settled' 0
  have unique : u.graph.retainUnique = u.graph := by
    rw [same, Graph.retainUnique, Graph.retainUnique, eraseDups_eraseDups]
  refine ⟨n, ?_⟩
  simp only [deduplicate, known]
  rw [pass, unique]

theorem authored_settles :
    (∀ cls ∈ ["ex:Author"], isClassName cls) ∧ authors.Answers ∧
    (∀ d ∈ passDecisions {} authors ["ex:Author"] authored,
      ({} : Settings).isTransient d.choice.canonical = false ∧
      ∀ cls ∈ ["ex:Author"], d.choice.canonical ≠ .iri cls) ∧
    ∃ report t, deduplicate {} authors ["ex:Author"] authored = (.ok report, t) ∧
      ∃ n, deduplicate {} authors ["ex:Author"] t =
        (.ok { examined := n, skipped := n }, t) := by
  have valid : ∀ cls ∈ ["ex:Author"], isClassName cls := by decide +kernel
  have answers : authors.Answers := fun _ _ _ => ⟨_, _, rfl⟩
  have named : ∀ d ∈ passDecisions {} authors ["ex:Author"] authored,
      ({} : Settings).isTransient d.choice.canonical = false ∧
      ∀ cls ∈ ["ex:Author"], d.choice.canonical ≠ .iri cls := by
    rw [passDecisions_authored]
    decide +kernel
  obtain ⟨report, t, passed, again⟩ := second_pass_changes_nothing valid answers named
  exact ⟨valid, answers, named, report, t, passed, again authors t rfl⟩

end CatalogGraph.Identity
