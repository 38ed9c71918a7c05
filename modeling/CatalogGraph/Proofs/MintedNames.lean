import CatalogGraph.Proofs.IdentityPasses

/-!
Minted names: a pass mints a name only for a label that is accepted for none of the names minted
before it for the class, and two minted names of a class are one exactly if their labels have the
same slug.
-/
namespace CatalogGraph.Identity
variable {σ : Type}

namespace Index
variable {source : CandidateSource σ} {key : CandidateKey} {label : String} {index : Index} {s : σ}

theorem mem_mintedFor_recordMinted {cls other : String} {c d : Candidate} :
    d ∈ (index.recordMinted cls c).mintedFor other ↔
      d ∈ index.mintedFor other ∨ other = cls ∧ d = c := by
  unfold recordMinted
  dsimp only
  split
  next known =>
    have known : c ∈ index.mintedFor cls := by simpa using known
    constructor
    · exact .inl
    · rintro (hd | ⟨rfl, rfl⟩)
      · exact hd
      · exact known
  next =>
    unfold mintedFor
    rw [Entries.get?_insert]
    split
    next same =>
      subst same
      simp
    next differ => simp [differ]

theorem answer_minted : (index.answer source key label s).2.1.minted = index.minted := by
  unfold answer
  split
  next =>
    split
    next => rfl
    next => split <;> rfl
  next => rfl

theorem candidates_mintedFor (cls : String) :
    (index.candidates source key label s).2.1.mintedFor cls = index.mintedFor cls := by
  have kept : (index.answer source key label s).2.1.minted = index.minted := answer_minted
  unfold candidates mintedFor
  split <;> simp_all

/-- The names minted for a class are among the candidates of each key of the class. -/
theorem mem_candidates {found : List Candidate}
    (answered : (index.candidates source key label s).1 = .ok found) {c : Candidate}
    (hc : c ∈ index.mintedFor key.cls) : c ∈ found := by
  have kept : (index.answer source key label s).2.1.minted = index.minted := answer_minted
  unfold candidates at answered
  split at answered
  next answer later t heq =>
    rw [heq] at kept
    cases answered
    rw [List.mem_append, mintedFor, kept]
    exact .inr hc
  next => cases answered

end Index

section Decisions
variable {settings : Settings} {source : CandidateSource σ} {cls : String}

theorem resolution_eq_minted_iff {d : Decision} :
    d.assertion.resolution = .minted ↔ ∃ iri, d.choice = .fresh iri := by
  rcases d with ⟨entity, label, candidate | iri⟩ <;> simp [Decision.assertion, Choice.resolution]

/-- A new name is made of the class and the label, which is accepted for no name minted before. -/
theorem choose_fresh {entity : Term} {label iri : String} {s : State σ}
    (chosen : (choose settings source cls entity label s).1 = .ok (.fresh iri)) :
    iri = settings.mintedIri cls label ∧
      ∀ c ∈ s.index.mintedFor cls, settings.policy.accepts c.label label = false := by
  unfold choose at chosen
  split at chosen
  next => cases chosen
  next =>
    split at chosen
    next => cases chosen
    next =>
      split at chosen
      next => cases chosen
      next found index t answered =>
        split at chosen
        next => cases chosen
        next none =>
          have name : Choice.fresh _ = .fresh iri := Except.ok.inj chosen
          refine ⟨(Choice.fresh.inj name).symm, ?_⟩
          intro c hc
          have offered : c ∈ found := Index.mem_candidates (congrArg Prod.fst answered) hc
          simpa using List.find?_eq_none.mp none c offered

/-- A choice adds to the minted names the one that it makes, and nothing else. -/
theorem mem_mintedFor_choose {entity : Term} {label other : String} {s : State σ} {c : Candidate} :
    c ∈ (choose settings source cls entity label s).2.1.mintedFor other ↔
      c ∈ s.index.mintedFor other ∨ other = cls ∧ ∃ iri,
        (choose settings source cls entity label s).1 = .ok (.fresh iri) ∧ c = ⟨iri, label⟩ := by
  have kept : (s.index.candidates source (keyFor s.graph cls entity) label s.source).2.1.mintedFor
      other = s.index.mintedFor other := Index.candidates_mintedFor other
  unfold choose
  split
  next => simp
  next =>
    split
    next => simp
    next =>
      split
      next heq =>
        rw [heq] at kept
        simp [kept]
      next heq =>
        rw [heq] at kept
        split
        next => simp [kept]
        next => simp [Index.mem_mintedFor_recordMinted, kept]

theorem decision?_fresh {entity : Term} {label iri : String} {s : State σ} {d : Decision}
    (decided : decision? settings source cls entity label s = some d)
    (fresh : d.choice = .fresh iri) :
    d.label = label ∧ (choose settings source cls entity label s).1 = .ok (.fresh iri) := by
  unfold decision? at decided
  split at decided
  next choice chosen =>
    cases decided
    exact ⟨rfl, chosen.trans (congrArg Except.ok fresh)⟩
  next => cases decided

theorem resolveOrMint_index (entity : Term) (label : String) (s : State σ) :
    (resolveOrMint settings source cls entity label s).2.index =
      (choose settings source cls entity label s).2.1 := by
  unfold resolveOrMint
  rcases choose settings source cls entity label s with ⟨_ | choice, index, _⟩ <;> rfl

theorem mintedFor_resolveOrMint_subset (entity : Term) (label other : String) (s : State σ) :
    s.index.mintedFor other ⊆
      (resolveOrMint settings source cls entity label s).2.index.mintedFor other := by
  intro c hc
  rw [resolveOrMint_index]
  exact mem_mintedFor_choose.mpr (.inl hc)

theorem mintedFor_resolveEach_subset (entities : List (Term × String)) (report : Report)
    (other : String) (s : State σ) : s.index.mintedFor other ⊆
      (resolveEach settings source cls entities report s).2.index.mintedFor other := by
  induction entities generalizing report s with
  | nil => exact fun c hc => hc
  | cons pair rest ih =>
    intro c hc
    exact ih _ _ (mintedFor_resolveOrMint_subset pair.1 pair.2 other s hc)

/-- Each name that was minted is kept for the class to the end. -/
theorem mem_mintedFor_of_eachDecision {entities : List (Term × String)} {report : Report}
    {s : State σ} {d : Decision} (hd : d ∈ eachDecision settings source cls entities s)
    {iri : String} (fresh : d.choice = .fresh iri) : ⟨iri, d.label⟩ ∈
      (resolveEach settings source cls entities report s).2.index.mintedFor cls := by
  induction entities generalizing report s with
  | nil => cases hd
  | cons pair rest ih =>
    obtain ⟨entity, label⟩ := pair
    rw [eachDecision, List.mem_append, Option.mem_toList] at hd
    rcases hd with decided | later
    · obtain ⟨same, chosen⟩ := decision?_fresh decided fresh
      have kept : (⟨iri, d.label⟩ : Candidate) ∈
          (resolveOrMint settings source cls entity label s).2.index.mintedFor cls := by
        rw [resolveOrMint_index]
        exact mem_mintedFor_choose.mpr (.inr ⟨rfl, iri, chosen, by rw [same]⟩)
      exact mintedFor_resolveEach_subset rest _ cls _ kept
    · exact ih later

/-- What is minted in turn has the name of its class and label, which is accepted for nothing that
was minted before the first turn. -/
theorem fresh_of_eachDecision {entities : List (Term × String)} {s : State σ} {d : Decision}
    (hd : d ∈ eachDecision settings source cls entities s) {iri : String}
    (fresh : d.choice = .fresh iri) : iri = settings.mintedIri cls d.label ∧
      ∀ c ∈ s.index.mintedFor cls, settings.policy.accepts c.label d.label = false := by
  induction entities generalizing s with
  | nil => cases hd
  | cons pair rest ih =>
    obtain ⟨entity, label⟩ := pair
    rw [eachDecision, List.mem_append, Option.mem_toList] at hd
    rcases hd with decided | later
    · obtain ⟨same, chosen⟩ := decision?_fresh decided fresh
      rw [same]
      exact choose_fresh chosen
    · obtain ⟨name, apart⟩ := ih later
      refine ⟨name, ?_⟩
      intro c hc
      exact apart c (mintedFor_resolveOrMint_subset entity label cls s hc)

/-- The label of the later of two minted names is not accepted for the earlier. -/
def Refused (settings : Settings) (first second : Decision) : Prop :=
  ∀ i j, first.choice = .fresh i → second.choice = .fresh j →
    settings.policy.accepts first.label second.label = false

theorem pairwise_eachDecision (entities : List (Term × String)) (s : State σ) :
    (eachDecision settings source cls entities s).Pairwise (Refused settings) := by
  induction entities generalizing s with
  | nil => exact .nil
  | cons pair rest ih =>
    obtain ⟨entity, label⟩ := pair
    rw [eachDecision, List.pairwise_append]
    refine ⟨?_, ih _, ?_⟩
    · cases decision? settings source cls entity label s <;> simp
    · -- what the first turn mints is among the candidates of every later turn
      intro first hf second hs i j fresh fresh'
      obtain ⟨same, chosen⟩ := decision?_fresh (Option.mem_toList.mp hf) fresh
      have kept : (⟨i, first.label⟩ : Candidate) ∈
          (resolveOrMint settings source cls entity label s).2.index.mintedFor cls := by
        rw [resolveOrMint_index]
        exact mem_mintedFor_choose.mpr (.inr ⟨rfl, i, chosen, by rw [same]⟩)
      exact (fresh_of_eachDecision hs fresh').2 ⟨i, first.label⟩ kept

end Decisions

/-- The decisions of a pass, each with the class in whose turn it is made. -/
def namings (settings : Settings) (source : CandidateSource σ) :
    List String → State σ → List (String × Decision)
  | [], _ => []
  | cls :: rest, s =>
    (eachDecision settings source cls (labelledEntities settings s.graph cls) s).map (cls, ·) ++
      namings settings source rest (resolveClass settings source {} s cls).2

section Passes
variable {settings : Settings} {source : CandidateSource σ}

theorem map_namings (classes : List String) (s : State σ) :
    (namings settings source classes s).map (·.2) = passDecisions settings source classes s := by
  induction classes generalizing s with
  | nil => rfl
  | cons cls rest ih => simp [namings, passDecisions, ih, Function.comp_def]

theorem fresh_of_namings {classes : List String} {s : State σ} {n : String × Decision}
    (hn : n ∈ namings settings source classes s) {iri : String} (fresh : n.2.choice = .fresh iri) :
    iri = settings.mintedIri n.1 n.2.label ∧
      ∀ c ∈ s.index.mintedFor n.1, settings.policy.accepts c.label n.2.label = false := by
  induction classes generalizing s with
  | nil => cases hn
  | cons cls rest ih =>
    rw [namings, List.mem_append] at hn
    rcases hn with here | later
    · obtain ⟨d, hd, rfl⟩ := List.mem_map.mp here
      exact fresh_of_eachDecision hd fresh
    · obtain ⟨name, apart⟩ := ih later
      refine ⟨name, ?_⟩
      intro c hc
      exact apart c (mintedFor_resolveEach_subset _ _ n.1 s hc)

/-- The turns of other classes leave the minted names of a class, so that what was minted in one
turn is refused for what is minted in a later turn of the same class. -/
theorem pairwise_namings (classes : List String) (s : State σ) :
    (namings settings source classes s).Pairwise fun first second =>
      first.1 = second.1 → Refused settings first.2 second.2 := by
  induction classes generalizing s with
  | nil => exact .nil
  | cons cls rest ih =>
    rw [namings, List.pairwise_append]
    refine ⟨?_, ih _, ?_⟩
    · rw [List.pairwise_map]
      refine (pairwise_eachDecision _ s).imp ?_
      exact fun refused _ => refused
    · rintro first hf ⟨other, second⟩ hs same i j fresh fresh'
      obtain ⟨d, hd, rfl⟩ := List.mem_map.mp hf
      obtain rfl : cls = other := same
      have kept : (⟨i, d.label⟩ : Candidate) ∈
          (resolveClass settings source {} s cls).2.index.mintedFor cls :=
        mem_mintedFor_of_eachDecision hd fresh
      exact (fresh_of_namings hs fresh').2 ⟨i, d.label⟩ kept

end Passes

theorem Settings.mintedIri_eq_iff {settings : Settings} {cls a b : String} :
    settings.mintedIri cls a = settings.mintedIri cls b ↔ slug a = slug b := by
  simp [mintedIri]

theorem deduplicate_of_valid {settings : Settings} {source : CandidateSource σ}
    {classes : List String} {s : State σ} (valid : ∀ cls ∈ classes, isClassName cls) :
    ∃ report t, deduplicate settings source classes s = (.ok report, t) := by
  have known : classes.find? (fun cls => !isClassName cls) = none := by
    simpa [List.find?_eq_none] using valid
  rw [deduplicate, known]
  exact ⟨_, _, rfl⟩

theorem deduplicate_assertions {settings : Settings} {source : CandidateSource σ}
    {classes : List String} {s t : State σ} {report : Report}
    (passed : deduplicate settings source classes s = (.ok report, t)) :
    report.assertions = (passDecisions settings source classes s).map (·.assertion) := by
  unfold deduplicate at passed
  split at passed
  next => cases passed
  next =>
    have same := Except.ok.inj (congrArg Prod.fst passed)
    rw [← same]
    exact (pass_assertions classes {} s).trans (List.nil_append _)

/-- Two names that a pass mints for a class, the first before the second, are the same exactly if
their labels have the same slug, and the second label is not accepted for the first. -/
theorem minted_names_same_iff_slugs_same {settings : Settings} {source : CandidateSource σ}
    {classes : List String} {s t : State σ} {report : Report}
    (passed : deduplicate settings source classes s = (.ok report, t)) :
    report.assertions = (namings settings source classes s).map (·.2.assertion) ∧
    (namings settings source classes s).Pairwise fun first second =>
      first.1 = second.1 → first.2.assertion.resolution = .minted →
      second.2.assertion.resolution = .minted →
        settings.policy.accepts first.2.label second.2.label = false ∧
        (first.2.assertion.canonical = second.2.assertion.canonical ↔
          slug first.2.label = slug second.2.label) := by
  refine ⟨?_, ?_⟩
  · rw [deduplicate_assertions passed, ← map_namings, List.map_map]
    rfl
  · refine (pairwise_namings classes s).imp_of_mem ?_
    intro first second hf hs refused same minted minted'
    obtain ⟨i, fresh⟩ := resolution_eq_minted_iff.mp minted
    obtain ⟨j, fresh'⟩ := resolution_eq_minted_iff.mp minted'
    have name : i = settings.mintedIri first.1 first.2.label := (fresh_of_namings hf fresh).1
    have name' : j = settings.mintedIri first.1 second.2.label :=
      same ▸ (fresh_of_namings hs fresh').1
    refine ⟨refused same i j fresh fresh', ?_⟩
    simp only [Decision.assertion, fresh, fresh', Choice.canonical, Term.iri.injEq]
    rw [name, name', Settings.mintedIri_eq_iff]

/-- A service that knows nobody. -/
def nobody : CandidateSource Unit where
  isCacheable := true
  lookup _ _ s := (.ok [], s)

/-- Three languages, two of which differ in signs only. -/
def languages : State Unit where
  graph := .ofTriples [
    ⟨.blank "a", .iri Vocabulary.rdfType, .iri "ex:Language"⟩,
    ⟨.blank "a", .iri Vocabulary.rdfsLabel, .string "Lisp"⟩,
    ⟨.blank "b", .iri Vocabulary.rdfType, .iri "ex:Language"⟩,
    ⟨.blank "b", .iri Vocabulary.rdfsLabel, .string "C++"⟩,
    ⟨.blank "c", .iri Vocabulary.rdfType, .iri "ex:Language"⟩,
    ⟨.blank "c", .iri Vocabulary.rdfsLabel, .string "C#"⟩]
  source := ()

theorem labelledEntities_languages : labelledEntities {} languages.graph "ex:Language" =
    [(.blank "a", "Lisp"), (.blank "b", "C++"), (.blank "c", "C#")] := by
  have found : ((transientEntities {} languages.graph "ex:Language").filterMap fun entity =>
      (usableLabel? {} languages.graph entity).map fun label => (entity, label)) =
        [(.blank "a", "Lisp"), (.blank "b", "C++"), (.blank "c", "C#")] := rfl
  rw [labelledEntities, found]
  exact List.mergeSort_of_pairwise (by decide)

theorem namings_languages : namings {} nobody ["ex:Language"] languages =
    [("ex:Language", ⟨.blank "a", "Lisp", .fresh "http://example.org/ex-language/lisp"⟩),
    ("ex:Language", ⟨.blank "b", "C++", .fresh "http://example.org/ex-language/c"⟩),
    ("ex:Language", ⟨.blank "c", "C#", .fresh "http://example.org/ex-language/c"⟩)] := by
  rw [namings, labelledEntities_languages]
  rfl

theorem languages_same_iff_slugs_same :
    ∃ report t, deduplicate {} nobody ["ex:Language"] languages = (.ok report, t) ∧
      (namings {} nobody ["ex:Language"] languages).Pairwise fun first second =>
        first.1 = second.1 → first.2.assertion.resolution = .minted →
        second.2.assertion.resolution = .minted →
          ({} : Settings).policy.accepts first.2.label second.2.label = false ∧
          (first.2.assertion.canonical = second.2.assertion.canonical ↔
            slug first.2.label = slug second.2.label) := by
  obtain ⟨report, t, passed⟩ : ∃ report t,
      deduplicate {} nobody ["ex:Language"] languages = (.ok report, t) :=
    deduplicate_of_valid (by decide +kernel)
  exact ⟨report, t, passed, (minted_names_same_iff_slugs_same passed).2⟩

/-- Two languages get one name, though the label of neither stands in the label of the other. -/
theorem plus_and_sharp_share_name :
    ∃ report t, deduplicate {} nobody ["ex:Language"] languages = (.ok report, t) ∧
      ∃ a ∈ report.assertions, ∃ b ∈ report.assertions,
        a.resolution = .minted ∧ b.resolution = .minted ∧ a.label ≠ b.label ∧
        ({} : Settings).policy.accepts a.label b.label = false ∧
        ({} : Settings).policy.accepts b.label a.label = false ∧ a.canonical = b.canonical := by
  obtain ⟨report, t, passed⟩ : ∃ report t,
      deduplicate {} nobody ["ex:Language"] languages = (.ok report, t) :=
    deduplicate_of_valid (by decide +kernel)
  have assertions := deduplicate_assertions passed
  rw [← map_namings, namings_languages] at assertions
  refine ⟨report, t, passed, ⟨.blank "b", .iri "http://example.org/ex-language/c", "C++", .minted⟩,
    ?_, ⟨.blank "c", .iri "http://example.org/ex-language/c", "C#", .minted⟩, ?_, ?_⟩
  · rw [assertions]
    decide
  · rw [assertions]
    decide
  · decide +kernel

end CatalogGraph.Identity
