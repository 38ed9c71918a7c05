import CatalogGraph.Proofs.FirstOccurrences
import CatalogGraph.Proofs.RelabelledRules
import CatalogGraph.Proofs.ScopedGraphs
import CatalogGraph.Proofs.TurtleSubjects
import CatalogGraph.Rules.Load
import Mathlib.Data.List.Forall2

/-!
Rule documents: what is extracted from several documents is what is extracted from each, one after
the other, with blank nodes relabelled, as long as no document describes a name of another one.
-/
namespace CatalogGraph.Rules
open CatalogGraph.Rules.Vocabulary (predicateObjectMap)

/-- The label that a blank node of the document of a number gets. -/
def documentLabel (n : Nat) (label : String) : String := "d" ++ toString n ++ "_" ++ label

theorem documentLabel_inj {m n : Nat} {a b : String}
    (same : documentLabel m a = documentLabel n b) : m = n ∧ a = b :=
  Graph.scope_append_inj same

theorem renameBlank_documentLabel_inj {n : Nat} {a b : Term} :
    a.renameBlank (documentLabel n) = b.renameBlank (documentLabel n) ↔ a = b := by
  have distinct : Function.Injective (documentLabel n) := fun _ _ same => (documentLabel_inj same).2
  refine ⟨fun same => ?_, fun same => by rw [same]⟩
  cases a <;> cases b <;> simp_all [Term.renameBlank, distinct.eq_iff]

/-- The statements of numbered graphs, one graph after the other. -/
def statementsOfAll (numbered : List (Graph × Nat)) : List Triple :=
  numbered.flatMap fun x => relabelled (documentLabel x.2) x.1.triples

theorem statementsOfAll_cons (g : Graph) (n : Nat) (rest : List (Graph × Nat)) :
    statementsOfAll ((g, n) :: rest) =
      relabelled (documentLabel n) g.triples ++ statementsOfAll rest :=
  List.flatMap_cons

theorem forall₂_of_mapM {ε α β : Type} {k : α → Except ε β} {xs : List α} {ys : List β}
    (given : xs.mapM k = .ok ys) : List.Forall₂ (fun x y => k x = .ok y) xs ys := by
  induction xs generalizing ys with
  | nil =>
    cases given
    exact .nil
  | cons x rest ih =>
    rw [List.mapM_cons] at given
    cases first : k x with
    | error e =>
      rw [first] at given
      cases given
    | ok y =>
      rw [first] at given
      cases later : rest.mapM k with
      | error e =>
        rw [later] at given
        cases given
      | ok others =>
        rw [later] at given
        cases given
        exact .cons first (ih later)

theorem mergeDocuments_triples {texts : List String} {documents : List Graph} {n : Nat} {g : Graph}
    (parsed : List.Forall₂ (fun text document => ofTurtle text = .ok document) texts documents) :
    ∃ whole, mergeDocuments n g texts = .ok whole ∧
      whole.triples = g.triples ++ statementsOfAll (documents.zipIdx n) := by
  induction parsed generalizing n g with
  | nil => exact ⟨g, rfl, by simp [statementsOfAll]⟩
  | @cons text document rest others first _ ih =>
    obtain ⟨whole, merged, triples⟩ :=
      ih (n := n + 1) (g := g.mergeScoped document ("d" ++ toString n ++ "_"))
    refine ⟨whole, ?_, ?_⟩
    · rw [mergeDocuments, first]
      exact merged
    · rw [triples, List.zipIdx_cons, statementsOfAll_cons, ← List.append_assoc]
      rfl

/-- The names that the one graph describes, the other one neither describes nor uses. -/
def Foreign (g other : Graph) : Prop :=
  ∀ iri, Describes g iri → ¬ Describes other iri ∧ ¬ Uses other (.iri iri)

/-- Two graphs of which neither one describes what the other one describes or uses. -/
def Apart (g other : Graph) : Prop := Foreign g other ∧ Foreign other g

section Decidable

instance (g : Graph) (node : Term) : Decidable (Uses g node) :=
  inferInstanceAs (Decidable (∃ t ∈ g.triples, ∃ p ∈ nodePredicates, _))

instance (g : Graph) (iri : String) : Decidable (Describes g iri) :=
  inferInstanceAs (Decidable (∃ t ∈ g.triples, _))

theorem foreign_iff {g other : Graph} : Foreign g other ↔
    ∀ t ∈ g.triples, ∀ iri ∈ t.subject.iri?,
      ¬ Describes other iri ∧ ¬ Uses other (.iri iri) := by
  have named (subject : Term) (iri : String) : iri ∈ subject.iri? ↔ subject = .iri iri := by
    cases subject <;> simp [Term.iri?]
  constructor
  · intro apart t ht iri same
    exact apart iri ⟨t, ht, (named _ _).mp same⟩
  · rintro apart iri ⟨t, ht, same⟩
    exact apart t ht iri ((named _ _).mpr same)

instance (g other : Graph) : Decidable (Foreign g other) := decidable_of_iff _ foreign_iff.symm

instance (g other : Graph) : Decidable (Apart g other) :=
  inferInstanceAs (Decidable (Foreign g other ∧ Foreign other g))

end Decidable

/-- The numbered graphs are apart, have numbers of their own, and say nothing about literals. -/
structure Separate (numbered : List (Graph × Nat)) : Prop where
  apart : numbered.Pairwise fun x y => Apart x.1 y.1 ∧ x.2 ≠ y.2
  named : ∀ x ∈ numbered, ∀ t ∈ x.1.triples, t.subject.isLiteral = false

/-- A graph describes a node by its name or uses it. -/
def Knows (g : Graph) (node : Term) : Prop :=
  (∃ iri, node = .iri iri ∧ Describes g iri) ∨ Uses g node

theorem filter_relabelled (n : Nat) (g : Graph) (node : Term) :
    (relabelled (documentLabel n) g.triples).filter
        (·.subject == node.renameBlank (documentLabel n)) =
      relabelled (documentLabel n) (statementsOf g node) := by
  have same (t : Triple) :
      ((t.mapNodes (Term.renameBlank (documentLabel n))).subject ==
        node.renameBlank (documentLabel n)) = (t.subject == node) := by
    rw [Bool.eq_iff_iff, beq_iff_eq, beq_iff_eq]
    exact renameBlank_documentLabel_inj
  simp only [relabelled, statementsOf, List.filter_map, Function.comp_def, same]

/-- What a graph knows, no other one speaks of. -/
theorem filter_relabelled_foreign {m n : Nat} {g other : Graph} {node : Term} (knows : Knows g node)
    (apart : Foreign other g) (numbers : m ≠ n)
    (named : ∀ t ∈ other.triples, t.subject.isLiteral = false) :
    (relabelled (documentLabel m) other.triples).filter
      (·.subject == node.renameBlank (documentLabel n)) = [] := by
  rw [List.filter_eq_nil_iff]
  intro t ht same
  obtain ⟨u, hu, rfl⟩ := List.mem_map.mp ht
  replace same : u.subject.renameBlank (documentLabel m) = node.renameBlank (documentLabel n) :=
    beq_iff_eq.mp same
  cases subject : u.subject with
  | literal l =>
    have never := named u hu
    simp [subject, Term.isLiteral] at never
  | blank label =>
    cases node with
    | blank other =>
      -- the label of a blank node tells which document it is from
      rw [subject] at same
      exact numbers (documentLabel_inj (Term.blank.inj same)).1
    | iri name => simp [subject, Term.renameBlank] at same
    | literal l => simp [subject, Term.renameBlank] at same
  | iri iri =>
    have node_eq : node = .iri iri := by
      rw [subject] at same
      exact renameBlank_eq_iri.mp same.symm
    -- the other document describes this name, so this one has nothing to do with it
    obtain ⟨undescribed, unused⟩ := apart iri ⟨u, hu, subject⟩
    cases knows with
    | inl described =>
      obtain ⟨name, named, described⟩ := described
      rw [node_eq] at named
      cases named
      exact undescribed described
    | inr uses => exact unused (node_eq ▸ uses)

theorem filter_statementsOfAll_foreign {numbered : List (Graph × Nat)} {g : Graph} {n : Nat}
    {node : Term} (knows : Knows g node)
    (named : ∀ x ∈ numbered, ∀ t ∈ x.1.triples, t.subject.isLiteral = false)
    (apart : ∀ x ∈ numbered, Foreign x.1 g ∧ x.2 ≠ n) :
    (statementsOfAll numbered).filter (·.subject == node.renameBlank (documentLabel n)) = [] := by
  rw [statementsOfAll, List.filter_flatMap, List.flatMap_eq_nil_iff]
  intro x hx
  exact filter_relabelled_foreign knows (apart x hx).1 (apart x hx).2 (named x hx)

theorem statementsOf_whole {numbered : List (Graph × Nat)} {whole g : Graph} {n : Nat} {node : Term}
    (triples : whole.triples = statementsOfAll numbered) (separate : Separate numbered)
    (among : (g, n) ∈ numbered) (knows : Knows g node) :
    statementsOf whole (node.renameBlank (documentLabel n)) =
      relabelled (documentLabel n) (statementsOf g node) := by
  obtain ⟨before, after, rfl⟩ := List.append_of_mem among
  obtain ⟨-, behind, ahead⟩ := List.pairwise_append.mp separate.apart
  have behind := (List.pairwise_cons.mp behind).1
  have first : (statementsOfAll before).filter
      (·.subject == node.renameBlank (documentLabel n)) = [] := by
    refine filter_statementsOfAll_foreign knows (fun x hx => separate.named x (by simp [hx])) ?_
    intro x hx
    obtain ⟨apart, numbers⟩ := ahead x hx (g, n) List.mem_cons_self
    exact ⟨apart.1, numbers⟩
  have last : (statementsOfAll after).filter
      (·.subject == node.renameBlank (documentLabel n)) = [] := by
    refine filter_statementsOfAll_foreign knows (fun x hx => separate.named x (by simp [hx])) ?_
    intro x hx
    obtain ⟨apart, numbers⟩ := behind x hx
    exact ⟨apart.2, numbers.symm⟩
  have parts : whole.triples = statementsOfAll before ++
      (relabelled (documentLabel n) g.triples ++ statementsOfAll after) := by
    rw [triples]
    simp [statementsOfAll]
  rw [statementsOf, parts, List.filter_append, List.filter_append, first, last, filter_relabelled]
  simp

theorem Separate.holds {numbered : List (Graph × Nat)} {whole g : Graph} {n : Nat}
    (separate : Separate numbered) (triples : whole.triples = statementsOfAll numbered)
    (among : (g, n) ∈ numbered) : Holds whole g (documentLabel n) where
  described iri described :=
    statementsOf_whole triples separate among (.inl ⟨iri, rfl, described⟩)
  used _ uses := statementsOf_whole triples separate among (.inr uses)

section Names

theorem mapNames_eq (g : Graph) : mapNames g = (g.triples.filterMap markedMap?).eraseDups := by
  unfold mapNames
  generalize g.triples.filterMap markedMap? = names
  induction names using List.reverseRecOn with
  | nil => rfl
  | append_singleton names name ih =>
    rw [List.foldl_append, ih, eraseDups_concat]
    simp [List.mem_eraseDups]

theorem markedMap?_mapNodes {r : String → String} (t : Triple) :
    markedMap? (t.mapNodes (Term.renameBlank r)) = markedMap? t := by
  obtain ⟨subject, predicate, object⟩ := t
  cases subject with
  | iri name =>
    have named : (Term.iri name).renameBlank r = .iri name := rfl
    cases predicate <;> simp [markedMap?, Triple.mapNodes, named, renameBlank_eq_iri]
  | blank label => rfl
  | literal l => rfl

theorem describes_of_marked {g : Graph} {t : Triple} {name : String} (ht : t ∈ g.triples)
    (marked : markedMap? t = some name) : Describes g name := by
  unfold markedMap? at marked
  split at marked
  next iri p subject predicate =>
    have same : iri = name := by grind
    exact ⟨t, ht, same ▸ subject⟩
  next => cases marked

theorem describes_of_mem_mapNames {g : Graph} {name : String} (named : name ∈ mapNames g) :
    Describes g name := by
  rw [mapNames_eq, List.mem_eraseDups] at named
  obtain ⟨t, ht, marked⟩ := List.mem_filterMap.mp named
  exact describes_of_marked ht marked

theorem mapNames_whole {numbered : List (Graph × Nat)} {whole : Graph}
    (triples : whole.triples = statementsOfAll numbered) (separate : Separate numbered) :
    mapNames whole = numbered.flatMap fun x => mapNames x.1 := by
  have marked (r : String → String) (triples : List Triple) :
      (relabelled r triples).filterMap markedMap? = triples.filterMap markedMap? := by
    rw [relabelled, List.filterMap_map]
    exact List.filterMap_congr fun t _ => markedMap?_mapNodes t
  rw [mapNames_eq, triples, statementsOfAll, List.filterMap_flatMap]
  simp only [marked, mapNames_eq]
  refine eraseDups_flatMap_of_disjoint (separate.apart.imp ?_)
  intro x y apart name first second
  obtain ⟨t, ht, marked⟩ := List.mem_filterMap.mp first
  obtain ⟨u, hu, again⟩ := List.mem_filterMap.mp second
  exact (apart.1.1 name (describes_of_marked ht marked)).1 (describes_of_marked hu again)

end Names

theorem follows_extract {whole part : Graph} {r : String → String} (holds : Holds whole part r) :
    Follows (List.map (TriplesMap.relabel r)) (extract part)
      ((mapNames part).mapM (triplesMapOf whole)) := by
  have read := follows_mapM (ρ := id) (mapNames part) fun iri named =>
    follows_triplesMapOf holds (describes_of_mem_mapNames named)
  rwa [List.map_id] at read

/-- The maps of documents, one document after the other, with blank nodes relabelled. -/
def relabelledMaps (numbered : List (List TriplesMap × Nat)) : List TriplesMap :=
  numbered.flatMap fun x => x.1.map (TriplesMap.relabel (documentLabel x.2))

theorem follows_extract_whole {whole : Graph} {documents : List Graph} {n : Nat}
    (holds : ∀ x ∈ documents.zipIdx n, Holds whole x.1 (documentLabel x.2)) :
    Follows (fun maps => relabelledMaps (maps.zipIdx n)) (documents.mapM extract)
      ((documents.flatMap mapNames).mapM (triplesMapOf whole)) := by
  induction documents generalizing n with
  | nil => exact .ok []
  | cons document rest ih =>
    rw [List.zipIdx_cons, List.forall_mem_cons] at holds
    rw [List.mapM_cons, List.flatMap_cons, List.mapM_append]
    refine (follows_extract holds.1).bind fun maps => (ih holds.2).bind fun others => ?_
    exact .ok (maps :: others)

theorem named_of_ofTurtle {text : String} {document : Graph}
    (parsed : ofTurtle text = .ok document) :
    ∀ t ∈ document.triples, t.subject.isLiteral = false := by
  unfold ofTurtle at parsed
  split at parsed
  next g read =>
    cases parsed
    exact Turtle.subject_of_parse read
  next => cases parsed

theorem separate_of_apart {texts : List String} {documents : List Graph}
    (parsed : List.Forall₂ (fun text document => ofTurtle text = .ok document) texts documents)
    (apart : documents.Pairwise Apart) (n : Nat) : Separate (documents.zipIdx n) := by
  induction parsed generalizing n with
  | nil => exact ⟨.nil, by simp⟩
  | @cons text document rest others first _ ih =>
    obtain ⟨ahead, apart⟩ := List.pairwise_cons.mp apart
    have later := ih apart (n + 1)
    constructor
    · rw [List.zipIdx_cons, List.pairwise_cons]
      refine ⟨fun x hx => ⟨ahead x.1 (List.fst_mem_of_mem_zipIdx hx), ?_⟩, later.apart⟩
      have behind := List.le_snd_of_mem_zipIdx hx
      dsimp only
      omega
    · rw [List.zipIdx_cons, List.forall_mem_cons]
      exact ⟨named_of_ofTurtle first, later.named⟩

/-- Documents that are pairwise apart give together what each gives alone, or nothing where one of
them gives nothing. -/
theorem follows_extract_ofDocuments {texts : List String} {documents : List Graph}
    (parsed : texts.mapM ofTurtle = .ok documents) (apart : documents.Pairwise Apart) :
    Follows (fun maps => relabelledMaps maps.zipIdx) (documents.mapM extract)
      (ofDocuments texts >>= extract) := by
  have parsed := forall₂_of_mapM parsed
  have separate := separate_of_apart parsed apart 0
  obtain ⟨whole, merged, triples⟩ := mergeDocuments_triples (n := 0) (g := {}) parsed
  replace triples : whole.triples = statementsOfAll documents.zipIdx := triples
  have names : mapNames whole = documents.flatMap mapNames := by
    rw [mapNames_whole triples separate]
    conv_rhs => rw [← List.zipIdx_map_fst 0 documents, List.flatMap_map]
  have read := follows_extract_whole fun x hx => separate.holds triples hx
  rw [← names] at read
  rw [ofDocuments, merged]
  exact read

/-- Documents of which none describes a name that another one describes or uses give their maps one
document after the other, with the blank nodes of document `n` labelled anew; and one document gives
what it gives when it is read alone, but for its blank nodes. -/
theorem documents_apart_give_relabelled_maps :
    (∀ {texts : List String} {documents : List Graph} {maps : List (List TriplesMap)},
      texts.mapM ofTurtle = .ok documents → documents.mapM extract = .ok maps →
      documents.Pairwise Apart →
      (ofDocuments texts >>= extract) = .ok (relabelledMaps maps.zipIdx)) ∧
    ∀ text, Follows (List.map (TriplesMap.relabel (documentLabel 0))) (ofTurtle text >>= extract)
      (ofDocuments [text] >>= extract) := by
  constructor
  · intro texts documents maps parsed read apart
    exact (follows_extract_ofDocuments parsed apart).eq_ok read
  · intro text
    cases parsed : ofTurtle text with
    | error e =>
      rw [ofDocuments, mergeDocuments, parsed]
      exact .error e e
    | ok document =>
      have alone : [text].mapM ofTurtle = .ok [document] := by simp [parsed]
      have read := follows_extract_ofDocuments alone (List.pairwise_singleton _ _)
      have one : [document].mapM extract = (extract document).map ([·]) := by
        rw [List.mapM_cons]
        cases extract document <;> rfl
      have kept (maps : List TriplesMap) : relabelledMaps [maps].zipIdx =
          maps.map (TriplesMap.relabel (documentLabel 0)) := by simp [relabelledMaps]
      rw [one] at read
      change Follows _ (extract document) _
      simpa only [kept] using read.of_map

instance : DecidableEq Graph := fun g h =>
  decidable_of_iff (g.triples = h.triples ∧ g.base = h.base ∧ g.prefixes = h.prefixes) <| by
    cases g
    cases h
    simp

/-- A document with one map, whose subject and whose object are constants, the latter a node. -/
def constantMapText (name : String) : String :=
  "@prefix : <" ++ Vocabulary.rr ++ "> . <m:" ++ name ++ "> :subject <s:" ++ name ++
    "> ; :predicateObjectMap [ :predicate <p:see> ; :object _:x ] ."

/-- What the document states. -/
def constantMapGraph (name : String) : Graph where
  triples :=
    [⟨.iri ("m:" ++ name), .iri Vocabulary.subject, .iri ("s:" ++ name)⟩,
      ⟨.blank "riog00000001", .iri Vocabulary.predicate, .iri "p:see"⟩,
      ⟨.blank "riog00000001", .iri Vocabulary.object, .blank "x"⟩,
      ⟨.iri ("m:" ++ name), .iri predicateObjectMap, .blank "riog00000001"⟩]
  prefixes := [("", Vocabulary.rr)]

/-- Its map, with the label of the node that is the object. -/
def constantMap (name label : String) : TriplesMap :=
  { iri := "m:" ++ name
    logicalSource := none
    subjectMap := some { term := some (.constant ("s:" ++ name)) }
    predicateObjectMaps := [{ predicate := "p:see", object := .constant (.blank label) }] }

theorem constantMap_documents_give_relabelled_maps :
    [constantMapText "a", constantMapText "b"].mapM ofTurtle =
      .ok [constantMapGraph "a", constantMapGraph "b"] ∧
    [constantMapGraph "a", constantMapGraph "b"].mapM extract =
      .ok [[constantMap "a" "x"], [constantMap "b" "x"]] ∧
    [constantMapGraph "a", constantMapGraph "b"].Pairwise Apart ∧
    (ofDocuments [constantMapText "a", constantMapText "b"] >>= extract) =
      .ok [constantMap "a" "d0_x", constantMap "b" "d1_x"] := by
  have parsed : [constantMapText "a", constantMapText "b"].mapM ofTurtle =
      .ok [constantMapGraph "a", constantMapGraph "b"] := by decide +kernel
  have read : [constantMapGraph "a", constantMapGraph "b"].mapM extract =
      .ok [[constantMap "a" "x"], [constantMap "b" "x"]] := by decide +kernel
  have apart : [constantMapGraph "a", constantMapGraph "b"].Pairwise Apart := by decide +kernel
  refine ⟨parsed, read, apart, ?_⟩
  rw [documents_apart_give_relabelled_maps.1 parsed read apart]
  decide +kernel

end CatalogGraph.Rules
