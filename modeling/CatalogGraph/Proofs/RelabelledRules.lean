import CatalogGraph.Rules.Extract
import Mathlib.Data.List.Basic

/-!
Relabelled rules: in a graph that holds what another one says about its nodes, with blank nodes
relabelled, a map reads as it does there, with its own blank nodes relabelled.
-/
namespace CatalogGraph

/-- The object with its blank node, if it is a constant one, relabelled. -/
def ObjectTerm.relabel (r : String → String) : ObjectTerm → ObjectTerm
  | .constant term => .constant (term.renameBlank r)
  | other => other

/-- The map with the blank nodes of its constant object and of its additional triples relabelled. -/
def PredicateObjectMap.relabel (r : String → String) (pom : PredicateObjectMap) :
    PredicateObjectMap :=
  { pom with
    object := pom.object.relabel r
    additionalTriples := pom.additionalTriples.map fun x => (x.1, x.2.renameBlank r) }

/-- The map with the blank nodes of its predicate-object maps relabelled. -/
def TriplesMap.relabel (r : String → String) (m : TriplesMap) : TriplesMap :=
  { m with predicateObjectMaps := m.predicateObjectMaps.map (·.relabel r) }

/-- The second computation succeeds where the first one does, with the value that `f` gives. -/
inductive Follows {ε α β : Type} (f : α → β) : Except ε α → Except ε β → Prop
  | ok (a : α) : Follows f (.ok a) (.ok (f a))
  | error (e e' : ε) : Follows f (.error e) (.error e')

section Follows
variable {ε α β γ δ : Type} {f : α → β} {g : γ → δ}

theorem Follows.bind {x : Except ε α} {y : Except ε β} {k : α → Except ε γ} {k' : β → Except ε δ}
    (first : Follows f x y) (next : ∀ a, Follows g (k a) (k' (f a))) :
    Follows g (x >>= k) (y >>= k') := by
  cases first with
  | ok a => exact next a
  | error e e' => exact .error e e'

theorem Follows.eq_ok {x : Except ε α} {y : Except ε β} {a : α} (follows : Follows f x y)
    (given : x = .ok a) : y = .ok (f a) := by
  cases follows with
  | ok b =>
    cases given
    rfl
  | error => cases given

theorem Follows.of_map {x : Except ε γ} {y : Except ε β} {pack : γ → α}
    (follows : Follows f (x.map pack) y) : Follows (fun c => f (pack c)) x y := by
  cases x with
  | ok c =>
    rw [follows.eq_ok rfl]
    exact .ok c
  | error e =>
    cases follows with
    | error e e' => exact .error e e'

theorem follows_self (x : Except ε α) : Follows id x x := by
  cases x with
  | ok a => exact .ok a
  | error e => exact .error e e

theorem follows_mapM {ρ : γ → δ} {k : γ → Except ε α} {k' : δ → Except ε β} (xs : List γ)
    (each : ∀ x ∈ xs, Follows f (k x) (k' (ρ x))) :
    Follows (List.map f) (xs.mapM k) ((xs.map ρ).mapM k') := by
  induction xs with
  | nil => exact .ok []
  | cons x rest ih =>
    rw [List.forall_mem_cons] at each
    rw [List.map_cons, List.mapM_cons, List.mapM_cons]
    exact each.1.bind fun a => (ih each.2).bind fun as => .ok (a :: as)

end Follows

namespace Rules
open CatalogGraph.Rules.Vocabulary
variable {r : String → String} {statements : List Triple} {predicate : String}

theorem textOf?_renameBlank (t : Term) : textOf? (t.renameBlank r) = textOf? t := by
  cases t <;> rfl

theorem iri?_renameBlank (t : Term) : (t.renameBlank r).iri? = t.iri? := by
  cases t <;> rfl

theorem renameBlank_eq_iri {t : Term} {iri : String} :
    t.renameBlank r = .iri iri ↔ t = .iri iri := by
  cases t <;> simp [Term.renameBlank]

/-- Statements with the blank nodes among their subjects and objects relabelled. -/
def relabelled (r : String → String) (statements : List Triple) : List Triple :=
  statements.map (Triple.mapNodes (Term.renameBlank r))

theorem objectsOf_relabelled :
    objectsOf (relabelled r statements) predicate =
      (objectsOf statements predicate).map (Term.renameBlank r) := by
  simp [objectsOf, relabelled, List.filter_map, Function.comp_def, Triple.mapNodes]

theorem objectOf?_relabelled :
    objectOf? (relabelled r statements) predicate =
      (objectOf? statements predicate).map (Term.renameBlank r) := by
  simp [objectOf?, relabelled, List.find?_map, Function.comp_def, Triple.mapNodes]

theorem stringOf?_relabelled :
    stringOf? (relabelled r statements) predicate = stringOf? statements predicate := by
  simp only [stringOf?, objectOf?_relabelled, Option.bind_map, Function.comp_def,
    textOf?_renameBlank]

theorem iriOf?_relabelled :
    iriOf? (relabelled r statements) predicate = iriOf? statements predicate := by
  simp only [iriOf?, objectOf?_relabelled, Option.bind_map, Function.comp_def, iri?_renameBlank]

theorem flagOf_relabelled :
    flagOf (relabelled r statements) predicate = flagOf statements predicate := by
  simp only [flagOf, stringOf?_relabelled]

theorem referenceOf?_relabelled :
    referenceOf? (relabelled r statements) = referenceOf? statements := by
  simp only [referenceOf?, stringOf?_relabelled]

theorem filterMap_iri?_map (terms : List Term) :
    (terms.map (Term.renameBlank r)).filterMap Term.iri? = terms.filterMap Term.iri? := by
  simp only [List.filterMap_map, Function.comp_def, iri?_renameBlank]

theorem filterMap_textOf?_map (terms : List Term) :
    (terms.map (Term.renameBlank r)).filterMap textOf? = terms.filterMap textOf? := by
  simp only [List.filterMap_map, Function.comp_def, textOf?_renameBlank]

theorem follows_termTypeOf :
    Follows id (termTypeOf statements) (termTypeOf (relabelled r statements)) := by
  unfold termTypeOf
  rw [objectOf?_relabelled]
  cases objectOf? statements Vocabulary.termType with
  | none => exact .ok none
  | some term =>
    simp only [Option.map_some, renameBlank_eq_iri]
    split
    next => exact .ok _
    next =>
      split
      next => exact .ok _
      next =>
        split
        next => exact .ok _
        next => exact .error _ _

theorem follows_subjectTermOf (termType : TermType) :
    Follows id (subjectTermOf statements termType)
      (subjectTermOf (relabelled r statements) termType) := by
  unfold subjectTermOf
  rw [stringOf?_relabelled, objectOf?_relabelled, referenceOf?_relabelled]
  cases stringOf? statements Vocabulary.template with
  | some text => exact .ok _
  | none =>
    cases objectOf? statements Vocabulary.constant with
    | some term =>
      simp only [Option.map_some, iri?_renameBlank]
      exact follows_self _
    | none => exact follows_self _

theorem follows_objectTermOf :
    Follows (ObjectTerm.relabel r) (objectTermOf statements)
      (objectTermOf (relabelled r statements)) := by
  unfold objectTermOf
  rw [stringOf?_relabelled, objectOf?_relabelled, objectOf?_relabelled, referenceOf?_relabelled]
  cases objectOf? statements parentTriplesMap with
  | some term =>
    simp only [Option.map_some, iri?_renameBlank]
    exact (follows_self _).bind fun iri => .ok (ObjectTerm.parent iri)
  | none =>
    cases objectOf? statements Vocabulary.constant with
    | some term => exact .ok (ObjectTerm.constant term)
    | none =>
      cases stringOf? statements Vocabulary.template with
      | some text => exact .ok (ObjectTerm.template text)
      | none =>
        cases referenceOf? statements with
        | some text => exact .ok (ObjectTerm.reference text)
        | none => exact .error _ _

/-- The predicates whose objects are looked up as nodes that describe a part of a map. -/
def nodePredicates : List String :=
  [Vocabulary.logicalSource, Vocabulary.subjectMap, predicateMap, predicateObjectMap,
    Vocabulary.objectMap, additionalProperties]

/-- A graph uses a term as such a node. -/
def Uses (g : Graph) (node : Term) : Prop :=
  ∃ t ∈ g.triples, ∃ p ∈ nodePredicates, t.predicate = .iri p ∧ t.object = node

/-- A graph makes statements about a name. -/
def Describes (g : Graph) (iri : String) : Prop := ∃ t ∈ g.triples, t.subject = .iri iri

/-- A whole graph has of a part, under a relabelling of its blank nodes, all statements about the
names that the part describes and the nodes that it uses, and no more. -/
structure Holds (whole part : Graph) (r : String → String) : Prop where
  described : ∀ iri, Describes part iri →
    statementsOf whole (.iri iri) = relabelled r (statementsOf part (.iri iri))
  used : ∀ node, Uses part node →
    statementsOf whole (node.renameBlank r) = relabelled r (statementsOf part node)

theorem mem_of_mem_objectsOf {node : Term} (hn : node ∈ objectsOf statements predicate) :
    ∃ t ∈ statements, t.predicate = .iri predicate ∧ t.object = node := by
  obtain ⟨t, ht, rfl⟩ := List.mem_map.mp hn
  obtain ⟨ht, same⟩ := List.mem_filter.mp ht
  exact ⟨t, ht, by simpa using same, rfl⟩

theorem mem_objectsOf_of_objectOf? {node : Term}
    (found : objectOf? statements predicate = some node) :
    node ∈ objectsOf statements predicate := by
  obtain ⟨t, ht, rfl⟩ := Option.map_eq_some_iff.mp found
  have same := List.find?_some ht
  exact List.mem_map.mpr ⟨t, List.mem_filter.mpr ⟨List.mem_of_find?_eq_some ht, same⟩, rfl⟩

section Parts
variable {whole part : Graph} (holds : Holds whole part r)
include holds

omit holds in
theorem uses_of_mem {node : Term} (inside : statements ⊆ part.triples)
    (pointing : predicate ∈ nodePredicates) (hn : node ∈ objectsOf statements predicate) :
    Uses part node := by
  obtain ⟨t, ht, same, object⟩ := mem_of_mem_objectsOf hn
  exact ⟨t, inside ht, predicate, pointing, same, object⟩

omit holds in
theorem statementsOf_subset (g : Graph) (node : Term) : statementsOf g node ⊆ g.triples :=
  fun _ ht => (List.mem_filter.mp ht).1

theorem follows_logicalSourceOf (inside : statements ⊆ part.triples) :
    Follows id (logicalSourceOf part statements)
      (logicalSourceOf whole (relabelled r statements)) := by
  unfold logicalSourceOf
  rw [objectOf?_relabelled]
  cases found : objectOf? statements Vocabulary.logicalSource with
  | none => exact .ok none
  | some node =>
    have uses := uses_of_mem inside (by decide +kernel) (mem_objectsOf_of_objectOf? found)
    simp only [Option.map_some]
    rw [holds.used node uses]
    simp only [stringOf?_relabelled, objectOf?_relabelled]
    cases objectOf? (statementsOf part node) referenceFormulation with
    | none => exact .ok _
    | some term =>
      simp only [Option.map_some, iri?_renameBlank]
      exact follows_self _

theorem follows_subjectMapOf (inside : statements ⊆ part.triples) :
    Follows id (subjectMapOf part statements) (subjectMapOf whole (relabelled r statements)) := by
  unfold subjectMapOf
  rw [objectOf?_relabelled, objectOf?_relabelled]
  cases objectOf? statements Vocabulary.subject with
  | some term =>
    simp only [Option.map_some, iri?_renameBlank]
    exact follows_self _
  | none =>
    cases found : objectOf? statements Vocabulary.subjectMap with
    | none => exact .ok none
    | some node =>
      have uses := uses_of_mem inside (by decide +kernel) (mem_objectsOf_of_objectOf? found)
      simp only [Option.map_some, Option.map_none]
      rw [holds.used node uses, objectsOf_relabelled, filterMap_iri?_map, flagOf_relabelled]
      refine follows_termTypeOf.bind fun termType => ?_
      dsimp only [id]
      split
      next => exact .error _ _
      next => exact (follows_subjectTermOf _).bind fun term => .ok _

theorem follows_predicatesOf (inside : statements ⊆ part.triples) :
    Follows id (predicatesOf part statements) (predicatesOf whole (relabelled r statements)) := by
  unfold predicatesOf
  rw [objectsOf_relabelled, objectsOf_relabelled]
  have stated : Follows (List.map id)
      ((objectsOf statements Vocabulary.predicate).mapM fun term =>
        require "rr:predicate" "expected IRI" term.iri?)
      (((objectsOf statements Vocabulary.predicate).map (Term.renameBlank r)).mapM fun term =>
        require "rr:predicate" "expected IRI" term.iri?) := by
    refine follows_mapM _ fun term _ => ?_
    rw [iri?_renameBlank]
    exact follows_self _
  refine stated.bind fun stated => ?_
  refine (follows_mapM (f := id) _ fun node hn => ?_).bind fun mapped => ?_
  · have uses := uses_of_mem inside (by decide +kernel) hn
    rw [holds.used node uses, iriOf?_relabelled]
    exact follows_self _
  · rw [List.map_id, List.map_id]
    exact follows_self _

theorem additionalTriplesOf_relabelled (inside : statements ⊆ part.triples) :
    additionalTriplesOf whole (relabelled r statements) =
      (additionalTriplesOf part statements).map fun x => (x.1, x.2.renameBlank r) := by
  unfold additionalTriplesOf
  rw [objectOf?_relabelled]
  cases found : objectOf? statements additionalProperties with
  | none => rfl
  | some node =>
    have uses := uses_of_mem inside (by decide +kernel) (mem_objectsOf_of_objectOf? found)
    simp only [Option.map_some]
    rw [holds.used node uses, relabelled, List.filterMap_map, List.map_filterMap]
    refine List.filterMap_congr fun t _ => ?_
    simp only [Function.comp_apply, Triple.mapNodes, Option.map_map]
    rfl

theorem follows_objectMapOf {node : Term} (uses : Uses part node) :
    Follows (PredicateObjectMap.relabel r) (objectMapOf part node)
      (objectMapOf whole (node.renameBlank r)) := by
  unfold objectMapOf
  rw [holds.used node uses]
  refine follows_objectTermOf.bind fun object => follows_termTypeOf.bind fun termType => ?_
  simp only [iriOf?_relabelled, stringOf?_relabelled, objectsOf_relabelled, filterMap_textOf?_map,
    flagOf_relabelled, additionalTriplesOf_relabelled holds (statementsOf_subset part node)]
  exact .ok _

theorem follows_objectMapsOf (inside : statements ⊆ part.triples) :
    Follows (List.map (PredicateObjectMap.relabel r)) (objectMapsOf part statements)
      (objectMapsOf whole (relabelled r statements)) := by
  unfold objectMapsOf
  rw [objectsOf_relabelled, objectsOf_relabelled]
  have mapped := follows_mapM (objectsOf statements Vocabulary.objectMap)
    fun node hn => follows_objectMapOf holds (uses_of_mem inside (by decide +kernel) hn)
  refine mapped.bind fun mapped => ?_
  have constants (terms : List Term) :
      (terms.map (Term.renameBlank r)).map
          (fun term => { predicate := "", object := .constant term : PredicateObjectMap }) =
        (terms.map fun term =>
          { predicate := "", object := .constant term : PredicateObjectMap }).map
            (PredicateObjectMap.relabel r) := by
    rw [List.map_map, List.map_map]
    rfl
  rw [constants, ← List.map_append]
  simp only [List.isEmpty_map]
  split
  next => exact .error _ _
  next => exact .ok _

theorem follows_predicateObjectMapsOf (inside : statements ⊆ part.triples) :
    Follows (List.map (PredicateObjectMap.relabel r)) (predicateObjectMapsOf part statements)
      (predicateObjectMapsOf whole (relabelled r statements)) := by
  unfold predicateObjectMapsOf
  rw [objectsOf_relabelled]
  refine (follows_mapM (f := List.map (PredicateObjectMap.relabel r)) _ fun node hn => ?_).bind
    fun groups => ?_
  · have known := statementsOf_subset part node
    rw [holds.used node (uses_of_mem inside (by decide +kernel) hn)]
    refine (follows_predicatesOf holds known).bind fun predicates => ?_
    refine (follows_objectMapsOf holds known).bind fun objects => ?_
    -- the predicate of an object map is filled in after its node is read, so it is no matter
    have same : (predicates.flatMap fun predicate =>
          (objects.map (PredicateObjectMap.relabel r)).map fun pom => { pom with predicate }) =
        (predicates.flatMap fun predicate => objects.map fun pom => { pom with predicate }).map
          (PredicateObjectMap.relabel r) := by
      simp only [List.map_flatMap, List.map_map]
      rfl
    simp only [id, same]
    exact .ok _
  · rw [← List.map_flatten]
    exact .ok _

theorem follows_triplesMapOf {iri : String} (described : Describes part iri) :
    Follows (TriplesMap.relabel r) (triplesMapOf part iri) (triplesMapOf whole iri) := by
  have known := statementsOf_subset part (.iri iri)
  unfold triplesMapOf
  rw [holds.described iri described]
  refine (follows_logicalSourceOf holds known).bind fun logicalSource => ?_
  refine (follows_subjectMapOf holds known).bind fun subjectMap => ?_
  refine (follows_predicateObjectMapsOf holds known).bind fun predicateObjectMaps => ?_
  exact .ok _

end Parts

end Rules
end CatalogGraph
