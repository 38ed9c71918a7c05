import CatalogGraph.Graph.Basic
import CatalogGraph.Mapping.Rule
import CatalogGraph.Rules.Vocabulary

/-!
Rules read from a graph: each map with its source, its subject and its objects, by the statements
about the nodes that describe them.
-/
namespace CatalogGraph.Rules
open CatalogGraph.Rules.Vocabulary

/-- The statements about a node, in order. -/
def statementsOf (g : Graph) (node : Term) : List Triple :=
  g.triples.filter (·.subject == node)

/-- The objects under a predicate, in order. -/
def objectsOf (statements : List Triple) (predicate : String) : List Term :=
  (statements.filter (·.predicate == .iri predicate)).map (·.object)

/-- The first object under a predicate. -/
def objectOf? (statements : List Triple) (predicate : String) : Option Term :=
  (statements.find? (·.predicate == .iri predicate)).map (·.object)

/-- The text of a name or a literal. -/
def textOf? : Term → Option String
  | .literal l => some l.value
  | .iri name => some name
  | .blank _ => none

/-- The text of the first object under a predicate. -/
def stringOf? (statements : List Triple) (predicate : String) : Option String :=
  (objectOf? statements predicate).bind textOf?

/-- The name that the first object under a predicate is. -/
def iriOf? (statements : List Triple) (predicate : String) : Option String :=
  (objectOf? statements predicate).bind Term.iri?

/-- Whether a text says yes. -/
def isTrue (s : String) : Bool :=
  let word := Text.trim s
  word == "true" || word == "1"

def flagOf (statements : List Triple) (predicate : String) : Bool :=
  (stringOf? statements predicate).any isTrue

/-- A value, or the complaint that a property has none that is fit. -/
def require {α : Type} (property reason : String) : Option α → Except MappingError α
  | some a => .ok a
  | none => .error (.invalidValue property reason)

def formulationOf (iri : String) : Except MappingError Formulation :=
  if iri = qlXPath then .ok .xpath
  else if iri = qlJsonPath then .ok .jsonPath
  else if iri = qlSparql then .ok .sparql
  else if iri = qlCsv then .ok .rows
  else .error (.invalidValue "rml:referenceFormulation" ("unsupported formulation " ++ iri))

/-- The logical source of a map; without a stated formulation, one with a query is for bindings. -/
def logicalSourceOf (g : Graph) (statements : List Triple) :
    Except MappingError (Option LogicalSource) :=
  match objectOf? statements Vocabulary.logicalSource with
  | none => .ok none
  | some node => do
    let inner := statementsOf g node
    let query := stringOf? inner Vocabulary.query
    let formulation ← match objectOf? inner referenceFormulation with
      | some term => do
        formulationOf (← require "rml:referenceFormulation" "expected IRI" term.iri?)
      | none => pure (if query.isSome then .sparql else .rows)
    return some
      { source := stringOf? inner Vocabulary.source
        iterator := stringOf? inner Vocabulary.iterator
        formulation, query }

/-- The stated term type. -/
def termTypeOf (statements : List Triple) : Except MappingError (Option TermType) :=
  match objectOf? statements Vocabulary.termType with
  | none => .ok none
  | some term =>
    if term = .iri iriType then .ok (some .iri)
    else if term = .iri blankType then .ok (some .blank)
    else if term = .iri literalType then .ok (some .literal)
    else .error (.invalidValue "rr:termType" ("unknown term type " ++ term.render))

/-- The stated reference, which may also be a column. -/
def referenceOf? (statements : List Triple) : Option String :=
  (stringOf? statements Vocabulary.reference).orElse fun _ => stringOf? statements column

/-- How a subject map says that subjects are found: a template counts before a constant, and that
before a reference. -/
def subjectTermOf (inner : List Triple) (termType : TermType) :
    Except MappingError (Option SubjectTerm) :=
  match stringOf? inner Vocabulary.template with
  | some text => .ok (some (.template text))
  | none =>
    match objectOf? inner Vocabulary.constant with
    | some term => do
      let iri ← require "rr:constant" "subject constant must be an IRI" term.iri?
      return some (.constant iri)
    | none =>
      match referenceOf? inner with
      | some text => .ok (some (.reference text))
      | none => .ok (if termType = .blank then some .blank else none)

/-- The subject map of a map, which may be just a constant. -/
def subjectMapOf (g : Graph) (statements : List Triple) :
    Except MappingError (Option SubjectMap) :=
  match objectOf? statements Vocabulary.subject with
  | some term => do
    let iri ← require "rr:subject" "expected IRI" term.iri?
    return some { term := some (.constant iri) }
  | none =>
    match objectOf? statements Vocabulary.subjectMap with
    | none => .ok none
    | some node => do
      let inner := statementsOf g node
      let termType := (← termTypeOf inner).getD .iri
      if termType = .literal then
        throw (.invalidValue "rr:termType" "subjects cannot be literals")
      let term ← subjectTermOf inner termType
      return some
        { term, termType
          classes := (objectsOf inner classOf).filterMap Term.iri?
          dedup := flagOf inner Vocabulary.dedup }

/-- The predicates of a predicate-object map: the stated ones, and then those of predicate maps. -/
def predicatesOf (g : Graph) (statements : List Triple) : Except MappingError (List String) := do
  let stated ← (objectsOf statements Vocabulary.predicate).mapM fun term =>
    require "rr:predicate" "expected IRI" term.iri?
  let mapped ← (objectsOf statements predicateMap).mapM fun node =>
    match iriOf? (statementsOf g node) Vocabulary.constant with
    | some iri => pure iri
    | none => throw (.missingProperty "rr:constant in rr:predicateMap")
  let all := stated ++ mapped
  if all.isEmpty then throw (.missingProperty "rr:predicate or rr:predicateMap")
  return all

/-- How an object map says that objects are found. -/
def objectTermOf (inner : List Triple) : Except MappingError ObjectTerm :=
  match objectOf? inner parentTriplesMap with
  | some term => do
    return .parent (← require "rr:parentTriplesMap" "expected IRI" term.iri?)
  | none =>
    match objectOf? inner Vocabulary.constant with
    | some term => .ok (.constant term)
    | none =>
      match stringOf? inner Vocabulary.template with
      | some text => .ok (.template text)
      | none =>
        match referenceOf? inner with
        | some text => .ok (.reference text)
        | none => .error (.missingProperty
            "rr:constant, rr:template, rml:reference or rr:parentTriplesMap")

/-- The statements about the node of additional properties, to be made about each sub-entity. -/
def additionalTriplesOf (g : Graph) (inner : List Triple) : List (String × Term) :=
  match objectOf? inner additionalProperties with
  | none => []
  | some node => (statementsOf g node).filterMap fun t =>
      t.predicate.iri?.map fun p => (p, t.object)

/-- The object map of a node, still without its predicate. -/
def objectMapOf (g : Graph) (node : Term) : Except MappingError PredicateObjectMap := do
  let inner := statementsOf g node
  let object ← objectTermOf inner
  let termType ← termTypeOf inner
  return {
    predicate := "", object, termType
    datatype := iriOf? inner Vocabulary.datatype
    language := stringOf? inner Vocabulary.language
    delimiters := (objectsOf inner Vocabulary.delimiter).filterMap textOf?
    subEntityClass := iriOf? inner classOf
    valuePredicate := (iriOf? inner Vocabulary.valuePredicate).getD CatalogGraph.Vocabulary.rdfValue
    reuse := flagOf inner reuseBlankNode
    additionalTriples := additionalTriplesOf g inner }

/-- The object maps of a predicate-object map: the stated constants, and then the object maps. -/
def objectMapsOf (g : Graph) (statements : List Triple) :
    Except MappingError (List PredicateObjectMap) := do
  let constants := (objectsOf statements Vocabulary.object).map fun term =>
    { predicate := "", object := .constant term : PredicateObjectMap }
  let mapped ← (objectsOf statements Vocabulary.objectMap).mapM (objectMapOf g)
  let all := constants ++ mapped
  if all.isEmpty then throw (.missingProperty "rr:object or rr:objectMap")
  return all

/-- The predicate-object maps of a map: each predicate with each object map. -/
def predicateObjectMapsOf (g : Graph) (statements : List Triple) :
    Except MappingError (List PredicateObjectMap) := do
  let groups ← (objectsOf statements predicateObjectMap).mapM fun node => do
    let inner := statementsOf g node
    let predicates ← predicatesOf g inner
    let objects ← objectMapsOf g inner
    return predicates.flatMap fun predicate => objects.map fun pom => { pom with predicate }
  return groups.flatten

/-- The map that the statements about a name describe. -/
def triplesMapOf (g : Graph) (iri : String) : Except MappingError TriplesMap := do
  let statements := statementsOf g (.iri iri)
  let logicalSource ← logicalSourceOf g statements
  let subjectMap ← subjectMapOf g statements
  let predicateObjectMaps ← predicateObjectMapsOf g statements
  return { iri, logicalSource, subjectMap, predicateObjectMaps }

/-- The name that a statement marks as a map: by its class, its source or its subject. -/
def markedMap? (t : Triple) : Option String :=
  match t.subject, t.predicate with
  | .iri name, .iri p =>
    if p = CatalogGraph.Vocabulary.rdfType then
      if t.object = .iri Vocabulary.triplesMap then some name else none
    else if p = Vocabulary.logicalSource || p = Vocabulary.subjectMap || p = Vocabulary.subject then
      some name
    else none
  | _, _ => none

/-- The names of the maps in the order in which they are first marked. -/
def mapNames (g : Graph) : List String :=
  (g.triples.filterMap markedMap?).foldl
    (fun seen name => if seen.contains name then seen else seen ++ [name]) []

/-- The maps that a graph describes. -/
def extract (g : Graph) : Except MappingError (List TriplesMap) :=
  (mapNames g).mapM (triplesMapOf g)

end CatalogGraph.Rules
