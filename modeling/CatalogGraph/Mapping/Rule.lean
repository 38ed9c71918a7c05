import CatalogGraph.Graph.Term
import CatalogGraph.Source.Node

/-!
Mapping rules: where rows come from, which subject a row has, and which objects it gets.
-/
namespace CatalogGraph

/-- The kind of term that a value becomes. -/
inductive TermType where
  | iri
  | blank
  | literal
deriving DecidableEq, Repr

namespace Formulation

/-- The name of a formulation in messages. -/
def name : Formulation → String
  | .xpath => "XPath"
  | .jsonPath => "JSONPath"
  | .sparql => "SPARQL bindings"
  | .rows => "rows"

end Formulation

/-- Where the rows of a map come from. -/
structure LogicalSource where
  source : Option String := none
  iterator : Option String := none
  formulation : Formulation
  query : Option String := none
deriving DecidableEq, Repr

/-- How the subject of a row is found. -/
inductive SubjectTerm where
  | constant (iri : String)
  | template (text : String)
  | reference (text : String)
  | blank
deriving DecidableEq, Repr

/-- How a row becomes a subject, and which classes the subject has. -/
structure SubjectMap where
  term : Option SubjectTerm
  termType : TermType := .iri
  classes : List String := []
  dedup : Bool := false
deriving DecidableEq, Repr

/-- How the objects of a row are found; a parent gives the subjects of another map. -/
inductive ObjectTerm where
  | constant (term : Term)
  | template (text : String)
  | reference (text : String)
  | parent (iri : String)
deriving DecidableEq, Repr

/-- How a row becomes the objects of one predicate. -/
structure PredicateObjectMap where
  predicate : String
  object : ObjectTerm
  datatype : Option String := none
  language : Option String := none
  termType : Option TermType := none
  delimiters : List String := []
  /-- The class of a node that stands between the subject and each value. -/
  subEntityClass : Option String := none
  valuePredicate : String := Vocabulary.rdfValue
  /-- Whether a node of that class that the subject already has takes the value. -/
  reuse : Bool := false
  additionalTriples : List (String × Term) := []
deriving DecidableEq, Repr

namespace PredicateObjectMap

def isParent (pom : PredicateObjectMap) : Bool :=
  match pom.object with
  | .parent _ => true
  | _ => false

/-- Whether every value becomes a literal. -/
def isLiteralOnly (pom : PredicateObjectMap) : Bool :=
  match pom.termType with
  | some type => type == .literal
  | none => pom.datatype.isSome || pom.language.isSome

end PredicateObjectMap

/-- A map from rows to statements. -/
structure TriplesMap where
  iri : String
  logicalSource : Option LogicalSource := none
  subjectMap : Option SubjectMap := none
  predicateObjectMaps : List PredicateObjectMap := []
deriving DecidableEq, Repr

namespace TriplesMap

/-- Whether the map has no rows. -/
def isInert (m : TriplesMap) : Bool := m.logicalSource.isNone

def formulation? (m : TriplesMap) : Option Formulation := m.logicalSource.map (·.formulation)

/-- The maps whose subjects the map links to, in order. -/
def parentRefs (m : TriplesMap) : List String :=
  m.predicateObjectMaps.filterMap fun pom =>
    match pom.object with
    | .parent iri => some iri
    | _ => none

end TriplesMap
end CatalogGraph
