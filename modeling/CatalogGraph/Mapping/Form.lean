import CatalogGraph.Mapping.Compiled

/-!
The JSON form of rules.
-/
namespace CatalogGraph

def Term.toJson : Term → Json
  | .iri name => .ofMembers [("Iri", .string name)]
  | .blank label => .ofMembers [("BlankNode", .string label)]
  | .literal l => .ofMembers [("Literal", .ofMembers
      [("value", .string l.value), ("datatype", .string l.datatype),
       ("language", .optional .string l.language)])]

def TermType.toJson : TermType → Json
  | .iri => .string "Iri"
  | .blank => .string "BlankNode"
  | .literal => .string "Literal"

namespace Formulation

def toJson : Formulation → Json
  | .xpath => .string "XPath"
  | .jsonPath => .string "JsonPath"
  | .sparql => .string "Sparql"
  | .rows => .string "Rows"

def ofJson? : Json → Option Formulation
  | .string "XPath" => some .xpath
  | .string "JsonPath" => some .jsonPath
  | .string "Sparql" => some .sparql
  | .string "Rows" => some .rows
  | _ => none

/-- The name of what runs the maps of a formulation. -/
def engine : Formulation → String
  | .xpath => "Xml"
  | .jsonPath => "Json"
  | .sparql => "Bindings"
  | .rows => "Rows"

end Formulation

def LogicalSource.toJson (s : LogicalSource) : Json := .ofMembers
  [("source", .optional .string s.source), ("iterator", .optional .string s.iterator),
   ("formulation", s.formulation.toJson), ("query", .optional .string s.query)]

def SubjectTerm.toJson : SubjectTerm → Json
  | .constant iri => .ofMembers [("Constant", .string iri)]
  | .template text => .ofMembers [("Template", .string text)]
  | .reference text => .ofMembers [("Reference", .string text)]
  | .blank => .string "BlankNode"

def SubjectMap.toJson (s : SubjectMap) : Json := .ofMembers
  [("term", .optional SubjectTerm.toJson s.term), ("term_type", s.termType.toJson),
   ("classes", .strings s.classes), ("dedup", .bool s.dedup)]

def ObjectTerm.toJson : ObjectTerm → Json
  | .constant term => .ofMembers [("Constant", term.toJson)]
  | .template text => .ofMembers [("Template", .string text)]
  | .reference text => .ofMembers [("Reference", .string text)]
  | .parent iri => .ofMembers [("Parent", .string iri)]

def PredicateObjectMap.toJson (pom : PredicateObjectMap) : Json := .ofMembers
  [("predicate", .string pom.predicate), ("object", pom.object.toJson),
   ("datatype", .optional .string pom.datatype), ("language", .optional .string pom.language),
   ("term_type", .optional TermType.toJson pom.termType), ("delimiters", .strings pom.delimiters),
   ("sub_entity_class", .optional .string pom.subEntityClass),
   ("value_predicate", .string pom.valuePredicate),
   ("reuse_existing_blank_node", .bool pom.reuse),
   ("additional_triples", .array (pom.additionalTriples.map fun (p, o) =>
      .array [.string p, o.toJson]))]

/-- The form of a map within its mapping. -/
def TriplesMap.toJson (mapping : Mapping) (m : TriplesMap) : Json := .ofMembers
  [("iri", .string m.iri), ("logical_source", .optional LogicalSource.toJson m.logicalSource),
   ("subject_map", .optional SubjectMap.toJson m.subjectMap),
   ("predicate_object_maps", .array (m.predicateObjectMaps.map PredicateObjectMap.toJson)),
   ("inert", .bool m.isInert), ("parent_only", .bool (mapping.isParentOnly m.iri)),
   ("engine", .optional (fun f => .string (Formulation.engine f ++ " " ++ f.name)) m.formulation?),
   ("parents", .strings m.parentRefs)]

def Mapping.toJson (mapping : Mapping) : Json := .ofMembers
  [("len", .ofNat mapping.size), ("empty", .bool mapping.maps.isEmpty),
   ("maps", .array (mapping.maps.map (TriplesMap.toJson mapping))),
   ("top_level", .strings (mapping.topLevel.map (·.iri))),
   ("dedup_classes", .strings mapping.dedupClasses)]

end CatalogGraph
