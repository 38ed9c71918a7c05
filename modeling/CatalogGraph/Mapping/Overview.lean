import CatalogGraph.Mapping.Compiled
import CatalogGraph.Text.Grid

/-!
The overview of a mapping: a table with a row for each map.
-/
namespace CatalogGraph

/-- How the subjects of a map are found. -/
def SubjectMap.summary (s : SubjectMap) : String :=
  match s.term with
  | some (.constant iri) => iri
  | some (.template text) => text
  | some (.reference text) => "ref " ++ text
  | some .blank | none => "blank node"

/-- The classes of the subjects, one a line, and whether they are to be identified. -/
def SubjectMap.classSummary (s : SubjectMap) : String :=
  "\n".intercalate s.classes ++ if s.dedup then " (dedup)" else ""

namespace Mapping

/-- When a map runs. -/
def schedule (mapping : Mapping) (m : TriplesMap) : String :=
  if m.isInert then "never"
  else if mapping.isParentOnly m.iri then "as parent"
  else "top level"

/-- The cells of a map. -/
def overviewRow (mapping : Mapping) (m : TriplesMap) : List String :=
  [m.iri, (m.formulation?.map Formulation.name).getD "-",
   (m.logicalSource.bind (·.iterator)).getD "",
   (m.subjectMap.map SubjectMap.summary).getD "-",
   (m.subjectMap.map SubjectMap.classSummary).getD "",
   toString m.predicateObjectMaps.length, mapping.schedule m]

def overview (mapping : Mapping) : Text.Grid where
  header := ["Map", "Source", "Iterator", "Subject", "Classes", "POMs", "Runs"]
  rows := mapping.maps.map mapping.overviewRow

end Mapping
end CatalogGraph
