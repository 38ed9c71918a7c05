import CatalogGraph.Json.Value
import CatalogGraph.Mapping.Context

/-!
The settings of a run.
-/
namespace CatalogGraph

/-- The namespaces that paths know by default. -/
def defaultNamespaces : Entries String := Entries.ofPairs
  [("mods", "http://www.loc.gov/mods/v3"),
   ("dc", "http://purl.org/dc/elements/1.1/"),
   ("oai", "http://www.openarchives.org/OAI/2.0/"),
   ("oai_dc", "http://www.openarchives.org/OAI/2.0/oai_dc/"),
   ("marc", "http://www.loc.gov/MARC21/slim"),
   ("xlink", "http://www.w3.org/1999/xlink")]

/-- The settings that a mapping runs under. -/
structure Config where
  baseIri : String := "http://example.org/"
  namedValues : Entries String := []
  namespaces : Entries String := defaultNamespaces
  blankPrefix : String := "b"
  pageSize : Nat := 1000
deriving Repr

namespace Config

/-- The context that a run starts from: the base, a generator of identifiers under `uuid`, and
the named values, which win over both. -/
def context (c : Config) (uuids : Generator) : Context :=
  c.namedValues.foldl (fun ctx entry => Context.set entry.1 entry.2 ctx)
    (Entries.insert "uuid" (.generator uuids) (Context.set "base_iri" c.baseIri .empty))

/-- The settings as a JSON object. -/
def toJson (c : Config) : Json := .ofMembers
  [("base_iri", .string c.baseIri),
   ("named_values", .object (c.namedValues.map fun (k, v) => (k, .string v))),
   ("namespaces", .object (c.namespaces.map fun (k, v) => (k, .string v))),
   ("blank_node_prefix", .string c.blankPrefix),
   ("bindings_page_size", .ofNat c.pageSize)]

end Config
end CatalogGraph
