import CatalogGraph.Mapping.Compiled
import CatalogGraph.Rules.Extract
import CatalogGraph.Turtle.Document

/-!
Rule documents: one or several in Turtle, whose blank nodes stay apart.
-/
namespace CatalogGraph.Rules

/-- Reads one document. -/
def ofTurtle (text : String) : Except MappingError Graph :=
  match Turtle.parse text with
  | .ok g => .ok g
  | .error fault => .error (.parse fault)

/-- Reads documents into a graph, the blank nodes of number `n` with `d{n}_` in front. -/
def mergeDocuments : Nat → Graph → List String → Except MappingError Graph
  | _, g, [] => .ok g
  | n, g, text :: rest => do
    let parsed ← ofTurtle text
    mergeDocuments (n + 1) (g.mergeScoped parsed ("d" ++ toString n ++ "_")) rest

/-- Reads several documents. -/
def ofDocuments (texts : List String) : Except MappingError Graph := mergeDocuments 0 {} texts

/-- Compiles the maps that a graph describes. -/
def compile (g : Graph) : Except MappingError Mapping := do
  Mapping.compile (← extract g)

end CatalogGraph.Rules
