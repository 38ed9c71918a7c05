import CatalogGraph.Graph.Basic

/-!
Building a graph from terms that are created first and named by number afterwards, as a reader
of a document does.
-/
namespace CatalogGraph

/-- A graph under construction, with the terms created so far. -/
structure Collector where
  graph : Graph := {}
  terms : Array Term := #[]
  /-- The number of blank nodes created without a label. -/
  unlabelled : Nat := 0
  /-- The number of the term for each label seen. -/
  labels : Entries Nat := []

namespace Collector

/-- Enters a term and gives its number. -/
def newTerm (c : Collector) (t : Term) : Nat × Collector :=
  (c.terms.size, { c with terms := c.terms.push t })

def newIri (c : Collector) (name : String) : Nat × Collector := c.newTerm (.iri name)

/-- The blank node of a label, or a node of its own where there is none. -/
def newBlank (c : Collector) : Option String → Nat × Collector
  | some label =>
    match c.labels.get? label with
    | some id => (id, c)
    | none =>
      let (id, c) := c.newTerm (.blank label)
      (id, { c with labels := c.labels.insert label id })
  | none =>
    let count := c.unlabelled + 1
    { c with unlabelled := count }.newTerm (.blank ("genid" ++ toString count))

/-- A literal, which is a text in a language where one is given. -/
def newLiteral (c : Collector) (value datatype : String) : Option String → Nat × Collector
  | some tag => c.newTerm (.tagged value tag)
  | none => c.newTerm (.typed value datatype)

/-- Adds the statement whose terms have the given numbers, if they all exist. -/
def emit (c : Collector) (s p o : Nat) : Option Collector := do
  let s ← c.terms[s]?
  let p ← c.terms[p]?
  let o ← c.terms[o]?
  return { c with graph := c.graph.add ⟨s, p, o⟩ }

end Collector
end CatalogGraph
