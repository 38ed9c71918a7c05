import CatalogGraph.Entries
import CatalogGraph.Graph.NTriples

/-!
Graphs: statements in the order in which they were added, repeats kept, with a base and the
namespaces that prefixes stand for.
-/
namespace CatalogGraph

/-- A list of statements with a base and declared prefixes. -/
structure Graph where
  triples : List Triple := []
  base : Option String := none
  prefixes : Entries String := []
deriving Inhabited

namespace Graph

def empty : Graph := {}

def ofTriples (triples : List Triple) : Graph := { triples }

def size (g : Graph) : Nat := g.triples.length

def isEmpty (g : Graph) : Bool := g.triples.isEmpty

/-- Adds a statement at the end. -/
def add (g : Graph) (t : Triple) : Graph := { g with triples := g.triples ++ [t] }

/-- Adds statements at the end. -/
def addAll (g : Graph) (ts : List Triple) : Graph := { g with triples := g.triples ++ ts }

def setBase (g : Graph) (base : String) : Graph := { g with base := some base }

/-- Declares a prefix, in place of an earlier declaration. -/
def addPrefix (g : Graph) (name namespaceIri : String) : Graph :=
  { g with prefixes := g.prefixes.insert name namespaceIri }

def contains (g : Graph) (s p o : Term) : Bool := g.triples.contains ⟨s, p, o⟩

/-- The objects that a subject has under a predicate, in order. -/
def objects (g : Graph) (s p : Term) : List Term :=
  (g.triples.filter fun t => t.subject == s && t.predicate == p).map (·.object)

/-- The first object that a subject has under a predicate. -/
def object? (g : Graph) (s p : Term) : Option Term := (g.objects s p).head?

/-- Whether a subject is stated to be of a class. -/
def hasType (g : Graph) (s : Term) (cls : String) : Bool :=
  (g.objects s (.iri Vocabulary.rdfType)).contains (.iri cls)

/-- The terms of a list, each once, in the order in which they first occur. -/
def firstOccurrences (terms : List Term) : List Term :=
  terms.foldl (fun seen t => if seen.contains t then seen else seen ++ [t]) []

/-- The subjects stated to be of a class, each once, in the order of their first statement. -/
def subjectsWithType (g : Graph) (cls : String) : List Term :=
  firstOccurrences ((g.triples.filter fun t =>
    t.predicate == .iri Vocabulary.rdfType && t.object == .iri cls).map (·.subject))

/-- The subjects in ascending order, each once. -/
def subjects (g : Graph) : List Term :=
  let sorted := (g.triples.map (·.subject)).mergeSort fun a b => (a.order b).isLE
  sorted.foldr (fun t rest => if rest.head? == some t then rest else t :: rest) []

/-- The statements in ascending order. -/
def sortedTriples (g : Graph) : List Triple :=
  g.triples.mergeSort fun a b => (a.order b).isLE

/-- The number of places, as subject or as object, in which a term stands. -/
def occurrences (g : Graph) (term : Term) : Nat :=
  (g.triples.flatMap fun t => [t.subject, t.object]).count term

/-- The term `other` in place of `term`, and any other term as it is. -/
def substitute (term other : Term) (t : Term) : Term := if t = term then other else t

/-- Writes one term in place of another wherever that one is subject or object. -/
def replaceTerm (g : Graph) (term other : Term) : Graph :=
  { g with triples := g.triples.map (Triple.mapNodes (substitute term other)) }

/-- Appends the statements of a graph whose blank nodes get `scope` in front of their labels; a
prefix that both declare keeps its meaning. -/
def mergeScoped (g other : Graph) (scope : String) : Graph :=
  { g with
    triples := g.triples ++ other.triples.map (Triple.mapNodes (Term.renameBlank (scope ++ ·)))
    prefixes := other.prefixes.foldl (fun acc entry => acc.insertNew entry.1 entry.2) g.prefixes }

/-- The graph without the statements that repeat an earlier one. -/
def retainUnique (g : Graph) : Graph := { g with triples := g.triples.eraseDups }

/-- The lines of the N-Triples form, without their line ends. -/
def lines (g : Graph) : List String := g.triples.map Triple.render

/-- The N-Triples form: each statement on a line of its own. -/
def render (g : Graph) : String := String.join (g.lines.map (· ++ "\n"))

end Graph
end CatalogGraph
