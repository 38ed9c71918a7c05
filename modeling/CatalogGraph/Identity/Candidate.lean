import CatalogGraph.Remote.Store
import CatalogGraph.Text.Blank

/-!
Candidates: known names with their labels, and the services that list them.
-/
namespace CatalogGraph

namespace Vocabulary
def rdfsLabel : String := "http://www.w3.org/2000/01/rdf-schema#label"
def schemaName : String := "http://schema.org/name"
def altLabel : String := "http://www.w3.org/2004/02/skos/core#altLabel"
def bibframe : String := "http://id.loc.gov/ontologies/bibframe/"
end Vocabulary

namespace Identity

/-- What candidates are asked for: a class, and a second class that they shall have too. -/
structure CandidateKey where
  cls : String
  second : Option String := none
deriving DecidableEq, Repr

/-- A known name and its label. -/
structure Candidate where
  iri : String
  label : String
deriving DecidableEq, Repr

/-- A service that lists candidates, whose answers depend on its state `σ`. -/
structure CandidateSource (σ : Type) where
  /-- Whether an answer depends on the key only, so that one answer serves all labels. -/
  isCacheable : Bool
  lookup : CandidateKey → String → σ → Except RemoteError (List Candidate) × σ

def defaultLabelPredicates : List String :=
  [Vocabulary.rdfsLabel, Vocabulary.rdfValue, Vocabulary.schemaName]

/-- The query for the candidates of a key. -/
def candidateQuery (labelPredicates : List String) (key : CandidateKey) : String :=
  let path := "|".intercalate (labelPredicates.map fun p => "<" ++ p ++ ">")
  let second := match key.second with
    | some cls => " ?iri a <" ++ cls ++ "> ."
    | none => ""
  "SELECT DISTINCT ?iri ?label WHERE \x7b ?iri a <" ++ key.cls ++ "> ." ++ second ++
    " ?iri " ++ path ++ " ?label . FILTER(isIRI(?iri)) \x7d"

/-- The candidate of a row, if it has a name and a label. -/
def candidateOf? (row : Binding) : Option Candidate := do
  let iri ← (row.get? "iri").filter (·.isUri)
  let label ← row.get? "label"
  return { iri := iri.value, label := Text.trim label.value }

/-- The candidates in a triple store. -/
def ofStore {σ : Type} (store : TripleStore σ) (labelPredicates : List String) :
    CandidateSource σ where
  isCacheable := true
  lookup key _ s :=
    match store.query (candidateQuery labelPredicates key) s with
    | (.ok rows, s) => (.ok (rows.filterMap candidateOf?), s)
    | (.error e, s) => (.error e, s)

/-- The lists of the suggestion service by class. -/
def defaultSchemes : Entries String := Entries.ofPairs
  [(Vocabulary.bibframe ++ "Agent", "authorities/names"),
   (Vocabulary.bibframe ++ "Person", "authorities/names"),
   (Vocabulary.bibframe ++ "Organization", "authorities/names"),
   (Vocabulary.bibframe ++ "Topic", "authorities/subjects")]

/-- The list for a key: that of the second class, or else that of the class. -/
def schemeFor? (schemes : Entries String) (key : CandidateKey) : Option String :=
  ((key.second.bind fun cls => schemes.get? cls)).or (schemes.get? key.cls)

/-- The candidates that a service suggests for a label, given how it is asked: by an address and
the label. A class without a list has none. -/
def ofSuggestions {σ : Type} (base : String) (schemes : Entries String)
    (ask : String → String → σ → Except RemoteError (List Candidate) × σ) : CandidateSource σ where
  isCacheable := false
  lookup key label s :=
    match schemeFor? schemes key with
    | none => (.ok [], s)
    | some scheme => ask (base ++ "/" ++ scheme ++ "/suggest/") label s

end Identity
end CatalogGraph
