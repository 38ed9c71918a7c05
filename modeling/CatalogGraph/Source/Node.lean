import CatalogGraph.Json.Reader
import CatalogGraph.Mapping.Error
import CatalogGraph.Remote.Binding
import CatalogGraph.XPath.Parser
import CatalogGraph.XPath.Select

/-!
Sources of data and the nodes in them: what an iterator makes rows of, and where references are
looked up.
-/
namespace CatalogGraph

/-- How references and iterators of a map are worded. -/
inductive Formulation where
  | xpath
  | jsonPath
  | sparql
  | rows
deriving DecidableEq, Repr

/-- A document that has been read. -/
inductive Source where
  | xml (document : Xml.Document)
  | json (value : Json)
  | rows (table : List Row)
  | none

/-- A place in a source. -/
inductive Node where
  | xml (document : Xml.Document) (item : Xml.Item)
  | json (value : Json)
  | table (rows : List Row)
  | row (values : Row)
  | binding (values : Binding)
  | empty

namespace Source

def ofXml (text : String) : Except MappingError Source :=
  match Xml.Document.parse text with
  | .ok document => .ok (.xml document)
  | .error fault => .error (.source (.xml fault))

def ofJson (text : String) : Except MappingError Source :=
  match Json.parse? text with
  | some value => .ok (.json value)
  | Option.none => .error (.source .json)

def ofDelimited (delimiter : Char) (text : String) : Except MappingError Source :=
  match Table.parse delimiter text with
  | .ok table => .ok (.rows table)
  | .error fault => .error (.source (.table fault))

/-- The node that stands for the whole source. -/
def root : Source → Node
  | .xml document => .xml document (.element Xml.documentId)
  | .json value => .json value
  | .rows table => .table table
  | .none => .empty

end Source

namespace Node

def kindName : Node → String
  | .xml _ _ => "XML"
  | .json _ => "JSON"
  | .table _ => "rows"
  | .row _ => "row"
  | .binding _ => "SPARQL bindings"
  | .empty => "no source"

/-- Whether maps of a formulation work on the node; a query works on any. -/
def accepts : Node → Formulation → Bool
  | .xml _ _, .xpath => true
  | .json _, .jsonPath => true
  | .table _, .rows => true
  | .row _, .rows => true
  | _, .sparql => true
  | _, _ => false

def compileXPath (namespaces : Entries String) (text : String) :
    Except MappingError XPath.LocationPath :=
  match XPath.compile namespaces text with
  | .ok path => .ok path
  | .error fault => .error (.invalidPath text (.xpath fault))

def compileJsonPath (text : String) : Except MappingError JsonPath.Path :=
  match JsonPath.compile text with
  | .ok path => .ok path
  | .error fault => .error (.invalidPath text (.jsonPath fault))

/-- The rows that a selected JSON value stands for: the items of an array, none for null, and
otherwise the value. -/
def jsonRows : Json → List Json
  | .array items => items
  | .null => []
  | v => [v]

/-- The rows of a node under an iterator. -/
def iterate (namespaces : Entries String) (iterator : Option String) :
    Node → Except MappingError (List Node)
  | .xml document item =>
    match iterator with
    | none => .ok [.xml document item]
    | some text => do
      let path ← compileXPath namespaces text
      return (path.select document item).map (.xml document)
  | .json value =>
    match iterator with
    | none => .ok ((jsonRows value).map .json)
    | some text => do
      let path ← compileJsonPath text
      return ((path.select value).flatMap jsonRows).map .json
  | .table rows => .ok (rows.map .row)
  | .row values => .ok [.row values]
  | .binding values => .ok [.binding values]
  | .empty => .ok []

/-- The texts under a reference before they are trimmed. -/
def rawValues (namespaces : Entries String) (reference : String) :
    Node → Except MappingError (List String)
  | .xml document item => do
    let path ← compileXPath namespaces reference
    return (path.select document item).map document.stringValue
  | .json value => do
    let path ← compileJsonPath reference
    return path.strings value
  | .row values => .ok (values.get? reference).toList
  | .binding values => .ok ((values.get? reference).map (·.value)).toList
  | .table _ => .ok []
  | .empty => .ok []

/-- The values under a reference: without white space at their ends, and none that is empty. -/
def values (namespaces : Entries String) (reference : String) (node : Node) :
    Except MappingError (List String) := do
  let raw ← node.rawValues namespaces reference
  return (raw.map Text.trim).filter (· ≠ "")

/-- The first value under a reference. -/
def first? (namespaces : Entries String) (reference : String) (node : Node) :
    Except MappingError (Option String) := do
  return (← node.values namespaces reference).head?

/-- The row of a query that the node is, if it is one. -/
def binding? : Node → Option Binding
  | .binding values => some values
  | _ => none

end Node
end CatalogGraph
