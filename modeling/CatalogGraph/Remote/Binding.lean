import CatalogGraph.Graph.Term
import CatalogGraph.Json.Reader

/-!
Result rows of SPARQL queries and the JSON documents that carry them.
-/
namespace CatalogGraph

/-- The value of a variable in a row, as the document words it. -/
structure BindingValue where
  kind : String
  value : String
  datatype : Option String := none
  language : Option String := none
deriving DecidableEq, Repr

/-- A row: the values of the variables that have one. -/
abbrev Binding := Entries BindingValue

namespace BindingValue

def uri (value : String) : BindingValue := { kind := "uri", value }

def literal (value : String) : BindingValue := { kind := "literal", value }

def isUri (v : BindingValue) : Bool := v.kind == "uri"

/-- The term that a value stands for; a kind other than name and node is a literal, and a
language counts before a datatype. -/
def toTerm (v : BindingValue) : Term :=
  if v.kind = "uri" then .iri v.value
  else if v.kind = "bnode" then .blank v.value
  else match v.language, v.datatype with
    | some tag, _ => .tagged v.value tag
    | none, some datatype => .typed v.value datatype
    | none, none => .string v.value

def toJson (v : BindingValue) : Json :=
  .ofMembers ([("type", .string v.kind), ("value", .string v.value)] ++
    (v.datatype.map fun s => ("datatype", .string s)).toList ++
    (v.language.map fun s => ("xml:lang", .string s)).toList)

end BindingValue

/-- A result document. -/
structure ResultDocument where
  names : List String
  rows : List Binding

namespace ResultDocument
open Json (Written text?)

/-- The members of an object under their names. -/
def named? (members : List (List Char × Written)) : Option (List (String × Written)) :=
  members.mapM fun (key, v) => (text? key).map fun name => (name, v)

/-- The values of named fields of a record, which is written as an object that has none of them
twice or as an array in their order. What stands under other names is not looked at. -/
def fields? (names : List String) : Written → Option (List (Option Written))
  | .object members => do
    let members ← named? members
    if names.any fun name => 1 < (members.filter (·.1 == name)).length then none
    else some (names.map fun name => members.lookup name)
  | .array items =>
    if names.length < items.length then none
    else some (items.map some ++ List.replicate (names.length - items.length) none)
  | _ => none

def string? : Written → Option String
  | .string body => text? body
  | _ => none

/-- A text that may be missing or null. -/
def optionalText? : Option Written → Option (Option String)
  | none => some none
  | some .null => some none
  | some v => (string? v).map some

def bindingValue? (v : Written) : Option BindingValue := do
  match ← fields? ["type", "value", "datatype", "xml:lang"] v with
  | [some kind, some value, datatype, language] =>
    return {
      kind := ← string? kind, value := ← string? value
      datatype := ← optionalText? datatype, language := ← optionalText? language }
  | _ => none

def binding? : Written → Option Binding
  | .object members => do
    let pairs ← (← named? members).mapM fun (name, v) =>
      (bindingValue? v).map fun value => (name, value)
    return Entries.ofPairs pairs
  | _ => none

/-- Reads a row. -/
def parseRow? (text : String) : Option Binding := (Written.parse? text).bind binding?

def list? : Option Written → Option (List Written)
  | none => some []
  | some (.array items) => some items
  | some _ => none

/-- What a written result document says. -/
def ofWritten? (v : Written) : Option ResultDocument := do
  match ← fields? ["head", "results"] v with
  | [head, some results] =>
    let names ← match head with
      | none => some []
      | some head => do
        match ← fields? ["vars"] head with
        | [vars] => (← list? vars).mapM string?
        | _ => none
    let rows ← do
      match ← fields? ["bindings"] results with
      | [bindings] => (← list? bindings).mapM binding?
      | _ => none
    return { names, rows }
  | _ => none

/-- Reads a result document. -/
def parse? (text : String) : Option ResultDocument := (Written.parse? text).bind ofWritten?

end ResultDocument
end CatalogGraph
