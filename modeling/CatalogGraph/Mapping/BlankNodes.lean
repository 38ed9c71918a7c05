import CatalogGraph.Mapping.Rule

/-!
Blank nodes that a run creates, and the terms that values become.
-/
namespace CatalogGraph

/-- The blank nodes given out so far: numbered labels under one start, and the node of each value
that has one. -/
structure BlankNodes where
  start : String
  next : Nat := 0
  byValue : Entries Term := []
deriving Repr

namespace BlankNodes

/-- A node that was not given out before. -/
def fresh (b : BlankNodes) : Term × BlankNodes :=
  (.blank (b.start ++ toString b.next), { b with next := b.next + 1 })

/-- The node of a value. -/
def forValue (b : BlankNodes) (value : String) : Term × BlankNodes :=
  match b.byValue.get? value with
  | some node => (node, b)
  | none =>
    let (node, b) := b.fresh
    (node, { b with byValue := b.byValue.insert value node })

end BlankNodes

namespace PredicateObjectMap

/-- The literal of a value: in the language, or else of the datatype, or else a string. -/
def literalOf (pom : PredicateObjectMap) (value : String) : Term :=
  match pom.language, pom.datatype with
  | some tag, _ => .tagged value tag
  | none, some datatype => .typed value datatype
  | none, none => .string value

/-- The term of a value. Without a term type, a value with a language or a datatype is a literal,
and one that starts as a web address is a name. -/
def termOf (pom : PredicateObjectMap) (value : String) (b : BlankNodes) : Term × BlankNodes :=
  match pom.termType with
  | some .iri => (.iri value, b)
  | some .blank => b.forValue value
  | some .literal => (pom.literalOf value, b)
  | none =>
    if pom.datatype.isSome || pom.language.isSome then (pom.literalOf value, b)
    else if "http".toList.isPrefixOf value.toList then (.iri value, b)
    else (.string value, b)

/-- The terms of values in order. -/
def termsOf (pom : PredicateObjectMap) : List String → BlankNodes → List Term × BlankNodes
  | [], b => ([], b)
  | value :: rest, b =>
    let (term, b) := pom.termOf value b
    let (terms, b) := pom.termsOf rest b
    (term :: terms, b)

end PredicateObjectMap
end CatalogGraph
