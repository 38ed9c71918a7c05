import CatalogGraph.Text.Blank
import CatalogGraph.XPath.Syntax
import CatalogGraph.Xml.Document

/-!
The items that a path selects: step by step from the items reached so far, each item once and in
the order in which it is first reached.
-/
namespace CatalogGraph.XPath
open Xml (Document Item Name)

/-- Whether a name passes a test for elements or attributes. -/
def NodeTest.admitsName (test : NodeTest) (name : Name) : Bool :=
  match test with
  | .name namespaceIri localName =>
    name.localName == localName && (namespaceIri.isNone || name.namespaceIri == namespaceIri)
  | .wildcard | .node => true
  | .text => false

/-- Whether an element passes a test; the document passes none. -/
def elementMatches (d : Document) (test : NodeTest) (id : Nat) : Bool :=
  id != Xml.documentId && test.admitsName (d.element id).name

/-- The items along an axis from an item that pass a test. -/
def axisItems (d : Document) (item : Item) (axis : Axis) (test : NodeTest) : List Item :=
  match axis with
  | .self =>
    match item with
    | .element id => if test == .node || elementMatches d test id then [item] else []
    | _ => if test == .node then [item] else []
  | .parent =>
    let parent := match item with
      | .element id => d.parent? id
      | .attribute id _ => some id
      | .text id => some id
    ((parent.filter fun p => test == .node || elementMatches d test p).map Item.element).toList
  | .child =>
    match item with
    | .element id =>
      if test == .text then
        if (d.directText id).isEmpty then [] else [.text id]
      else ((d.childElements id).filter (elementMatches d test)).map Item.element
    | _ => []
  | .descendantOrSelf =>
    match item with
    | .element id =>
      ((d.descendantsOrSelf id).filter fun c => test == .node || elementMatches d test c).map
        Item.element
    | _ => [item]
  | .attribute =>
    match item with
    | .element id =>
      (((d.element id).attributes.zipIdx).filter fun (a, _) =>
        test.admitsName a.name).map fun (_, place) => Item.attribute id place
    | _ => []

/-- The items that follow the ones seen, each once. -/
def newItems : List Item → List Item → List Item
  | _, [] => []
  | seen, item :: rest =>
    if seen.contains item then newItems seen rest else item :: newItems (item :: seen) rest

/-- The item at a place counted from 1; there is none at place 0. -/
def atPosition : Nat → List Item → List Item
  | 0, _ => []
  | n + 1, items => (items[n]?).toList

mutual

/-- The items that a path selects from an item. -/
def LocationPath.select (d : Document) : LocationPath → Item → List Item
  | .mk absolute steps, item =>
    selectSteps d steps [if absolute then .element Xml.documentId else item]

/-- The items that steps reach from the given ones. -/
def selectSteps (d : Document) : List Step → List Item → List Item
  | [], items => items
  | step :: rest, items =>
    selectSteps d rest (newItems [] (items.flatMap fun item => step.select d item))

/-- The items that one step reaches from an item. -/
def Step.select (d : Document) : Step → Item → List Item
  | .mk axis test predicates, item => filterAll d predicates (axisItems d item axis test)

/-- The items that predicates leave, applied one after another. -/
def filterAll (d : Document) : List Predicate → List Item → List Item
  | [], items => items
  | predicate :: rest, items => filterAll d rest (predicate.keep d items)

/-- The items that a predicate leaves. -/
def Predicate.keep (d : Document) : Predicate → List Item → List Item
  | .position n, items => atPosition n items
  | .filter condition, items => items.filter fun item => condition.holds d item

/-- Whether a condition holds at an item. Values are compared without white space at their ends. -/
def Condition.holds (d : Document) : Condition → Item → Bool
  | .present path, item => !(path.select d item).isEmpty
  | .equals path value, item =>
    (path.select d item).any fun found => Text.trim (d.stringValue found) == value
  | .differs path value, item =>
    (path.select d item).any fun found => Text.trim (d.stringValue found) != value
  | .not inner, item => !inner.holds d item
  | .and left right, item => left.holds d item && right.holds d item
  | .or left right, item => left.holds d item || right.holds d item

end

end CatalogGraph.XPath
