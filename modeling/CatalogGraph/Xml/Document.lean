import CatalogGraph.Entries
import CatalogGraph.Xml.Event

/-!
XML documents as numbered elements. Element 0 is the document itself; any other element has a
smaller number than the elements within it, and a number for each place in document order.
-/
namespace CatalogGraph.Xml

/-- A name with the namespace that its prefix stands for. -/
structure Name where
  namespaceIri : Option String := none
  localName : String := ""
deriving DecidableEq, Repr, Inhabited

/-- The text of a name: its namespace in braces and the local part. -/
def Name.render (name : Name) : String :=
  match name.namespaceIri with
  | some iri => "\x7b" ++ iri ++ "\x7d" ++ name.localName
  | none => name.localName

/-- An attribute that is no declaration of a namespace. -/
structure Attribute where
  name : Name
  value : String
deriving DecidableEq, Repr, Inhabited

/-- What an element holds, in order. -/
inductive Child where
  | element (id : Nat)
  | text (content : String)
deriving DecidableEq, Repr, Inhabited

/-- An element; the document itself is one without a name. -/
structure Element where
  name : Name := {}
  attributes : List Attribute := []
  parent : Option Nat := none
  children : List Child := []
deriving Repr, Inhabited

/-- The elements of a document by number. -/
structure Document where
  elements : Array Element := #[{}]
deriving Repr, Inhabited

/-- What a path selects: an element, an attribute by its place, or the text of an element. -/
inductive Item where
  | element (id : Nat)
  | attribute (id place : Nat)
  | text (id : Nat)
deriving DecidableEq, Repr, Inhabited

/-- The number of the document. -/
def documentId : Nat := 0

/-- The namespaces declared on one element, by prefix; the empty prefix is the default. -/
abbrev Declarations := List (String × String)

def xmlNamespace : String := "http://www.w3.org/XML/1998/namespace"

/-- The namespace of a prefix by the last declaration on the nearest element that has one. -/
def lookupPrefix (scopes : List Declarations) (name : String) : Option String :=
  scopes.findSome? fun declared => (declared.reverse.find? (·.1 == name)).map (·.2)

/-- The parts of a written name before and behind its first colon. -/
def splitName (raw : List Char) : Option (List Char) × List Char :=
  if raw.contains ':' then
    (some (raw.takeWhile (· ≠ ':')), (raw.dropWhile (· ≠ ':')).drop 1)
  else (none, raw)

/-- The name that a written one stands for; the default namespace is for elements only, and an
empty one is none. -/
def resolveName (scopes : List Declarations) (isElement : Bool) (raw : List Char) : Name :=
  let (start, localPart) := splitName raw
  let namespaceIri := match start with
    | some cs =>
      let name := String.ofList cs
      if name = "xml" then some xmlNamespace else lookupPrefix scopes name
    | none =>
      if isElement then (lookupPrefix scopes "").filter (· ≠ "") else none
  { namespaceIri, localName := String.ofList localPart }

/-- The value behind an equals sign and the text behind its closing quote. -/
def attributeValue? (cs : List Char) : Option (List Char × List Char) :=
  match cs.dropWhile isSpace with
  | q :: rest =>
    if q = '"' || q = '\'' then
      match rest.dropWhile (· ≠ q) with
      | _ :: left => some (rest.takeWhile (· ≠ q), left)
      | [] => none
    else none
  | [] => none

/-- The next attribute behind white space and the text behind it. -/
def attribute? (c : Char) (cs : List Char) : Option ((List Char × List Char) × List Char) :=
  let isEnd := fun (d : Char) => d = '=' || isSpace d
  let key := c :: cs.takeWhile (! isEnd ·)
  match (cs.dropWhile (! isEnd ·)).dropWhile isSpace with
  | '=' :: rest => (attributeValue? rest).map fun (value, left) => ((key, value), left)
  | _ => none

/-- The attributes in the text of a tag as they are written, at most as many as given. -/
def rawAttributes : Nat → List Char → Option (List (List Char × List Char))
  | 0, _ => some []
  | fuel + 1, cs =>
    match cs.dropWhile isSpace with
    | [] => some []
    | c :: rest =>
      match attribute? c rest with
      | some (pair, left) => (rawAttributes fuel left).map (pair :: ·)
      | none => none

/-- The attributes of a tag with their values, if each has one and no two the same key. -/
def attributesOf (cs : List Char) : Option (List (List Char × String)) := do
  let pairs ← rawAttributes (cs.length + 1) cs
  let values ← pairs.mapM fun (key, raw) => (unescape raw).map fun v => (key, String.ofList v)
  if (values.map (·.1)).Nodup then some values else none

/-- The prefix that an attribute declares, if it is a declaration. -/
def declaredPrefix? (key : List Char) : Option String :=
  if key = "xmlns".toList then some ""
  else (Text.afterStart? "xmlns:".toList key).map String.ofList

/-- The declarations among the attributes of a tag. -/
def declarationsOf (attributes : List (List Char × String)) : Declarations :=
  attributes.filterMap fun (key, value) => (declaredPrefix? key).map fun name => (name, value)

/-- The attributes of a tag that are no declarations. -/
def plainAttributes (scopes : List Declarations) (attributes : List (List Char × String)) :
    List Attribute :=
  (attributes.filter fun pair => (declaredPrefix? pair.1).isNone).map fun pair =>
    { name := resolveName scopes false pair.1, value := pair.2 }

/-- An element that is still open: its number, its name as written, and the declarations on it. -/
structure Open where
  id : Nat
  rawName : List Char
  declared : Declarations

/-- A document under construction with its open elements, the innermost first. -/
structure Builder where
  document : Document := {}
  opened : List Open := []

namespace Builder

/-- The number of the innermost open element. -/
def current (b : Builder) : Nat := (b.opened.head?.map (·.id)).getD documentId

def scopes (b : Builder) : List Declarations := b.opened.map (·.declared)

/-- Appends a child to an element; a text joins the text before it. -/
def appendChild (child : Child) (children : List Child) : List Child :=
  match child, children.getLast? with
  | .text more, some (.text before) => children.dropLast ++ [.text (before ++ more)]
  | _, _ => children ++ [child]

def addChild (d : Document) (id : Nat) (child : Child) : Document :=
  { d with elements := d.elements.modify id fun e =>
      { e with children := appendChild child e.children } }

/-- Adds an element within the innermost open one; `written` are its attributes. -/
def addElement (b : Builder) (rawName : List Char) (written : List (List Char × String)) :
    Open × Document :=
  let declared := declarationsOf written
  let scopes := declared :: b.scopes
  let id := b.document.elements.size
  let element : Element :=
    { name := resolveName scopes true rawName
      attributes := plainAttributes scopes written
      parent := some b.current }
  let document := { b.document with elements := b.document.elements.push element }
  (⟨id, rawName, declared⟩, addChild document b.current (.element id))

/-- Adds text to the innermost open element; outside of elements there is none. -/
def addText (b : Builder) (text : String) : Builder :=
  match b.opened with
  | [] => b
  | element :: _ => { b with document := addChild b.document element.id (.text text) }

/-- The builder after one more event. -/
def step (b : Builder) : Event → Except Fault Builder
  | .opening name text =>
    match attributesOf text with
    | some written =>
      let (element, document) := b.addElement name written
      .ok { document, opened := element :: b.opened }
    | none => .error .attribute
  | .empty name text =>
    match attributesOf text with
    | some written => .ok { b with document := (b.addElement name written).2 }
    | none => .error .attribute
  | .closing name =>
    match b.opened with
    | element :: rest =>
      if element.rawName = name then .ok { b with opened := rest } else .error .markup
    | [] => .error .markup
  | .text raw =>
    match unescape raw with
    | some cs => .ok (b.addText (String.ofList cs))
    | none => .error .text
  | .cdata content => .ok (b.addText (String.ofList content))
  | .skipped => .ok b
  | .broken => .error .markup

end Builder

namespace Document

def size (d : Document) : Nat := d.elements.size

/-- The element of a number; a number without an element stands for an empty one. -/
def element (d : Document) (id : Nat) : Element := d.elements.getD id {}

def parent? (d : Document) (id : Nat) : Option Nat := (d.element id).parent

/-- The numbers of the elements directly within an element. -/
def childElements (d : Document) (id : Nat) : List Nat :=
  (d.element id).children.filterMap fun
    | .element child => some child
    | .text _ => none

/-- The first element that is not within another. -/
def root? (d : Document) : Option Nat := (d.childElements documentId).head?

/-- The element and those within it, in document order. -/
def descendantsOrSelf (d : Document) (id : Nat) : List Nat :=
  id :: (d.childElements id).flatMap fun child =>
    if _bounds : id < child ∧ child < d.size then descendantsOrSelf d child else []
termination_by d.size - id

/-- The text directly within an element. -/
def directText (d : Document) (id : Nat) : String :=
  String.join ((d.element id).children.filterMap fun
    | .text content => some content
    | .element _ => none)

/-- The text within an element and the elements within it, in document order. -/
def textContent (d : Document) (id : Nat) : String :=
  String.join ((d.element id).children.map fun
    | .text content => content
    | .element child =>
      if _bounds : id < child ∧ child < d.size then textContent d child else "")
termination_by d.size - id

/-- The text that an item stands for. -/
def stringValue (d : Document) : Item → String
  | .element id => d.textContent id
  | .attribute id place => (((d.element id).attributes)[place]?.map (·.value)).getD ""
  | .text id => d.directText id

/-- The document of a sequence of events, if every element is closed and there is one. -/
def ofEvents (events : List Event) : Except Fault Document := do
  let b ← events.foldlM Builder.step {}
  if !b.opened.isEmpty then throw .unclosedElement
  if b.document.root?.isNone then throw .noRoot
  return b.document

/-- Reads an XML document. -/
def parse (text : String) : Except Fault Document := ofEvents (documentEvents text)

end Document
end CatalogGraph.Xml
