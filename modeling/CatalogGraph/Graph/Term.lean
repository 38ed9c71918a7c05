/-!
RDF terms: names, blank nodes and literals, with the order in which answers list them.
-/
namespace CatalogGraph

namespace Vocabulary
def rdfNamespace : String := "http://www.w3.org/1999/02/22-rdf-syntax-ns#"
def rdfType : String := rdfNamespace ++ "type"
def rdfValue : String := rdfNamespace ++ "value"
def rdfFirst : String := rdfNamespace ++ "first"
def rdfRest : String := rdfNamespace ++ "rest"
def rdfNil : String := rdfNamespace ++ "nil"
def rdfLangString : String := rdfNamespace ++ "langString"
def xsdNamespace : String := "http://www.w3.org/2001/XMLSchema#"
def xsdString : String := xsdNamespace ++ "string"
def xsdInteger : String := xsdNamespace ++ "integer"
def xsdDecimal : String := xsdNamespace ++ "decimal"
def xsdDouble : String := xsdNamespace ++ "double"
def xsdBoolean : String := xsdNamespace ++ "boolean"
def xsdDateTime : String := xsdNamespace ++ "dateTime"
end Vocabulary

/-- A literal: its text, the IRI of its datatype and the tag of its language. -/
structure Literal where
  value : String
  datatype : String := Vocabulary.xsdString
  language : Option String := none
deriving DecidableEq, Repr, Inhabited

/-- A node or a name of a graph. -/
inductive Term where
  | iri (name : String)
  | blank (label : String)
  | literal (content : Literal)
deriving DecidableEq, Repr, Inhabited

namespace Literal

/-- Whether the literal is a plain string. -/
def isString (l : Literal) : Bool := l.datatype == Vocabulary.xsdString

/-- Whether the datatype is the one of texts with a language. -/
def isLangString (l : Literal) : Bool := l.datatype == Vocabulary.rdfLangString

/-- Literals are ordered by datatype, then language, where none comes first, then text. -/
def order (a b : Literal) : Ordering :=
  let languages : Ordering := match a.language, b.language with
    | none, none => .eq
    | none, some _ => .lt
    | some _, none => .gt
    | some l, some m => compare l m
  (compare a.datatype b.datatype).then (languages.then (compare a.value b.value))

end Literal

namespace Term

/-- A plain string. -/
def string (value : String) : Term := .literal { value }

/-- A literal with a datatype. -/
def typed (value datatype : String) : Term := .literal { value, datatype }

/-- A text in a language. -/
def tagged (value language : String) : Term :=
  .literal { value, datatype := Vocabulary.rdfLangString, language := some language }

def isIri : Term → Bool
  | .iri _ => true
  | _ => false

def isBlank : Term → Bool
  | .blank _ => true
  | _ => false

def isLiteral : Term → Bool
  | .literal _ => true
  | _ => false

/-- The name of a term that is a name. -/
def iri? : Term → Option String
  | .iri name => some name
  | _ => none

/-- The label of a term that is a blank node. -/
def blank? : Term → Option String
  | .blank label => some label
  | _ => none

/-- The content of a term that is a literal. -/
def literal? : Term → Option Literal
  | .literal content => some content
  | _ => none

/-- The text of a term without its marks: the name, the label or the value. -/
def lexical : Term → String
  | .iri name => name
  | .blank label => label
  | .literal content => content.value

/-- Blank nodes come first, then names, then literals. -/
def rank : Term → Nat
  | .blank _ => 0
  | .iri _ => 1
  | .literal _ => 2

/-- The order of terms, by kind and then by content. -/
def order : Term → Term → Ordering
  | .iri a, .iri b => compare a b
  | .blank a, .blank b => compare a b
  | .literal a, .literal b => a.order b
  | a, b => compare a.rank b.rank

/-- The node that stands for a term once blank nodes are named by `rename`. -/
def renameBlank (rename : String → String) : Term → Term
  | .blank label => .blank (rename label)
  | other => other

end Term

/-- A statement of a graph. -/
structure Triple where
  subject : Term
  predicate : Term
  object : Term
deriving DecidableEq, Repr, Inhabited

namespace Triple

/-- Whether a term is the subject or the object. -/
def mentions (t : Triple) (term : Term) : Bool :=
  t.subject == term || t.object == term

/-- Statements are ordered by subject, predicate and object. -/
def order (a b : Triple) : Ordering :=
  (a.subject.order b.subject).then
    ((a.predicate.order b.predicate).then (a.object.order b.object))

/-- The statement with `f` applied to its subject and its object. -/
def mapNodes (f : Term → Term) (t : Triple) : Triple :=
  { t with subject := f t.subject, object := f t.object }

end Triple
end CatalogGraph
