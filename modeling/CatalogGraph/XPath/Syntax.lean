/-!
Location paths over XML documents: steps along an axis to items that pass a test, filtered by
predicates.
-/
namespace CatalogGraph.XPath

/-- The direction of a step. -/
inductive Axis where
  | child
  | descendantOrSelf
  | self
  | parent
  | attribute
deriving DecidableEq, Repr

/-- What a step selects; a name without a namespace stands for any namespace. -/
inductive NodeTest where
  | name (namespaceIri : Option String) (localName : String)
  | wildcard
  | text
  | node
deriving DecidableEq, Repr

mutual

/-- Steps from the document, if the path is absolute, or from an item. -/
inductive LocationPath where
  | mk (absolute : Bool) (steps : List Step)

/-- A move along an axis, and the predicates that the items pass one after another. -/
inductive Step where
  | mk (axis : Axis) (test : NodeTest) (predicates : List Predicate)

/-- A condition on the items of a step, or the place, from 1, of the one that stays. -/
inductive Predicate where
  | position (n : Nat)
  | filter (condition : Condition)

/-- A question about an item, answered by the paths that start there. -/
inductive Condition where
  | present (path : LocationPath)
  | equals (path : LocationPath) (value : String)
  | differs (path : LocationPath) (value : String)
  | not (inner : Condition)
  | and (left right : Condition)
  | or (left right : Condition)

end

/-- The step that two slashes stand for. -/
def Step.descendants : Step := .mk .descendantOrSelf .node []

/-- Why a text is no path. -/
inductive Fault where
  | loneBang
  | unterminatedLiteral
  | positionOutOfRange
  | danglingColon
  | unexpectedCharacter (c : Char)
  | expectedStep
  | expectedAttributeName
  | unsupportedTest (name : String)
  | positionZero
  | expectedBracket
  | expectedParenthesis
  | expectedParenthesisAfterNot
  | unknownPrefix (name : String)
  | expectedLiteral
  | trailingInput
deriving DecidableEq, Repr

def Fault.message : Fault → String
  | .loneBang => "expected '=' after '!'"
  | .unterminatedLiteral => "unterminated string literal"
  | .positionOutOfRange => "position out of range"
  | .danglingColon => "dangling ':' in name"
  | .unexpectedCharacter c => "unexpected character '" ++ c.toString ++ "'"
  | .expectedStep => "expected a location step"
  | .expectedAttributeName => "expected attribute name after '@'"
  | .unsupportedTest name => "unsupported node test " ++ name ++ "()"
  | .positionZero => "positions start at 1"
  | .expectedBracket => "expected ']'"
  | .expectedParenthesis => "expected ')'"
  | .expectedParenthesisAfterNot => "expected ')' after not("
  | .unknownPrefix name => "unknown namespace prefix '" ++ name ++ "'"
  | .expectedLiteral => "expected a string literal"
  | .trailingInput => "unexpected trailing input"

end CatalogGraph.XPath
