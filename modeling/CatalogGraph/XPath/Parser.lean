import CatalogGraph.Entries
import CatalogGraph.XPath.Token

/-!
Reading a path from its tokens. A conjunction binds tighter than a disjunction, and both group to
the left.
-/
namespace CatalogGraph.XPath

/-- The test for a written name, whose prefix has to be known. -/
def nameTest (namespaces : Entries String) (text : String) : Except Fault NodeTest :=
  let cs := text.toList
  if cs.contains ':' then
    let name := String.ofList (cs.takeWhile (· ≠ ':'))
    let localName := String.ofList ((cs.dropWhile (· ≠ ':')).drop 1)
    match namespaces.get? name with
    | none => .error (.unknownPrefix name)
    | some iri =>
      if localName = "*" then .ok .wildcard else .ok (.name (some iri) localName)
  else .ok (.name none text)

/-- Whether a token begins a step. -/
def Token.startsStep : Token → Bool
  | .dot | .doubleDot | .at | .star | .name _ => true
  | _ => false

/-- The axis and the test of a step. -/
def stepHead (namespaces : Entries String) :
    List Token → Except Fault ((Axis × NodeTest) × List Token)
  | .dot :: rest => .ok ((.self, .node), rest)
  | .doubleDot :: rest => .ok ((.parent, .node), rest)
  | .at :: .star :: rest => .ok ((.attribute, .wildcard), rest)
  | .at :: .name text :: rest =>
    (nameTest namespaces text).map fun test => ((.attribute, test), rest)
  | .at :: _ => .error .expectedAttributeName
  | .star :: rest => .ok ((.child, .wildcard), rest)
  | .name text :: .openParenthesis :: .closeParenthesis :: rest =>
    if text = "text" then .ok ((.child, .text), rest)
    else if text = "node" then .ok ((.child, .node), rest)
    else .error (.unsupportedTest text)
  | .name _ :: .openParenthesis :: _ => .error .expectedParenthesis
  | .name text :: rest => (nameTest namespaces text).map fun test => ((.child, test), rest)
  | _ => .error .expectedStep

/-- A string that a comparison names; a number stands for its digits. -/
def literal : List Token → Except Fault (String × List Token)
  | .literal s :: rest => .ok (s, rest)
  | .number n :: rest => .ok (toString n, rest)
  | _ => .error .expectedLiteral

mutual

/-- A path in any place. -/
def locationPath (namespaces : Entries String) :
    Nat → List Token → Except Fault (LocationPath × List Token)
  | 0, _ => .error .expectedStep
  | fuel + 1, tokens =>
    match tokens with
    | .slash :: rest =>
      if rest.head?.any Token.startsStep then
        (steps namespaces fuel rest).map fun (ss, left) => (.mk true ss, left)
      else .ok (.mk true [], rest)
    | .doubleSlash :: rest =>
      (steps namespaces fuel rest).map fun (ss, left) => (.mk true (.descendants :: ss), left)
    | _ => (steps namespaces fuel tokens).map fun (ss, left) => (.mk false ss, left)

/-- Steps between slashes. -/
def steps (namespaces : Entries String) :
    Nat → List Token → Except Fault (List Step × List Token)
  | 0, _ => .error .expectedStep
  | fuel + 1, tokens => do
    let (step, rest) ← step namespaces fuel tokens
    match rest with
    | .slash :: rest => (steps namespaces fuel rest).map fun (ss, left) => (step :: ss, left)
    | .doubleSlash :: rest =>
      (steps namespaces fuel rest).map fun (ss, left) => (step :: .descendants :: ss, left)
    | rest => .ok ([step], rest)

/-- One step with its predicates. -/
def step (namespaces : Entries String) : Nat → List Token → Except Fault (Step × List Token)
  | 0, _ => .error .expectedStep
  | fuel + 1, tokens => do
    let ((axis, test), rest) ← stepHead namespaces tokens
    let (found, rest) ← predicates namespaces fuel rest
    .ok (.mk axis test found, rest)

/-- The predicates behind a step. -/
def predicates (namespaces : Entries String) :
    Nat → List Token → Except Fault (List Predicate × List Token)
  | 0, _ => .error .expectedStep
  | fuel + 1, tokens =>
    match tokens with
    | .openBracket :: .number n :: .closeBracket :: rest =>
      if n = 0 then .error .positionZero
      else (predicates namespaces fuel rest).map fun (ps, left) => (.position n :: ps, left)
    | .openBracket :: rest => do
      let (condition, rest) ← disjunction namespaces fuel rest
      match rest with
      | .closeBracket :: rest =>
        (predicates namespaces fuel rest).map fun (ps, left) => (.filter condition :: ps, left)
      | _ => .error .expectedBracket
    | _ => .ok ([], tokens)

/-- Conjunctions joined by "or". -/
def disjunction (namespaces : Entries String) :
    Nat → List Token → Except Fault (Condition × List Token)
  | 0, _ => .error .expectedStep
  | fuel + 1, tokens => do
    let (left, rest) ← conjunction namespaces fuel tokens
    moreAlternatives namespaces fuel left rest

/-- The alternatives behind the ones read so far. -/
def moreAlternatives (namespaces : Entries String) :
    Nat → Condition → List Token → Except Fault (Condition × List Token)
  | 0, _, _ => .error .expectedStep
  | fuel + 1, left, tokens =>
    match tokens with
    | .name "or" :: rest => do
      let (right, rest) ← conjunction namespaces fuel rest
      moreAlternatives namespaces fuel (.or left right) rest
    | _ => .ok (left, tokens)

/-- Comparisons joined by "and". -/
def conjunction (namespaces : Entries String) :
    Nat → List Token → Except Fault (Condition × List Token)
  | 0, _ => .error .expectedStep
  | fuel + 1, tokens => do
    let (left, rest) ← comparison namespaces fuel tokens
    moreConjuncts namespaces fuel left rest

/-- The conjuncts behind the ones read so far. -/
def moreConjuncts (namespaces : Entries String) :
    Nat → Condition → List Token → Except Fault (Condition × List Token)
  | 0, _, _ => .error .expectedStep
  | fuel + 1, left, tokens =>
    match tokens with
    | .name "and" :: rest => do
      let (right, rest) ← comparison namespaces fuel rest
      moreConjuncts namespaces fuel (.and left right) rest
    | _ => .ok (left, tokens)

/-- A negation, a condition in parentheses, or a path with what it is compared with. -/
def comparison (namespaces : Entries String) :
    Nat → List Token → Except Fault (Condition × List Token)
  | 0, _ => .error .expectedStep
  | fuel + 1, tokens =>
    match tokens with
    | .name "not" :: .openParenthesis :: rest => do
      let (inner, rest) ← disjunction namespaces fuel rest
      match rest with
      | .closeParenthesis :: rest => .ok (.not inner, rest)
      | _ => .error .expectedParenthesisAfterNot
    | .openParenthesis :: rest => do
      let (inner, rest) ← disjunction namespaces fuel rest
      match rest with
      | .closeParenthesis :: rest => .ok (inner, rest)
      | _ => .error .expectedParenthesis
    | _ => do
      let (path, rest) ← locationPath namespaces fuel tokens
      match rest with
      | .equals :: rest => (literal rest).map fun (s, left) => (.equals path s, left)
      | .differs :: rest => (literal rest).map fun (s, left) => (.differs path s, left)
      | _ => .ok (.present path, rest)

end

/-- Enough steps of reading for a number of tokens: no more than seven pass without taking one. -/
def readingSteps (tokens : List Token) : Nat := 8 * tokens.length + 8

/-- Reads a path that takes all of the tokens. -/
def parseTokens (namespaces : Entries String) (tokens : List Token) :
    Except Fault LocationPath := do
  let (path, rest) ← locationPath namespaces (readingSteps tokens) tokens
  if rest.isEmpty then .ok path else .error .trailingInput

/-- Compiles the text of a path under the namespaces that prefixes stand for. -/
def compile (namespaces : Entries String) (text : String) : Except Fault LocationPath := do
  parseTokens namespaces (← tokenize text.toList)

end CatalogGraph.XPath
