import CatalogGraph.Graph.Basic
import CatalogGraph.Turtle.Token

/-!
Turtle documents: statements over abbreviated names, nested property lists and collections, read
into a graph. A nested node is complete before the statement that has it as object.
-/
namespace CatalogGraph.Turtle

/-- What has been read: the declarations in force, the statements, and the text to come. -/
structure Reading where
  rest : List Char
  base : Option IriReference := none
  prefixes : Entries String := []
  /-- The number of nodes without a label. -/
  anonymous : Nat := 0
  triples : Array Triple := #[]

/-- A step of reading. -/
abbrev Read := StateT Reading (Except Fault)

/-- How deep brackets and parentheses may nest. -/
def nestingLimit : Nat := 128

/-- Reads a token. -/
def token {α : Type} (scan : List Char → Token α) : Read α := fun r =>
  (scan r.rest).map fun (value, rest) => (value, { r with rest })

/-- Passes over blanks and comments. -/
def skipBlanks : Read Unit := modify fun r => { r with rest := skip r.rest }

/-- The character that comes next. -/
def next? : Read (Option Char) := return (← get).rest.head?

/-- Passes over one character. -/
def advance : Read Unit := modify fun r => { r with rest := r.rest.drop 1 }

/-- Passes over a character that has to come next. -/
def require (c : Char) : Read Unit := do
  if (← next?) == some c then advance else throw .unexpected

/-- Passes over one of the marks that may come next. -/
def accept (c : Char) : Read Bool := do
  if (← next?) == some c then
    advance
    return true
  else return false

/-- Adds a statement. -/
def state (s p o : Term) : Read Unit :=
  modify fun r => { r with triples := r.triples.push ⟨s, p, o⟩ }

/-- The label of a node without one, by its number with at least eight digits. -/
def anonymousLabel (n : Nat) : String :=
  let digits := toString n
  "riog" ++ String.ofList (List.replicate (8 - digits.length) '0') ++ digits

/-- A new node without a label. -/
def anonymousNode : Read Term := do
  let n := (← get).anonymous + 1
  modify fun r => { r with anonymous := n }
  return .blank (anonymousLabel n)

/-- The label kept for a written one: a label that looks like that of a node without one gets a
letter more, so that the two never meet. -/
def keptLabel (cs : List Char) : String :=
  let clash := match Text.afterStart? "riog".toList cs with
    | some rest => 8 ≤ rest.length && (rest.take 8).all Char.isDigit && (rest.drop 8).all (· == 'd')
    | none => false
  String.ofList (if clash then cs ++ ['d'] else cs)

/-- A name in angle brackets. -/
def bracketedIri : Read IriReference := do
  require '<'
  let text ← token iriText
  match Iri.resolve? (← get).base text with
  | some iri => return iri
  | none => throw (.invalidIri (String.ofList text))

/-- The text of a name, in brackets or abbreviated by a prefix. -/
def iriName : Read String := do
  if (← next?) == some '<' then
    return String.ofList (← bracketedIri).toChars
  else
    let name := String.ofList (← token prefixName)
    match (← get).prefixes.get? name with
    | some start => return start ++ String.ofList (← token localName)
    | none => throw (.unknownPrefix name)

/-- The predicate of a statement. -/
def verb : Read Term := do
  match (← get).rest with
  | 'a' :: rest =>
    if rest.head?.any fun c => isNameLike c || c == '.' || c == ':' then
      return .iri (← iriName)
    else
      advance
      return .iri Vocabulary.rdfType
  | _ => return .iri (← iriName)

/-- A string with the language or datatype behind it. -/
def stringLiteral : Read Term := do
  let value := String.ofList (← token quotedString)
  skipBlanks
  if ← accept '@' then
    return .tagged value (← token languageTag)
  else if ← accept '^' then
    require '^'
    skipBlanks
    return .typed value (← iriName)
  else return .string value

/-- A number as a literal of its kind. -/
def numberLiteral : Read Term := do
  let (kind, digits) ← token number
  return .typed (String.ofList digits) (match kind with
    | .integer => Vocabulary.xsdInteger
    | .decimal => Vocabulary.xsdDecimal
    | .double => Vocabulary.xsdDouble)

/-- The text behind a truth value, if one comes next and no longer name. -/
def truthValue? (cs : List Char) : Option (String × List Char) :=
  ["true", "false"].findSome? fun word =>
    match Text.afterStart? word.toList cs with
    | some rest =>
      if rest.head?.any fun c => isNameLike c || c == ':' then none else some (word, rest)
    | none => none

/-- A node or literal without inner statements. -/
def simpleObject : Read Term := do
  match (← get).rest with
  | '_' :: _ =>
    advance
    return .blank (keptLabel (← token blankLabel))
  | c :: _ =>
    if c == '"' || c == '\'' then stringLiteral
    else if c == '+' || c == '-' || c == '.' || c.isDigit then numberLiteral
    else
      match truthValue? (← get).rest with
      | some (word, rest) =>
        modify fun r => { r with rest }
        return .typed word Vocabulary.xsdBoolean
      | none => return .iri (← iriName)
  | [] => throw .endOfText

/-- Refuses one level more than the limit. -/
def deeper (depth : Nat) : Read Unit := do
  if nestingLimit ≤ depth then throw .nestedTooDeep

mutual

/-- An object at a nesting depth. -/
def object : Nat → Nat → Read Term
  | 0, _ => throw .nestedTooDeep
  | fuel + 1, depth => do
    match (← get).rest with
    | '[' :: rest =>
      match closesAtOnce rest with
      | some left =>
        modify fun r => { r with rest := left }
        anonymousNode
      | none => propertyList fuel depth
    | '(' :: _ =>
      deeper depth
      advance
      collection fuel (depth + 1) none
    | _ => simpleObject

/-- The objects of a subject under a predicate. -/
def objectList : Nat → Nat → Term → Term → Read Unit
  | 0, _, _, _ => throw .nestedTooDeep
  | fuel + 1, depth, s, p => do
    let o ← object fuel depth
    state s p o
    skipBlanks
    if ← accept ',' then
      skipBlanks
      objectList fuel depth s p

/-- Passes over the semicolons that come next. -/
def skipSemicolons : Nat → Read Unit
  | 0 => return
  | fuel + 1 => do
    if ← accept ';' then
      skipBlanks
      skipSemicolons fuel

/-- The predicates of a subject with their objects. -/
def predicateObjectList : Nat → Nat → Term → Read Unit
  | 0, _, _ => throw .nestedTooDeep
  | fuel + 1, depth, s => do
    let p ← verb
    skipBlanks
    objectList fuel depth s p
    skipBlanks
    if (← next?) == some ';' then
      skipSemicolons fuel
      let next ← next?
      if next.isSome && next != some '.' && next != some ']' && next != some '\x7d' then
        predicateObjectList fuel depth s

/-- Lists of properties up to the closing bracket; they may follow one another directly. -/
def propertyLists : Nat → Nat → Term → Read Unit
  | 0, _, _ => throw .nestedTooDeep
  | fuel + 1, depth, s => do
    predicateObjectList fuel depth s
    skipBlanks
    unless ← accept ']' do
      if (← next?).isNone then throw .endOfText
      propertyLists fuel depth s

/-- A node in brackets with its properties. -/
def propertyList : Nat → Nat → Read Term
  | 0, _ => throw .nestedTooDeep
  | fuel + 1, depth => do
    deeper depth
    require '['
    skipBlanks
    let node ← anonymousNode
    propertyLists fuel (depth + 1) node
    return node

/-- The rest of a collection in parentheses behind the given cell; the value is the first cell
that this call makes. -/
def collection : Nat → Nat → Option Term → Read Term
  | 0, _, _ => throw .nestedTooDeep
  | fuel + 1, depth, last => do
    skipBlanks
    match ← next? with
    | none => throw .endOfText
    | some ')' =>
      advance
      let nil : Term := .iri Vocabulary.rdfNil
      if let some cell := last then state cell (.iri Vocabulary.rdfRest) nil
      return nil
    | some _ =>
      let cell ← anonymousNode
      if let some previous := last then state previous (.iri Vocabulary.rdfRest) cell
      let item ← object fuel depth
      state cell (.iri Vocabulary.rdfFirst) item
      let _ ← collection fuel depth (some cell)
      return cell

end

/-- A subject with its properties. -/
def triples (fuel : Nat) : Read Unit := do
  match (← get).rest with
  | '[' :: rest =>
    match closesAtOnce rest with
    | some _ =>
      let s ← object fuel 0
      skipBlanks
      predicateObjectList fuel 0 s
    | none =>
      let s ← object fuel 0
      skipBlanks
      unless (← next?) == some '.' do
        predicateObjectList fuel 0 s
  | c :: _ =>
    if c == '(' || c == '_' || c == '<' || isNameBase c || c == ':' then
      let s ← if c == '(' || c == '_' then object fuel 0 else pure (.iri (← iriName))
      skipBlanks
      predicateObjectList fuel 0 s
    else throw .unexpected
  | [] => throw .endOfText

/-- A prefix with the name that it stands for. -/
def declarePrefix : Read Unit := do
  skipBlanks
  let name := String.ofList (← token prefixName)
  skipBlanks
  let iri ← bracketedIri
  modify fun r => { r with prefixes := r.prefixes.insert name (String.ofList iri.toChars) }

/-- The base of the references to come. -/
def declareBase : Read Unit := do
  skipBlanks
  let iri ← bracketedIri
  modify fun r => { r with base := some iri }

/-- Ends a statement by its dot. -/
def endStatement : Read Unit := do
  skipBlanks
  require '.'

/-- The text behind a word in any case, if the character behind it may end it. -/
def keyword? (word : String) (ends : Char → Bool) (cs : List Char) : Option (List Char) :=
  let rest := cs.drop word.length
  if (cs.take word.length).map Char.toLower == word.toList && rest.head?.all ends then some rest
  else none

/-- One statement or declaration. -/
def statement : Read Unit := do
  let cs := (← get).rest
  if let some rest := Text.afterStart? "@prefix".toList cs then
    modify fun r => { r with rest }
    declarePrefix
    endStatement
  else if let some rest := Text.afterStart? "@base".toList cs then
    modify fun r => { r with rest }
    declareBase
    endStatement
  else if let some rest := keyword? "base" (fun c => isSpace c || c == '<') cs then
    modify fun r => { r with rest }
    declareBase
  else if let some rest := keyword? "prefix" isSpace cs then
    modify fun r => { r with rest }
    declarePrefix
  else
    triples (4 * cs.length + 8)
    endStatement

/-- The statements up to the end of the text, of which there are at most as many as characters. -/
def statements : Nat → Read Unit
  | 0 => return
  | fuel + 1 => do
    skipBlanks
    if (← next?).isSome then
      statement
      statements fuel

/-- Reads a Turtle document into a graph. -/
def parse (text : String) : Except Fault Graph := do
  let cs := text.toList
  let ((), r) ← (statements (cs.length + 1)).run { rest := cs }
  return { triples := r.triples.toList, prefixes := r.prefixes }

end CatalogGraph.Turtle
