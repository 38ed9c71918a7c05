import CatalogGraph.Engine.Tokens
import CatalogGraph.Mapping.BlankNodes
import CatalogGraph.Mapping.Compiled
import CatalogGraph.Mapping.Config
import CatalogGraph.Mapping.Template
import CatalogGraph.Remote.Store
import CatalogGraph.Text.Percent

/-!
Applying a map to a row: the row gets a subject and its statements, and the subjects of parent maps
are linked. A row whose subject or one of whose templates has no value is dropped.
-/
namespace CatalogGraph

/-- What a run has done. -/
structure RunStats where
  rows : Nat := 0
  skipped : Nat := 0
  triples : Nat := 0
  queries : Nat := 0
deriving DecidableEq, Repr

def RunStats.toJson (s : RunStats) : Json := .ofMembers
  [("rows", .ofNat s.rows), ("skipped", .ofNat s.skipped), ("triples", .ofNat s.triples),
   ("queries", .ofNat s.queries)]

/-- What a run works on; `σ` is the state of the store. -/
structure RunState (σ : Type) where
  graph : Graph := {}
  blanks : BlankNodes
  stats : RunStats := {}
  draws : Draws := []
  store : σ

/-- A step of a run; what it did before an error stays done. -/
abbrev Run (σ α : Type) := ExceptT MappingError (StateM (RunState σ)) α

namespace Engine
variable {σ : Type}

/-- The state before anything has run. -/
def start (config : Config) (store : σ) : RunState σ :=
  { blanks := { start := config.blankPrefix }, store }

/-- The value of a name in the context. -/
def resolveNamed (ctx : Context) (name : String) : Run σ (Option String) :=
  modifyGet fun s =>
    let (value, draws) := ctx.resolve name s.draws
    (value, { s with draws })

/-- The value of a hole: from the context as it is, or from the row, escaped if asked for. -/
def resolveHole (config : Config) (node : Node) (ctx : Context) (escape : Bool) (name : String) :
    Run σ (Option String) := do
  match ← resolveNamed ctx name with
  | some value => return some value
  | none =>
    let value ← node.first? config.namespaces name
    return value.map fun v => if escape then Text.percentEscape v else v

/-- A node that was not in use before. -/
def freshNode : Run σ Term :=
  modifyGet fun s =>
    let (node, blanks) := s.blanks.fresh
    (node, { s with blanks })

/-- The subject that a value stands for. -/
def subjectOf (termType : TermType) (value : String) : Run σ Term :=
  match termType with
  | .blank => modifyGet fun s =>
      let (node, blanks) := s.blanks.forValue value
      (node, { s with blanks })
  | _ => return .iri value

/-- The value of the iterator's variable as subject, unless it is a literal. -/
def iteratorSubject? (m : TriplesMap) (node : Node) : Option Term := do
  let name ← (← m.logicalSource).iterator
  let value ← (← node.binding?).get? name
  if value.toTerm.isLiteral then none else some value.toTerm

/-- The subject of a row, if it has one. -/
def mintSubject (config : Config) (m : TriplesMap) (node : Node) (ctx : Context) :
    Run σ (Option Term) :=
  match m.subjectMap with
  | none => return iteratorSubject? m node
  | some s =>
    match s.term with
    | none => return iteratorSubject? m node
    | some (.constant iri) => return some (.iri iri)
    | some (.template text) => do
      match ← Template.expand (resolveHole config node ctx true) text with
      | .ok value => return some (← subjectOf s.termType value)
      | .error _ => return none
    | some (.reference text) =>
      match node.binding?.bind (·.get? text) with
      | some value => do
        let term := value.toTerm
        if term.isLiteral then return some (← subjectOf s.termType value.value)
        else return some term
      | none => do
        match ← node.first? config.namespaces text with
        | some value => return some (← subjectOf s.termType value)
        | none => return none
    | some .blank => return some (← freshNode)

/-- The texts from which the objects of a row are made; none if a template has a hole without a
value, which drops the row. -/
def objectValues (config : Config) (pom : PredicateObjectMap) (node : Node) (ctx : Context) :
    Run σ (Option (List String)) :=
  match pom.object with
  | .reference text => do return some (← node.values config.namespaces text)
  | .template text => do
    match ← Template.expand (resolveHole config node ctx (!pom.isLiteralOnly)) text with
    | .ok value => return some [value]
    | .error _ => return none
  | _ => return some []

/-- The objects of a row, or none if the row is to be dropped. -/
def objectTerms (config : Config) (pom : PredicateObjectMap) (node : Node) (ctx : Context) :
    Run σ (Option (List Term)) := do
  match pom.object with
  | .constant term => return some [term]
  | _ =>
    match ← objectValues config pom node ctx with
    | none => return none
    | some values =>
      let tokens := values.flatMap fun value => splitTokens value pom.delimiters
      modifyGet fun s =>
        let (terms, blanks) := pom.termsOf tokens s.blanks
        (some terms, { s with blanks })

/-- A blank node of a class that the subject is linked to already, in the statements of this row
or else in the graph. -/
def findReusable? (g : Graph) (buffer : List Triple) (subject predicate : Term) (cls : Term) :
    Option Term :=
  let type : Term := .iri Vocabulary.rdfType
  let isTyped := fun (node : Term) => buffer.contains ⟨node, type, cls⟩ || g.contains node type cls
  let linked := (buffer.filter fun t => t.subject == subject && t.predicate == predicate).map
    (·.object) ++ g.objects subject predicate
  linked.find? fun node => node.isBlank && isTyped node

/-- The statements that attach an object to a subject, behind those of the row so far. -/
def attach (subject : Term) (pom : PredicateObjectMap) (object : Term) (buffer : List Triple) :
    Run σ (List Triple) := do
  let predicate : Term := .iri pom.predicate
  match pom.subEntityClass with
  | none => return buffer ++ [⟨subject, predicate, object⟩]
  | some name =>
    let cls : Term := .iri name
    let value := fun (entity : Term) => Triple.mk entity (.iri pom.valuePredicate) object
    let s ← get
    let found := if pom.reuse then findReusable? s.graph buffer subject predicate cls else none
    match found with
    | some entity => return buffer ++ [value entity]
    | none =>
      let entity ← freshNode
      return buffer ++ [⟨subject, predicate, entity⟩, ⟨entity, .iri Vocabulary.rdfType, cls⟩] ++
        pom.additionalTriples.map (fun (p, o) => ⟨entity, .iri p, o⟩) ++ [value entity]

/-- The statements that attach objects in order. -/
def attachAll (subject : Term) (pom : PredicateObjectMap) :
    List Term → List Triple → Run σ (List Triple)
  | [], buffer => return buffer
  | object :: rest, buffer => do attachAll subject pom rest (← attach subject pom object buffer)

/-- Counts a row that is dropped. -/
def skipRow : Run σ Unit :=
  modify fun s => { s with stats := { s.stats with skipped := s.stats.skipped + 1 } }

/-- Adds statements to the graph. -/
def commit (triples : List Triple) : Run σ Unit :=
  modify fun s =>
    { s with
      graph := s.graph.addAll triples
      stats := { s.stats with triples := s.stats.triples + triples.length } }

/-- How the rows of a parent map are run on a node. -/
abbrev RunParent (σ : Type) := String → Node → Context → Run σ (List Term)

/-- The context in which a parent runs: the subject and the predicate of the link are named. -/
def linkContext (ctx : Context) (subject : Term) (predicate : String) : Context :=
  ctx.merged (Context.set "predicate" predicate (Context.set "subject" subject.lexical .empty))

/-- The statements with those that attach the objects of a predicate-object map, or none if the row
is dropped. -/
def ownTriples (config : Config) (subject : Term) (node : Node) (ctx : Context)
    (pom : PredicateObjectMap) (buffer : List Triple) : Run σ (Option (List Triple)) := do
  match ← objectTerms config pom node ctx with
  | none => return none
  | some objects => return some (← attachAll subject pom objects buffer)

/-- The statements that a predicate-object map adds to those of the row so far, or none if the row
is dropped; a parent never drops it. -/
def linkTriples (config : Config) (runParent : RunParent σ) (subject : Term) (node : Node)
    (ctx : Context) (pom : PredicateObjectMap) (buffer : List Triple) :
    Run σ (Option (List Triple)) :=
  match pom.object with
  | .parent iri => do
    let parents ← runParent iri node (linkContext ctx subject pom.predicate)
    return some (buffer ++ parents.map fun parent => ⟨subject, .iri pom.predicate, parent⟩)
  | _ => ownTriples config subject node ctx pom buffer

/-- The statements of a row by its predicate-object maps, or none if the row is dropped. -/
def rowTriples (config : Config) (runParent : RunParent σ) (subject : Term) (node : Node)
    (ctx : Context) : List PredicateObjectMap → List Triple → Run σ (Option (List Triple))
  | [], buffer => return some buffer
  | pom :: rest, buffer => do
    match ← linkTriples config runParent subject node ctx pom buffer with
    | none => return none
    | some buffer => rowTriples config runParent subject node ctx rest buffer

/-- The subject of a row and its statements, or none if the row is dropped. -/
def rowContent (config : Config) (runParent : RunParent σ) (m : TriplesMap) (ctx : Context)
    (node : Node) : Run σ (Option (Term × List Triple)) := do
  match ← mintSubject config m node ctx with
  | none => return none
  | some subject =>
    let buffer? ← rowTriples config runParent subject node ctx m.predicateObjectMaps []
    return buffer?.map fun buffer => (subject, buffer)

/-- The statements of the classes of a map about a subject. -/
def typeTriples (m : TriplesMap) (subject : Term) : List Triple :=
  ((m.subjectMap.map (·.classes)).getD []).map fun cls =>
    ⟨subject, .iri Vocabulary.rdfType, .iri cls⟩

/-- Counts a row. -/
def countRow : Run σ Unit :=
  modify fun s => { s with stats := { s.stats with rows := s.stats.rows + 1 } }

/-- Applies a map to a row: its subject, if something was attached to it. -/
def applyRow (config : Config) (runParent : RunParent σ) (m : TriplesMap) (ctx : Context)
    (node : Node) : Run σ (Option Term) := do
  countRow
  match ← rowContent config runParent m ctx node with
  | none =>
    skipRow
    return none
  | some (subject, buffer) =>
    if buffer.isEmpty && !m.predicateObjectMaps.isEmpty then return none
    else
      commit (typeTriples m subject ++ buffer)
      return some subject

end Engine
end CatalogGraph
