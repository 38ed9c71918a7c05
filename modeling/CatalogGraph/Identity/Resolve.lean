import CatalogGraph.Identity.Index
import CatalogGraph.Identity.Similarity
import CatalogGraph.Identity.Slug
import CatalogGraph.Text.Quoted

/-!
Identities: a transient entity gets the name of a candidate that its label names, or a name minted
from its class and its label.
-/
namespace CatalogGraph.Identity

/-- The settings of a pass. -/
structure Settings where
  baseIri : String := "http://example.org"
  /-- The predicates under which labels are looked for, in this order. -/
  labelPredicates : List String := defaultLabelPredicates
  /-- The starts of the names of transient entities; blank nodes are transient always. -/
  transientStarts : List String := []
  policy : MatchPolicy := .contains
deriving DecidableEq, Repr

/-- The cause for which an entity gets no name or a pass does not begin. -/
inductive IdentityError where
  | remote (error : RemoteError)
  | invalidClass (cls : String)
  | invalidLabel (label : String)
deriving DecidableEq, Repr

def IdentityError.message : IdentityError → String
  | .remote error => "Candidate lookup failed: " ++ error.message
  | .invalidClass cls => "Invalid class filter: " ++ cls
  | .invalidLabel label => "Label has no usable characters: " ++ Text.quoted label

/-- Whether the name was known or is new. -/
inductive Resolution where
  | matched
  | minted
deriving DecidableEq, Repr

/-- That a transient entity is the one of a name. -/
structure Assertion where
  transient : Term
  canonical : Term
  label : String
  resolution : Resolution
deriving DecidableEq, Repr

/-- What a pass has done. -/
structure Report where
  examined : Nat := 0
  matched : Nat := 0
  minted : Nat := 0
  skipped : Nat := 0
  failed : List Term := []
  assertions : List Assertion := []
deriving DecidableEq, Repr

/-- What a pass works on; `σ` is the state of the source of candidates. -/
structure State (σ : Type) where
  graph : Graph := {}
  index : Index := {}
  source : σ

namespace Settings

def isTransient (settings : Settings) : Term → Bool
  | .blank _ => true
  | .iri name => settings.transientStarts.any fun start => start.toList.isPrefixOf name.toList
  | .literal _ => false

/-- The label under a predicate: the first literal, unless it is blank. -/
def labelUnder? (g : Graph) (entity : Term) (predicate : String) : Option String :=
  (((g.objects entity (.iri predicate)).find? (·.isLiteral)).map fun o =>
    Text.trim o.lexical).filter (· ≠ "")

/-- The label of an entity under the first predicate that gives one. -/
def labelOf? (settings : Settings) (g : Graph) (entity : Term) : Option String :=
  settings.labelPredicates.findSome? (labelUnder? g entity)

/-- The name minted for a label of a class. -/
def mintedIri (settings : Settings) (cls label : String) : String :=
  let base := settings.baseIri.toList.reverse.dropWhile (· = '/')
  String.ofList base.reverse ++ "/" ++ slug (localName cls) ++ "/" ++ slug label

end Settings

/-- Whether a text may be the name of a class: it has a colon and no white space. -/
def isClassName (cls : String) : Bool :=
  cls.toList.contains ':' && !cls.toList.any Text.isBlank

/-- The key for an entity: the class, and the first other class that it has. -/
def keyFor (g : Graph) (cls : String) (entity : Term) : CandidateKey :=
  { cls, second := ((g.objects entity (.iri Vocabulary.rdfType)).filterMap Term.iri?).find?
      (· ≠ cls) }

/-- Adds a text under a predicate, unless it is there. -/
def addText (g : Graph) (subject : Term) (predicate value : String) : Graph :=
  if g.contains subject (.iri predicate) (.string value) then g
  else g.add ⟨subject, .iri predicate, .string value⟩

/-- The name that an entity gets: that of a candidate, or a new one. -/
inductive Choice where
  | known (candidate : Candidate)
  | fresh (iri : String)
deriving DecidableEq, Repr

namespace Choice

def canonical : Choice → Term
  | .known candidate => .iri candidate.iri
  | .fresh iri => .iri iri

def resolution : Choice → Resolution
  | .known _ => .matched
  | .fresh _ => .minted

/-- The predicate under which the name gets a label: a new name gets it as its own, a candidate
with another label as another one of it. -/
def labelPredicate? (label : String) : Choice → Option String
  | .known candidate => if candidate.label = label then none else some Vocabulary.altLabel
  | .fresh _ => some Vocabulary.rdfsLabel

end Choice

/-- The graph once an entity has its name. -/
def adopt (g : Graph) (entity : Term) (label : String) (choice : Choice) : Graph :=
  let g := g.replaceTerm entity choice.canonical
  match choice.labelPredicate? label with
  | none => g
  | some predicate => addText g choice.canonical predicate label

variable {σ : Type}

/-- Finds a name for an entity of a class by its label: the first candidate that the label names,
or else a new name, which is a candidate from then on. -/
def choose (settings : Settings) (source : CandidateSource σ) (cls : String) (entity : Term)
    (label : String) (s : State σ) : Except IdentityError Choice × Index × σ :=
  if !isClassName cls then (.error (.invalidClass cls), s.index, s.source)
  else if slug label = "" then (.error (.invalidLabel label), s.index, s.source)
  else
    match s.index.candidates source (keyFor s.graph cls entity) label s.source with
    | (.error e, index, source) => (.error (.remote e), index, source)
    | (.ok candidates, index, source) =>
      match candidates.find? fun c => settings.policy.accepts c.label label with
      | some candidate => (.ok (.known candidate), index, source)
      | none =>
        let iri := settings.mintedIri cls label
        (.ok (.fresh iri), index.recordMinted cls ⟨iri, label⟩, source)

/-- Gives an entity of a class a name by its label. Where there is an error, the graph and the
minted names stay as they are. -/
def resolveOrMint (settings : Settings) (source : CandidateSource σ) (cls : String)
    (entity : Term) (label : String) (s : State σ) : Except IdentityError Assertion × State σ :=
  match choose settings source cls entity label s with
  | (.error e, index, source) => (.error e, { s with index, source })
  | (.ok choice, index, source) =>
    (.ok { transient := entity, canonical := choice.canonical, label,
           resolution := choice.resolution },
      { graph := adopt s.graph entity label choice, index, source })

/-- The report with one more outcome. -/
def Report.record (report : Report) (entity : Term) : Except IdentityError Assertion → Report
  | .ok assertion =>
    let assertions := report.assertions ++ [assertion]
    match assertion.resolution with
    | .matched => { report with matched := report.matched + 1, assertions }
    | .minted => { report with minted := report.minted + 1, assertions }
  | .error _ => { report with failed := report.failed ++ [entity] }

/-- Whether an entity comes before another: the one with the longer label, and of equally long
labels the smaller. -/
def comesBefore (a b : Term × String) : Bool :=
  ((compare b.2.length a.2.length).then ((compare a.2 b.2).then (a.1.order b.1))).isLE

/-- The transient entities of a class in the order of their first statement. -/
def transientEntities (settings : Settings) (g : Graph) (cls : String) : List Term :=
  (g.subjectsWithType cls).filter settings.isTransient

/-- The label of an entity from which a name can be made. -/
def usableLabel? (settings : Settings) (g : Graph) (entity : Term) : Option String :=
  (settings.labelOf? g entity).filter fun label => slug label ≠ ""

/-- The entities of a class that get a name, with their labels, in the order in which they do. -/
def labelledEntities (settings : Settings) (g : Graph) (cls : String) : List (Term × String) :=
  ((transientEntities settings g cls).filterMap fun entity =>
    (usableLabel? settings g entity).map fun label => (entity, label)).mergeSort comesBefore

/-- Gives each entity of a list a name in turn. -/
def resolveEach (settings : Settings) (source : CandidateSource σ) (cls : String) :
    List (Term × String) → Report → State σ → Report × State σ
  | [], report, s => (report, s)
  | (entity, label) :: rest, report, s =>
    let (outcome, s) := resolveOrMint settings source cls entity label s
    resolveEach settings source cls rest (report.record entity outcome) s

/-- Gives the transient entities of a class names. -/
def resolveClass (settings : Settings) (source : CandidateSource σ) (report : Report)
    (s : State σ) (cls : String) : Report × State σ :=
  let examined := (transientEntities settings s.graph cls).length
  let entities := labelledEntities settings s.graph cls
  resolveEach settings source cls entities
    { report with
      examined := report.examined + examined
      skipped := report.skipped + (examined - entities.length) } s

/-- Gives the transient entities of each class names, and drops statements that repeat others. -/
def deduplicate (settings : Settings) (source : CandidateSource σ) (classes : List String)
    (s : State σ) : Except IdentityError Report × State σ :=
  match classes.find? fun cls => !isClassName cls with
  | some cls => (.error (.invalidClass cls), s)
  | none =>
    let (report, s) := classes.foldl (fun (report, s) cls =>
      resolveClass settings source report s cls) (({} : Report), s)
    (.ok report, { s with graph := s.graph.retainUnique })

end CatalogGraph.Identity
