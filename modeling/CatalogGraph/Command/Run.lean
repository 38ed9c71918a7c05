import CatalogGraph.Command.Error
import CatalogGraph.Command.Request
import CatalogGraph.Command.Settings
import CatalogGraph.Harvest.Records
import CatalogGraph.Mapping.Overview
import CatalogGraph.Rules.Load

/-!
Running the commands over the files that they name and the services that they ask.
-/
namespace CatalogGraph.Command

/-- What is found under the path of a file. -/
inductive FileContent where
  | text (s : String)
  | unreadable (isFile : Bool) (reason : String)
deriving DecidableEq, Repr

/-- The files by path. -/
abbrev Files := String → FileContent

/-- How a service is reached: its address, the seconds that a request may take, and how often it
is repeated. -/
structure Address where
  url : String
  timeout : Nat
  retry : RetryPolicy

/-- The services that commands ask, whose answers depend on their state `σ`. -/
structure Services (σ : Type) where
  store : Address → TripleStore σ
  /-- The candidates suggested for a label under an address. -/
  suggest : Address → String → String → σ → Except RemoteError (List Identity.Candidate) × σ
  repository : Address → Harvest.Repository σ
  choose : Harvest.Chooser
  uuids : Generator

/-- The services that no request reaches. -/
def Services.offline (choose : Harvest.Chooser) (uuids : Generator) : Services Unit where
  store _ := .offline
  suggest _ _ _ s := (.error .unreachable, s)
  repository _ := {
    list := fun _ s => (.error (.remote .unreachable), s)
    record := fun _ _ s => (.error (.remote .unreachable), s) }
  choose := choose
  uuids := uuids

/-- What a command gives out: a text, perhaps into a file, or an overview of rules with the classes
whose entities get names. -/
inductive Output where
  | document (text : String) (path : Option String)
  | overview (table classes : List String)
deriving DecidableEq, Repr

namespace Output

def text : Output → String
  | .document text _ => text
  | .overview table classes =>
    let last := if classes.isEmpty then [] else ["dedup classes: " ++ ", ".intercalate classes]
    String.join ((table ++ last).map (· ++ "\n"))

/-- The file that is written. -/
def path? : Output → Option String
  | .document _ path => path
  | .overview _ _ => none

end Output

/-- What a command works on: the state of the services, and the notes that it has given. -/
structure Session (σ : Type) where
  services : σ
  notes : List String := []

/-- A step of a command; what it did before an error stays done. -/
abbrev Action (σ α : Type) := ExceptT CommandError (StateM (Session σ)) α

namespace Action
variable {σ α : Type}

/-- A request to a service. -/
def ask {ε : Type} (cause : ε → CommandError) (request : σ → Except ε α × σ) : Action σ α := do
  let s ← get
  let (answer, services) := request s.services
  set { s with services }
  match answer with
  | .ok a => return a
  | .error e => throw (cause e)

def note (line : String) : Action σ Unit := modify fun s => { s with notes := s.notes ++ [line] }

def usage (fault : UsageFault) : Action σ α := throw (.usage fault)

end Action
open CatalogGraph.Command.Action

/-! ### Files -/

/-- The file of settings that is read if it is there. -/
def defaultSettings : String := "bibcat.toml"

/-- The settings in the text of a file. -/
def parseSettings (path text : String) : Except CommandError FileSettings :=
  match FileSettings.parse? text with
  | some settings => .ok settings
  | none => .error (.settings (.malformed path))

/-- Reads the settings file that is named, or else the default one. -/
def readSettings (files : Files) (path : Option String) : Except CommandError FileSettings :=
  let name := path.getD defaultSettings
  match files name with
  | .text s => parseSettings name s
  | .unreadable true reason => .error (.file reason)
  | .unreadable false _ => if path.isSome then .error (.settings (.missing name)) else .ok {}

def readFile (files : Files) (path : String) : Except CommandError String :=
  match files path with
  | .text s => .ok s
  | .unreadable _ reason => .error (.file (path ++ ": " ++ reason))

/-- Reads and compiles rules. -/
def readRules (files : Files) (paths : List String) : Except CommandError Mapping := do
  let texts ← paths.mapM (readFile files)
  match Rules.ofDocuments texts >>= Rules.compile with
  | .ok mapping => return mapping
  | .error e => throw (.mapping e)

/-- The document in a text. -/
def InputFormat.read : InputFormat → String → Except MappingError Source
  | .xml, text => Source.ofXml text
  | .json, text => Source.ofJson text
  | .csv, text => Source.ofDelimited ',' text
  | .tsv, text => Source.ofDelimited '\t' text

/-- Reads an input document, whose name may tell its format. -/
def readInput (files : Files) (path : String) (format : Option InputFormat) :
    Except CommandError Source := do
  match format.or (InputFormat.ofPath? path) with
  | none => throw (.usage (.unknownFormat path))
  | some format => (format.read (← readFile files path)).mapError .mapping

/-! ### Settings -/

namespace FileSettings

def storeAddress? (file : FileSettings) (flag : Option String) : Option Address :=
  (file.storeUrl? flag).map fun url =>
    { url, timeout := file.storeTimeout, retry := file.retryPolicy }

/-- The settings of a run from the file and the flags. -/
def configOf (file : FileSettings) (baseIri : Option String) (values : List String) :
    Except CommandError Config :=
  (file.config baseIri values).mapError fun text => .usage (.namedValue text)

/-- The address of the repository. -/
def endpoint (file : FileSettings) (flag : Option String) : Except CommandError Address :=
  match file.endpoint? flag with
  | none => .error (.usage .noEndpoint)
  | some url => .ok { url, timeout := file.harvestTimeout, retry := file.retryPolicy }

end FileSettings

/-! ### Graphs on their way out -/

variable {σ : Type}

/-- Where the candidates for identities come from. -/
def candidateSource (services : Services σ) (file : FileSettings)
    (store : Option (TripleStore σ)) : Except CommandError (Identity.CandidateSource σ) :=
  match file.suggestUrl?, store with
  | some url, _ =>
    .ok (Identity.ofSuggestions url Identity.defaultSchemes
      (services.suggest { url, timeout := file.storeTimeout, retry := file.retryPolicy }))
  | none, none => .error (.usage .dedupWithoutStore)
  | none, some store =>
    .ok (Identity.ofStore store
      (file.identity.labelPredicates.getD Identity.defaultLabelPredicates))

/-- Gives entities of the graph names, if the flag is there and there are classes. -/
def identify (services : Services σ) (file : FileSettings) (mapping : Mapping) (config : Config)
    (store : Option (TripleStore σ)) (flag : Option (List String)) (g : Graph) :
    Action σ Graph := do
  match flag.map fun named => file.classes named mapping.dedupClasses with
  | none | some [] => return g
  | some classes =>
    let source ← candidateSource services file store
    ask .identity fun s =>
      match Identity.deduplicate (file.identities config) source classes
          { graph := g, source := s } with
      | (.ok _, t) => (.ok t.graph, t.source)
      | (.error e, t) => (.error e, t.source)

/-- Names the entities of a graph, loads it into the store and gives it out, as asked for. -/
def finish (services : Services σ) (file : FileSettings) (mapping : Mapping) (config : Config)
    (store : Option (TripleStore σ)) (request : Finish) (g : Graph) : Action σ Output := do
  let g ← identify services file mapping config store request.dedup g
  if request.load then
    if let some store := store then
      ask .remote (store.load g file.chunk)
  return .document g.render request.output

/-- A graph can be loaded only if there is a store. -/
def checkLoad (file : FileSettings) (request : Finish) : Action σ Unit :=
  if request.load ∧ (file.storeUrl? request.storeUrl).isNone then usage .loadWithoutStore
  else return

/-! ### The commands -/

/-- Maps one document. -/
def transform (services : Services σ) (files : Files) (file : FileSettings)
    (request : TransformRequest) : Action σ Output := do
  checkLoad file request.finish
  let mapping ← readRules files request.rules
  let config ← file.configOf request.baseIri request.values
  let store := (file.storeAddress? request.finish.storeUrl).map services.store
  let source ← readInput files request.input request.format
  let engine : Engine σ := { mapping, config, store, uuids := services.uuids }
  let g ← ask .mapping fun s =>
    match (engine.run source .empty).run.run (Engine.start config s) with
    | (.ok _, t) => (.ok t.graph, t.store)
    | (.error e, t) => (.error e, t.store)
  finish services file mapping config store request.finish g

/-- The notes on records that have been mapped. -/
def noteRecords (report : Harvest.RecordReport) : Action σ Unit := do
  for (identifier, error) in report.failed do
    note ("failed: " ++ identifier ++ " (" ++ error.message ++ ")")
  note (toString report.succeeded ++ " records transformed, " ++
    toString report.failed.length ++ " failed, " ++
    toString report.cancelled.length ++ " not attempted")

/-- Lists the identifiers of a repository, and maps their records if there are rules. -/
def harvest (services : Services σ) (files : Files) (file : FileSettings)
    (request : HarvestRequest) : Action σ Output := do
  let onlyList := request.rules.isEmpty
  if onlyList ∧ (request.finish.dedup.isSome ∨ request.finish.load) then usage .graphWithoutRules
  checkLoad file request.finish
  let repository := services.repository (← file.endpoint request.endpoint)
  let options :=
    file.harvestOptions request.metadataPrefix request.set request.sample request.seed
  let state ← ask .harvest (Harvest.harvest repository options services.choose)
  if onlyList then
    return .document ("\n".intercalate state.identifiers ++ "\n") request.finish.output
  let mapping ← readRules files request.rules
  let config ← file.configOf request.baseIri []
  let store := (file.storeAddress? request.finish.storeUrl).map services.store
  let mapper : Harvest.RecordMapper σ := {
    repository, metadataPrefix := options.metadataPrefix
    engine := { mapping, config, store, uuids := services.uuids } }
  let report ← ask .harvest fun s =>
    let (report, s) := mapper.run state.identifiers s
    (.ok report, s)
  noteRecords report
  finish services file mapping config store request.finish report.graph

/-- Shows an overview of rules. -/
def check (files : Files) (rules : List String) : Except CommandError Output := do
  let mapping ← readRules files rules
  return .overview mapping.overview.lines mapping.dedupClasses

/-- Runs what the arguments ask for. -/
def Invocation.run (services : Services σ) (files : Files) (invocation : Invocation) :
    Action σ Output := do
  let file ← readSettings files invocation.settings
  match invocation.request with
  | .transform request => transform services files file request
  | .harvest request => harvest services files file request
  | .check rules => check files rules

/-- The files that a run may read. -/
def Invocation.paths (invocation : Invocation) : List String :=
  invocation.settings.getD defaultSettings ::
    match invocation.request with
    | .transform request => request.input :: request.rules
    | .harvest request => request.rules
    | .check rules => rules

end CatalogGraph.Command
