import CatalogGraph.Command.Option
import CatalogGraph.Command.Path

/-!
The commands: mapping a document, harvesting a repository, and checking rules.
-/
namespace CatalogGraph.Command

/-- The formats of input documents. -/
inductive InputFormat where
  | xml
  | json
  | csv
  | tsv
deriving DecidableEq, Repr

namespace InputFormat

def ofName? : String → Option InputFormat
  | "xml" => some .xml
  | "json" => some .json
  | "csv" => some .csv
  | "tsv" => some .tsv
  | _ => none

/-- The format that the name of a file tells. -/
def ofPath? (path : String) : Option InputFormat := do
  match String.ofList ((← extension? path).toList.map Char.toLower) with
  | "xml" | "mods" | "marcxml" => return .xml
  | "json" | "jsonld" => return .json
  | "csv" => return .csv
  | "tsv" | "tab" | "txt" => return .tsv
  | _ => none

end InputFormat

/-- What becomes of a graph before it is written. -/
structure Finish where
  storeUrl : Option String := none
  /-- The classes whose entities get names, if they shall; none stands for those of the rules. -/
  dedup : Option (List String) := none
  load : Bool := false
  output : Option String := none
deriving DecidableEq, Repr

/-- What is asked of the mapping of one document. -/
structure TransformRequest where
  input : String
  rules : List String
  format : Option InputFormat := none
  baseIri : Option String := none
  values : List String := []
  finish : Finish := {}
deriving DecidableEq, Repr

/-- What is asked of a harvest. -/
structure HarvestRequest where
  endpoint : Option String := none
  metadataPrefix : Option String := none
  set : Option String := none
  sample : Option Nat := none
  seed : Option Nat := none
  rules : List String := []
  concurrency : Option Nat := none
  baseIri : Option String := none
  finish : Finish := {}
deriving DecidableEq, Repr

/-- A command with its arguments. -/
inductive Request where
  | transform (request : TransformRequest)
  | harvest (request : HarvestRequest)
  | check (rules : List String)
deriving DecidableEq, Repr

/-- A request, and the settings file that it names. -/
structure Invocation where
  settings : Option String := none
  request : Request
deriving DecidableEq, Repr

/-! ### What the commands take -/

/-- The options of every command. -/
def sharedOptions : List OptionSpec :=
  [{ name := "verbose", letter := some 'v', takes := .nothing },
   { name := "quiet", letter := some 'q', takes := .nothing },
   { name := "no-color", takes := .nothing },
   { name := "config", kind := .path },
   { name := "help", letter := some 'h', takes := .nothing, asks := some .help }]

/-- The options on what becomes of a graph. -/
def finishOptions : List OptionSpec :=
  [{ name := "triplestore" }, { name := "dedup", takes := .any, repeatable := true },
   { name := "load", takes := .nothing }, { name := "output", letter := some 'o', kind := .path }]

def rulesOption : OptionSpec :=
  { name := "rules", letter := some 'r', kind := .path, repeatable := true }

def rootSpec : CommandSpec where
  options := sharedOptions ++
    [{ name := "version", letter := some 'V', takes := .nothing, asks := some .version }]
  commands := ["transform", "harvest", "check", "help"]

def transformSpec : CommandSpec where
  options := sharedOptions ++ finishOptions ++
    [{ rulesOption with required := true },
     { name := "format", kind := .oneOf ["xml", "json", "csv", "tsv"] },
     { name := "base-iri" }, { name := "var", repeatable := true }]
  positional := some { name := "input", kind := .path, required := true }

def harvestSpec : CommandSpec where
  options := sharedOptions ++ finishOptions ++
    [rulesOption, { name := "endpoint" }, { name := "metadata-prefix" }, { name := "set" },
     { name := "sample", kind := .number }, { name := "seed", kind := .number },
     { name := "concurrency", kind := .number }, { name := "base-iri" }]

def checkSpec : CommandSpec where
  options := sharedOptions
  positional := some { name := "rules", kind := .path, repeatable := true, required := true }

/-- The fault in asking for help on a command. -/
def helpOn : List String → ArgumentFault
  | [] => .help
  | [name] => if rootSpec.commands.contains name then .help else .unknownCommand
  | _ => .unknownCommand

/-! ### Requests -/

def finishOf (r : Reading) : Finish where
  storeUrl := r.value? "triplestore"
  dedup := r.given.get? "dedup"
  load := r.has "load"
  output := r.value? "output"

def transformOf (r : Reading) : Request :=
  .transform {
    input := (r.value? "input").getD ""
    rules := r.values "rules"
    format := (r.value? "format").bind InputFormat.ofName?
    baseIri := r.value? "base-iri"
    values := r.values "var"
    finish := finishOf r }

def harvestOf (r : Reading) : Request :=
  .harvest {
    endpoint := r.value? "endpoint"
    metadataPrefix := r.value? "metadata-prefix"
    set := r.value? "set"
    sample := (r.value? "sample").bind Text.word?
    seed := (r.value? "seed").bind Text.word?
    rules := r.values "rules"
    concurrency := (r.value? "concurrency").bind Text.word?
    baseIri := r.value? "base-iri"
    finish := finishOf r }

def checkOf (r : Reading) : Request := .check (r.values "rules")

/-- Reads the arguments of a command to their end. -/
def readCommand (spec : CommandSpec) (args : List String) : Except ArgumentFault Reading := do
  let (r, _) ← Reading.read spec {} args
  let r ← r.settle
  r.excludes "verbose" "quiet"
  r.requires spec
  return r

/-- The command of a name with its arguments. -/
def readNamed (name : String) (args : List String) : Except ArgumentFault (Reading × Request) := do
  let (spec, request) := match name with
    | "transform" => (transformSpec, transformOf)
    | "harvest" => (harvestSpec, harvestOf)
    | _ => (checkSpec, checkOf)
  let r ← readCommand spec args
  return (r, request r)

namespace Invocation

/-- Reads the arguments of the program. -/
def ofArguments (args : List String) : Except ArgumentFault Invocation := do
  match ← Reading.read rootSpec {} args with
  | (r, []) =>
    throw (if (← r.settle).given.isEmpty then .helpOnMissing else .missingCommand)
  | (_, "help" :: names) => throw (helpOn names)
  | (r, name :: rest) =>
    let (below, request) ← readNamed name rest
    let r ← r.settle
    r.excludes "verbose" "quiet"
    return { settings := (below.value? "config").or (r.value? "config"), request }

end Invocation
end CatalogGraph.Command
