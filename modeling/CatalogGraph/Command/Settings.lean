import CatalogGraph.Harvest.Listing
import CatalogGraph.Identity.Resolve
import CatalogGraph.Mapping.Config
import CatalogGraph.Remote.Retry
import CatalogGraph.Toml.Document

/-!
The settings file, and what follows from it together with the flags of a command. A flag wins over
the file, and the file over the defaults.
-/
namespace CatalogGraph.Command
open Toml (Value)

/-- The settings of a run in the file. -/
structure EngineSection where
  baseIri : Option String := none
  blankPrefix : Option String := none
  pageSize : Option Nat := none
  namespaces : Option (Entries String) := none
  values : Option (Entries String) := none
deriving DecidableEq, Repr

/-- The settings of the triple store in the file. -/
structure StoreSection where
  url : Option String := none
  timeout : Option Nat := none
  retries : Option Nat := none
  chunk : Option Nat := none
deriving DecidableEq, Repr

/-- The settings of a harvest in the file. -/
structure HarvestSection where
  endpoint : Option String := none
  metadataPrefix : Option String := none
  set : Option String := none
  sample : Option Nat := none
  seed : Option Nat := none
  concurrency : Option Nat := none
  timeout : Option Nat := none
deriving DecidableEq, Repr

/-- The settings of identities in the file. -/
structure IdentitySection where
  baseIri : Option String := none
  classes : Option (List String) := none
  labelPredicates : Option (List String) := none
  transientStarts : Option (List String) := none
  source : Option String := none
  suggestUrl : Option String := none
deriving DecidableEq, Repr

/-- The settings file. -/
structure FileSettings where
  engine : EngineSection := {}
  store : StoreSection := {}
  harvest : HarvestSection := {}
  identity : IdentitySection := {}
deriving DecidableEq, Repr

/-! ### Reading the file -/

/-- The values of named fields of a section, which is a table, a list of all of them in order, or
a date or time, which has none. -/
def fields? (names : List String) : Value → Option (List (Option Value))
  | .table members => some (names.map fun name => members.lookup name)
  | .array items =>
    if names.length ≤ items.length then some ((items.take names.length).map some) else none
  | .moment _ => some (names.map fun _ => none)
  | _ => none

/-- A field that may be missing. -/
def optional? {α : Type} (read : Value → Option α) : Option Value → Option (Option α)
  | none => some none
  | some v => (read v).map some

def text? : Value → Option String
  | .string s => some s
  | _ => none

/-- A whole number below a limit. -/
def count? (limit : Nat) : Value → Option Nat
  | .integer n => if 0 ≤ n ∧ n < limit then some n.toNat else none
  | _ => none

/-- A number that a word of 64 bits holds. -/
def word? : Value → Option Nat := count? UInt64.size

def texts? : Value → Option (List String)
  | .array items => items.mapM text?
  | _ => none

/-- The name of the text of a date or time where a table is asked for. -/
def momentName : String := "$__toml_private_datetime"

/-- A table of texts, or a date or time as a table with its own text. -/
def textTable? : Value → Option (Entries String)
  | .table members => do
    return Entries.ofPairs (← members.mapM fun (k, v) => (text? v).map fun s => (k, s))
  | .moment moment => some [(momentName, moment.render)]
  | _ => none

def engineSection? (v : Value) : Option EngineSection := do
  match ← fields? ["base_iri", "blank_node_prefix", "bindings_page_size", "namespaces",
      "values"] v with
  | [base, blank, size, namespaces, values] =>
    return {
      baseIri := ← optional? text? base
      blankPrefix := ← optional? text? blank
      pageSize := ← optional? word? size
      namespaces := ← optional? textTable? namespaces
      values := ← optional? textTable? values }
  | _ => none

def storeSection? (v : Value) : Option StoreSection := do
  match ← fields? ["url", "timeout_secs", "max_retries", "load_chunk"] v with
  | [url, timeout, retries, chunk] =>
    return {
      url := ← optional? text? url
      timeout := ← optional? word? timeout
      retries := ← optional? (count? UInt32.size) retries
      chunk := ← optional? word? chunk }
  | _ => none

def harvestSection? (v : Value) : Option HarvestSection := do
  match ← fields? ["endpoint", "metadata_prefix", "set", "sample", "seed", "concurrency",
      "timeout_secs"] v with
  | [endpoint, metadataPrefix, set, sample, seed, concurrency, timeout] =>
    return {
      endpoint := ← optional? text? endpoint
      metadataPrefix := ← optional? text? metadataPrefix
      set := ← optional? text? set
      sample := ← optional? word? sample
      seed := ← optional? word? seed
      concurrency := ← optional? word? concurrency
      timeout := ← optional? word? timeout }
  | _ => none

def identitySection? (v : Value) : Option IdentitySection := do
  match ← fields? ["base_iri", "classes", "label_predicates", "transient_prefixes", "source",
      "loc_url"] v with
  | [base, classes, labels, starts, source, url] =>
    return {
      baseIri := ← optional? text? base
      classes := ← optional? texts? classes
      labelPredicates := ← optional? texts? labels
      transientStarts := ← optional? texts? starts
      source := ← optional? text? source
      suggestUrl := ← optional? text? url }
  | _ => none

namespace FileSettings

/-- Reads the text of a settings file; what it does not know is passed over. -/
def parse? (text : String) : Option FileSettings := do
  match ← fields? ["engine", "triplestore", "harvest", "dedup"] (← Toml.parse? text) with
  | [engine, store, harvest, identity] =>
    return {
      engine := (← optional? engineSection? engine).getD {}
      store := (← optional? storeSection? store).getD {}
      harvest := (← optional? harvestSection? harvest).getD {}
      identity := (← optional? identitySection? identity).getD {} }
  | _ => none

/-! ### What follows from the file and the flags -/

/-- The name and the value of a flag that sets a named value. -/
def splitValue? (text : String) : Option (String × String) :=
  let cs := text.toList
  if cs.contains '=' then
    some (Text.trim (String.ofList (cs.takeWhile (· ≠ '='))),
      String.ofList ((cs.dropWhile (· ≠ '=')).drop 1))
  else none

/-- The settings of a run; the error is a named value without an equals sign. -/
def config (file : FileSettings) (baseIri : Option String) (values : List String) :
    Except String Config := do
  let d : Config := {}
  let named ← values.mapM fun text =>
    match splitValue? text with
    | some pair => Except.ok pair
    | none => .error text
  return {
    baseIri := (baseIri.or file.engine.baseIri).getD d.baseIri
    namedValues := Entries.insertAll named (Entries.ofPairs (file.engine.values.getD []))
    namespaces := Entries.insertAll (file.engine.namespaces.getD []) d.namespaces
    blankPrefix := file.engine.blankPrefix.getD d.blankPrefix
    pageSize := file.engine.pageSize.getD d.pageSize }

def storeUrl? (file : FileSettings) (flag : Option String) : Option String :=
  flag.or file.store.url

/-- How many seconds a request waits by default. -/
def defaultTimeout : Nat := 30

def storeTimeout (file : FileSettings) : Nat := file.store.timeout.getD defaultTimeout

def harvestTimeout (file : FileSettings) : Nat := file.harvest.timeout.getD defaultTimeout

/-- The policy by which requests of all kinds are repeated. -/
def retryPolicy (file : FileSettings) : RetryPolicy :=
  let d : RetryPolicy := {}
  { d with retries := file.store.retries.getD d.retries }

/-- How many statements one request inserts. -/
def chunk (file : FileSettings) : Nat := file.store.chunk.getD 5000

def endpoint? (file : FileSettings) (flag : Option String) : Option String :=
  flag.or file.harvest.endpoint

/-- How many records are worked on at once. -/
def concurrency (file : FileSettings) (flag : Option Nat) : Nat :=
  (flag.or file.harvest.concurrency).getD 8

/-- What to list; the given options are those of the flags. -/
def harvestOptions (file : FileSettings) (metadataPrefix set : Option String)
    (sample seed : Option Nat) : Harvest.HarvestOptions :=
  let d : Harvest.HarvestOptions := {}
  { metadataPrefix := (metadataPrefix.or file.harvest.metadataPrefix).getD d.metadataPrefix
    set := set.or file.harvest.set
    sampleSize := sample.or file.harvest.sample
    seed := seed.or file.harvest.seed }

/-- The address of the suggestion service, if candidates come from there and not from the triple
store. -/
def suggestUrl? (file : FileSettings) : Option String :=
  if file.identity.source = some "loc" then
    some (file.identity.suggestUrl.getD "https://id.loc.gov")
  else none

/-- The settings of a pass over identities. -/
def identities (file : FileSettings) (config : Config) : Identity.Settings :=
  let d : Identity.Settings := {}
  { baseIri := file.identity.baseIri.getD config.baseIri
    labelPredicates := file.identity.labelPredicates.getD d.labelPredicates
    transientStarts := file.identity.transientStarts.getD []
    policy := if file.suggestUrl?.isSome then .strict else d.policy }

/-- The classes whose entities get names: those of the flag, or else of the file, or else the given
ones. -/
def classes (file : FileSettings) (flag fallback : List String) : List String :=
  if !flag.isEmpty then flag
  else ((file.identity.classes).filter fun cs => !cs.isEmpty).getD fallback

end FileSettings

/-- Reads a policy for repetitions; what is missing is as by default. -/
def retryPolicy? (text : String) : Option RetryPolicy := do
  let d : RetryPolicy := {}
  match ← fields? ["max_retries", "base_delay_ms", "max_delay_ms"] (← Toml.parse? text) with
  | [retries, base, limit] =>
    return {
      retries := (← optional? (count? UInt32.size) retries).getD d.retries
      base := ((← optional? word? base).map UInt64.ofNat).getD d.base
      limit := ((← optional? word? limit).map UInt64.ofNat).getD d.limit }
  | _ => none

end CatalogGraph.Command
