import CatalogGraph.Engine.Row

/-!
Running a mapping: maps are applied to the rows of their sources, and queries are asked page by
page. Nested maps are distinct, which bounds their depth.
-/
namespace CatalogGraph

/-- What stays the same during a run. -/
structure Engine (σ : Type) where
  mapping : Mapping
  config : Config := {}
  store : Option (TripleStore σ) := none
  uuids : Generator := { id := 0, draw := fun _ => "" }
  /-- How many pages any one query may take. -/
  pages : Nat := 0x10000000000

namespace Engine
variable {σ : Type}

/-- Applies a map to rows in order. -/
def applyRows (apply : Node → Run σ (Option Term)) : List Node → Run σ (List Term)
  | [] => return []
  | node :: rest => do
    let subject ← apply node
    let more ← applyRows apply rest
    return subject.toList ++ more

/-- Whether a query is asked page by page: it names the offset, which the context leaves open. -/
def isPaged (query : String) (ctx : Context) : Bool :=
  (Template.names query).contains "offset" && !Entries.contains "offset" ctx

/-- The context of a page of a query: it names the offset and the limit, as far as the query asks
for them and the context does not. -/
def pageContext (query : String) (ctx : Context) (offset size : Nat) : Context :=
  let asks := fun (name : String) =>
    (Template.names query).contains name && !Entries.contains name ctx
  let page := if asks "offset" then Context.set "offset" (toString offset) .empty else .empty
  ctx.merged (if asks "limit" then page.set "limit" (toString size) else page)

/-- The number of rows of a full page. -/
def pageSize (config : Config) : Nat := max config.pageSize 1

/-- Asks one page of a query. -/
def queryPage (store : TripleStore σ) (query : String) (ctx : Context) : Run σ (List Binding) := do
  match ← Template.expand (resolveNamed ctx) query with
  | .error name => throw (.noTemplateValue query name)
  | .ok text =>
    let answer ← modifyGet fun s =>
      let (answer, store) := store.query text s.store
      (answer, { s with store })
    match answer with
    | .error e => throw (.remote e)
    | .ok rows =>
      modify fun s => { s with stats := { s.stats with queries := s.stats.queries + 1 } }
      return rows

/-- Applies a map to the rows of a query page by page, up to a page that is not full; `left` is
the number of pages that may still be asked. -/
def queryPages (config : Config) (store : TripleStore σ) (apply : Node → Run σ (Option Term))
    (m : TriplesMap) (query : String) (ctx : Context) : Nat → Nat → Run σ (List Term)
  | 0, _ => throw (.tooManyPages m.iri)
  | left + 1, offset => do
    let size := pageSize config
    let rows ← queryPage store query (pageContext query ctx offset size)
    let subjects ← applyRows apply (rows.map .binding)
    if !isPaged query ctx || rows.length < size then return subjects
    else
      return subjects ++ (← queryPages config store apply m query ctx left (offset + size))

/-- Runs a map on a node; `runParent` runs the maps that it links to. -/
def runMap (engine : Engine σ) (runParent : RunParent σ) (m : TriplesMap) (node : Node)
    (ctx : Context) : Run σ (List Term) :=
  match m.logicalSource with
  | none => return []
  | some source =>
    if !node.accepts source.formulation then
      throw (.sourceMismatch m.iri source.formulation.name node.kindName)
    else
      let apply := applyRow engine.config runParent m ctx
      match source.formulation with
      | .sparql =>
        match engine.store with
        | none => throw (.invalidValue "rml:query" ("map " ++ m.iri ++ " needs a triple store"))
        | some store =>
          match source.query with
          | none => throw (.missingProperty ("rml:query on " ++ m.iri))
          | some query => queryPages engine.config store apply m query ctx engine.pages 0
      | _ => do applyRows apply (← node.iterate engine.config.namespaces source.iterator)

/-- Runs the map of a name, which `child` links to, on a node. `maps` are the maps that may run:
those that are not running already. -/
def runNamed (engine : Engine σ) (maps : List TriplesMap) (child iri : String) (node : Node)
    (ctx : Context) : Run σ (List Term) :=
  match _found : maps.find? (·.iri == iri) with
  | none => throw (.unknownMap child iri)
  | some m => engine.runMap (runNamed engine (Mapping.others maps iri) m.iri) m node ctx
termination_by maps.length
decreasing_by exact Mapping.length_others_lt _found

/-- Runs maps in order. -/
def runEach (runOne : TriplesMap → Run σ (List Term)) : List TriplesMap → Run σ (List Term)
  | [] => return []
  | m :: rest => do
    let subjects ← runOne m
    return subjects ++ (← runEach runOne rest)

/-- The context of a run: the given one wins over the settings. -/
def rootContext (engine : Engine σ) (ctx : Context) : Context :=
  (engine.config.context engine.uuids).merged ctx

/-- Runs the maps that are no parents on a source. -/
def run (engine : Engine σ) (source : Source) (ctx : Context) : Run σ (List Term) :=
  runEach (fun m => engine.runNamed engine.mapping.maps m.iri m.iri source.root
    (engine.rootContext ctx)) engine.mapping.topLevel

/-- Runs one map on a node in the given context. -/
def execute (engine : Engine σ) (iri : String) (node : Node) (ctx : Context) :
    Run σ (List Term) :=
  match engine.mapping.get? iri with
  | none => throw (.invalidValue "TriplesMap" ("no map named " ++ iri))
  | some m => engine.runNamed engine.mapping.maps m.iri m.iri node ctx

end Engine

/-- The graph that a mapping makes of a source without a store. -/
def Mapping.transform (mapping : Mapping) (config : Config) (uuids : Generator) (source : Source)
    (ctx : Context) : Except MappingError Graph :=
  let engine : Engine Unit := { mapping, config, uuids }
  match (engine.run source ctx).run.run (Engine.start config ()) with
  | (.ok _, s) => .ok s.graph
  | (.error e, _) => .error e

end CatalogGraph
