import CatalogGraph.Engine.Run
import CatalogGraph.Harvest.Listing

/-!
Mapping the records of a repository one by one into one graph, in which the blank nodes of
different records stay apart.
-/
namespace CatalogGraph.Harvest

/-- What the records have given. -/
structure RecordReport where
  succeeded : Nat := 0
  failed : List (String × HarvestError) := []
  /-- The identifiers whose records were not asked for any more. -/
  cancelled : List String := []
  graph : Graph := {}

/-- What stays the same while records are mapped; `σ` is the state of all services. -/
structure RecordMapper (σ : Type) where
  repository : Repository σ
  engine : Engine σ
  metadataPrefix : String

/-- The graph of a record or why there is none. -/
abbrev Outcome := Except HarvestError Graph

namespace RecordReport

/-- The report with the outcome of the record in place `place`. -/
def record (report : RecordReport) (place : Nat) (identifier : String) :
    Outcome → RecordReport
  | .ok g =>
    { report with
      graph := report.graph.mergeScoped g ("r" ++ toString place ++ "_")
      succeeded := report.succeeded + 1 }
  | .error e => { report with failed := report.failed ++ [(identifier, e)] }

/-- The report on outcomes that may come in any order, each with the place of its record. -/
def ofOutcomes (identifiers : List String) (outcomes : List (Nat × Outcome)) : RecordReport :=
  identifiers.zipIdx.foldl (fun report (identifier, place) =>
    report.record place identifier ((outcomes.lookup place).getD (.error .unfinished))) {}

def failedIdentifiers (report : RecordReport) : List String := report.failed.map (·.1)

end RecordReport

namespace RecordMapper
variable {σ : Type}

/-- Maps one record, whose identifier the rules may name. -/
def mapRecord (mapper : RecordMapper σ) (identifier : String) (s : σ) : Outcome × σ :=
  match mapper.repository.record identifier mapper.metadataPrefix s with
  | (.error e, s) => (.error e, s)
  | (.ok source, s) =>
    let ctx := Context.set "identifier" identifier .empty
    match (mapper.engine.run source ctx).run.run (Engine.start mapper.engine.config s) with
    | (.ok _, t) => (.ok t.graph, t.store)
    | (.error e, t) => (.error (.mapping e), t.store)

/-- Maps records in order until work is to stop; the outcomes with their places, and the
identifiers left. -/
def mapRecords (mapper : RecordMapper σ) :
    Nat → List String → σ → List (Nat × Outcome) × List String × σ
  | _, [], s => ([], [], s)
  | place, identifier :: rest, s =>
    if mapper.repository.isCancelled s then ([], identifier :: rest, s)
    else
      let (outcome, s) := mapper.mapRecord identifier s
      let (outcomes, left, s) := mapper.mapRecords (place + 1) rest s
      ((place, outcome) :: outcomes, left, s)

/-- Maps the records of identifiers. -/
def run (mapper : RecordMapper σ) (identifiers : List String) (s : σ) : RecordReport × σ :=
  let (outcomes, cancelled, s) := mapper.mapRecords 0 identifiers s
  let report := RecordReport.ofOutcomes (identifiers.take outcomes.length) outcomes
  ({ report with cancelled }, s)

end RecordMapper
end CatalogGraph.Harvest
