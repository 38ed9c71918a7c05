import CatalogGraph.Harvest.Records

/-!
Records mapped at one time: a task for each record, started in order as far as there are slots. The
tasks share the services and come to their ends in any order.
-/
namespace CatalogGraph

/-- A store that others use too: before each request its state becomes what `change` makes of it,
which is told the number of the request. -/
def TripleStore.disturbed {σ : Type} (store : TripleStore σ) (change : Nat → σ → σ) :
    TripleStore (σ × Nat) where
  query text s :=
    let answer := store.query text (change s.2 s.1)
    (answer.1, answer.2, s.2 + 1)
  update text s :=
    let answer := store.update text (change s.2 s.1)
    (answer.1, answer.2, s.2 + 1)

namespace Harvest
variable {σ : Type}

/-- A repository that others use too. -/
def Repository.disturbed (repository : Repository σ) (change : Nat → σ → σ) :
    Repository (σ × Nat) where
  list request s :=
    let answer := repository.list request (change s.2 s.1)
    (answer.1, answer.2, s.2 + 1)
  record identifier metadataPrefix s :=
    let answer := repository.record identifier metadataPrefix (change s.2 s.1)
    (answer.1, answer.2, s.2 + 1)
  isCancelled s := repository.isCancelled s.1
  pages := repository.pages

namespace RecordMapper

/-- Maps records with services that others use too. -/
def disturbed (mapper : RecordMapper σ) (change : Nat → σ → σ) : RecordMapper (σ × Nat) where
  repository := mapper.repository.disturbed change
  engine :=
    { mapping := mapper.engine.mapping
      config := mapper.engine.config
      store := mapper.engine.store.map (·.disturbed change)
      uuids := mapper.engine.uuids
      pages := mapper.engine.pages }
  metadataPrefix := mapper.metadataPrefix

/-- Maps records with identifiers drawn from `uuids`. -/
def drawing (mapper : RecordMapper σ) (uuids : Generator) : RecordMapper σ :=
  { mapper with engine := { mapper.engine with uuids } }

/-- A task may come to an outcome, whatever the others do to the services meanwhile. -/
def MayGive (mapper : RecordMapper σ) (identifier : String) (outcome : Outcome) : Prop :=
  ∃ change s, outcome = ((mapper.disturbed change).mapRecord identifier (s, 0)).1

end RecordMapper

/-- Records to be mapped at one time. -/
structure Batch (σ : Type) where
  mapper : RecordMapper σ
  identifiers : List String
  /-- How many tasks may run at one time. -/
  concurrency : Nat := 8
  /-- What the task of the record in a place draws identifiers from. -/
  uuids : Nat → Generator := fun _ => mapper.engine.uuids

/-- How far the tasks of a batch have come. -/
structure Progress where
  /-- How many tasks have been started. -/
  dispatched : Nat := 0
  /-- Work is to stop. -/
  isCancelled : Bool := false
  /-- No task is started any more. -/
  isClosed : Bool := false
  /-- The places of the records whose tasks are running. -/
  running : List Nat := []
  /-- The outcomes with their places, in the order in which they came. -/
  finished : List (Nat × Outcome) := []

namespace Batch

/-- What may happen next: a task is started or held back for good, as soon as there is a slot for
it; work is told to stop; a task comes to its end. -/
inductive Step (batch : Batch σ) : Progress → Progress → Prop
  | dispatch {p : Progress} (more : p.dispatched < batch.identifiers.length)
      (slot : p.running.length < max batch.concurrency 1) (taking : p.isClosed = false)
      (going : p.isCancelled = false) :
      Step batch p
        { p with dispatched := p.dispatched + 1, running := p.running ++ [p.dispatched] }
  | close {p : Progress} (more : p.dispatched < batch.identifiers.length)
      (slot : p.running.length < max batch.concurrency 1) (taking : p.isClosed = false)
      (stopped : p.isCancelled = true) : Step batch p { p with isClosed := true }
  | cancel {p : Progress} (going : p.isCancelled = false) :
      Step batch p { p with isCancelled := true }
  | finish {p : Progress} {before after : List Nat} {place : Nat} {identifier : String}
      {outcome : Outcome} (task : p.running = before ++ place :: after)
      (named : batch.identifiers[place]? = some identifier)
      (gives : (batch.mapper.drawing (batch.uuids place)).MayGive identifier outcome) :
      Step batch p
        { p with running := before ++ after, finished := p.finished ++ [(place, outcome)] }

/-- All tasks that are to be started have come to their ends. -/
def IsOver (batch : Batch σ) (p : Progress) : Prop :=
  (p.dispatched = batch.identifiers.length ∨ p.isClosed = true) ∧ p.running = []

/-- The report on the tasks that have come to their ends. -/
def report (batch : Batch σ) (p : Progress) : RecordReport :=
  { RecordReport.ofOutcomes (batch.identifiers.take p.dispatched) p.finished with
    cancelled := batch.identifiers.drop p.dispatched }

end Batch
end Harvest
end CatalogGraph
