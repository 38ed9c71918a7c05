import CatalogGraph.Proofs.RowSteps

/-!
Maps: what passes from the parts of a step to the step, and holds of rows, of commits and of faults,
holds of running a map if it holds of its queries and of its parents.
-/
namespace CatalogGraph

/-- A fault that tells neither of a missing or an incomplete map nor of a query without end. -/
def MappingError.IsRunFault (e : MappingError) : Prop :=
  (∀ child parent, e ≠ .unknownMap child parent) ∧ (∀ name, e ≠ .missingProperty name) ∧
    ∀ iri, e ≠ .tooManyPages iri

namespace Engine
variable {σ α : Type}

/-- A property of steps, which may depend on the number of pages granted, that passes from the parts
of a step to the step. -/
structure Law (σ : Type) where
  holds {α : Type} : (Nat → Run σ α) → Prop
  bind {α β : Type} {step : Nat → Run σ α} {next : Nat → α → Run σ β} :
    holds step → (∀ a, holds fun n => next n a) → holds fun n => step n >>= next n
  quiet {α : Type} {step : Run σ α} : Within quiet step → holds fun _ => step
  counts : holds fun _ => countRow
  skips : holds fun _ => skipRow
  commits (triples : List Triple) : holds fun _ => commit triples
  faults {α : Type} {e : MappingError} : e.IsRunFault → holds fun _ => (throw e : Run σ α)

/-- The engine that grants a number of pages to each query. -/
def granting (engine : Engine σ) (pages : Nat) : Engine σ := { engine with pages }

theorem mem_parentRefs {m : TriplesMap} {iri : String} :
    iri ∈ m.parentRefs ↔ ∃ pom ∈ m.predicateObjectMaps, pom.object = .parent iri := by
  unfold TriplesMap.parentRefs
  rw [List.mem_filterMap]
  constructor
  · rintro ⟨pom, hm, h⟩
    split at h
    next parent eq =>
      cases h
      exact ⟨pom, hm, eq⟩
    next => cases h
  · rintro ⟨pom, hm, h⟩
    exact ⟨pom, hm, by simp [h]⟩

namespace Law
variable (law : Law σ)

theorem pure (a : α) : law.holds fun _ => (Pure.pure a : Run σ α) :=
  law.quiet (within_pure a)

theorem linkTriples {config : Config} {runParent : Nat → RunParent σ} {subject : Term}
    {node : Node} {ctx : Context} {pom : PredicateObjectMap} {buffer : List Triple}
    (parents : ∀ iri, pom.object = .parent iri →
      ∀ ctx, law.holds fun n => runParent n iri node ctx) :
    law.holds fun n => Engine.linkTriples config (runParent n) subject node ctx pom buffer := by
  unfold Engine.linkTriples
  split
  next iri h => exact law.bind (parents iri h _) fun _ => law.pure _
  next => exact law.quiet (allows_quiet.ownTriples config subject node ctx pom buffer)

theorem rowTriples {config : Config} {runParent : Nat → RunParent σ} {subject : Term}
    {node : Node} {ctx : Context} {poms : List PredicateObjectMap} {buffer : List Triple}
    (parents : ∀ pom ∈ poms, ∀ iri, pom.object = .parent iri →
      ∀ ctx, law.holds fun n => runParent n iri node ctx) :
    law.holds fun n => Engine.rowTriples config (runParent n) subject node ctx poms buffer := by
  induction poms generalizing buffer with
  | nil => exact law.pure _
  | cons pom rest ih =>
    have first : law.holds fun n =>
        Engine.linkTriples config (runParent n) subject node ctx pom buffer :=
      law.linkTriples (parents pom (by simp))
    refine law.bind first fun r => ?_
    cases r with
    | none => exact law.pure _
    | some buffer => exact ih fun pom hm => parents pom (by simp [hm])

theorem rowContent {config : Config} {runParent : Nat → RunParent σ} {m : TriplesMap} {node : Node}
    {ctx : Context}
    (parents : ∀ iri ∈ m.parentRefs, ∀ ctx, law.holds fun n => runParent n iri node ctx) :
    law.holds fun n => Engine.rowContent config (runParent n) m ctx node := by
  refine law.bind (law.quiet (allows_quiet.mintSubject config m node ctx)) fun r => ?_
  cases r with
  | none => exact law.pure _
  | some subject =>
    have content : law.holds fun n => Engine.rowTriples config (runParent n) subject node ctx
        m.predicateObjectMaps [] :=
      law.rowTriples fun pom hm iri h => parents iri (mem_parentRefs.mpr ⟨pom, hm, h⟩)
    exact law.bind content fun _ => law.pure _

theorem applyRow {config : Config} {runParent : Nat → RunParent σ} {m : TriplesMap} {node : Node}
    {ctx : Context}
    (parents : ∀ iri ∈ m.parentRefs, ∀ ctx, law.holds fun n => runParent n iri node ctx) :
    law.holds fun n => Engine.applyRow config (runParent n) m ctx node := by
  refine law.bind law.counts fun _ => ?_
  refine law.bind (law.rowContent parents) fun r => ?_
  match r with
  | none => exact law.bind law.skips fun _ => law.pure _
  | some (subject, buffer) =>
    dsimp only
    split
    next => exact law.pure _
    next => exact law.bind (law.commits _) fun _ => law.pure _

theorem applyRows {apply : Nat → Node → Run σ (Option Term)}
    (row : ∀ node, law.holds fun n => apply n node) (nodes : List Node) :
    law.holds fun n => Engine.applyRows (apply n) nodes := by
  induction nodes with
  | nil => exact law.pure _
  | cons node rest ih => exact law.bind (row node) fun _ => law.bind ih fun _ => law.pure _

/-- A law holds of the queries of a map if it holds of applying the map to a row. -/
def Queries (engine : Engine σ) (m : TriplesMap) : Prop :=
  ∀ source, m.logicalSource = some source → ∀ service, engine.store = some service →
    ∀ query, source.query = some query → ∀ apply : Nat → Node → Run σ (Option Term),
      (∀ node, law.holds fun n => apply n node) → ∀ ctx,
        law.holds fun n => queryPages engine.config service (apply n) m query ctx n 0

theorem runMap {engine : Engine σ} {runParent : Nat → RunParent σ} {m : TriplesMap} {node : Node}
    {ctx : Context} (queries : law.Queries engine m)
    (asked : ∀ source, m.logicalSource = some source → source.formulation = .sparql →
      source.query = none → ∀ name,
        law.holds fun _ => (throw (.missingProperty name) : Run σ (List Term)))
    (parents : ∀ iri ∈ m.parentRefs, ∀ node ctx, law.holds fun n => runParent n iri node ctx) :
    law.holds fun n => (engine.granting n).runMap (runParent n) m node ctx := by
  have row (node : Node) : law.holds fun n =>
      Engine.applyRow engine.config (runParent n) m ctx node :=
    law.applyRow fun iri hm ctx => parents iri hm node ctx
  unfold Engine.runMap granting
  split
  next => exact law.pure _
  next source hs =>
    split
    next => exact law.faults (by simp [MappingError.IsRunFault])
    next =>
      dsimp only
      split
      next hf =>
        split
        next => exact law.faults (by simp [MappingError.IsRunFault])
        next service hservice =>
          split
          next hq => exact asked source hs hf hq _
          next text hq => exact queries source hs service hservice text hq _ row ctx
      next =>
        refine law.bind (law.quiet (within_lift fun e => Node.iterate_error)) fun nodes => ?_
        exact law.applyRows row nodes

end Law

/-- The bound leaves room for counting rows, for adding statements and for asking a store. -/
structure Admits (bound : Bound σ) (store : Option (TripleStore σ)) : Prop where
  quiet : ∀ s t, quiet.moves s t → bound.moves s t
  counted : ∀ (s : RunState σ) rows skipped queries,
    bound.moves s { s with stats := { s.stats with rows, skipped, queries } }
  committed : ∀ (s : RunState σ) triples, bound.moves s (outcome (commit triples) s).2
  asked : ∀ service, store = some service → ∀ (s : RunState σ) text,
    bound.moves s { s with store := (service.query text s.store).2 }
  faults : ∀ e, e.IsRunFault → bound.fails e

section Admits
variable {bound : Bound σ} {store : Option (TripleStore σ)}

theorem isRunFault_of_isPathFault {e : MappingError} (fault : Node.IsPathFault e) :
    e.IsRunFault := by
  obtain ⟨text, cause, rfl⟩ := fault
  simp [MappingError.IsRunFault]

theorem Admits.of_quiet (admits : Admits bound store) {step : Run σ α}
    (within : Within Engine.quiet step) : Within bound step :=
  within.mono admits.quiet fun e fault => admits.faults e (isRunFault_of_isPathFault fault)

/-- Keeping to a bound is a law. -/
def Admits.law (admits : Admits bound store) : Law σ where
  holds step := ∀ n, Within bound (step n)
  bind first second n := within_bind (first n) fun a => second a n
  quiet within _ := admits.of_quiet within
  counts _ := within_modify fun s => admits.counted s _ _ _
  skips _ := within_modify fun s => admits.counted s _ _ _
  commits triples _ := within_modify fun s => admits.committed s triples
  faults fault _ := within_throw (admits.faults _ fault)

/-- The bound leaves room for asking a store. -/
structure Asks (bound : Bound σ) (store : Option (TripleStore σ)) : Prop where
  resolve : ∀ ctx name, Within bound (resolveNamed ctx name)
  counted : ∀ (s : RunState σ) queries, bound.moves s { s with stats := { s.stats with queries } }
  asked : ∀ service, store = some service → ∀ (s : RunState σ) text,
    bound.moves s { s with store := (service.query text s.store).2 }
  faults : ∀ e, e.IsRunFault → bound.fails e

theorem Admits.asks (admits : Admits bound store) : Asks bound store where
  resolve ctx name := admits.of_quiet (allows_quiet.resolveNamed ctx name)
  counted s _ := admits.counted s _ _ _
  asked := admits.asked
  faults := admits.faults

theorem within_queryPage {service : TripleStore σ} (asks : Asks bound (some service))
    (query : String) (ctx : Context) : Within bound (queryPage service query ctx) := by
  refine within_bind (within_expand (asks.resolve ctx) query) fun r => ?_
  cases r with
  | error name => exact within_throw (asks.faults _ (by simp [MappingError.IsRunFault]))
  | ok text =>
    refine within_bind (within_modifyGet fun s => asks.asked service rfl s text) fun answer => ?_
    cases answer with
    | error e => exact within_throw (asks.faults _ (by simp [MappingError.IsRunFault]))
    | ok rows =>
      exact within_bind (within_modify fun s => asks.counted s _) fun _ => within_pure _

theorem within_applyRows {apply : Node → Run σ (Option Term)}
    (row : ∀ node, Within bound (apply node)) (nodes : List Node) :
    Within bound (applyRows apply nodes) := by
  induction nodes with
  | nil => exact within_pure _
  | cons node rest ih =>
    exact within_bind (row node) fun _ => within_bind ih fun _ => within_pure _

/-- A query keeps to a bound if each of its pages and the rows of them do. -/
theorem within_pages {service : TripleStore σ} {config : Config} {m : TriplesMap} {query : String}
    {ctx : Context} (pages : bound.fails (.tooManyPages m.iri))
    (page : ∀ offset, Within bound
      (queryPage service query (pageContext query ctx offset (pageSize config))))
    {apply : Node → Run σ (Option Term)} (row : ∀ node, Within bound (apply node))
    (left offset : Nat) :
    Within bound (queryPages config service apply m query ctx left offset) := by
  induction left generalizing offset with
  | zero => exact within_throw pages
  | succ left ih =>
    refine within_bind (page offset) fun rows => ?_
    refine within_bind (within_applyRows row _) fun subjects => ?_
    split
    next => exact within_pure _
    next => exact within_bind (ih _) fun _ => within_pure _

theorem within_queryPages {service : TripleStore σ} (asks : Asks bound (some service))
    (pages : ∀ iri, bound.fails (.tooManyPages iri)) {config : Config}
    {apply : Node → Run σ (Option Term)} (row : ∀ node, Within bound (apply node))
    (m : TriplesMap) (query : String) (ctx : Context) (left offset : Nat) :
    Within bound (queryPages config service apply m query ctx left offset) :=
  within_pages (pages m.iri) (fun _ => within_queryPage asks query _) row left offset

theorem Admits.queries {engine : Engine σ} (admits : Admits bound engine.store)
    (pages : ∀ iri, bound.fails (.tooManyPages iri)) (m : TriplesMap) :
    admits.law.Queries engine m := by
  intro _ _ service hservice query _ apply row ctx n
  exact within_queryPages (hservice ▸ admits.asks) pages (fun node => row node n) m query ctx n 0

end Admits

/-- A map asks a store a query. -/
def Poses (m : TriplesMap) (query : String) : Prop :=
  ∃ source, m.logicalSource = some source ∧ source.formulation = .sparql ∧
    source.query = some query

/-- A map with a query is run by asking for the pages of it, whatever the node. -/
theorem runMap_of_poses {engine : Engine σ} {service : TripleStore σ} {m : TriplesMap}
    {query : String} (asked : engine.store = some service) (poses : Poses m query)
    (runParent : RunParent σ) (node : Node) (ctx : Context) :
    engine.runMap runParent m node ctx = queryPages engine.config service
      (applyRow engine.config runParent m ctx) m query ctx engine.pages 0 := by
  obtain ⟨source, hs, sparql, hq⟩ := poses
  have accepts : node.accepts .sparql = true := by cases node <;> rfl
  simp only [runMap, hs, sparql, accepts, asked, hq, Bool.not_true, Bool.false_eq_true, if_false]

/-- Running a map keeps to a bound that admits all faults but those of a query, if each page of its
query and each row do. -/
theorem within_runMap {bound : Bound σ} {engine : Engine σ} {runParent : RunParent σ}
    {m : TriplesMap} {node : Node} {ctx : Context}
    (fails : ∀ e, (∀ template name, e ≠ .noTemplateValue template name) → bound.fails e)
    (page : ∀ service, engine.store = some service → ∀ query, Poses m query → ∀ offset,
      Within bound (queryPage service query
        (pageContext query ctx offset (pageSize engine.config))))
    (row : ∀ node, Within bound (applyRow engine.config runParent m ctx node)) :
    Within bound (engine.runMap runParent m node ctx) := by
  unfold runMap
  split
  next => exact within_pure _
  next source hs =>
    split
    next => exact within_throw (fails _ (by simp))
    next =>
      dsimp only
      split
      next hf =>
        split
        next => exact within_throw (fails _ (by simp))
        next service hservice =>
          split
          next => exact within_throw (fails _ (by simp))
          next query hq =>
            exact within_pages (fails _ (by simp))
              (page service hservice query ⟨source, hs, hf, hq⟩) row _ _
      next =>
        refine within_bind (within_lift fun e failed => fails e ?_) fun nodes => ?_
        · obtain ⟨text, fault, rfl⟩ := Node.iterate_error failed
          simp
        · exact within_applyRows row nodes

end Engine
end CatalogGraph
