import CatalogGraph.Proofs.QueryPages

/-!
Calls of an engine: on a compiled mapping they need no guard against nesting, end if the pages of
every query do, and meet neither a missing map nor a missing query.
-/
namespace CatalogGraph.Engine
open Mapping
variable {σ : Type}

/-- What an engine is asked: to run all maps that are no parents on a source, or one on a node. -/
inductive Call where
  | all (source : Source) (ctx : Context)
  | one (iri : String) (node : Node) (ctx : Context)

def perform (engine : Engine σ) : Call → Run σ (List Term)
  | .all source ctx => engine.run source ctx
  | .one iri node ctx => engine.execute iri node ctx

/-- The context that the maps of a call start from. -/
def contextOf (engine : Engine σ) : Call → Context
  | .all _ ctx => engine.rootContext ctx
  | .one _ _ ctx => ctx

/-- A call whose maps look up each other among all maps, with nothing active before. -/
def performBelow (engine : Engine σ) (enter : List String → Run σ Unit)
    (beyond : Run σ (List Term)) (depth : Nat) : Call → Run σ (List Term)
  | .all source ctx =>
    runEach (fun m => engine.runBelow enter beyond depth [] m.iri m.iri source.root
      (engine.rootContext ctx)) engine.mapping.topLevel
  | .one iri node ctx =>
    match engine.mapping.get? iri with
    | none => throw (.invalidValue "TriplesMap" ("no map named " ++ iri))
    | some m => engine.runBelow enter beyond depth [] m.iri m.iri node ctx

theorem runEach_congr {runOne runOne' : TriplesMap → Run σ (List Term)} {maps : List TriplesMap}
    (same : ∀ m ∈ maps, runOne m = runOne' m) : runEach runOne maps = runEach runOne' maps := by
  induction maps with
  | nil => rfl
  | cons m rest ih =>
    simp only [runEach, same m (by simp), ih fun m hm => same m (by simp [hm])]

theorem mem_of_mem_topLevel {mapping : Mapping} {m : TriplesMap} (hm : m ∈ mapping.topLevel) :
    m ∈ mapping.maps :=
  (List.mem_filter.mp hm).1

theorem performBelow_eq_perform {engine : Engine σ} (valid : Valid engine.mapping.maps)
    (distinct : (engine.mapping.maps.map (·.iri)).Nodup) {enter : List String → Run σ Unit}
    (idle : ∀ active, ActiveChain engine.mapping.maps active → enter active = pure ())
    (beyond : Run σ (List Term)) {depth : Nat} (room : engine.mapping.size ≤ depth) (call : Call) :
    engine.performBelow enter beyond depth call = engine.perform call := by
  have one (m : TriplesMap) (hm : m ∈ engine.mapping.maps) (node : Node) (ctx : Context) :
      engine.runBelow enter beyond depth [] m.iri m.iri node ctx =
        engine.runNamed engine.mapping.maps m.iri m.iri node ctx :=
    runBelow_eq_runNamed valid distinct idle beyond (.start ⟨m, hm, rfl⟩) room node ctx
  cases call with
  | all source ctx => exact runEach_congr fun m hm => one m (mem_of_mem_topLevel hm) _ _
  | one iri node ctx =>
    simp only [performBelow, perform, execute]
    cases found : engine.mapping.get? iri with
    | none => rfl
    | some m => exact one m (mem_of_find? found).1 node ctx

theorem Law.runEach (law : Law σ) {runOne : Nat → TriplesMap → Run σ (List Term)}
    {maps : List TriplesMap} (one : ∀ m ∈ maps, law.holds fun n => runOne n m) :
    law.holds fun n => Engine.runEach (runOne n) maps := by
  induction maps with
  | nil => exact law.pure _
  | cons m rest ih =>
    refine law.bind (one m (by simp)) fun subjects => ?_
    exact law.bind (ih fun m hm => one m (by simp [hm])) fun _ => law.pure _

/-- A call obeys a law that the queries of its mapping obey. -/
theorem Law.perform (law : Law σ) {engine : Engine σ}
    (queries : ∀ m ∈ engine.mapping.maps, law.Queries engine m)
    (valid : Valid engine.mapping.maps) (distinct : (engine.mapping.maps.map (·.iri)).Nodup)
    (call : Call) : law.holds fun n => (engine.granting n).perform call := by
  have one (m : TriplesMap) (hm : m ∈ engine.mapping.maps) (node : Node) (ctx : Context) :
      law.holds fun n =>
        (engine.granting n).runNamed engine.mapping.maps m.iri m.iri node ctx :=
    law.runNamed queries valid distinct (.start ⟨m, hm, rfl⟩) node ctx
  cases call with
  | all source ctx =>
    exact law.runEach fun m hm =>
      one m (mem_of_mem_topLevel hm) source.root (engine.rootContext ctx)
  | one iri node ctx =>
    simp only [Engine.perform, execute, granting]
    cases found : engine.mapping.get? iri with
    | none => exact law.faults (by simp [MappingError.IsRunFault])
    | some m => exact one m (mem_of_find? found).1 node ctx

/-- The maps and the queries that a run needs are there. -/
def sound : Bound σ where
  moves _ _ := True
  fails e := (∀ child parent, e ≠ .unknownMap child parent) ∧ ∀ name, e ≠ .missingProperty name
  refl _ := trivial
  trans _ _ := trivial

theorem admits_sound (store : Option (TripleStore σ)) : Admits sound store where
  quiet _ _ _ := trivial
  counted _ _ _ _ := trivial
  committed _ _ := trivial
  asked _ _ _ _ := trivial
  faults _ fault := ⟨fault.1, fault.2.1⟩

theorem within_perform {engine : Engine σ} (valid : Valid engine.mapping.maps)
    (distinct : (engine.mapping.maps.map (·.iri)).Nodup) (call : Call) :
    Within sound (engine.perform call) := by
  have admits : Admits sound engine.store := admits_sound engine.store
  have queries (m : TriplesMap) (_ : m ∈ engine.mapping.maps) : admits.law.Queries engine m :=
    admits.queries (fun _ => by simp [sound]) m
  exact admits.law.perform queries valid distinct call engine.pages

theorem settlesAt_perform {engine : Engine σ} (valid : Valid engine.mapping.maps)
    (distinct : (engine.mapping.maps.map (·.iri)).Nodup) {s : RunState σ}
    (ends : QueriesEnd engine s.store) (call : Call) :
    SettlesAt engine.store (fun n => (engine.granting n).perform call) s :=
  (settling engine.store s.store).perform (fun _ => settling_queries ends) valid distinct call s
    .refl

/-- On a compiled mapping the maps that are active at one time are a chain of parents without
repeats, so that the unguarded run, which looks up every map among all maps, is the guarded one and
is never deeper than there are maps. A call ends if the pages of every query do, and it never meets
a missing map or a map without its query. -/
theorem compiled_calls_nest_and_end {engine : Engine σ} {rules : List TriplesMap}
    (compiled : compile rules = .ok engine.mapping) (call : Call) (s : RunState σ) :
    (∀ (enter : List String → Run σ Unit) (beyond : Run σ (List Term)) (depth : Nat),
      (∀ active, ActiveChain engine.mapping.maps active → enter active = pure ()) →
      engine.mapping.size ≤ depth →
      engine.performBelow enter beyond depth call = engine.perform call) ∧
    (∀ active, ActiveChain engine.mapping.maps active → active.length ≤ engine.mapping.size) ∧
    (QueriesEnd engine s.store → ∃ enough result,
      (∀ n, enough ≤ n → outcome ((engine.granting n).perform call) s = result) ∧
      ∀ iri, result.1 ≠ .error (.tooManyPages iri)) ∧
    (∀ child parent, (outcome (engine.perform call) s).1 ≠ .error (.unknownMap child parent)) ∧
    ∀ name, (outcome (engine.perform call) s).1 ≠ .error (.missingProperty name) := by
  have valid := valid_of_compile compiled
  have distinct := distinct_of_compile compiled
  have faults := (within_perform valid distinct call s).2
  refine ⟨?_, fun _ => ActiveChain.length_le, ?_, ?_, ?_⟩
  · intro enter beyond depth idle room
    exact performBelow_eq_perform valid distinct idle beyond room call
  · intro ends
    obtain ⟨enough, result, same, _, fault⟩ := settlesAt_perform valid distinct ends call
    exact ⟨enough, result, same, fault⟩
  · exact fun child parent failed => (faults _ failed).1 child parent rfl
  · exact fun name failed => (faults _ failed).2 name rfl

/-- Works and their agents in a store, which is asked for one work at a time. -/
def catalog : Engine (Scripted (List Binding) String) where
  mapping := { maps := [
    { iri := "works"
      logicalSource := some
        { formulation := .sparql, iterator := some "work"
          query := some "SELECT ?work LIMIT \x7blimit\x7d OFFSET \x7boffset\x7d" }
      predicateObjectMaps := [{ predicate := "by", object := .parent "agents" }] },
    { iri := "agents"
      logicalSource := some
        { formulation := .sparql, iterator := some "agent"
          query := some "SELECT ?agent WHERE <\x7bsubject\x7d> by ?agent" } }] }
  config := { pageSize := 1 }
  store := some .scripted

/-- The store gives two pages of one work each, and an agent of the first. -/
def catalogStart : RunState (Scripted (List Binding) String) :=
  start catalog.config { answers := [.ok [[("work", .uri "w1")]], .ok [[("agent", .uri "a1")]],
    .ok [[("work", .uri "w2")]]] }

theorem catalog_calls_nest_and_end :
    compile catalog.mapping.maps = .ok catalog.mapping ∧
    catalog.performBelow
      (fun active => if active.length ≤ 2 then pure () else throw (.parentCycle active))
      (throw (.parentCycle [])) 2 (.all .none .empty) = catalog.perform (.all .none .empty) ∧
    ∃ enough result, (∀ n, enough ≤ n →
        outcome ((catalog.granting n).perform (.all .none .empty)) catalogStart = result) ∧
      ∀ iri, result.1 ≠ .error (.tooManyPages iri) := by
  have compiled : compile catalog.mapping.maps = .ok catalog.mapping := by
    decide +kernel
  obtain ⟨nest, size, ends, _⟩ :=
    compiled_calls_nest_and_end compiled (.all .none .empty) catalogStart
  refine ⟨compiled, nest _ _ 2 ?_ le_rfl, ends ?_⟩
  · exact fun active chain => if_pos (size active chain)
  · rintro _ ⟨⟩ _ _ _ _ query _ ctx _
    exact scripted_pagesEnd _ query ctx _

end CatalogGraph.Engine
