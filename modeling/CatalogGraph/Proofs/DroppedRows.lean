import CatalogGraph.Proofs.NestedMaps

/-!
Dropped rows: nothing of a row itself is kept, but what its parents added before stays.
-/
namespace CatalogGraph.Engine
variable {σ α : Type}

/-- From a state to another some statements were added, and counted. -/
structure Grows (s t : RunState σ) (added : List Triple) : Prop where
  graph : t.graph = s.graph.addAll added
  counted : t.stats.triples = s.stats.triples + added.length

theorem Grows.of_same {s t : RunState σ} (graph : t.graph = s.graph)
    (counted : t.stats.triples = s.stats.triples) : Grows s t [] :=
  ⟨by simp [graph, Graph.addAll], counted⟩

theorem Grows.trans {s t u : RunState σ} {first second : List Triple} (grows : Grows s t first)
    (grows' : Grows t u second) : Grows s u (first ++ second) := by
  refine ⟨?_, ?_⟩
  · simp [grows'.graph, grows.graph, Graph.addAll]
  · rw [grows'.counted, grows.counted, List.length_append, Nat.add_assoc]

/-- Statements are only added. -/
def growing : Bound σ where
  moves s t := ∃ added, Grows s t added
  fails _ := True
  refl _ := ⟨[], .of_same rfl rfl⟩
  trans := fun ⟨_, grows⟩ ⟨_, grows'⟩ => ⟨_, grows.trans grows'⟩

theorem admits_growing (store : Option (TripleStore σ)) : Admits growing store where
  quiet _ _ same := ⟨[], .of_same same.1 (by rw [same.2.1])⟩
  counted _ _ _ _ := ⟨[], .of_same rfl rfl⟩
  committed _ triples := ⟨triples, rfl, rfl⟩
  asked _ _ _ _ := ⟨[], .of_same rfl rfl⟩
  faults _ _ := trivial

/-- Whatever map is run, statements are only added. -/
theorem growing_runNamed (engine : Engine σ) (maps : List TriplesMap) (child iri : String)
    (node : Node) (ctx : Context) :
    Within growing (engine.runNamed maps child iri node ctx) :=
  ((admits_growing engine.store).rowwise fun _ => trivial).runNamed maps child iri node ctx

/-- The statements that were added between two states of a run. -/
def addedBetween (states : RunState σ × RunState σ) : List Triple :=
  states.2.graph.triples.drop states.1.graph.triples.length

theorem Grows.addedBetween {s t : RunState σ} {added : List Triple} (grows : Grows s t added) :
    addedBetween (s, t) = added := by
  simp [Engine.addedBetween, grows.graph, Graph.addAll]

theorem growing.grows {s t : RunState σ} (moves : growing.moves s t) :
    Grows s t (addedBetween (s, t)) := by
  obtain ⟨added, grows⟩ := moves
  rw [grows.addedBetween]
  exact grows

/-- The runs of parents that the predicate-object maps of a row make, up to the one that drops the
row: the states before and after each. -/
def parentRuns (config : Config) (runParent : RunParent σ) (subject : Term) (node : Node)
    (ctx : Context) : List PredicateObjectMap → List Triple → RunState σ →
    List (RunState σ × RunState σ)
  | [], _, _ => []
  | pom :: rest, buffer, s =>
    let here := match pom.object with
      | .parent iri =>
        [(s, (outcome (runParent iri node (linkContext ctx subject pom.predicate)) s).2)]
      | _ => []
    match outcome (linkTriples config runParent subject node ctx pom buffer) s with
    | (.ok (some buffer), t) =>
      here ++ parentRuns config runParent subject node ctx rest buffer t
    | _ => here

/-- The runs of parents that a row makes once its subject is minted. -/
def rowParentRuns (config : Config) (runParent : RunParent σ) (m : TriplesMap) (ctx : Context)
    (node : Node) (s : RunState σ) : List (RunState σ × RunState σ) :=
  match outcome (mintSubject config m node ctx) s with
  | (.ok (some subject), t) =>
    parentRuns config runParent subject node ctx m.predicateObjectMaps [] t
  | _ => []

theorem quiet_linkTriples {config : Config} {runParent : RunParent σ} {subject : Term}
    {node : Node} {ctx : Context} {pom : PredicateObjectMap} {buffer : List Triple}
    (own : ∀ iri, pom.object ≠ .parent iri) :
    Within quiet (linkTriples config runParent subject node ctx pom buffer) := by
  unfold linkTriples
  split
  next iri h => exact absurd h (own iri)
  next => exact allows_quiet.ownTriples config subject node ctx pom buffer

theorem grows_of_quiet {step : Run σ α} (within : Within quiet step) (s : RunState σ) :
    Grows s (outcome step s).2 [] := by
  obtain ⟨graph, stats, _⟩ := (within s).1
  exact .of_same graph (by rw [stats])

/-- A parent link adds what the parent added, and never drops the row. -/
theorem linkTriples_of_parent {config : Config} {runParent : RunParent σ} {subject : Term}
    {node : Node} {ctx : Context} {pom : PredicateObjectMap} {buffer : List Triple} {iri : String}
    (h : pom.object = .parent iri) (s : RunState σ) :
    (outcome (linkTriples config runParent subject node ctx pom buffer) s).2 =
      (outcome (runParent iri node (linkContext ctx subject pom.predicate)) s).2 ∧
    (outcome (linkTriples config runParent subject node ctx pom buffer) s).1 ≠ .ok none := by
  unfold linkTriples
  simp only [h]
  rcases hr : outcome (runParent iri node (linkContext ctx subject pom.predicate)) s with ⟨_ | _, t⟩
  · rw [outcome_bind_error hr]
    simp
  · rw [outcome_bind_ok hr]
    simp

/-- Up to the drop of a row the graph has grown by what its parents added. -/
theorem grows_of_rowTriples (config : Config) {runParent : RunParent σ} {node : Node}
    (parents : ∀ iri ctx, Within growing (runParent iri node ctx)) (subject : Term) (ctx : Context)
    (poms : List PredicateObjectMap) (buffer : List Triple) (s : RunState σ) :
    (outcome (rowTriples config runParent subject node ctx poms buffer) s).1 = .ok none →
    Grows s (outcome (rowTriples config runParent subject node ctx poms buffer) s).2
      ((parentRuns config runParent subject node ctx poms buffer s).flatMap addedBetween) := by
  induction poms generalizing buffer s with
  | nil => rintro ⟨⟩
  | cons pom rest ih =>
    intro dropped
    -- What this map added, whether it then drops the row or passes its statements on.
    have here : Grows s (outcome (linkTriples config runParent subject node ctx pom buffer) s).2
        ((match pom.object with
          | .parent iri =>
            [(s, (outcome (runParent iri node (linkContext ctx subject pom.predicate)) s).2)]
          | _ => []).flatMap addedBetween) := by
      split
      next iri h =>
        rw [(linkTriples_of_parent h s).1]
        simpa using growing.grows (parents iri _ s).1
      next own => exact grows_of_quiet (quiet_linkTriples own) s
    rcases hl : outcome (linkTriples config runParent subject node ctx pom buffer) s
      with ⟨e | _ | next, t⟩
    · rw [rowTriples, outcome_bind_error hl] at dropped
      cases dropped
    · rw [hl] at here
      simpa [rowTriples, outcome_bind_ok hl, parentRuns, hl] using here
    · rw [hl] at here
      rw [rowTriples, outcome_bind_ok hl] at dropped ⊢
      simp only [parentRuns, hl, List.flatMap_append]
      exact here.trans (ih next t dropped)

/-- A row is dropped: it has no subject, or a template of it has no value. -/
def Drops (config : Config) (runParent : RunParent σ) (m : TriplesMap) (ctx : Context)
    (node : Node) (s : RunState σ) : Prop :=
  (outcome (rowContent config runParent m ctx node) s).1 = .ok none

theorem grows_of_rowContent {config : Config} {runParent : RunParent σ} {m : TriplesMap}
    {ctx : Context} {node : Node} (parents : ∀ iri ctx, Within growing (runParent iri node ctx))
    {s : RunState σ} (drops : Drops config runParent m ctx node s) :
    Grows s (outcome (rowContent config runParent m ctx node) s).2
      ((rowParentRuns config runParent m ctx node s).flatMap addedBetween) := by
  have minted := grows_of_quiet (allows_quiet.mintSubject config m node ctx) s
  unfold Drops rowContent at drops
  unfold rowContent rowParentRuns
  rcases hm : outcome (mintSubject config m node ctx) s with ⟨e | _ | subject, t⟩
  · rw [outcome_bind_error hm] at drops
    cases drops
  · rw [hm] at minted
    simpa [outcome_bind_ok hm] using minted
  · rw [hm] at minted
    rw [outcome_bind_ok hm] at drops ⊢
    have later := grows_of_rowTriples config parents subject ctx
      m.predicateObjectMaps [] t
    rcases hr : outcome (rowTriples config runParent subject node ctx m.predicateObjectMaps []) t
      with ⟨e | _ | buffer, u⟩
    · rw [outcome_bind_error hr] at drops
      cases drops
    · rw [hr] at later
      rw [outcome_bind_ok hr]
      exact minted.trans (later rfl)
    · rw [outcome_bind_ok hr] at drops
      cases drops

/-- The state in which the content of a row is looked for: the row is counted. -/
def counted (s : RunState σ) : RunState σ := (outcome countRow s).2

theorem applyRow_of_drops {config : Config} {runParent : RunParent σ} {m : TriplesMap}
    {ctx : Context} {node : Node} {s : RunState σ}
    (drops : Drops config runParent m ctx node (counted s)) :
    outcome (applyRow config runParent m ctx node) s =
      (.ok none, (outcome skipRow
        (outcome (rowContent config runParent m ctx node) (counted s)).2).2) := by
  have count : outcome (countRow : Run σ Unit) s = (.ok (), counted s) := rfl
  rw [applyRow, outcome_bind_ok count]
  unfold Drops at drops
  rcases hr : outcome (rowContent config runParent m ctx node) (counted s) with ⟨r, t⟩
  obtain rfl : r = .ok none := by simpa [hr] using drops
  rw [outcome_bind_ok hr]
  rfl

/-- After a dropped row the graph holds, on top of what it held, the statements of the parents that
the row ran before the drop, and the count of statements tells them. So graph and count are as they
were exactly if no parent that the row ran added anything. -/
theorem dropped_row_unchanged_iff {engine : Engine σ} {maps : List TriplesMap} {child : String}
    {m : TriplesMap} {ctx : Context} {node : Node} {s : RunState σ}
    (drops : Drops engine.config (engine.runNamed maps child) m ctx node (counted s)) :
    let runs := rowParentRuns engine.config (engine.runNamed maps child) m ctx node (counted s)
    let result := outcome (applyRow engine.config (engine.runNamed maps child) m ctx node) s
    result.1 = .ok none ∧
    result.2.graph = s.graph.addAll (runs.flatMap addedBetween) ∧
    result.2.stats.triples = s.stats.triples + (runs.flatMap addedBetween).length ∧
    (result.2.graph = s.graph ∧ result.2.stats.triples = s.stats.triples ↔
      ∀ run ∈ runs, addedBetween run = []) := by
  intro runs result
  have parents (iri : String) (ctx : Context) :
      Within growing (engine.runNamed maps child iri node ctx) :=
    growing_runNamed engine maps child iri node ctx
  have grows : Grows s result.2 (runs.flatMap addedBetween) := by
    have content := grows_of_rowContent parents drops
    have same : result.2 = _ := congrArg Prod.snd (applyRow_of_drops drops)
    rw [same]
    exact ⟨content.graph, content.counted⟩
  refine ⟨congrArg Prod.fst (applyRow_of_drops drops), grows.graph, grows.counted, ?_⟩
  rw [← List.flatMap_eq_nil_iff, grows.graph, grows.counted]
  constructor
  · rintro ⟨_, count⟩
    exact List.eq_nil_of_length_eq_zero (by omega)
  · intro none
    simp [none, Graph.addAll]

/-- A work links to its agent before its title is looked for. -/
def works : TriplesMap where
  iri := "works"
  logicalSource := some { formulation := .rows }
  subjectMap := some { term := some (.template "work/\x7bid\x7d") }
  predicateObjectMaps := [{ predicate := "by", object := .parent "agents" },
    { predicate := "title", object := .template "\x7btitle\x7d" }]

def agents : TriplesMap where
  iri := "agents"
  logicalSource := some { formulation := .rows }
  subjectMap := some { term := some (.template "agent/\x7bid\x7d") }
  predicateObjectMaps := [{ predicate := "name", object := .reference "name" }]

def tables : Engine Unit := { mapping := { maps := [works, agents] } }

/-- A work without a title. -/
def untitled : Node := .row { header := ["id", "name", "title"], values := ["1", "Melville", ""] }

theorem untitled_dropped : Drops tables.config (tables.runNamed [agents] "works") works .empty
    untitled (counted (start {} ())) := by
  unfold Drops
  decide +kernel

theorem untitled_work_keeps_agent :
    Drops tables.config (tables.runNamed [agents] "works") works .empty untitled
      (counted (start {} ())) ∧
    (outcome (applyRow tables.config (tables.runNamed [agents] "works") works .empty untitled)
        (start {} ())).2.graph =
      Graph.ofTriples [⟨.iri "agent/1", .iri "name", .string "Melville"⟩] := by
  have kept : (rowParentRuns tables.config (tables.runNamed [agents] "works") works .empty untitled
      (counted (start {} ()))).flatMap addedBetween =
        [⟨.iri "agent/1", .iri "name", .string "Melville"⟩] := by decide +kernel
  obtain ⟨_, graph, _⟩ := dropped_row_unchanged_iff untitled_dropped
  rw [kept] at graph
  exact ⟨untitled_dropped, graph⟩

theorem untitled_work_changes_graph :
    Drops tables.config (tables.runNamed [agents] "works") works .empty untitled
      (counted (start {} ())) ∧
    ¬ ((outcome (applyRow tables.config (tables.runNamed [agents] "works") works .empty untitled)
          (start {} ())).2.graph = (start {} ()).graph ∧
      (outcome (applyRow tables.config (tables.runNamed [agents] "works") works .empty untitled)
          (start {} ())).2.stats.triples = (start {} ()).stats.triples) := by
  refine ⟨untitled_dropped, ?_⟩
  rintro ⟨_, count⟩
  have one : (outcome (applyRow tables.config (tables.runNamed [agents] "works") works .empty
      untitled) (start {} ())).2.stats.triples = 1 := by decide +kernel
  rw [one] at count
  cases count

end CatalogGraph.Engine
