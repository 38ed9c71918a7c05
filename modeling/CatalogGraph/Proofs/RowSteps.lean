import CatalogGraph.Proofs.RunSteps

/-!
Rows: minting a subject and finding objects leave the graph, the counts and the store as they are
and fail with faults of paths only.
-/
namespace CatalogGraph

namespace Node

/-- A fault of a path, which no row brings about. -/
def IsPathFault (e : MappingError) : Prop := ∃ text fault, e = .invalidPath text fault

theorem compileXPath_error {namespaces : Entries String} {text : String} {e : MappingError}
    (failed : compileXPath namespaces text = .error e) : IsPathFault e := by
  unfold compileXPath at failed
  split at failed
  next => cases failed
  next fault _ =>
    cases failed
    exact ⟨text, .xpath fault, rfl⟩

theorem compileJsonPath_error {text : String} {e : MappingError}
    (failed : compileJsonPath text = .error e) : IsPathFault e := by
  unfold compileJsonPath at failed
  split at failed
  next => cases failed
  next fault _ =>
    cases failed
    exact ⟨text, .jsonPath fault, rfl⟩

theorem map_error {α β ε : Type} {x : Except ε α} {f : α → β} {e : ε}
    (failed : (do return f (← x)) = .error e) : x = .error e := by
  cases x with
  | error => cases failed; rfl
  | ok => cases failed

theorem iterate_error {namespaces : Entries String} {iterator : Option String} {node : Node}
    {e : MappingError} (failed : node.iterate namespaces iterator = .error e) : IsPathFault e := by
  unfold iterate at failed
  split at failed
  next =>
    split at failed
    next => cases failed
    next => exact compileXPath_error (map_error failed)
  next =>
    split at failed
    next => cases failed
    next => exact compileJsonPath_error (map_error failed)
  all_goals cases failed

theorem rawValues_error {namespaces : Entries String} {reference : String} {node : Node}
    {e : MappingError} (failed : node.rawValues namespaces reference = .error e) :
    IsPathFault e := by
  unfold rawValues at failed
  split at failed
  next => exact compileXPath_error (map_error failed)
  next => exact compileJsonPath_error (map_error failed)
  all_goals cases failed

theorem values_error {namespaces : Entries String} {reference : String} {node : Node}
    {e : MappingError} (failed : node.values namespaces reference = .error e) : IsPathFault e :=
  rawValues_error (map_error failed)

theorem first?_error {namespaces : Entries String} {reference : String} {node : Node}
    {e : MappingError} (failed : node.first? namespaces reference = .error e) : IsPathFault e :=
  values_error (map_error failed)

end Node

namespace Engine
variable {σ α : Type}

/-- The bound leaves room for draws of generators, for blank nodes and for faults of paths. -/
structure Allows (bound : Bound σ) : Prop where
  draws : ∀ s draws, bound.moves s { s with draws }
  fresh : ∀ s, bound.moves s { s with blanks := s.blanks.fresh.2 }
  forValue : ∀ s value, bound.moves s { s with blanks := (s.blanks.forValue value).2 }
  faults : ∀ e, Node.IsPathFault e → bound.fails e

namespace Allows
variable {bound : Bound σ} (allows : Allows bound)
include allows

theorem resolveNamed (ctx : Context) (name : String) :
    Within bound (Engine.resolveNamed ctx name) :=
  within_modifyGet fun s => allows.draws s _

theorem resolveHole (config : Config) (node : Node) (ctx : Context) (escape : Bool)
    (name : String) : Within bound (Engine.resolveHole config node ctx escape name) := by
  refine within_bind (allows.resolveNamed ctx name) fun value => ?_
  cases value with
  | some value => exact within_pure _
  | none =>
    refine within_bind (within_lift fun e failed => ?_) fun _ => within_pure _
    exact allows.faults e (Node.first?_error failed)

theorem freshNode : Within bound Engine.freshNode :=
  within_modifyGet allows.fresh

theorem subjectOf (termType : TermType) (value : String) :
    Within bound (Engine.subjectOf termType value) := by
  cases termType with
  | blank => exact within_modifyGet fun s => allows.forValue s value
  | iri => exact within_pure _
  | literal => exact within_pure _

theorem mintSubject (config : Config) (m : TriplesMap) (node : Node) (ctx : Context) :
    Within bound (Engine.mintSubject config m node ctx) := by
  unfold Engine.mintSubject
  split
  next => exact within_pure _
  next s _ =>
    have named (value : String) :
        Within bound (do return some (← Engine.subjectOf s.termType value)) :=
      within_bind (allows.subjectOf s.termType value) fun _ => within_pure _
    split
    next => exact within_pure _
    next iri _ => exact within_pure _
    next text _ =>
      refine within_bind (within_expand (allows.resolveHole config node ctx true) text) fun r => ?_
      cases r with
      | ok value => exact named value
      | error => exact within_pure _
    next text _ =>
      split
      next value _ =>
        dsimp only
        split
        next => exact named value.value
        next => exact within_pure _
      next =>
        refine within_bind (within_lift fun e failed => ?_) fun r => ?_
        · exact allows.faults e (Node.first?_error failed)
        · cases r with
          | some value => exact named value
          | none => exact within_pure _
    next => exact within_bind allows.freshNode fun _ => within_pure _

theorem objectValues (config : Config) (pom : PredicateObjectMap) (node : Node)
    (ctx : Context) : Within bound (Engine.objectValues config pom node ctx) := by
  unfold Engine.objectValues
  split
  next text _ =>
    refine within_bind (within_lift fun e failed => ?_) fun _ => within_pure _
    exact allows.faults e (Node.values_error failed)
  next text _ =>
    refine within_bind (within_expand (allows.resolveHole config node ctx _) text) fun r => ?_
    cases r <;> exact within_pure _
  next => exact within_pure _

theorem termOf (pom : PredicateObjectMap) (value : String) (s : RunState σ) :
    bound.moves s { s with blanks := (pom.termOf value s.blanks).2 } := by
  unfold PredicateObjectMap.termOf
  split
  next => exact bound.refl s
  next => exact allows.forValue s value
  next => exact bound.refl s
  next =>
    split
    next => exact bound.refl s
    next => split <;> exact bound.refl s

theorem termsOf (pom : PredicateObjectMap) (values : List String) (s : RunState σ) :
    bound.moves s { s with blanks := (pom.termsOf values s.blanks).2 } := by
  induction values generalizing s with
  | nil => exact bound.refl s
  | cons value rest ih => exact bound.trans (allows.termOf pom value s) (ih _)

theorem objectTerms (config : Config) (pom : PredicateObjectMap) (node : Node)
    (ctx : Context) : Within bound (Engine.objectTerms config pom node ctx) := by
  unfold Engine.objectTerms
  split
  next => exact within_pure _
  next =>
    refine within_bind (allows.objectValues config pom node ctx) fun r => ?_
    cases r with
    | none => exact within_pure _
    | some values => exact within_modifyGet fun s => allows.termsOf pom _ s

theorem attach (subject : Term) (pom : PredicateObjectMap) (object : Term)
    (buffer : List Triple) : Within bound (Engine.attach subject pom object buffer) := by
  unfold Engine.attach
  split
  next => exact within_pure _
  next =>
    refine within_bind within_get fun s => ?_
    dsimp only
    split
    next => exact within_pure _
    next => exact within_bind allows.freshNode fun _ => within_pure _

theorem attachAll (subject : Term) (pom : PredicateObjectMap) (objects : List Term)
    (buffer : List Triple) : Within bound (Engine.attachAll subject pom objects buffer) := by
  induction objects generalizing buffer with
  | nil => exact within_pure _
  | cons object rest ih => exact within_bind (allows.attach subject pom object buffer) ih

theorem ownTriples (config : Config) (subject : Term) (node : Node) (ctx : Context)
    (pom : PredicateObjectMap) (buffer : List Triple) :
    Within bound (Engine.ownTriples config subject node ctx pom buffer) := by
  refine within_bind (allows.objectTerms config pom node ctx) fun r => ?_
  cases r with
  | none => exact within_pure _
  | some objects =>
    exact within_bind (allows.attachAll subject pom objects buffer) fun _ => within_pure _

section Parents
variable {config : Config} {runParent : RunParent σ} {node : Node} {ctx : Context}

theorem linkTriples {subject : Term} {pom : PredicateObjectMap}
    (parents : ∀ iri, pom.object = .parent iri →
      Within bound (runParent iri node (linkContext ctx subject pom.predicate)))
    (buffer : List Triple) :
    Within bound (Engine.linkTriples config runParent subject node ctx pom buffer) := by
  unfold Engine.linkTriples
  split
  next iri h => exact within_bind (parents iri h) fun _ => within_pure _
  next => exact allows.ownTriples config subject node ctx pom buffer

theorem rowTriples {subject : Term} {poms : List PredicateObjectMap}
    (parents : ∀ pom ∈ poms, ∀ iri, pom.object = .parent iri →
      Within bound (runParent iri node (linkContext ctx subject pom.predicate)))
    (buffer : List Triple) :
    Within bound (Engine.rowTriples config runParent subject node ctx poms buffer) := by
  induction poms generalizing buffer with
  | nil => exact within_pure _
  | cons pom rest ih =>
    have first : Within bound
        (Engine.linkTriples config runParent subject node ctx pom buffer) :=
      allows.linkTriples (parents pom (by simp)) buffer
    refine within_bind first fun r => ?_
    cases r with
    | none => exact within_pure _
    | some buffer => exact ih (fun pom hm => parents pom (by simp [hm])) buffer

theorem rowContent {m : TriplesMap}
    (parents : ∀ pom ∈ m.predicateObjectMaps, ∀ iri, pom.object = .parent iri → ∀ subject,
      Within bound (runParent iri node (linkContext ctx subject pom.predicate))) :
    Within bound (Engine.rowContent config runParent m ctx node) := by
  refine within_bind (allows.mintSubject config m node ctx) fun r => ?_
  cases r with
  | none => exact within_pure _
  | some subject =>
    have statements : Within bound
        (Engine.rowTriples config runParent subject node ctx m.predicateObjectMaps []) :=
      allows.rowTriples (fun pom hm iri h => parents pom hm iri h subject) []
    exact within_bind statements fun _ => within_pure _

/-- A row is applied within a bound that also leaves room for counting and for adding statements. -/
theorem applyRow {m : TriplesMap}
    (counted : ∀ (s : RunState σ) stats, bound.moves s { s with stats })
    (committed : ∀ s triples, bound.moves s (outcome (commit triples) s).2)
    (parents : ∀ iri ctx, Within bound (runParent iri node ctx)) :
    Within bound (Engine.applyRow config runParent m ctx node) := by
  refine within_bind (within_modify fun s => counted s _) fun _ => ?_
  refine within_bind (allows.rowContent fun _ _ iri _ _ => parents iri _) fun content => ?_
  match content with
  | none => exact within_bind (within_modify fun s => counted s _) fun _ => within_pure _
  | some (subject, buffer) =>
    dsimp only
    split
    next => exact within_pure _
    next => exact within_bind (within_modify fun s => committed s _) fun _ => within_pure _

end Parents

end Allows

/-- Only blank nodes and draws of generators are used up, and only faults of paths arise. -/
def quiet : Bound σ where
  moves s t := t.graph = s.graph ∧ t.stats = s.stats ∧ t.store = s.store
  fails := Node.IsPathFault
  refl _ := ⟨rfl, rfl, rfl⟩
  trans := fun ⟨g, st, r⟩ ⟨g', st', r'⟩ => ⟨g'.trans g, st'.trans st, r'.trans r⟩

theorem allows_quiet : Allows (quiet : Bound σ) where
  draws _ _ := ⟨rfl, rfl, rfl⟩
  fresh _ := ⟨rfl, rfl, rfl⟩
  forValue _ _ := ⟨rfl, rfl, rfl⟩
  faults _ fault := fault

end Engine
end CatalogGraph
