import CatalogGraph.Harvest.Schedule
import CatalogGraph.Proofs.NestedMaps

/-!
Shared services: runs with services that give the same answers do the same work, in whatever states
the services are. So where answers depend on the request only, a record gives the same whatever
others ask for meanwhile.
-/
namespace CatalogGraph

/-- Two stores give a query the same answer, whatever their states. -/
def TripleStore.Agrees {σ τ : Type} (store : TripleStore σ) (other : TripleStore τ) : Prop :=
  ∀ text s t, (store.query text s).1 = (other.query text t).1

namespace Engine
variable {σ τ α β : Type}

/-- Two runs have come to the same state, but for the states of their services. -/
structure SameWork (s : RunState σ) (t : RunState τ) : Prop where
  graph : s.graph = t.graph
  blanks : s.blanks = t.blanks
  stats : s.stats = t.stats
  draws : s.draws = t.draws

/-- From states of the same work two steps give the same and do the same work. -/
def Agree (step : Run σ α) (other : Run τ α) : Prop :=
  ∀ s t, SameWork s t → (outcome step s).1 = (outcome other t).1 ∧
    SameWork (outcome step s).2 (outcome other t).2

theorem agree_pure (a : α) : Agree (pure a : Run σ α) (pure a : Run τ α) :=
  fun _ _ same => ⟨rfl, same⟩

theorem agree_throw (e : MappingError) : Agree (throw e : Run σ α) (throw e : Run τ α) :=
  fun _ _ same => ⟨rfl, same⟩

theorem agree_lift (x : Except MappingError α) :
    Agree (liftM x : Run σ α) (liftM x : Run τ α) := by
  intro s t same
  rw [outcome_lift, outcome_lift]
  exact ⟨rfl, same⟩

theorem agree_modifyGet {f : RunState σ → α × RunState σ} {f' : RunState τ → α × RunState τ}
    (agree : ∀ s t, SameWork s t → (f s).1 = (f' t).1 ∧ SameWork (f s).2 (f' t).2) :
    Agree (modifyGet f : Run σ α) (modifyGet f' : Run τ α) := by
  intro s t same
  obtain ⟨given, work⟩ := agree s t same
  exact ⟨congrArg Except.ok given, work⟩

theorem agree_modify {f : RunState σ → RunState σ} {f' : RunState τ → RunState τ}
    (agree : ∀ s t, SameWork s t → SameWork (f s) (f' t)) :
    Agree (modify f : Run σ Unit) (modify f' : Run τ Unit) :=
  fun s t same => ⟨rfl, agree s t same⟩

theorem agree_bind {step : Run σ α} {other : Run τ α} {next : α → Run σ β} {next' : α → Run τ β}
    (first : Agree step other) (second : ∀ a, Agree (next a) (next' a)) :
    Agree (step >>= next) (other >>= next') := by
  intro s t same
  obtain ⟨given, work⟩ := first s t same
  rcases h : outcome step s with ⟨e | a, s'⟩ <;> rcases h' : outcome other t with ⟨e' | a', t'⟩
  all_goals
    rw [h, h'] at given work
    cases given
  · rw [outcome_bind_error h, outcome_bind_error h']
    exact ⟨rfl, work⟩
  · rw [outcome_bind_ok h, outcome_bind_ok h']
    exact second a s' t' work

theorem agree_get_bind {next : RunState σ → Run σ α} {next' : RunState τ → Run τ α}
    (agree : ∀ s t, SameWork s t → Agree (next s) (next' t)) :
    Agree (get >>= next) (get >>= next') := by
  intro s t same
  have first : outcome (get : Run σ (RunState σ)) s = (.ok s, s) := outcome_get s
  have second : outcome (get : Run τ (RunState τ)) t = (.ok t, t) := outcome_get t
  rw [outcome_bind_ok first, outcome_bind_ok second]
  exact agree s t same s t same

section Rows

theorem agree_fill {resolve : String → Run σ (Option String)}
    {resolve' : String → Run τ (Option String)}
    (hole : ∀ name, Agree (resolve name) (resolve' name))
    (parts : List Template.Part) :
    Agree (Template.fill resolve parts) (Template.fill resolve' parts) := by
  induction parts with
  | nil => exact agree_pure _
  | cons part rest ih =>
    cases part with
    | char c =>
      refine agree_bind ih fun r => ?_
      cases r <;> exact agree_pure _
    | hole name =>
      refine agree_bind (hole name) fun value => ?_
      cases value with
      | none => exact agree_pure _
      | some value =>
        refine agree_bind ih fun r => ?_
        cases r <;> exact agree_pure _

theorem agree_expand {resolve : String → Run σ (Option String)}
    {resolve' : String → Run τ (Option String)}
    (hole : ∀ name, Agree (resolve name) (resolve' name))
    (template : String) :
    Agree (Template.expand resolve template) (Template.expand resolve' template) := by
  refine agree_bind (agree_fill hole _) fun r => ?_
  cases r <;> exact agree_pure _

theorem agree_resolveNamed (ctx : Context) (name : String) :
    Agree (resolveNamed ctx name : Run σ _) (resolveNamed ctx name : Run τ _) := by
  refine agree_modifyGet fun s t same => ?_
  rw [same.draws]
  exact ⟨rfl, same.graph, same.blanks, same.stats, rfl⟩

theorem agree_resolveHole (config : Config) (node : Node) (ctx : Context) (escape : Bool)
    (name : String) : Agree (resolveHole config node ctx escape name : Run σ _)
      (resolveHole config node ctx escape name : Run τ _) := by
  refine agree_bind (agree_resolveNamed ctx name) fun value => ?_
  cases value with
  | some value => exact agree_pure _
  | none => exact agree_bind (agree_lift _) fun _ => agree_pure _

theorem agree_freshNode : Agree (freshNode : Run σ Term) (freshNode : Run τ Term) := by
  refine agree_modifyGet fun s t same => ?_
  rw [same.blanks]
  exact ⟨rfl, same.graph, rfl, same.stats, same.draws⟩

theorem agree_subjectOf (termType : TermType) (value : String) :
    Agree (subjectOf termType value : Run σ Term) (subjectOf termType value : Run τ Term) := by
  cases termType with
  | blank =>
    refine agree_modifyGet fun s t same => ?_
    rw [same.blanks]
    exact ⟨rfl, same.graph, rfl, same.stats, same.draws⟩
  | iri => exact agree_pure _
  | literal => exact agree_pure _

theorem agree_mintSubject (config : Config) (m : TriplesMap) (node : Node) (ctx : Context) :
    Agree (mintSubject config m node ctx : Run σ _) (mintSubject config m node ctx : Run τ _) := by
  unfold mintSubject
  split
  next => exact agree_pure _
  next s _ =>
    split
    next => exact agree_pure _
    next iri _ => exact agree_pure _
    next text _ =>
      refine agree_bind (agree_expand (agree_resolveHole config node ctx true) text) fun r => ?_
      cases r with
      | ok value => exact agree_bind (agree_subjectOf s.termType value) fun _ => agree_pure _
      | error => exact agree_pure _
    next text _ =>
      split
      next value _ =>
        dsimp only
        split
        next => exact agree_bind (agree_subjectOf s.termType value.value) fun _ => agree_pure _
        next => exact agree_pure _
      next =>
        refine agree_bind (agree_lift _) fun r => ?_
        cases r with
        | some value => exact agree_bind (agree_subjectOf s.termType value) fun _ => agree_pure _
        | none => exact agree_pure _
    next => exact agree_bind agree_freshNode fun _ => agree_pure _

theorem agree_objectValues (config : Config) (pom : PredicateObjectMap) (node : Node)
    (ctx : Context) : Agree (objectValues config pom node ctx : Run σ _)
      (objectValues config pom node ctx : Run τ _) := by
  unfold objectValues
  split
  next text _ => exact agree_bind (agree_lift _) fun _ => agree_pure _
  next text _ =>
    refine agree_bind (agree_expand (agree_resolveHole config node ctx _) text) fun r => ?_
    cases r <;> exact agree_pure _
  next => exact agree_pure _

theorem agree_objectTerms (config : Config) (pom : PredicateObjectMap) (node : Node)
    (ctx : Context) : Agree (objectTerms config pom node ctx : Run σ _)
      (objectTerms config pom node ctx : Run τ _) := by
  unfold objectTerms
  split
  next => exact agree_pure _
  next =>
    refine agree_bind (agree_objectValues config pom node ctx) fun r => ?_
    cases r with
    | none => exact agree_pure _
    | some values =>
      refine agree_modifyGet fun s t same => ?_
      rw [same.blanks]
      exact ⟨rfl, same.graph, rfl, same.stats, same.draws⟩

theorem agree_attach (subject : Term) (pom : PredicateObjectMap) (object : Term)
    (buffer : List Triple) : Agree (attach subject pom object buffer : Run σ _)
      (attach subject pom object buffer : Run τ _) := by
  unfold attach
  split
  next => exact agree_pure _
  next =>
    refine agree_get_bind fun s t same => ?_
    rw [same.graph]
    dsimp only
    split
    next => exact agree_pure _
    next => exact agree_bind agree_freshNode fun _ => agree_pure _

theorem agree_attachAll (subject : Term) (pom : PredicateObjectMap) (objects : List Term)
    (buffer : List Triple) : Agree (attachAll subject pom objects buffer : Run σ _)
      (attachAll subject pom objects buffer : Run τ _) := by
  induction objects generalizing buffer with
  | nil => exact agree_pure _
  | cons object rest ih => exact agree_bind (agree_attach subject pom object buffer) ih

theorem agree_ownTriples (config : Config) (subject : Term) (node : Node) (ctx : Context)
    (pom : PredicateObjectMap) (buffer : List Triple) :
    Agree (ownTriples config subject node ctx pom buffer : Run σ _)
      (ownTriples config subject node ctx pom buffer : Run τ _) := by
  refine agree_bind (agree_objectTerms config pom node ctx) fun r => ?_
  cases r with
  | none => exact agree_pure _
  | some objects =>
    exact agree_bind (agree_attachAll subject pom objects buffer) fun _ => agree_pure _

theorem agree_countRow : Agree (countRow : Run σ Unit) (countRow : Run τ Unit) :=
  agree_modify fun _ _ same => ⟨same.graph, same.blanks, by rw [same.stats], same.draws⟩

theorem agree_skipRow : Agree (skipRow : Run σ Unit) (skipRow : Run τ Unit) :=
  agree_modify fun _ _ same => ⟨same.graph, same.blanks, by rw [same.stats], same.draws⟩

theorem agree_commit (triples : List Triple) :
    Agree (commit triples : Run σ Unit) (commit triples : Run τ Unit) :=
  agree_modify fun _ _ same =>
    ⟨by rw [same.graph], same.blanks, by rw [same.stats], same.draws⟩

end Rows

section Maps
variable {config : Config} {runParent : RunParent σ} {runParent' : RunParent τ} {node : Node}
  {ctx : Context}

/-- The rows of parent maps are run alike. -/
abbrev ParentsAgree (runParent : RunParent σ) (runParent' : RunParent τ) : Prop :=
  ∀ iri node ctx, Agree (runParent iri node ctx) (runParent' iri node ctx)

theorem agree_linkTriples (parents : ParentsAgree runParent runParent') (subject : Term)
    (pom : PredicateObjectMap) (buffer : List Triple) :
    Agree (linkTriples config runParent subject node ctx pom buffer)
      (linkTriples config runParent' subject node ctx pom buffer) := by
  unfold linkTriples
  split
  next iri _ => exact agree_bind (parents iri _ _) fun _ => agree_pure _
  next => exact agree_ownTriples config subject node ctx pom buffer

theorem agree_rowTriples (parents : ParentsAgree runParent runParent') (subject : Term)
    (poms : List PredicateObjectMap) (buffer : List Triple) :
    Agree (rowTriples config runParent subject node ctx poms buffer)
      (rowTriples config runParent' subject node ctx poms buffer) := by
  induction poms generalizing buffer with
  | nil => exact agree_pure _
  | cons pom rest ih =>
    refine agree_bind (agree_linkTriples parents subject pom buffer) fun r => ?_
    cases r with
    | none => exact agree_pure _
    | some buffer => exact ih buffer

theorem agree_applyRow (parents : ParentsAgree runParent runParent') (m : TriplesMap) :
    Agree (applyRow config runParent m ctx node) (applyRow config runParent' m ctx node) := by
  have content : Agree (rowContent config runParent m ctx node)
      (rowContent config runParent' m ctx node) := by
    refine agree_bind (agree_mintSubject config m node ctx) fun r => ?_
    cases r with
    | none => exact agree_pure _
    | some subject =>
      exact agree_bind (agree_rowTriples parents subject _ []) fun _ => agree_pure _
  refine agree_bind agree_countRow fun _ => agree_bind content fun r => ?_
  match r with
  | none => exact agree_bind agree_skipRow fun _ => agree_pure _
  | some (subject, buffer) =>
    dsimp only
    split
    next => exact agree_pure _
    next => exact agree_bind (agree_commit _) fun _ => agree_pure _

theorem agree_applyRows {apply : Node → Run σ (Option Term)} {apply' : Node → Run τ (Option Term)}
    (row : ∀ node, Agree (apply node) (apply' node)) (nodes : List Node) :
    Agree (applyRows apply nodes) (applyRows apply' nodes) := by
  induction nodes with
  | nil => exact agree_pure _
  | cons node rest ih => exact agree_bind (row node) fun _ => agree_bind ih fun _ => agree_pure _

theorem agree_queryPage {store : TripleStore σ} {store' : TripleStore τ}
    (answers : store.Agrees store') (query : String) (ctx : Context) :
    Agree (queryPage store query ctx) (queryPage store' query ctx) := by
  refine agree_bind (agree_expand (agree_resolveNamed ctx) query) fun r => ?_
  cases r with
  | error name => exact agree_throw _
  | ok text =>
    refine agree_bind (agree_modifyGet fun s t same => ?_) fun answer => ?_
    · exact ⟨answers text s.store t.store, same.graph, same.blanks, same.stats, same.draws⟩
    · cases answer with
      | error e => exact agree_throw _
      | ok rows =>
        refine agree_bind (agree_modify fun s t same => ?_) fun _ => agree_pure _
        exact ⟨same.graph, same.blanks, by rw [same.stats], same.draws⟩

theorem agree_queryPages {store : TripleStore σ} {store' : TripleStore τ}
    (answers : store.Agrees store') {apply : Node → Run σ (Option Term)}
    {apply' : Node → Run τ (Option Term)} (row : ∀ node, Agree (apply node) (apply' node))
    (m : TriplesMap) (query : String) (left offset : Nat) :
    Agree (queryPages config store apply m query ctx left offset)
      (queryPages config store' apply' m query ctx left offset) := by
  induction left generalizing offset with
  | zero => exact agree_throw _
  | succ left ih =>
    refine agree_bind (agree_queryPage answers query _) fun rows => ?_
    refine agree_bind (agree_applyRows row _) fun subjects => ?_
    split
    next => exact agree_pure _
    next => exact agree_bind (ih _) fun _ => agree_pure _

end Maps

/-- Two engines run the same mapping in the same way on stores that give the same answers. -/
structure Agrees (engine : Engine σ) (other : Engine τ) : Prop where
  mapping : engine.mapping = other.mapping
  config : engine.config = other.config
  uuids : engine.uuids = other.uuids
  pages : engine.pages = other.pages
  store : Option.Rel TripleStore.Agrees engine.store other.store

section Runs
variable {engine : Engine σ} {other : Engine τ}

theorem agree_runMap (agrees : engine.Agrees other) {runParent : RunParent σ}
    {runParent' : RunParent τ} (parents : ParentsAgree runParent runParent') (m : TriplesMap)
    (node : Node) (ctx : Context) :
    Agree (engine.runMap runParent m node ctx) (other.runMap runParent' m node ctx) := by
  have row (node : Node) : Agree (applyRow engine.config runParent m ctx node)
      (applyRow engine.config runParent' m ctx node) := agree_applyRow parents m
  have stores := agrees.store
  unfold runMap
  rw [← agrees.config, ← agrees.pages]
  split
  next => exact agree_pure _
  next source _ =>
    split
    next => exact agree_throw _
    next =>
      dsimp only
      split
      next =>
        cases h : engine.store with
        | none =>
          cases h' : other.store with
          | none => exact agree_throw _
          | some store' => simp [h, h'] at stores
        | some store =>
          cases h' : other.store with
          | none => simp [h, h'] at stores
          | some store' =>
            have answers : store.Agrees store' := by simpa [h, h'] using stores
            cases source.query with
            | none => exact agree_throw _
            | some query => exact agree_queryPages answers row m query _ 0
      next => exact agree_bind (agree_lift _) fun nodes => agree_applyRows row nodes

theorem agree_runNamed (agrees : engine.Agrees other) (maps : List TriplesMap)
    (child iri : String) (node : Node) (ctx : Context) :
    Agree (engine.runNamed maps child iri node ctx) (other.runNamed maps child iri node ctx) := by
  -- A parent runs with fewer maps left than its child.
  induction hn : maps.length using Nat.strong_induction_on
    generalizing maps child iri node ctx with
  | _ n ih =>
    cases found : maps.find? (·.iri == iri) with
    | none =>
      rw [runNamed_of_missing found, runNamed_of_missing found]
      exact agree_throw _
    | some m =>
      rw [runNamed_of_found found, runNamed_of_found found]
      apply agree_runMap agrees
      intro parent node ctx
      exact ih _ (hn ▸ Mapping.length_others_lt found) _ _ _ node ctx rfl

theorem agree_runEach {runOne : TriplesMap → Run σ (List Term)}
    {runOne' : TriplesMap → Run τ (List Term)} (one : ∀ m, Agree (runOne m) (runOne' m))
    (maps : List TriplesMap) : Agree (runEach runOne maps) (runEach runOne' maps) := by
  induction maps with
  | nil => exact agree_pure _
  | cons m rest ih => exact agree_bind (one m) fun _ => agree_bind ih fun _ => agree_pure _

/-- Runs on services that give the same answers do the same work. -/
theorem agree_run (agrees : engine.Agrees other) (source : Source) (ctx : Context) :
    Agree (engine.run source ctx) (other.run source ctx) := by
  unfold run rootContext
  rw [agrees.mapping, agrees.config, agrees.uuids]
  exact agree_runEach (fun m => agree_runNamed agrees _ m.iri m.iri source.root _) _

end Runs
end Engine

namespace Harvest
variable {σ τ : Type}

namespace RecordMapper

/-- The answers of the services depend on the request only. -/
structure AnswersAlike (mapper : RecordMapper σ) : Prop where
  record : ∀ identifier metadataPrefix s t,
    (mapper.repository.record identifier metadataPrefix s).1 =
      (mapper.repository.record identifier metadataPrefix t).1
  store : ∀ store, mapper.engine.store = some store → store.Agrees store

/-- Two mappers do the same on services that give the same answers. -/
structure Agrees (mapper : RecordMapper σ) (other : RecordMapper τ) : Prop where
  record : ∀ identifier metadataPrefix s t,
    (mapper.repository.record identifier metadataPrefix s).1 =
      (other.repository.record identifier metadataPrefix t).1
  engine : mapper.engine.Agrees other.engine
  metadataPrefix : mapper.metadataPrefix = other.metadataPrefix

theorem Agrees.mapRecord {mapper : RecordMapper σ} {other : RecordMapper τ}
    (agrees : mapper.Agrees other) (identifier : String) (s : σ) (t : τ) :
    (mapper.mapRecord identifier s).1 = (other.mapRecord identifier t).1 := by
  have fetched := agrees.record identifier mapper.metadataPrefix s t
  unfold RecordMapper.mapRecord
  rw [← agrees.metadataPrefix]
  rcases answer : mapper.repository.record identifier mapper.metadataPrefix s with ⟨e | source, s'⟩
  all_goals
    rcases answer' : other.repository.record identifier mapper.metadataPrefix t with
      ⟨e' | source', t'⟩
    all_goals
      rw [answer, answer'] at fetched
      cases fetched
  · rfl
  · dsimp only
    rw [← agrees.engine.config]
    have start : Engine.SameWork (Engine.start mapper.engine.config s')
        (Engine.start mapper.engine.config t') := ⟨rfl, rfl, rfl, rfl⟩
    obtain ⟨given, work⟩ := Engine.agree_run agrees.engine source
      (Context.set "identifier" identifier .empty) _ _ start
    unfold Engine.outcome at given work
    rcases h : (mapper.engine.run source (Context.set "identifier" identifier .empty)).run.run
      (Engine.start mapper.engine.config s') with ⟨e | subjects, u⟩
    all_goals
      rcases h' : (other.engine.run source (Context.set "identifier" identifier .empty)).run.run
        (Engine.start mapper.engine.config t') with ⟨e' | subjects', u'⟩
      all_goals
        rw [h, h'] at given work
        cases given
    · rfl
    · exact congrArg Except.ok work.graph

theorem AnswersAlike.drawing {mapper : RecordMapper σ} (alike : mapper.AnswersAlike)
    (uuids : Generator) : (mapper.drawing uuids).AnswersAlike :=
  ⟨alike.record, alike.store⟩

/-- Where answers depend on the request only, it makes no difference that others use the services
too. -/
theorem AnswersAlike.agrees_disturbed {mapper : RecordMapper σ} (alike : mapper.AnswersAlike)
    (change : Nat → σ → σ) : mapper.Agrees (mapper.disturbed change) where
  record identifier metadataPrefix s t := alike.record identifier metadataPrefix s _
  engine :=
    { mapping := rfl, config := rfl, uuids := rfl, pages := rfl
      store := by
        unfold disturbed
        cases h : mapper.engine.store with
        | none => exact .none
        | some store => exact .some fun text s t => alike.store store h text s _ }
  metadataPrefix := rfl

theorem AnswersAlike.mayGive_iff {mapper : RecordMapper σ} (alike : mapper.AnswersAlike)
    {identifier : String} {outcome : Outcome} (s : σ) :
    mapper.MayGive identifier outcome ↔ outcome = (mapper.mapRecord identifier s).1 := by
  constructor
  · rintro ⟨change, t, rfl⟩
    exact ((alike.agrees_disturbed change).mapRecord identifier s (t, 0)).symm
  · rintro rfl
    exact ⟨fun _ t => t, s, (alike.agrees_disturbed _).mapRecord identifier s (s, 0)⟩

end RecordMapper

end Harvest
end CatalogGraph
