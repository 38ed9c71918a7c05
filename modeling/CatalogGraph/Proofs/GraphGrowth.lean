import CatalogGraph.Proofs.DroppedRows
import CatalogGraph.Proofs.RunCalls

/-!
The growth of a graph: whatever is called and however it ends, statements are only added behind
those that are there, they are counted, and each is about a node and has a name as predicate.
-/
namespace CatalogGraph

/-- A statement is about a name or a blank node, and its predicate is a name. -/
def Triple.IsStatement (t : Triple) : Prop := t.subject.isLiteral = false ∧ t.predicate.isIri

theorem Term.not_literal_of_blank {t : Term} (blank : t.isBlank) : t.isLiteral = false := by
  cases t with
  | blank => rfl
  | iri => cases blank
  | literal => cases blank

namespace Engine
variable {σ α β : Type}

theorem Rowwise.runEach {bound : Bound σ} {runOne : TriplesMap → Run σ (List Term)}
    (one : ∀ m, Within bound (runOne m)) (maps : List TriplesMap) :
    Within bound (Engine.runEach runOne maps) := by
  induction maps with
  | nil => exact within_pure _
  | cons m rest ih =>
    exact within_bind (one m) fun _ => within_bind ih fun _ => within_pure _

theorem within_perform_of_named {bound : Bound σ} {engine : Engine σ} {call : Call}
    (unknown : ∀ reason, bound.fails (.invalidValue "TriplesMap" reason))
    (named : ∀ (m : TriplesMap) node, Within bound
      (engine.runNamed engine.mapping.maps m.iri m.iri node (engine.contextOf call))) :
    Within bound (engine.perform call) := by
  cases call with
  | all source ctx => exact Rowwise.runEach (fun m => named m source.root) _
  | one iri node ctx =>
    unfold Engine.perform execute
    dsimp only
    split
    next => exact within_throw (unknown _)
    next m _ => exact named m node

theorem Rowwise.perform {bound : Bound σ} {engine : Engine σ} (rowwise : Rowwise bound engine)
    (call : Call) : Within bound (engine.perform call) :=
  within_perform_of_named (fun _ => rowwise.fails _) fun _ _ => rowwise.runNamed _ _ _ _ _

/-- The nodes that stand for values are blank. -/
def Tidy (s : RunState σ) : Prop :=
  ∀ value node, Entries.get? value s.blanks.byValue = some node → node.isBlank

/-- From one state to another only statements were added, and no more rows were dropped than
counted. -/
structure Extends (s t : RunState σ) (added : List Triple) : Prop where
  grows : Grows s t added
  statements : ∀ x ∈ added, x.IsStatement
  skips : t.stats.skipped + s.stats.rows ≤ s.stats.skipped + t.stats.rows

theorem Extends.of_same {s t : RunState σ} (graph : t.graph = s.graph)
    (triples : t.stats.triples = s.stats.triples)
    (skips : t.stats.skipped + s.stats.rows ≤ s.stats.skipped + t.stats.rows) :
    Extends s t [] :=
  ⟨.of_same graph triples, by simp, skips⟩

theorem Extends.trans {s t u : RunState σ} {first second : List Triple}
    (extends_ : Extends s t first) (extends' : Extends t u second) :
    Extends s u (first ++ second) := by
  refine ⟨extends_.grows.trans extends'.grows, ?_, ?_⟩
  · intro x hx
    rcases List.mem_append.mp hx with hx | hx
    · exact extends_.statements x hx
    · exact extends'.statements x hx
  · have := extends_.skips
    have := extends'.skips
    omega

/-- A tidy state is left tidy, and its graph grows by statements. -/
def sane : Bound σ where
  moves s t := Tidy s → (∃ added, Extends s t added) ∧ Tidy t
  fails _ := True
  refl _ tidy := ⟨⟨[], .of_same rfl rfl le_rfl⟩, tidy⟩
  trans first second tidy := by
    obtain ⟨⟨added, extends_⟩, tidy⟩ := first tidy
    obtain ⟨⟨added', extends'⟩, tidy⟩ := second tidy
    exact ⟨⟨added ++ added', extends_.trans extends'⟩, tidy⟩

theorem tidy_forValue {s : RunState σ} (tidy : Tidy s) (value : String) :
    Tidy { s with blanks := (s.blanks.forValue value).2 } ∧
      (s.blanks.forValue value).1.isBlank := by
  unfold BlankNodes.forValue
  split
  next node found => exact ⟨tidy, tidy value node found⟩
  next =>
    refine ⟨?_, rfl⟩
    intro other node found
    rw [Entries.get?_insert] at found
    split at found
    next =>
      cases found
      rfl
    next => exact tidy other node found

theorem sane_of_same {s t : RunState σ} (graph : t.graph = s.graph) (stats : t.stats = s.stats)
    (blanks : Tidy s → Tidy t) : sane.moves s t := by
  intro tidy
  refine ⟨⟨[], .of_same graph (by rw [stats]) ?_⟩, blanks tidy⟩
  rw [stats]

theorem allows_sane : Allows (sane : Bound σ) where
  draws _ _ := sane_of_same rfl rfl id
  fresh _ := sane_of_same rfl rfl id
  forValue _ value := sane_of_same rfl rfl fun tidy => (tidy_forValue tidy value).1
  faults _ _ := trivial

theorem asks_sane (store : Option (TripleStore σ)) : Asks sane store where
  resolve ctx name := allows_sane.resolveNamed ctx name
  counted _ _ tidy := ⟨⟨[], .of_same rfl rfl le_rfl⟩, tidy⟩
  asked _ _ _ _ := sane_of_same rfl rfl id
  faults _ _ := trivial

/-- What a step gives in a tidy state has a property. -/
def Gives (step : Run σ α) (post : α → Prop) : Prop :=
  ∀ s, Tidy s → ∀ a, (outcome step s).1 = .ok a → post a

theorem gives_pure {a : α} {post : α → Prop} (h : post a) : Gives (pure a : Run σ α) post := by
  rintro s _ _ ⟨⟩
  exact h

theorem gives_bind {step : Run σ α} {next : α → Run σ β} {mid : α → Prop} {post : β → Prop}
    (within : Within sane step) (first : Gives step mid)
    (second : ∀ a, mid a → Gives (next a) post) : Gives (step >>= next) post := by
  intro s tidy b given
  have moved := (within s).1 tidy
  have result := first s tidy
  rcases h : outcome step s with ⟨e | a, t⟩
  · rw [outcome_bind_error h] at given
    cases given
  · rw [h] at moved result
    rw [outcome_bind_ok h] at given
    exact second a (result a rfl) t moved.2 b given

theorem gives_next {step : Run σ α} {next : α → Run σ β} {post : β → Prop}
    (within : Within sane step) (second : ∀ a, Gives (next a) post) :
    Gives (step >>= next) post :=
  gives_bind within (fun _ _ _ _ => trivial) fun a (_ : True) => second a

section Rows
variable {config : Config} {runParent : RunParent σ} {m : TriplesMap} {node : Node} {ctx : Context}
  {subject : Term} {pom : PredicateObjectMap} {buffer : List Triple}

theorem gives_subjectOf (termType : TermType) (value : String) :
    Gives (subjectOf termType value : Run σ Term) fun subject => subject.isLiteral = false := by
  cases termType with
  | blank =>
    rintro s tidy _ ⟨⟩
    exact Term.not_literal_of_blank (tidy_forValue tidy value).2
  | iri => exact gives_pure rfl
  | literal => exact gives_pure rfl

theorem gives_freshNode : Gives (freshNode : Run σ Term) fun node => node.isLiteral = false := by
  rintro s _ _ ⟨⟩
  rfl

theorem not_literal_iteratorSubject (found : iteratorSubject? m node = some subject) :
    subject.isLiteral = false := by
  unfold iteratorSubject? at found
  obtain ⟨_, _, found⟩ := Option.bind_eq_some_iff.mp found
  obtain ⟨_, _, found⟩ := Option.bind_eq_some_iff.mp found
  obtain ⟨_, _, found⟩ := Option.bind_eq_some_iff.mp found
  obtain ⟨value, _, found⟩ := Option.bind_eq_some_iff.mp found
  split at found
  next => cases found
  next named =>
    cases found
    exact Bool.eq_false_iff.mpr named

theorem gives_mintSubject : Gives (mintSubject config m node ctx : Run σ _) fun subject? =>
    ∀ subject, subject? = some subject → subject.isLiteral = false := by
  have iterator : Gives (pure (iteratorSubject? m node) : Run σ _) fun subject? =>
      ∀ subject, subject? = some subject → subject.isLiteral = false :=
    gives_pure fun _ => not_literal_iteratorSubject
  have minted (term : Term) (h : term.isLiteral = false) :
      Gives (pure (some term) : Run σ _) fun subject? =>
        ∀ subject, subject? = some subject → subject.isLiteral = false :=
    gives_pure fun _ same => Option.some.inj same ▸ h
  have named (termType : TermType) (value : String) :
      Gives (do return some (← subjectOf termType value) : Run σ _) fun subject? =>
        ∀ subject, subject? = some subject → subject.isLiteral = false :=
    gives_bind (allows_sane.subjectOf termType value) (gives_subjectOf termType value) minted
  have nothing : Gives (pure none : Run σ (Option Term)) fun subject? =>
      ∀ subject, subject? = some subject → subject.isLiteral = false :=
    gives_pure fun _ none => by cases none
  unfold mintSubject
  split
  next => exact iterator
  next s _ =>
    split
    next => exact iterator
    next iri _ => exact minted _ rfl
    next text _ =>
      have filled := within_expand (allows_sane.resolveHole (σ := σ) config node ctx true) text
      refine gives_next filled fun r => ?_
      cases r with
      | ok value => exact named s.termType value
      | error => exact nothing
    next text _ =>
      split
      next value _ =>
        dsimp only
        split
        next => exact named s.termType value.value
        next other => exact minted _ (Bool.eq_false_iff.mpr other)
      next =>
        refine gives_next (within_lift fun _ _ => trivial) fun r => ?_
        cases r with
        | some value => exact named s.termType value
        | none => exact nothing
    next => exact gives_bind allows_sane.freshNode gives_freshNode minted

theorem isBlank_of_findReusable {g : Graph} {predicate cls entity : Term}
    (found : findReusable? g buffer subject predicate cls = some entity) : entity.isBlank := by
  have passed := List.find?_some found
  rw [Bool.and_eq_true] at passed
  exact passed.1

/-- The statements of a row, if it has any, are statements. -/
def AllStatements (buffer? : Option (List Triple)) : Prop :=
  ∀ buffer, buffer? = some buffer → ∀ x ∈ buffer, x.IsStatement

theorem allStatements_some (statements : ∀ x ∈ buffer, x.IsStatement) :
    AllStatements (some buffer) :=
  fun _ same => Option.some.inj same ▸ statements

theorem allStatements_none : AllStatements none := fun _ none => by cases none

theorem gives_attach (named : subject.isLiteral = false) (object : Term)
    (statements : ∀ x ∈ buffer, x.IsStatement) :
    Gives (attach subject pom object buffer : Run σ _) fun buffer =>
      ∀ x ∈ buffer, x.IsStatement := by
  unfold attach
  split
  next =>
    refine gives_pure fun x hx => ?_
    rcases List.mem_append.mp hx with hx | hx
    · exact statements x hx
    · obtain rfl := List.mem_singleton.mp hx
      exact ⟨named, rfl⟩
  next name _ =>
    refine gives_next within_get fun s => ?_
    dsimp only
    split
    next entity found =>
      have entityBlank : entity.isBlank := by
        split at found
        next => exact isBlank_of_findReusable found
        next => cases found
      refine gives_pure fun x hx => ?_
      rcases List.mem_append.mp hx with hx | hx
      · exact statements x hx
      · obtain rfl := List.mem_singleton.mp hx
        exact ⟨Term.not_literal_of_blank entityBlank, rfl⟩
    next =>
      refine gives_bind allows_sane.freshNode gives_freshNode fun entity fresh => ?_
      refine gives_pure fun x hx => ?_
      simp only [List.mem_append, List.mem_cons, List.mem_map, List.not_mem_nil, or_false] at hx
      rcases hx with ((hx | rfl | rfl) | ⟨_, _, rfl⟩) | rfl
      · exact statements x hx
      · exact ⟨named, rfl⟩
      all_goals exact ⟨fresh, rfl⟩

theorem gives_attachAll (named : subject.isLiteral = false) (objects : List Term)
    (statements : ∀ x ∈ buffer, x.IsStatement) :
    Gives (attachAll subject pom objects buffer : Run σ _) fun buffer =>
      ∀ x ∈ buffer, x.IsStatement := by
  induction objects generalizing buffer with
  | nil => exact gives_pure statements
  | cons object rest ih =>
    exact gives_bind (allows_sane.attach subject pom object buffer)
      (gives_attach named object statements) fun _ => ih

theorem gives_ownTriples (named : subject.isLiteral = false)
    (statements : ∀ x ∈ buffer, x.IsStatement) :
    Gives (ownTriples config subject node ctx pom buffer : Run σ _) AllStatements := by
  refine gives_next (allows_sane.objectTerms config pom node ctx) fun r => ?_
  cases r with
  | none => exact gives_pure allStatements_none
  | some objects =>
    exact gives_bind (allows_sane.attachAll subject pom objects buffer)
      (gives_attachAll named objects statements) fun _ h => gives_pure (allStatements_some h)

theorem isStatement_of_mem_typeTriples {x : Triple} (named : subject.isLiteral = false)
    (hx : x ∈ typeTriples m subject) : x.IsStatement := by
  obtain ⟨_, _, rfl⟩ := List.mem_map.mp hx
  exact ⟨named, rfl⟩

variable (parents : ∀ iri ctx, Within sane (runParent iri node ctx))
include parents

theorem gives_linkTriples (named : subject.isLiteral = false)
    (statements : ∀ x ∈ buffer, x.IsStatement) :
    Gives (linkTriples config runParent subject node ctx pom buffer) AllStatements := by
  unfold linkTriples
  split
  next iri _ =>
    refine gives_next (parents iri _) fun found => gives_pure (allStatements_some ?_)
    intro x hx
    rcases List.mem_append.mp hx with hx | hx
    · exact statements x hx
    · obtain ⟨parent, _, rfl⟩ := List.mem_map.mp hx
      exact ⟨named, rfl⟩
  next => exact gives_ownTriples named statements

theorem gives_rowTriples (named : subject.isLiteral = false) (poms : List PredicateObjectMap)
    (statements : ∀ x ∈ buffer, x.IsStatement) :
    Gives (rowTriples config runParent subject node ctx poms buffer) AllStatements := by
  induction poms generalizing buffer with
  | nil => exact gives_pure (allStatements_some statements)
  | cons pom rest ih =>
    have linked : Within sane (linkTriples config runParent subject node ctx pom buffer) :=
      allows_sane.linkTriples (fun iri _ => parents iri _) buffer
    refine gives_bind linked (gives_linkTriples parents named statements) fun r h => ?_
    cases r with
    | none => exact gives_pure allStatements_none
    | some buffer => exact ih (h buffer rfl)

/-- The content of a row, if it has any, is about a name or a blank node. -/
def IsContent (content? : Option (Term × List Triple)) : Prop :=
  ∀ subject buffer, content? = some (subject, buffer) →
    subject.isLiteral = false ∧ ∀ x ∈ buffer, x.IsStatement

theorem gives_rowContent : Gives (rowContent config runParent m ctx node) IsContent := by
  refine gives_bind (allows_sane.mintSubject config m node ctx) gives_mintSubject fun r named => ?_
  cases r with
  | none => exact gives_pure fun _ _ none => by cases none
  | some subject =>
    have named := named subject rfl
    have content : Gives (rowTriples config runParent subject node ctx m.predicateObjectMaps [])
        AllStatements := gives_rowTriples parents named _ (by simp)
    have whole : Within sane
        (rowTriples config runParent subject node ctx m.predicateObjectMaps []) :=
      allows_sane.rowTriples (fun _ _ iri _ => parents iri _) []
    refine gives_bind whole content fun r statements => gives_pure ?_
    intro subject' buffer same
    obtain ⟨buffer', rfl, same⟩ := Option.map_eq_some_iff.mp same
    cases same
    exact ⟨named, statements buffer rfl⟩

/-- Applying a map to a row adds statements only, and drops the row at most once. -/
theorem within_applyRow : Within sane (applyRow config runParent m ctx node) := by
  intro s
  refine ⟨fun tidy => ?_, fun _ _ => trivial⟩
  have count : outcome (countRow : Run σ Unit) s = (.ok (), counted s) := rfl
  have rows : (counted s).stats.rows = s.stats.rows + 1 := rfl
  have skipped : (counted s).stats.skipped = s.stats.skipped := rfl
  have within : Within sane (rowContent config runParent m ctx node) :=
    allows_sane.rowContent fun _ _ iri _ _ => parents iri _
  have gives : Gives (rowContent config runParent m ctx node) IsContent := gives_rowContent parents
  have content := gives (counted s) tidy
  obtain ⟨⟨added, grown⟩, tidy'⟩ := (within (counted s)).1 tidy
  have skips := grown.skips
  rw [rows, skipped] at skips
  have whole : Extends s (outcome (rowContent config runParent m ctx node) (counted s)).2 added :=
    ⟨⟨grown.grows.graph, grown.grows.counted⟩, grown.statements, by omega⟩
  rw [applyRow, outcome_bind_ok count]
  rcases h : outcome (rowContent config runParent m ctx node) (counted s)
    with ⟨e | _ | ⟨subject, buffer⟩, t⟩
  · rw [h] at whole tidy'
    rw [outcome_bind_error h]
    exact ⟨⟨added, whole⟩, tidy'⟩
  · rw [h] at whole tidy' skips
    rw [outcome_bind_ok h]
    have dropped : Extends s (outcome skipRow t).2 added := by
      refine ⟨⟨whole.grows.graph, whole.grows.counted⟩, whole.statements, ?_⟩
      dsimp only at skips
      change t.stats.skipped + 1 + s.stats.rows ≤ s.stats.skipped + t.stats.rows
      omega
    exact ⟨⟨added, dropped⟩, tidy'⟩
  · rw [h] at whole tidy' content
    rw [outcome_bind_ok h]
    obtain ⟨named, statements⟩ := content _ rfl subject buffer rfl
    dsimp only
    split
    next => exact ⟨⟨added, whole⟩, tidy'⟩
    next =>
      have committed : Extends t (outcome (commit (typeTriples m subject ++ buffer)) t).2
          (typeTriples m subject ++ buffer) := by
        refine ⟨⟨rfl, rfl⟩, fun x hx => ?_, le_rfl⟩
        rcases List.mem_append.mp hx with hx | hx
        · exact isStatement_of_mem_typeTriples named hx
        · exact statements x hx
      exact ⟨⟨_, whole.trans committed⟩, tidy'⟩

end Rows

theorem rowwise_sane (engine : Engine σ) : Rowwise sane engine where
  asks := asks_sane engine.store
  fails _ := trivial
  row _ _ _ _ parents := within_applyRow parents

/-- The state after calls, of which each goes on from where the one before it ended or failed. -/
def after (engine : Engine σ) (calls : List Call) (s : RunState σ) : RunState σ :=
  calls.foldl (fun s call => (outcome (engine.perform call) s).2) s

theorem tidy_start (config : Config) (store : σ) : Tidy (start config store) := by
  rintro _ _ ⟨⟩

/-- What bounds each call bounds all of them together. -/
theorem moves_after {bound : Bound σ} {engine : Engine σ}
    (within : ∀ call, Within bound (engine.perform call)) (calls : List Call) (s : RunState σ) :
    bound.moves s (after engine calls s) := by
  induction calls generalizing s with
  | nil => exact bound.refl s
  | cons call rest ih => exact bound.trans (within call s).1 (ih _)

/-- After calls the graph is made of statements, which are all counted. -/
theorem extends_after (engine : Engine σ) (calls : List Call) {s : RunState σ} (tidy : Tidy s) :
    (∃ added, Extends s (after engine calls s) added) ∧ Tidy (after engine calls s) :=
  moves_after (fun call => (rowwise_sane engine).perform call) calls s tidy

/-- However calls follow each other and end, in each the graph grows at its end only, the count of
statements tells its size, no more rows are dropped than are counted, and every statement is about a
name or a blank node and has a name as predicate. -/
theorem calls_extend_graph (engine : Engine σ) (store : σ) (calls : List Call) (call : Call) :
    let before := after engine calls (start engine.config store)
    let now := (outcome (engine.perform call) before).2
    before.graph.triples <+: now.graph.triples ∧
    now.stats.triples = now.graph.triples.length ∧
    now.stats.skipped ≤ now.stats.rows ∧
    ∀ x ∈ now.graph.triples, x.subject.isLiteral = false ∧ x.predicate.isIri := by
  intro before now
  obtain ⟨⟨added, whole⟩, tidy⟩ := extends_after engine calls (tidy_start engine.config store)
  obtain ⟨⟨more, last⟩, _⟩ := ((rowwise_sane engine).perform call before).1 tidy
  have all : Extends (start engine.config store) now (added ++ more) := whole.trans last
  have graph : now.graph.triples = added ++ more := by simp [all.grows.graph, start, Graph.addAll]
  refine ⟨?_, ?_, ?_, ?_⟩
  · rw [show now.graph = before.graph.addAll more from last.grows.graph]
    exact List.prefix_append _ _
  · rw [graph, all.grows.counted]
    simp [start]
  · simpa [start] using all.skips
  · intro x hx
    exact all.statements x (graph ▸ hx)

end Engine
end CatalogGraph
