import CatalogGraph.Proofs.EntryKeys
import CatalogGraph.Proofs.GraphGrowth
import CatalogGraph.Proofs.RowWindows

/-!
Open queries: a hole without a value in a subject or an object costs a row only, but one in a query
ends the run. So values are never missed exactly if the context names all that the queries ask for.
-/
namespace CatalogGraph

namespace Context

theorem get?_merged_eq_none_iff (name : String) (ctx other : Context) :
    Entries.get? name (ctx.merged other) = none ↔
      Entries.get? name ctx = none ∧ Entries.get? name other = none := by
  rw [merged, Entries.get?_insertAll, Option.or_eq_none_iff, and_comm]
  simp only [Entries.get?_eq_none_iff, List.mem_reverse]

/-- A context with the given names. -/
def naming (names : List String) : Context :=
  names.foldr (fun name ctx => Context.set name "" ctx) .empty

theorem get?_naming_eq_none_iff {names : List String} {name : String} :
    Entries.get? name (naming names) = none ↔ name ∉ names := by
  induction names with
  | nil => simp [naming, Context.empty, Entries.get?]
  | cons first rest ih =>
    change Entries.get? name (Context.set first "" (naming rest)) = none ↔ _
    rw [Context.set, Entries.get?_insert, List.mem_cons, not_or, ← ih]
    by_cases same : name = first
    · simp [same]
    · simp [same]

end Context

namespace Engine
open Template
variable {σ α : Type}

/-- A hole of a query that stays open in a context: it is not named there, and the pages of the
query do not fill it. -/
structure IsOpen (ctx : Context) (query name : String) : Prop where
  hole : name ∈ names query
  unnamed : Entries.get? name ctx = none
  notOffset : name ≠ "offset"
  notLimit : name ≠ "limit"

theorem get?_pageContext_eq_none_iff {query name : String} {ctx : Context} {offset size : Nat}
    (hole : name ∈ names query) :
    Entries.get? name (pageContext query ctx offset size) = none ↔ IsOpen ctx query name := by
  have asked : (names query).contains name = true := by simpa using hole
  have nothing : Entries.get? name Context.empty = none := rfl
  unfold pageContext
  rw [Context.get?_merged_eq_none_iff]
  constructor
  · rintro ⟨unnamed, other⟩
    have free : Entries.contains name ctx = false := by simp [Entries.contains, unnamed]
    refine ⟨hole, unnamed, ?_, ?_⟩
    · rintro rfl
      simp only [asked, free] at other
      split at other <;> simp [Context.set, Entries.get?_insert] at other
    · rintro rfl
      simp [hole, free, Context.set, Entries.get?_insert] at other
  · rintro ⟨-, unnamed, notOffset, notLimit⟩
    refine ⟨unnamed, ?_⟩
    split <;> split <;> simp [Context.set, Entries.get?_insert, notOffset, notLimit, nothing]

/-- The fault tells of a value missed by nothing but a query of a map that leaves a hole open. -/
def MissesOpen (engine : Engine σ) (ctx : Context) (e : MappingError) : Prop :=
  ∀ query name, e = .noTemplateValue query name →
    (∃ m ∈ engine.mapping.maps, Poses m query) ∧ IsOpen ctx query name

/-- Whatever is done, only certain faults arise. -/
def failing (fails : MappingError → Prop) : Bound σ where
  moves _ _ := True
  fails := fails
  refl _ := trivial
  trans _ _ := trivial

theorem allows_failing {fails : MappingError → Prop}
    (faults : ∀ e, Node.IsPathFault e → fails e) : Allows (failing fails : Bound σ) where
  draws _ _ := trivial
  fresh _ := trivial
  forValue _ _ := trivial
  faults := faults

/-- A row fails with faults of paths and those with which its parents fail. -/
theorem within_failing_applyRow {fails : MappingError → Prop} {config : Config}
    {runParent : RunParent σ} {m : TriplesMap} {ctx : Context} {node : Node}
    (faults : ∀ e, Node.IsPathFault e → fails e)
    (parents : ∀ pom ∈ m.predicateObjectMaps, ∀ iri, pom.object = .parent iri → ∀ subject,
      Within (failing fails) (runParent iri node (linkContext ctx subject pom.predicate))) :
    Within (failing fails) (applyRow config runParent m ctx node) := by
  refine within_bind (within_modify fun _ => trivial) fun _ => ?_
  refine within_bind ((allows_failing faults).rowContent parents) fun r => ?_
  match r with
  | none => exact within_bind (within_modify fun _ => trivial) fun _ => within_pure _
  | some (subject, buffer) =>
    dsimp only
    split
    next => exact within_pure _
    next => exact within_bind (within_modify fun _ => trivial) fun _ => within_pure _

/-- A page of a query fails for want of a value only if a hole is open. -/
theorem within_failing_queryPage {fails : MappingError → Prop} {service : TripleStore σ}
    {query : String} {ctx : Context} {offset size : Nat}
    (remote : ∀ e, fails (.remote e))
    (missed : ∀ name, IsOpen ctx query name → fails (.noTemplateValue query name)) :
    Within (failing fails) (queryPage service query (pageContext query ctx offset size)) := by
  intro s
  refine ⟨trivial, fun e failed => ?_⟩
  rcases outcome_expand query (pageContext query ctx offset size) s with
    ⟨text, t, expanded, -⟩ | ⟨name, t, expanded, hole, unnamed⟩
  · rw [queryPage, outcome_bind_ok expanded] at failed
    dsimp only at failed
    have asked : outcome (modifyGet fun s : RunState σ =>
        ((service.query text s.store).1, { s with store := (service.query text s.store).2 })) t =
          (.ok (service.query text t.store).1,
            { t with store := (service.query text t.store).2 }) := rfl
    rw [outcome_bind_ok asked] at failed
    split at failed
    next cause _ =>
      cases failed
      exact remote cause
    next => cases failed
  · rw [queryPage, outcome_bind_ok expanded] at failed
    cases failed
    exact missed name ((get?_pageContext_eq_none_iff hole).mp unnamed)

/-- All that one context names is named in the other. -/
def Beneath (base ctx : Context) : Prop :=
  ∀ name, Entries.get? name ctx = none → Entries.get? name base = none

theorem Beneath.link {base ctx : Context} (beneath : Beneath base ctx) (subject : Term)
    (predicate : String) : Beneath base (linkContext ctx subject predicate) := by
  intro name unnamed
  exact beneath name ((Context.get?_merged_eq_none_iff name ctx _).mp unnamed).1

theorem IsOpen.beneath {base ctx : Context} {query name : String} (isOpen : IsOpen ctx query name)
    (beneath : Beneath base ctx) : IsOpen base query name :=
  ⟨isOpen.hole, beneath name isOpen.unnamed, isOpen.notOffset, isOpen.notLimit⟩

theorem missesOpen_of_other {engine : Engine σ} {ctx : Context} {e : MappingError}
    (other : ∀ query name, e ≠ .noTemplateValue query name) : MissesOpen engine ctx e :=
  fun query name same => absurd same (other query name)

theorem within_missesOpen {engine : Engine σ} {base : Context} {maps : List TriplesMap}
    (among : maps ⊆ engine.mapping.maps) (child iri : String) (node : Node) {ctx : Context}
    (beneath : Beneath base ctx) :
    Within (failing (MissesOpen engine base)) (engine.runNamed maps child iri node ctx) := by
  induction hn : maps.length using Nat.strong_induction_on
    generalizing maps child iri node ctx with
  | _ n ih =>
    cases found : maps.find? (·.iri == iri) with
    | none =>
      rw [runNamed_of_missing found]
      exact within_throw (missesOpen_of_other (by simp))
    | some m =>
      have hm : m ∈ engine.mapping.maps := among (List.mem_of_find?_eq_some found)
      have shorter := Mapping.length_others_lt found
      have fewer : Mapping.others maps iri ⊆ engine.mapping.maps :=
        fun _ ho => among (List.mem_filter.mp ho).1
      rw [runNamed_of_found found]
      refine within_runMap (fun e other => missesOpen_of_other other) ?_ fun node => ?_
      · intro service _ query poses offset
        refine within_failing_queryPage (fun e => missesOpen_of_other (by simp)) ?_
        rintro name isOpen _ _ ⟨⟩
        exact ⟨⟨m, hm, poses⟩, isOpen.beneath beneath⟩
      · refine within_failing_applyRow (fun e fault => missesOpen_of_other ?_) ?_
        · obtain ⟨text, cause, rfl⟩ := fault
          simp
        · intro pom _ parent _ subject
          exact ih _ (hn ▸ shorter) fewer _ _ _ (beneath.link subject pom.predicate) rfl

/-- A call misses no values but those of holes that a query leaves open. -/
theorem missesOpen_of_perform {engine : Engine σ} {call : Call} {s : RunState σ} {e : MappingError}
    (failed : (outcome (engine.perform call) s).1 = .error e) :
    MissesOpen engine (engine.contextOf call) e := by
  have within : Within (failing (MissesOpen engine (engine.contextOf call)))
      (engine.perform call) :=
    within_perform_of_named (fun _ => missesOpen_of_other (by simp)) fun m node =>
      within_missesOpen (List.Subset.refl _) m.iri m.iri node fun _ => id
  exact (within s).2 e failed

/-- A page of a query that leaves a hole open is not asked for. -/
theorem queryPage_of_isOpen {query name : String} {ctx : Context} (isOpen : IsOpen ctx query name)
    (service : TripleStore σ) (offset size : Nat) (s : RunState σ) :
    ∃ missed t, IsOpen ctx query missed ∧
      outcome (queryPage service query (pageContext query ctx offset size)) s =
        (.error (.noTemplateValue query missed), t) := by
  rcases outcome_expand query (pageContext query ctx offset size) s with
    ⟨text, t, -, named⟩ | ⟨missed, t, expanded, hole, unnamed⟩
  · exact absurd ((get?_pageContext_eq_none_iff isOpen.hole).mpr isOpen) (named name isOpen.hole)
  · refine ⟨missed, t, (get?_pageContext_eq_none_iff hole).mp unnamed, ?_⟩
    rw [queryPage, outcome_bind_ok expanded]
    rfl

/-- A map whose query leaves a hole open cannot be run, on whatever node. -/
theorem runMap_of_isOpen {engine : Engine σ} {service : TripleStore σ} {m : TriplesMap}
    {query name : String} {ctx : Context} (asked : engine.store = some service)
    (granted : 0 < engine.pages) (poses : Poses m query) (isOpen : IsOpen ctx query name)
    (runParent : RunParent σ) (node : Node) (s : RunState σ) :
    ∃ missed, (outcome (engine.runMap runParent m node ctx) s).1 =
      .error (.noTemplateValue query missed) := by
  obtain ⟨left, more⟩ : ∃ left, engine.pages = left + 1 := ⟨engine.pages - 1, by omega⟩
  obtain ⟨missed, t, -, failed⟩ :=
    queryPage_of_isOpen isOpen service 0 (pageSize engine.config) s
  refine ⟨missed, ?_⟩
  rw [runMap_of_poses asked poses, more, queryPages, outcome_bind_error failed]

/-- A map of which the query leaves a hole open may be called alone, and the call fails. -/
theorem perform_of_isOpen {engine : Engine σ} {rules : List TriplesMap} {service : TripleStore σ}
    {m : TriplesMap} {query name : String} {ctx : Context}
    (compiled : Mapping.compile rules = .ok engine.mapping) (asked : engine.store = some service)
    (granted : 0 < engine.pages) (hm : m ∈ engine.mapping.maps) (poses : Poses m query)
    (isOpen : IsOpen ctx query name) (s : RunState σ) :
    ∃ missed, (outcome (engine.perform (.one m.iri .empty ctx)) s).1 =
      .error (.noTemplateValue query missed) := by
  have found : engine.mapping.maps.find? (·.iri == m.iri) = some m :=
    Mapping.find?_of_mem (Mapping.distinct_of_compile compiled) hm
  obtain ⟨missed, failed⟩ := runMap_of_isOpen asked granted poses isOpen
    (engine.runNamed (Mapping.others engine.mapping.maps m.iri) m.iri) .empty s
  refine ⟨missed, ?_⟩
  simp only [perform, execute, Mapping.get?, found]
  rw [runNamed_of_found found]
  exact failed

/-- A row fails with faults of paths, or as a parent that it runs. -/
theorem applyRow_error {config : Config} {runParent : RunParent σ} {m : TriplesMap} {ctx : Context}
    {node : Node} {s : RunState σ} {e : MappingError}
    (failed : (outcome (applyRow config runParent m ctx node) s).1 = .error e) :
    Node.IsPathFault e ∨ ∃ iri ctx t, (outcome (runParent iri node ctx) t).1 = .error e := by
  have row : Within (failing fun e => Node.IsPathFault e ∨
      ∃ iri ctx t, (outcome (runParent iri node ctx) t).1 = .error e)
      (applyRow config runParent m ctx node) :=
    within_failing_applyRow (fun e => .inl) fun pom _ iri _ subject s =>
      ⟨trivial, fun e failed => .inr ⟨iri, _, s, failed⟩⟩
  exact (row s).2 e failed

theorem applyRows_of_drops {config : Config} {runParent : RunParent σ} {m : TriplesMap}
    {ctx : Context} {node : Node} {s : RunState σ}
    (drops : Drops config runParent m ctx node (counted s)) (rest : List Node) :
    outcome (applyRows (applyRow config runParent m ctx) (node :: rest)) s =
      outcome (applyRows (applyRow config runParent m ctx) rest)
        (outcome (applyRow config runParent m ctx node) s).2 := by
  have dropped := applyRow_of_drops drops
  rw [applyRows, outcome_bind_ok dropped, dropped, outcome_bind]
  rcases outcome (applyRows (applyRow config runParent m ctx) rest) _ with ⟨_ | _, _⟩ <;> rfl

/-- Whatever is called, no value is missed exactly if the calls name all that the queries ask for
besides the offset and the limit. A value that is missed is that of such a hole in the query of a
map. A row fails with faults of paths and of its parents only: where it has no value it is dropped,
and the rows behind it are applied. -/
theorem no_value_missed_iff_queries_named {engine : Engine σ} {rules : List TriplesMap}
    {service : TripleStore σ} (compiled : Mapping.compile rules = .ok engine.mapping)
    (asked : engine.store = some service) (granted : 0 < engine.pages) (store : σ)
    (given : List String) :
    ((∀ call : Call, (∀ name ∈ given, Entries.get? name (engine.contextOf call) ≠ none) →
        ∀ s query name,
          (outcome (engine.perform call) s).1 ≠ .error (.noTemplateValue query name)) ↔
      ∀ m ∈ engine.mapping.maps, ∀ query, Poses m query → ∀ name ∈ names query,
        name ∈ given ∨ name = "offset" ∨ name = "limit") ∧
    (∀ call s query name,
      (outcome (engine.perform call) s).1 = .error (.noTemplateValue query name) →
      (∃ m ∈ engine.mapping.maps, Poses m query) ∧ IsOpen (engine.contextOf call) query name) ∧
    ∀ (runParent : RunParent σ) m ctx node s,
      (∀ e, (outcome (applyRow engine.config runParent m ctx node) s).1 = .error e →
        Node.IsPathFault e ∨ ∃ iri ctx t, (outcome (runParent iri node ctx) t).1 = .error e) ∧
      (Drops engine.config runParent m ctx node (counted s) → ∀ rest,
        outcome (applyRows (applyRow engine.config runParent m ctx) (node :: rest)) s =
          outcome (applyRows (applyRow engine.config runParent m ctx) rest)
            (outcome (applyRow engine.config runParent m ctx node) s).2) := by
  have missed (call : Call) (s : RunState σ) (query name : String)
      (failed : (outcome (engine.perform call) s).1 = .error (.noTemplateValue query name)) :
      (∃ m ∈ engine.mapping.maps, Poses m query) ∧ IsOpen (engine.contextOf call) query name :=
    missesOpen_of_perform failed query name rfl
  refine ⟨⟨?_, ?_⟩, missed, ?_⟩
  · intro never m hm query poses name hole
    by_contra other
    simp only [not_or] at other
    have isOpen : IsOpen (Context.naming given) query name :=
      ⟨hole, Context.get?_naming_eq_none_iff.mpr other.1, other.2.1, other.2.2⟩
    have named : ∀ name ∈ given, Entries.get? name (Context.naming given) ≠ none :=
      fun name known none => Context.get?_naming_eq_none_iff.mp none known
    obtain ⟨first, failed⟩ :=
      perform_of_isOpen compiled asked granted hm poses isOpen (start engine.config store)
    exact never (.one m.iri .empty (Context.naming given)) named _ query first failed
  · intro closed call named s query name failed
    obtain ⟨⟨m, hm, poses⟩, isOpen⟩ := missed call s query name failed
    rcases closed m hm query poses name isOpen.hole with known | same | same
    · exact named name known isOpen.unnamed
    · exact isOpen.notOffset same
    · exact isOpen.notLimit same
  · intro runParent m ctx node s
    exact ⟨fun e failed => applyRow_error failed, applyRows_of_drops⟩

def loansQuery : String := "SELECT ?loan FROM \x7bcatalog\x7d"

/-- Every query is answered with one row. -/
def loansStore : TripleStore Unit where
  query _ s := (.ok [[("title", .literal "Moby Dick"), ("work", .uri "w1")]], s)
  update _ s := (.ok (), s)

/-- The loans of a catalog that the context is to name, and after them the titles of works. -/
def loans : Engine Unit where
  mapping := { maps := [
    { iri := "loans"
      logicalSource := some
        { formulation := .sparql, iterator := some "loan", query := some loansQuery } },
    { iri := "works"
      logicalSource := some
        { formulation := .sparql, iterator := some "work", query := some "SELECT ?work ?title" }
      predicateObjectMaps := [{ predicate := "title", object := .reference "title" }] }] }
  store := some loansStore

theorem loans_of_named_catalog :
    Mapping.compile loans.mapping.maps = .ok loans.mapping ∧ loans.store = some loansStore ∧
    ∀ s query name,
      (outcome (loans.perform (.all .none (Context.set "catalog" "main" .empty))) s).1 ≠
        .error (.noTemplateValue query name) := by
  have compiled : Mapping.compile loans.mapping.maps = .ok loans.mapping := by decide +kernel
  obtain ⟨⟨-, closed⟩, -⟩ :=
    no_value_missed_iff_queries_named compiled rfl (by decide) () ["catalog"]
  refine ⟨compiled, rfl, closed ?_ _ ?_⟩
  · rintro m hm query ⟨source, has, formulation, posed⟩ name hole
    have holes : names loansQuery = ["catalog"] ∧ names "SELECT ?work ?title" = [] := by
      decide +kernel
    rcases List.mem_pair.mp hm with rfl | rfl
    · cases has
      cases posed
      simpa [holes.1] using Or.inl hole
    · cases has
      cases posed
      simp [holes.2] at hole
  · decide

/-- Where no catalog is named, the titles of works are lost with the loans, though no query
fails. -/
theorem loans_of_no_catalog_lose_works :
    Mapping.compile loans.mapping.maps = .ok loans.mapping ∧
    (∀ text s, ∃ rows, (loansStore.query text s).1 = .ok rows) ∧
    (outcome (loans.perform (.all .none .empty)) (start loans.config ())).1 =
      .error (.noTemplateValue loansQuery "catalog") ∧
    (outcome (loans.perform (.all .none .empty)) (start loans.config ())).2.graph.triples = [] ∧
    (outcome (loans.perform (.one "works" .empty .empty)) (start loans.config ())).2.graph.triples =
      [⟨.iri "w1", .iri "title", .string "Moby Dick"⟩] := by
  refine ⟨by decide +kernel, fun _ _ => ⟨_, rfl⟩, by decide +kernel, by decide +kernel,
    by decide +kernel⟩

end Engine
end CatalogGraph
