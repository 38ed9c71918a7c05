import CatalogGraph.Proofs.PendingNodes

/-!
Reused nodes: the maps of a predicate take the node that a subject has already, so a row adds one
only where it sees none. It sees the graph and its own statements, but a parent that it runs does
not see these before the row is done. So a subject gets a second node exactly if a row that has
made one runs a parent that makes another.
-/
namespace CatalogGraph.Engine
variable {σ : Type} {p c : String}

/-- A row keeps what is kept by its parents and by adding its statements behind what they added. -/
theorem within_linking_applyRow {kept : List Triple → List Triple → Prop} (keeps : Keeps kept)
    {config : Config} {runParent : RunParent σ} {m : TriplesMap} {ctx : Context} {node : Node}
    (reuses : ∀ pom ∈ m.predicateObjectMaps, pom.Reuses p c)
    (linked : ∀ iri ctx, Within (linking p c keeps_nothing) (runParent iri node ctx))
    (parents : ∀ iri ∈ m.parentRefs, ∀ ctx, Within (linking p c keeps) (runParent iri node ctx))
    (commits : ∀ s t subject buffer, Tracked p c s → kept s.graph.triples t.graph.triples →
      Pending p c runParent node subject m.predicateObjectMaps s t buffer →
      kept s.graph.triples
        (outcome (commit (typeTriples m subject ++ buffer)) t).2.graph.triples) :
    Within (linking p c keeps) (applyRow config runParent m ctx node) := by
  intro s
  refine ⟨?_, fun _ _ => trivial⟩
  have count : outcome (countRow : Run σ Unit) s = (.ok (), counted s) := rfl
  have first : (linking p c keeps).moves s (counted s) :=
    linking_of_same keeps rfl (Nat.le_refl _) rfl
  have within : Within (linking p c keeps) (rowContent config runParent m ctx node) :=
    (allows_linking keeps).rowContent fun pom hm iri object _ =>
      parents iri (mem_parentRefs.mpr ⟨pom, hm, object⟩) _
  have content := within (counted s)
  refine (linking p c keeps).trans first ?_
  rw [applyRow, outcome_bind_ok count]
  rcases h : outcome (rowContent config runParent m ctx node) (counted s)
    with ⟨e | _ | ⟨subject, buffer⟩, t⟩
  · rw [h] at content
    rw [outcome_bind_error h]
    exact content.1
  · rw [h] at content
    rw [outcome_bind_ok h]
    exact (linking p c keeps).trans content.1 (linking_of_same keeps rfl (Nat.le_refl _) rfl)
  · rw [h] at content
    rw [outcome_bind_ok h]
    dsimp only
    split
    next => exact content.1
    next =>
      intro tracked
      have pending := pending_of_rowContent linked tracked reuses h
      exact ⟨pending.committed m,
        commits (counted s) t subject buffer tracked (content.1 tracked).2 pending⟩

section Maps
open Mapping
variable {engine : Engine σ} {maps : List TriplesMap}
  (only : ∀ m ∈ engine.mapping.maps, ∀ pom ∈ m.predicateObjectMaps, pom.Reuses p c)
include only

/-- Whatever runs, only links to minted nodes of the class are added. -/
theorem within_linking (within : maps ⊆ engine.mapping.maps) (child iri : String) (node : Node)
    (ctx : Context) :
    Within (linking p c keeps_nothing) (engine.runNamed maps child iri node ctx) := by
  refine within_runNamed (fun _ => True) (asks_linking keeps_nothing engine.store)
    (fun _ => trivial) ?_ within child trivial node ctx
  intro maps _ m hm _ ctx node parents
  exact within_linking_applyRow keeps_nothing (only m hm) (fun iri => parents iri trivial)
    (fun iri _ => parents iri trivial) fun _ _ _ _ _ _ _ => trivial

/-- No map that is reached from the name along parents is of the predicate. -/
def Spares (p : String) (maps : List TriplesMap) (iri : String) : Prop :=
  ∀ m ∈ maps, Relation.ReflTransGen (Refers maps) iri m.iri →
    ∀ pom ∈ m.predicateObjectMaps, pom.predicate ≠ p

omit only in
theorem keeps_links (p : String) :
    Keeps fun triples more => ∀ x a, Links p more x a → Links p triples x a :=
  ⟨fun _ _ _ => id, fun first second x a links => first x a (second x a links)⟩

/-- A map from which no map of the predicate is reached adds no links. -/
theorem within_spares (within : maps ⊆ engine.mapping.maps) (child : String) {iri : String}
    (spares : Spares p engine.mapping.maps iri) (node : Node) (ctx : Context) :
    Within (linking p c (keeps_links p)) (engine.runNamed maps child iri node ctx) := by
  refine within_runNamed (Spares p engine.mapping.maps)
    (asks_linking (keeps_links p) engine.store) (fun _ => trivial) ?_ within child spares node ctx
  intro maps within m hm spares ctx node parents
  refine within_linking_applyRow (keeps_links p) (only m hm)
    (fun iri => within_linking only within m.iri iri node) (fun parent hp => ?_) ?_
  · refine parents parent fun other ho reached => spares other ho ?_
    exact .head ⟨m, hm, rfl, hp⟩ reached
  · intro s t subject buffer _ kept pending x a links
    rcases links_append.mp links with links | links
    · exact kept x a links
    · rcases links_append.mp links with links | links
      · exact absurd links (unlinked_typeTriples m subject x a)
      · obtain ⟨pom, part, own⟩ := pending.source x a links
        exact absurd own (spares m hm .refl pom part)

omit only in
theorem keeps_single (p c : String) :
    Keeps fun triples more => SingleNodes p c triples → SingleNodes p c more :=
  ⟨fun _ => id, fun first second single => second (first single)⟩

/-- In no map a parent that may link nodes by the predicate is run behind a map of it. -/
def LinksBehind (p : String) (maps : List TriplesMap) : Prop :=
  ∀ m ∈ maps, m.predicateObjectMaps.Pairwise fun earlier later =>
    earlier.predicate = p → ∀ iri, later.object = .parent iri → Spares p maps iri

theorem within_single (behind : LinksBehind p engine.mapping.maps)
    (within : maps ⊆ engine.mapping.maps) (child iri : String) (node : Node) (ctx : Context) :
    Within (linking p c (keeps_single p c)) (engine.runNamed maps child iri node ctx) := by
  refine within_runNamed (fun _ => True) (asks_linking (keeps_single p c) engine.store)
    (fun _ => trivial) ?_ within child trivial node ctx
  intro maps within m hm _ ctx node parents
  refine within_linking_applyRow (keeps_single p c) (only m hm)
    (fun iri => within_linking only within m.iri iri node) (fun iri _ => parents iri trivial) ?_
  intro s t subject buffer tracked kept pending single
  refine (pending.singleNodes_iff tracked m).mpr ⟨kept single, fun a b la lb => ?_⟩
  obtain ⟨added, gains⟩ := pending.gains
  rw [gains.addedBetween] at lb
  have known : Links p t.graph.triples subject b := by
    rw [gains.graph]
    exact links_append.mpr (.inr lb)
  -- The other node was linked by a parent of a later map, which spares the predicate.
  obtain ⟨earlier, later, iri, order, own, object, ctx, u, tracked', new, linked⟩ :=
    pending.late subject a b la known
  have spares := List.pairwise_pair.mp ((behind m hm).sublist order) own iri object
  exact new (((within_spares only within m.iri spares node ctx u).1 tracked').2 subject b linked)

omit only in
theorem linking_after {kept : List Triple → List Triple → Prop} (keeps : Keeps kept)
    (named : ∀ (m : TriplesMap) node ctx, Within (linking p c keeps)
      (engine.runNamed engine.mapping.maps m.iri m.iri node ctx))
    (calls : List Call) (s : RunState σ) :
    (linking p c keeps).moves s (after engine calls s) :=
  moves_after (fun _ => within_perform_of_named (fun _ => trivial) fun m node => named m node _)
    calls s

/-- A row leaves single nodes exactly if its parents do, and none of them links the subject of the
row while the row itself has linked it to a fresh node. So no run of any calls gives a subject two
nodes if, in every map, the parents behind a map of the predicate reach no map of the predicate.
After all calls the nodes of the predicate are of the class and minted. -/
theorem single_nodes_iff_parents_apart :
    (∀ maps ⊆ engine.mapping.maps, ∀ m ∈ engine.mapping.maps, ∀ ctx node s subject buffer t,
      Tracked p c s →
      outcome (rowContent engine.config (engine.runNamed maps m.iri) m ctx node) (counted s) =
        (.ok (some (subject, buffer)), t) →
      (SingleNodes p c (outcome (applyRow engine.config (engine.runNamed maps m.iri) m ctx node)
          s).2.graph.triples ↔
        SingleNodes p c t.graph.triples ∧
          ∀ a b, Links p buffer subject a → ¬ Links p (addedBetween (s, t)) subject b)) ∧
    ∀ calls store, Tracked p c (after engine calls (start engine.config store)) ∧
      (LinksBehind p engine.mapping.maps →
        SingleNodes p c (after engine calls (start engine.config store)).graph.triples) := by
  refine ⟨?_, fun calls store => ?_⟩
  · intro maps within m hm ctx node s subject buffer t tracked done
    have tracked' : Tracked p c (counted s) := ⟨tracked.typed, tracked.minted⟩
    have pending := pending_of_rowContent
      (fun iri => within_linking only within m.iri iri node) tracked' (only m hm) done
    have count : outcome (countRow : Run σ Unit) s = (.ok (), counted s) := rfl
    rw [applyRow, outcome_bind_ok count, outcome_bind_ok done]
    dsimp only
    split
    next none =>
      obtain rfl : buffer = [] := by simp_all
      simp [not_links_nil]
    next => exact pending.singleNodes_iff tracked' m
  · have tracked : Tracked p c (start engine.config store) := tracked_start engine.config store
    refine ⟨?_, fun behind => ?_⟩
    · obtain ⟨⟨added, gains⟩, -⟩ := linking_after keeps_nothing
        (fun m => within_linking only (List.Subset.refl _) m.iri m.iri) calls _ tracked
      exact tracked.gains gains
    · refine (linking_after (keeps_single p c)
        (fun m => within_single only behind (List.Subset.refl _) m.iri m.iri) calls _ tracked).2 ?_
      exact fun _ _ _ links => absurd links not_links_nil

end Maps

/-- Titles of works in one place, behind a node that other titles reuse. -/
def titledBy (reference valuePredicate : String) : PredicateObjectMap where
  predicate := "title"
  object := .reference reference
  subEntityClass := some "Title"
  valuePredicate := valuePredicate
  reuse := true

def moreTitles : PredicateObjectMap where
  predicate := "more"
  object := .parent "subtitles"

def worksBy (iri : String) (poms : List PredicateObjectMap) : TriplesMap where
  iri := iri
  logicalSource := some { formulation := .rows }
  subjectMap := some { term := some (.template "work/\x7bid\x7d") }
  predicateObjectMaps := poms

/-- Works whose subtitles a parent states. -/
def subtitled (poms : List PredicateObjectMap) : Engine Unit where
  mapping := { maps := [worksBy "works" poms,
    worksBy "subtitles" [titledBy "sub" "subTitle"]] }

def subtitledWork : Row where
  header := ["id", "main", "sub"]
  values := ["1", "Moby Dick", "or The Whale"]

theorem reuses_subtitled {poms : List PredicateObjectMap}
    (those : poms ⊆ [titledBy "main" "mainTitle", moreTitles]) :
    ∀ m ∈ (subtitled poms).mapping.maps, ∀ pom ∈ m.predicateObjectMaps,
      pom.Reuses "title" "Title" := by
  have titles (reference valuePredicate : String) (other : valuePredicate ≠ "title") :
      (titledBy reference valuePredicate).Reuses "title" "Title" :=
    ⟨fun _ => ⟨rfl, rfl, rfl⟩, fun _ => other, fun _ => nofun⟩
  intro m hm pom hp
  rcases List.mem_pair.mp hm with rfl | rfl
  · rcases List.mem_pair.mp (those hp) with rfl | rfl
    · exact titles _ _ (by decide)
    · exact ⟨fun own => absurd own (by decide), nofun, nofun⟩
  · obtain rfl := List.mem_singleton.mp hp
    exact titles _ _ (by decide)

theorem subtitles_first_single :
    (∀ m ∈ (subtitled [moreTitles, titledBy "main" "mainTitle"]).mapping.maps,
      ∀ pom ∈ m.predicateObjectMaps, pom.Reuses "title" "Title") ∧
    ∀ calls, SingleNodes "title" "Title"
      (after (subtitled [moreTitles, titledBy "main" "mainTitle"]) calls
        (start {} ())).graph.triples := by
  have reuses : ∀ m ∈ (subtitled [moreTitles, titledBy "main" "mainTitle"]).mapping.maps,
      ∀ pom ∈ m.predicateObjectMaps, pom.Reuses "title" "Title" := reuses_subtitled (by simp)
  refine ⟨reuses, fun calls => ?_⟩
  refine ((single_nodes_iff_parents_apart reuses).2 calls ()).2 fun m hm => ?_
  rcases List.mem_pair.mp hm with rfl | rfl
  · exact List.pairwise_pair.mpr fun own => absurd own (by decide)
  · exact List.pairwise_singleton _ _

/-- A work with a title that has a node before its subtitle is stated has two nodes in the end. -/
theorem subtitles_behind_double :
    Mapping.compile (subtitled [titledBy "main" "mainTitle", moreTitles]).mapping.maps =
      .ok (subtitled [titledBy "main" "mainTitle", moreTitles]).mapping ∧
    (∀ m ∈ (subtitled [titledBy "main" "mainTitle", moreTitles]).mapping.maps,
      ∀ pom ∈ m.predicateObjectMaps, pom.Reuses "title" "Title") ∧
    ¬ SingleNodes "title" "Title"
      (after (subtitled [titledBy "main" "mainTitle", moreTitles])
        [.all (.rows [subtitledWork]) .empty] (start {} ())).graph.triples := by
  refine ⟨by decide +kernel, reuses_subtitled (List.Subset.refl _), fun single => ?_⟩
  have both := single (.iri "work/1") (.blank "b0") (.blank "b1") ⟨rfl, by decide +kernel⟩
    (by unfold Typed; decide +kernel) ⟨rfl, by decide +kernel⟩ (by unfold Typed; decide +kernel)
  exact absurd both (by decide)

end CatalogGraph.Engine
