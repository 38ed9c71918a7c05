import CatalogGraph.Proofs.RunCalls
import CatalogGraph.Proofs.TwinRuns

/-!
Split tables: the statements of a run on the rows of two tables are those of a run on each of them,
up to the numbers of the blank nodes that were minted.
-/
namespace CatalogGraph
open BlankNodes Mapping

/-- The templates of the maps that have rows look up no generator. What a link names is a text for
the parent that it runs. -/
def Mapping.Undrawn (mapping : Mapping) (ctx : Context) : Prop :=
  ∀ m ∈ mapping.maps, m.isInert = false → ∀ name ∈ m.holes, ctx.Draws name →
    mapping.isParentOnly m.iri ∧ (name = "subject" ∨ name = "predicate")

/-- A context in which the map of a name may run below a run: it knows no other generators, and for
a parent those are hidden whose names a link sets. -/
structure Context.Beneath (ctx : Context) (mapping : Mapping) (root : Context) (iri : String) :
    Prop where
  known : ∀ name, ctx.Draws name → root.Draws name
  hidden : mapping.isParentOnly iri → ∀ name, ctx.Draws name →
    name ≠ "subject" ∧ name ≠ "predicate"

section Beneath
variable {mapping : Mapping} {root ctx : Context}

theorem Context.Beneath.top {m : TriplesMap} (top : m ∈ mapping.topLevel) :
    root.Beneath mapping root m.iri := by
  have alone := (List.mem_filter.mp top).2
  refine ⟨fun _ draws => draws, fun parent => ?_⟩
  simp [parent] at alone

theorem Context.Beneath.link {iri : String} (beneath : ctx.Beneath mapping root iri)
    (subject : Term) (predicate parent : String) :
    (Engine.linkContext ctx subject predicate).Beneath mapping root parent where
  known name draws := beneath.known name (draws_linkContext draws).2.2
  hidden _ _ draws := ⟨(draws_linkContext draws).1, (draws_linkContext draws).2.1⟩

theorem Mapping.Undrawn.beneath {m : TriplesMap} (undrawn : mapping.Undrawn root)
    (hm : m ∈ mapping.maps) (live : m.isInert = false) (beneath : ctx.Beneath mapping root m.iri) :
    ∀ name ∈ m.holes, ¬ ctx.Draws name := by
  intro name hn draws
  obtain ⟨parent, linked⟩ := undrawn m hm live name hn (beneath.known name draws)
  obtain ⟨subject, predicate⟩ := beneath.hidden parent name draws
  exact linked.elim subject predicate

end Beneath

namespace Engine
variable {σ α β : Type} {start : String}

/-- Whatever was minted before, a step succeeds and adds something, up to the numbers of the nodes
that it mints. -/
def Adds (start : String) (step : Run σ α) (g : Growth) : Prop :=
  ∀ n, ∃ a, Yields start n step a (g.placed start n)

theorem adds_pure (a : α) : Adds start (pure a : Run σ α) {} :=
  fun _ => ⟨a, yields_of_same fun _ => rfl⟩

theorem Adds.bind {step : Run σ α} {next : α → Run σ β} {g h : Growth} (first : Adds start step g)
    (later : ∀ a, Adds start (next a) h) : Adds start (step >>= next) (g.followedBy start h) := by
  intro n
  obtain ⟨a, yields⟩ := first n
  obtain ⟨b, yields'⟩ := later a (n + g.minted)
  refine ⟨b, ?_⟩
  rw [Growth.placed_followedBy]
  exact yields.bind yields'

theorem Adds.map {step : Run σ α} {g : Growth} (f : α → β) (adds : Adds start step g) :
    Adds start (do return f (← step)) g := by
  rw [← Growth.followedBy_nil g]
  exact adds.bind fun a => adds_pure (f a)

/-- A step that is its own twin after any number of nodes adds the same after each. -/
theorem exists_growth {step : Run σ α} {rel : Nat → Nat → α → α → Prop} (store : σ)
    (twins : ∀ base, Twins start base 0 (rel base) step step) :
    ∃ g : Growth, g.Closed start ∧ Adds start step g := by
  let origin : RunState σ := { blanks := { start }, store }
  obtain ⟨a, _, g, _, yields, _, twin, _⟩ := twins 0
  refine ⟨g, ?_, fun n => ?_⟩
  · have below := below_of_twins twin.added
    rw [Nat.zero_add] at below
    exact below
  · obtain ⟨b, b', h, h', first, second, twin', _⟩ := twins n
    have same : h = g := by
      have result := (first origin rfl rfl).symm.trans (yields origin rfl rfl)
      exact grow_injective origin (congrArg Prod.snd result)
    have placed : h' = g.placed start n := by
      subst same
      ext1
      · exact eq_renumber_of_twins twin'.added
      · exact twin'.minted.symm
      · exact twin'.rows.symm
      · exact twin'.skipped.symm
    exact ⟨b', placed ▸ second⟩

theorem adds_applyRows {apply : Node → Run σ (Option Term)} {growth : Row → Growth}
    (row : ∀ row, Adds start (apply (.row row)) (growth row)) (table : List Row) :
    Adds start (applyRows apply (table.map .row)) (Growth.total start (table.map growth)) := by
  induction table with
  | nil => exact adds_pure _
  | cons first rest ih => exact (row first).bind fun _ => ih.map _

theorem adds_runEach {runOne : TriplesMap → Run σ (List Term)} {growths : TriplesMap → List Growth}
    {maps : List TriplesMap}
    (one : ∀ m ∈ maps, Adds start (runOne m) (Growth.total start (growths m))) :
    Adds start (runEach runOne maps) (Growth.total start (maps.flatMap growths)) := by
  induction maps with
  | nil => exact adds_pure _
  | cons m rest ih =>
    rw [List.flatMap_cons, Growth.total_append]
    exact (one m (by simp)).bind fun _ => (ih fun m hm => one m (by simp [hm])).map _

theorem runMap_of_rows {engine : Engine σ} {runParent : RunParent σ} {m : TriplesMap}
    {source : LogicalSource} (has : m.logicalSource = some source)
    (rows : source.formulation = .rows) {node : Node} {nodes : List Node}
    (accepted : node.accepts .rows = true)
    (iterated : ∀ namespaces iterator, node.iterate namespaces iterator = .ok nodes)
    (ctx : Context) :
    engine.runMap runParent m node ctx =
      applyRows (applyRow engine.config runParent m ctx) nodes := by
  simp only [runMap, has, rows, accepted, iterated]
  rfl

section Maps
variable {engine : Engine σ} (valid : Valid engine.mapping.maps)
  (distinct : (engine.mapping.maps.map (·.iri)).Nodup)
  (rows : ∀ m ∈ engine.mapping.maps, m.RowsOnly) {root : Context}
  (undrawn : engine.mapping.Undrawn root)

include rows undrawn in
theorem twins_row {m : TriplesMap} (hm : m ∈ engine.mapping.maps) (live : m.isInert = false)
    {ctx : Context} (beneath : ctx.Beneath engine.mapping root m.iri) {runParent : RunParent σ}
    {row : Row} {base : Nat}
    (parents : ∀ iri ∈ m.parentRefs, ∀ ctx, ctx.Beneath engine.mapping root iri → ∀ k,
      Twins start base k (fun k => List.Forall₂ (Term.Twin start base k))
        (runParent iri (.row row) ctx) (runParent iri (.row row) ctx)) (k : Nat) :
    Twins start base k (fun k => Option.Rel (Term.Twin start base k))
      (applyRow engine.config runParent m ctx (.row row))
      (applyRow engine.config runParent m ctx (.row row)) := by
  refine twins_applyRow (rows m hm) (undrawn.beneath hm live beneath) fun iri parent subject => ?_
  exact ⟨rfl, fun k predicate => parents iri parent _ (beneath.link subject predicate iri) k⟩

include valid distinct rows undrawn

theorem twins_runNamed {fresh : List TriplesMap} {path : List String} {child iri : String}
    (nested : Nested engine.mapping.maps fresh path iri) {ctx : Context}
    (beneath : ctx.Beneath engine.mapping root iri) (row : Row) (base k : Nat) :
    Twins start base k (fun k => List.Forall₂ (Term.Twin start base k))
      (engine.runNamed fresh child iri (.row row) ctx)
      (engine.runNamed fresh child iri (.row row) ctx) := by
  induction hn : fresh.length using Nat.strong_induction_on
    generalizing fresh path child iri ctx k with
  | _ n ih =>
    obtain ⟨m, found, all⟩ := nested.found valid distinct
    obtain ⟨hm, rfl⟩ := mem_of_find? all
    rw [runNamed_of_found found]
    cases has : m.logicalSource with
    | none =>
      simp only [runMap, has]
      exact twins_pure .nil
    | some source =>
      have live : m.isInert = false := by simp [TriplesMap.isInert, has]
      have shorter := length_others_lt found
      rw [runMap_of_rows has ((rows m hm).rows source has) rfl fun _ _ => rfl]
      refine twins_applyRows fun node hnode k => ?_
      obtain rfl := List.mem_singleton.mp hnode
      refine twins_row rows undrawn hm live beneath (fun parent hp ctx beneath k => ?_) k
      exact ih _ (hn ▸ shorter) (nested.next valid found hp) beneath k rfl

/-- What the rows of a table make a map add. -/
theorem exists_growths (store : σ) (m : TriplesMap) (top : m ∈ engine.mapping.topLevel) :
    ∃ growths : List Row → List Growth,
      (∀ first second, growths (first ++ second) = growths first ++ growths second) ∧
      (∀ table, ∀ g ∈ growths table, g.Closed start) ∧
      ∀ table, Adds start (engine.runNamed engine.mapping.maps m.iri m.iri (.table table) root)
        (Growth.total start (growths table)) := by
  have hm := mem_of_mem_topLevel top
  have nested : Nested engine.mapping.maps engine.mapping.maps [] m.iri := .start ⟨m, hm, rfl⟩
  have found : engine.mapping.maps.find? (·.iri == m.iri) = some m := find?_of_mem distinct hm
  cases has : m.logicalSource with
  | none =>
    refine ⟨fun _ => [], fun _ _ => rfl, by simp, fun table => ?_⟩
    rw [runNamed_of_found found]
    simp only [runMap, has]
    exact adds_pure _
  | some source =>
    have live : m.isInert = false := by simp [TriplesMap.isInert, has]
    let apply := applyRow engine.config (engine.runNamed (others engine.mapping.maps m.iri) m.iri) m
      root
    have twins (row : Row) (base : Nat) :
        Twins start base 0 (fun k => Option.Rel (Term.Twin start base k)) (apply (.row row))
          (apply (.row row)) := by
      refine twins_row rows undrawn hm live (.top top) (fun parent hp ctx beneath k => ?_) 0
      have below := nested.next valid found hp
      exact twins_runNamed valid distinct rows undrawn below beneath row base k
    have each (row : Row) : ∃ g : Growth, g.Closed start ∧ Adds start (apply (.row row)) g :=
      exists_growth store (twins row)
    choose growth closed adds using each
    refine ⟨fun table => table.map growth, fun _ _ => List.map_append, ?_, fun table => ?_⟩
    · intro table g hg
      obtain ⟨row, _, rfl⟩ := List.mem_map.mp hg
      exact closed row
    · rw [runNamed_of_found found,
        runMap_of_rows has ((rows m hm).rows source has) rfl fun _ _ => rfl]
      exact adds_applyRows adds table

/-- What the rows of a table make a run add: that of two tables is, in another order, that of
each. -/
theorem exists_runGrowths (store : σ) (ctx : Context) (same : engine.rootContext ctx = root) :
    ∃ growths : List Row → List Growth,
      (∀ first second, (growths first ++ growths second).Perm (growths (first ++ second))) ∧
      (∀ table, ∀ g ∈ growths table, g.Closed start) ∧
      ∀ table, Adds start (engine.run (.rows table) ctx) (Growth.total start (growths table)) := by
  choose! growths split closed adds using
    @exists_growths σ start engine valid distinct rows root undrawn store
  refine ⟨fun table => engine.mapping.topLevel.flatMap fun m => growths m table, ?_, ?_, ?_⟩
  · intro first second
    have splits : (engine.mapping.topLevel.flatMap fun m => growths m (first ++ second)) =
        engine.mapping.topLevel.flatMap fun m => growths m first ++ growths m second :=
      List.flatMap_congr fun m top => split m top first second
    dsimp only
    rw [splits]
    exact List.flatMap_append_perm _ _ _
  · intro table g hg
    obtain ⟨m, top, hg⟩ := List.mem_flatMap.mp hg
    exact closed m top table g hg
  · intro table
    exact adds_runEach fun m top => same ▸ adds m top table

end Maps

/-- A run on the rows of a table, one after the other, from a state in which nothing has run. -/
def runTable (engine : Engine σ) (ctx : Context) (store : σ) (table : List Row) :
    Except MappingError (List Term) × RunState σ :=
  outcome (engine.run (.rows table) ctx) (Engine.start engine.config store)

theorem runTable_of_adds {engine : Engine σ} {ctx : Context} {table : List Row} {g : Growth}
    (adds : Adds engine.config.blankPrefix (engine.run (.rows table) ctx) g) (store : σ) :
    ∃ subjects, engine.runTable ctx store table =
      (.ok subjects, (Engine.start engine.config store).grow g) := by
  obtain ⟨subjects, yields⟩ := adds 0
  rw [Growth.placed_nought] at yields
  exact ⟨subjects, yields _ rfl rfl⟩

theorem triples_grow_start (config : Config) (store : σ) (g : Growth) :
    ((Engine.start config store).grow g).graph.triples = g.added := rfl

theorem minted_grow_start (config : Config) (store : σ) (g : Growth) :
    ((Engine.start config store).grow g).blanks.minted =
      (List.range g.minted).map (label config.blankPrefix) := by
  simp [RunState.grow, Engine.start, BlankNodes.minted]

theorem mem_minted_of_closed {config : Config} (store : σ) {g : Growth}
    (closed : g.Closed config.blankPrefix) {x : Triple} (hx : x ∈ g.added) {l : String}
    (mentioned : x.mentions (.blank l)) :
    l ∈ ((Engine.start config store).grow g).blanks.minted := by
  rw [minted_grow_start, List.mem_map]
  have below := closed x hx
  have node : x.subject = .blank l ∨ x.object = .blank l := by
    simpa [Triple.mentions] using mentioned
  have numbered : ∃ i < g.minted, l = label config.blankPrefix i :=
    node.elim (below.1 l) (below.2 l)
  obtain ⟨i, hi, rfl⟩ := numbered
  exact ⟨i, List.mem_range.mpr hi, rfl⟩

/-- Where maps work on the rows of tables only, know no blank nodes, give none to values, link none
to parents and look up no generator, a run on the rows of two tables makes the statements that a
run on each makes: the nodes that the two runs mint stand for those that the whole run mints, each
for one. -/
theorem appended_tables_run_apart {engine : Engine σ} {rules : List TriplesMap}
    (compiled : compile rules = .ok engine.mapping)
    (rows : ∀ m ∈ engine.mapping.maps, m.RowsOnly) {ctx : Context}
    (undrawn : engine.mapping.Undrawn (engine.rootContext ctx)) (store : σ)
    (first second : List Row) :
    let one := (engine.runTable ctx store first).2
    let two := (engine.runTable ctx store second).2
    let both := (engine.runTable ctx store (first ++ second)).2
    (∀ table, ∃ subjects, (engine.runTable ctx store table).1 = .ok subjects) ∧
    (∀ table, let s := (engine.runTable ctx store table).2
      s.blanks.minted.Nodup ∧
      ∀ x ∈ s.graph.triples, ∀ l, x.mentions (.blank l) → l ∈ s.blanks.minted) ∧
    both.stats.rows = one.stats.rows + two.stats.rows ∧
    both.stats.skipped = one.stats.skipped + two.stats.skipped ∧
    ∃ f g : String → String,
      (one.blanks.minted.map f ++ two.blanks.minted.map g).Perm both.blanks.minted ∧
      (one.graph.triples.map (Triple.mapNodes (Term.renameBlank f)) ++
        two.graph.triples.map (Triple.mapNodes (Term.renameBlank g))).Perm both.graph.triples := by
  intro one two both
  obtain ⟨growths, perm, closed, adds⟩ := exists_runGrowths (valid_of_compile compiled)
    (distinct_of_compile compiled) rows undrawn store ctx rfl
  let whole (table : List Row) : Growth := .total engine.config.blankPrefix (growths table)
  have after (table : List Row) : (engine.runTable ctx store table).2 =
      (Engine.start engine.config store).grow (whole table) := by
    obtain ⟨_, same⟩ := runTable_of_adds (adds table) store
    rw [same]
  have parts : ∀ g ∈ growths first ++ growths second, g.Closed engine.config.blankPrefix := by
    intro g hg
    exact (List.mem_append.mp hg).elim (closed first g) (closed second g)
  obtain ⟨number, renumbered⟩ := Growth.total_perm (perm first second) parts
  rw [Growth.total_append] at renumbered
  have rowsSum : (whole first).rows + (whole second).rows = (whole (first ++ second)).rows :=
    renumbered.rows
  have skippedSum : (whole first).skipped + (whole second).skipped =
      (whole (first ++ second)).skipped := renumbered.skipped
  refine ⟨?_, ?_, ?_, ?_, relabel engine.config.blankPrefix number,
    relabel engine.config.blankPrefix fun i => number ((whole first).minted + i), ?_, ?_⟩
  · intro table
    obtain ⟨subjects, same⟩ := runTable_of_adds (adds table) store
    exact ⟨subjects, by rw [same]⟩
  · intro table
    refine ⟨nodup_minted _, fun x hx l mentioned => ?_⟩
    rw [after] at hx ⊢
    exact mem_minted_of_closed store (Growth.closed_total (closed table)) hx mentioned
  · simp only [one, two, both, after]
    simpa [RunState.grow, Engine.start] using rowsSum.symm
  · simp only [one, two, both, after]
    simpa [RunState.grow, Engine.start] using skippedSum.symm
  · simp only [one, two, both, after, minted_grow_start]
    exact renumbered.labels_of_followedBy
  · simp only [one, two, both, after, triples_grow_start]
    exact renumbered.added_of_followedBy

/-- Works whose titles stand behind nodes of their own, and agents without names. -/
def library : Engine Unit where
  mapping := { maps := [
    { iri := "works"
      logicalSource := some { formulation := .rows }
      subjectMap := some { term := some (.template "work/\x7bid\x7d"), classes := ["Work"] }
      predicateObjectMaps := [
        { predicate := "title", object := .reference "title", subEntityClass := some "Title" },
        { predicate := "by", object := .parent "agents" }] },
    { iri := "agents"
      logicalSource := some { formulation := .rows }
      subjectMap := some { term := some .blank }
      predicateObjectMaps := [{ predicate := "born", object := .reference "born" }] }] }

theorem library_rowsOnly : ∀ m ∈ library.mapping.maps, m.RowsOnly := by
  intro m hm
  simp only [library, List.mem_cons, List.not_mem_nil, or_false] at hm
  rcases hm with rfl | rfl
  · refine ⟨by rintro _ ⟨⟩; rfl, by rintro _ _ ⟨⟩ _ _; simp, by rintro _ ⟨⟩ ⟨⟩, ?_⟩
    intro pom hp
    simp only [List.mem_cons, List.not_mem_nil, or_false] at hp
    rcases hp with rfl | rfl <;> exact ⟨rfl, by simp, by simp, by simp⟩
  · refine ⟨by rintro _ ⟨⟩; rfl, by rintro _ _ ⟨⟩ _ _; simp, by rintro _ ⟨⟩ _; rfl, ?_⟩
    intro pom hp
    obtain rfl := List.mem_singleton.mp hp
    exact ⟨rfl, by simp, by simp, by simp⟩

theorem library_undrawn : library.mapping.Undrawn (library.rootContext .empty) := by
  have holes : ∀ m ∈ library.mapping.maps, ∀ name ∈ m.holes, name = "id" := by decide +kernel
  have free : Entries.get? "id" (library.rootContext .empty) = none := by
    simp [rootContext, Config.context, library, Context.merged, Context.set, Context.empty,
      Entries.insertAll, Entries.get?_insert, Entries.get?]
  rintro m hm _ name hn ⟨g, drawn⟩
  rw [holes m hm name hn, free] at drawn
  cases drawn

/-- A table of one work. -/
def oneWork (id title born : String) : List Row :=
  [{ header := ["id", "title", "born"], values := [id, title, born] }]

theorem library_tables_run_apart :
    compile library.mapping.maps = .ok library.mapping ∧
    let one := (library.runTable .empty () (oneWork "1" "Moby Dick" "1819")).2
    let two := (library.runTable .empty () (oneWork "2" "Walden" "1817")).2
    let both := (library.runTable .empty ()
      (oneWork "1" "Moby Dick" "1819" ++ oneWork "2" "Walden" "1817")).2
    one.blanks.minted = ["b0", "b1"] ∧ both.stats.rows = one.stats.rows + two.stats.rows ∧
    ∃ f g : String → String,
      (one.blanks.minted.map f ++ two.blanks.minted.map g).Perm both.blanks.minted ∧
      (one.graph.triples.map (Triple.mapNodes (Term.renameBlank f)) ++
        two.graph.triples.map (Triple.mapNodes (Term.renameBlank g))).Perm
        both.graph.triples := by
  have compiled : compile library.mapping.maps = .ok library.mapping := by decide +kernel
  obtain ⟨_, _, rows, _, apart⟩ := appended_tables_run_apart compiled library_rowsOnly
    library_undrawn () (oneWork "1" "Moby Dick" "1819") (oneWork "2" "Walden" "1817")
  exact ⟨compiled, by decide +kernel, rows, apart⟩

end Engine
end CatalogGraph
