import CatalogGraph.Proofs.NodeOrigins

/-!
Blank nodes from elsewhere: the minted nodes of a graph are apart from those that are written in the
maps or given by the store as long as none of these has a label with a number that was given out.
-/
namespace CatalogGraph.Engine
open BlankNodes
variable {σ : Type}

section Maps
variable {engine : Engine σ} {store : σ}

theorem givesForeign_of_no_row {node : Node} (none : node.binding? = none) :
    GivesForeign engine store node := by
  intro row _ _ _ found
  rw [none] at found
  cases found

theorem traces_applyRows {apply : Node → Run σ (Option Term)} {nodes : List Node}
    (row : ∀ node ∈ nodes, Traces engine store (fun _ => True) (apply node)
      (KnownSubject engine store)) :
    Traces engine store (fun _ => True) (applyRows apply nodes) (KnownSubjects engine store) := by
  induction nodes with
  | nil => exact traces_pure fun _ _ _ none => by cases none
  | cons node rest ih =>
    refine traces_bind (fun _ => id) (row node (by simp)) fun subject => ?_
    have later := ih fun node hn => row node (by simp [hn])
    refine traces_bind (fun onward known =>
      ⟨trivial, fun t same => (known.2 t same).onward onward⟩) later.anywhere fun more => ?_
    refine traces_pure fun s known t ht => ?_
    rcases List.mem_append.mp ht with ht | ht
    · exact known.1.2 t (Option.mem_toList.mp ht)
    · exact known.2 t ht

/-- The rows of a query give blank nodes from elsewhere. -/
theorem traces_queryPage {service : TripleStore σ} (asked : engine.store = some service)
    (query : String) (ctx : Context) :
    Traces engine store (fun _ => True) (queryPage service query ctx) fun rows _ =>
      ∀ row ∈ rows, GivesForeign engine store (.binding row) := by
  have asks : Asks (tracing engine store) (some service) := asked ▸ asks_tracing
  intro s traced _
  obtain ⟨traced', onward⟩ := (within_queryPage asks query ctx s).1 traced
  refine ⟨traced', onward, ?_⟩
  intro rows answered row hr given name value l same found node
  cases same
  obtain ⟨text, answer⟩ := store_of_queryPage (Prod.ext answered rfl)
  exact .answered asked traced.later (congrArg Prod.fst answer) hr found node

theorem traces_queryPages {service : TripleStore σ} (asked : engine.store = some service)
    {config : Config} {apply : Node → Run σ (Option Term)}
    (row : ∀ node, GivesForeign engine store node →
      Traces engine store (fun _ => True) (apply node) (KnownSubject engine store))
    (m : TriplesMap) (query : String) (ctx : Context) (left offset : Nat) :
    Traces engine store (fun _ => True)
      (queryPages config service apply m query ctx left offset) (KnownSubjects engine store) := by
  induction left generalizing offset with
  | zero => exact traces_throw
  | succ left ih =>
    refine traces_bind (fun _ => id) (traces_queryPage asked query _) fun rows => ?_
    -- What the rows of the page give stays known while the rest of the pages is asked.
    have applied : Traces engine store
        (fun _ => True ∧ ∀ row ∈ rows, GivesForeign engine store (.binding row))
        (applyRows apply (rows.map .binding)) (KnownSubjects engine store) := by
      intro s traced known
      refine traces_applyRows (fun node hn => ?_) s traced trivial
      obtain ⟨r, hr, rfl⟩ := List.mem_map.mp hn
      exact row _ (known.2 r hr)
    refine traces_bind (fun _ => id) applied fun subjects => ?_
    split
    next => exact traces_pure fun s known => known.2
    next =>
      refine traces_bind (fun onward known =>
        ⟨known.1, fun t ht => (known.2 t ht).onward onward⟩) (ih _).anywhere fun more => ?_
      refine traces_pure fun s known t ht => ?_
      rcases List.mem_append.mp ht with ht | ht
      · exact known.1.2 t ht
      · exact known.2 t ht

/-- Only queries give rows that hold blank nodes. -/
theorem no_row_of_iterate {node : Node} {formulation : Formulation}
    {namespaces : Entries String} {iterator : Option String} {nodes : List Node}
    (accepted : node.accepts formulation) (other : formulation ≠ .sparql)
    (iterated : node.iterate namespaces iterator = .ok nodes) :
    ∀ row ∈ nodes, row.binding? = none := by
  have mapped {γ : Type} (xs : List γ) (f : γ → Node) (plain : ∀ x, (f x).binding? = none) :
      ∀ row ∈ xs.map f, row.binding? = none := by simp [plain]
  unfold Node.iterate at iterated
  split at iterated
  next document item =>
    split at iterated
    next =>
      cases iterated
      exact mapped [item] (.xml document) fun _ => rfl
    next text =>
      cases compiled : Node.compileXPath namespaces text with
      | error => simp [compiled] at iterated
      | ok path =>
        rw [compiled] at iterated
        cases iterated
        exact mapped _ _ fun _ => rfl
  next value =>
    split at iterated
    next =>
      cases iterated
      exact mapped _ _ fun _ => rfl
    next text =>
      cases compiled : Node.compileJsonPath text with
      | error => simp [compiled] at iterated
      | ok path =>
        rw [compiled] at iterated
        cases iterated
        exact mapped _ _ fun _ => rfl
  next =>
    cases iterated
    exact mapped _ _ fun _ => rfl
  next values =>
    cases iterated
    exact mapped [values] .row fun _ => rfl
  next => cases formulation <;> simp [Node.accepts] at accepted other
  next =>
    cases iterated
    simp

theorem traces_runMap {runParent : RunParent σ} {m : TriplesMap} (map : m ∈ engine.mapping.maps)
    (parents : ∀ iri node ctx, Traces engine store (fun _ => True) (runParent iri node ctx)
      (KnownSubjects engine store)) (node : Node) (ctx : Context) :
    Traces engine store (fun _ => True) (engine.runMap runParent m node ctx)
      (KnownSubjects engine store) := by
  have row (node : Node) (given : GivesForeign engine store node) :
      Traces engine store (fun _ => True) (applyRow engine.config runParent m ctx node)
        (KnownSubject engine store) :=
    traces_applyRow (fun iri ctx => parents iri node ctx) map given
  unfold runMap
  split
  next => exact traces_pure fun _ _ _ none => by cases none
  next source _ =>
    split
    next => exact traces_throw
    next accepted =>
      dsimp only
      split
      next =>
        split
        next => exact traces_throw
        next service asked =>
          split
          next => exact traces_throw
          next query _ => exact traces_queryPages asked row m query ctx _ _
      next other =>
        have iterates : Traces engine store (fun _ => True)
            (liftM (node.iterate engine.config.namespaces source.iterator)) fun nodes _ =>
              ∀ node ∈ nodes, node.binding? = none := by
          intro s traced _
          rw [outcome_lift]
          refine ⟨traced, fun _ => id, fun nodes iterated => ?_⟩
          exact no_row_of_iterate (by simpa using accepted) (fun same => other same) iterated
        refine traces_bind (fun _ => id) iterates fun nodes s traced known => ?_
        exact traces_applyRows (fun node hn => row node (givesForeign_of_no_row (known.2 node hn)))
          s traced trivial

theorem traces_runNamed {maps : List TriplesMap} (among : maps ⊆ engine.mapping.maps)
    (child iri : String) (node : Node) (ctx : Context) :
    Traces engine store (fun _ => True) (engine.runNamed maps child iri node ctx)
      (KnownSubjects engine store) := by
  induction hn : maps.length using Nat.strong_induction_on
    generalizing maps child iri node ctx with
  | _ n ih =>
    cases found : maps.find? (·.iri == iri) with
    | none =>
      rw [runNamed_of_missing found]
      exact traces_throw
    | some m =>
      rw [runNamed_of_found found]
      have shorter := Mapping.length_others_lt found
      have fewer : Mapping.others maps iri ⊆ engine.mapping.maps :=
        fun _ hm => among (List.mem_filter.mp hm).1
      refine traces_runMap (among (List.mem_of_find?_eq_some found)) (fun parent node ctx => ?_) _ _
      exact ih _ (hn ▸ shorter) fewer _ _ _ _ rfl

theorem traces_runEach {runOne : TriplesMap → Run σ (List Term)} (maps : List TriplesMap)
    (one : ∀ m, Traces engine store (fun _ => True) (runOne m) (KnownSubjects engine store)) :
    Traces engine store (fun _ => True) (runEach runOne maps) (KnownSubjects engine store) := by
  induction maps with
  | nil => exact traces_pure fun _ _ _ none => by cases none
  | cons m rest ih =>
    refine traces_bind (fun _ => id) (one m) fun subjects => ?_
    refine traces_bind (fun onward known =>
      ⟨trivial, fun t ht => (known.2 t ht).onward onward⟩) ih.anywhere fun more => ?_
    refine traces_pure fun s known t ht => ?_
    rcases List.mem_append.mp ht with ht | ht
    · exact known.1.2 t ht
    · exact known.2 t ht

theorem traces_perform (call : Call) :
    Traces engine store (fun _ => True) (engine.perform call) (KnownSubjects engine store) := by
  have named (m : TriplesMap) (node : Node) (ctx : Context) :
      Traces engine store (fun _ => True)
        (engine.runNamed engine.mapping.maps m.iri m.iri node ctx) (KnownSubjects engine store) :=
    traces_runNamed (List.Subset.refl _) m.iri m.iri node ctx
  cases call with
  | all source ctx => exact traces_runEach _ fun m => named m _ _
  | one iri node ctx =>
    unfold perform execute
    dsimp only
    split
    next => exact traces_throw
    next m _ => exact named m node ctx

theorem traced_start : Traced engine store (start engine.config store) where
  start := rfl
  later := .refl
  values _ _ none := by cases none
  graph _ none := by cases none

theorem traced_after (calls : List Call) {s : RunState σ} (traced : Traced engine store s) :
    Traced engine store (after engine calls s) := by
  induction calls generalizing s with
  | nil => exact traced
  | cons call rest ih => exact ih (traces_perform call s traced trivial).1

/-- However calls follow each other and end, every blank node of the graph is a minted one or comes
from elsewhere, and the minted ones have as many different labels as were given out. No minted node
is one from elsewhere exactly if no label from elsewhere is the start of labels with a number that
was given out. -/
theorem minted_apart_iff_unnumbered (engine : Engine σ) (store : σ) (calls : List Call) :
    let s := after engine calls (start engine.config store)
    (∀ x ∈ s.graph.triples, ∀ l, x.subject = .blank l ∨ x.object = .blank l →
      l ∈ s.blanks.minted ∨ Foreign engine store l) ∧
    s.blanks.minted.Nodup ∧ s.blanks.minted.length = s.blanks.next ∧
    ((∀ l ∈ s.blanks.minted, ¬ Foreign engine store l) ↔
      ∀ i < s.blanks.next, ¬ Foreign engine store (engine.config.blankPrefix ++ toString i)) := by
  intro s
  have traced : Traced engine store s := traced_after calls traced_start
  refine ⟨?_, nodup_minted _, by simp [minted], ?_⟩
  · intro x hx l mentioned
    obtain ⟨subject, object⟩ := traced.graph x hx
    rcases mentioned with same | same
    · exact subject l same
    · exact object l same
  · constructor
    · intro apart i hi
      exact apart _ (mem_minted.mpr ⟨i, hi, by rw [label, traced.start]⟩)
    · intro unnumbered l hl
      obtain ⟨i, hi, rfl⟩ := mem_minted.mp hl
      rw [label, traced.start]
      exact unnumbered i hi

end Maps

/-- Titles of works in a store, each behind a node of its own. -/
def titles : Engine (Scripted (List Binding) String) where
  mapping := { maps := [
    { iri := "works"
      logicalSource := some
        { formulation := .sparql, iterator := some "work", query := some "SELECT ?work ?title" }
      predicateObjectMaps := [{ predicate := "title", object := .reference "title"
                                subEntityClass := some "Title" }] }] }
  store := some .scripted

def workNode : BindingValue := { kind := "bnode", value := "b0" }

/-- The store gives a work that is a blank node. -/
def titlesStore : Scripted (List Binding) String :=
  { answers := [.ok [[("title", .literal "Moby Dick"), ("work", workNode)]]] }

/-- The node minted for the title is the node that the store gave for the work, which so becomes
the title of itself. -/
theorem work_becomes_its_title :
    Mapping.compile titles.mapping.maps = .ok titles.mapping ∧
    Foreign titles titlesStore "b0" ∧
    let s := after titles [.all .none .empty] (start titles.config titlesStore)
    "b0" ∈ s.blanks.minted ∧
    ⟨.blank "b0", .iri "title", .blank "b0"⟩ ∈ s.graph.triples := by
  have found : Entries.get? "work" [("title", .literal "Moby Dick"), ("work", workNode)] =
      some workNode := by decide
  have answer : (TripleStore.scripted.query "" titlesStore).1 =
      .ok [[("title", .literal "Moby Dick"), ("work", workNode)]] := rfl
  refine ⟨by decide +kernel, ?_, by decide +kernel, by decide +kernel⟩
  exact .answered rfl .refl answer (List.mem_singleton.mpr rfl) found rfl

section Clash

/-- Every row becomes a blank node, which is linked to the node of a label. -/
def linked (l : String) : TriplesMap where
  iri := "notes"
  logicalSource := some { formulation := .rows }
  subjectMap := some { term := some .blank }
  predicateObjectMaps := [{ predicate := "about", object := .constant (.blank l) }]

def notes (blankPrefix l : String) : Engine Unit where
  mapping := { maps := [linked l] }
  config := { blankPrefix }

theorem compile_notes (blankPrefix l : String) :
    Mapping.compile (notes blankPrefix l).mapping.maps = .ok (notes blankPrefix l).mapping := by
  with_unfolding_all rfl

/-- Rows mint as many nodes as there are, and link each to the node of the label. -/
theorem applyRows_linked (config : Config) (runParent : RunParent Unit) (l : String)
    (ctx : Context) (nodes : List Node) (s : RunState Unit) :
    let t := (outcome (applyRows (applyRow config runParent (linked l) ctx) nodes) s).2
    t.blanks.start = s.blanks.start ∧ t.blanks.next = s.blanks.next + nodes.length ∧
    t.graph.triples = s.graph.triples ++ (List.range' s.blanks.next nodes.length).map fun i =>
      ⟨.blank (label s.blanks.start i), .iri "about", .blank l⟩ := by
  induction nodes generalizing s with
  | nil => simp [applyRows]
  | cons node rest ih =>
    obtain ⟨r, t, row, blanks, graph⟩ : ∃ r t,
        outcome (applyRow config runParent (linked l) ctx node) s = (.ok r, t) ∧
        t.blanks = s.blanks.fresh.2 ∧
        t.graph = s.graph.addAll [⟨s.blanks.fresh.1, .iri "about", .blank l⟩] :=
      ⟨_, _, rfl, rfl, rfl⟩
    have more : (outcome (applyRows (applyRow config runParent (linked l) ctx) (node :: rest)) s).2 =
        (outcome (applyRows (applyRow config runParent (linked l) ctx) rest) t).2 := by
      rw [applyRows, outcome_bind_ok row, outcome_bind]
      rcases outcome (applyRows (applyRow config runParent (linked l) ctx) rest) t with ⟨_ | _, _⟩ <;>
        rfl
    obtain ⟨first, next, all⟩ := ih t
    rw [more]
    refine ⟨by simp [first, blanks, fresh], ?_, ?_⟩
    · simp [next, blanks, fresh]
      omega
    · simp [all, blanks, graph, fresh, Graph.addAll, label, List.range'_succ]

/-- A table with `n` rows makes `n` nodes, all linked to the node of the label. -/
theorem after_notes (blankPrefix l : String) (rows : List Row) :
    let s := after (notes blankPrefix l) [.one "notes" (.table rows) .empty]
      (start (notes blankPrefix l).config ())
    s.blanks.start = blankPrefix ∧ s.blanks.next = rows.length ∧
    s.graph.triples = (List.range rows.length).map fun i =>
      ⟨.blank (label blankPrefix i), .iri "about", .blank l⟩ := by
  intro s
  have found : (notes blankPrefix l).mapping.maps.find? (·.iri == "notes") = some (linked l) := rfl
  have run : s = (outcome (applyRows (applyRow (notes blankPrefix l).config
      ((notes blankPrefix l).runNamed [] "notes") (linked l) .empty) (rows.map .row))
        (start (notes blankPrefix l).config ())).2 := by
    change (outcome ((notes blankPrefix l).runNamed _ "notes" "notes" _ _) _).2 = _
    rw [runNamed_of_found found]
    rfl
  have rowsLinked := applyRows_linked (notes blankPrefix l).config
    ((notes blankPrefix l).runNamed [] "notes") l .empty (rows.map .row)
    (start (notes blankPrefix l).config ())
  rw [← run] at rowsLinked
  simpa [start, notes, List.range_eq_range'] using rowsLinked

/-- A label from elsewhere can be minted again exactly if it is the start of labels with a number
behind it. -/
theorem clashes_iff_numbered (blankPrefix l : String) :
    (∃ (engine : Engine Unit) (call : Call), engine.config.blankPrefix = blankPrefix ∧
      Mapping.compile engine.mapping.maps = .ok engine.mapping ∧ Foreign engine () l ∧
      let s := after engine [call] (start engine.config ())
      l ∈ s.blanks.minted ∧ ∃ x ∈ s.graph.triples, x.object = .blank l) ↔
    ∃ i : Nat, l = blankPrefix ++ toString i := by
  constructor
  · rintro ⟨engine, call, rfl, _, _, minted, _⟩
    obtain ⟨i, _, rfl⟩ := mem_minted.mp minted
    have traced : Traced engine () (after engine [call] (start engine.config ())) :=
      traced_after [call] traced_start
    exact ⟨i, by rw [label, traced.start]⟩
  · rintro ⟨i, rfl⟩
    obtain ⟨first, next, all⟩ := after_notes blankPrefix (label blankPrefix i)
      (List.replicate (i + 1) ⟨[], []⟩)
    have foreign : Foreign (notes blankPrefix (label blankPrefix i)) () (label blankPrefix i) :=
      .constant (List.mem_singleton.mpr rfl) (List.mem_singleton.mpr rfl) rfl
    refine ⟨notes blankPrefix (label blankPrefix i),
      .one "notes" (.table (List.replicate (i + 1) ⟨[], []⟩)) .empty, rfl, compile_notes _ _,
      foreign, mem_minted.mpr ⟨i, ?_, ?_⟩,
      ⟨.blank (label blankPrefix i), .iri "about", .blank (label blankPrefix i)⟩, ?_, rfl⟩
    · rw [next]
      simp
    · rw [first, label]
    · rw [all, List.mem_map]
      exact ⟨i, by simp, rfl⟩

end Clash

end CatalogGraph.Engine
