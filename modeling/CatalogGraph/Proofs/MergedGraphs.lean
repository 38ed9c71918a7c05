import CatalogGraph.Proofs.RecordSchedules
import CatalogGraph.Proofs.RuleDocuments
import CatalogGraph.Proofs.ScopedGraphs

/-!
Merged graphs: rule documents and records are merged in order, each under the scope of its place.
The whole has the statements of all graphs one after the other, in which nothing but blank nodes is
renamed and no two of them become one.
-/
namespace CatalogGraph
open CatalogGraph.Graph (mergePlaced scopedTerm)

namespace Rules

theorem mergeDocuments_eq (n : Nat) (g : Graph) (texts : List String) :
    mergeDocuments n g texts =
      (texts.mapM ofTurtle).map fun documents => mergePlaced "d" g (documents.zipIdx n) := by
  induction texts generalizing n g with
  | nil => rfl
  | cons text rest ih =>
    rw [mergeDocuments, List.mapM_cons]
    cases ofTurtle text with
    | error e => rfl
    | ok document =>
      change mergeDocuments (n + 1) _ rest = _
      rw [ih]
      cases rest.mapM ofTurtle <;> rfl

end Rules

namespace Harvest.RecordReport

/-- The graphs that records gave, each with the place of its record. -/
def placedGraphs (identifiers : List String) (outcomes : List (Nat × Outcome)) :
    List (Graph × Nat) :=
  identifiers.zipIdx.filterMap fun (_, place) =>
    match outcomes.lookup place with
    | some (.ok g) => some (g, place)
    | _ => none

theorem mergeInto_eq (whole : Graph) (graphs : List (Nat × Graph)) :
    mergeInto whole graphs = mergePlaced "r" whole (graphs.map Prod.swap) := by
  rw [mergeInto, mergePlaced, List.foldl_map]
  rfl

theorem graph_ofOutcomes (identifiers : List String) (outcomes : List (Nat × Outcome)) :
    (ofOutcomes identifiers outcomes).graph =
      mergePlaced "r" .empty (placedGraphs identifiers outcomes) := by
  let outcome (_ : String) (place : Nat) := (outcomes.lookup place).getD (.error .unfinished)
  have placed : (identifiers.zipIdx.filterMap (success? outcome)).map Prod.swap =
      placedGraphs identifiers outcomes := by
    rw [List.map_filterMap]
    refine List.filterMap_congr fun (identifier, place) _ => ?_
    cases given : outcomes.lookup place with
    | none => simp [success?, outcome, given]
    | some result => cases result <;> simp [success?, outcome, given]
  rw [← placed, ← mergeInto_eq]
  exact congrArg RecordReport.graph (foldl_record outcome identifiers.zipIdx {})

end Harvest.RecordReport

/-- Graphs that are merged one after another, each under the scope of its place, give all their
statements in order, with blank nodes as subjects and objects renamed. Nothing else is renamed, no
two terms of a graph become one, and no blank node of one graph becomes one of another. A prefix has
the namespace that the first graph with the prefix gives it. Documents are merged so in the order of
the texts, and records in the order of the identifiers, under the places that these have. -/
theorem merged_graphs_stay_apart (lead : String) :
    (∀ placed : List (Graph × Nat),
      (mergePlaced lead .empty placed).triples =
        (placed.flatMap fun x => x.1.triples.map (Triple.mapNodes (scopedTerm lead x.2))) ∧
      ∀ name, (mergePlaced lead .empty placed).prefixes.get? name =
        placed.findSome? fun x => x.1.prefixes.get? name) ∧
    (∀ n,
      (∀ label, scopedTerm lead n (.blank label) = .blank (lead ++ toString n ++ "_" ++ label)) ∧
      (∀ name, scopedTerm lead n (.iri name) = .iri name) ∧
      (∀ content, scopedTerm lead n (.literal content) = .literal content) ∧
      Function.Injective (scopedTerm lead n)) ∧
    (∀ m n a b, scopedTerm lead m (.blank a) = scopedTerm lead n (.blank b) ↔ m = n ∧ a = b) ∧
    (∀ texts, Rules.ofDocuments texts = (texts.mapM Rules.ofTurtle).map fun documents =>
      mergePlaced "d" .empty documents.zipIdx) ∧
    ∀ identifiers outcomes, (Harvest.RecordReport.ofOutcomes identifiers outcomes).graph =
      mergePlaced "r" .empty (Harvest.RecordReport.placedGraphs identifiers outcomes) := by
  refine ⟨fun placed => ⟨Graph.triples_mergePlaced lead .empty placed,
    Graph.get?_prefixes_mergePlaced lead .empty placed⟩,
    fun n => ⟨fun _ => rfl, fun _ => rfl, fun _ => rfl, Graph.scopedTerm_injective lead n⟩,
    fun m n a b => ⟨Graph.scopedTerm_blank_inj, ?_⟩, Rules.mergeDocuments_eq 0 {},
    Harvest.RecordReport.graph_ofOutcomes⟩
  rintro ⟨rfl, rfl⟩
  rfl

end CatalogGraph
