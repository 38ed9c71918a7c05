import CatalogGraph.Graph.Basic
import CatalogGraph.Proofs.FirstOccurrences
import Mathlib.Data.List.Induction
import Mathlib.Data.List.Nodup

/-!
Statements of a graph: which are kept when repeats are dropped, and which terms are subjects of a
class.
-/
namespace CatalogGraph.Graph

theorem mem_retainUnique {g : Graph} {t : Triple} : t ∈ g.retainUnique.triples ↔ t ∈ g.triples :=
  List.mem_eraseDups

theorem nodup_retainUnique (g : Graph) : g.retainUnique.triples.Nodup :=
  nodup_eraseDups g.triples

theorem firstOccurrences_concat (terms : List Term) (term : Term) :
    firstOccurrences (terms ++ [term]) =
      if (firstOccurrences terms).contains term then firstOccurrences terms
      else firstOccurrences terms ++ [term] := by
  simp [firstOccurrences]

theorem mem_firstOccurrences {terms : List Term} {term : Term} :
    term ∈ firstOccurrences terms ↔ term ∈ terms := by
  induction terms using List.reverseRecOn with
  | nil => simp [firstOccurrences]
  | append_singleton terms last ih =>
    rw [firstOccurrences_concat, List.mem_append, List.mem_singleton, ← ih]
    split
    next known =>
      refine ⟨.inl, ?_⟩
      rintro (hm | rfl)
      · exact hm
      · simpa using known
    next => simp

theorem nodup_firstOccurrences (terms : List Term) : (firstOccurrences terms).Nodup := by
  induction terms using List.reverseRecOn with
  | nil => simp [firstOccurrences]
  | append_singleton terms last ih =>
    rw [firstOccurrences_concat]
    split
    next => exact ih
    next fresh =>
      rw [List.nodup_append]
      refine ⟨ih, by simp, ?_⟩
      rintro a ha b hb rfl
      obtain rfl : a = last := by simpa using hb
      exact fresh (by simpa using ha)

theorem mem_subjectsWithType {g : Graph} {cls : String} {term : Term} :
    term ∈ g.subjectsWithType cls ↔ ⟨term, .iri Vocabulary.rdfType, .iri cls⟩ ∈ g.triples := by
  unfold subjectsWithType
  rw [mem_firstOccurrences, List.mem_map]
  constructor
  · rintro ⟨⟨subject, predicate, object⟩, hm, rfl⟩
    simp only [List.mem_filter, Bool.and_eq_true, beq_iff_eq] at hm
    obtain ⟨hm, rfl, rfl⟩ := hm
    exact hm
  · intro hm
    exact ⟨_, List.mem_filter.mpr ⟨hm, by simp⟩, rfl⟩

end CatalogGraph.Graph
