import CatalogGraph.Proofs.RuleDocuments
import Mathlib.Data.Fin.VecNotation
import Mathlib.Data.List.Perm.Basic
import Mathlib.Data.List.Sort

/-!
Interleaved rules: what is extracted from a graph does not depend on how statements about different
nodes are mixed, but for the order of the maps. A map is read from what is stated of each node in
order, and that stays the same.
-/
namespace CatalogGraph.Rules

/-- The same statements at other places, at which statements about one node stay in order. -/
def Reordered (statements other : List Triple) : Prop :=
  ∃ place : Fin statements.length ≃ Fin other.length, (∀ i, other[place i] = statements[i]) ∧
    ∀ i j, i < j → statements[i].subject = statements[j].subject → place i < place j

section Places
variable {statements other : List Triple}

/-- The places of the statements about a node. -/
def placesOf (statements : List Triple) (node : Term) : List (Fin statements.length) :=
  (List.finRange statements.length).filter fun i => statements[i].subject == node

theorem map_placesOf (statements : List Triple) (node : Term) :
    (placesOf statements node).map (statements[·]) =
      statements.filter (·.subject == node) := by
  conv_rhs => rw [← List.map_getElem_finRange statements, List.filter_map]
  rfl

theorem ascending_placesOf (statements : List Triple) (node : Term) :
    (placesOf statements node).Pairwise (· < ·) :=
  (List.sortedLT_finRange _).pairwise.filter _

theorem Reordered.filter_eq (reordered : Reordered statements other) (node : Term) :
    statements.filter (·.subject == node) = other.filter (·.subject == node) := by
  obtain ⟨place, same, ordered⟩ := reordered
  have moved : (placesOf statements node).map place = placesOf other node := by
    refine List.Pairwise.eq_of_mem_iff (r := (· < ·)) ?_ (ascending_placesOf other node) ?_
    · rw [List.pairwise_map]
      refine (ascending_placesOf statements node).imp_of_mem fun {i j} hi hj before => ?_
      have first : statements[i].subject = node := by simpa [placesOf] using hi
      have second : statements[j].subject = node := by simpa [placesOf] using hj
      exact ordered i j before (first.trans second.symm)
    · intro j
      obtain ⟨i, rfl⟩ := place.surjective j
      have here : other[(place i).val] = statements[i.val] := same i
      rw [List.mem_map_of_injective place.injective]
      simp [placesOf, here]
  rw [← map_placesOf, ← map_placesOf, ← moved, List.map_map]
  exact List.map_congr_left fun i _ => (same i).symm

end Places

section Reading
variable {g other : Graph}

theorem objectMapOf_congr (alike : statementsOf g = statementsOf other) :
    objectMapOf g = objectMapOf other := by
  funext node
  simp only [objectMapOf, additionalTriplesOf, alike]

/-- Of a graph nothing counts for a map but what is stated of each node. -/
theorem triplesMapOf_congr (alike : statementsOf g = statementsOf other) :
    triplesMapOf g = triplesMapOf other := by
  funext iri
  simp only [triplesMapOf, logicalSourceOf, subjectMapOf, predicateObjectMapsOf, predicatesOf,
    objectMapsOf, objectMapOf_congr alike, alike]

theorem mem_triples_iff (alike : statementsOf g = statementsOf other) (t : Triple) :
    t ∈ g.triples ↔ t ∈ other.triples := by
  have stated (g : Graph) : t ∈ g.triples ↔ t ∈ statementsOf g t.subject := by
    simp [statementsOf]
  rw [stated, stated, alike]

/-- The same names are marked as maps, each once. -/
theorem mapNames_perm (alike : statementsOf g = statementsOf other) :
    (mapNames g).Perm (mapNames other) := by
  rw [mapNames_eq, mapNames_eq, List.perm_ext_iff_of_nodup (nodup_eraseDups _) (nodup_eraseDups _)]
  intro name
  simp only [List.mem_eraseDups, List.mem_filterMap, mem_triples_iff alike]

end Reading

section Collecting
variable {ε α β : Type} {k : α → Except ε β} {xs xs' : List α} {ys : List β}

theorem mapM_of_forall₂ (each : List.Forall₂ (fun x y => k x = .ok y) xs ys) :
    xs.mapM k = .ok ys := by
  induction each with
  | nil => rfl
  | cons first _ ih =>
    rw [List.mapM_cons, first, ih]
    rfl

/-- Values that are found one after another are found in any order. -/
theorem mapM_of_perm (perm : xs'.Perm xs) (given : xs.mapM k = .ok ys) :
    ∃ ys', xs'.mapM k = .ok ys' ∧ ys'.Perm ys := by
  obtain ⟨ys', each, perm⟩ := List.perm_comp_forall₂ perm (forall₂_of_mapM given)
  exact ⟨ys', mapM_of_forall₂ each, perm⟩

end Collecting

theorem extract_of_alike {g other : Graph} (alike : statementsOf g = statementsOf other)
    {maps : List TriplesMap} (given : extract g = .ok maps) :
    ∃ maps', extract other = .ok maps' ∧ maps'.Perm maps := by
  rw [extract, triplesMapOf_congr alike] at given
  exact mapM_of_perm (mapNames_perm alike.symm) given

/-- Graphs whose statements are mixed in different ways, but are in the same order for each node,
describe the same maps: each map is read alike, faults included, all maps are read from one graph
exactly if they are from the other one, and then they are the same up to their order. -/
theorem reordered_give_same_maps {g other : Graph}
    (reordered : Reordered g.triples other.triples) :
    (∀ iri, triplesMapOf g iri = triplesMapOf other iri) ∧
    ((∃ maps, extract g = .ok maps) ↔ ∃ maps, extract other = .ok maps) ∧
    ∀ maps maps', extract g = .ok maps → extract other = .ok maps' → maps'.Perm maps := by
  have alike : statementsOf g = statementsOf other := funext reordered.filter_eq
  refine ⟨congrFun (triplesMapOf_congr alike), ⟨?_, ?_⟩, fun maps maps' given given' => ?_⟩
  · rintro ⟨maps, given⟩
    obtain ⟨maps', given', -⟩ := extract_of_alike alike given
    exact ⟨maps', given'⟩
  · rintro ⟨maps, given⟩
    obtain ⟨maps', given', -⟩ := extract_of_alike alike.symm given
    exact ⟨maps', given'⟩
  · obtain ⟨_, again, perm⟩ := extract_of_alike alike given
    rw [given'] at again
    cases again
    exact perm

/-- Two maps, one after the other, and then the objects of the first one. -/
def works : Graph where
  triples :=
    [⟨.iri "m:works", .iri Vocabulary.subject, .iri "s:work"⟩,
      ⟨.iri "m:shelves", .iri Vocabulary.subject, .iri "s:shelf"⟩,
      ⟨.iri "m:works", .iri Vocabulary.predicateObjectMap, .blank "on"⟩,
      ⟨.blank "on", .iri Vocabulary.predicate, .iri "p:on"⟩,
      ⟨.blank "on", .iri Vocabulary.object, .iri "s:shelf"⟩]

/-- The same statements, those about the objects around the other ones. -/
def mixedWorks : Graph where
  triples :=
    [⟨.blank "on", .iri Vocabulary.predicate, .iri "p:on"⟩,
      ⟨.iri "m:shelves", .iri Vocabulary.subject, .iri "s:shelf"⟩,
      ⟨.iri "m:works", .iri Vocabulary.subject, .iri "s:work"⟩,
      ⟨.blank "on", .iri Vocabulary.object, .iri "s:shelf"⟩,
      ⟨.iri "m:works", .iri Vocabulary.predicateObjectMap, .blank "on"⟩]

/-- The places to which the statements have gone. -/
def mixedPlaces : Fin 5 ≃ Fin 5 where
  toFun := ![2, 1, 4, 0, 3]
  invFun := ![3, 1, 0, 4, 2]
  left_inv := by unfold Function.LeftInverse; decide
  right_inv := by unfold Function.RightInverse Function.LeftInverse; decide

def worksMap : TriplesMap :=
  { iri := "m:works"
    subjectMap := some { term := some (.constant "s:work") }
    predicateObjectMaps := [{ predicate := "p:on", object := .constant (.iri "s:shelf") }] }

def shelvesMap : TriplesMap :=
  { iri := "m:shelves", subjectMap := some { term := some (.constant "s:shelf") } }

theorem mixedWorks_give_same_maps :
    Reordered works.triples mixedWorks.triples ∧
    extract works = .ok [worksMap, shelvesMap] ∧
    extract mixedWorks = .ok [shelvesMap, worksMap] ∧
    [shelvesMap, worksMap].Perm [worksMap, shelvesMap] := by
  have reordered : Reordered works.triples mixedWorks.triples :=
    ⟨mixedPlaces, by decide +kernel, by decide +kernel⟩
  have given : extract works = .ok [worksMap, shelvesMap] := by decide +kernel
  have given' : extract mixedWorks = .ok [shelvesMap, worksMap] := by decide +kernel
  exact ⟨reordered, given, given', (reordered_give_same_maps reordered).2.2 _ _ given given'⟩

end CatalogGraph.Rules
