import CatalogGraph.Proofs.CompiledMaps
import Mathlib.Order.WellFoundedSet

/-!
Top-level maps: the maps of a compiled mapping that no other one has as parent. Since no parents
form a cycle, climbing from a map to the maps that link to it ends at a top-level one, so that
running these reaches every map.
-/
namespace CatalogGraph.Mapping
variable {rules maps : List TriplesMap} {mapping : Mapping} {m : TriplesMap}

theorem mem_topLevel_iff : m ∈ mapping.topLevel ↔
    m ∈ mapping.maps ∧ ∀ child ∈ mapping.maps, m.iri ∉ child.parentRefs := by
  simp [topLevel, isParentOnly]

theorem retained_sublist (rules : List TriplesMap) : (retained rules).Sublist rules := by
  induction rules using List.reverseRecOn with
  | nil => exact .slnil
  | append_singleton rules last ih =>
    rw [retained_concat]
    split
    next => exact ih.trans (List.sublist_append_left rules [last])
    next => exact ih.append (.refl _)

/-- Among finitely many maps without cycles every climb to maps that link to a map ends. -/
theorem Acyclic.wellFoundedOn (acyclic : Acyclic maps) :
    {iri | iri ∈ maps.map (·.iri)}.WellFoundedOn (Relation.TransGen (Refers maps)) := by
  have : IsStrictOrder String (Relation.TransGen (Refers maps)) :=
    { irrefl := acyclic
      trans := fun _ _ _ => .trans }
  exact Set.Finite.wellFoundedOn (List.finite_toSet (maps.map (·.iri)))

/-- To each map a chain of parents leads from a top-level one. -/
theorem exists_topLevel (acyclic : Acyclic mapping.maps) (hm : m ∈ mapping.maps) :
    ∃ top ∈ mapping.topLevel, Relation.ReflTransGen (Refers mapping.maps) top.iri m.iri := by
  refine acyclic.wellFoundedOn.induction (P := fun iri => ∃ top ∈ mapping.topLevel,
    Relation.ReflTransGen (Refers mapping.maps) top.iri iri) (List.mem_map_of_mem hm) ?_
  intro iri named ih
  obtain ⟨m, hm, rfl⟩ := List.mem_map.mp named
  by_cases linked : ∃ child ∈ mapping.maps, m.iri ∈ child.parentRefs
  · obtain ⟨child, hc, link⟩ := linked
    have refers : Refers mapping.maps child.iri m.iri := ⟨child, hc, rfl, link⟩
    obtain ⟨top, ht, chain⟩ := ih child.iri (List.mem_map_of_mem hc) (.single refers)
    exact ⟨top, ht, chain.tail refers⟩
  · have unlinked : ∀ child ∈ mapping.maps, m.iri ∉ child.parentRefs :=
      fun child hc link => linked ⟨child, hc, link⟩
    exact ⟨m, mem_topLevel_iff.mpr ⟨hm, unlinked⟩, .refl⟩

/-- Every map of a compiled mapping is a top-level one, or a chain of parents leads to it from a
top-level one. The top-level maps are those that no map has as parent, each once and in the order of
declaration, where of the definitions of a name only the first one counts. -/
theorem topLevel_leads_to_all (compiled : compile rules = .ok mapping) :
    (∀ m ∈ mapping.maps, m ∈ mapping.topLevel ∨
      ∃ top ∈ mapping.topLevel, Relation.TransGen (Refers mapping.maps) top.iri m.iri) ∧
    (∀ m, m ∈ mapping.topLevel ↔
      m ∈ mapping.maps ∧ ∀ child ∈ mapping.maps, m.iri ∉ child.parentRefs) ∧
    (∀ m, m ∈ mapping.maps ↔ rules.find? (·.iri == m.iri) = some m) ∧
    mapping.topLevel.Sublist mapping.maps ∧ mapping.maps.Sublist rules ∧
    (mapping.topLevel.map (·.iri)).Nodup := by
  have distinct := distinct_of_compile compiled
  have ordered : mapping.topLevel.Sublist mapping.maps := List.filter_sublist
  refine ⟨fun m hm => ?_, fun m => mem_topLevel_iff, fun m => ?_, ordered, ?_,
    distinct.sublist (ordered.map _)⟩
  · obtain ⟨top, ht, chain⟩ := exists_topLevel (valid_of_compile compiled).acyclic hm
    rcases Relation.reflTransGen_iff_eq_or_transGen.mp chain with same | chain
    · have top_eq := find?_of_mem distinct (mem_topLevel_iff.mp ht).1
      rw [← same, find?_of_mem distinct hm] at top_eq
      exact .inl (Option.some.inj top_eq ▸ ht)
    · exact .inr ⟨top, ht, chain⟩
  · rw [maps_of_compile compiled]
    exact mem_retained_iff
  · rw [maps_of_compile compiled]
    exact retained_sublist rules

/-- Works link to agents and agents to places; a second definition of places, which links back to
works, comes too late. -/
def linkedRules : List TriplesMap :=
  [{ iri := "places" },
    { iri := "works", predicateObjectMaps := [{ predicate := "by", object := .parent "agents" }] },
    { iri := "agents", predicateObjectMaps := [{ predicate := "in", object := .parent "places" }] },
    { iri := "places", predicateObjectMaps := [{ predicate := "of", object := .parent "works" }] },
    { iri := "shelves" }]

/-- The maps that count. -/
def linkedMaps : Mapping := { maps := linkedRules.eraseIdx 3 }

theorem linkedMaps_led_from_works :
    compile linkedRules = .ok linkedMaps ∧
    linkedMaps.topLevel.map (·.iri) = ["works", "shelves"] ∧
    ∃ top ∈ linkedMaps.topLevel, Relation.TransGen (Refers linkedMaps.maps) top.iri "places" := by
  have compiled : compile linkedRules = .ok linkedMaps := by decide +kernel
  have names : linkedMaps.topLevel.map (·.iri) = ["works", "shelves"] := by decide +kernel
  refine ⟨compiled, names, ?_⟩
  rcases (topLevel_leads_to_all compiled).1 { iri := "places" } (by decide +kernel) with top | led
  · have listed : "places" ∈ linkedMaps.topLevel.map (·.iri) := List.mem_map_of_mem top
    simp [names] at listed
  · exact led

end CatalogGraph.Mapping
