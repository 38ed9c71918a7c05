import CatalogGraph.Mapping.Compiled
import Mathlib.Data.List.Chain
import Mathlib.Logic.Relation

/-!
Chains of parents: the relation between a map and the maps that it links to, names from which every
path along parents ends, and the maps that a compilation retains.
-/
namespace CatalogGraph.Mapping

/-- A map named `child` links to `parent`. -/
def Refers (maps : List TriplesMap) (child parent : String) : Prop :=
  ∃ m ∈ maps, m.iri = child ∧ parent ∈ m.parentRefs

/-- No name is reached from itself along parents. -/
def Acyclic (maps : List TriplesMap) : Prop :=
  ∀ iri, ¬ Relation.TransGen (Refers maps) iri iri

/-- Every path along parents from a name ends. -/
def Grounded (maps : List TriplesMap) (iri : String) : Prop :=
  Acc (fun parent child => Refers maps child parent) iri

/-- A path along parents that ends where it starts and meets no other name twice. -/
structure IsCycle (maps : List TriplesMap) (path : List String) : Prop where
  length : 2 ≤ path.length
  closed : path.head? = path.getLast?
  chain : path.IsChain (Refers maps)
  distinct : path.dropLast.Nodup

theorem Grounded.not_transGen {maps : List TriplesMap} {iri : String}
    (grounded : Grounded maps iri) : ¬ Relation.TransGen (Refers maps) iri iri := by
  induction grounded with
  | intro iri _ ih =>
    intro loop
    obtain ⟨parent, step, back⟩ := Relation.TransGen.head'_iff.mp loop
    exact ih parent step (.tail' back step)

theorem Acyclic.of_grounded {maps : List TriplesMap}
    (grounded : ∀ m ∈ maps, Grounded maps m.iri) : Acyclic maps := by
  intro iri loop
  obtain ⟨_, ⟨m, hm, rfl, _⟩, _⟩ := Relation.TransGen.head'_iff.mp loop
  exact (grounded m hm).not_transGen loop

theorem transGen_of_chain {maps : List TriplesMap} {first last : String} {rest : List String}
    (chain : (first :: rest).IsChain (Refers maps)) (hl : rest.getLast? = some last) :
    Relation.TransGen (Refers maps) first last := by
  induction rest generalizing first with
  | nil => simp at hl
  | cons next rest ih =>
    obtain ⟨step, chain⟩ := List.isChain_cons_cons.mp chain
    cases rest with
    | nil =>
      obtain rfl : next = last := by simpa using hl
      exact .single step
    | cons other rest => exact .head step (ih chain (by simpa using hl))

theorem IsCycle.not_acyclic {maps : List TriplesMap} {path : List String}
    (cycle : IsCycle maps path) : ¬ Acyclic maps := by
  intro acyclic
  match path, cycle with
  | [], cycle => exact absurd cycle.length (by simp)
  | [_], cycle => exact absurd cycle.length (by simp)
  | first :: next :: rest, cycle =>
    have hl : (next :: rest).getLast? = some first := by simpa using cycle.closed.symm
    exact acyclic first (transGen_of_chain cycle.chain hl)

/-- Along a chain without cycles no name comes twice. -/
theorem Acyclic.nodup_of_chain {maps : List TriplesMap} (acyclic : Acyclic maps)
    {names : List String} (chain : names.IsChain (Refers maps)) : names.Nodup := by
  have reach : names.IsChain (Relation.TransGen (Refers maps)) := chain.imp fun _ _ => .single
  have apart := List.isChain_iff_pairwise.mp reach
  refine apart.imp ?_
  rintro a b path rfl
  exact acyclic a path

theorem retained_concat (maps : List TriplesMap) (m : TriplesMap) :
    retained (maps ++ [m]) =
      if (retained maps).any (·.iri == m.iri) then retained maps else retained maps ++ [m] := by
  simp [retained]

/-- Under each name that occurs, one map is retained. -/
theorem find?_retained (maps : List TriplesMap) (iri : String) :
    (retained maps).find? (·.iri == iri) = maps.find? (·.iri == iri) := by
  induction maps using List.reverseRecOn with
  | nil => simp [retained]
  | append_singleton maps last ih =>
    rw [retained_concat, List.find?_append]
    split
    next known =>
      by_cases hn : last.iri = iri
      · subst hn
        obtain ⟨first, found⟩ : ∃ first, maps.find? (·.iri == last.iri) = some first := by
          rw [← ih]
          exact Option.isSome_iff_exists.mp (by simpa [List.find?_isSome] using known)
        simp [ih, found]
      · simp [ih, hn]
    next => rw [List.find?_append, ih]

theorem retained_distinct (maps : List TriplesMap) : ((retained maps).map (·.iri)).Nodup := by
  induction maps using List.reverseRecOn with
  | nil => simp [retained]
  | append_singleton maps last ih =>
    rw [retained_concat]
    split
    next => exact ih
    next fresh =>
      rw [List.map_append, List.nodup_append]
      refine ⟨ih, by simp, ?_⟩
      intro a ha b hb same
      obtain ⟨m, hm, rfl⟩ := List.mem_map.mp ha
      obtain rfl : b = last.iri := by simpa using hb
      exact fresh (List.any_eq_true.mpr ⟨m, hm, by simpa using same⟩)

/-- In a list of distinct names a map is the one that is found under its name. -/
theorem find?_of_mem {maps : List TriplesMap} (distinct : (maps.map (·.iri)).Nodup)
    {m : TriplesMap} (hm : m ∈ maps) : maps.find? (·.iri == m.iri) = some m := by
  induction maps with
  | nil => simp at hm
  | cons first rest ih =>
    obtain ⟨apart, distinct⟩ := List.nodup_cons.mp distinct
    rcases List.mem_cons.mp hm with rfl | hm
    · simp
    · have hne : first.iri ≠ m.iri := by
        intro same
        exact apart (List.mem_map.mpr ⟨m, hm, same.symm⟩)
      simpa [hne] using ih distinct hm

theorem mem_of_find? {maps : List TriplesMap} {iri : String} {m : TriplesMap}
    (found : maps.find? (·.iri == iri) = some m) : m ∈ maps ∧ m.iri = iri :=
  ⟨List.mem_of_find?_eq_some found, by simpa using List.find?_some found⟩

/-- The maps retained are those that come first under their name. -/
theorem mem_retained_iff {maps : List TriplesMap} {m : TriplesMap} :
    m ∈ retained maps ↔ maps.find? (·.iri == m.iri) = some m := by
  rw [← find?_retained]
  exact ⟨find?_of_mem (retained_distinct maps), fun found => (mem_of_find? found).1⟩

theorem refers_of_find? {maps : List TriplesMap} (distinct : (maps.map (·.iri)).Nodup)
    {iri parent : String} {m : TriplesMap} (found : maps.find? (·.iri == iri) = some m) :
    Refers maps iri parent ↔ parent ∈ m.parentRefs := by
  obtain ⟨hm, rfl⟩ := mem_of_find? found
  constructor
  · rintro ⟨other, ho, same, hp⟩
    have := find?_of_mem distinct ho
    rw [same, found] at this
    cases this
    exact hp
  · exact fun hp => ⟨m, hm, rfl, hp⟩

end CatalogGraph.Mapping
