import CatalogGraph.Proofs.CompiledMaps
import CatalogGraph.Proofs.MapSteps
import Mathlib.Data.List.Perm.Subperm

/-!
Nested maps: the maps of a valid mapping that are active at one time are a chain of parents without
repeats, so that a run needs no guard against maps that call themselves.
-/
namespace CatalogGraph

namespace Mapping

/-- The names of maps that may be active at one time, the outermost first. -/
structure ActiveChain (maps : List TriplesMap) (active : List String) : Prop where
  known : ∀ iri ∈ active, ∃ m ∈ maps, m.iri = iri
  chain : active.IsChain (Refers maps)
  distinct : active.Nodup

theorem ActiveChain.length_le {maps : List TriplesMap} {active : List String}
    (h : ActiveChain maps active) : active.length ≤ maps.length := by
  have inside : active ⊆ maps.map (·.iri) := by
    intro iri hi
    obtain ⟨m, hm, same⟩ := h.known iri hi
    exact List.mem_map.mpr ⟨m, hm, same⟩
  simpa using (h.distinct.subperm inside).length_le

/-- The state of a nested run: the maps left are off the path, and all names on it are known. -/
structure Nested (maps fresh : List TriplesMap) (path : List String) (iri : String) : Prop where
  onPath : OnPath maps fresh path iri
  known : ∀ name ∈ path ++ [iri], ∃ m ∈ maps, m.iri = name

theorem Nested.start {maps : List TriplesMap} {iri : String} (known : ∃ m ∈ maps, m.iri = iri) :
    Nested maps maps [] iri :=
  ⟨⟨by simp, by simp, by simp⟩, by simpa using known⟩

theorem Nested.activeChain {maps fresh : List TriplesMap} {path : List String} {iri : String}
    (nested : Nested maps fresh path iri) (acyclic : Acyclic maps) :
    ActiveChain maps (path ++ [iri]) :=
  ⟨nested.known, nested.onPath.chain, acyclic.nodup_of_chain nested.onPath.chain⟩

theorem Nested.off {maps fresh : List TriplesMap} {path : List String} {iri : String}
    (nested : Nested maps fresh path iri) (acyclic : Acyclic maps) : iri ∉ path := by
  intro hm
  have apart := (nested.activeChain acyclic).distinct
  exact (List.nodup_append.mp apart).2.2 iri hm iri (by simp) rfl

/-- A nested map is found among the maps left, and it is the one of its name among all maps. -/
theorem Nested.found {maps fresh : List TriplesMap} {path : List String} {iri : String}
    (nested : Nested maps fresh path iri) (valid : Valid maps)
    (distinct : (maps.map (·.iri)).Nodup) :
    ∃ m, fresh.find? (·.iri == iri) = some m ∧ maps.find? (·.iri == iri) = some m := by
  obtain ⟨m, hm, rfl⟩ := nested.known iri (by simp)
  have hf := (nested.onPath.left m).mpr ⟨hm, nested.off valid.acyclic⟩
  obtain ⟨p, hp⟩ : ∃ p, fresh.find? (·.iri == m.iri) = some p := by
    rw [← Option.isSome_iff_exists, List.find?_isSome]
    exact ⟨m, hf, by simp⟩
  obtain ⟨hpf, same⟩ := mem_of_find? hp
  have hall := find?_of_mem distinct ((nested.onPath.left p).mp hpf).1
  exact ⟨p, hp, same ▸ hall⟩

theorem Nested.next {maps fresh : List TriplesMap} {path : List String} {iri parent : String}
    {m : TriplesMap} (nested : Nested maps fresh path iri) (valid : Valid maps)
    (found : fresh.find? (·.iri == iri) = some m) (hp : parent ∈ m.parentRefs) :
    Nested maps (others fresh iri) (path ++ [iri]) parent := by
  refine ⟨nested.onPath.next (nested.off valid.acyclic) found hp, ?_⟩
  intro name hn
  rcases List.mem_append.mp hn with hn | hn
  · exact nested.known name hn
  · obtain rfl : name = parent := by simpa using hn
    exact valid.parents m ((nested.onPath.left m).mp (mem_of_find? found).1).1 name hp

end Mapping

namespace Engine
open Mapping
variable {σ : Type}

theorem linkTriples_congr {config : Config} {runParent runParent' : RunParent σ} {subject : Term}
    {node : Node} {ctx : Context} {pom : PredicateObjectMap} {buffer : List Triple}
    (same : ∀ iri, pom.object = .parent iri →
      ∀ node ctx, runParent iri node ctx = runParent' iri node ctx) :
    linkTriples config runParent subject node ctx pom buffer =
      linkTriples config runParent' subject node ctx pom buffer := by
  unfold linkTriples
  split
  next iri h => rw [same iri h]
  next => rfl

theorem rowTriples_congr {config : Config} {runParent runParent' : RunParent σ} {subject : Term}
    {node : Node} {ctx : Context} {poms : List PredicateObjectMap} {buffer : List Triple}
    (same : ∀ pom ∈ poms, ∀ iri, pom.object = .parent iri →
      ∀ node ctx, runParent iri node ctx = runParent' iri node ctx) :
    rowTriples config runParent subject node ctx poms buffer =
      rowTriples config runParent' subject node ctx poms buffer := by
  induction poms generalizing buffer with
  | nil => rfl
  | cons pom rest ih =>
    have later (buffer : List Triple) : rowTriples config runParent subject node ctx rest buffer =
        rowTriples config runParent' subject node ctx rest buffer :=
      ih fun pom hm => same pom (by simp [hm])
    simp only [rowTriples, later, linkTriples_congr (same pom (by simp))]

theorem applyRow_congr {config : Config} {runParent runParent' : RunParent σ} {m : TriplesMap}
    {ctx : Context}
    (same : ∀ iri ∈ m.parentRefs, ∀ node ctx, runParent iri node ctx = runParent' iri node ctx) :
    applyRow config runParent m ctx = applyRow config runParent' m ctx := by
  funext node
  have content (subject : Term) : rowTriples config runParent subject node ctx
      m.predicateObjectMaps [] = rowTriples config runParent' subject node ctx
      m.predicateObjectMaps [] :=
    rowTriples_congr fun pom hm iri h => same iri (mem_parentRefs.mpr ⟨pom, hm, h⟩)
  simp only [applyRow, rowContent, content]

theorem runMap_congr {engine : Engine σ} {runParent runParent' : RunParent σ} {m : TriplesMap}
    {node : Node} {ctx : Context}
    (same : ∀ iri ∈ m.parentRefs, ∀ node ctx, runParent iri node ctx = runParent' iri node ctx) :
    engine.runMap runParent m node ctx = engine.runMap runParent' m node ctx := by
  simp only [runMap, applyRow_congr same]

theorem runNamed_of_found {engine : Engine σ} {maps : List TriplesMap} {child iri : String}
    {m : TriplesMap} (found : maps.find? (·.iri == iri) = some m) (node : Node) (ctx : Context) :
    engine.runNamed maps child iri node ctx =
      engine.runMap (engine.runNamed (others maps iri) m.iri) m node ctx := by
  rw [runNamed]
  split
  next missing => simp [found] at missing
  next other hf =>
    obtain rfl : m = other := by simpa [found] using hf
    rfl

theorem runNamed_of_missing {engine : Engine σ} {maps : List TriplesMap} {child iri : String}
    (missing : maps.find? (·.iri == iri) = none) (node : Node) (ctx : Context) :
    engine.runNamed maps child iri node ctx = throw (.unknownMap child iri) := by
  rw [runNamed]
  split
  next => rfl
  next other hf => simp [missing] at hf

/-- Runs the map of a name below the active maps `path`, the outermost first. Every map is looked up
among all maps of the mapping; `enter` is done whenever a map starts, with the names of the maps
that are active then, and `beyond` in place of a map below `depth` others. -/
def runBelow (engine : Engine σ) (enter : List String → Run σ Unit) (beyond : Run σ (List Term)) :
    Nat → List String → String → RunParent σ
  | 0, _, _, _, _, _ => beyond
  | depth + 1, path, child, iri, node, ctx =>
    match engine.mapping.get? iri with
    | none => throw (.unknownMap child iri)
    | some m => do
      enter (path ++ [iri])
      engine.runMap (runBelow engine enter beyond depth (path ++ [iri]) m.iri) m node ctx

/-- The guard of a run never holds a map back, and nothing but chains of parents is active. -/
theorem runBelow_eq_runNamed {engine : Engine σ} (valid : Valid engine.mapping.maps)
    (distinct : (engine.mapping.maps.map (·.iri)).Nodup) {enter : List String → Run σ Unit}
    (idle : ∀ active, ActiveChain engine.mapping.maps active → enter active = pure ())
    (beyond : Run σ (List Term)) {depth : Nat} {fresh : List TriplesMap} {path : List String}
    {child iri : String} (nested : Nested engine.mapping.maps fresh path iri)
    (room : fresh.length ≤ depth) (node : Node) (ctx : Context) :
    runBelow engine enter beyond depth path child iri node ctx =
      engine.runNamed fresh child iri node ctx := by
  -- `Nested` carries the path: the maps left by the guard are those off it, so a parent, which is
  -- off it as nothing refers to itself, is found among them.
  induction depth generalizing fresh path child iri node ctx with
  | zero =>
    obtain ⟨m, found, _⟩ := nested.found valid distinct
    obtain rfl : fresh = [] := List.eq_nil_of_length_eq_zero (by omega)
    simp at found
  | succ depth ih =>
    obtain ⟨m, found, all⟩ := nested.found valid distinct
    have shorter := length_others_lt found
    rw [runNamed_of_found found]
    simp only [runBelow, Mapping.get?, all, idle _ (nested.activeChain valid.acyclic), pure_bind]
    apply runMap_congr
    intro parent hp node ctx
    exact ih (nested.next valid found hp) (by omega) node ctx

/-- Running the maps of a valid mapping obeys a law that their queries obey. -/
theorem Law.runNamed (law : Law σ) {engine : Engine σ}
    (queries : ∀ m ∈ engine.mapping.maps, law.Queries engine m)
    (valid : Valid engine.mapping.maps) (distinct : (engine.mapping.maps.map (·.iri)).Nodup)
    {fresh : List TriplesMap} {path : List String} {child iri : String}
    (nested : Nested engine.mapping.maps fresh path iri) (node : Node) (ctx : Context) :
    law.holds fun n => (engine.granting n).runNamed fresh child iri node ctx := by
  induction hn : fresh.length using Nat.strong_induction_on
    generalizing fresh path child iri node ctx with
  | _ n ih =>
    obtain ⟨m, found, all⟩ := nested.found valid distinct
    have hm := (mem_of_find? all).1
    simp only [runNamed_of_found found]
    apply law.runMap (queries m hm)
    · intro source hs hf hq
      have asked := valid.queries m hm source hs hf
      simp [hq] at asked
    · intro parent hp node ctx
      exact ih _ (hn ▸ length_others_lt found) (nested.next valid found hp) node ctx rfl

/-- The map of a name that is visited is run within a bound, if each row of a map that is visited is
applied within it, provided that this holds of the parents that are visited. -/
theorem within_runNamed {bound : Bound σ} {engine : Engine σ} {among : List TriplesMap}
    (visits : String → Prop) (asks : Asks bound engine.store) (fails : ∀ e, bound.fails e)
    (row : ∀ maps ⊆ among, ∀ m ∈ among, visits m.iri → ∀ ctx node,
      (∀ iri, visits iri → ∀ ctx, Within bound (engine.runNamed maps m.iri iri node ctx)) →
      Within bound (applyRow engine.config (engine.runNamed maps m.iri) m ctx node))
    {maps : List TriplesMap} (within : maps ⊆ among) (child : String) {iri : String}
    (visited : visits iri) (node : Node) (ctx : Context) :
    Within bound (engine.runNamed maps child iri node ctx) := by
  induction hn : maps.length using Nat.strong_induction_on
    generalizing maps child iri node ctx with
  | _ n ih =>
    cases found : maps.find? (·.iri == iri) with
    | none =>
      rw [runNamed_of_missing found]
      exact within_throw (fails _)
    | some m =>
      obtain ⟨hm, rfl⟩ := mem_of_find? found
      have shorter := length_others_lt found
      have fewer : others maps m.iri ⊆ among := fun _ ho => within (List.mem_filter.mp ho).1
      rw [runNamed_of_found found]
      refine within_runMap (fun e _ => fails e) (fun service hservice query _ _ => ?_)
        fun node => ?_
      · exact within_queryPage (hservice ▸ asks) query _
      · exact row _ fewer m (within hm) visited ctx node fun parent visited ctx =>
          ih _ (hn ▸ shorter) fewer _ visited _ _ rfl

/-- The bound admits every fault, and it leaves room for asking a store and for the application of
a map to a row. -/
structure Rowwise (bound : Bound σ) (engine : Engine σ) : Prop where
  asks : Asks bound engine.store
  fails : ∀ e, bound.fails e
  row : ∀ (runParent : RunParent σ) m ctx node,
    (∀ iri ctx, Within bound (runParent iri node ctx)) →
    Within bound (applyRow engine.config runParent m ctx node)

section Rowwise
variable {bound : Bound σ} {engine : Engine σ}

theorem Admits.rowwise (admits : Admits bound engine.store) (any : ∀ e, bound.fails e) :
    Rowwise bound engine where
  asks := admits.asks
  fails := any
  row runParent m ctx node parents := by
    have row : admits.law.holds fun _ => applyRow engine.config runParent m ctx node :=
      admits.law.applyRow fun iri _ ctx _ => parents iri ctx
    exact row 0

/-- Without a condition on the maps a run is within a bound that the rows are within. -/
theorem Rowwise.runNamed (rowwise : Rowwise bound engine) (maps : List TriplesMap)
    (child iri : String) (node : Node) (ctx : Context) :
    Within bound (engine.runNamed maps child iri node ctx) :=
  within_runNamed (fun _ => True) rowwise.asks rowwise.fails
    (fun _ _ m _ _ ctx node parents => rowwise.row _ m ctx node fun iri => parents iri trivial)
    (List.Subset.refl maps) child trivial node ctx

end Rowwise

end Engine
end CatalogGraph
