import CatalogGraph.Mapping.Rule

/-!
Compiled mappings: maps with distinct names whose parents exist and form no cycle.
-/
namespace CatalogGraph

/-- The maps of a mapping in the order of their declaration. -/
structure Mapping where
  maps : List TriplesMap := []
deriving DecidableEq, Repr

namespace Mapping

/-- The first map of each name, in order. -/
def retained (maps : List TriplesMap) : List TriplesMap :=
  maps.foldl (fun kept m => if kept.any (·.iri == m.iri) then kept else kept ++ [m]) []

def get? (mapping : Mapping) (iri : String) : Option TriplesMap :=
  mapping.maps.find? (·.iri == iri)

def size (mapping : Mapping) : Nat := mapping.maps.length

/-- Whether a map is reached from other maps only. -/
def isParentOnly (mapping : Mapping) (iri : String) : Bool :=
  mapping.maps.any fun m => m.parentRefs.contains iri

/-- The maps that no map has as parent. -/
def topLevel (mapping : Mapping) : List TriplesMap :=
  mapping.maps.filter fun m => !mapping.isParentOnly m.iri

/-- The classes of the maps whose subjects are to be identified with each other, each once. -/
def dedupClasses (mapping : Mapping) : List String :=
  (mapping.maps.flatMap fun m =>
    match m.subjectMap with
    | some s => if s.dedup then s.classes else []
    | none => []).foldl (fun seen c => if seen.contains c then seen else seen ++ [c]) []

/-- Whether a map has what it takes to give its rows subjects. -/
def checkMap (m : TriplesMap) : Except MappingError Unit :=
  match m.logicalSource with
  | none => .ok ()
  | some source =>
    let bindings := source.formulation == .sparql
    let hasSubject := (m.subjectMap.bind (·.term)).isSome
    if bindings && source.query.isNone then
      .error (.missingProperty ("rml:query on bindings map " ++ m.iri))
    else if !hasSubject && !(bindings && source.iterator.isSome) then
      .error (.missingProperty ("rr:subjectMap on " ++ m.iri))
    else .ok ()

/-- Whether the parents of a map exist. -/
def checkParents (maps : List TriplesMap) (m : TriplesMap) : Except MappingError Unit :=
  match m.parentRefs.find? fun parent => !maps.any (·.iri == parent) with
  | some parent => .error (.unknownMap m.iri parent)
  | none => .ok ()

/-- The part of a path from the first occurrence of a name on, closed by that name. -/
def cycleOf (path : List String) (iri : String) : List String :=
  path.dropWhile (· ≠ iri) ++ [iri]

/-- The maps of other names. -/
def others (maps : List TriplesMap) (iri : String) : List TriplesMap :=
  maps.filter (·.iri != iri)

theorem length_others_lt {maps : List TriplesMap} {iri : String} {m : TriplesMap}
    (found : maps.find? (·.iri == iri) = some m) : (others maps iri).length < maps.length := by
  have same := List.find?_some found
  exact List.length_filter_lt_length_iff_exists.mpr
    ⟨m, List.mem_of_find?_eq_some found, by simp_all⟩

/-- Follows the parents of a name depth first. `fresh` holds the maps that are not on the path,
`done` the names from which no cycle is reached; the result is `done` with this name, or the path
that leads back to itself. -/
def visit (fresh : List TriplesMap) (path done : List String) (iri : String) :
    Except (List String) (List String) :=
  if done.contains iri then .ok done
  else if path.contains iri then .error (cycleOf path iri)
  else match _found : fresh.find? (·.iri == iri) with
    | none => .ok (iri :: done)
    | some m =>
      match m.parentRefs.foldlM (fun done parent =>
          visit (others fresh iri) (path ++ [iri]) done parent) done with
      | .ok done => .ok (iri :: done)
      | .error cycle => .error cycle
termination_by fresh.length
decreasing_by exact length_others_lt _found

/-- Whether no parents form a cycle. -/
def checkCycles (maps : List TriplesMap) : Except MappingError Unit :=
  match maps.foldlM (fun done m => visit maps [] done m.iri) [] with
  | .ok _ => .ok ()
  | .error cycle => .error (.parentCycle cycle)

/-- Whether a map can run among maps. -/
def check (maps : List TriplesMap) (m : TriplesMap) : Except MappingError Unit := do
  checkParents maps m
  checkMap m

/-- Compiles maps, of which the first one of each name counts. -/
def compile (maps : List TriplesMap) : Except MappingError Mapping := do
  let kept := retained maps
  kept.forM (check kept)
  checkCycles kept
  return { maps := kept }

end Mapping
end CatalogGraph
