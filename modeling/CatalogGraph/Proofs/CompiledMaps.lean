import CatalogGraph.Proofs.ParentChains

/-!
Compilation: it succeeds exactly on complete maps without cycles of parents, and the cycle or the
missing parent that it reports is there.
-/
namespace CatalogGraph.Mapping

/-- What a depth-first search that knew the names `done` makes of the names `iris`. -/
def Searched (maps : List TriplesMap) (done iris : List String) :
    Except (List String) (List String) → Prop
  | .ok next => (∀ x ∈ next, Grounded maps x) ∧ done ⊆ next ∧ iris ⊆ next
  | .error cycle => IsCycle maps cycle

/-- The maps left are those whose names are not on the path, and the path leads to the next name. -/
structure OnPath (maps fresh : List TriplesMap) (path : List String) (iri : String) : Prop where
  left : ∀ m, m ∈ fresh ↔ m ∈ maps ∧ m.iri ∉ path
  chain : (path ++ [iri]).IsChain (Refers maps)
  distinct : path.Nodup

theorem isCycle_cycleOf {maps : List TriplesMap} {path : List String} {iri : String}
    (chain : (path ++ [iri]).IsChain (Refers maps)) (distinct : path.Nodup) (hm : iri ∈ path) :
    IsCycle maps (cycleOf path iri) := by
  obtain ⟨before, after, rfl⟩ := List.append_of_mem hm
  have fresh : iri ∉ before := by
    intro hb
    exact (List.nodup_append.mp distinct).2.2 iri hb iri (by simp) rfl
  have cut : cycleOf (before ++ iri :: after) iri = iri :: after ++ [iri] := by
    have passed : ∀ name ∈ before, decide (name ≠ iri) = true := by
      intro name hn
      exact decide_eq_true fun same => fresh (same ▸ hn)
    rw [cycleOf, List.dropWhile_append_of_pos passed, List.dropWhile_cons_of_neg (by simp)]
  rw [cut]
  refine ⟨by simp, ?_, ?_, ?_⟩
  · rw [List.getLast?_concat]
    simp
  · rw [List.append_assoc] at chain
    exact chain.right_of_append
  · rw [List.dropLast_concat]
    exact (List.nodup_append.mp distinct).2.1

theorem searched_nil {maps : List TriplesMap} {done : List String}
    (safe : ∀ x ∈ done, Grounded maps x) : Searched maps done [] (.ok done) :=
  ⟨safe, fun _ h => h, by simp⟩

/-- A search of names one after another, each of which keeps what was found before. -/
theorem searched_foldlM {maps : List TriplesMap} {iris : List String}
    {step : List String → String → Except (List String) (List String)}
    (one : ∀ done, ∀ iri ∈ iris, (∀ x ∈ done, Grounded maps x) →
      Searched maps done [iri] (step done iri))
    {done : List String} (safe : ∀ x ∈ done, Grounded maps x) :
    Searched maps done iris (iris.foldlM step done) := by
  induction iris generalizing done with
  | nil => exact searched_nil safe
  | cons iri rest ih =>
    have first := one done iri (by simp) safe
    rw [List.foldlM_cons]
    cases hs : step done iri with
    | error cycle =>
      rw [hs] at first
      exact first
    | ok next =>
      rw [hs] at first
      obtain ⟨safe', kept, found⟩ := first
      have others := ih (fun done iri hm => one done iri (by simp [hm])) safe'
      change Searched maps done (iri :: rest) (rest.foldlM step next)
      cases hr : rest.foldlM step next with
      | error cycle =>
        rw [hr] at others
        exact others
      | ok last =>
        rw [hr] at others
        obtain ⟨safe'', kept', found'⟩ := others
        refine ⟨safe'', fun x hx => kept' (kept hx), ?_⟩
        intro x hx
        rcases List.mem_cons.mp hx with rfl | hx
        · exact kept' (found (by simp))
        · exact found' hx

theorem OnPath.next {maps fresh : List TriplesMap} {path : List String} {iri parent : String}
    {m : TriplesMap} (onPath : OnPath maps fresh path iri)
    (off : iri ∉ path) (found : fresh.find? (·.iri == iri) = some m)
    (hp : parent ∈ m.parentRefs) : OnPath maps (others fresh iri) (path ++ [iri]) parent := by
  obtain ⟨hm, rfl⟩ := mem_of_find? found
  refine ⟨?_, ?_, ?_⟩
  · intro other
    simp only [others, List.mem_filter, onPath.left]
    simp [and_assoc]
  · rw [List.isChain_append]
    refine ⟨onPath.chain, by simp, ?_⟩
    intro a ha b hb
    obtain rfl : m.iri = a := by simpa using ha
    obtain rfl : parent = b := by simpa using hb
    exact ⟨m, ((onPath.left m).mp hm).1, rfl, hp⟩
  · rw [List.nodup_append]
    refine ⟨onPath.distinct, by simp, ?_⟩
    intro a ha b hb same
    obtain rfl : b = m.iri := by simpa using hb
    exact off (same ▸ ha)

/-- Off the path the maps left decide to which names a name links. -/
theorem OnPath.refers_iff {maps fresh : List TriplesMap} {path : List String} {iri parent : String}
    {m : TriplesMap} (onPath : OnPath maps fresh path iri) (distinct : (maps.map (·.iri)).Nodup)
    (found : fresh.find? (·.iri == iri) = some m) :
    Refers maps iri parent ↔ parent ∈ m.parentRefs := by
  obtain ⟨hm, rfl⟩ := mem_of_find? found
  exact refers_of_find? distinct (find?_of_mem distinct ((onPath.left m).mp hm).1)

theorem OnPath.not_refers {maps fresh : List TriplesMap} {path : List String} {iri parent : String}
    (onPath : OnPath maps fresh path iri) (off : iri ∉ path)
    (missing : fresh.find? (·.iri == iri) = none) : ¬ Refers maps iri parent := by
  rintro ⟨m, hm, rfl, _⟩
  simpa using List.find?_eq_none.mp missing m ((onPath.left m).mpr ⟨hm, off⟩)

/-- A name is grounded once all the names that its map links to are. -/
theorem Grounded.of_parents {maps : List TriplesMap} {iri : String}
    (parents : ∀ parent, Refers maps iri parent → Grounded maps parent) : Grounded maps iri :=
  .intro iri parents

theorem visit_of_missing {fresh : List TriplesMap} {path done : List String} {iri : String}
    (unknown : iri ∉ done) (off : iri ∉ path) (missing : fresh.find? (·.iri == iri) = none) :
    visit fresh path done iri = .ok (iri :: done) := by
  rw [visit, if_neg (by simpa using unknown), if_neg (by simpa using off)]
  split
  next => rfl
  next m found => simp [found] at missing

/-- A search follows the parents of a name that is neither known nor on the path. -/
theorem visit_of_found {fresh : List TriplesMap} {path done : List String} {iri : String}
    {m : TriplesMap} (unknown : iri ∉ done) (off : iri ∉ path)
    (found : fresh.find? (·.iri == iri) = some m) :
    visit fresh path done iri =
      (m.parentRefs.foldlM (visit (others fresh iri) (path ++ [iri])) done).map (iri :: ·) := by
  rw [visit, if_neg (by simpa using unknown), if_neg (by simpa using off)]
  split
  next missing => simp [found] at missing
  next other hf =>
    obtain rfl : m = other := by simpa [found] using hf
    cases m.parentRefs.foldlM (visit (others fresh iri) (path ++ [iri])) done <;> rfl

/-- Once its parents are grounded, a name joins those from which no cycle is reached. -/
theorem searched_cons {maps : List TriplesMap} {done next : List String} {iri : String}
    (safe : ∀ x ∈ next, Grounded maps x) (kept : done ⊆ next)
    (reached : ∀ parent, Refers maps iri parent → parent ∈ next) :
    Searched maps done [iri] (.ok (iri :: next)) := by
  refine ⟨?_, fun x hx => List.mem_cons_of_mem iri (kept hx), by simp⟩
  intro x hx
  rcases List.mem_cons.mp hx with rfl | hx
  · exact .of_parents fun parent hp => safe parent (reached parent hp)
  · exact safe x hx

theorem visit_searched {maps fresh : List TriplesMap} {path done : List String} {iri : String}
    (distinct : (maps.map (·.iri)).Nodup) (onPath : OnPath maps fresh path iri)
    (safe : ∀ x ∈ done, Grounded maps x) :
    Searched maps done [iri] (visit fresh path done iri) := by
  -- On the number of maps that are not on the path, one fewer with each step along parents.
  induction hn : fresh.length using Nat.strong_induction_on
    generalizing fresh path done iri with
  | _ n ih =>
    by_cases known : iri ∈ done
    · rw [visit, if_pos (by simpa using known)]
      exact ⟨safe, fun _ h => h, by simpa using known⟩
    by_cases again : iri ∈ path
    · rw [visit, if_neg (by simpa using known), if_pos (by simpa using again)]
      exact isCycle_cycleOf onPath.chain onPath.distinct again
    cases found : fresh.find? (·.iri == iri) with
    | none =>
      rw [visit_of_missing known again found]
      exact searched_cons safe (fun _ h => h)
        fun parent hp => absurd hp (onPath.not_refers again found)
    | some m =>
      have parents : Searched maps done m.parentRefs
          (m.parentRefs.foldlM (visit (others fresh iri) (path ++ [iri])) done) := by
        apply searched_foldlM _ safe
        intro done parent hp safe
        exact ih _ (hn ▸ length_others_lt found) (onPath.next again found hp) safe rfl
      rw [visit_of_found known again found]
      cases hf : m.parentRefs.foldlM (visit (others fresh iri) (path ++ [iri])) done with
      | error cycle =>
        rw [hf] at parents
        exact parents
      | ok next =>
        rw [hf] at parents
        obtain ⟨safe', kept, reached⟩ := parents
        exact searched_cons safe' kept
          fun parent hp => reached ((onPath.refers_iff distinct found).mp hp)

/-- The search from all maps, with nothing known before. -/
theorem search_searched {maps : List TriplesMap} (distinct : (maps.map (·.iri)).Nodup) :
    Searched maps [] (maps.map (·.iri)) ((maps.map (·.iri)).foldlM (visit maps []) []) := by
  apply searched_foldlM _ (by simp)
  intro done iri _ safe
  exact visit_searched distinct ⟨by simp, by simp, by simp⟩ safe

theorem checkCycles_eq (maps : List TriplesMap) :
    checkCycles maps =
      (((maps.map (·.iri)).foldlM (visit maps []) []).mapError .parentCycle).map fun _ => () := by
  rw [checkCycles, List.foldlM_map]
  cases maps.foldlM (fun done m => visit maps [] done m.iri) [] <;> rfl

theorem checkCycles_ok_iff {maps : List TriplesMap} (distinct : (maps.map (·.iri)).Nodup) :
    checkCycles maps = .ok () ↔ Acyclic maps := by
  have searched := search_searched distinct
  rw [checkCycles_eq]
  cases hs : (maps.map (·.iri)).foldlM (visit maps []) [] with
  | ok done =>
    rw [hs] at searched
    obtain ⟨safe, _, reached⟩ := searched
    refine iff_of_true rfl (.of_grounded fun m hm => safe _ (reached (List.mem_map_of_mem hm)))
  | error cycle =>
    rw [hs] at searched
    exact iff_of_false (by rintro ⟨⟩) (IsCycle.not_acyclic searched)

theorem checkCycles_error {maps : List TriplesMap} (distinct : (maps.map (·.iri)).Nodup)
    {e : MappingError} (failed : checkCycles maps = .error e) :
    ∃ path, e = .parentCycle path ∧ IsCycle maps path := by
  have searched := search_searched distinct
  rw [checkCycles_eq] at failed
  cases hs : (maps.map (·.iri)).foldlM (visit maps []) [] with
  | ok done =>
    rw [hs] at failed
    cases failed
  | error cycle =>
    rw [hs] at searched failed
    cases failed
    exact ⟨cycle, rfl, searched⟩

/-- What it takes for maps to be a mapping: parents exist, rows of queries have a query, all rows
have subjects, and no parents form a cycle. -/
structure Valid (maps : List TriplesMap) : Prop where
  parents : ∀ m ∈ maps, ∀ parent ∈ m.parentRefs, ∃ p ∈ maps, p.iri = parent
  queries : ∀ m ∈ maps, ∀ source, m.logicalSource = some source →
    source.formulation = .sparql → source.query.isSome
  subjects : ∀ m ∈ maps, ∀ source, m.logicalSource = some source →
    (∃ s, m.subjectMap = some s ∧ s.term.isSome) ∨
      source.formulation = .sparql ∧ source.iterator.isSome
  acyclic : Acyclic maps

theorem checkParents_ok_iff {maps : List TriplesMap} {m : TriplesMap} :
    checkParents maps m = .ok () ↔ ∀ parent ∈ m.parentRefs, ∃ p ∈ maps, p.iri = parent := by
  unfold checkParents
  cases hf : m.parentRefs.find? fun parent => !maps.any (·.iri == parent) with
  | none =>
    refine iff_of_true rfl fun parent hp => ?_
    simpa using List.find?_eq_none.mp hf parent hp
  | some parent =>
    refine iff_of_false (by simp) fun known => ?_
    obtain ⟨p, hm, same⟩ := known parent (List.mem_of_find?_eq_some hf)
    have missing := List.find?_some hf
    simp only [Bool.not_eq_true', List.any_eq_false, beq_iff_eq] at missing
    exact missing p hm same

theorem checkParents_error {maps : List TriplesMap} {m : TriplesMap} {e : MappingError}
    (failed : checkParents maps m = .error e) :
    ∃ parent ∈ m.parentRefs, e = .unknownMap m.iri parent ∧ ∀ p ∈ maps, p.iri ≠ parent := by
  unfold checkParents at failed
  split at failed
  next parent hf =>
    cases failed
    exact ⟨parent, List.mem_of_find?_eq_some hf, rfl, by simpa using List.find?_some hf⟩
  next => cases failed

/-- The query and the subjects of the rows of a map, as far as it has rows. -/
def Complete (m : TriplesMap) : Prop :=
  ∀ source, m.logicalSource = some source →
    (source.formulation = .sparql → source.query.isSome) ∧
    ((∃ s, m.subjectMap = some s ∧ s.term.isSome) ∨
      source.formulation = .sparql ∧ source.iterator.isSome)

theorem hasSubject_iff (m : TriplesMap) :
    (m.subjectMap.bind (·.term)).isSome ↔ ∃ s, m.subjectMap = some s ∧ s.term.isSome := by
  cases m.subjectMap <;> simp

theorem checkMap_ok_iff {m : TriplesMap} : checkMap m = .ok () ↔ Complete m := by
  unfold checkMap Complete
  cases m.logicalSource with
  | none => simp
  | some source =>
    simp only [Option.some.injEq, forall_eq', ← hasSubject_iff]
    generalize m.subjectMap.bind (·.term) = term
    by_cases bindings : source.formulation = .sparql
    · cases source.query with
      | none => simp [bindings]
      | some query => cases source.iterator <;> cases term <;> simp [bindings]
    · cases term <;> simp [bindings]

theorem checkMap_error {m : TriplesMap} {e : MappingError} (failed : checkMap m = .error e) :
    ∃ name, e = .missingProperty name := by
  unfold checkMap at failed
  grind

theorem check_ok_iff {maps : List TriplesMap} {m : TriplesMap} :
    check maps m = .ok () ↔ checkParents maps m = .ok () ∧ checkMap m = .ok () := by
  cases hp : checkParents maps m <;> simp [check, hp, bind, Except.bind]

theorem check_error {maps : List TriplesMap} {m : TriplesMap} {e : MappingError}
    (failed : check maps m = .error e) :
    checkParents maps m = .error e ∨ checkMap m = .error e := by
  cases hp : checkParents maps m with
  | error e' => left; simpa [check, hp, bind, Except.bind] using failed
  | ok => right; simpa [check, hp, bind, Except.bind] using failed

theorem forM_ok_iff {α ε : Type} {step : α → Except ε PUnit} {xs : List α} :
    forM xs step = .ok () ↔ ∀ x ∈ xs, step x = .ok () := by
  induction xs with
  | nil => simp [pure, Except.pure]
  | cons x rest ih =>
    cases hx : step x <;> simp [hx, bind, Except.bind, ih]

theorem forM_error {α ε : Type} {step : α → Except ε PUnit} {xs : List α} {e : ε}
    (failed : forM xs step = .error e) : ∃ x ∈ xs, step x = .error e := by
  induction xs with
  | nil => cases failed
  | cons x rest ih =>
    cases hx : step x with
    | error e' =>
      have same : e' = e := by simpa [hx, bind, Except.bind] using failed
      exact ⟨x, by simp, same ▸ hx⟩
    | ok =>
      have later : forM rest step = .error e := by
        simpa [hx, bind, Except.bind] using failed
      obtain ⟨y, hy, he⟩ := ih later
      exact ⟨y, by simp [hy], he⟩

/-- The checks of all maps succeed exactly on valid ones. -/
theorem checks_ok_iff {maps : List TriplesMap} (distinct : (maps.map (·.iri)).Nodup) :
    forM maps (check maps) = .ok () ∧ checkCycles maps = .ok () ↔ Valid maps := by
  simp only [forM_ok_iff, check_ok_iff, checkParents_ok_iff, checkMap_ok_iff,
    checkCycles_ok_iff distinct]
  constructor
  · rintro ⟨each, acyclic⟩
    exact ⟨fun m hm => (each m hm).1, fun m hm source hs => ((each m hm).2 source hs).1,
      fun m hm source hs => ((each m hm).2 source hs).2, acyclic⟩
  · rintro ⟨parents, queries, subjects, acyclic⟩
    exact ⟨fun m hm => ⟨parents m hm, fun source hs => ⟨queries m hm source hs,
      subjects m hm source hs⟩⟩, acyclic⟩

theorem compile_eq_ok_iff {rules : List TriplesMap} {mapping : Mapping} :
    compile rules = .ok mapping ↔
      mapping = { maps := retained rules } ∧ Valid (retained rules) := by
  rw [← checks_ok_iff (retained_distinct rules)]
  cases hc : forM (retained rules) (check (retained rules)) with
  | error e => simp [compile, hc, bind, Except.bind]
  | ok =>
    cases hs : checkCycles (retained rules) with
    | error e => simp [compile, hc, hs, bind, Except.bind]
    | ok => simp [compile, hc, hs, bind, Except.bind, pure, Except.pure, eq_comm]

/-- The fault that is reported: a cycle that is there, a missing parent, or a missing property. -/
theorem compile_error {rules : List TriplesMap} {e : MappingError}
    (failed : compile rules = .error e) :
    (∃ path, e = .parentCycle path ∧ IsCycle (retained rules) path) ∨
    (∃ m ∈ retained rules, ∃ parent ∈ m.parentRefs, e = .unknownMap m.iri parent ∧
      ∀ p ∈ retained rules, p.iri ≠ parent) ∨
    ∃ name, e = .missingProperty name := by
  cases hc : forM (retained rules) (check (retained rules)) with
  | error e' =>
    obtain rfl : e' = e := by simpa [compile, hc, bind, Except.bind] using failed
    obtain ⟨m, hm, hf⟩ := forM_error hc
    rcases check_error hf with hf | hf
    · exact .inr (.inl ⟨m, hm, checkParents_error hf⟩)
    · exact .inr (.inr (checkMap_error hf))
  | ok =>
    cases hs : checkCycles (retained rules) with
    | error e' =>
      obtain rfl : e' = e := by simpa [compile, hc, hs, bind, Except.bind] using failed
      exact .inl (checkCycles_error (retained_distinct rules) hs)
    | ok => simp [compile, hc, hs, bind, Except.bind, pure, Except.pure] at failed

theorem maps_of_compile {rules : List TriplesMap} {mapping : Mapping}
    (compiled : compile rules = .ok mapping) : mapping.maps = retained rules := by
  rw [(compile_eq_ok_iff.mp compiled).1]

theorem valid_of_compile {rules : List TriplesMap} {mapping : Mapping}
    (compiled : compile rules = .ok mapping) : Valid mapping.maps := by
  rw [maps_of_compile compiled]
  exact (compile_eq_ok_iff.mp compiled).2

theorem distinct_of_compile {rules : List TriplesMap} {mapping : Mapping}
    (compiled : compile rules = .ok mapping) : (mapping.maps.map (·.iri)).Nodup := by
  rw [maps_of_compile compiled]
  exact retained_distinct rules

/-- Compilation keeps the first map of each name and succeeds exactly if these are valid. A cycle
that it reports is one, and a parent that it reports missing is missing. -/
theorem compile_decides_validity (rules : List TriplesMap) :
    (∀ m, m ∈ retained rules ↔ rules.find? (·.iri == m.iri) = some m) ∧
    ((∃ mapping, compile rules = .ok mapping) ↔ Valid (retained rules)) ∧
    (∀ mapping, compile rules = .ok mapping → mapping.maps = retained rules) ∧
    (∀ path, compile rules = .error (.parentCycle path) → IsCycle (retained rules) path) ∧
    (∀ child parent, compile rules = .error (.unknownMap child parent) →
      ∃ m ∈ retained rules, m.iri = child ∧ parent ∈ m.parentRefs ∧
        ∀ p ∈ retained rules, p.iri ≠ parent) := by
  refine ⟨fun m => mem_retained_iff, ?_, fun _ => maps_of_compile, ?_, ?_⟩
  · constructor
    · rintro ⟨mapping, compiled⟩
      exact (compile_eq_ok_iff.mp compiled).2
    · exact fun valid => ⟨_, compile_eq_ok_iff.mpr ⟨rfl, valid⟩⟩
  · intro path failed
    rcases compile_error failed with ⟨cycle, same, found⟩ | ⟨_, _, _, _, same, _⟩ | ⟨_, same⟩
    · cases same
      exact found
    · cases same
    · cases same
  · intro child parent failed
    rcases compile_error failed with ⟨_, same, _⟩ | ⟨m, hm, p, hp, same, missing⟩ | ⟨_, same⟩
    · cases same
    · cases same
      exact ⟨m, hm, rfl, hp, missing⟩
    · cases same

end CatalogGraph.Mapping
