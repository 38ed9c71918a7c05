import CatalogGraph.Proofs.ForeignNodes

/-!
Origins of literals: whatever the rows hold, a literal of the graph is written in the maps, or it has
a value of a row with the datatype and the language of a map.
-/
namespace CatalogGraph.Engine
variable {σ α β : Type}

/-- The literals that a run may state: those written in the maps, as objects or behind the class of
a sub-entity, and those that a map makes of a value. -/
inductive Worded (engine : Engine σ) : Literal → Prop
  | constant {m : TriplesMap} {pom : PredicateObjectMap} {l : Literal}
    (map : m ∈ engine.mapping.maps) (part : pom ∈ m.predicateObjectMaps)
    (object : pom.object = .constant (.literal l)) : Worded engine l
  | additional {m : TriplesMap} {pom : PredicateObjectMap} {p : String} {l : Literal}
    (map : m ∈ engine.mapping.maps) (part : pom ∈ m.predicateObjectMaps)
    (triple : (p, .literal l) ∈ pom.additionalTriples) : Worded engine l
  | valued {m : TriplesMap} {pom : PredicateObjectMap} {value : String} {l : Literal}
    (map : m ∈ engine.mapping.maps) (part : pom ∈ m.predicateObjectMaps)
    (made : pom.literalOf value = .literal l) : Worded engine l

/-- The term, if it is a literal, is one that a run may state. -/
def Told (engine : Engine σ) (t : Term) : Prop := ∀ l, t = .literal l → Worded engine l

/-- The objects of statements, if they are literals, are some that a run may state. -/
def AllTold (engine : Engine σ) (triples : List Triple) : Prop :=
  ∀ x ∈ triples, Told engine x.object

/-- A tidy state whose graph has only literals that a run may state. -/
def TellsOwn (engine : Engine σ) (s : RunState σ) : Prop :=
  Tidy s ∧ AllTold engine s.graph.triples

/-- A step leads from states with a property to such states, and what it gives has another
property. -/
def Ensures (kept : RunState σ → Prop) (step : Run σ α) (post : α → Prop) : Prop :=
  ∀ s, kept s → kept (outcome step s).2 ∧ ∀ a, (outcome step s).1 = .ok a → post a

section Rules
variable {kept : RunState σ → Prop} {step : Run σ α} {post : α → Prop}

theorem ensures_pure {a : α} (h : post a) : Ensures kept (pure a) post := by
  refine fun s hs => ⟨hs, ?_⟩
  rintro _ ⟨⟩
  exact h

theorem ensures_throw {e : MappingError} : Ensures kept (throw e : Run σ α) post :=
  fun _ hs => ⟨hs, by simp⟩

theorem ensures_bind {next : α → Run σ β} {mid : α → Prop} {post : β → Prop}
    (first : Ensures kept step mid) (second : ∀ a, mid a → Ensures kept (next a) post) :
    Ensures kept (step >>= next) post := by
  intro s hs
  obtain ⟨onward, given⟩ := first s hs
  rcases h : outcome step s with ⟨e | a, t⟩
  · rw [h] at onward
    rw [outcome_bind_error h]
    exact ⟨onward, by simp⟩
  · rw [h] at onward given
    rw [outcome_bind_ok h]
    exact second a (given a rfl) t onward

/-- A step that changes neither the graph nor the blank nodes that are in use. -/
theorem ensures_of_kept (moves : ∀ s, kept s → kept (outcome step s).2) :
    Ensures kept step fun _ => True :=
  fun s hs => ⟨moves s hs, fun _ _ => trivial⟩

end Rules

theorem told_of_not_literal {engine : Engine σ} {t : Term} (other : t.isLiteral = false) :
    Told engine t := by
  rintro l rfl
  cases other

theorem AllTold.append {engine : Engine σ} {first second : List Triple}
    (told : AllTold engine first) (told' : AllTold engine second) :
    AllTold engine (first ++ second) :=
  List.forall_mem_append.mpr ⟨told, told'⟩

/-- A step that leaves the graph as it is. -/
theorem ensures_quiet {engine : Engine σ} {step : Run σ α} {post : α → Prop}
    (quiet_ : Within quiet step) (sane_ : Within sane step) (gives : Gives step post) :
    Ensures (TellsOwn engine) step post := by
  rintro s ⟨tidy, told⟩
  obtain ⟨graph, -, -⟩ := (quiet_ s).1
  refine ⟨⟨((sane_ s).1 tidy).2, ?_⟩, gives s tidy⟩
  rw [graph]
  exact told

section Rows
variable {engine : Engine σ} {config : Config} {runParent : RunParent σ} {m : TriplesMap}
  {node : Node} {ctx : Context} {subject : Term} {pom : PredicateObjectMap} {buffer : List Triple}

theorem told_literalOf (map : m ∈ engine.mapping.maps) (part : pom ∈ m.predicateObjectMaps)
    (value : String) : Told engine (pom.literalOf value) :=
  fun _ same => .valued map part same

theorem told_termOf (map : m ∈ engine.mapping.maps) (part : pom ∈ m.predicateObjectMaps)
    {s : RunState σ} (tidy : Tidy s) (value : String) :
    Told engine (pom.termOf value s.blanks).1 := by
  unfold PredicateObjectMap.termOf
  split
  next => exact told_of_not_literal rfl
  next => exact told_of_not_literal (Term.not_literal_of_blank (tidy_forValue tidy value).2)
  next => exact told_literalOf map part value
  next =>
    split
    next => exact told_literalOf map part value
    next plain =>
      have string : pom.literalOf value = .string value := by
        simp only [Bool.or_eq_true, not_or, Option.not_isSome_iff_eq_none] at plain
        rw [PredicateObjectMap.literalOf, plain.1, plain.2]
      split
      next => exact told_of_not_literal rfl
      next => exact string ▸ told_literalOf map part value

theorem told_termsOf (map : m ∈ engine.mapping.maps) (part : pom ∈ m.predicateObjectMaps)
    {s : RunState σ} (tidy : Tidy s) (values : List String) :
    ∀ term ∈ (pom.termsOf values s.blanks).1, Told engine term := by
  induction values generalizing s with
  | nil => exact fun _ none => by cases none
  | cons value rest ih =>
    intro term hm
    rcases List.mem_cons.mp hm with rfl | hm
    · exact told_termOf map part tidy value
    · exact ih (allows_sane.termOf pom value s tidy).2 term hm

/-- The objects of a row, unless it is dropped, are told. -/
def ToldObjects (engine : Engine σ) (objects? : Option (List Term)) : Prop :=
  ∀ objects, objects? = some objects → ∀ object ∈ objects, Told engine object

theorem gives_objectTerms (map : m ∈ engine.mapping.maps) (part : pom ∈ m.predicateObjectMaps) :
    Gives (objectTerms config pom node ctx : Run σ _) (ToldObjects engine) := by
  unfold objectTerms
  split
  next term written =>
    refine gives_pure ?_
    rintro _ ⟨⟩ object hm l rfl
    obtain rfl := List.mem_singleton.mp hm
    exact .constant map part written
  next =>
    refine gives_next (allows_sane.objectValues config pom node ctx) fun r => ?_
    cases r with
    | none => exact gives_pure fun _ none => by cases none
    | some values =>
      rintro s tidy _ ⟨⟩ _ ⟨⟩
      exact told_termsOf map part tidy _

/-- The statements of a row, unless it is dropped, are told. -/
def ToldTriples (engine : Engine σ) (buffer? : Option (List Triple)) : Prop :=
  ∀ buffer, buffer? = some buffer → AllTold engine buffer

theorem toldTriples_some (told : AllTold engine buffer) : ToldTriples engine (some buffer) :=
  fun _ same => Option.some.inj same ▸ told

theorem toldTriples_none : ToldTriples engine none := fun _ none => by cases none

theorem gives_toldAttach (map : m ∈ engine.mapping.maps) (part : pom ∈ m.predicateObjectMaps)
    {object : Term} (told : Told engine object) (rest : AllTold engine buffer) :
    Gives (attach subject pom object buffer : Run σ _) (AllTold engine) := by
  have value (entity : Term) (predicate : Term) :
      AllTold engine [⟨entity, predicate, object⟩] := by simpa [AllTold] using told
  unfold attach
  split
  next => exact gives_pure (rest.append (value _ _))
  next name _ =>
    refine gives_next within_get fun s => ?_
    dsimp only
    split
    next => exact gives_pure (rest.append (value _ _))
    next =>
      refine gives_bind allows_sane.freshNode gives_freshNode fun entity fresh => ?_
      have linked : Told engine entity := told_of_not_literal fresh
      have typed : Told engine (.iri name) := told_of_not_literal rfl
      refine gives_pure (AllTold.append (AllTold.append (rest.append ?_) ?_) (value _ _))
      · simpa [AllTold] using ⟨linked, typed⟩
      · intro x hx
        obtain ⟨⟨p, o⟩, hp, rfl⟩ := List.mem_map.mp hx
        rintro l rfl
        exact .additional map part hp

theorem gives_toldAttachAll (map : m ∈ engine.mapping.maps) (part : pom ∈ m.predicateObjectMaps)
    {objects : List Term} (told : ∀ object ∈ objects, Told engine object)
    (rest : AllTold engine buffer) :
    Gives (attachAll subject pom objects buffer : Run σ _) (AllTold engine) := by
  induction objects generalizing buffer with
  | nil => exact gives_pure rest
  | cons object others ih =>
    refine gives_bind (allows_sane.attach subject pom object buffer)
      (gives_toldAttach map part (told object (by simp)) rest) fun _ more => ?_
    exact ih (fun o ho => told o (by simp [ho])) more

theorem gives_toldTriples (map : m ∈ engine.mapping.maps) (part : pom ∈ m.predicateObjectMaps)
    (rest : AllTold engine buffer) :
    Gives (ownTriples config subject node ctx pom buffer : Run σ _) (ToldTriples engine) := by
  refine gives_bind (allows_sane.objectTerms config pom node ctx)
    (gives_objectTerms map part) fun r told => ?_
  cases r with
  | none => exact gives_pure toldTriples_none
  | some objects =>
    refine gives_bind (allows_sane.attachAll subject pom objects buffer)
      (gives_toldAttachAll map part (told objects rfl) rest) fun _ more => ?_
    exact gives_pure (toldTriples_some more)

/-- The subjects that a run gives are nodes. -/
def AllNodes (subjects : List Term) : Prop := ∀ subject ∈ subjects, subject.isLiteral = false

variable (parents : ∀ iri ctx, Ensures (TellsOwn engine) (runParent iri node ctx) AllNodes)
include parents

theorem ensures_linkTriples (map : m ∈ engine.mapping.maps)
    (part : pom ∈ m.predicateObjectMaps) (rest : AllTold engine buffer) :
    Ensures (TellsOwn engine) (linkTriples config runParent subject node ctx pom buffer)
      (ToldTriples engine) := by
  unfold linkTriples
  split
  next iri _ =>
    refine ensures_bind (parents iri _) fun found nodes => ensures_pure ?_
    refine toldTriples_some (rest.append fun x hx => ?_)
    obtain ⟨parent, hp, rfl⟩ := List.mem_map.mp hx
    exact told_of_not_literal (nodes parent hp)
  next =>
    exact ensures_quiet (allows_quiet.ownTriples config subject node ctx pom buffer)
      (allows_sane.ownTriples config subject node ctx pom buffer) (gives_toldTriples map part rest)

theorem ensures_rowTriples (map : m ∈ engine.mapping.maps) {poms : List PredicateObjectMap}
    (parts : poms ⊆ m.predicateObjectMaps) (rest : AllTold engine buffer) :
    Ensures (TellsOwn engine) (rowTriples config runParent subject node ctx poms buffer)
      (ToldTriples engine) := by
  induction poms generalizing buffer with
  | nil => exact ensures_pure (toldTriples_some rest)
  | cons pom others ih =>
    obtain ⟨part, parts⟩ := List.cons_subset.mp parts
    refine ensures_bind (ensures_linkTriples parents map part rest) fun r told => ?_
    cases r with
    | none => exact ensures_pure toldTriples_none
    | some more => exact ih parts (told more rfl)

/-- The subject of a row, unless it is dropped, is a node, and its statements are told. -/
def ToldContent (engine : Engine σ) (content? : Option (Term × List Triple)) : Prop :=
  ∀ subject buffer, content? = some (subject, buffer) →
    subject.isLiteral = false ∧ AllTold engine buffer

theorem ensures_rowContent (map : m ∈ engine.mapping.maps) :
    Ensures (TellsOwn engine) (rowContent config runParent m ctx node) (ToldContent engine) := by
  have minted : Ensures (TellsOwn engine) (mintSubject config m node ctx) fun subject? =>
      ∀ subject, subject? = some subject → subject.isLiteral = false :=
    ensures_quiet (allows_quiet.mintSubject config m node ctx)
      (allows_sane.mintSubject config m node ctx) gives_mintSubject
  refine ensures_bind minted fun r named => ?_
  cases r with
  | none => exact ensures_pure fun _ _ none => by cases none
  | some subject =>
    have statements : Ensures (TellsOwn engine)
        (rowTriples config runParent subject node ctx m.predicateObjectMaps [])
        (ToldTriples engine) :=
      ensures_rowTriples parents map (List.Subset.refl _) (by simp [AllTold])
    refine ensures_bind statements fun buffer? told => ensures_pure ?_
    intro subject' buffer same
    obtain ⟨buffer', rfl, same⟩ := Option.map_eq_some_iff.mp same
    cases same
    exact ⟨named subject rfl, told buffer rfl⟩

theorem ensures_applyRow (map : m ∈ engine.mapping.maps) :
    Ensures (TellsOwn engine) (applyRow config runParent m ctx node) fun subject? =>
      ∀ subject, subject? = some subject → subject.isLiteral = false := by
  have counted : Ensures (TellsOwn engine) (countRow : Run σ Unit) fun _ => True :=
    ensures_of_kept fun _ => id
  have skipped : Ensures (TellsOwn engine) (skipRow : Run σ Unit) fun _ => True :=
    ensures_of_kept fun _ => id
  refine ensures_bind counted fun _ _ => ?_
  refine ensures_bind (ensures_rowContent parents map) fun r told => ?_
  match r, told with
  | none, _ => exact ensures_bind skipped fun _ _ => ensures_pure fun _ none => by cases none
  | some (subject, buffer), told =>
    obtain ⟨named, told⟩ := told subject buffer rfl
    dsimp only
    split
    next => exact ensures_pure fun _ none => by cases none
    next =>
      have committed : Ensures (TellsOwn engine) (commit (typeTriples m subject ++ buffer))
          fun _ => True := by
        refine ensures_of_kept fun s ⟨tidy, graph⟩ => ⟨tidy, graph.append (AllTold.append ?_ told)⟩
        intro x hx
        obtain ⟨_, _, rfl⟩ := List.mem_map.mp hx
        exact told_of_not_literal rfl
      exact ensures_bind committed fun _ _ => ensures_pure fun _ same => Option.some.inj same ▸ named

end Rows

section Maps
variable {engine : Engine σ}

theorem ensures_applyRows {kept : RunState σ → Prop} {apply : Node → Run σ (Option Term)}
    (row : ∀ node, Ensures kept (apply node) fun subject? =>
      ∀ subject, subject? = some subject → subject.isLiteral = false) (nodes : List Node) :
    Ensures kept (applyRows apply nodes) AllNodes := by
  induction nodes with
  | nil => exact ensures_pure (by simp [AllNodes])
  | cons node rest ih =>
    refine ensures_bind (row node) fun subject named => ensures_bind ih fun more others => ?_
    refine ensures_pure (List.forall_mem_append.mpr ⟨fun t ht => ?_, others⟩)
    exact named t (Option.mem_toList.mp ht)

/-- Asking a store changes neither the graph nor the blank nodes that are in use. -/
theorem ensures_queryPage (service : TripleStore σ) (query : String) (ctx : Context) :
    Ensures (TellsOwn engine) (queryPage service query ctx) fun _ => True := by
  let telling : Bound σ :=
    { moves s t := TellsOwn engine s → TellsOwn engine t
      fails _ := True
      refl _ := id
      trans first second := second ∘ first }
  have asks : Asks telling (some service) :=
    { resolve ctx name := within_modifyGet fun _ => id
      counted _ _ := id
      asked _ _ _ _ := id
      faults _ _ := trivial }
  exact ensures_of_kept fun s => (within_queryPage asks query ctx s).1

theorem ensures_queryPages {service : TripleStore σ} {config : Config}
    {apply : Node → Run σ (Option Term)}
    (row : ∀ node, Ensures (TellsOwn engine) (apply node) fun subject? =>
      ∀ subject, subject? = some subject → subject.isLiteral = false)
    (m : TriplesMap) (query : String) (ctx : Context) (left offset : Nat) :
    Ensures (TellsOwn engine) (queryPages config service apply m query ctx left offset)
      AllNodes := by
  induction left generalizing offset with
  | zero => exact ensures_throw
  | succ left ih =>
    refine ensures_bind (ensures_queryPage service query _) fun rows _ => ?_
    refine ensures_bind (ensures_applyRows row _) fun subjects nodes => ?_
    split
    next => exact ensures_pure nodes
    next =>
      refine ensures_bind (ih _) fun more others => ensures_pure ?_
      exact List.forall_mem_append.mpr ⟨nodes, others⟩

theorem ensures_runMap {runParent : RunParent σ} {m : TriplesMap} (map : m ∈ engine.mapping.maps)
    (parents : ∀ iri node ctx, Ensures (TellsOwn engine) (runParent iri node ctx) AllNodes)
    (node : Node) (ctx : Context) :
    Ensures (TellsOwn engine) (engine.runMap runParent m node ctx) AllNodes := by
  have row (node : Node) : Ensures (TellsOwn engine)
      (applyRow engine.config runParent m ctx node) fun subject? =>
        ∀ subject, subject? = some subject → subject.isLiteral = false :=
    ensures_applyRow (fun iri ctx => parents iri node ctx) map
  unfold runMap
  split
  next => exact ensures_pure (by simp [AllNodes])
  next source _ =>
    split
    next => exact ensures_throw
    next =>
      dsimp only
      split
      next =>
        split
        next => exact ensures_throw
        next service _ =>
          split
          next => exact ensures_throw
          next query _ => exact ensures_queryPages row m query ctx _ _
      next =>
        have iterates : Ensures (TellsOwn engine)
            (liftM (node.iterate engine.config.namespaces source.iterator)) fun _ => True :=
          ensures_of_kept fun s => by rw [outcome_lift]; exact id
        exact ensures_bind iterates fun nodes _ => ensures_applyRows row nodes

theorem ensures_runNamed {maps : List TriplesMap} (among : maps ⊆ engine.mapping.maps)
    (child iri : String) (node : Node) (ctx : Context) :
    Ensures (TellsOwn engine) (engine.runNamed maps child iri node ctx) AllNodes := by
  induction hn : maps.length using Nat.strong_induction_on
    generalizing maps child iri node ctx with
  | _ n ih =>
    cases found : maps.find? (·.iri == iri) with
    | none =>
      rw [runNamed_of_missing found]
      exact ensures_throw
    | some m =>
      rw [runNamed_of_found found]
      have shorter := Mapping.length_others_lt found
      have fewer : Mapping.others maps iri ⊆ engine.mapping.maps :=
        fun _ hm => among (List.mem_filter.mp hm).1
      refine ensures_runMap (among (List.mem_of_find?_eq_some found)) (fun parent node ctx => ?_) _ _
      exact ih _ (hn ▸ shorter) fewer _ _ _ _ rfl

theorem ensures_runEach {kept : RunState σ → Prop} {runOne : TriplesMap → Run σ (List Term)}
    (maps : List TriplesMap) (one : ∀ m, Ensures kept (runOne m) AllNodes) :
    Ensures kept (runEach runOne maps) AllNodes := by
  induction maps with
  | nil => exact ensures_pure (by simp [AllNodes])
  | cons m rest ih =>
    refine ensures_bind (one m) fun subjects nodes => ensures_bind ih fun more others => ?_
    exact ensures_pure (List.forall_mem_append.mpr ⟨nodes, others⟩)

theorem ensures_perform (engine : Engine σ) (call : Call) :
    Ensures (TellsOwn engine) (engine.perform call) AllNodes := by
  have named (m : TriplesMap) (node : Node) (ctx : Context) : Ensures (TellsOwn engine)
      (engine.runNamed engine.mapping.maps m.iri m.iri node ctx) AllNodes :=
    ensures_runNamed (List.Subset.refl _) m.iri m.iri node ctx
  cases call with
  | all source ctx => exact ensures_runEach _ fun m => named m _ _
  | one iri node ctx =>
    unfold perform execute
    dsimp only
    split
    next => exact ensures_throw
    next m _ => exact named m node ctx

/-- However calls follow each other and end, the literals of the graph are those that a run may
state. -/
theorem told_after (engine : Engine σ) (calls : List Call) {s : RunState σ}
    (tells : TellsOwn engine s) : TellsOwn engine (after engine calls s) := by
  induction calls generalizing s with
  | nil => exact tells
  | cons call rest ih => exact ih (ensures_perform engine call s tells).1

theorem told_start (engine : Engine σ) (store : σ) :
    TellsOwn engine (start engine.config store) :=
  ⟨tidy_start engine.config store, by simp [AllTold, start]⟩

end Maps
end CatalogGraph.Engine
