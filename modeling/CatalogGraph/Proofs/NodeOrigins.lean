import CatalogGraph.Proofs.BlankNumbers
import CatalogGraph.Proofs.GraphGrowth

/-!
Origins of blank nodes: whatever a row states, a blank node in it was minted by the run, or it is
written in the maps or given by the store.
-/
namespace CatalogGraph

theorem BlankNodes.mem_minted {b : BlankNodes} {l : String} :
    l ∈ b.minted ↔ ∃ i < b.next, label b.start i = l := by
  simp [minted]

namespace Engine
open BlankNodes
variable {σ α β : Type}

/-- The labels of blank nodes from elsewhere: those written in the maps, as objects or behind the
class of a sub-entity, and those that the store gives for a variable. -/
inductive Foreign (engine : Engine σ) (store : σ) : String → Prop
  | constant {m : TriplesMap} {pom : PredicateObjectMap} {l : String}
    (map : m ∈ engine.mapping.maps) (part : pom ∈ m.predicateObjectMaps)
    (object : pom.object = .constant (.blank l)) : Foreign engine store l
  | additional {m : TriplesMap} {pom : PredicateObjectMap} {p l : String}
    (map : m ∈ engine.mapping.maps) (part : pom ∈ m.predicateObjectMaps)
    (triple : (p, .blank l) ∈ pom.additionalTriples) : Foreign engine store l
  | answered {service : TripleStore σ} {before : σ} {text name l : String} {rows : List Binding}
    {row : Binding} {value : BindingValue} (asked : engine.store = some service)
    (later : Later engine.store store before) (answer : (service.query text before).1 = .ok rows)
    (given : row ∈ rows) (found : Entries.get? name row = some value)
    (node : value.toTerm = .blank l) : Foreign engine store l

/-- The term, if it is a blank node, was minted before or comes from elsewhere. -/
def Known (engine : Engine σ) (store : σ) (t : Term) (s : RunState σ) : Prop :=
  ∀ l, t = .blank l → l ∈ s.blanks.minted ∨ Foreign engine store l

/-- The blank nodes of statements were minted before or come from elsewhere. -/
def Traceable (engine : Engine σ) (store : σ) (triples : List Triple) (s : RunState σ) : Prop :=
  ∀ x ∈ triples, Known engine store x.subject s ∧ Known engine store x.object s

/-- A state of a run that began with `store`: the blank nodes of its graph and those that stand for
values were minted before or come from elsewhere. -/
structure Traced (engine : Engine σ) (store : σ) (s : RunState σ) : Prop where
  start : s.blanks.start = engine.config.blankPrefix
  later : Later engine.store store s.store
  values : ∀ value node, Entries.get? value s.blanks.byValue = some node →
    Known engine store node s
  graph : Traceable engine store s.graph.triples s

/-- What was minted before one state was minted before another. -/
def Onward (s t : RunState σ) : Prop := s.blanks.minted ⊆ t.blanks.minted

section Known
variable {engine : Engine σ} {store : σ} {s t : RunState σ}

theorem Known.onward {term : Term} (known : Known engine store term s) (onward : Onward s t) :
    Known engine store term t :=
  fun l same => (known l same).imp_left (@onward l)

theorem known_of_named {term : Term} (named : term.isBlank = false) :
    Known engine store term s := by
  rintro l rfl
  cases named

theorem Traceable.onward {triples : List Triple} (known : Traceable engine store triples s)
    (onward : Onward s t) : Traceable engine store triples t :=
  fun x hx => (known x hx).imp (·.onward onward) (·.onward onward)

theorem Traceable.append {first second : List Triple} (known : Traceable engine store first s)
    (known' : Traceable engine store second s) : Traceable engine store (first ++ second) s :=
  List.forall_mem_append.mpr ⟨known, known'⟩

theorem onward_fresh (s : RunState σ) : Onward s { s with blanks := s.blanks.fresh.2 } := by
  intro l hl
  obtain ⟨i, hi, rfl⟩ := mem_minted.mp hl
  exact mem_minted.mpr ⟨i, by simp only [fresh]; omega, rfl⟩

theorem known_fresh (s : RunState σ) :
    Known engine store s.blanks.fresh.1 { s with blanks := s.blanks.fresh.2 } := by
  rintro _ ⟨⟩
  exact .inl (mem_minted.mpr ⟨s.blanks.next, by simp [fresh], rfl⟩)

theorem Traced.fresh (traced : Traced engine store s) :
    Traced engine store { s with blanks := s.blanks.fresh.2 } where
  start := traced.start
  later := traced.later
  values value node found := (traced.values value node found).onward (onward_fresh s)
  graph := traced.graph.onward (onward_fresh s)

theorem onward_forValue (s : RunState σ) (value : String) :
    Onward s { s with blanks := (s.blanks.forValue value).2 } := by
  unfold forValue
  split
  next => exact fun _ => id
  next => exact onward_fresh s

theorem known_forValue (traced : Traced engine store s) (value : String) :
    Known engine store (s.blanks.forValue value).1
      { s with blanks := (s.blanks.forValue value).2 } := by
  unfold forValue
  split
  next node found => exact traced.values value node found
  next => exact known_fresh s

theorem Traced.forValue (traced : Traced engine store s) (value : String) :
    Traced engine store { s with blanks := (s.blanks.forValue value).2 } := by
  cases found : Entries.get? value s.blanks.byValue with
  | some node =>
    simp only [BlankNodes.forValue, found]
    exact traced
  | none =>
    simp only [BlankNodes.forValue, found]
    have moved := traced.fresh
    refine ⟨moved.start, moved.later, ?_, moved.graph⟩
    intro other node stands
    rw [Entries.get?_insert] at stands
    split at stands
    next =>
      cases stands
      exact known_fresh s
    next => exact moved.values other node stands

/-- A state that is traced is left traced, and nothing that was minted is forgotten. -/
def tracing (engine : Engine σ) (store : σ) : Bound σ where
  moves s t := Traced engine store s → Traced engine store t ∧ Onward s t
  fails _ := True
  refl _ traced := ⟨traced, fun _ => id⟩
  trans first second traced :=
    have ⟨traced, onward⟩ := first traced
    have ⟨traced, onward'⟩ := second traced
    ⟨traced, fun _ hl => onward' (onward hl)⟩

theorem allows_tracing : Allows (tracing engine store) where
  draws _ _ traced := ⟨⟨traced.start, traced.later, traced.values, traced.graph⟩, fun _ => id⟩
  fresh s traced := ⟨traced.fresh, onward_fresh s⟩
  forValue s value traced := ⟨traced.forValue value, onward_forValue s value⟩
  faults _ _ := trivial

theorem asks_tracing : Asks (tracing engine store) engine.store where
  resolve := allows_tracing.resolveNamed
  counted _ _ traced := ⟨⟨traced.start, traced.later, traced.values, traced.graph⟩, fun _ => id⟩
  asked service hservice _ text traced :=
    ⟨⟨traced.start, traced.later.tail ⟨service, hservice, text, rfl⟩, traced.values, traced.graph⟩,
      fun _ => id⟩
  faults _ _ := trivial

end Known

/-- From traced states with a property a step leads to traced ones, and what it gives has another
property there. -/
def Traces (engine : Engine σ) (store : σ) (pre : RunState σ → Prop) (step : Run σ α)
    (post : α → RunState σ → Prop) : Prop :=
  ∀ s, Traced engine store s → pre s →
    Traced engine store (outcome step s).2 ∧ Onward s (outcome step s).2 ∧
      ∀ a, (outcome step s).1 = .ok a → post a (outcome step s).2

section Rules
variable {engine : Engine σ} {store : σ} {pre : RunState σ → Prop} {step : Run σ α}
  {post : α → RunState σ → Prop}

theorem traces_pure {a : α} (h : ∀ s, pre s → post a s) :
    Traces engine store pre (pure a) post := by
  intro s traced hs
  refine ⟨traced, fun _ => id, ?_⟩
  rintro _ ⟨⟩
  exact h s hs

theorem traces_throw {e : MappingError} : Traces engine store pre (throw e : Run σ α) post :=
  fun s traced _ => ⟨traced, fun _ => id, by simp⟩

/-- A step within the bound, whatever it gives. -/
theorem traces_of_within (within : Within (tracing engine store) step) :
    Traces engine store pre step fun _ _ => True :=
  fun s traced _ =>
    have ⟨traced, onward⟩ := (within s).1 traced
    ⟨traced, onward, fun _ _ => trivial⟩

/-- A property that a step does not take away still holds for what follows. -/
theorem traces_bind {mid : α → RunState σ → Prop} {next : α → Run σ β}
    {post : β → RunState σ → Prop} (stable : ∀ {s t}, Onward s t → pre s → pre t)
    (first : Traces engine store pre step mid)
    (second : ∀ a, Traces engine store (fun s => pre s ∧ mid a s) (next a) post) :
    Traces engine store pre (step >>= next) post := by
  intro s traced hs
  obtain ⟨traced, onward, given⟩ := first s traced hs
  rcases h : outcome step s with ⟨e | a, t⟩
  · rw [h] at traced onward
    rw [outcome_bind_error h]
    exact ⟨traced, onward, by simp⟩
  · rw [h] at traced onward given
    rw [outcome_bind_ok h]
    obtain ⟨traced, onward', given⟩ := second a t traced ⟨stable onward hs, given a rfl⟩
    exact ⟨traced, fun _ hl => onward' (onward hl), given⟩

theorem Traces.of_imp {strong : RunState σ → Prop} (traces : Traces engine store pre step post)
    (imp : ∀ s, strong s → pre s) : Traces engine store strong step post :=
  fun s traced hs => traces s traced (imp s hs)

theorem Traces.anywhere (traces : Traces engine store (fun _ => True) step post) :
    Traces engine store pre step post :=
  traces.of_imp fun _ _ => trivial

end Rules

/-- The blank nodes that a row of a query holds come from elsewhere. -/
def GivesForeign (engine : Engine σ) (store : σ) (node : Node) : Prop :=
  ∀ row name value l, node.binding? = some row → Entries.get? name row = some value →
    value.toTerm = .blank l → Foreign engine store l

section Rows
variable {engine : Engine σ} {store : σ} {config : Config} {runParent : RunParent σ}
  {m : TriplesMap} {node : Node} {ctx : Context} {subject : Term} {pom : PredicateObjectMap}
  {buffer : List Triple} {pre : RunState σ → Prop}

theorem traces_freshNode : Traces engine store pre freshNode (Known engine store) := by
  refine fun s traced _ => ⟨traced.fresh, onward_fresh s, ?_⟩
  rintro _ ⟨⟩
  exact known_fresh s

theorem traces_subjectOf (termType : TermType) (value : String) :
    Traces engine store pre (subjectOf termType value) (Known engine store) := by
  cases termType with
  | blank =>
    refine fun s traced _ => ⟨traced.forValue value, onward_forValue s value, ?_⟩
    rintro _ ⟨⟩
    exact known_forValue traced value
  | iri => exact traces_pure fun _ _ => known_of_named rfl
  | literal => exact traces_pure fun _ _ => known_of_named rfl

/-- A subject, if there is one, is known. -/
def KnownSubject (engine : Engine σ) (store : σ) (subject? : Option Term) (s : RunState σ) : Prop :=
  ∀ subject, subject? = some subject → Known engine store subject s

theorem knownSubject_none {s : RunState σ} : KnownSubject engine store none s :=
  fun _ none => by cases none

theorem knownSubject_some {s : RunState σ} (known : Known engine store subject s) :
    KnownSubject engine store (some subject) s := by
  rintro _ ⟨⟩
  exact known

theorem knownSubject_iterator (given : GivesForeign engine store node) (s : RunState σ) :
    KnownSubject engine store (iteratorSubject? m node) s := by
  rintro subject found l rfl
  unfold iteratorSubject? at found
  obtain ⟨_, _, found⟩ := Option.bind_eq_some_iff.mp found
  obtain ⟨name, _, found⟩ := Option.bind_eq_some_iff.mp found
  obtain ⟨row, hrow, found⟩ := Option.bind_eq_some_iff.mp found
  obtain ⟨value, hvalue, found⟩ := Option.bind_eq_some_iff.mp found
  split at found
  next => cases found
  next => exact .inr (given row name value l hrow hvalue (Option.some.inj found))

theorem traces_mintSubject (given : GivesForeign engine store node) :
    Traces engine store (fun _ => True) (mintSubject config m node ctx)
      (KnownSubject engine store) := by
  have iterator : Traces engine store (fun _ => True) (pure (iteratorSubject? m node))
      (KnownSubject engine store) := traces_pure fun s _ => knownSubject_iterator given s
  have named (termType : TermType) (value : String) {pre : RunState σ → Prop} :
      Traces engine store pre (do return some (← subjectOf termType value))
        (KnownSubject engine store) := by
    refine Traces.anywhere ?_
    refine traces_bind (fun _ => id) (traces_subjectOf termType value) fun term => ?_
    exact traces_pure fun s known => knownSubject_some known.2
  have nothing {pre : RunState σ → Prop} :
      Traces engine store pre (pure none) (KnownSubject engine store) :=
    traces_pure fun _ _ => knownSubject_none
  unfold mintSubject
  split
  next => exact iterator
  next s _ =>
    split
    next => exact iterator
    next iri _ => exact traces_pure fun _ _ => knownSubject_some (known_of_named rfl)
    next text _ =>
      have filled : Within (tracing engine store)
          (Template.expand (resolveHole config node ctx true) text) :=
        within_expand (allows_tracing.resolveHole config node ctx true) text
      refine traces_bind (fun _ => id) (traces_of_within filled) fun r => ?_
      cases r with
      | ok value => exact named s.termType value
      | error => exact nothing
    next text _ =>
      split
      next value found =>
        obtain ⟨row, hrow, hvalue⟩ := Option.bind_eq_some_iff.mp found
        dsimp only
        split
        next => exact named s.termType value.value
        next =>
          refine traces_pure fun _ _ => knownSubject_some fun l same => .inr ?_
          exact given row text value l hrow hvalue same
      next =>
        have looked : Within (tracing engine store) (liftM (node.first? config.namespaces text)) :=
          within_lift fun _ _ => trivial
        refine traces_bind (fun _ => id) (traces_of_within looked) fun r => ?_
        cases r with
        | some value => exact named s.termType value
        | none => exact nothing
    next =>
      refine traces_bind (fun _ => id) traces_freshNode fun term => ?_
      exact traces_pure fun s known => knownSubject_some known.2

theorem known_termOf {s : RunState σ} (traced : Traced engine store s) (value : String) :
    Known engine store (pom.termOf value s.blanks).1
      { s with blanks := (pom.termOf value s.blanks).2 } := by
  have literal (s : RunState σ) : Known engine store (pom.literalOf value) s := by
    unfold PredicateObjectMap.literalOf
    split <;> exact known_of_named rfl
  unfold PredicateObjectMap.termOf
  split
  next => exact known_of_named rfl
  next => exact known_forValue traced value
  next => exact literal s
  next =>
    split
    next => exact literal s
    next => split <;> exact known_of_named rfl

theorem known_termsOf {s : RunState σ} (traced : Traced engine store s) (values : List String) :
    ∀ term ∈ (pom.termsOf values s.blanks).1, Known engine store term
      { s with blanks := (pom.termsOf values s.blanks).2 } := by
  induction values generalizing s with
  | nil => exact fun _ none => by cases none
  | cons value rest ih =>
    intro term hm
    have traced' := (allows_tracing.termOf pom value s traced).1
    rcases List.mem_cons.mp hm with rfl | hm
    · exact (known_termOf traced value).onward (allows_tracing.termsOf pom rest _ traced').2
    · exact ih traced' term hm

/-- The objects of a row, unless it is dropped, are known. -/
def KnownObjects (engine : Engine σ) (store : σ) (objects? : Option (List Term))
    (s : RunState σ) : Prop :=
  ∀ objects, objects? = some objects → ∀ object ∈ objects, Known engine store object s

theorem traces_objectTerms (map : m ∈ engine.mapping.maps) (part : pom ∈ m.predicateObjectMaps) :
    Traces engine store pre (objectTerms config pom node ctx) (KnownObjects engine store) := by
  refine Traces.anywhere ?_
  unfold objectTerms
  split
  next term written =>
    refine traces_pure fun s _ => ?_
    rintro _ ⟨⟩ object hm l rfl
    obtain rfl := List.mem_singleton.mp hm
    exact .inr (.constant map part written)
  next =>
    have values : Within (tracing engine store) (objectValues config pom node ctx) :=
      allows_tracing.objectValues config pom node ctx
    refine traces_bind (fun _ => id) (traces_of_within values) fun r => ?_
    cases r with
    | none => exact traces_pure fun _ _ _ none => by cases none
    | some values =>
      intro s traced _
      obtain ⟨traced', onward⟩ := allows_tracing.termsOf pom
        (values.flatMap fun value => splitTokens value pom.delimiters) s traced
      refine ⟨traced', onward, ?_⟩
      rintro _ ⟨⟩ _ ⟨⟩
      exact known_termsOf traced _

theorem mem_of_findReusable {g : Graph} {predicate cls entity : Term}
    (found : findReusable? g buffer subject predicate cls = some entity) :
    ∃ x ∈ buffer ++ g.triples, x.object = entity := by
  have hm := List.mem_of_find?_eq_some found
  rcases List.mem_append.mp hm with hm | hm
  · obtain ⟨x, hx, rfl⟩ := List.mem_map.mp hm
    exact ⟨x, List.mem_append_left _ (List.mem_filter.mp hx).1, rfl⟩
  · obtain ⟨x, hx, rfl⟩ := List.mem_map.mp hm
    exact ⟨x, List.mem_append_right _ (List.mem_filter.mp hx).1, rfl⟩

/-- The subject of a row and its statements so far are known. -/
def RowKnown (engine : Engine σ) (store : σ) (subject : Term) (buffer : List Triple)
    (s : RunState σ) : Prop :=
  Known engine store subject s ∧ Traceable engine store buffer s

theorem RowKnown.onward {s t : RunState σ} (known : RowKnown engine store subject buffer s)
    (onward : Onward s t) : RowKnown engine store subject buffer t :=
  ⟨known.1.onward onward, known.2.onward onward⟩

theorem traces_attach (map : m ∈ engine.mapping.maps) (part : pom ∈ m.predicateObjectMaps)
    (object : Term) :
    Traces engine store
      (fun s => RowKnown engine store subject buffer s ∧ Known engine store object s)
      (attach subject pom object buffer) (Traceable engine store) := by
  have stable {s t : RunState σ} (onward : Onward s t)
      (known : RowKnown engine store subject buffer s ∧ Known engine store object s) :
      RowKnown engine store subject buffer t ∧ Known engine store object t :=
    ⟨known.1.onward onward, known.2.onward onward⟩
  unfold attach
  split
  next =>
    refine traces_pure fun s ⟨⟨subject, rest⟩, object⟩ => rest.append ?_
    simpa [Traceable] using ⟨subject, object⟩
  next name _ =>
    -- The state that is read is the one the graph of which may hold a node to use again.
    intro s traced known
    rw [outcome_bind_ok (outcome_get s)]
    dsimp only
    split
    next entity found =>
      refine ⟨traced, fun _ => id, ?_⟩
      rintro _ ⟨⟩
      obtain ⟨⟨subject, rest⟩, object⟩ := known
      split at found
      next =>
        obtain ⟨x, hx, rfl⟩ := mem_of_findReusable found
        have entity : Known engine store x.object s := (rest.append traced.graph x hx).2
        refine rest.append ?_
        simpa [Traceable] using ⟨entity, object⟩
      next => cases found
    next =>
      refine traces_bind stable traces_freshNode (fun entity => ?_) s traced known
      refine traces_pure fun t ⟨⟨⟨subject, rest⟩, object⟩, entity⟩ => ?_
      refine Traceable.append (Traceable.append (rest.append ?_) ?_) ?_
      · simpa [Traceable] using ⟨⟨subject, entity⟩, entity, known_of_named rfl⟩
      · intro x hx
        obtain ⟨⟨p, o⟩, hp, rfl⟩ := List.mem_map.mp hx
        refine ⟨entity, ?_⟩
        rintro l rfl
        exact .inr (.additional map part hp)
      · simpa [Traceable] using ⟨entity, object⟩

theorem traces_attachAll (map : m ∈ engine.mapping.maps) (part : pom ∈ m.predicateObjectMaps)
    (objects : List Term) :
    Traces engine store (fun s => RowKnown engine store subject buffer s ∧
        ∀ object ∈ objects, Known engine store object s)
      (attachAll subject pom objects buffer) (Traceable engine store) := by
  induction objects generalizing buffer with
  | nil => exact traces_pure fun s known => known.1.2
  | cons object rest ih =>
    have first : Traces engine store (fun s => RowKnown engine store subject buffer s ∧
        ∀ o ∈ object :: rest, Known engine store o s)
        (attach subject pom object buffer) (Traceable engine store) :=
      (traces_attach map part object).of_imp fun s known => ⟨known.1, known.2 object (by simp)⟩
    refine traces_bind (fun onward known =>
      ⟨known.1.onward onward, fun o ho => (known.2 o ho).onward onward⟩) first fun more => ?_
    exact ih.of_imp fun s known =>
      ⟨⟨known.1.1.1, known.2⟩, fun o ho => known.1.2 o (by simp [ho])⟩

/-- The statements of a row, unless it is dropped, are known. -/
def KnownTriples (engine : Engine σ) (store : σ) (buffer? : Option (List Triple))
    (s : RunState σ) : Prop :=
  ∀ buffer, buffer? = some buffer → Traceable engine store buffer s

theorem knownTriples_some {s : RunState σ} (known : Traceable engine store buffer s) :
    KnownTriples engine store (some buffer) s := by
  rintro _ ⟨⟩
  exact known

theorem knownTriples_none {s : RunState σ} : KnownTriples engine store none s :=
  fun _ none => by cases none

theorem traces_ownTriples (map : m ∈ engine.mapping.maps) (part : pom ∈ m.predicateObjectMaps) :
    Traces engine store (RowKnown engine store subject buffer)
      (ownTriples config subject node ctx pom buffer) (KnownTriples engine store) := by
  refine traces_bind (fun onward known => known.onward onward)
    (traces_objectTerms map part) fun r => ?_
  cases r with
  | none => exact traces_pure fun _ _ => knownTriples_none
  | some objects =>
    have attached : Traces engine store (fun s => RowKnown engine store subject buffer s ∧
        KnownObjects engine store (some objects) s) (attachAll subject pom objects buffer)
        (Traceable engine store) :=
      (traces_attachAll map part objects).of_imp fun s known => ⟨known.1, known.2 objects rfl⟩
    refine traces_bind (fun onward known => ⟨known.1.onward onward,
      fun os same o ho => (known.2 os same o ho).onward onward⟩) attached fun more => ?_
    exact traces_pure fun s known => knownTriples_some known.2

/-- The subjects that the run of a parent gives are known. -/
def KnownSubjects (engine : Engine σ) (store : σ) (subjects : List Term) (s : RunState σ) : Prop :=
  ∀ subject ∈ subjects, Known engine store subject s

variable (parents : ∀ iri ctx, Traces engine store (fun _ => True) (runParent iri node ctx)
  (KnownSubjects engine store))
include parents

theorem traces_linkTriples (map : m ∈ engine.mapping.maps)
    (part : pom ∈ m.predicateObjectMaps) :
    Traces engine store (RowKnown engine store subject buffer)
      (linkTriples config runParent subject node ctx pom buffer) (KnownTriples engine store) := by
  unfold linkTriples
  split
  next iri _ =>
    refine traces_bind (fun onward known => known.onward onward) (parents iri _).anywhere
      fun found => ?_
    refine traces_pure fun s ⟨⟨subject, rest⟩, found⟩ => knownTriples_some (rest.append ?_)
    intro x hx
    obtain ⟨parent, hp, rfl⟩ := List.mem_map.mp hx
    exact ⟨subject, found parent hp⟩
  next => exact traces_ownTriples map part

theorem traces_rowTriples (map : m ∈ engine.mapping.maps) (poms : List PredicateObjectMap)
    (parts : poms ⊆ m.predicateObjectMaps) :
    Traces engine store (RowKnown engine store subject buffer)
      (rowTriples config runParent subject node ctx poms buffer) (KnownTriples engine store) := by
  induction poms generalizing buffer with
  | nil => exact traces_pure fun s known => knownTriples_some known.2
  | cons pom rest ih =>
    obtain ⟨part, parts⟩ := List.cons_subset.mp parts
    refine traces_bind (fun onward known => known.onward onward)
      (traces_linkTriples parents map part) fun r => ?_
    cases r with
    | none => exact traces_pure fun _ _ => knownTriples_none
    | some more =>
      exact (ih parts).of_imp fun s known => ⟨known.1.1, known.2 more rfl⟩

/-- The subject and the statements of a row, unless it is dropped, are known. -/
def KnownContent (engine : Engine σ) (store : σ) (content? : Option (Term × List Triple))
    (s : RunState σ) : Prop :=
  ∀ subject buffer, content? = some (subject, buffer) → RowKnown engine store subject buffer s

theorem traces_rowContent (map : m ∈ engine.mapping.maps)
    (given : GivesForeign engine store node) :
    Traces engine store (fun _ => True) (rowContent config runParent m ctx node)
      (KnownContent engine store) := by
  refine traces_bind (fun _ => id) (traces_mintSubject given) fun r => ?_
  cases r with
  | none => exact traces_pure fun _ _ _ _ none => by cases none
  | some subject =>
    have statements : Traces engine store
        (fun s => True ∧ KnownSubject engine store (some subject) s)
        (rowTriples config runParent subject node ctx m.predicateObjectMaps [])
        (KnownTriples engine store) :=
      (traces_rowTriples parents map _ (List.Subset.refl _)).of_imp fun s known =>
        ⟨known.2 subject rfl, by simp [Traceable]⟩
    refine traces_bind (fun onward known =>
      ⟨trivial, fun t same => (known.2 t same).onward onward⟩) statements fun buffer? => ?_
    refine traces_pure fun s known => ?_
    intro _ _ same
    obtain ⟨rest, rfl, same⟩ := Option.map_eq_some_iff.mp same
    cases same
    exact ⟨known.1.2 subject rfl, known.2 _ rfl⟩

theorem traces_applyRow (map : m ∈ engine.mapping.maps) (given : GivesForeign engine store node) :
    Traces engine store (fun _ => True) (applyRow config runParent m ctx node)
      (KnownSubject engine store) := by
  have counts (f : RunStats → RunStats) : Within (tracing engine store)
      (modify fun s => { s with stats := f s.stats } : Run σ Unit) :=
    within_modify fun s traced =>
      ⟨⟨traced.start, traced.later, traced.values, traced.graph⟩, fun _ => id⟩
  have counted : Within (tracing engine store) (countRow : Run σ Unit) :=
    counts fun stats => { stats with rows := stats.rows + 1 }
  have skipped : Within (tracing engine store) (skipRow : Run σ Unit) :=
    counts fun stats => { stats with skipped := stats.skipped + 1 }
  refine traces_bind (fun _ => id) (traces_of_within counted) fun _ => ?_
  refine traces_bind (fun _ => id) (traces_rowContent parents map given).anywhere fun r => ?_
  match r with
  | none =>
    have skip : Traces engine store (fun s => (True ∧ True) ∧ KnownContent engine store none s)
        skipRow fun _ _ => True := traces_of_within skipped
    exact traces_bind (fun _ known => ⟨known.1, fun _ _ none => by cases none⟩) skip fun _ =>
      traces_pure fun _ _ => knownSubject_none
  | some (subject, buffer) =>
    dsimp only
    split
    next => exact traces_pure fun _ _ => knownSubject_none
    next =>
      intro s traced known
      obtain ⟨subjectKnown, statements⟩ := known.2 subject buffer rfl
      refine ⟨⟨traced.start, traced.later, traced.values, ?_⟩, fun _ => id, ?_⟩
      · refine traced.graph.append (Traceable.append ?_ statements)
        intro x hx
        obtain ⟨_, _, rfl⟩ := List.mem_map.mp hx
        exact ⟨subjectKnown, known_of_named rfl⟩
      · rintro _ ⟨⟩
        exact knownSubject_some subjectKnown

end Rows

end Engine
end CatalogGraph
