import CatalogGraph.Proofs.SplicedValues
import CatalogGraph.Proofs.TwinRuns

/-!
Contributions of a row: what a row states about its subject is what its predicate-object maps
contribute in order, behind the statements of its classes. A parent contributes a link to each
subject that it gave, and any other map a link or a sub-entity for each token of each value.
-/
namespace CatalogGraph

namespace BlankNodes
variable {b b' b'' : BlankNodes}

/-- Between two states nodes were given out, and the nodes of values stay what they are. -/
structure Grows (before after : BlankNodes) : Prop where
  start : after.start = before.start
  next : before.next ≤ after.next
  byValue : ∀ value node, before.byValue.get? value = some node →
    after.byValue.get? value = some node

theorem Grows.refl (b : BlankNodes) : b.Grows b := ⟨rfl, Nat.le_refl _, fun _ _ known => known⟩

theorem Grows.trans (first : b.Grows b') (second : b'.Grows b'') : b.Grows b'' where
  start := second.start.trans first.start
  next := first.next.trans second.next
  byValue value node known := second.byValue value node (first.byValue value node known)

theorem grows_fresh (b : BlankNodes) : b.Grows b.fresh.2 :=
  ⟨rfl, Nat.le_succ _, fun _ _ known => known⟩

theorem grows_forValue (b : BlankNodes) (value : String) : b.Grows (b.forValue value).2 := by
  unfold forValue
  split
  next => exact .refl b
  next unknown =>
    refine ⟨rfl, Nat.le_succ _, fun other node known => ?_⟩
    have differ : other ≠ value := by
      rintro rfl
      rw [unknown] at known
      cases known
    exact (Entries.get?_insert ..).trans (by rw [if_neg differ]; exact known)

/-- The node of a value is the same ever after. -/
theorem Grows.forValue {value : String} (grows : (b.forValue value).2.Grows b') :
    b'.forValue value = ((b.forValue value).1, b') := by
  have known : (b.forValue value).2.byValue.get? value = some (b.forValue value).1 := by
    unfold BlankNodes.forValue
    split
    next found => exact found
    next => simp [Entries.get?_insert]
  rw [BlankNodes.forValue, grows.byValue _ _ known]

end BlankNodes

namespace PredicateObjectMap
variable {pom : PredicateObjectMap} {b b' : BlankNodes}

theorem grows_termOf (pom : PredicateObjectMap) (value : String) (b : BlankNodes) :
    b.Grows (pom.termOf value b).2 := by
  unfold termOf
  split
  next => exact .refl b
  next => exact b.grows_forValue value
  next => exact .refl b
  next =>
    split
    next => exact .refl b
    next => split <;> exact .refl b

/-- The term of a value is the same ever after. -/
theorem termOf_of_grows {value : String} (grows : (pom.termOf value b).2.Grows b') :
    pom.termOf value b' = ((pom.termOf value b).1, b') := by
  unfold termOf at grows ⊢
  split
  next => rfl
  next type =>
    rw [type] at grows
    exact grows.forValue
  next => rfl
  next =>
    split
    next => rfl
    next => split <;> rfl

theorem grows_termsOf (pom : PredicateObjectMap) (values : List String) (b : BlankNodes) :
    b.Grows (pom.termsOf values b).2 := by
  induction values generalizing b with
  | nil => exact .refl b
  | cons value rest ih => exact (pom.grows_termOf value b).trans (ih _)

/-- Each value has its term. -/
theorem forall₂_termsOf {values : List String} (grows : (pom.termsOf values b).2.Grows b') :
    List.Forall₂ (fun value term => pom.termOf value b' = (term, b')) values
      (pom.termsOf values b).1 := by
  induction values generalizing b with
  | nil => exact .nil
  | cons value rest ih =>
    exact .cons (termOf_of_grows ((pom.grows_termsOf rest _).trans grows)) (ih grows)

/-- What a node of a class between a subject and an object states. -/
def subEntity (pom : PredicateObjectMap) (subject : Term) (cls : String) (entity object : Term) :
    List Triple :=
  [⟨subject, .iri pom.predicate, entity⟩, ⟨entity, .iri Vocabulary.rdfType, .iri cls⟩] ++
    pom.additionalTriples.map (fun (p, o) => ⟨entity, .iri p, o⟩) ++
    [⟨entity, .iri pom.valuePredicate, object⟩]

end PredicateObjectMap

namespace Engine
open BlankNodes
variable {σ α : Type}

/-- Blank nodes are given out. -/
def minting : Bound σ where
  moves s t := s.blanks.Grows t.blanks
  fails _ := True
  refl _ := .refl _
  trans := .trans

theorem allows_minting : Allows (minting : Bound σ) where
  draws _ _ := .refl _
  fresh s := s.blanks.grows_fresh
  forValue s value := s.blanks.grows_forValue value
  faults _ _ := trivial

theorem rowwise_minting (engine : Engine σ) : Rowwise minting engine where
  asks := {
    resolve := allows_minting.resolveNamed
    counted := fun _ _ => .refl _
    asked := fun _ _ _ _ => .refl _
    faults := fun _ _ => trivial }
  fails _ := trivial
  row _ _ _ _ parents := allows_minting.applyRow (fun _ _ => .refl _) (fun _ _ => .refl _) parents

/-- From one state to another blank nodes were minted, among them different ones. -/
structure Mints (s t : RunState σ) (nodes : List Term) : Prop where
  grows : s.blanks.Grows t.blanks
  fresh : ∀ node ∈ nodes, ∃ i, s.blanks.next ≤ i ∧ i < t.blanks.next ∧
    node = .blank (label s.blanks.start i)
  nodup : nodes.Nodup

theorem Mints.nothing {s t : RunState σ} (grows : s.blanks.Grows t.blanks) : Mints s t [] :=
  ⟨grows, by simp, .nil⟩

theorem Mints.trans {s t u : RunState σ} {nodes more : List Term} (mints : Mints s t nodes)
    (mints' : Mints t u more) : Mints s u (nodes ++ more) where
  grows := mints.grows.trans mints'.grows
  fresh node member := by
    have next := mints.grows.next
    have next' := mints'.grows.next
    rcases List.mem_append.mp member with member | member
    · obtain ⟨i, low, high, rfl⟩ := mints.fresh node member
      exact ⟨i, low, by omega, rfl⟩
    · obtain ⟨i, low, high, rfl⟩ := mints'.fresh node member
      exact ⟨i, by omega, high, by rw [mints.grows.start]⟩
  nodup := by
    refine List.nodup_append.mpr ⟨mints.nodup, mints'.nodup, ?_⟩
    -- the nodes of the second list have higher numbers
    rintro _ member _ member' rfl
    obtain ⟨i, _, high, rfl⟩ := mints.fresh _ member
    obtain ⟨j, low, _, same⟩ := mints'.fresh _ member'
    rw [mints.grows.start] at same
    have := label_injective (Term.blank.inj same)
    omega

/-- The nodes of consecutive numbers. -/
def numbered (start : String) (first n : Nat) : List Term :=
  (List.range' first n).map fun i => .blank (label start i)

theorem Mints.of_numbered {s t : RunState σ} {first n : Nat} (grows : s.blanks.Grows t.blanks)
    (low : s.blanks.next ≤ first) (high : first + n ≤ t.blanks.next) :
    Mints s t (numbered s.blanks.start first n) where
  grows := grows
  fresh node member := by
    obtain ⟨i, inside, rfl⟩ := List.mem_map.mp member
    rw [List.mem_range'_1] at inside
    exact ⟨i, by omega, by omega, rfl⟩
  nodup := by
    refine List.Nodup.map ?_ List.nodup_range'
    exact fun i j same => label_injective (Term.blank.inj same)

section Objects
variable {config : Config} {node : Node} {ctx : Context} {pom : PredicateObjectMap}
  {s t : RunState σ}

/-- The texts from which a map makes objects, in the order of the source: what a reference finds, or
a template with its holes filled. -/
inductive Values (config : Config) (node : Node) (ctx : Context) (pom : PredicateObjectMap)
    (draws : Draws) : List String → Prop
  | reference {text values} (object : pom.object = .reference text)
      (found : node.values config.namespaces text = .ok values) :
      Values config node ctx pom draws values
  | template {text value} (object : pom.object = .template text)
      (spliced : Spliced config node ctx (fun v => if !pom.isLiteralOnly then Text.percentEscape v
        else v) draws (Template.parts text) value.toList) :
      Values config node ctx pom draws [value]

/-- The objects of a map: a constant, or the terms of all tokens of its values in order. -/
inductive Objects (config : Config) (node : Node) (ctx : Context) (pom : PredicateObjectMap)
    (before after : RunState σ) : List Term → Prop
  | constant {term} (object : pom.object = .constant term) :
      Objects config node ctx pom before after [term]
  | tokens {values terms} (given : Values config node ctx pom before.draws values)
      (made : List.Forall₂ (fun token term => pom.termOf token after.blanks = (term, after.blanks))
        (values.flatMap fun value => splitTokens value pom.delimiters) terms) :
      Objects config node ctx pom before after terms

theorem values_of_objectValues (own : ∀ iri, pom.object ≠ .parent iri)
    (other : ∀ term, pom.object ≠ .constant term) {values : List String}
    (made : outcome (objectValues config pom node ctx) s = (.ok (some values), t)) :
    Values config node ctx pom s.draws values := by
  unfold objectValues at made
  split at made
  next text object =>
    obtain ⟨found, u, given, made⟩ := exists_of_outcome_bind made
    rw [outcome_lift] at given
    cases made
    exact .reference object (congrArg Prod.fst given)
  next text object =>
    obtain ⟨r, u, expanded, made⟩ := exists_of_outcome_bind made
    obtain ⟨r', u', filled, written⟩ := exists_of_outcome_bind expanded
    cases r' with
    | error name =>
      cases written
      cases made
    | ok cs =>
      cases written
      cases made
      refine .template object ?_
      rw [String.toList_ofList]
      exact spliced_of_fill filled
  next unread unfilled =>
    cases object : pom.object with
    | constant term => exact absurd object (other term)
    | template text => exact absurd object (unfilled text)
    | reference text => exact absurd object (unread text)
    | parent iri => exact absurd object (own iri)

theorem objects_of_objectTerms (own : ∀ iri, pom.object ≠ .parent iri) {terms : List Term}
    (made : outcome (objectTerms config pom node ctx) s = (.ok (some terms), t))
    {after : RunState σ} (grows : t.blanks.Grows after.blanks) :
    Objects config node ctx pom s after terms := by
  unfold objectTerms at made
  split at made
  next term object =>
    cases made
    exact .constant object
  next other =>
    obtain ⟨values?, u, given, made⟩ := exists_of_outcome_bind made
    cases values? with
    | none => cases made
    | some values =>
      cases made
      exact .tokens (values_of_objectValues own other given)
        (PredicateObjectMap.forall₂_termsOf grows)

end Objects

/-- The turn of a predicate-object map of a row: what it states, and the nodes of sub-entities. -/
structure Turn (σ : Type) where
  pom : PredicateObjectMap
  before : RunState σ
  after : RunState σ
  stated : List Triple
  entities : List Term := []

/-- What a predicate-object map contributes in its turn: a parent a link to each subject that it
gives; any other map a link to each object, or for each object a fresh node of the class, linked,
typed, and with the additional statements and the object. -/
inductive Turn.Contributes (config : Config) (runParent : RunParent σ) (subject : Term)
    (node : Node) (ctx : Context) : Turn σ → Prop
  | parent {pom iri s parents t} (object : pom.object = .parent iri)
      (ran : outcome (runParent iri node (linkContext ctx subject pom.predicate)) s =
        (.ok parents, t)) :
      Contributes config runParent subject node ctx
        { pom, before := s, after := t
          stated := parents.map fun parent => ⟨subject, .iri pom.predicate, parent⟩ }
  | plain {pom s terms t} (objects : Objects config node ctx pom s t terms)
      (bare : pom.subEntityClass = none) (still : quiet.moves s t)
      (grows : s.blanks.Grows t.blanks) :
      Contributes config runParent subject node ctx
        { pom, before := s, after := t
          stated := terms.map fun term => ⟨subject, .iri pom.predicate, term⟩ }
  | wrapped {pom s terms t cls first entities} (objects : Objects config node ctx pom s t terms)
      (wrapped : pom.subEntityClass = some cls) (still : quiet.moves s t)
      (grows : s.blanks.Grows t.blanks) (low : s.blanks.next ≤ first)
      (high : first + terms.length = t.blanks.next)
      (fresh : entities = numbered s.blanks.start first terms.length) :
      Contributes config runParent subject node ctx
        { pom, before := s, after := t, entities
          stated := (entities.zip terms).flatMap fun (entity, term) =>
            pom.subEntity subject cls entity term }

/-- Turns of which each begins in the state that the one before has left. -/
inductive Through : RunState σ → List (Turn σ) → RunState σ → Prop
  | nil (s : RunState σ) : Through s [] s
  | cons (turn : Turn σ) {rest : List (Turn σ)} {t : RunState σ} :
    Through turn.after rest t → Through turn.before (turn :: rest) t

section Rows
variable {config : Config} {runParent : RunParent σ} {subject : Term} {node : Node} {ctx : Context}
  {pom : PredicateObjectMap} {buffer buffer' : List Triple} {s t : RunState σ}

theorem attachAll_of_bare (alone : pom.reuse = false) (bare : pom.subEntityClass = none)
    (objects : List Term) (buffer : List Triple) :
    (attachAll subject pom objects buffer : Run σ _) =
      pure (buffer ++ objects.map fun object => ⟨subject, .iri pom.predicate, object⟩) := by
  induction objects generalizing buffer with
  | nil => simp [attachAll]
  | cons object rest ih => simp [attachAll, attach_of_alone alone, bare, ih]

theorem attachAll_of_wrapped (alone : pom.reuse = false) {cls : String}
    (wrapped : pom.subEntityClass = some cls) (objects : List Term) (buffer : List Triple)
    (s : RunState σ) :
    outcome (attachAll subject pom objects buffer) s =
      (.ok (buffer ++ ((numbered s.blanks.start s.blanks.next objects.length).zip objects).flatMap
        fun (entity, object) => pom.subEntity subject cls entity object),
      { s with blanks := { s.blanks with next := s.blanks.next + objects.length } }) := by
  induction objects generalizing buffer s with
  | nil => simp [attachAll]
  | cons object rest ih =>
    have first : outcome (attach subject pom object buffer) s =
        (.ok (buffer ++ pom.subEntity subject cls s.blanks.fresh.1 object),
          { s with blanks := s.blanks.fresh.2 }) := by
      have fresh : outcome (freshNode : Run σ Term) s =
          (.ok s.blanks.fresh.1, { s with blanks := s.blanks.fresh.2 }) := rfl
      rw [attach_of_alone alone, wrapped]
      dsimp only
      rw [outcome_bind_ok fresh]
      simp [PredicateObjectMap.subEntity]
    rw [attachAll, outcome_bind_ok first, ih]
    simp [numbered, List.range'_succ, BlankNodes.fresh, label, Nat.add_comm, Nat.add_left_comm]

/-- What a map that is no parent attaches is its contribution. -/
theorem exists_of_ownTriples (alone : pom.reuse = false) (own : ∀ iri, pom.object ≠ .parent iri)
    (done : outcome (ownTriples config subject node ctx pom buffer) s = (.ok (some buffer'), t)) :
    ∃ turn : Turn σ, turn.Contributes config runParent subject node ctx ∧ turn.pom = pom ∧
      turn.before = s ∧ turn.after = t ∧ buffer' = buffer ++ turn.stated := by
  have still := (allows_quiet.ownTriples config subject node ctx pom buffer s).1
  have grows := (allows_minting.ownTriples config subject node ctx pom buffer s).1
  rw [done] at still grows
  obtain ⟨objects?, u, found, done⟩ := exists_of_outcome_bind done
  have first := (allows_minting.objectTerms config pom node ctx s).1
  rw [found] at first
  cases objects? with
  | none => cases done
  | some objects =>
    obtain ⟨all, v, attached, done⟩ := exists_of_outcome_bind done
    cases done
    cases class_ : pom.subEntityClass with
    | none =>
      rw [attachAll_of_bare alone class_] at attached
      cases attached
      exact ⟨_, .plain (objects_of_objectTerms own found (.refl _)) class_ still grows,
        rfl, rfl, rfl, rfl⟩
    | some cls =>
      rw [attachAll_of_wrapped alone class_] at attached
      cases attached
      refine ⟨_, .wrapped (objects_of_objectTerms own found ?_) class_ still grows first.next rfl
        rfl, rfl, rfl, rfl, ?_⟩
      · exact ⟨rfl, Nat.le_add_right _ _, fun _ _ known => known⟩
      · rw [first.start]

theorem exists_of_linkTriples (alone : pom.reuse = false)
    (done : outcome (linkTriples config runParent subject node ctx pom buffer) s =
      (.ok (some buffer'), t)) :
    ∃ turn : Turn σ, turn.Contributes config runParent subject node ctx ∧ turn.pom = pom ∧
      turn.before = s ∧ turn.after = t ∧ buffer' = buffer ++ turn.stated := by
  unfold linkTriples at done
  split at done
  next iri object =>
    obtain ⟨parents, u, ran, done⟩ := exists_of_outcome_bind done
    cases done
    exact ⟨_, .parent object ran, rfl, rfl, rfl, rfl⟩
  next own => exact exists_of_ownTriples alone own done

/-- The statements of a row are the contributions of its maps in turn. -/
theorem exists_of_rowTriples {poms : List PredicateObjectMap}
    (alone : ∀ pom ∈ poms, pom.reuse = false)
    (done : outcome (rowTriples config runParent subject node ctx poms buffer) s =
      (.ok (some buffer'), t)) :
    ∃ turns : List (Turn σ), turns.map (·.pom) = poms ∧ Through s turns t ∧
      (∀ turn ∈ turns, turn.Contributes config runParent subject node ctx) ∧
      buffer' = buffer ++ turns.flatMap (·.stated) := by
  induction poms generalizing buffer s with
  | nil =>
    cases done
    exact ⟨[], rfl, .nil _, by simp, by simp⟩
  | cons pom rest ih =>
    obtain ⟨linked, u, first, done⟩ := exists_of_outcome_bind done
    cases linked with
    | none => cases done
    | some linked =>
      obtain ⟨turn, contributes, rfl, rfl, rfl, rfl⟩ :=
        exists_of_linkTriples (alone pom (by simp)) first
      obtain ⟨turns, rfl, through, later, rfl⟩ := ih (fun pom hm => alone pom (by simp [hm])) done
      refine ⟨turn :: turns, rfl, .cons turn through, ?_, by simp⟩
      rw [List.forall_mem_cons]
      exact ⟨contributes, later⟩

/-- In its turn a map only adds statements to the graph. -/
theorem Turn.Contributes.grows {turn : Turn σ}
    (parents : ∀ iri ctx, Within growing (runParent iri node ctx))
    (contributes : turn.Contributes config runParent subject node ctx) :
    Grows turn.before turn.after (addedBetween (turn.before, turn.after)) := by
  refine growing.grows ?_
  cases contributes with
  | @parent pom iri s _ _ _ ran =>
    have moves := (parents iri (linkContext ctx subject pom.predicate) s).1
    rw [ran] at moves
    exact moves
  | plain _ _ still => exact (admits_growing none).quiet _ _ still
  | wrapped _ _ still => exact (admits_growing none).quiet _ _ still

theorem Turn.Contributes.mints {turn : Turn σ}
    (parents : ∀ iri ctx, Within minting (runParent iri node ctx))
    (contributes : turn.Contributes config runParent subject node ctx) :
    Mints turn.before turn.after turn.entities := by
  cases contributes with
  | @parent pom iri s _ _ _ ran =>
    have grows := (parents iri (linkContext ctx subject pom.predicate) s).1
    rw [ran] at grows
    exact .nothing grows
  | plain _ _ _ grows => exact .nothing grows
  | wrapped _ _ _ grows low high fresh =>
    rw [fresh]
    exact .of_numbered grows low (Nat.le_of_eq high)

variable {turns : List (Turn σ)}

theorem Through.grows (through : Through s turns t)
    (each : ∀ turn ∈ turns,
      Grows turn.before turn.after (addedBetween (turn.before, turn.after))) :
    Grows s t (turns.flatMap fun turn => addedBetween (turn.before, turn.after)) := by
  induction through with
  | nil => exact .of_same rfl rfl
  | cons turn _ ih =>
    exact (each turn (by simp)).trans (ih fun later hm => each later (by simp [hm]))

theorem Through.mints (through : Through s turns t)
    (each : ∀ turn ∈ turns, Mints turn.before turn.after turn.entities) :
    Mints s t (turns.flatMap (·.entities)) := by
  induction through with
  | nil => exact .nothing (.refl _)
  | cons turn _ ih =>
    exact (each turn (by simp)).trans (ih fun later hm => each later (by simp [hm]))

/-- A row is completed by a subject, the statements of its maps, and their commit behind those of
the classes. -/
theorem exists_of_applyRow {m : TriplesMap}
    (completed : outcome (applyRow config runParent m ctx node) s = (.ok (some subject), t)) :
    ∃ u buffer v, outcome (mintSubject config m node ctx) (counted s) = (.ok (some subject), u) ∧
      outcome (rowTriples config runParent subject node ctx m.predicateObjectMaps []) u =
        (.ok (some buffer), v) ∧
      outcome (commit (typeTriples m subject ++ buffer)) v = (.ok (), t) := by
  have count : outcome (countRow : Run σ Unit) s = (.ok (), counted s) := rfl
  rw [applyRow, outcome_bind_ok count] at completed
  obtain ⟨content?, v, content, completed⟩ := exists_of_outcome_bind completed
  obtain ⟨minted?, u, minted, content⟩ := exists_of_outcome_bind content
  cases minted? with
  | none =>
    cases content
    cases completed
  | some other =>
    obtain ⟨buffer?, v', statements, content⟩ := exists_of_outcome_bind content
    cases content
    cases buffer? with
    | none => cases completed
    | some buffer =>
      dsimp only [Option.map] at completed
      split at completed
      next => cases completed
      next =>
        cases completed
        exact ⟨u, buffer, v, minted, statements, rfl⟩

end Rows

/-- What a row that is completed states about its subject, behind what its parents added meanwhile:
the classes in order, and then the contributions of the predicate-object maps in order. No two
sub-entities of the row are one node. -/
theorem completed_row_contributions {engine : Engine σ} {maps : List TriplesMap} {child : String}
    {m : TriplesMap} {ctx : Context} {node : Node} {s t : RunState σ} {subject : Term}
    (alone : ∀ pom ∈ m.predicateObjectMaps, pom.reuse = false)
    (completed : outcome (applyRow engine.config (engine.runNamed maps child) m ctx node) s =
      (.ok (some subject), t)) :
    ∃ (u v : RunState σ) (turns : List (Turn σ)),
      outcome (mintSubject engine.config m node ctx) (counted s) = (.ok (some subject), u) ∧
      turns.map (·.pom) = m.predicateObjectMaps ∧ Through u turns v ∧
      (∀ turn ∈ turns,
        turn.Contributes engine.config (engine.runNamed maps child) subject node ctx) ∧
      (turns.flatMap (·.entities)).Nodup ∧
      Grows s t ((turns.flatMap fun turn => addedBetween (turn.before, turn.after)) ++
        (typeTriples m subject ++ turns.flatMap (·.stated))) := by
  have parents (iri : String) (ctx : Context) :
      Within growing (engine.runNamed maps child iri node ctx) :=
    growing_runNamed engine maps child iri node ctx
  have parents' (iri : String) (ctx : Context) :
      Within minting (engine.runNamed maps child iri node ctx) :=
    (rowwise_minting engine).runNamed maps child iri node ctx
  obtain ⟨u, buffer, v, minted, statements, committed⟩ := exists_of_applyRow completed
  obtain ⟨turns, poms, through, contributes, rfl⟩ := exists_of_rowTriples alone statements
  have before : Grows s u [] := by
    have still := (allows_quiet.mintSubject engine.config m node ctx (counted s)).1
    rw [minted] at still
    exact .of_same still.1 (by rw [still.2.1]; rfl)
  have meanwhile := through.grows fun turn hm => (contributes turn hm).grows parents
  have mints := through.mints fun turn hm => (contributes turn hm).mints parents'
  refine ⟨u, v, turns, minted, poms, through, contributes, mints.nodup, ?_⟩
  cases committed
  exact (before.trans meanwhile).trans ⟨rfl, rfl⟩

/-- Works with titles behind nodes of their own, and the authors that a store knows. -/
def authoredWorks : TriplesMap where
  iri := "works"
  logicalSource := some { formulation := .rows }
  subjectMap := some { term := some (.template "work/{id}"), classes := ["Work"] }
  predicateObjectMaps := [{ predicate := "by", object := .parent "authors" },
    { predicate := "title", object := .reference "titles", delimiters := [";"],
      subEntityClass := some "Title", additionalTriples := [("in", .string "en")] }]

def knownAuthors : TriplesMap where
  iri := "authors"
  logicalSource := some { formulation := .sparql, query := some "authors of {subject}" }
  subjectMap := some { term := some (.reference "author") }

def authorStore : TripleStore Unit where
  query _ s := (.ok [[("author", .uri "melville")], [("author", .uri "hawthorne")]], s)
  update _ s := (.ok (), s)

def bookshelf : Engine Unit where
  mapping := { maps := [authoredWorks, knownAuthors] }
  store := some authorStore

def twoTitles : Node := .row { header := ["id", "titles"], values := ["1", "Moby-Dick; The Whale"] }

theorem two_titles_two_entities :
    (∀ pom ∈ authoredWorks.predicateObjectMaps, pom.reuse = false) ∧
    ∃ t, outcome (applyRow bookshelf.config (bookshelf.runNamed [knownAuthors] "works")
        authoredWorks .empty twoTitles) (start {} ()) = (.ok (some (.iri "work/1")), t) ∧
      t.graph.triples = [
        ⟨.iri "work/1", .iri Vocabulary.rdfType, .iri "Work"⟩,
        ⟨.iri "work/1", .iri "by", .iri "melville"⟩,
        ⟨.iri "work/1", .iri "by", .iri "hawthorne"⟩] ++
        authoredWorks.predicateObjectMaps[1].subEntity (.iri "work/1") "Title" (.blank "b0")
          (.string "Moby-Dick") ++
        authoredWorks.predicateObjectMaps[1].subEntity (.iri "work/1") "Title" (.blank "b1")
          (.string "The Whale") ∧
      ∃ turns : List (Turn Unit), turns.map (·.pom) = authoredWorks.predicateObjectMaps ∧
        (∀ turn ∈ turns, turn.Contributes bookshelf.config
          (bookshelf.runNamed [knownAuthors] "works") (.iri "work/1") twoTitles .empty) ∧
        (turns.flatMap (·.entities)).Nodup := by
  have alone : ∀ pom ∈ authoredWorks.predicateObjectMaps, pom.reuse = false := by decide
  have completed : outcome (applyRow bookshelf.config (bookshelf.runNamed [knownAuthors] "works")
      authoredWorks .empty twoTitles) (start {} ()) = (.ok (some (.iri "work/1")), _) :=
    Prod.ext (by decide +kernel) rfl
  obtain ⟨_, _, turns, _, poms, _, contributes, distinct, _⟩ :=
    completed_row_contributions alone completed
  exact ⟨alone, _, completed, by decide +kernel, turns, poms, contributes, distinct⟩

end Engine
end CatalogGraph
