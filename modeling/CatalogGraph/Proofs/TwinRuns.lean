import CatalogGraph.Proofs.BlankNumbers
import CatalogGraph.Proofs.NestedMaps
import Mathlib.Data.List.Forall2

/-!
Twin runs: a run on a row of a table does the same whatever was minted before, but for the numbers
of the blank nodes that it mints.
-/
namespace CatalogGraph
open BlankNodes

/-- Terms that stand for each other in two runs, of which the second one had minted `base` nodes
more when they began; `k` nodes are minted before the terms are compared. -/
inductive Term.Twin (start : String) (base k : Nat) : Term → Term → Prop
  | named {t : Term} (named : t.isBlank = false) : Twin start base k t t
  | minted {i : Nat} (earlier : i < k) :
    Twin start base k (.blank (label start i)) (.blank (label start (base + i)))

/-- Statements that stand for each other in two runs. -/
structure Triple.Twin (start : String) (base k : Nat) (x x' : Triple) : Prop where
  subject : x.subject.Twin start base k x'.subject
  predicate : x.predicate = x'.predicate
  object : x.object.Twin start base k x'.object

section Twin
variable {start : String} {base k k' : Nat}

theorem Term.Twin.mono {t t' : Term} (twin : t.Twin start base k t') (le : k ≤ k') :
    t.Twin start base k' t' := by
  cases twin with
  | named named => exact .named named
  | minted earlier => exact .minted (by omega)

theorem Term.Twin.below {t t' : Term} (twin : t.Twin start base k t') : t.Below start k := by
  cases twin with
  | named named => exact below_of_named named
  | minted earlier =>
    rintro _ ⟨⟩
    exact ⟨_, earlier, rfl⟩

theorem Term.Twin.eq_rename {t t' : Term} (twin : t.Twin start base k t') :
    t' = t.renameBlank (relabel start (base + ·)) := by
  cases twin with
  | named named =>
    cases t with
    | blank => cases named
    | iri => rfl
    | literal => rfl
  | minted earlier => simp [renameBlank]

theorem Triple.Twin.mono {x x' : Triple} (twin : x.Twin start base k x') (le : k ≤ k') :
    x.Twin start base k' x' :=
  ⟨twin.subject.mono le, twin.predicate, twin.object.mono le⟩

theorem Triple.Twin.below {x x' : Triple} (twin : x.Twin start base k x') : x.Below start k :=
  ⟨twin.subject.below, twin.object.below⟩

theorem Triple.Twin.eq_renumber {x x' : Triple} (twin : x.Twin start base k x') :
    x' = x.renumber start (base + ·) := by
  obtain ⟨subject, predicate, object⟩ := x'
  obtain ⟨subjects, same, objects⟩ := twin
  have subjects := subjects.eq_rename
  have objects := objects.eq_rename
  dsimp only at subjects same objects
  rw [subjects, ← same, objects]
  rfl

theorem below_of_twins {xs xs' : List Triple}
    (twins : List.Forall₂ (Triple.Twin start base k) xs xs') : ∀ x ∈ xs, x.Below start k := by
  induction twins with
  | nil => exact fun _ none => by cases none
  | cons twin _ ih =>
    intro x hx
    rcases List.mem_cons.mp hx with rfl | hx
    · exact twin.below
    · exact ih x hx

theorem eq_renumber_of_twins {xs xs' : List Triple}
    (twins : List.Forall₂ (Triple.Twin start base k) xs xs') :
    xs' = xs.map (Triple.renumber start (base + ·)) := by
  induction twins with
  | nil => rfl
  | cons twin _ ih => rw [List.map_cons, ← ih, ← twin.eq_renumber]

end Twin

/-- The state after something was added. -/
def RunState.grow {σ : Type} (s : RunState σ) (g : Engine.Growth) : RunState σ :=
  { s with
    graph := s.graph.addAll g.added
    blanks := { s.blanks with next := s.blanks.next + g.minted }
    stats := { s.stats with
      rows := s.stats.rows + g.rows
      skipped := s.stats.skipped + g.skipped
      triples := s.stats.triples + g.added.length } }

namespace Engine
variable {σ α β : Type} {start : String} {base k : Nat}

theorem grow_nil (s : RunState σ) : s.grow {} = s := by
  simp [RunState.grow, Graph.addAll]

theorem grow_grow (s : RunState σ) (g h : Growth) : (s.grow g).grow h = s.grow (g ++ h) := by
  obtain ⟨graph, blanks, stats, draws, store⟩ := s
  simp only [RunState.grow, Graph.addAll, HAppend.hAppend, Append.append]
  simp [Nat.add_assoc]

theorem grow_injective (s : RunState σ) : Function.Injective s.grow := by
  intro g h same
  have added : s.graph.triples ++ g.added = s.graph.triples ++ h.added :=
    congrArg (fun t => t.graph.triples) same
  have minted : s.blanks.next + g.minted = s.blanks.next + h.minted :=
    congrArg (fun t => t.blanks.next) same
  have rows : s.stats.rows + g.rows = s.stats.rows + h.rows :=
    congrArg (fun t => t.stats.rows) same
  have skipped : s.stats.skipped + g.skipped = s.stats.skipped + h.skipped :=
    congrArg (fun t => t.stats.skipped) same
  ext1
  · exact List.append_cancel_left added
  all_goals omega

/-- After `k` nodes a step gives a value and adds something, whatever else the state is. -/
def Yields (start : String) (k : Nat) (step : Run σ α) (a : α) (g : Growth) : Prop :=
  ∀ s : RunState σ, s.blanks.start = start → s.blanks.next = k →
    outcome step s = (.ok a, s.grow g)

theorem yields_of_same {step : Run σ α} {a : α} (same : ∀ s, outcome step s = (.ok a, s)) :
    Yields start k step a {} := by
  intro s _ _
  rw [same, grow_nil]

theorem Yields.bind {step : Run σ α} {next : α → Run σ β} {a : α} {b : β} {g h : Growth}
    (first : Yields start k step a g) (second : Yields start (k + g.minted) (next a) b h) :
    Yields start k (step >>= next) b (g ++ h) := by
  intro s hs hk
  have begun : (s.grow g).blanks.start = start := hs
  have minted : (s.grow g).blanks.next = k + g.minted := congrArg (· + g.minted) hk
  rw [outcome_bind_ok (first s hs hk), second _ begun minted, grow_grow]

/-- Growths that stand for each other in two runs. -/
structure Growth.Twin (start : String) (base k : Nat) (g g' : Growth) : Prop where
  added : List.Forall₂ (Triple.Twin start base k) g.added g'.added
  minted : g.minted = g'.minted
  rows : g.rows = g'.rows
  skipped : g.skipped = g'.skipped

theorem Growth.Twin.append {g g' h h' : Growth} {k' : Nat} (first : g.Twin start base k g')
    (le : k ≤ k') (second : h.Twin start base k' h') :
    (g ++ h).Twin start base k' (g' ++ h') where
  added := List.rel_append (first.added.imp fun _ _ twin => twin.mono le) second.added
  minted := congrArg₂ (· + ·) first.minted second.minted
  rows := congrArg₂ (· + ·) first.rows second.rows
  skipped := congrArg₂ (· + ·) first.skipped second.skipped

/-- Two steps, the second one after `base` nodes more than the first, add what stands for each
other, and so do their values. -/
def Twins (start : String) (base k : Nat) (rel : Nat → α → α → Prop) (step step' : Run σ α) :
    Prop :=
  ∃ a a' g g', Yields start k step a g ∧ Yields start (base + k) step' a' g' ∧
    g.Twin start base (k + g.minted) g' ∧ rel (k + g.minted) a a'

theorem twins_pure {rel : Nat → α → α → Prop} {a a' : α} (related : rel k a a') :
    Twins start base k rel (pure a : Run σ α) (pure a') :=
  ⟨a, a', {}, {}, yields_of_same fun _ => rfl, yields_of_same fun _ => rfl,
    ⟨.nil, rfl, rfl, rfl⟩, related⟩

theorem Twins.bind {mid : Nat → α → α → Prop} {rel : Nat → β → β → Prop} {step step' : Run σ α}
    {next next' : α → Run σ β} (first : Twins start base k mid step step')
    (second : ∀ k', k ≤ k' → ∀ a a', mid k' a a' →
      Twins start base k' rel (next a) (next' a')) :
    Twins start base k rel (step >>= next) (step' >>= next') := by
  obtain ⟨a, a', g, g', yields, yields', twin, related⟩ := first
  obtain ⟨b, b', h, h', later, later', twin', related'⟩ :=
    second (k + g.minted) (Nat.le_add_right _ _) a a' related
  have count : (g ++ h).minted = g.minted + h.minted := rfl
  rw [Nat.add_assoc, ← count] at twin' related'
  refine ⟨b, b', g ++ h, g' ++ h', yields.bind later, yields'.bind ?_, ?_, related'⟩
  · rw [← twin.minted, Nat.add_assoc]
    exact later'
  · exact twin.append (by omega) twin'

theorem twins_pure_bind {rel : Nat → β → β → Prop} {step : Run σ α} {next next' : α → Run σ β}
    {a : α} (settled : step = pure a) (later : Twins start base k rel (next a) (next' a)) :
    Twins start base k rel (step >>= next) (step >>= next') := by
  rw [settled, pure_bind, pure_bind]
  exact later

end Engine

/-- A name stands for a generator. -/
def Context.Draws (ctx : Context) (name : String) : Prop :=
  ∃ g, Entries.get? name ctx = some (.generator g)

theorem Engine.get?_linkContext (ctx : Context) (subject : Term) (predicate name : String) :
    Entries.get? name (linkContext ctx subject predicate) =
      if name = "subject" then some (.text subject.lexical)
      else if name = "predicate" then some (.text predicate)
      else Entries.get? name ctx := by
  have before : "predicate" < "subject" := by decide
  simp only [linkContext, Context.merged, Context.set, Context.empty, Entries.insertAll,
    Entries.insert, before, if_true, List.foldl_cons, List.foldl_nil, Entries.get?_insert]

theorem Context.draws_linkContext {ctx : Context} {subject : Term} {predicate name : String}
    (draws : (Engine.linkContext ctx subject predicate).Draws name) :
    name ≠ "subject" ∧ name ≠ "predicate" ∧ ctx.Draws name := by
  obtain ⟨g, found⟩ := draws
  rw [Engine.get?_linkContext] at found
  split at found
  next => cases found
  next other =>
    split at found
    next => cases found
    next other' => exact ⟨other, other', g, found⟩

namespace Template
variable {m : Type → Type} [Monad m] [LawfulMonad m] {resolve : String → m (Option String)}

theorem fill_eq_pure {parts : List Part}
    (settled : ∀ name, .hole name ∈ parts → ∃ value, resolve name = pure value) :
    ∃ r, fill resolve parts = pure r := by
  induction parts with
  | nil => exact ⟨_, rfl⟩
  | cons part rest ih =>
    obtain ⟨r, later⟩ := ih fun name h => settled name (by simp [h])
    cases part with
    | char c =>
      simp only [fill, later, pure_bind]
      cases r <;> exact ⟨_, rfl⟩
    | hole name =>
      obtain ⟨value, here⟩ := settled name (by simp)
      simp only [fill, here, later, pure_bind]
      cases value with
      | none => exact ⟨_, rfl⟩
      | some value => cases r <;> exact ⟨_, rfl⟩

theorem expand_eq_pure {template : String}
    (settled : ∀ name ∈ names template, ∃ value, resolve name = pure value) :
    ∃ r, expand resolve template = pure r := by
  obtain ⟨r, filled⟩ := fill_eq_pure fun name h => settled name (mem_names_iff.mpr h)
  simp only [expand, filled, pure_bind]
  cases r <;> exact ⟨_, rfl⟩

end Template

/-- Subjects are made of a value. -/
def SubjectTerm.IsValue : SubjectTerm → Prop
  | .template _ => True
  | .reference _ => True
  | _ => False

/-- Objects are made of values. -/
def ObjectTerm.IsValue : ObjectTerm → Prop
  | .template _ => True
  | .reference _ => True
  | _ => False

/-- The names that the template of the objects looks up. -/
def PredicateObjectMap.holes (pom : PredicateObjectMap) : List String :=
  match pom.object with
  | .template text => Template.names text
  | _ => []

/-- The names that the templates of a map look up. -/
def TriplesMap.holes (m : TriplesMap) : List String :=
  let subject := match m.subjectMap.bind (·.term) with
    | some (.template text) => Template.names text
    | _ => []
  subject ++ m.predicateObjectMaps.flatMap (·.holes)

/-- No node is reused, none stands for a value, and none is named by the map. -/
structure PredicateObjectMap.Plain (pom : PredicateObjectMap) : Prop where
  reuse : pom.reuse = false
  value : pom.object.IsValue → pom.termType ≠ some .blank
  constant : ∀ term, pom.object = .constant term → term.isBlank = false
  additional : ∀ entry ∈ pom.additionalTriples, entry.2.isBlank = false

/-- A map works on the rows of tables. It neither knows blank nodes nor gives them to values, and it
links none to parents. -/
structure TriplesMap.RowsOnly (m : TriplesMap) : Prop where
  rows : ∀ source, m.logicalSource = some source → source.formulation = .rows
  value : ∀ s term, m.subjectMap = some s → s.term = some term → term.IsValue → s.termType ≠ .blank
  linked : ∀ s, m.subjectMap = some s → s.term = some .blank → m.parentRefs = []
  objects : ∀ pom ∈ m.predicateObjectMaps, pom.Plain

theorem PredicateObjectMap.termOf_of_named {pom : PredicateObjectMap}
    (named : pom.termType ≠ some .blank) (value : String) :
    ∃ t : Term, t.isBlank = false ∧ ∀ b, pom.termOf value b = (t, b) := by
  have literal : (pom.literalOf value).isBlank = false := by
    unfold literalOf
    split <;> rfl
  unfold termOf
  split
  next => exact ⟨_, rfl, fun _ => rfl⟩
  next h => exact absurd h named
  next => exact ⟨_, literal, fun _ => rfl⟩
  next =>
    split
    next => exact ⟨_, literal, fun _ => rfl⟩
    next =>
      split
      next => exact ⟨_, rfl, fun _ => rfl⟩
      next => exact ⟨_, rfl, fun _ => rfl⟩

theorem PredicateObjectMap.termsOf_of_named {pom : PredicateObjectMap}
    (named : pom.termType ≠ some .blank) (values : List String) :
    ∃ ts : List Term, (∀ t ∈ ts, t.isBlank = false) ∧ ∀ b, pom.termsOf values b = (ts, b) := by
  induction values with
  | nil => exact ⟨[], by simp, fun _ => rfl⟩
  | cons value rest ih =>
    obtain ⟨t, ht, first⟩ := termOf_of_named named value
    obtain ⟨ts, hts, later⟩ := ih
    refine ⟨t :: ts, ?_, fun b => by simp only [termsOf, first, later]⟩
    intro x hx
    rcases List.mem_cons.mp hx with rfl | hx
    · exact ht
    · exact hts x hx

namespace Engine
variable {σ : Type} {start : String} {base k : Nat} {config : Config} {row : Row} {ctx : Context}

theorem resolveNamed_eq_pure {name : String} (undrawn : ¬ ctx.Draws name) :
    ∃ value, (resolveNamed ctx name : Run σ _) = pure value := by
  cases found : Entries.get? name ctx with
  | none =>
    refine ⟨none, eq_of_outcome fun s => ?_⟩
    simp [resolveNamed, Context.resolve, found]
  | some value =>
    cases value with
    | text text =>
      refine ⟨some text, eq_of_outcome fun s => ?_⟩
      simp [resolveNamed, Context.resolve, found, ContextValue.resolve]
    | generator g => exact absurd ⟨g, found⟩ undrawn

theorem resolveHole_eq_pure {name : String} (undrawn : ¬ ctx.Draws name) (escape : Bool) :
    ∃ value, (resolveHole config (.row row) ctx escape name : Run σ _) = pure value := by
  obtain ⟨value, named⟩ := resolveNamed_eq_pure (σ := σ) undrawn
  rw [resolveHole, named, pure_bind]
  cases value <;> exact ⟨_, rfl⟩

theorem expand_row_eq_pure {text : String}
    (undrawn : ∀ name ∈ Template.names text, ¬ ctx.Draws name) (escape : Bool) :
    ∃ r, (Template.expand (resolveHole config (.row row) ctx escape) text : Run σ _) = pure r :=
  Template.expand_eq_pure fun name h => resolveHole_eq_pure (undrawn name h) escape

theorem objectValues_eq_pure {pom : PredicateObjectMap}
    (undrawn : ∀ name ∈ pom.holes, ¬ ctx.Draws name) :
    ∃ values, (objectValues config pom (.row row) ctx : Run σ _) = pure values := by
  unfold objectValues PredicateObjectMap.holes at *
  split
  next => exact ⟨_, rfl⟩
  next text h =>
    rw [h] at undrawn
    obtain ⟨r, filled⟩ := expand_row_eq_pure (σ := σ) undrawn (!pom.isLiteralOnly)
    rw [filled, pure_bind]
    cases r <;> exact ⟨_, rfl⟩
  next => exact ⟨_, rfl⟩

theorem objectTerms_eq_pure {pom : PredicateObjectMap} (plain : pom.Plain)
    (own : ∀ iri, pom.object ≠ .parent iri) (undrawn : ∀ name ∈ pom.holes, ¬ ctx.Draws name) :
    ∃ terms? : Option (List Term),
      (∀ terms, terms? = some terms → ∀ t ∈ terms, t.isBlank = false) ∧
      (objectTerms config pom (.row row) ctx : Run σ _) = pure terms? := by
  unfold objectTerms
  split
  next term h =>
    refine ⟨some [term], ?_, rfl⟩
    rintro _ ⟨⟩ t ht
    obtain rfl := List.mem_singleton.mp ht
    exact plain.constant _ h
  next =>
    have value : pom.object.IsValue := by
      cases h : pom.object with
      | constant term => simp_all
      | parent iri => exact absurd h (own iri)
      | template => trivial
      | reference => trivial
    obtain ⟨values, settled⟩ := objectValues_eq_pure (σ := σ) undrawn
    rw [settled, pure_bind]
    cases values with
    | none => exact ⟨none, by simp, rfl⟩
    | some values =>
      obtain ⟨ts, named, same⟩ := pom.termsOf_of_named (plain.value value)
        (values.flatMap fun value => splitTokens value pom.delimiters)
      refine ⟨some ts, fun _ some => Option.some.inj some ▸ named, eq_of_outcome fun s => ?_⟩
      simp [same]

theorem subjectOf_eq_pure {termType : TermType} (named : termType ≠ .blank) (value : String) :
    (subjectOf termType value : Run σ _) = pure (.iri value) := by
  cases termType with
  | blank => exact absurd rfl named
  | iri => rfl
  | literal => rfl

theorem mintSubject_eq_pure {m : TriplesMap} (rows : m.RowsOnly)
    (undrawn : ∀ name ∈ m.holes, ¬ ctx.Draws name)
    (own : ∀ s, m.subjectMap = some s → s.term ≠ some .blank) :
    ∃ subject? : Option Term, (∀ subject, subject? = some subject → subject.isBlank = false) ∧
      (mintSubject config m (.row row) ctx : Run σ _) = pure subject? := by
  have iterator : iteratorSubject? m (.row row) = none := by
    unfold iteratorSubject?
    cases m.logicalSource with
    | none => rfl
    | some source => simp [Node.binding?]
  unfold mintSubject
  split
  next => exact ⟨none, by simp, by rw [iterator]⟩
  next s hs =>
    split
    next => exact ⟨none, by simp, by rw [iterator]⟩
    next iri _ => exact ⟨some (.iri iri), by rintro _ ⟨⟩; rfl, rfl⟩
    next text ht =>
      have mentioned : ∀ name ∈ Template.names text, ¬ ctx.Draws name := by
        intro name hn
        exact undrawn name (by simp [TriplesMap.holes, hs, ht, hn])
      obtain ⟨r, filled⟩ := expand_row_eq_pure (σ := σ) mentioned true
      rw [filled, pure_bind]
      cases r with
      | error => exact ⟨none, by simp, rfl⟩
      | ok value =>
        refine ⟨some (.iri value), by rintro _ ⟨⟩; rfl, ?_⟩
        simp only [subjectOf_eq_pure (rows.value s _ hs ht trivial), pure_bind]
    next text ht =>
      obtain ⟨value, first⟩ : ∃ value, (Node.row row).first? config.namespaces text = .ok value :=
        ⟨_, rfl⟩
      have read : (liftM (Except.ok value : Except MappingError _) : Run σ _) = pure value := rfl
      simp only [Node.binding?, Option.bind_none, first, read, pure_bind]
      cases value with
      | none => exact ⟨none, by simp, rfl⟩
      | some value =>
        refine ⟨some (.iri value), by rintro _ ⟨⟩; rfl, ?_⟩
        simp only [subjectOf_eq_pure (rows.value s _ hs ht trivial), pure_bind]
    next ht => exact absurd ht (own s hs)

theorem twins_freshNode :
    Twins start base k (Term.Twin start base) (freshNode : Run σ Term) freshNode := by
  have fresh (n : Nat) : Yields start n (freshNode : Run σ Term) (.blank (label start n))
      { minted := 1 } := by
    rintro s rfl rfl
    simp [freshNode, BlankNodes.fresh, label, RunState.grow, Graph.addAll]
  exact ⟨_, _, _, _, fresh k, fresh (base + k), ⟨.nil, rfl, rfl, rfl⟩, .minted (Nat.lt_succ_self k)⟩

section Rows
variable {m : TriplesMap} {pom : PredicateObjectMap} {subject subject' : Term}
  {buffer buffer' : List Triple} {runParent : RunParent σ}

theorem attach_of_alone (alone : pom.reuse = false) (object : Term) :
    (attach subject pom object buffer : Run σ _) =
      match pom.subEntityClass with
      | none => pure (buffer ++ [⟨subject, .iri pom.predicate, object⟩])
      | some name => do
        let entity ← freshNode
        return buffer ++ [⟨subject, .iri pom.predicate, entity⟩,
            ⟨entity, .iri Vocabulary.rdfType, .iri name⟩] ++
          pom.additionalTriples.map (fun (p, o) => ⟨entity, .iri p, o⟩) ++
          [⟨entity, .iri pom.valuePredicate, object⟩] := by
  unfold attach
  cases pom.subEntityClass with
  | none => rfl
  | some name =>
    simp only [alone]
    rfl

theorem twins_attach (plain : pom.Plain) (subjects : subject.Twin start base k subject')
    {object : Term} (named : object.isBlank = false)
    (buffers : List.Forall₂ (Triple.Twin start base k) buffer buffer') :
    Twins start base k (fun k => List.Forall₂ (Triple.Twin start base k))
      (attach subject pom object buffer : Run σ _) (attach subject' pom object buffer') := by
  rw [attach_of_alone plain.reuse, attach_of_alone plain.reuse]
  split
  next =>
    refine twins_pure (List.rel_append buffers (.cons ⟨subjects, rfl, .named named⟩ .nil))
  next name _ =>
    refine twins_freshNode.bind fun k' le entity entity' entities => twins_pure ?_
    have link : List.Forall₂ (Triple.Twin start base k')
        [⟨subject, .iri pom.predicate, entity⟩, ⟨entity, .iri Vocabulary.rdfType, .iri name⟩]
        [⟨subject', .iri pom.predicate, entity'⟩, ⟨entity', .iri Vocabulary.rdfType, .iri name⟩] :=
      .cons ⟨subjects.mono le, rfl, entities⟩ (.cons ⟨entities, rfl, .named rfl⟩ .nil)
    have additional : List.Forall₂ (Triple.Twin start base k')
        (pom.additionalTriples.map fun (p, o) => ⟨entity, .iri p, o⟩)
        (pom.additionalTriples.map fun (p, o) => ⟨entity', .iri p, o⟩) := by
      rw [List.forall₂_map_left_iff, List.forall₂_map_right_iff, List.forall₂_same]
      exact fun entry he => ⟨entities, rfl, .named (plain.additional entry he)⟩
    have earlier := buffers.imp fun _ _ twin => twin.mono le
    exact List.rel_append (List.rel_append (List.rel_append earlier link) additional)
      (.cons ⟨entities, rfl, .named named⟩ .nil)

theorem twins_attachAll (plain : pom.Plain) (subjects : subject.Twin start base k subject')
    {objects : List Term} (named : ∀ object ∈ objects, object.isBlank = false)
    (buffers : List.Forall₂ (Triple.Twin start base k) buffer buffer') :
    Twins start base k (fun k => List.Forall₂ (Triple.Twin start base k))
      (attachAll subject pom objects buffer : Run σ _)
      (attachAll subject' pom objects buffer') := by
  induction objects generalizing k buffer buffer' with
  | nil => exact twins_pure buffers
  | cons object rest ih =>
    refine (twins_attach plain subjects (named object (by simp)) buffers).bind ?_
    intro k' le _ _ buffers
    exact ih (subjects.mono le) (fun object ho => named object (by simp [ho])) buffers

theorem twins_ownTriples (plain : pom.Plain) (own : ∀ iri, pom.object ≠ .parent iri)
    (undrawn : ∀ name ∈ pom.holes, ¬ ctx.Draws name)
    (subjects : subject.Twin start base k subject')
    (buffers : List.Forall₂ (Triple.Twin start base k) buffer buffer') :
    Twins start base k (fun k => Option.Rel (List.Forall₂ (Triple.Twin start base k)))
      (ownTriples config subject (.row row) ctx pom buffer : Run σ _)
      (ownTriples config subject' (.row row) ctx pom buffer') := by
  obtain ⟨terms?, named, settled⟩ := objectTerms_eq_pure (σ := σ) plain own undrawn
  refine twins_pure_bind settled ?_
  cases terms? with
  | none => exact twins_pure .none
  | some objects =>
    refine (twins_attachAll plain subjects (named objects rfl) buffers).bind ?_
    exact fun _ _ _ _ buffers => twins_pure (.some buffers)

/-- A parent of a row does the same in both runs if the row has the same subject in both. -/
def ParentsTwin (start : String) (base : Nat) (runParent : RunParent σ) (row : Row) (ctx : Context)
    (subject subject' : Term) (iri : String) : Prop :=
  subject' = subject ∧ ∀ k predicate,
    Twins start base k (fun k => List.Forall₂ (Term.Twin start base k))
      (runParent iri (.row row) (linkContext ctx subject predicate))
      (runParent iri (.row row) (linkContext ctx subject predicate))

theorem twins_linkTriples (plain : pom.Plain) (undrawn : ∀ name ∈ pom.holes, ¬ ctx.Draws name)
    (parents : ∀ iri, pom.object = .parent iri →
      ParentsTwin start base runParent row ctx subject subject' iri)
    (subjects : subject.Twin start base k subject')
    (buffers : List.Forall₂ (Triple.Twin start base k) buffer buffer') :
    Twins start base k (fun k => Option.Rel (List.Forall₂ (Triple.Twin start base k)))
      (linkTriples config runParent subject (.row row) ctx pom buffer)
      (linkTriples config runParent subject' (.row row) ctx pom buffer') := by
  unfold linkTriples
  split
  next iri h =>
    obtain ⟨rfl, parents⟩ := parents iri h
    refine (parents k pom.predicate).bind fun k' le found found' related => twins_pure (.some ?_)
    have links : List.Forall₂ (Triple.Twin start base k')
        (found.map fun parent => ⟨subject', .iri pom.predicate, parent⟩)
        (found'.map fun parent => ⟨subject', .iri pom.predicate, parent⟩) := by
      rw [List.forall₂_map_left_iff, List.forall₂_map_right_iff]
      exact related.imp fun _ _ twin => ⟨subjects.mono le, rfl, twin⟩
    exact List.rel_append (buffers.imp fun _ _ twin => twin.mono le) links
  next own => exact twins_ownTriples plain own undrawn subjects buffers

theorem twins_rowTriples {poms : List PredicateObjectMap} (plain : ∀ pom ∈ poms, pom.Plain)
    (undrawn : ∀ pom ∈ poms, ∀ name ∈ pom.holes, ¬ ctx.Draws name)
    (parents : ∀ pom ∈ poms, ∀ iri, pom.object = .parent iri →
      ParentsTwin start base runParent row ctx subject subject' iri)
    (subjects : subject.Twin start base k subject')
    (buffers : List.Forall₂ (Triple.Twin start base k) buffer buffer') :
    Twins start base k (fun k => Option.Rel (List.Forall₂ (Triple.Twin start base k)))
      (rowTriples config runParent subject (.row row) ctx poms buffer)
      (rowTriples config runParent subject' (.row row) ctx poms buffer') := by
  induction poms generalizing k buffer buffer' with
  | nil => exact twins_pure (.some buffers)
  | cons pom rest ih =>
    refine (twins_linkTriples (plain pom (by simp)) (undrawn pom (by simp))
      (parents pom (by simp)) subjects buffers).bind ?_
    intro k' le _ _ related
    cases related with
    | none => exact twins_pure .none
    | some buffers =>
      exact ih (fun pom hp => plain pom (by simp [hp])) (fun pom hp => undrawn pom (by simp [hp]))
        (fun pom hp => parents pom (by simp [hp])) (subjects.mono le) buffers

/-- The contents of a row stand for each other. -/
def ContentTwin (start : String) (base k : Nat) (content content' : Term × List Triple) : Prop :=
  content.1.Twin start base k content'.1 ∧
    List.Forall₂ (Triple.Twin start base k) content.2 content'.2

theorem twins_rowContent (rows : m.RowsOnly) (undrawn : ∀ name ∈ m.holes, ¬ ctx.Draws name)
    (parents : ∀ iri ∈ m.parentRefs, ∀ subject,
      ParentsTwin start base runParent row ctx subject subject iri) :
    Twins start base k (fun k => Option.Rel (ContentTwin start base k))
      (rowContent config runParent m ctx (.row row))
      (rowContent config runParent m ctx (.row row)) := by
  have mentioned : ∀ pom ∈ m.predicateObjectMaps, ∀ name ∈ pom.holes, ¬ ctx.Draws name := by
    intro pom hp name hn
    exact undrawn name (List.mem_append_right _ (List.mem_flatMap.mpr ⟨pom, hp, hn⟩))
  have content (k : Nat) (subject subject' : Term) (subjects : subject.Twin start base k subject')
      (same : m.parentRefs ≠ [] → subject' = subject) :
      Twins start base k (fun k => Option.Rel (ContentTwin start base k))
        (do
          let buffer? ← rowTriples config runParent subject (.row row) ctx
            m.predicateObjectMaps []
          return buffer?.map fun buffer => (subject, buffer))
        (do
          let buffer? ← rowTriples config runParent subject' (.row row) ctx
            m.predicateObjectMaps []
          return buffer?.map fun buffer => (subject', buffer)) := by
    have linked : ∀ pom ∈ m.predicateObjectMaps, ∀ iri, pom.object = .parent iri →
        ParentsTwin start base runParent row ctx subject subject' iri := by
      intro pom hp iri h
      have parent : iri ∈ m.parentRefs := mem_parentRefs.mpr ⟨pom, hp, h⟩
      obtain rfl := same (List.ne_nil_of_mem parent)
      exact parents iri parent _
    refine (twins_rowTriples rows.objects mentioned linked subjects .nil).bind ?_
    intro k' le _ _ related
    cases related with
    | none => exact twins_pure .none
    | some buffers => exact twins_pure (.some ⟨subjects.mono le, buffers⟩)
  by_cases fresh : ∃ s, m.subjectMap = some s ∧ s.term = some .blank
  · -- The subject is a new node, which no parent is linked to.
    obtain ⟨s, hs, ht⟩ := fresh
    have minted : (mintSubject config m (.row row) ctx : Run σ _) =
        (do return some (← freshNode)) := by simp [mintSubject, hs, ht]
    unfold rowContent
    rw [minted, bind_assoc]
    refine twins_freshNode.bind fun k' _ subject subject' subjects => ?_
    rw [pure_bind, pure_bind]
    exact content k' subject subject' subjects fun some => absurd (rows.linked s hs ht) some
  · have own : ∀ s, m.subjectMap = some s → s.term ≠ some .blank :=
      fun s hs ht => fresh ⟨s, hs, ht⟩
    obtain ⟨subject?, named, settled⟩ := mintSubject_eq_pure (σ := σ) rows undrawn own
    refine twins_pure_bind settled ?_
    cases subject? with
    | none => exact twins_pure .none
    | some subject => exact content k subject subject (.named (named subject rfl)) fun _ => rfl

theorem twins_countRow :
    Twins start base k (fun _ _ _ => True) (countRow : Run σ Unit) countRow := by
  have counted (n : Nat) : Yields start n (countRow : Run σ Unit) () { rows := 1 } := by
    intro s _ _
    simp [countRow, RunState.grow, Graph.addAll]
  exact ⟨_, _, _, _, counted k, counted (base + k), ⟨.nil, rfl, rfl, rfl⟩, trivial⟩

theorem twins_skipRow :
    Twins start base k (fun _ _ _ => True) (skipRow : Run σ Unit) skipRow := by
  have skipped (n : Nat) : Yields start n (skipRow : Run σ Unit) () { skipped := 1 } := by
    intro s _ _
    simp [skipRow, RunState.grow, Graph.addAll]
  exact ⟨_, _, _, _, skipped k, skipped (base + k), ⟨.nil, rfl, rfl, rfl⟩, trivial⟩

theorem twins_commit {triples triples' : List Triple}
    (related : List.Forall₂ (Triple.Twin start base k) triples triples') :
    Twins start base k (fun _ _ _ => True) (commit triples : Run σ Unit) (commit triples') := by
  have committed (n : Nat) (triples : List Triple) :
      Yields start n (commit triples : Run σ Unit) () { added := triples } := by
    intro s _ _
    simp [commit, RunState.grow]
  exact ⟨_, _, _, _, committed k _, committed (base + k) _, ⟨related, rfl, rfl, rfl⟩, trivial⟩

theorem twins_typeTriples (subjects : subject.Twin start base k subject') :
    List.Forall₂ (Triple.Twin start base k) (typeTriples m subject) (typeTriples m subject') := by
  unfold typeTriples
  rw [List.forall₂_map_left_iff, List.forall₂_map_right_iff, List.forall₂_same]
  exact fun _ _ => ⟨subjects, rfl, .named rfl⟩

theorem twins_applyRow (rows : m.RowsOnly) (undrawn : ∀ name ∈ m.holes, ¬ ctx.Draws name)
    (parents : ∀ iri ∈ m.parentRefs, ∀ subject,
      ParentsTwin start base runParent row ctx subject subject iri) :
    Twins start base k (fun k => Option.Rel (Term.Twin start base k))
      (applyRow config runParent m ctx (.row row))
      (applyRow config runParent m ctx (.row row)) := by
  refine twins_countRow.bind fun k _ _ _ _ => ?_
  refine (twins_rowContent rows undrawn parents).bind fun k _ _ _ related => ?_
  cases related with
  | none => exact twins_skipRow.bind fun _ _ _ _ _ => twins_pure .none
  | @some content content' related =>
    obtain ⟨subject, buffer⟩ := content
    obtain ⟨subject', buffer'⟩ := content'
    obtain ⟨subjects, buffers⟩ := related
    have empty : buffer'.isEmpty = buffer.isEmpty := by
      have := buffers.length_eq
      cases buffer <;> cases buffer' <;> simp_all
    dsimp only
    rw [empty]
    split
    next => exact twins_pure .none
    next =>
      have committed : List.Forall₂ (Triple.Twin start base k) (typeTriples m subject ++ buffer)
          (typeTriples m subject' ++ buffer') :=
        List.rel_append (twins_typeTriples subjects) buffers
      refine (twins_commit committed).bind fun _ le _ _ _ => ?_
      exact twins_pure (.some (subjects.mono le))

theorem twins_applyRows {apply : Node → Run σ (Option Term)} {nodes : List Node}
    (row : ∀ node ∈ nodes, ∀ k,
      Twins start base k (fun k => Option.Rel (Term.Twin start base k)) (apply node) (apply node)) :
    Twins start base k (fun k => List.Forall₂ (Term.Twin start base k))
      (applyRows apply nodes) (applyRows apply nodes) := by
  induction nodes generalizing k with
  | nil => exact twins_pure .nil
  | cons node rest ih =>
    refine (row node (by simp) k).bind fun k _ first first' related => ?_
    refine (ih fun node hn => row node (by simp [hn])).bind fun k' le more more' later => ?_
    refine twins_pure (List.rel_append ?_ later)
    cases related with
    | none => exact .nil
    | some twin => exact .cons (twin.mono le) .nil

end Rows

end Engine
end CatalogGraph
