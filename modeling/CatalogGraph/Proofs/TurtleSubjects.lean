import CatalogGraph.Turtle.Document

/-!
Subjects in Turtle: whatever a document says, no statement that is read from it is about a literal.
-/
namespace CatalogGraph.Turtle
variable {α β : Type}

/-- The statements read so far are about names and blank nodes. -/
def AboutNodes (r : Reading) : Prop := ∀ t ∈ r.triples.toList, t.subject.isLiteral = false

/-- From a reading whose statements are about nodes a step leads to such a reading, and what it
gives has a property. -/
def ReadsFrom (r : Reading) (step : Read α) (post : α → Prop) : Prop :=
  AboutNodes r → ∀ a r', step r = .ok (a, r') → AboutNodes r' ∧ post a

/-- A step leads from any reading to one whose statements are still about nodes. -/
def Reads (step : Read α) (post : α → Prop) : Prop := ∀ r, ReadsFrom r step post

/-- A step of reading, whatever it gives. -/
def Passes (step : Read α) : Prop := Reads step fun _ => True

def IsNode (t : Term) : Prop := t.isLiteral = false

section Rules
variable {step : Read α} {next : α → Read β} {mid : α → Prop} {post : β → Prop}

theorem reads_pure {a : α} {post : α → Prop} (h : post a) : Reads (pure a) post := by
  rintro r about _ _ ⟨⟩
  exact ⟨about, h⟩

theorem reads_throw {fault : Fault} {post : α → Prop} : Reads (throw fault) post := by
  rintro r _ _ _ ⟨⟩

theorem readsFrom_bind {r : Reading} (first : ReadsFrom r step mid)
    (second : ∀ a, mid a → Reads (next a) post) : ReadsFrom r (step >>= next) post := by
  intro about b r'' done
  change (step r >>= fun pair => next pair.1 pair.2) = .ok (b, r'') at done
  cases did : step r with
  | error e =>
    rw [did] at done
    cases done
  | ok pair =>
    rw [did] at done
    obtain ⟨about, h⟩ := first about pair.1 pair.2 did
    exact second pair.1 h pair.2 about b r'' done

theorem reads_bind (first : Reads step mid) (second : ∀ a, mid a → Reads (next a) post) :
    Reads (step >>= next) post :=
  fun r => readsFrom_bind (first r) second

theorem passes_bind (first : Passes step) (second : ∀ a, Reads (next a) post) :
    Reads (step >>= next) post :=
  reads_bind first fun a _ => second a

/-- What follows may look at the reading that it starts from. -/
theorem readsFrom_get {next : Reading → Read β} {r : Reading} (second : ReadsFrom r (next r) post) :
    ReadsFrom r (get >>= next) post :=
  second

theorem Reads.passes {post : α → Prop} (reads : Reads step post) : Passes step :=
  fun r about a r' done => ⟨(reads r about a r' done).1, trivial⟩

theorem passes_get : Passes get := by
  rintro r about _ _ ⟨⟩
  exact ⟨about, trivial⟩

theorem passes_modify {f : Reading → Reading} (same : ∀ r, (f r).triples = r.triples) :
    Passes (modify f) := by
  rintro r about _ _ ⟨⟩
  refine ⟨?_, trivial⟩
  unfold AboutNodes
  rw [same]
  exact about

theorem passes_token (scan : List Char → Token α) : Passes (token scan) := by
  intro r about a r' done
  unfold token at done
  cases found : scan r.rest with
  | error e =>
    rw [found] at done
    cases done
  | ok pair =>
    rw [found] at done
    cases done
    exact ⟨about, trivial⟩

end Rules

/-- The text to come is another one. -/
theorem passes_moveTo (rest : List Char) : Passes (modify fun r => { r with rest }) :=
  passes_modify fun _ => rfl

theorem passes_skipBlanks : Passes skipBlanks := passes_modify fun _ => rfl

theorem passes_next : Passes next? := passes_bind passes_get fun _ => reads_pure trivial

theorem passes_advance : Passes advance := passes_modify fun _ => rfl

theorem passes_require (c : Char) : Passes (require c) := by
  refine passes_bind passes_next fun found => ?_
  split
  next => exact passes_advance
  next => exact reads_throw

theorem passes_accept (c : Char) : Passes (accept c) := by
  refine passes_bind passes_next fun found => ?_
  split
  next => exact passes_bind passes_advance fun _ => reads_pure trivial
  next => exact reads_pure trivial

theorem passes_deeper (depth : Nat) : Passes (deeper depth) := by
  unfold deeper
  split
  next => exact reads_throw
  next => exact reads_pure trivial

theorem reads_anonymousNode : Reads anonymousNode IsNode :=
  passes_bind passes_get fun _ =>
    passes_bind (passes_modify fun _ => rfl) fun _ => reads_pure rfl

/-- A statement about a node is added. -/
theorem passes_state {s : Term} (node : IsNode s) (p o : Term) : Passes (state s p o) := by
  rintro r about _ _ ⟨⟩
  refine ⟨fun t ht => ?_, trivial⟩
  rw [Array.toList_push, List.mem_append, List.mem_singleton] at ht
  rcases ht with old | rfl
  · exact about t old
  · exact node

theorem passes_bracketedIri : Passes bracketedIri := by
  refine passes_bind (passes_require '<') fun _ => passes_bind (passes_token _) fun text => ?_
  refine passes_bind passes_get fun r => ?_
  split
  next => exact reads_pure trivial
  next => exact reads_throw

theorem passes_iriName : Passes iriName := by
  refine passes_bind passes_next fun found => ?_
  split
  next => exact passes_bind passes_bracketedIri fun _ => reads_pure trivial
  next =>
    refine passes_bind (passes_token _) fun name => passes_bind passes_get fun r => ?_
    split
    next => exact passes_bind (passes_token _) fun _ => reads_pure trivial
    next => exact reads_throw

theorem passes_verb : Passes verb := by
  have named : Passes (do return Term.iri (← iriName)) :=
    passes_bind passes_iriName fun _ => reads_pure trivial
  refine passes_bind passes_get fun r => ?_
  split
  next =>
    split
    next => exact named
    next => exact passes_bind passes_advance fun _ => reads_pure trivial
  next => exact named

theorem passes_stringLiteral : Passes stringLiteral := by
  refine passes_bind (passes_token _) fun value => passes_bind passes_skipBlanks fun _ => ?_
  refine passes_bind (passes_accept '@') fun tagged => ?_
  split
  next => exact passes_bind (passes_token _) fun _ => reads_pure trivial
  next =>
    refine passes_bind (passes_accept '^') fun typed => ?_
    split
    next =>
      refine passes_bind (passes_require '^') fun _ => passes_bind passes_skipBlanks fun _ => ?_
      exact passes_bind passes_iriName fun _ => reads_pure trivial
    next => exact reads_pure trivial

theorem passes_numberLiteral : Passes numberLiteral :=
  passes_bind (passes_token _) fun _ => reads_pure trivial

theorem passes_simpleObject : Passes simpleObject := by
  refine passes_bind passes_get fun r => ?_
  split
  next =>
    exact passes_bind passes_advance fun _ =>
      passes_bind (passes_token _) fun _ => reads_pure trivial
  next =>
    split
    next => exact passes_stringLiteral
    next =>
      split
      next => exact passes_numberLiteral
      next =>
        refine passes_bind passes_get fun r => ?_
        split
        next => exact passes_bind (passes_modify fun _ => rfl) fun _ => reads_pure trivial
        next => exact passes_bind passes_iriName fun _ => reads_pure trivial
  next => exact reads_throw

/-- What the readers of nested parts do with one fuel. -/
structure ReadsNested (fuel : Nat) : Prop where
  object : ∀ depth, Passes (object fuel depth)
  objectList : ∀ depth {s}, IsNode s → ∀ p, Passes (objectList fuel depth s p)
  predicateObjectList : ∀ depth {s}, IsNode s → Passes (predicateObjectList fuel depth s)
  propertyLists : ∀ depth {s}, IsNode s → Passes (propertyLists fuel depth s)
  propertyList : ∀ depth, Reads (propertyList fuel depth) IsNode
  collection : ∀ depth last, (∀ cell, last = some cell → IsNode cell) →
    Reads (collection fuel depth last) IsNode

theorem passes_skipSemicolons (fuel : Nat) : Passes (skipSemicolons fuel) := by
  induction fuel with
  | zero => exact reads_pure trivial
  | succ fuel ih =>
    refine passes_bind (passes_accept ';') fun another => ?_
    split
    next => exact passes_bind passes_skipBlanks fun _ => ih
    next => exact reads_pure trivial

section Nested
variable {fuel : Nat} (reads : ReadsNested fuel)
include reads

theorem passes_object_succ (depth : Nat) : Passes (object (fuel + 1) depth) := by
  rw [object]
  refine passes_bind passes_get fun r => ?_
  split
  next =>
    split
    next => exact passes_bind (passes_modify fun _ => rfl) fun _ => reads_anonymousNode.passes
    next => exact (reads.propertyList depth).passes
  next =>
    refine passes_bind (passes_deeper depth) fun _ => passes_bind passes_advance fun _ => ?_
    exact (reads.collection _ none (by simp)).passes
  next => exact passes_simpleObject

theorem passes_objectList_succ (depth : Nat) {s : Term} (node : IsNode s) (p : Term) :
    Passes (objectList (fuel + 1) depth s p) := by
  rw [objectList]
  refine passes_bind (reads.object depth) fun o => passes_bind (passes_state node p o) fun _ => ?_
  refine passes_bind passes_skipBlanks fun _ => passes_bind (passes_accept ',') fun another => ?_
  split
  next => exact passes_bind passes_skipBlanks fun _ => reads.objectList depth node p
  next => exact reads_pure trivial

theorem passes_predicateObjectList_succ (depth : Nat) {s : Term} (node : IsNode s) :
    Passes (predicateObjectList (fuel + 1) depth s) := by
  rw [predicateObjectList]
  refine passes_bind passes_verb fun p => passes_bind passes_skipBlanks fun _ => ?_
  refine passes_bind (reads.objectList depth node p) fun _ => ?_
  refine passes_bind passes_skipBlanks fun _ => passes_bind passes_next fun found => ?_
  split
  next =>
    refine passes_bind (passes_skipSemicolons fuel) fun _ => passes_bind passes_next fun found => ?_
    split
    next => exact reads.predicateObjectList depth node
    next => exact reads_pure trivial
  next => exact reads_pure trivial

theorem passes_propertyLists_succ (depth : Nat) {s : Term} (node : IsNode s) :
    Passes (propertyLists (fuel + 1) depth s) := by
  rw [propertyLists]
  refine passes_bind (reads.predicateObjectList depth node) fun _ => ?_
  refine passes_bind passes_skipBlanks fun _ => passes_bind (passes_accept ']') fun closed => ?_
  split
  next => exact reads_pure trivial
  next =>
    refine passes_bind passes_next fun found => ?_
    split
    next => exact passes_bind reads_throw fun _ => reads.propertyLists depth node
    next => exact reads.propertyLists depth node

theorem reads_propertyList_succ (depth : Nat) : Reads (propertyList (fuel + 1) depth) IsNode := by
  rw [propertyList]
  refine passes_bind (passes_deeper depth) fun _ => passes_bind (passes_require '[') fun _ => ?_
  refine passes_bind passes_skipBlanks fun _ => reads_bind reads_anonymousNode fun node named => ?_
  exact passes_bind (reads.propertyLists _ named) fun _ => reads_pure named

theorem reads_collection_succ (depth : Nat) {last : Option Term}
    (cells : ∀ cell, last = some cell → IsNode cell) :
    Reads (collection (fuel + 1) depth last) IsNode := by
  rw [collection]
  refine passes_bind passes_skipBlanks fun _ => passes_bind passes_next fun found => ?_
  split
  next => exact reads_throw
  next =>
    refine passes_bind passes_advance fun _ => ?_
    cases last with
    | none => exact reads_pure rfl
    | some cell => exact passes_bind (passes_state (cells cell rfl) _ _) fun _ => reads_pure rfl
  next =>
    refine reads_bind reads_anonymousNode fun cell node => ?_
    have behind : Reads (do
        let item ← object fuel depth
        state cell (.iri Vocabulary.rdfFirst) item
        let _ ← collection fuel depth (some cell)
        return cell) IsNode := by
      refine passes_bind (reads.object depth) fun item => ?_
      refine passes_bind (passes_state node _ item) fun _ => ?_
      refine passes_bind (reads.collection depth (some cell) ?_).passes fun _ => reads_pure node
      rintro _ ⟨⟩
      exact node
    cases last with
    | none => exact behind
    | some previous => exact passes_bind (passes_state (cells previous rfl) _ _) fun _ => behind

end Nested

theorem readsNested (fuel : Nat) : ReadsNested fuel := by
  -- the readers call one another with less fuel, so one induction is for all of them
  induction fuel with
  | zero =>
    constructor
    next => intro depth; rw [object]; exact reads_throw
    next => intro depth s _ p; rw [objectList]; exact reads_throw
    next => intro depth s _; rw [predicateObjectList]; exact reads_throw
    next => intro depth s _; rw [propertyLists]; exact reads_throw
    next => intro depth; rw [propertyList]; exact reads_throw
    next => intro depth last _; rw [collection]; exact reads_throw
  | succ fuel ih =>
    exact ⟨passes_object_succ ih, passes_objectList_succ ih, passes_predicateObjectList_succ ih,
      passes_propertyLists_succ ih, reads_propertyList_succ ih,
      fun depth _ => reads_collection_succ ih depth⟩

/-- What begins with a bracket, a parenthesis or an underscore is a node. -/
theorem readsFrom_object {fuel depth : Nat} {r : Reading} {c : Char} {rest : List Char}
    (text : r.rest = c :: rest) (begins : c = '[' ∨ c = '(' ∨ c = '_') :
    ReadsFrom r (object fuel depth) IsNode := by
  cases fuel with
  | zero =>
    rw [object]
    exact reads_throw r
  | succ fuel =>
    have reads := readsNested fuel
    rw [object]
    refine readsFrom_get ?_
    split
    next =>
      split
      next left _ =>
        exact passes_bind (passes_moveTo left) (fun _ => reads_anonymousNode) r
      next => exact reads.propertyList depth r
    next =>
      exact passes_bind (passes_deeper depth) (fun _ => passes_bind passes_advance fun _ =>
        reads.collection _ none (by simp)) r
    next bracket parenthesis =>
      -- an object may be a literal here, but not behind the one beginning that is left
      obtain rfl : c = '_' := by
        rcases begins with rfl | rfl | same
        · exact absurd text (bracket rest)
        · exact absurd text (parenthesis rest)
        · exact same
      refine readsFrom_get ?_
      split
      next =>
        have labelled (l : List Char) : Reads (pure (.blank (keptLabel l))) IsNode :=
          reads_pure rfl
        exact passes_bind passes_advance (fun _ => passes_bind (passes_token _) labelled) r
      next other text' =>
        rw [text'] at text
        exact absurd (List.cons.inj text).1 other
      next none => simp [none] at text

/-- The subject of a statement is read first, and it is a node. -/
theorem passes_triples (fuel : Nat) : Passes (triples fuel) := by
  have properties {s : Term} (node : IsNode s) : Passes (do
      skipBlanks
      predicateObjectList fuel 0 s) :=
    passes_bind passes_skipBlanks fun _ => (readsNested fuel).predicateObjectList 0 node
  intro r
  refine readsFrom_get ?_
  split
  next rest text =>
    have subject : ReadsFrom r (object fuel 0) IsNode := readsFrom_object text (by simp)
    split
    next => exact readsFrom_bind subject fun s node => properties node
    next =>
      refine readsFrom_bind subject fun s node => passes_bind passes_skipBlanks fun _ => ?_
      refine passes_bind passes_next fun found => ?_
      split
      next => exact reads_pure trivial
      next => exact (readsNested fuel).predicateObjectList 0 node
  next c rest _ text =>
    split
    next =>
      split
      next begins =>
        have subject : ReadsFrom r (object fuel 0) IsNode :=
          readsFrom_object text (.inr (by simpa using begins))
        exact readsFrom_bind subject fun s node => properties node
      next =>
        have named (iri : String) : Reads (pure (.iri iri)) IsNode := reads_pure rfl
        exact passes_bind passes_iriName
          (fun iri => reads_bind (named iri) fun s node => properties node) r
    next => exact reads_throw r
  next => exact reads_throw r

theorem passes_declarePrefix : Passes declarePrefix := by
  refine passes_bind passes_skipBlanks fun _ => passes_bind (passes_token _) fun name => ?_
  refine passes_bind passes_skipBlanks fun _ => passes_bind passes_bracketedIri fun iri => ?_
  exact passes_modify fun _ => rfl

theorem passes_declareBase : Passes declareBase :=
  passes_bind passes_skipBlanks fun _ => passes_bind passes_bracketedIri fun _ =>
    passes_modify fun _ => rfl

theorem passes_endStatement : Passes endStatement :=
  passes_bind passes_skipBlanks fun _ => passes_require '.'

theorem passes_statement : Passes statement := by
  have onward (left : List Char) {step : Read Unit} (passes : Passes step) : Passes (do
      modify fun r => { r with rest := left }
      step) :=
    passes_bind (passes_moveTo left) fun _ => passes
  refine passes_bind passes_get fun r => ?_
  dsimp only
  split
  next left _ =>
    exact onward left (passes_bind passes_declarePrefix fun _ => passes_endStatement)
  next =>
    split
    next left _ => exact onward left (passes_bind passes_declareBase fun _ => passes_endStatement)
    next =>
      split
      next left _ => exact onward left passes_declareBase
      next =>
        split
        next left _ => exact onward left passes_declarePrefix
        next => exact passes_bind (passes_triples _) fun _ => passes_endStatement

theorem passes_statements (fuel : Nat) : Passes (statements fuel) := by
  induction fuel with
  | zero => exact reads_pure trivial
  | succ fuel ih =>
    refine passes_bind passes_skipBlanks fun _ => passes_bind passes_next fun found => ?_
    split
    next => exact passes_bind passes_statement fun _ => ih
    next => exact reads_pure trivial

/-- Whatever is read from a Turtle document is about names and blank nodes. -/
theorem subject_of_parse {text : String} {g : Graph} (parsed : parse text = .ok g) :
    ∀ t ∈ g.triples, t.subject.isLiteral = false := by
  unfold parse at parsed
  dsimp only at parsed
  cases done : (statements (text.toList.length + 1)).run { rest := text.toList } with
  | error e =>
    rw [done] at parsed
    cases parsed
  | ok pair =>
    rw [done] at parsed
    cases parsed
    have start : AboutNodes { rest := text.toList } := fun t none => by cases none
    exact (passes_statements _ _ start pair.1 pair.2 done).1

end CatalogGraph.Turtle
