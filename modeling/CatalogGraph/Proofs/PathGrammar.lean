import CatalogGraph.Proofs.TokenTexts
import CatalogGraph.XPath.Parser

/-!
The grammar of paths: which tokens derive which path, and with which tokens paths and conditions
begin, end and go on. Disjunctions and conjunctions group to the left; conjunctions bind tighter.
-/
namespace CatalogGraph.XPath
variable {namespaces : Entries String}

/-- The test for which a name stands; a star behind a prefix stands for any name. -/
inductive IsNameTest (namespaces : Entries String) : NodeTest → String → Prop
  | bare {text : String} (free : ':' ∉ text.toList) : IsNameTest namespaces (.name none text) text
  | prefixed {p l iri : String} (free : ':' ∉ p.toList) (known : namespaces.get? p = some iri)
    (named : l ≠ "*") : IsNameTest namespaces (.name (some iri) l) (p ++ ":" ++ l)
  | anyName {p iri : String} (free : ':' ∉ p.toList) (known : namespaces.get? p = some iri) :
    IsNameTest namespaces .wildcard (p ++ ":" ++ "*")

/-- The tokens of an axis and a test. -/
inductive IsHead (namespaces : Entries String) : Axis → NodeTest → List Token → Prop
  | dot : IsHead namespaces .self .node [.dot]
  | doubleDot : IsHead namespaces .parent .node [.doubleDot]
  | anyAttribute : IsHead namespaces .attribute .wildcard [.at, .star]
  | attributeName {test : NodeTest} {text : String} (isTest : IsNameTest namespaces test text) :
    IsHead namespaces .attribute test [.at, .name text]
  | star : IsHead namespaces .child .wildcard [.star]
  | text : IsHead namespaces .child .text [.name "text", .openParenthesis, .closeParenthesis]
  | node : IsHead namespaces .child .node [.name "node", .openParenthesis, .closeParenthesis]
  | childName {test : NodeTest} {text : String} (isTest : IsNameTest namespaces test text) :
    IsHead namespaces .child test [.name text]

/-- The token of a string that a path is compared with. -/
inductive IsLiteral : String → Token → Prop
  | text (s : String) : IsLiteral s (.literal s)
  | number (n : Nat) : IsLiteral (toString n) (.number n)

/-- What tokens may derive. -/
inductive Phrase where
  | path (path : LocationPath)
  | steps (steps : List Step)
  | step (step : Step)
  | predicates (predicates : List Predicate)
  | comparison (condition : Condition)
  | conjunction (condition : Condition)
  | disjunction (condition : Condition)

/-- The grammar of paths. A condition in front of a connective does not end in a slash, which would
take the connective for the name of a step. -/
inductive Derives (namespaces : Entries String) : Phrase → List Token → Prop
  | relative {ss : List Step} {ts : List Token} (steps : Derives namespaces (.steps ss) ts) :
    Derives namespaces (.path (.mk false ss)) ts
  | root : Derives namespaces (.path (.mk true [])) [.slash]
  | absolute {ss : List Step} {ts : List Token} (steps : Derives namespaces (.steps ss) ts) :
    Derives namespaces (.path (.mk true ss)) (.slash :: ts)
  | anywhere {ss : List Step} {ts : List Token} (steps : Derives namespaces (.steps ss) ts) :
    Derives namespaces (.path (.mk true (.descendants :: ss))) (.doubleSlash :: ts)
  | last {s : Step} {ts : List Token} (step : Derives namespaces (.step s) ts) :
    Derives namespaces (.steps [s]) ts
  | slash {s : Step} {ss : List Step} {ts us : List Token} (step : Derives namespaces (.step s) ts)
    (steps : Derives namespaces (.steps ss) us) :
    Derives namespaces (.steps (s :: ss)) (ts ++ .slash :: us)
  | doubleSlash {s : Step} {ss : List Step} {ts us : List Token}
    (step : Derives namespaces (.step s) ts) (steps : Derives namespaces (.steps ss) us) :
    Derives namespaces (.steps (s :: .descendants :: ss)) (ts ++ .doubleSlash :: us)
  | step {axis : Axis} {test : NodeTest} {ps : List Predicate} {ts us : List Token}
    (head : IsHead namespaces axis test ts) (predicates : Derives namespaces (.predicates ps) us) :
    Derives namespaces (.step (.mk axis test ps)) (ts ++ us)
  | noPredicate : Derives namespaces (.predicates []) []
  | position {n : Nat} {ps : List Predicate} {ts : List Token} (positive : n ≠ 0)
    (predicates : Derives namespaces (.predicates ps) ts) :
    Derives namespaces (.predicates (.position n :: ps))
      (.openBracket :: .number n :: .closeBracket :: ts)
  | filter {c : Condition} {ps : List Predicate} {ts us : List Token}
    (condition : Derives namespaces (.disjunction c) ts)
    (predicates : Derives namespaces (.predicates ps) us) :
    Derives namespaces (.predicates (.filter c :: ps))
      (.openBracket :: (ts ++ .closeBracket :: us))
  | present {p : LocationPath} {ts : List Token} (path : Derives namespaces (.path p) ts) :
    Derives namespaces (.comparison (.present p)) ts
  | equals {p : LocationPath} {value : String} {ts : List Token} {t : Token}
    (path : Derives namespaces (.path p) ts) (literal : IsLiteral value t) :
    Derives namespaces (.comparison (.equals p value)) (ts ++ [.equals, t])
  | differs {p : LocationPath} {value : String} {ts : List Token} {t : Token}
    (path : Derives namespaces (.path p) ts) (literal : IsLiteral value t) :
    Derives namespaces (.comparison (.differs p value)) (ts ++ [.differs, t])
  | not {c : Condition} {ts : List Token} (condition : Derives namespaces (.disjunction c) ts) :
    Derives namespaces (.comparison (.not c))
      (.name "not" :: .openParenthesis :: (ts ++ [.closeParenthesis]))
  | parentheses {c : Condition} {ts : List Token}
    (condition : Derives namespaces (.disjunction c) ts) :
    Derives namespaces (.comparison c) (.openParenthesis :: (ts ++ [.closeParenthesis]))
  | conjunct {c : Condition} {ts : List Token}
    (comparison : Derives namespaces (.comparison c) ts) :
    Derives namespaces (.conjunction c) ts
  | and {l r : Condition} {ts us : List Token} (left : Derives namespaces (.conjunction l) ts)
    (apart : ts.getLast? ≠ some .slash) (right : Derives namespaces (.comparison r) us) :
    Derives namespaces (.conjunction (.and l r)) (ts ++ .name "and" :: us)
  | alternative {c : Condition} {ts : List Token}
    (conjunction : Derives namespaces (.conjunction c) ts) :
    Derives namespaces (.disjunction c) ts
  | or {l r : Condition} {ts us : List Token} (left : Derives namespaces (.disjunction l) ts)
    (apart : ts.getLast? ≠ some .slash) (right : Derives namespaces (.conjunction r) us) :
    Derives namespaces (.disjunction (.or l r)) (ts ++ .name "or" :: us)

section Heads

theorem nameTest_bare {text : String} (free : ':' ∉ text.toList) :
    nameTest namespaces text = .ok (.name none text) := by
  unfold nameTest
  rw [if_neg (by simpa using free)]

theorem nameTest_prefixed {p l : String} (free : ':' ∉ p.toList) :
    nameTest namespaces (p ++ ":" ++ l) =
      match namespaces.get? p with
      | none => .error (.unknownPrefix p)
      | some iri => if l = "*" then .ok .wildcard else .ok (.name (some iri) l) := by
  have kind : ∀ c ∈ p.toList, decide (c ≠ ':') = true := by
    intro c hc
    simpa using fun same : c = ':' => free (same ▸ hc)
  have ends : (':' :: l.toList).head?.any (fun c => decide (c ≠ ':')) = false := by simp
  obtain ⟨taken, left⟩ := stretch_append kind ends
  have whole : (p ++ ":" ++ l).toList = p.toList ++ ':' :: l.toList := by simp
  unfold nameTest
  simp only [whole, taken, left]
  rw [if_pos (by simp)]
  cases known : namespaces.get? p <;>
    simp only [List.drop_succ_cons, List.drop_zero, String.ofList_toList, known]

theorem exists_prefix {text : String} (colon : ':' ∈ text.toList) :
    ∃ p l, ':' ∉ p.toList ∧ text = p ++ ":" ++ l := by
  obtain ⟨before, after, parts, free⟩ := List.eq_append_cons_of_mem colon
  refine ⟨String.ofList before, String.ofList after, by simpa using free, ?_⟩
  rw [← String.toList_inj, parts]
  simp

theorem nameTest_eq_ok_iff {test : NodeTest} {text : String} :
    nameTest namespaces text = .ok test ↔ IsNameTest namespaces test text := by
  constructor
  · intro read
    by_cases colon : ':' ∈ text.toList
    · obtain ⟨p, l, free, rfl⟩ := exists_prefix colon
      rw [nameTest_prefixed free] at read
      split at read
      next => cases read
      next iri known =>
        split at read
        next star =>
          cases read
          subst star
          exact .anyName free known
        next named =>
          cases read
          exact .prefixed free known named
    · rw [nameTest_bare colon] at read
      cases read
      exact .bare colon
  · intro isTest
    cases isTest with
    | bare free => exact nameTest_bare free
    | prefixed free known named => rw [nameTest_prefixed free, known]; exact if_neg named
    | anyName free known => rw [nameTest_prefixed free, known]; exact if_pos rfl

theorem IsHead.starts {axis : Axis} {test : NodeTest} {ts : List Token}
    (head : IsHead namespaces axis test ts) : ts.head?.any Token.startsStep := by
  cases head <;> rfl

theorem stepHead_of_isHead {axis : Axis} {test : NodeTest} {ts rest : List Token}
    (head : IsHead namespaces axis test ts) (ends : rest.head? ≠ some .openParenthesis) :
    stepHead namespaces (ts ++ rest) = .ok ((axis, test), rest) := by
  cases head with
  | attributeName isTest =>
    rw [List.cons_append, List.cons_append, stepHead, nameTest_eq_ok_iff.mpr isTest]
    rfl
  | childName isTest =>
    have read := nameTest_eq_ok_iff.mpr isTest
    rw [List.cons_append, List.nil_append]
    unfold stepHead
    split <;> simp_all [Except.map]
  | _ => rfl

theorem isHead_of_stepHead {axis : Axis} {test : NodeTest} {tokens rest : List Token}
    (read : stepHead namespaces tokens = .ok ((axis, test), rest)) :
    ∃ ts, tokens = ts ++ rest ∧ IsHead namespaces axis test ts := by
  have named {axis' : Axis} {text : String} {rest' : List Token}
      (read : (nameTest namespaces text).map (fun test => ((axis', test), rest')) =
        .ok ((axis, test), rest)) :
      IsNameTest namespaces test text ∧ axis' = axis ∧ rest' = rest := by
    cases found : nameTest namespaces text with
    | error => simp [found, Except.map] at read
    | ok test' =>
      rw [found] at read
      cases read
      exact ⟨nameTest_eq_ok_iff.mp found, rfl, rfl⟩
  unfold stepHead at read
  split at read
  next =>
    cases read
    exact ⟨_, rfl, .dot⟩
  next =>
    cases read
    exact ⟨_, rfl, .doubleDot⟩
  next =>
    cases read
    exact ⟨_, rfl, .anyAttribute⟩
  next =>
    obtain ⟨isTest, rfl, rfl⟩ := named read
    exact ⟨_, rfl, .attributeName isTest⟩
  next => cases read
  next =>
    cases read
    exact ⟨_, rfl, .star⟩
  next =>
    split at read
    next same =>
      cases read
      subst same
      exact ⟨_, rfl, .text⟩
    next =>
      split at read
      next same =>
        cases read
        subst same
        exact ⟨_, rfl, .node⟩
      next => cases read
  next => cases read
  next =>
    obtain ⟨isTest, rfl, rfl⟩ := named read
    exact ⟨_, rfl, .childName isTest⟩
  next => cases read

end Heads

/-- A step goes on with such a token. -/
def Token.opens : Token → Bool
  | .openBracket | .openParenthesis => true
  | _ => false

/-- A path goes on with such a token. -/
def Token.joins (t : Token) : Bool := t.opens || t == .slash || t == .doubleSlash

/-- A comparison goes on with such a token. -/
def Token.compares (t : Token) : Bool := t.joins || t == .equals || t == .differs

/-- What follows the tokens of a path or of a condition does not belong to it: it does not go on
with the next token, nor does a slash at its end with the next name. -/
structure Ends (goesOn : Token → Bool) (ts rest : List Token) : Prop where
  stops : rest.head?.any goesOn = false
  apart : ts.getLast? = some .slash → rest.head?.any Token.startsStep = false

section Shapes
variable {ts us rest : List Token}

theorem Ends.mono {goesOn fewer : Token → Bool} (ends : Ends goesOn ts rest)
    (le : ∀ t, fewer t → goesOn t) : Ends fewer ts rest := by
  refine ⟨?_, ends.apart⟩
  have stops := ends.stops
  cases next : rest.head? with
  | none => rfl
  | some t =>
    rw [next] at stops
    have stops : goesOn t = false := stops
    exact Bool.eq_false_iff.mpr fun takes => by simp [le t takes] at stops

theorem Ends.right {goesOn : Token → Bool} (ends : Ends goesOn (ts ++ us) rest) :
    Ends goesOn us rest := by
  refine ⟨ends.stops, fun last => ends.apart ?_⟩
  rw [List.getLast?_append, last]
  rfl

theorem head_append {p : Token → Bool} (head : ts.head?.any p) : (ts ++ us).head?.any p := by
  cases ts with
  | nil => cases head
  | cons t ts => exact head

theorem Derives.step_starts {s : Step} (h : Derives namespaces (.step s) ts) :
    ts.head?.any Token.startsStep := by
  cases h with
  | step head _ => exact head_append head.starts

theorem Derives.steps_start {ss : List Step} (h : Derives namespaces (.steps ss) ts) :
    ts.head?.any Token.startsStep := by
  cases h with
  | last step => exact step.step_starts
  | slash step _ => exact head_append step.step_starts
  | doubleSlash step _ => exact head_append step.step_starts

/-- Such a token begins a path. -/
def Token.beginsPath (t : Token) : Bool := t.startsStep || t == .slash || t == .doubleSlash

/-- Such a token begins a path or a condition. -/
def Token.begins (t : Token) : Bool := t.beginsPath || t == .openParenthesis

theorem Derives.path_begins {p : LocationPath} (h : Derives namespaces (.path p) ts) :
    ts.head?.any Token.beginsPath := by
  cases h with
  | relative steps =>
    have starts := steps.steps_start
    cases ts with
    | nil => cases starts
    | cons t ts =>
      have starts : t.startsStep := starts
      simp [Token.beginsPath, starts]
  | root => rfl
  | absolute => rfl
  | anywhere => rfl

theorem begins_of_beginsPath (head : ts.head?.any Token.beginsPath) :
    ts.head?.any Token.begins := by
  cases ts with
  | nil => cases head
  | cons t ts =>
    have head : t.beginsPath := head
    simp [Token.begins, head]

/-- A condition. -/
def Phrase.IsCondition : Phrase → Prop
  | .comparison _ | .conjunction _ | .disjunction _ => True
  | _ => False

theorem Derives.condition_begins {phrase : Phrase} (h : Derives namespaces phrase ts)
    (condition : phrase.IsCondition) : ts.head?.any Token.begins := by
  induction h with
  | present path => exact begins_of_beginsPath path.path_begins
  | equals path _ => exact head_append (begins_of_beginsPath path.path_begins)
  | differs path _ => exact head_append (begins_of_beginsPath path.path_begins)
  | not => rfl
  | parentheses => rfl
  | conjunct _ ih => exact ih trivial
  | and _ _ _ ih => exact head_append (ih trivial)
  | alternative _ ih => exact ih trivial
  | or _ _ _ ih => exact head_append (ih trivial)
  | _ => exact condition.elim

theorem Derives.condition_ne_nil {phrase : Phrase} (h : Derives namespaces phrase ts)
    (condition : phrase.IsCondition) : ts ≠ [] := by
  rintro rfl
  cases h.condition_begins condition

theorem Derives.predicates_begin {ps : List Predicate} (h : Derives namespaces (.predicates ps) ts)
    (stops : rest.head?.any Token.opens = false) : (ts ++ rest).head? ≠ some .openParenthesis := by
  cases h with
  | noPredicate =>
    intro same
    rw [List.nil_append] at same
    simp [same, Token.opens] at stops
  | position => simp
  | filter => simp

/-- A path is not taken for a negation. -/
theorem Derives.not_negation {p : LocationPath} (h : Derives namespaces (.path p) ts)
    (stops : rest.head?.any Token.opens = false) (more : List Token) :
    ts ++ rest ≠ .name "not" :: .openParenthesis :: more := by
  have step {s : Step} {us rest : List Token} (h : Derives namespaces (.step s) us)
      (stops : rest.head?.any Token.opens = false) :
      us ++ rest ≠ .name "not" :: .openParenthesis :: more := by
    cases h with
    | step head predicates =>
      have next := predicates.predicates_begin stops
      cases head with
      | childName isTest =>
        -- The name may be "not", but no parenthesis follows the name of a step.
        intro same
        rw [List.append_assoc] at same
        have behind : _ ++ rest = .openParenthesis :: more := (List.cons.inj same).2
        rw [behind] at next
        exact next rfl
      | _ => simp
  cases h with
  | relative steps =>
    cases steps with
    | last first => exact step first stops
    | slash first _ =>
      rw [List.append_assoc]
      exact step first rfl
    | doubleSlash first _ =>
      rw [List.append_assoc]
      exact step first rfl
  | _ => simp

end Shapes

end CatalogGraph.XPath
