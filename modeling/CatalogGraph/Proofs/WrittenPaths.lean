import CatalogGraph.Proofs.PathReading
import Mathlib.Data.List.Basic

/-!
Writing paths: a path that can be written is read back from what is written for it, with all
parentheses or with none but those it needs, and every path that is read can be written.
-/
namespace CatalogGraph.XPath
variable {namespaces : Entries String}

section Writing

/-- A prefix that stands for a namespace. -/
def prefixFor (namespaces : Entries String) (iri : String) : String :=
  let found := namespaces.find? fun (p, _) => isName p.toList && namespaces.get? p == some iri
  (found.map Prod.fst).getD ""

/-- The tokens written for a test. -/
def NodeTest.tokens (namespaces : Entries String) : NodeTest → List Token
  | .name none localName => [.name localName]
  | .name (some iri) localName => [.name (prefixFor namespaces iri ++ ":" ++ localName)]
  | .wildcard => [.star]
  | .text => [.name "text", .openParenthesis, .closeParenthesis]
  | .node => [.name "node", .openParenthesis, .closeParenthesis]

/-- The tokens written for an axis and a test. -/
def headTokens (namespaces : Entries String) : Axis → NodeTest → List Token
  | .self, _ => [.dot]
  | .parent, _ => [.doubleDot]
  | .attribute, test => .at :: test.tokens namespaces
  | _, test => test.tokens namespaces

/-- Tokens in parentheses where these are needed. -/
def enclosed (needed : Bool) (ts : List Token) : List Token :=
  if needed then .openParenthesis :: (ts ++ [.closeParenthesis]) else ts

/-- Tokens in front of a connective, which a slash at their end would take for a step. -/
def enclosedBefore (needed : Bool) (ts : List Token) : List Token :=
  enclosed (needed || ts.getLast? == some .slash) ts

/-- How tight a condition binds: a disjunction least, then a conjunction. -/
def Condition.tightness : Condition → Nat
  | .or _ _ => 0
  | .and _ _ => 1
  | _ => 2

def Step.axis : Step → Axis
  | .mk axis _ _ => axis

mutual

/-- The tokens written for a path, with every operand of a connective in parentheses or only those
that need them. -/
def LocationPath.tokens (namespaces : Entries String) (full : Bool) : LocationPath → List Token
  | .mk absolute steps =>
    if absolute && steps.isEmpty then [.slash] else stepsTokens namespaces full absolute steps

/-- The tokens written for steps, with a slash in front of the first one if it is due. -/
def stepsTokens (namespaces : Entries String) (full : Bool) : Bool → List Step → List Token
  | _, [] => []
  | due, step :: rest =>
    if step.axis = .descendantOrSelf then
      .doubleSlash :: stepsTokens namespaces full false rest
    else
      (if due then [.slash] else []) ++ step.tokens namespaces full ++
        stepsTokens namespaces full true rest

def Step.tokens (namespaces : Entries String) (full : Bool) : Step → List Token
  | .mk axis test predicates =>
    headTokens namespaces axis test ++ predicatesTokens namespaces full predicates

def predicatesTokens (namespaces : Entries String) (full : Bool) : List Predicate → List Token
  | [] => []
  | predicate :: rest =>
    predicate.tokens namespaces full ++ predicatesTokens namespaces full rest

def Predicate.tokens (namespaces : Entries String) (full : Bool) : Predicate → List Token
  | .position n => [.openBracket, .number n, .closeBracket]
  | .filter condition =>
    .openBracket :: (condition.tokens namespaces full ++ [.closeBracket])

/-- The tokens written for a condition. The operand on the left may bind as tight as the connective,
the one on the right binds tighter. -/
def Condition.tokens (namespaces : Entries String) (full : Bool) : Condition → List Token
  | .present path => path.tokens namespaces full
  | .equals path value => path.tokens namespaces full ++ [.equals, .literal value]
  | .differs path value => path.tokens namespaces full ++ [.differs, .literal value]
  | .not inner =>
    .name "not" :: .openParenthesis :: (inner.tokens namespaces full ++ [.closeParenthesis])
  | .and left right =>
    enclosedBefore (full || left.tightness < 1) (left.tokens namespaces full) ++
      .name "and" :: enclosed (full || right.tightness < 2) (right.tokens namespaces full)
  | .or left right =>
    enclosedBefore full (left.tokens namespaces full) ++
      .name "or" :: enclosed (full || right.tightness < 1) (right.tokens namespaces full)

end

/-- The text written for a path. -/
def LocationPath.written (namespaces : Entries String) (full : Bool) (path : LocationPath) :
    String :=
  String.ofList (textOf (path.tokens namespaces full))

end Writing

section Writable

/-- A test by name whose names can be written. -/
inductive NodeTest.Writable (namespaces : Entries String) : NodeTest → Prop
  | wildcard : NodeTest.Writable namespaces .wildcard
  | bare {l : String} (isLocal : isName l.toList) : NodeTest.Writable namespaces (.name none l)
  | prefixed {p l iri : String} (isPrefix : isName p.toList) (known : namespaces.get? p = some iri)
    (isLocal : isName l.toList) : NodeTest.Writable namespaces (.name (some iri) l)

/-- An axis and a test that a step can have. -/
inductive IsMove (namespaces : Entries String) : Axis → NodeTest → Prop
  | self : IsMove namespaces .self .node
  | parent : IsMove namespaces .parent .node
  | text : IsMove namespaces .child .text
  | node : IsMove namespaces .child .node
  | childNamed {test : NodeTest} (named : test.Writable namespaces) : IsMove namespaces .child test
  | attributeNamed {test : NodeTest} (named : test.Writable namespaces) :
    IsMove namespaces .attribute test

/-- A string that one of the quotes can enclose. -/
def IsQuotable (value : String) : Prop := '\'' ∉ value.toList ∨ '"' ∉ value.toList

/-- The phrases that can be written; a condition stands here as a disjunction. -/
inductive Writable (namespaces : Entries String) : Phrase → Prop
  | relative {ss : List Step} (steps : Writable namespaces (.steps ss)) :
    Writable namespaces (.path (.mk false ss))
  | root : Writable namespaces (.path (.mk true []))
  | absolute {ss : List Step} (steps : Writable namespaces (.steps ss)) :
    Writable namespaces (.path (.mk true ss))
  | anywhere {ss : List Step} (steps : Writable namespaces (.steps ss)) :
    Writable namespaces (.path (.mk true (.descendants :: ss)))
  | last {s : Step} (step : Writable namespaces (.step s)) : Writable namespaces (.steps [s])
  | slash {s : Step} {ss : List Step} (step : Writable namespaces (.step s))
    (steps : Writable namespaces (.steps ss)) : Writable namespaces (.steps (s :: ss))
  | doubleSlash {s : Step} {ss : List Step} (step : Writable namespaces (.step s))
    (steps : Writable namespaces (.steps ss)) :
    Writable namespaces (.steps (s :: .descendants :: ss))
  | step {axis : Axis} {test : NodeTest} {ps : List Predicate}
    (move : IsMove namespaces axis test) (predicates : Writable namespaces (.predicates ps)) :
    Writable namespaces (.step (.mk axis test ps))
  | noPredicate : Writable namespaces (.predicates [])
  | position {n : Nat} {ps : List Predicate} (positive : n ≠ 0) (bounded : n < positionBound)
    (predicates : Writable namespaces (.predicates ps)) :
    Writable namespaces (.predicates (.position n :: ps))
  | filter {c : Condition} {ps : List Predicate} (condition : Writable namespaces (.disjunction c))
    (predicates : Writable namespaces (.predicates ps)) :
    Writable namespaces (.predicates (.filter c :: ps))
  | present {p : LocationPath} (path : Writable namespaces (.path p)) :
    Writable namespaces (.disjunction (.present p))
  | equals {p : LocationPath} {value : String} (path : Writable namespaces (.path p))
    (quotable : IsQuotable value) : Writable namespaces (.disjunction (.equals p value))
  | differs {p : LocationPath} {value : String} (path : Writable namespaces (.path p))
    (quotable : IsQuotable value) : Writable namespaces (.disjunction (.differs p value))
  | not {c : Condition} (condition : Writable namespaces (.disjunction c)) :
    Writable namespaces (.disjunction (.not c))
  | and {l r : Condition} (left : Writable namespaces (.disjunction l))
    (right : Writable namespaces (.disjunction r)) : Writable namespaces (.disjunction (.and l r))
  | or {l r : Condition} (left : Writable namespaces (.disjunction l))
    (right : Writable namespaces (.disjunction r)) : Writable namespaces (.disjunction (.or l r))

end Writable

section Names

theorem isName_not_colon {cs : List Char} (name : isName cs) : ':' ∉ cs := by
  cases cs with
  | nil => cases name
  | cons c rest =>
    obtain ⟨start, kind⟩ := isName_cons.mp name
    intro colon
    rcases List.mem_cons.mp colon with rfl | colon
    · simp [isNameStart_not_sign ':' (by simp [gaps])] at start
    · exact absurd (kind _ colon) (by simp [not_isNameChar_colon])

theorem mem_of_get? {key value : String} (known : namespaces.get? key = some value) :
    (key, value) ∈ namespaces := by
  induction namespaces with
  | nil => cases known
  | cons pair rest ih =>
    rw [Entries.get?] at known
    split at known
    next same =>
      cases known
      subst same
      simp
    next => exact List.mem_cons_of_mem _ (ih known)

/-- A namespace for which some prefix stands is written with such a prefix. -/
theorem prefixFor_stands {p iri : String} (isPrefix : isName p.toList)
    (known : namespaces.get? p = some iri) :
    isName (prefixFor namespaces iri).toList ∧
      namespaces.get? (prefixFor namespaces iri) = some iri := by
  unfold prefixFor
  cases found : namespaces.find? fun (p, _) => isName p.toList && namespaces.get? p == some iri with
  | none =>
    have others := List.find?_eq_none.mp found _ (mem_of_get? known)
    simp [isPrefix, known] at others
  | some pair =>
    have holds := List.find?_some found
    simpa using holds

end Names

section Derivations
variable {full : Bool} {ts : List Token}

/-- The tokens written for a phrase. -/
def Phrase.tokens (namespaces : Entries String) (full : Bool) : Phrase → List Token
  | .path p => p.tokens namespaces full
  | .steps ss => stepsTokens namespaces full false ss
  | .step s => s.tokens namespaces full
  | .predicates ps => predicatesTokens namespaces full ps
  | .comparison c | .conjunction c | .disjunction c => c.tokens namespaces full

/-- A condition as what it is before it is enclosed. -/
def Phrase.tight : Phrase → Phrase
  | .disjunction (.or l r) => .disjunction (.or l r)
  | .disjunction (.and l r) => .conjunction (.and l r)
  | .disjunction c => .comparison c
  | phrase => phrase

theorem isNameTest_of_writable {test : NodeTest} (named : test.Writable namespaces) :
    test = .wildcard ∨ ∃ text, test.tokens namespaces = [.name text] ∧
      IsNameTest namespaces test text ∧ IsWholeName text.toList := by
  cases named with
  | wildcard => exact .inl rfl
  | bare isLocal => exact .inr ⟨_, rfl, .bare (isName_not_colon isLocal), .inl isLocal⟩
  | @prefixed p l iri isPrefix known isLocal =>
    obtain ⟨isPrefix, known⟩ := prefixFor_stands isPrefix known
    have notStar : l ≠ "*" := by
      rintro rfl
      revert isLocal
      decide
    refine .inr ⟨_, rfl, .prefixed (isName_not_colon isPrefix) known notStar, .inr ?_⟩
    exact ⟨_, _, isPrefix, .inl isLocal, by simp⟩

theorem isHead_of_isMove {axis : Axis} {test : NodeTest} (move : IsMove namespaces axis test) :
    IsHead namespaces axis test (headTokens namespaces axis test) := by
  cases move with
  | self => exact .dot
  | parent => exact .doubleDot
  | text => exact .text
  | node => exact .node
  | childNamed named =>
    rcases isNameTest_of_writable named with rfl | ⟨text, tokens, isTest, _⟩
    · exact .star
    · rw [headTokens, tokens]
      · exact .childName isTest
      all_goals simp
  | attributeNamed named =>
    rcases isNameTest_of_writable named with rfl | ⟨text, tokens, isTest, _⟩
    · exact .anyAttribute
    · rw [headTokens, tokens]
      exact .attributeName isTest

theorem Writable.axis_ne {s : Step} (step : Writable namespaces (.step s)) :
    s.axis ≠ .descendantOrSelf := by
  cases step with
  | step move _ => cases move <;> simp [Step.axis]

theorem stepsTokens_cons {s : Step} (step : Writable namespaces (.step s)) (due : Bool)
    (ss : List Step) :
    stepsTokens namespaces full due (s :: ss) = (if due then [.slash] else []) ++
      (s.tokens namespaces full ++ stepsTokens namespaces full true ss) := by
  rw [stepsTokens, if_neg step.axis_ne, List.append_assoc]

theorem stepsTokens_first {s : Step} (step : Writable namespaces (.step s)) (ss : List Step) :
    stepsTokens namespaces full false (s :: ss) =
      s.tokens namespaces full ++ stepsTokens namespaces full true ss := by
  rw [stepsTokens_cons step]
  rfl

theorem stepsTokens_descendants (due : Bool) (ss : List Step) :
    stepsTokens namespaces full due (.descendants :: ss) =
      .doubleSlash :: stepsTokens namespaces full false ss := by
  rw [stepsTokens]
  exact if_pos rfl

theorem stepsTokens_due {ss : List Step} (steps : Writable namespaces (.steps ss)) :
    stepsTokens namespaces full true ss = .slash :: stepsTokens namespaces full false ss := by
  cases steps with
  | last step | slash step _ | doubleSlash step _ =>
    rw [stepsTokens_cons step, stepsTokens_first step]
    rfl

theorem tokens_absolute {ss : List Step} (steps : Writable namespaces (.steps ss)) :
    (LocationPath.mk true ss).tokens namespaces full =
      .slash :: stepsTokens namespaces full false ss := by
  have filled : ss ≠ [] := by cases steps <;> simp
  rw [LocationPath.tokens, if_neg (by simpa using filled), stepsTokens_due steps]

theorem derives_disjunction {c : Condition}
    (h : Derives namespaces (Phrase.disjunction c).tight ts) :
    Derives namespaces (.disjunction c) ts := by
  cases c with
  | or => exact h
  | and => exact .alternative h
  | _ => exact .alternative (.conjunct h)

theorem derives_conjunction {c : Condition}
    (h : Derives namespaces (Phrase.disjunction c).tight ts) (tight : ¬c.tightness < 1) :
    Derives namespaces (.conjunction c) ts := by
  cases c with
  | or => simp [Condition.tightness] at tight
  | and => exact h
  | _ => exact .conjunct h

theorem derives_comparison {c : Condition}
    (h : Derives namespaces (Phrase.disjunction c).tight ts) (tight : ¬c.tightness < 2) :
    Derives namespaces (.comparison c) ts := by
  cases c with
  | or => simp [Condition.tightness] at tight
  | and => simp [Condition.tightness] at tight
  | _ => exact h

/-- Parentheses make a comparison of a condition, which is also what it may stand for. -/
theorem derives_enclosed {c : Condition} {phrase : Phrase} {needed : Bool}
    (h : Derives namespaces (Phrase.disjunction c).tight ts)
    (widen : ∀ us, Derives namespaces (.comparison c) us → Derives namespaces phrase us)
    (bare : ¬needed → Derives namespaces phrase ts) :
    Derives namespaces phrase (enclosed needed ts) := by
  unfold enclosed
  split
  next => exact widen _ (.parentheses (derives_disjunction h))
  next unneeded => exact bare unneeded

theorem enclosedBefore_last (needed : Bool) (ts : List Token) :
    (enclosedBefore needed ts).getLast? ≠ some .slash := by
  unfold enclosedBefore enclosed
  split
  next => simp [List.getLast?_cons]
  next unneeded =>
    intro last
    simp [last] at unneeded

theorem derives_and {l r : Condition} {us : List Token}
    (left : Derives namespaces (Phrase.disjunction l).tight ts)
    (right : Derives namespaces (Phrase.disjunction r).tight us) :
    Derives namespaces (.conjunction (.and l r))
      (enclosedBefore (full || l.tightness < 1) ts ++
        .name "and" :: enclosed (full || r.tightness < 2) us) := by
  -- An operand without parentheses binds tight enough to be derived as it stands.
  refine .and ?_ (enclosedBefore_last _ _) ?_
  · refine derives_enclosed left (fun _ => .conjunct) fun bare => derives_conjunction left ?_
    simp only [Bool.or_eq_true, decide_eq_true_eq, not_or] at bare
    exact bare.1.2
  · refine derives_enclosed right (fun _ h => h) fun bare => derives_comparison right ?_
    simp only [Bool.or_eq_true, decide_eq_true_eq, not_or] at bare
    exact bare.2

theorem derives_or {l r : Condition} {us : List Token}
    (left : Derives namespaces (Phrase.disjunction l).tight ts)
    (right : Derives namespaces (Phrase.disjunction r).tight us) :
    Derives namespaces (.disjunction (.or l r))
      (enclosedBefore full ts ++ .name "or" :: enclosed (full || r.tightness < 1) us) := by
  refine .or ?_ (enclosedBefore_last _ _) ?_
  · exact derives_enclosed left (fun _ h => .alternative (.conjunct h)) fun _ =>
      derives_disjunction left
  · refine derives_enclosed right (fun _ => .conjunct) fun bare => derives_conjunction right ?_
    simp only [Bool.or_eq_true, decide_eq_true_eq, not_or] at bare
    exact bare.2

theorem Writable.derives {phrase : Phrase} (h : Writable namespaces phrase) :
    Derives namespaces phrase.tight (phrase.tokens namespaces full) := by
  induction h with
  | relative _ ih => exact .relative ih
  | root => exact .root
  | absolute steps ih =>
    rw [Phrase.tokens, tokens_absolute steps]
    exact .absolute ih
  | anywhere _ ih =>
    change Derives _ _ (stepsTokens _ _ true _)
    rw [stepsTokens_descendants]
    exact .anywhere ih
  | last step ih =>
    rw [Phrase.tokens, stepsTokens_first step, stepsTokens, List.append_nil]
    exact .last ih
  | slash step steps first more =>
    rw [Phrase.tokens, stepsTokens_first step, stepsTokens_due steps]
    exact .slash first more
  | doubleSlash step _ first more =>
    rw [Phrase.tokens, stepsTokens_first step, stepsTokens_descendants]
    exact .doubleSlash first more
  | step move _ ih => exact .step (isHead_of_isMove move) ih
  | noPredicate => exact .noPredicate
  | position positive _ _ ih => exact .position positive ih
  | filter _ _ first more =>
    rw [Phrase.tokens, predicatesTokens, Predicate.tokens, List.cons_append, List.append_assoc]
    exact .filter (derives_disjunction first) more
  | present _ ih => exact .present ih
  | equals _ _ ih => exact .equals ih (.text _)
  | differs _ _ ih => exact .differs ih (.text _)
  | not _ ih => exact .not (derives_disjunction ih)
  | and _ _ left right => exact derives_and left right
  | or _ _ left right => exact derives_or left right

end Derivations

section Spelling
variable {full : Bool} {ts : List Token}

theorem spellable_literal {value : String} (quotable : IsQuotable value) :
    (Token.literal value).Spellable := by
  rcases quotable with free | free
  · exact ⟨_, '\'', .inl rfl, free, rfl⟩
  · exact ⟨_, '"', .inr rfl, free, rfl⟩

theorem spellable_number {n : Nat} (bounded : n < positionBound) : (Token.number n).Spellable :=
  ⟨(toString n).toList, by simp, fun _ => isDigit_of_mem_toString, decimalValue_toString n, bounded⟩

theorem spellable_name {text : String} (whole : IsWholeName text.toList) :
    (Token.name text).Spellable :=
  ⟨_, rfl, whole⟩

theorem spellable_word {text : String} (word : isName text.toList) : (Token.name text).Spellable :=
  spellable_name (.inl word)

def Token.isSign : Token → Bool
  | .literal _ | .number _ | .name _ => false
  | _ => true

theorem spellable_sign {t : Token} (sign : t.isSign) : t.Spellable := by
  cases t with
  | literal | number | name => cases sign
  | _ => exact ⟨_, rfl⟩

theorem spellable_enclosed {needed : Bool} (h : ∀ t ∈ ts, t.Spellable) :
    ∀ t ∈ enclosed needed ts, t.Spellable := by
  unfold enclosed
  split
  next =>
    simp only [List.forall_mem_cons, List.forall_mem_append]
    exact ⟨spellable_sign rfl, h, spellable_sign rfl, by simp⟩
  next => exact h

theorem spellable_head {axis : Axis} {test : NodeTest} (move : IsMove namespaces axis test) :
    ∀ t ∈ headTokens namespaces axis test, t.Spellable := by
  cases move with
  | self | parent => simpa [headTokens] using spellable_sign rfl
  | text | node =>
    simp only [headTokens, NodeTest.tokens, List.forall_mem_cons]
    exact ⟨spellable_word (by decide), spellable_sign rfl, spellable_sign rfl, by simp⟩
  | childNamed named =>
    rcases isNameTest_of_writable named with rfl | ⟨text, tokens, _, whole⟩
    · simpa [headTokens, NodeTest.tokens] using spellable_sign rfl
    · simpa [headTokens, tokens] using spellable_name whole
  | attributeNamed named =>
    rcases isNameTest_of_writable named with rfl | ⟨text, tokens, _, whole⟩
    · simpa [headTokens, NodeTest.tokens] using ⟨spellable_sign rfl, spellable_sign rfl⟩
    · simpa [headTokens, tokens] using ⟨spellable_sign rfl, spellable_name whole⟩

theorem Writable.spellable {phrase : Phrase} (h : Writable namespaces phrase) :
    ∀ t ∈ phrase.tokens namespaces full, t.Spellable := by
  induction h with
  | relative _ ih => exact ih
  | root => simpa [Phrase.tokens, LocationPath.tokens] using spellable_sign rfl
  | absolute steps ih =>
    rw [Phrase.tokens, tokens_absolute steps]
    exact List.forall_mem_cons.mpr ⟨spellable_sign rfl, ih⟩
  | anywhere _ ih =>
    change ∀ t ∈ stepsTokens _ _ true _, _
    rw [stepsTokens_descendants]
    exact List.forall_mem_cons.mpr ⟨spellable_sign rfl, ih⟩
  | last step ih =>
    rw [Phrase.tokens, stepsTokens_first step, stepsTokens, List.append_nil]
    exact ih
  | slash step steps first more =>
    rw [Phrase.tokens, stepsTokens_first step, stepsTokens_due steps]
    exact List.forall_mem_append.mpr ⟨first, List.forall_mem_cons.mpr ⟨spellable_sign rfl, more⟩⟩
  | doubleSlash step _ first more =>
    rw [Phrase.tokens, stepsTokens_first step, stepsTokens_descendants]
    exact List.forall_mem_append.mpr ⟨first, List.forall_mem_cons.mpr ⟨spellable_sign rfl, more⟩⟩
  | step move _ ih => exact List.forall_mem_append.mpr ⟨spellable_head move, ih⟩
  | noPredicate => simp [Phrase.tokens, predicatesTokens]
  | position _ bounded _ ih =>
    simp only [Phrase.tokens, predicatesTokens, Predicate.tokens, List.forall_mem_append,
      List.forall_mem_cons]
    exact ⟨⟨spellable_sign rfl, spellable_number bounded, spellable_sign rfl, by simp⟩, ih⟩
  | filter _ _ first more =>
    simp only [Phrase.tokens, predicatesTokens, Predicate.tokens, List.forall_mem_append,
      List.forall_mem_cons]
    exact ⟨⟨spellable_sign rfl, first, spellable_sign rfl, by simp⟩, more⟩
  | present _ ih => exact ih
  | equals _ quotable ih | differs _ quotable ih =>
    simp only [Phrase.tokens, Condition.tokens, List.forall_mem_append, List.forall_mem_cons]
    exact ⟨ih, spellable_sign rfl, spellable_literal quotable, by simp⟩
  | not _ ih =>
    simp only [Phrase.tokens, Condition.tokens, List.forall_mem_append, List.forall_mem_cons]
    exact ⟨spellable_word (by decide), spellable_sign rfl, ih, spellable_sign rfl, by simp⟩
  | and _ _ left right | or _ _ left right =>
    simp only [Phrase.tokens, Condition.tokens, List.forall_mem_append, List.forall_mem_cons]
    exact ⟨spellable_enclosed left, spellable_word (by decide), spellable_enclosed right⟩

end Spelling

section Readings
variable {ts : List Token}

/-- A condition in any place as a disjunction. -/
def Phrase.plain : Phrase → Phrase
  | .comparison c | .conjunction c => .disjunction c
  | phrase => phrase

theorem writable_of_isNameTest {test : NodeTest} {text : String}
    (isTest : IsNameTest namespaces test text) (spellable : (Token.name text).Spellable) :
    test.Writable namespaces := by
  obtain ⟨_, rfl, whole⟩ := spellable
  cases isTest with
  | bare free =>
    rcases whole with isLocal | ⟨p, l, _, _, same⟩
    · exact .bare isLocal
    · simp [same] at free
  | @prefixed p l iri free known named =>
    rcases whole with isLocal | ⟨p', l', isPrefix, isLocal, same⟩
    · exact absurd (by simp) (isName_not_colon isLocal)
    · -- The first colon parts the name, so both ways of parting it are the same.
      have colonless : ':' ∉ l' := by
        rcases isLocal with isLocal | rfl
        · exact isName_not_colon isLocal
        · decide
      have parts : p' ++ ':' :: l' = p.toList ++ ':' :: l.toList := by simp [← same]
      obtain ⟨rfl, _, rfl⟩ :=
        (List.append_cons_inj_of_notMem (isName_not_colon isPrefix) colonless).mp parts
      refine .prefixed isPrefix known (isLocal.resolve_right fun star => named ?_)
      rw [← String.toList_inj, star]
      rfl
  | anyName => exact .wildcard

theorem isMove_of_isHead {axis : Axis} {test : NodeTest} (head : IsHead namespaces axis test ts)
    (spellable : ∀ t ∈ ts, t.Spellable) : IsMove namespaces axis test := by
  cases head with
  | dot => exact .self
  | doubleDot => exact .parent
  | anyAttribute => exact .attributeNamed .wildcard
  | attributeName isTest =>
    exact .attributeNamed (writable_of_isNameTest isTest (spellable _ (by simp)))
  | star => exact .childNamed .wildcard
  | text => exact .text
  | node => exact .node
  | childName isTest =>
    exact .childNamed (writable_of_isNameTest isTest (spellable _ (by simp)))

theorem isQuotable_of_isLiteral {value : String} {t : Token} (isLiteral : IsLiteral value t)
    (spellable : t.Spellable) : IsQuotable value := by
  cases isLiteral with
  | text =>
    obtain ⟨_, quote, rfl | rfl, free, _⟩ := spellable
    · exact .inl free
    · exact .inr free
  | number => exact .inl fun quote => absurd (isDigit_of_mem_toString quote) (by decide)

/-- What is derived from tokens that words can spell can be written. -/
theorem Derives.writable {phrase : Phrase} (h : Derives namespaces phrase ts)
    (spellable : ∀ t ∈ ts, t.Spellable) : Writable namespaces phrase.plain := by
  induction h with
  | relative _ ih => exact .relative (ih spellable)
  | root => exact .root
  | absolute _ ih => exact .absolute (ih (List.forall_mem_cons.mp spellable).2)
  | anywhere _ ih => exact .anywhere (ih (List.forall_mem_cons.mp spellable).2)
  | last _ ih => exact .last (ih spellable)
  | slash _ _ first more =>
    obtain ⟨spelled, rest⟩ := List.forall_mem_append.mp spellable
    exact .slash (first spelled) (more (List.forall_mem_cons.mp rest).2)
  | doubleSlash _ _ first more =>
    obtain ⟨spelled, rest⟩ := List.forall_mem_append.mp spellable
    exact .doubleSlash (first spelled) (more (List.forall_mem_cons.mp rest).2)
  | step head _ ih =>
    obtain ⟨spelled, rest⟩ := List.forall_mem_append.mp spellable
    exact .step (isMove_of_isHead head spelled) (ih rest)
  | noPredicate => exact .noPredicate
  | position positive _ ih =>
    simp only [List.forall_mem_cons] at spellable
    obtain ⟨_, ⟨_, _, _, _, bounded⟩, _, rest⟩ := spellable
    exact .position positive bounded (ih rest)
  | filter _ _ first more =>
    simp only [List.forall_mem_cons, List.forall_mem_append] at spellable
    exact .filter (first spellable.2.1) (more spellable.2.2.2)
  | present _ ih => exact .present (ih spellable)
  | equals _ isLiteral ih =>
    simp only [List.forall_mem_cons, List.forall_mem_append] at spellable
    exact .equals (ih spellable.1) (isQuotable_of_isLiteral isLiteral spellable.2.2.1)
  | differs _ isLiteral ih =>
    simp only [List.forall_mem_cons, List.forall_mem_append] at spellable
    exact .differs (ih spellable.1) (isQuotable_of_isLiteral isLiteral spellable.2.2.1)
  | not _ ih =>
    simp only [List.forall_mem_cons, List.forall_mem_append] at spellable
    exact .not (ih spellable.2.2.1)
  | parentheses _ ih =>
    simp only [List.forall_mem_cons, List.forall_mem_append] at spellable
    exact ih spellable.2.1
  | conjunct _ ih => exact ih spellable
  | and _ _ _ left right =>
    simp only [List.forall_mem_cons, List.forall_mem_append] at spellable
    exact .and (left spellable.1) (right spellable.2.2)
  | alternative _ ih => exact ih spellable
  | or _ _ _ left right =>
    simp only [List.forall_mem_cons, List.forall_mem_append] at spellable
    exact .or (left spellable.1) (right spellable.2.2)

end Readings

section Compilation
variable {path : LocationPath} {text : String}

/-- A text is compiled to the path that the tokens it spells derive. -/
theorem compile_eq_ok_iff : compile namespaces text = .ok path ↔
    ∃ ts, Spells ts text.toList ∧ Derives namespaces (.path path) ts := by
  unfold compile
  constructor
  · intro read
    obtain ⟨ts, spelled, derived⟩ := exists_of_bind read
    exact ⟨ts, tokenize_eq_ok_iff.mp spelled, parseTokens_eq_ok_iff.mp derived⟩
  · rintro ⟨ts, spelled, derived⟩
    rw [bind_of_ok (tokenize_eq_ok_iff.mpr spelled)]
    exact parseTokens_eq_ok_iff.mpr derived

theorem compile_written (writable : Writable namespaces (.path path)) (full : Bool) :
    compile namespaces (path.written namespaces full) = .ok path := by
  rw [compile_eq_ok_iff, LocationPath.written, String.toList_ofList]
  exact ⟨path.tokens namespaces full, spells_textOf writable.spellable, writable.derives⟩

theorem writable_of_compile (read : compile namespaces text = .ok path) :
    Writable namespaces (.path path) := by
  obtain ⟨ts, spelled, derived⟩ := compile_eq_ok_iff.mp read
  exact derived.writable spelled.spellable

theorem compile_blank {before gap after : String} {ts us : List Token}
    (first : tokenize before.toList = .ok ts) (second : tokenize after.toList = .ok us)
    (both : tokenize (before ++ after).toList = .ok (ts ++ us))
    (blank : ∀ c ∈ gap.toList, isSpace c) :
    compile namespaces (before ++ gap ++ after) = compile namespaces (before ++ after) := by
  unfold compile
  rw [String.toList_append] at both
  rw [String.toList_append, String.toList_append, String.toList_append, both,
    tokenize_blank first second both blank]

/-- Compilation takes from a text the path that the tokens of the text derive. So it reads back
what is written for a path, with all parentheses or only the needed ones, whatever white space
stands between the tokens, and what it reads can be written and is read back. -/
theorem compile_undoes_writing (namespaces : Entries String) :
    (∀ text path, compile namespaces text = .ok path ↔
      ∃ ts, Spells ts text.toList ∧ Derives namespaces (.path path) ts) ∧
    (∀ path full, Writable namespaces (.path path) →
      compile namespaces (path.written namespaces full) = .ok path) ∧
    (∀ (before gap after : String) (ts us : List Token), Spells ts before.toList →
      Spells us after.toList → Spells (ts ++ us) (before ++ after).toList →
      (∀ c ∈ gap.toList, isSpace c) →
      compile namespaces (before ++ gap ++ after) = compile namespaces (before ++ after)) ∧
    (∀ text path, compile namespaces text = .ok path → Writable namespaces (.path path) ∧
      ∀ full, compile namespaces (path.written namespaces full) = .ok path) := by
  refine ⟨fun _ _ => compile_eq_ok_iff, ?_, ?_, ?_⟩
  · intro path full writable
    exact compile_written writable full
  · intro before gap after ts us first second both blank
    exact compile_blank (tokenize_eq_ok_iff.mpr first) (tokenize_eq_ok_iff.mpr second)
      (tokenize_eq_ok_iff.mpr both) blank
  · intro text path read
    have writable := writable_of_compile read
    exact ⟨writable, compile_written writable⟩

/-- A path to names that would be connectives in another place. -/
def connectiveNames : LocationPath :=
  .mk true [.descendants, .mk .child (.name (some "urn:r") "part") [.filter
    (.or (.and (.present (.mk false [.mk .child (.name none "or") []]))
        (.not (.present (.mk false [.mk .self .node []]))))
      (.equals (.mk false [.mk .attribute (.name none "and") []]) "it's"))]]

theorem connectiveNames_read_back :
    Writable [("r", "urn:r")] (.path connectiveNames) ∧
    compile [("r", "urn:r")] "//r:part[or and not(.)or@and=\"it's\"]" = .ok connectiveNames ∧
    compile [("r", "urn:r")] "//r:part[((or)and(not(.)))or(@and=\"it's\")]" =
      .ok connectiveNames := by
  have isPrefix : isName "r".toList := by decide
  have part : Writable [("r", "urn:r")] (.path connectiveNames) := by
    refine .anywhere (.last (.step (.childNamed (.prefixed isPrefix rfl ?_))
      (.filter (.or (.and ?_ (.not ?_)) (.equals ?_ ?_)) .noPredicate)))
    · decide
    · exact .present (.relative (.last (.step (.childNamed (.bare (by decide))) .noPredicate)))
    · exact .present (.relative (.last (.step .self .noPredicate)))
    · exact .relative (.last (.step (.attributeNamed (.bare (by decide))) .noPredicate))
    · exact .inr (by decide)
  have bare : connectiveNames.written [("r", "urn:r")] false =
      "//r:part[or and not(.)or@and=\"it's\"]" := by decide +kernel
  have full : connectiveNames.written [("r", "urn:r")] true =
      "//r:part[((or)and(not(.)))or(@and=\"it's\")]" := by decide +kernel
  have read := (compile_undoes_writing [("r", "urn:r")]).2.1 connectiveNames
  exact ⟨part, bare ▸ read false part, full ▸ read true part⟩

end Compilation

end CatalogGraph.XPath
